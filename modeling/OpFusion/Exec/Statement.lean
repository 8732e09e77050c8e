/-
  What the statements of a computation do.
-/
import OpFusion.Exec.Frame
import OpFusion.Kind.Statement

namespace OpFusion.Statement

/-- A number as a word of 32 bits without a sign. -/
def halfWord (n : Int) : Nat := (n % 0x100000000).toNat

/-- The extents that an allocation passes on: none, or as many as its rank. -/
def passedDims (rank : Nat) (dims : List Int) : Option (Option (List Int64)) :=
  if dims.isEmpty then some none
  else if rank ≤ dims.length then some (some ((dims.take rank).map Int64.ofInt))
  else none

/-- Runs a statement. -/
def run (c : Context) (f : Frame) : Statement → Flow
  | fail message => f.fail (c.failure message)
  | note bytes => .next (f.record (Frame.byteText bytes))
  | noteNothing => .next (f.record Frame.unspecified)
  | status value => .next { f with status := Int32.ofInt value }
  | releaseInput index => .given f.operands[index]? f.releaseSome
  | releaseNothing => .next f
  | dropOutput index =>
    .given f.outputs[index]? fun address =>
      (f.releaseSome address).andThen fun f => .next (f.setSlot (.output index) none)
  | allocate tag rank dims =>
    .given (passedDims (halfWord rank) dims) fun passed =>
      let (address, f) := f.reserve (halfWord tag) (halfWord rank) passed
      f.releaseSome address
  | set output position value =>
    f.write output (8 * position) (Element.toBytes .i64 (Int64.ofInt value))
  | count symbol =>
    let s := f.static symbol
    (f.write 0 0 (Element.toBytes .i64 s.number)).andThen fun f => .next (f.setStatic symbol s.advanced)

/-- Runs statements one after another. -/
def runAll (c : Context) (statements : List Statement) (f : Frame) : Flow :=
  statements.foldl (fun flow s => flow.andThen fun f => s.run c f) (.next f)

end OpFusion.Statement
