/-
  Initialisation code: what runs once after a module is loaded.

  The function that runs it returns a status. A failure that is reported, or a status other than zero, is
  an error.
-/
import OpFusion.Exec.FreeCode
import OpFusion.Module.Text

namespace OpFusion.Init

open Source (Program)

/-- Runs the initialisation code of a program; gives the status that is returned. -/
def run : Run Int32 := do
  let v ← Run.call stepLimit [] (.name Module.initSymbol) [Run.servicesValue]
  return Int32.ofInt (v.toInt?.getD 0)

/-- The variables after initialisation, or why it failed. Code that breaks a rule leaves no answer. -/
def outcome (p : Program) : Except String Statics :=
  let f : Frame :=
    { heap := {}, inputs := [], outputs := [], temps := [], statics := p.statics, program := p }
  match run.run { frame := f } with
  | none => .error ""
  | some (status, m) =>
    match m.frame.failure with
    | some message => .error message
    | none =>
      if status = 0 then .ok m.frame.statics else .error ("status " ++ toString status.toInt)

end OpFusion.Init
