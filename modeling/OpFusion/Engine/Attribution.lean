/-
  Which applications a compiler complains of.

  A complaint that names a line of the module belongs to the application whose name stands on that line,
  or else to the last one whose code starts at or before it. If no complaint can be placed, all
  applications are named.
-/
import OpFusion.Module.Assembly
import OpFusion.Text.Search

namespace OpFusion.Attribution

/-- The name of the file that holds the text of a module. -/
def sourceFile : String := "module.c"

/-- The text before a line number in a complaint. -/
def reference : List Char := (sourceFile ++ ":").toList

/-- The numbers that were found, and then the one that digits write, if a word holds it and it is new. -/
def note (found : List Nat) (digits : List Char) : List Nat :=
  match Text.word? digits with
  | some line => if line ∈ found then found else found ++ [line]
  | none => found

/-- The numbers that were found, and then those that directly follow a reference in the text. The search goes
on behind each reference. -/
def linesFrom (found : List Nat) (text : List Char) : List Nat :=
  match _ : Text.afterFirst? reference text with
  | some rest => linesFrom (note found (rest.takeWhile Char.isDigit)) rest
  | none => found
termination_by text.length
decreasing_by exact Text.length_lt_of_afterFirst? (show reference ≠ [] by decide) ‹_›

/-- The numbers of the lines that complaints name, without repetition. -/
def diagnosticLines (diagnostics : String) : List Nat := linesFrom [] diagnostics.toList

/-- The lines of a module on which the code of applications starts, each with the position of its
application. -/
def starts (lines : List (List Char)) (applications : List Signature) : List (Nat × Nat) :=
  applications.zipIdx.filterMap fun (a, index) =>
    (lines.findIdx? fun line => Text.trim line = (Module.marker a.name).toList).map fun line =>
      (line + 1, index)

/-- The application whose name stands on a line. -/
def byName? (lines : List (List Char)) (applications : List Signature) (line : Nat) : Option Nat :=
  if line = 0 then none
  else lines[line - 1]?.bind fun text =>
    applications.findIdx? fun a => Text.occursIn a.name.toList text

/-- The last application that starts at or before a line. -/
def byBlock? (starts : List (Nat × Nat)) (line : Nat) : Option Nat :=
  (starts.reverse.find? (·.1 ≤ line)).map (·.2)

/-- The applications that complaints belong to, in the order of the complaints. -/
def blamed (m : Module) (diagnostics : String) : List Nat :=
  let lines := Text.lines m.source.toList
  let starts := starts lines m.applications
  ((diagnosticLines diagnostics).filterMap fun line =>
    (byName? lines m.applications line).or (byBlock? starts line)).eraseDups

/-- An application in a message. -/
def describe (a : Signature) : String := a.name ++ " (op '" ++ a.kind ++ "')"

/-- The words before the complaints of a compiler. -/
def context (m : Module) (diagnostics : String) : String :=
  match blamed m diagnostics with
  | [] => "module applications: " ++ ", ".intercalate (m.applications.map describe)
  | indices =>
    "in application " ++
      ", ".intercalate ((indices.filterMap fun index => m.applications[index]?).map describe)

/-- An error with the applications named, if it is a compiler's. -/
def blame (m : Module) : Error → Error
  | .compile key diagnostics => .compile key (context m diagnostics ++ ": " ++ diagnostics)
  | e => e

end OpFusion.Attribution
