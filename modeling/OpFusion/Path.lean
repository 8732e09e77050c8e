/-
  Paths: names between slashes, as texts that are shown to the user.

  Empty names and `.` stand for nothing, and `..` leads to the directory above. A path that starts with
  a slash starts at the root, any other one at the working directory.
-/
import OpFusion.Text.Blank

namespace OpFusion.Path

/-! ## Where paths lead -/

/-- A directory from which names lead on. -/
inductive Start where
  | root
  /-- The directory that many levels above the working directory. -/
  | above (levels : Nat)
  deriving DecidableEq

/-- A place: the names that lead down to it. -/
structure Location where
  start : Start
  names : List String
  deriving DecidableEq

/-- The place above a place; the root is above itself. -/
def Location.parent (l : Location) : Location :=
  match l.start, l.names with
  | .root, [] => l
  | .above levels, [] => ⟨.above (levels + 1), []⟩
  | start, names => ⟨start, names.dropLast⟩

/-- The place of a name in a directory. -/
def Location.child (l : Location) (name : String) : Location := ⟨l.start, l.names ++ [name]⟩

/-- The texts between the slashes of a path. -/
def pieces (path : String) : List String :=
  (Text.pieces (· = '/') path.toList).map String.ofList

/-- The names of a path. -/
def names (path : String) : List String := (pieces path).filter fun name => name ≠ "" ∧ name ≠ "."

/-- Where a path starts. -/
def start (path : String) : Location :=
  ⟨if path.toList.head? = some '/' then .root else .above 0, []⟩

/-- Whether the end of a path says that it leads to a directory. -/
def endsInDirectory (path : String) : Bool := (pieces path).getLast? ∈ [some "", some "."]

/-- The number of bytes that a name may have. -/
def maxName : Nat := 255

/-- The number of bytes that a path may have. -/
def maxLength : Nat := 4095

/-! ## Paths from paths -/

/-- A path below another one. -/
def join (base name : String) : String :=
  if base = "" ∨ base.toList.getLast? = some '/' then base ++ name else base ++ "/" ++ name

/-- The pieces of a path from the last one back, without those at the end that stand for nothing. -/
def reversedPieces (path : String) : List String :=
  (pieces path).reverse.dropWhile fun piece => piece = "" || piece = "."

/-- A name without its extension: the text before the last dot, unless nothing stands before it. -/
def stem (name : List Char) : List Char :=
  match name.reverse.dropWhile (· ≠ '.') with
  | _ :: before => if before = [] then name else before.reverse
  | [] => name

/-- The path whose last name has another extension. A path without a last name stays as it is; a last
name that starts with two dots before its extension loses the extension, since the dots are no
name. -/
def withExtension (path extension : String) : String :=
  match reversedPieces path with
  | [] => path
  | name :: before =>
    if name = ".." then path
    else
      let base := String.join (before.reverse.map (· ++ "/"))
      let cut := String.ofList (stem name.toList)
      if cut = "." ∧ path = base ++ name then base ++ ".."
      else base ++ cut ++ "." ++ extension

end OpFusion.Path
