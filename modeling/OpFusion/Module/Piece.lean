/-
  Pieces of generated text: either text as it stands, or a block that is moved to its level.
-/
import OpFusion.Error
import OpFusion.Text.Block

namespace OpFusion

/-- A part of a module's text. -/
inductive Piece where
  /-- Text as it stands. -/
  | verbatim (text : String)
  /-- A block at a level of indentation. -/
  | block (level : Nat) (text : String)
  deriving DecidableEq

namespace Piece

/-- Lines as they stand. -/
def lines (ls : List String) : Piece := .verbatim (String.join (ls.map (· ++ "\n")))

/-- The text of a piece; a block that cannot be moved stops everything. -/
def render : Piece → Except Error String
  | verbatim text => .ok text
  | block level text =>
    match Text.reindent? level text.toList with
    | some cs => .ok (String.ofList cs)
    | none => .error .crash

/-- The text of pieces, one after another. -/
def renderAll : List Piece → Except Error String
  | [] => .ok ""
  | p :: ps => do
    let head ← p.render
    let rest ← renderAll ps
    return head ++ rest

/-- The number of line ends in a text. -/
def lineCount (text : String) : Nat := text.toList.count '\n'

/-- The number of lines of a piece. -/
def height (p : Piece) : Nat :=
  match p.render with
  | .ok text => lineCount text
  | .error _ => 0

end Piece

end OpFusion
