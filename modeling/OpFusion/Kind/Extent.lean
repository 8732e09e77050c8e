/-
  Extents of outputs, as expressions of generated code.
-/
import OpFusion.Kind.Context
import OpFusion.Source.Token

namespace OpFusion

/-- An expression for an extent. -/
inductive Extent where
  /-- An extent of an input. -/
  | ofInput (input axis : Nat)
  /-- A number. -/
  | number (value : Int)
  /-- Any other code. -/
  | code (text : String)
  deriving DecidableEq

namespace Extent

/-- The expression in generated code. -/
def text : Extent → String
  | ofInput input axis => Context.input input ++ "->dims[" ++ toString axis ++ "]"
  | number value => toString value
  | code text => text

/-- The extent of an input, or the number, that tokens write. -/
def ofTokens? : List Source.Token → Option Extent
  | [.name buffer, .mark "->", .name "dims", .mark "[", .number axis, .mark "]"] => do
    let input ← Context.inputOf? buffer
    let axis ← Source.constant? axis.toList
    return ofInput input axis.value.toNat
  | [.number text] => (Source.constant? text.toList).map fun x => number x.value
  | [.mark "-", .number text] => (Source.constant? text.toList).map fun x => number (-x.value)
  | _ => none

/-- The extent that a text writes: an extent of an input or a number, if it is written as such. -/
def ofText (s : String) : Extent :=
  match ofTokens? (Source.tokens s.toList) with
  | some e => if e.text = s then e else code s
  | none => code s

/-- The expression keeps its text. -/
theorem text_ofText (s : String) : (ofText s).text = s := by
  unfold ofText
  split
  · split
    · assumption
    · rfl
  · rfl

/-- The extents of an input of the given rank. -/
def like (input rank : Nat) : List Extent := (List.range rank).map (ofInput input)

end Extent

end OpFusion
