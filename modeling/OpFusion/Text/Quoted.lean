/-
  Quoted text: between double quotes, with a backslash form for the quote, the backslash, the common
  control characters and every character that is not shown.
-/
import OpFusion.Text.Number
import OpFusion.Text.Shown

namespace OpFusion.Text

/-- A character inside quotes. -/
def quotedChar (c : Char) : List Char :=
  if c = '\x00' then ['\\', '0']
  else if c = '\t' then ['\\', 't']
  else if c = '\r' then ['\\', 'r']
  else if c = '\n' then ['\\', 'n']
  else if c = '\\' then ['\\', '\\']
  else if c = '"' then ['\\', '"']
  else if isShown c then [c]
  else ['\\', 'u', '\x7b'] ++ hexNumber c.toNat ++ ['\x7d']

/-- A string between quotes. -/
def quoted (s : String) : String :=
  String.ofList ('"' :: s.toList.flatMap quotedChar ++ ['"'])

/-- Shown items in square brackets, with a comma and a space between them. -/
def bracketed (items : List String) : String := "[" ++ ", ".intercalate items ++ "]"

end OpFusion.Text
