/-
  Waiting for a program that may be cancelled or run out of time.

  The program is looked after every few milliseconds, the first time as soon as it is started, when it
  has not ended yet. A raised token counts before the limit.
-/

namespace OpFusion.Wait

/-- The milliseconds between two looks. -/
def interval : Nat := 5

/-- The number of the first look at or after a time. -/
def lookAt (milliseconds : Nat) : Nat := (milliseconds + interval - 1) / interval

/-- How waiting ends. -/
inductive Result where
  | ended
  | cancelled
  | timedOut
  deriving DecidableEq

/-- How waiting ends for a program that hangs, or one that has ended by the second look, if the token is
raised and the limit reached after the given times. -/
def result (hangs : Bool) (raisedAfter limit : Option Nat) : Result :=
  let due (time : Option Nat) : Option Nat :=
    (time.map lookAt).filter fun look => hangs || look == 0
  match due raisedAfter, due limit with
  | some r, some l => if r ≤ l then .cancelled else .timedOut
  | some _, none => .cancelled
  | none, some _ => .timedOut
  | none, none => .ended

/-- The digits of a fraction of thousandths, without zeros at the end. -/
def fraction (thousandths : Nat) : List Char :=
  let digits := [thousandths / 100 % 10, thousandths / 10 % 10, thousandths % 10].map Nat.digitChar
  (digits.reverse.dropWhile (· = '0')).reverse

/-- A time in its largest unit. -/
def text (milliseconds : Nat) : String :=
  if milliseconds = 0 then "0ns"
  else if milliseconds < 1000 then toString milliseconds ++ "ms"
  else
    let f := fraction (milliseconds % 1000)
    toString (milliseconds / 1000) ++ (if f = [] then "" else "." ++ String.ofList f) ++ "s"

end OpFusion.Wait
