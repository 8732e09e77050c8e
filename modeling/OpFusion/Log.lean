/-
  Events that the library reports while it works.
-/

namespace OpFusion

/-- How much an event matters. -/
inductive Level where
  | debug
  | info
  | warn
  deriving DecidableEq

/-- The word for a level. -/
def Level.text : Level → String
  | .debug => "DEBUG"
  | .info => "INFO"
  | .warn => "WARN"

/-- An event, with the value or the error that it is about. -/
structure Event where
  level : Level
  message : String
  detail : Option String := none
  deriving DecidableEq

end OpFusion
