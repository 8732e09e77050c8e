/-
  Settings, and how variables of the environment choose them.

  A variable that is blank counts as not set. A number that cannot be read is ignored with a warning,
  and zero stands for no limit.
-/
import OpFusion.Error
import OpFusion.Log
import OpFusion.Text.Blank
import OpFusion.Text.Number

namespace OpFusion

/-- The settings of an engine. -/
structure Config where
  /-- The root of stored artifacts. -/
  cacheDir : String
  /-- Whether artifacts are stored on disk. -/
  diskCache : Bool := true
  compiler : String := "cc"
  flags : List String := ["-O2"]
  /-- The number of modules that are kept in memory. -/
  memoryCapacity : Option Nat := none
  /-- The seconds that a compiler may run. -/
  compileTimeout : Option Nat := none
  /-- Whether the text of each module is kept next to its artifact. -/
  keepSources : Bool := false
  deriving DecidableEq

namespace Config

/-- The settings of a system with the given directory for temporary files. -/
def standard (tempDir : String) : Config := { cacheDir := tempDir ++ "/fusejit" }

/-- A variable that is set and not blank. -/
def setting? (lookup : String → Option String) (name : String) : Option String :=
  (lookup name).filter fun value => !Text.allBlank value.toList

/-- Whether a value says yes. -/
def isTrue (value : String) : Bool :=
  String.ofList ((Text.trim value.toList).map Char.toLower) ∈ ["1", "true", "yes", "on"]

/-- A limit: a number, or none if it is zero; a value that is no number leaves the limit as it was. -/
def limit (name : String) (current : Option Nat) : Option String → Option Nat × List Event
  | none => (current, [])
  | some value =>
    match Text.word? (Text.trim value.toList) with
    | some 0 => (none, [])
    | some n => (some n, [])
    | none => (current, [⟨.warn, "ignoring invalid " ++ name, some value⟩])

/-- The settings that variables choose, and the warnings about them. -/
def ofLookup (tempDir : String) (lookup : String → Option String) : Config × List Event :=
  let get := setting? lookup
  let base := standard tempDir
  let (capacity, capacityLog) :=
    limit "FUSEJIT_MEMORY_CAPACITY" base.memoryCapacity (get "FUSEJIT_MEMORY_CAPACITY")
  let (timeout, timeoutLog) :=
    limit "FUSEJIT_COMPILE_TIMEOUT_SECS" base.compileTimeout (get "FUSEJIT_COMPILE_TIMEOUT_SECS")
  ({ cacheDir := (get "FUSEJIT_CACHE_DIR").getD base.cacheDir
     diskCache := ((get "FUSEJIT_DISABLE_DISK_CACHE").map (!isTrue ·)).getD base.diskCache
     compiler := (((get "FUSEJIT_CC").or (get "CC")).map Text.trimmed).getD base.compiler
     flags := ((get "FUSEJIT_CFLAGS").map fun value =>
       (Text.words value.toList).map String.ofList).getD base.flags
     memoryCapacity := capacity
     compileTimeout := timeout
     keepSources := ((get "FUSEJIT_KEEP_SOURCES").map isTrue).getD base.keepSources },
    capacityLog ++ timeoutLog)

/-- The variables that choose settings. -/
def variableNames : List String :=
  ["FUSEJIT_CACHE_DIR", "FUSEJIT_DISABLE_DISK_CACHE", "FUSEJIT_CC", "CC", "FUSEJIT_CFLAGS",
    "FUSEJIT_MEMORY_CAPACITY", "FUSEJIT_COMPILE_TIMEOUT_SECS", "FUSEJIT_KEEP_SOURCES"]

/-- Whether the environment can hold the value of a variable: it has no null character. -/
def isHeld (value : String) : Bool := !value.toList.contains '\x00'

/-- The settings that the variables of an environment choose, and the warnings about them. Other
variables do not matter. -/
def ofEnvironment (tempDir : String) (entries : List (String × String)) :
    Except Error (Config × List Event) :=
  if variableNames.all fun name => (entries.lookup name).all isHeld then
    .ok (ofLookup tempDir fun name => entries.lookup name)
  else .error .crash

end Config

end OpFusion
