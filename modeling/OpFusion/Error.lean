/-
  What can go wrong, from a rejected application to a failed invocation.

  Most causes carry a wording that another part of the library chose; `Error.message` puts it into its
  frame. `crash` is the end of an operation that has no answer.
-/

namespace OpFusion

/-- The causes of failure. -/
inductive Error where
  /-- A kind rejected one of its applications. -/
  | contributor (kind application reason : String)
  /-- The fragments of a graph do not form a module. -/
  | assembly (reason : String)
  /-- A graph is not well-formed. -/
  | graph (reason : String)
  /-- The compiler rejected a module. -/
  | compile (key diagnostics : String)
  /-- A stored artifact cannot be used. -/
  | corruption (key reason : String)
  /-- A library cannot be loaded. -/
  | load (reason : String)
  /-- A call does not fit the signature of its module. -/
  | invocation (reason : String)
  /-- A computation reported a failure. -/
  | runtime (reason : String)
  /-- The request was cancelled. -/
  | cancelled
  /-- The system refused an operation. -/
  | io (context reason : String)
  /-- A value has no encoding. -/
  | serialization (reason : String)
  /-- The operation stopped without an answer. -/
  | crash
  deriving DecidableEq

namespace Error

/-- The wording of an error. -/
def message : Error → String
  | contributor kind application reason =>
    "op '" ++ kind ++ "' rejected application '" ++ application ++ "': " ++ reason
  | assembly reason => "module assembly failed: " ++ reason
  | graph reason => "invalid graph: " ++ reason
  | compile key diagnostics => "compilation of module " ++ key ++ " failed: " ++ diagnostics
  | corruption key reason => "cache entry " ++ key ++ " is unreadable: " ++ reason
  | load reason => "failed to load compiled module: " ++ reason
  | invocation reason => "invalid invocation: " ++ reason
  | runtime reason => "compiled computation failed: " ++ reason
  | cancelled => "module build was cancelled"
  | io context reason => context ++ ": " ++ reason
  | serialization reason => "serialization failed: " ++ reason
  | crash => ""

/-- The word for the cause, or nothing where there is no answer. -/
def label? : Error → Option String
  | contributor .. => some "Contributor"
  | assembly _ => some "Assembly"
  | graph _ => some "Graph"
  | compile .. => some "Compile"
  | corruption .. => some "CacheCorruption"
  | load _ => some "Load"
  | invocation _ => some "Invocation"
  | runtime _ => some "Runtime"
  | cancelled => some "Cancelled"
  | io .. => some "Io"
  | serialization _ => some "Serialization"
  | crash => none

/-- The error that a word and its arguments stand for; missing arguments are empty. -/
def ofLabel? (label : String) (args : List String) : Option Error :=
  let arg (i : Nat) : String := args.getD i ""
  match label with
  | "Contributor" => some (.contributor (arg 0) (arg 1) (arg 2))
  | "Assembly" => some (.assembly (arg 0))
  | "Graph" => some (.graph (arg 0))
  | "Compile" => some (.compile (arg 0) (arg 1))
  | "CacheCorruption" => some (.corruption (arg 0) (arg 1))
  | "Load" => some (.load (arg 0))
  | "Invocation" => some (.invocation (arg 0))
  | "Runtime" => some (.runtime (arg 0))
  | "Cancelled" => some .cancelled
  | "Io" => some (.io (arg 0) (arg 1))
  | "Serialization" => some (.serialization (arg 0))
  | _ => none

/-- Whether the request was cancelled. -/
def isCancelled : Error → Bool
  | cancelled => true
  | _ => false

end Error

end OpFusion
