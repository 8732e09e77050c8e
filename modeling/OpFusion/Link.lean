/-
  What a kind asks of the compiler and the linker.

  Requirements are lists of headers, libraries, search paths, flags and initialisation code. They are
  collected without repetition, in the order of their first mention.
-/

namespace OpFusion

/-- Headers, libraries, search paths, flags and code that runs once after loading. -/
structure Link where
  headers : List String := []
  libraries : List String := []
  libDirs : List String := []
  includeDirs : List String := []
  compileFlags : List String := []
  linkFlags : List String := []
  initCode : List String := []
  deriving DecidableEq

namespace Link

/-- The list with an item at its end, unless it is there already. -/
def pushUnique (items : List String) (item : String) : List String :=
  if item ∈ items then items else items ++ [item]

/-- The first list and then what is new in the second. -/
def union (items more : List String) : List String := more.foldl pushUnique items

/-- The requirements of `a`, then those that are new in `b`. -/
def merge (a b : Link) : Link where
  headers := union a.headers b.headers
  libraries := union a.libraries b.libraries
  libDirs := union a.libDirs b.libDirs
  includeDirs := union a.includeDirs b.includeDirs
  compileFlags := union a.compileFlags b.compileFlags
  linkFlags := union a.linkFlags b.linkFlags
  initCode := union a.initCode b.initCode

/-- No requirements at all. -/
def isEmpty (a : Link) : Bool :=
  a.headers.isEmpty && a.libraries.isEmpty && a.libDirs.isEmpty && a.includeDirs.isEmpty &&
    a.compileFlags.isEmpty && a.linkFlags.isEmpty && a.initCode.isEmpty

/-- The lists of requirements. -/
inductive Field where
  | headers
  | libraries
  | libDirs
  | includeDirs
  | compileFlags
  | linkFlags
  | initCode
  deriving DecidableEq

/-- The requirements with one more item in a list. -/
def add (a : Link) (field : Field) (item : String) : Link :=
  match field with
  | .headers => { a with headers := pushUnique a.headers item }
  | .libraries => { a with libraries := pushUnique a.libraries item }
  | .libDirs => { a with libDirs := pushUnique a.libDirs item }
  | .includeDirs => { a with includeDirs := pushUnique a.includeDirs item }
  | .compileFlags => { a with compileFlags := pushUnique a.compileFlags item }
  | .linkFlags => { a with linkFlags := pushUnique a.linkFlags item }
  | .initCode => { a with initCode := pushUnique a.initCode item }

end Link

end OpFusion
