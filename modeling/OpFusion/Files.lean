/-
  Files and directories, as far as they are known.

  An operation follows all names of a path but the last: where one is missing there is nothing to be
  found, and where one is a file the way is not through directories. All directories above the working
  directory exist.
-/
import OpFusion.Path
import OpFusion.Table

namespace OpFusion

/-- A file with its bytes, which may be one that can be run, or a directory. -/
inductive Node where
  | file (content : List UInt8) (executable : Bool)
  | directory
  deriving DecidableEq

/-- All entries that are known. -/
structure Files where
  entries : List (Path.Location × Node) := []

namespace Files

/-- Why an operation is refused. -/
inductive Fault where
  | notFound
  | notExecutable
  | denied
  | exists
  | notDirectory
  | isDirectory
  | busy
  | nameTooLong
  /-- A path has a NUL in it. -/
  | nulInPath
  /-- Another reason, in words. -/
  | other (reason : String)
  deriving DecidableEq

/-- The wording of a fault. -/
def Fault.message : Fault → String
  | .notFound => "No such file or directory (os error 2)"
  | .notExecutable => "Exec format error (os error 8)"
  | .denied => "Permission denied (os error 13)"
  | .exists => "File exists (os error 17)"
  | .notDirectory => "Not a directory (os error 20)"
  | .isDirectory => "Is a directory (os error 21)"
  | .busy => "Text file busy (os error 26)"
  | .nameTooLong => "File name too long (os error 36)"
  | .nulInPath => "file name contained an unexpected NUL byte"
  | .other reason => reason

/-! ## Places -/

/-- What a place holds; a place to start from is a directory. -/
def node? (fs : Files) (l : Path.Location) : Option Node :=
  if l.names = [] then some .directory else fs.entries.lookup l

/-- The entries with a node at a place. -/
def set (fs : Files) (l : Path.Location) (node : Node) : Files :=
  ⟨Table.insert fs.entries l node⟩

/-- The entries without a place. -/
def erase (fs : Files) (l : Path.Location) : Files := ⟨Table.erase fs.entries l⟩

/-- The place that a name leads to from a directory. -/
def step (l : Path.Location) (name : String) : Except Fault Path.Location :=
  if name = ".." then .ok l.parent
  else if Path.maxName < name.utf8ByteSize then .error .nameTooLong
  else .ok (l.child name)

/-- The directory that a name leads to from a directory. -/
def enter (fs : Files) (l : Path.Location) (name : String) : Except Fault Path.Location :=
  match step l name with
  | .error fault => .error fault
  | .ok next =>
    match fs.node? next with
    | some .directory => .ok next
    | some (.file _ _) => .error .notDirectory
    | none => .error .notFound

/-- The place that names lead to from a directory, the last one of which may be missing. -/
def follow (fs : Files) (l : Path.Location) : List String → Except Fault Path.Location
  | [] => .ok l
  | [name] => step l name
  | name :: names =>
    match fs.enter l name with
    | .error fault => .error fault
    | .ok next => fs.follow next names

/-- The place that a path leads to. -/
def locate (fs : Files) (path : String) : Except Fault Path.Location :=
  if path.toList.contains '\x00' then .error .nulInPath
  else if path = "" then .error .notFound
  else if Path.maxLength < path.utf8ByteSize then .error .nameTooLong
  else fs.follow (Path.start path) (Path.names path)

/-- The place that a path leads to and what it holds, or why nothing can be reached there. -/
def reach (fs : Files) (path : String) : Except Fault (Path.Location × Node) :=
  match fs.locate path with
  | .error fault => .error fault
  | .ok l =>
    match fs.node? l with
    | some .directory => .ok (l, .directory)
    | some (.file content executable) =>
      if Path.endsInDirectory path then .error .notDirectory
      else .ok (l, .file content executable)
    | none => .error .notFound

/-- Whether a path leads to a file. -/
def isFile (fs : Files) (path : String) : Bool :=
  match fs.reach path with
  | .ok (_, .file _ _) => true
  | _ => false

/-! ## Files -/

/-- The bytes of a file. -/
def read (fs : Files) (path : String) : Except Fault (List UInt8) :=
  match fs.reach path with
  | .ok (_, .file content _) => .ok content
  | .ok (_, .directory) => .error .isDirectory
  | .error fault => .error fault

/-- Writes a file, new or in place of another; one that can be run stays so. -/
def write (fs : Files) (path : String) (content : List UInt8) : Except Fault Files :=
  match fs.locate path with
  | .error fault => .error fault
  | .ok l =>
    if Path.endsInDirectory path then .error .isDirectory
    else match fs.node? l with
      | some .directory => .error .isDirectory
      | some (.file _ executable) => .ok (fs.set l (.file content executable))
      | none => .ok (fs.set l (.file content false))

/-- Removes a file. -/
def remove (fs : Files) (path : String) : Except Fault Files :=
  match fs.reach path with
  | .ok (l, .file _ _) => .ok (fs.erase l)
  | .ok (_, .directory) => .error .isDirectory
  | .error fault => .error fault

/-- The entries without the file at a path, if there is one. -/
def discard (fs : Files) (path : String) : Files := (fs.remove path).toOption.getD fs

/-- Moves a file to a path that leads to no directory. -/
def rename (fs : Files) (source target : String) : Except Fault Files := do
  let content ← fs.read source
  let fs ← fs.write target content
  return fs.discard source

/-! ## Directories -/

/-- Makes a directory where names lead. -/
def makeDirectory (fs : Files) (l : Path.Location) (names : List String) : Except Fault Files :=
  match fs.follow l names with
  | .error fault => .error fault
  | .ok place => if (fs.node? place).isSome then .error .exists else .ok (fs.set place .directory)

/-- Whether names lead to a directory. -/
def isDirectory (fs : Files) (l : Path.Location) (names : List String) : Bool :=
  match fs.follow l names with
  | .ok place => fs.node? place == some .directory
  | .error _ => false

/-- Makes a directory where names lead, unless there is one. -/
def ensureDirectory (fs : Files) (l : Path.Location) (names : List String) : Except Fault Files :=
  match fs.makeDirectory l names with
  | .ok fs => .ok fs
  | .error fault => if fs.isDirectory l names then .ok fs else .error fault

/-- Makes a directory where names, given from the last one back, lead, after those on the way to it if
they are missing. What was made before a failure stays. -/
def ensureDirectories (fs : Files) (l : Path.Location) : List String → Except Fault Unit × Files
  | [] => (.ok (), fs)
  | name :: before =>
    match fs.ensureDirectory l (name :: before).reverse with
    | .ok fs => (.ok (), fs)
    | .error .notFound =>
      match fs.ensureDirectories l before with
      | (.error fault, fs) => (.error fault, fs)
      | (.ok _, fs) =>
        match fs.ensureDirectory l (name :: before).reverse with
        | .ok fs => (.ok (), fs)
        | .error fault => (.error fault, fs)
    | .error fault => (.error fault, fs)

/-- Makes a directory and all that lead to it. -/
def makeDirectories (fs : Files) (path : String) : Except Fault Unit × Files :=
  if path.toList.contains '\x00' then (.error .nulInPath, fs)
  else if Path.maxLength < path.utf8ByteSize then (.error .nameTooLong, fs)
  else fs.ensureDirectories (Path.start path) (Path.names path).reverse

/-! ## Plain effects -/

/-- The entries with a directory at a path and on the way to it, where that is possible. -/
def plantDirectory (fs : Files) (path : String) : Files := (fs.makeDirectories path).2

/-- The entries with a file at a path and directories on the way to it, where that is possible. -/
def plantFile (fs : Files) (path : String) (content : List UInt8) : Files :=
  let fs := (fs.ensureDirectories (Path.start path) (Path.names path).dropLast.reverse).2
  (fs.write path content).toOption.getD fs

/-- The entries with a file that can be run at a path, where that is possible. -/
def plantProgram (fs : Files) (path : String) (content : List UInt8) : Files :=
  let fs := fs.plantFile path content
  match fs.reach path with
  | .ok (l, .file content _) => fs.set l (.file content true)
  | _ => fs

/-- A name that no entry of a directory has. -/
def freshName (fs : Files) (dir : String) : String :=
  let taken (n : Nat) : Bool :=
    (fs.reach (Path.join dir (".tmp" ++ toString n))).toOption.isSome
  ".tmp" ++ toString (((List.range (fs.entries.length + 1)).find? (!taken ·)).getD 0)

/-- The paths of all entries below a directory in order, those of directories with a slash at the
end. -/
def listing (fs : Files) (root : String) : List String :=
  match fs.reach root with
  | .ok (top, .directory) =>
    (fs.entries.filterMap fun (l, node) =>
      if l.start = top.start ∧ top.names.isPrefixOf l.names ∧ l.names ≠ top.names then
        let text := (l.names.drop top.names.length).foldl Path.join root
        some (if node = .directory then text ++ "/" else text)
      else none).mergeSort fun a b => !decide (b < a)
  | _ => []

end Files

end OpFusion
