/-
  A compiler that is run as an external program.

  Its version is asked for once: the first answer is remembered, while a failure is not. For a job it
  is run with the arguments of the job; what it prints goes to a log next to the output, which is open
  for writing meanwhile.
-/
import OpFusion.Files
import OpFusion.Module.Key
import OpFusion.Toolchain.Job
import OpFusion.Toolchain.Program
import OpFusion.Toolchain.Wait

namespace OpFusion

/-- A command, with the flags and the milliseconds for each run, and its identity once it is known. -/
structure Compiler where
  command : String
  flags : List String
  limit : Option Nat := none
  known : Option Identity := none

namespace Compiler

/-- The command that is run if no other is chosen. -/
def defaultCommand : String := "cc"

/-- The flags for each run if no others are chosen. -/
def defaultFlags : List String := ["-O2"]

/-- The wording for a text that cannot be passed to a program. -/
def nulInArgument : String := "nul byte found in provided data"

/-- Why a command cannot be run, if it cannot. One with a slash is a path; any other is searched for in
the directories for programs, which hold no compiler. The file `inUse` is open for writing. -/
def obstacle? (fs : Files) (command : String) (inUse : Option String) : Option Files.Fault :=
  if !command.toList.contains '/' then
    if command = "." ∨ command = ".." then some .denied
    else if Path.maxName < command.utf8ByteSize then some .nameTooLong
    else some .notFound
  else match fs.reach command with
    | .error fault => some fault
    | .ok (_, .directory) => some .denied
    | .ok (l, .file content executable) =>
      if !executable then some .denied
      else if (inUse.map fs.locate).any fun place => place.toOption = some l then some .busy
      else if content ≠ Program.script then some .notExecutable
      else none

/-- Why a command does not run with the given arguments, if it does not. -/
def refusal? (c : Compiler) (fs : Files) (arguments : List String) (inUse : Option String) :
    Option String :=
  if (c.command :: arguments).any (·.toList.contains '\x00') then some nulInArgument
  else (obstacle? fs c.command inUse).map (·.message)

/-- Asks for the version: the first line of what the program prints. -/
def probe (c : Compiler) (p : Program) (fs : Files) : Except Error Identity :=
  let context := "run '" ++ c.command ++ " --version'"
  match c.refusal? fs ["--version"] none with
  | some reason => .error (.io context reason)
  | none =>
    if p.versionEnding.isSuccess then
      let banner := (Text.lines (Utf8.decodeLossy p.versionOut)).headD []
      .ok ⟨c.command, String.ofList (Text.trim banner), c.flags⟩
    else .error (.io context (String.ofList (Text.trim (Utf8.decodeLossy p.versionErr))))

/-- The identity of the compiler, which is remembered. -/
def identity (c : Compiler) (p : Program) (fs : Files) : Except Error Identity × Compiler :=
  match c.known with
  | some identity => (.ok identity, c)
  | none =>
    match c.probe p fs with
    | .ok identity => (.ok identity, { c with known := some identity })
    | .error e => (.error e, c)

/-- What a run prints. -/
def printed (p : Program) (arguments : List String) : List UInt8 :=
  (if p.echoes then arguments.flatMap fun a => Utf8.bytesOf ("<" ++ a ++ ">\n") else []) ++
    p.out ++ p.err

/-- The files after a run: the log, and what the program makes, which is empty. -/
def leave (fs : Files) (logPath : String) (p : Program) (arguments : List String) : Files :=
  let fs := (fs.write logPath (printed p arguments)).toOption.getD fs
  match p.makes with
  | some path => (fs.write path []).toOption.getD fs
  | none => fs

/-- The text of a log. -/
def logText (fs : Files) (logPath : String) : String :=
  String.ofList (Text.trim (Utf8.decodeLossy ((fs.read logPath).toOption.getD [])))

/-- What has become of a job whose program ended. -/
def judge (fs : Files) (j : Job) (logPath : String) (ending : Ending) : Except Error Unit :=
  if !ending.isSuccess then
    .error (.compile j.key.hex
      ("C compiler failed (" ++ ending.text ++ "): " ++ logText fs logPath))
  else if !fs.isFile j.output then
    .error (.compile j.key.hex ("C compiler produced no " ++ j.output))
  else .ok ()

/-- Makes an empty log. -/
def openLog (fs : Files) (logPath : String) : Except Error Files :=
  (fs.write logPath []).mapError fun fault => .io ("create " ++ logPath) fault.message

/-- Runs a job, with a token that may be raised already or some milliseconds after the start. -/
def run (c : Compiler) (p : Program) (fs : Files) (j : Job) (raised : Bool)
    (raisedAfter : Option Nat) : Except Error Unit × Files :=
  if raised then (.error .cancelled, fs)
  else
    let logPath := Path.withExtension j.output "log"
    match openLog fs logPath with
    | .error e => (.error e, fs)
    | .ok fs =>
      let arguments := j.arguments c.flags
      match c.refusal? fs arguments (some logPath) with
      | some reason => (.error (.io ("spawn C compiler '" ++ c.command ++ "'") reason), fs)
      | none =>
        let fs := leave fs logPath p arguments
        match Wait.result p.hangs raisedAfter c.limit with
        | .cancelled => (.error .cancelled, fs)
        | .timedOut =>
          (.error (.compile j.key.hex
            ("C compiler timed out after " ++ Wait.text (c.limit.getD 0))), fs)
        | .ended => (judge fs j logPath p.ending, fs)

end Compiler

end OpFusion
