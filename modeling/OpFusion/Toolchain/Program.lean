/-
  Compilers as programs: what they print, what they make and how they end.
-/

namespace OpFusion

/-- How a program ends. -/
inductive Ending where
  | exited (status : Nat)
  | killed (signal : Nat)
  deriving DecidableEq

namespace Ending

/-- The names of the signals. -/
def signalNames : List (Nat × String) :=
  [(1, "SIGHUP"), (2, "SIGINT"), (3, "SIGQUIT"), (4, "SIGILL"), (5, "SIGTRAP"), (6, "SIGABRT"),
    (7, "SIGBUS"), (8, "SIGFPE"), (9, "SIGKILL"), (10, "SIGUSR1"), (11, "SIGSEGV"),
    (12, "SIGUSR2"), (13, "SIGPIPE"), (14, "SIGALRM"), (15, "SIGTERM"), (16, "SIGSTKFLT"),
    (17, "SIGCHLD"), (18, "SIGCONT"), (19, "SIGSTOP"), (20, "SIGTSTP"), (21, "SIGTTIN"),
    (22, "SIGTTOU"), (23, "SIGURG"), (24, "SIGXCPU"), (25, "SIGXFSZ"), (26, "SIGVTALRM"),
    (27, "SIGPROF"), (28, "SIGWINCH"), (29, "SIGIO"), (30, "SIGPWR"), (31, "SIGSYS")]

/-- The wording of an ending. -/
def text : Ending → String
  | exited status => "exit status: " ++ toString status
  | killed signal =>
    "signal: " ++ toString signal ++
      ((signalNames.lookup signal).map fun name => " (" ++ name ++ ")").getD ""

/-- Whether the program was successful. -/
def isSuccess (e : Ending) : Bool := e = exited 0

end Ending

/-- What a signal does to a program that is not prepared for it. -/
inductive Disposition where
  | ends
  | stops
  | passes
  deriving DecidableEq

/-- What a signal does. Zero is no signal, and there are 64 of them. -/
def Disposition.ofSignal (signal : Nat) : Disposition :=
  if signal ∈ [0, 17, 18, 23, 28] ∨ 64 < signal then .passes
  else if signal ∈ [19, 20, 21, 22] then .stops
  else .ends

/-- A program that stands where a compiler is expected. -/
structure Program where
  /-- What it prints when it is asked for its version. -/
  versionOut : List UInt8 := []
  /-- What it complains of when it is asked for its version. -/
  versionErr : List UInt8 := []
  /-- The status that it exits with when it is asked for its version. -/
  versionStatus : Nat := 0
  /-- Whether it starts by printing its arguments. -/
  echoes : Bool := false
  /-- What it prints. -/
  out : List UInt8 := []
  /-- What it complains of after that. -/
  err : List UInt8 := []
  /-- The path of an empty file that it makes. -/
  makes : Option String := none
  /-- Whether it sleeps then. -/
  sleeps : Bool := false
  /-- The signal that it sends to itself then. -/
  signal : Option Nat := none
  /-- The status that it exits with at last. -/
  status : Nat := 0

namespace Program

/-- The ending of a program that exits with a status, of which a byte is kept. -/
def exits (status : Nat) : Ending := .exited (status % 256)

/-- How it ends when it is asked for its version. -/
def versionEnding (p : Program) : Ending := exits p.versionStatus

/-- Whether it does not come to its end by itself. -/
def hangs (p : Program) : Bool := p.sleeps || p.signal.map .ofSignal == some Disposition.stops

/-- How it ends, if it does. -/
def ending (p : Program) : Ending :=
  match p.signal with
  | some signal => if Disposition.ofSignal signal = .ends then .killed signal else exits p.status
  | none => exits p.status

/-- The bytes of the file of a program. -/
def script : List UInt8 := "#!/bin/sh\n".toUTF8.toList

end Program

end OpFusion
