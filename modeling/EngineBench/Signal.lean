/-!
# Signals and exit statuses

A process ends by exiting with a code or by a signal.
-/

namespace EngineBench

/-- A signal, by its number. -/
structure Signal where
  number : UInt8
  deriving DecidableEq, Repr, Inhabited

namespace Signal

/-- The terminal went away. -/
def hangup : Signal := ⟨1⟩

/-- The interrupt key. -/
def interrupt : Signal := ⟨2⟩

/-- Ends a process; cannot be ignored. -/
def kill : Signal := ⟨9⟩

/-- Asks a process to end. -/
def terminate : Signal := ⟨15⟩

/-- Lets a stopped process go on. -/
def resume : Signal := ⟨18⟩

/-- Stops a process; cannot be ignored. -/
def stop : Signal := ⟨19⟩

/-- The signals with which a run is cancelled from outside. -/
def requests : List Signal := [interrupt, terminate, hangup]

/-- The names of the signals, in the order of their numbers from one. -/
def names : List String :=
  ["HUP", "INT", "QUIT", "ILL", "TRAP", "ABRT", "BUS", "FPE", "KILL", "USR1", "SEGV", "USR2",
    "PIPE", "ALRM", "TERM", "STKFLT", "CHLD", "CONT", "STOP", "TSTP", "TTIN", "TTOU", "URG",
    "XCPU", "XFSZ", "VTALRM", "PROF", "WINCH", "IO", "PWR", "SYS"]

/-- The name of a signal without its first syllable, if it has one. -/
def name? (s : Signal) : Option String :=
  if s.number = 0 then none else names[s.number.toNat - 1]?

def ofName? (name : String) : Option Signal :=
  (names.findIdx? (· = name)).map fun i => ⟨UInt8.ofNat (i + 1)⟩

end Signal

/-- How a process ended. -/
inductive ExitStatus where
  | exited (code : UInt8)
  | signaled (s : Signal)
  deriving DecidableEq, Repr, Inhabited

namespace ExitStatus

/-- The process exited with code zero. -/
def isSuccess (s : ExitStatus) : Bool := s = .exited 0

/-- The code of a process that was not ended by a signal. -/
def code? : ExitStatus → Option UInt8
  | exited code => some code
  | signaled _ => none

def text : ExitStatus → String
  | exited code => "exit status: " ++ toString code.toNat
  | signaled s =>
    "signal: " ++ toString s.number.toNat ++ (s.name?.elim "" fun name => " (SIG" ++ name ++ ")")

end ExitStatus

end EngineBench
