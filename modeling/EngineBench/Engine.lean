import EngineBench.Host

/-!
# The engine process

The engine runs in a process group of its own, and both its output streams go to a log file that is
emptied first. An `Engine` is what is known of the process; it is taken to run until its exit was
seen, and once the exit was seen the process is not touched any more.
-/

namespace EngineBench

/-- Whether a process is known to have exited. -/
inductive ProcessState where
  | running
  | exited
  deriving DecidableEq, Repr, Inhabited

namespace ProcessState

def all : List ProcessState := [running, exited]

def name : ProcessState → String
  | running => "running"
  | exited => "exited"

end ProcessState

structure Engine where
  pid : ProcessId
  log : Path
  state : ProcessState
  /-- How the process ended, once that was seen. -/
  exitStatus : Option ExitStatus
  /-- How often the process was asked to end. -/
  terminations : Nat
  deriving DecidableEq

namespace Engine

variable {σ : Type}

def started (pid : ProcessId) (log : Path) : Engine := ⟨pid, log, .running, none, 0⟩

inductive LaunchError where
  | log (p : Path) (e : OsError)
  | spawn (program : String) (e : OsError)
  deriving DecidableEq

def LaunchError.message : LaunchError → String
  | log p e => "failed to open server log " ++ p.text ++ ": " ++ e.message
  | spawn program e => "failed to spawn " ++ program ++ ": " ++ e.message

def openLog (h : Host σ) (log : Path) (s : σ) : Except OsError Unit × σ :=
  match h.makeParent log s with
  | (.error e, s) => (.error e, s)
  | (.ok (), s) => h.emptyFile log s

def launch (h : Host σ) (c : Command) (log : Path) (s : σ) : Except LaunchError Engine × σ :=
  match openLog h log s with
  | (.error e, s) => (.error (.log log e), s)
  | (.ok (), s) =>
    match h.spawn c (.file log) s with
    | (.error e, s) => (.error (.spawn c.program e), s)
    | (.ok pid, s) => (.ok (started pid log), s)

/-- The exit of the process was seen. -/
def markExited (e : Engine) (status : ExitStatus) : Engine :=
  { e with state := .exited, exitStatus := some status }

def noteTermination (e : Engine) : Engine := { e with terminations := e.terminations + 1 }

def poll (h : Host σ) (e : Engine) (s : σ) : Engine × σ :=
  match e.state with
  | .exited => (e, s)
  | .running =>
    match h.poll e.pid s with
    | (some status, s) => (e.markExited status, s)
    | (none, s) => (e, s)

/-- Asks the group of the process to end. That it cannot be asked changes nothing. -/
def terminate (h : Host σ) (e : Engine) (s : σ) : Engine × σ :=
  (e.noteTermination, (h.signal (.group e.pid) .terminate s).2)

def kill (h : Host σ) (e : Engine) (s : σ) : σ := (h.signal (.group e.pid) .kill s).2

/-- Waits for the process for at most a time; `none` if the clock cannot show the deadline. -/
def waitFor (h : Host σ) (e : Engine) (d : Duration) (s : σ) : Option Engine × σ :=
  match e.state with
  | .exited => (some e, s)
  | .running =>
    match h.waitFor e.pid d s with
    | (none, s) => (none, s)
    | (some (some status), s) => (some (e.markExited status), s)
    | (some none, s) => (some e, s)

end Engine

end EngineBench
