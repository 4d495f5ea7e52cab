import EngineBench.Engine

/-!
# Teardown

A `Guard` owns the engine process for the rest of a run. Its first cleanup stops the process: the
group is asked to end, is given time, and is then killed. Every later cleanup only looks. A guard
that is dropped without a cleanup cleans up then.
-/

namespace EngineBench

/-- What a cleanup did. -/
inductive CleanupAction where
  | nothingToDo
  | alreadyExited
  /-- The process exited when it was asked to. -/
  | terminated
  | killed
  deriving DecidableEq, Repr, Inhabited

namespace CleanupAction

def all : List CleanupAction := [nothingToDo, alreadyExited, terminated, killed]

def name : CleanupAction → String
  | nothingToDo => "nothing-to-do"
  | alreadyExited => "already-exited"
  | terminated => "terminated"
  | killed => "killed"

end CleanupAction

/-- The exit of a process was not seen, though it was killed. -/
structure Unconfirmed where
  pid : ProcessId
  deriving DecidableEq, Repr

def Unconfirmed.message (u : Unconfirmed) : String :=
  "server process " ++ toString u.pid.number.toNat ++ " did not confirm exit after SIGKILL"

/-- What stops the engine. -/
structure Guard where
  engine : Option Engine
  /-- How long the engine may take to end when it is asked to. -/
  grace : Duration
  attempted : Bool
  deriving DecidableEq

namespace Guard

variable {σ : Type}

/-- The time that an engine is given to end if the settings do not say. -/
def defaultGrace : Duration := .ofSeconds 10

/-- How long the exit of a killed process is waited for. -/
def killWait : Duration := .ofSeconds 5

def ofEngine (e : Engine) (grace : Duration) : Guard := ⟨some e, grace, false⟩

/-- A guard without an engine. -/
def empty : Guard := ⟨none, defaultGrace, false⟩

def isRunning (h : Host σ) (g : Guard) (s : σ) : Bool × Guard × σ :=
  match g.engine with
  | none => (false, g, s)
  | some e =>
    let (e, s) := e.poll h s
    (e.state = .running, { g with engine := some e }, s)

/-- The result of a cleanup, unless the clock gave out. -/
abbrev CleanupResult := Except Halt (Except Unconfirmed CleanupAction)

/-- Kills a process that did not end when it was asked to. -/
def killEngine (h : Host σ) (g : Guard) (e : Engine) (s : σ) : CleanupResult × Guard × σ :=
  match e.waitFor h killWait (e.kill h s) with
  | (none, s) => (.error .clockOverflow, { g with engine := some e }, s)
  | (some e, s) =>
    let result :=
      if e.state = .exited then .ok .killed else .error ⟨e.pid⟩
    (.ok result, { g with engine := some e }, s)

def stopEngine (h : Host σ) (g : Guard) (e : Engine) (s : σ) : CleanupResult × Guard × σ :=
  let (e, s) := e.terminate h s
  match e.waitFor h g.grace s with
  | (none, s) => (.error .clockOverflow, { g with engine := some e }, s)
  | (some e, s) =>
    if e.state = .exited then (.ok (.ok .terminated), { g with engine := some e }, s)
    else g.killEngine h e s

/-- Stops the engine if it runs. Only the first cleanup sends signals. -/
def cleanup (h : Host σ) (g : Guard) (s : σ) : CleanupResult × Guard × σ :=
  match g.engine with
  | none => (.ok (.ok .nothingToDo), g, s)
  | some e =>
    -- The engine is looked at first: once its exit was seen, nobody has its number for sure.
    let (e, s) := e.poll h s
    if e.state = .exited then
      (.ok (.ok .alreadyExited), { g with engine := some e, attempted := true }, s)
    else if g.attempted then (.ok (.error ⟨e.pid⟩), { g with engine := some e }, s)
    else { g with attempted := true }.stopEngine h e s

/-- Gives up the guard. -/
def drop (h : Host σ) (g : Guard) (s : σ) : Guard × σ :=
  if g.attempted then (g, s) else (g.cleanup h s).2

end Guard

end EngineBench
