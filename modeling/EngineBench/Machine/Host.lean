import EngineBench.Machine.Clock

/-!
# A machine as a host

On a machine a run finds its files, its environment, and processes that act while the run sleeps,
and for a moment whenever it looks at a token. `Machine.host` is the host that a machine is.
-/

namespace EngineBench.Machine

/-- How often a wait for something looks at most. -/
def maxLooks : Nat := 60000

def hasExited (pid : UInt32) (m : Machine) : Bool :=
  match m.process? pid with
  | some p => !p.isAlive
  | none => true

/-- Waits until a process has exited, without asking for it. -/
def awaitExit (pid : UInt32) (m : Machine) : Machine := await (hasExited pid) maxLooks m

def awaitFile (p : Path) (m : Machine) : Machine :=
  await
    (fun m =>
      match m.files.locate m.directory p with
      | .ok (.taken _ _) => true
      | _ => false)
    maxLooks m

def cancel (t : Token) (m : Machine) : Machine :=
  { m with interrupts := m.interrupts.raise t.flag }

/-- The exit status of a process that has exited; the process is forgotten. -/
def reap (pid : UInt32) (m : Machine) : Option ExitStatus × Machine :=
  match (m.process? pid).bind Process.exitStatus with
  | some status => (some status, m.remove pid)
  | none => (none, m)

/-- Waits until a process has exited and forgets it. -/
def reapSurely (pid : UInt32) (m : Machine) : ExitStatus × Machine :=
  match reap pid (awaitExit pid m) with
  | (some status, m) => (status, m)
  | (none, m) => (.signaled .kill, m.remove pid)

def getVariable (name : String) (m : Machine) : Option Bytes := m.vars.lookup name

def environmentOf (c : Command) (m : Machine) : List (Bytes × Bytes) :=
  let inherited := m.vars.filter fun v => (c.environment.get? v.1).isNone
  (inherited.map fun v => (Text.encode v.1, v.2)) ++
    c.environment.vars.map fun v => (Text.encode v.1, Text.encode v.2)

def hasZero (c : Command) : Bool :=
  let hasZeroIn (s : String) := s.toList.contains (Char.ofNat 0)
  hasZeroIn c.program || c.arguments.any hasZeroIn ||
    c.environment.vars.any fun v => hasZeroIn v.1 || hasZeroIn v.2

/-- The streams for output and errors that a sink is. -/
def streamOf (k : Sink) (m : Machine) : Stream × Stream :=
  match k with
  | .inherited => (.output, .errors)
  | .file p =>
    match m.files.openFile m.directory p false with
    | .ok (o, _) => (.opened o, .opened o)
    | .error _ => (.closed, .closed)

/-- Starts a program as the first process of a new group. -/
def spawn (c : Command) (k : Sink) (m : Machine) : Except OsError ProcessId × Machine :=
  if hasZero c then (.error .zeroInCommand, m)
  else
    let vars := m.environmentOf c
    let name := Text.encode c.program
    match m.findTool (vars.lookup (Text.encode "PATH")) name with
    | .error e => (.error e, m)
    | .ok tool =>
      let pid := m.nextPid
      let (image, wake) :=
        m.startTool tool name (c.arguments.map Text.encode) vars pid ownPid (m.clock + startTime)
      let sink := m.streamOf k
      let streams := [(0, .opened (.device .null)), (1, sink.1), (2, sink.2)]
      (.ok ⟨pid⟩, m.add ⟨pid, none, pid, image, streams, [], [], false, some wake, none⟩)

def print (text : String) (m : Machine) : Except OsError Unit × Machine :=
  m.write .output (Text.encode text)

/-- Writes a line to the standard error of the run. -/
def complain (text : String) (m : Machine) : Machine :=
  { m with errors := m.errors ++ Text.encode (text ++ "\n") }

def connect (port : UInt16) (m : Machine) : ProbeResult × Machine :=
  (if m.loopback && m.ports.contains port then .ready else .unreachable, m)

def listen (port : UInt16) (m : Machine) : Except OsError Unit × Machine :=
  if m.ports.contains port then (.error .addressInUse, m)
  else (.ok (), { m with ports := port :: m.ports })

def onFiles (f : FileTree → Except OsError Unit × FileTree) (m : Machine) :
    Except OsError Unit × Machine :=
  ((f m.files).1, { m with files := (f m.files).2 })

def emptyFile (p : Path) (m : Machine) : Except OsError Unit × Machine :=
  m.onFiles fun t =>
    match t.openFile m.directory p true with
    | .ok (_, t) => (.ok (), t)
    | .error e => (.error e, t)

def host : Host Machine where
  clock := clock
  date := date
  interrupts := interrupts
  look := pass
  sleep d m := m.advance (m.clock + d.nanoseconds)
  watchSignals m := { m with watching := true }
  getVariable := getVariable
  workingDirectory m := some ⟨Path.slash :: Path.join m.directory⟩
  isFile p m := m.files.isFile m.directory p
  readFile p m := m.files.read m.directory p
  makeDirectories p m := m.onFiles fun t => t.makeDirectories m.directory p
  emptyFile := emptyFile
  writeFile p content m := m.onFiles fun t => t.write m.directory p content
  spawn := spawn
  poll p := reap p.number
  wait p := reapSurely p.number
  signal t g m := (.ok (), m.send (isMeant t) g)
  connect := connect
  listen port _ := listen port
  unlisten port m := { m with ports := m.ports.filter (· ≠ port) }
  print := print
  complain := complain
  clock_look := clock_le_clock_pass
  clock_poll p m := by
    simp only [reap]
    split <;> exact Nat.le_refl _
  clock_sleep d m := le_clock_advance m _

end EngineBench.Machine
