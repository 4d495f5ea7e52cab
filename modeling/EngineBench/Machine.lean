import EngineBench.Host
import EngineBench.Machine.Process

/-!
# Machines

A machine in memory: a clock that moves only when something waits, a file tree, and processes that
act while the clock moves. On such a machine a run can be rehearsed, and its result depends on
nothing else.
-/

namespace EngineBench

/-- The state of a machine. -/
structure Machine where
  /-- The clock, in nanoseconds. -/
  clock : Nat
  date : Timestamp
  interrupts : Interrupts
  /-- Requests to end are only noted. -/
  watching : Bool
  vars : List (String × Bytes)
  directory : Location
  files : FileTree
  processes : List Process
  nextPid : UInt32
  ports : List UInt16
  /-- Connections within the machine are possible. -/
  loopback : Bool
  output : Bytes
  /-- There is no space for output. -/
  outputFull : Bool
  errors : Bytes

namespace Machine

/-- The names of the programs that every machine has. -/
def toolNames : List String :=
  ["sh", "sleep", "cat", "touch", "mkdir", "rm", "pwd", "echo", "printf", "true", "false", "test",
    "["]

def locationOf (path : String) : Location :=
  (Path.pieces (Text.encode path)).filter (· ≠ [])

def standardFiles : FileTree :=
  let directories := ["/dev", "/bin", "/usr", "/usr/bin", "/usr/local", "/usr/local/bin", "/tmp"]
  let devices := [("/dev/null", Device.null), ("/dev/full", Device.full)]
  let tools := ["/bin", "/usr/bin"].flatMap fun d =>
    toolNames.map fun name => (locationOf d ++ [Text.encode name], Node.tool name)
  .free (directories.map (fun d => (locationOf d, .directory)) ++
    devices.map (fun d => (locationOf d.1, .device d.2)) ++ tools)

/-- A machine on which nothing has happened yet. -/
def fresh : Machine where
  clock := 0
  date := ⟨⟨2024, 1, 1⟩, 0, 0, 0, 0⟩
  interrupts := .none
  watching := false
  vars := [("PATH", Text.encode "/usr/local/bin:/usr/bin:/bin")]
  directory := []
  files := standardFiles
  processes := []
  nextPid := 100
  ports := []
  loopback := false
  output := []
  outputFull := false
  errors := []

/-! ## Setting up -/

def installDirectory (m : Machine) (p : Path) : Machine :=
  { m with files := (m.files.makeDirectories m.directory p).2 }

/-- Puts a file in place, in a directory that is made if it is missing. -/
def install (m : Machine) (p : Path) (content : Bytes) : Machine :=
  let m := p.parent?.elim m m.installDirectory
  { m with files := (m.files.write m.directory p content).2 }

def setVariable (m : Machine) (name : String) (value : Option Bytes) : Machine :=
  let others := m.vars.filter fun v => v.1 ≠ name
  { m with vars := value.elim others fun v => (name, v) :: others }

def enter (m : Machine) (p : Path) : Machine :=
  match m.files.locate m.directory p with
  | .ok (.taken l .directory) => { m with directory := l }
  | _ => m

/-- The regular files below a directory, by the parts on the way to them. -/
def filesBelow (m : Machine) (l : Location) : List (Location × Bytes) :=
  m.files.entries.filterMap fun e =>
    match e.2 with
    | .file content =>
      if e.1.take l.length = l then some (e.1.drop l.length, content) else none
    | _ => none

/-! ## Processes -/

def process? (m : Machine) (pid : UInt32) : Option Process :=
  m.processes.find? fun p => p.pid = pid

def update (m : Machine) (p : Process) : Machine :=
  { m with processes := m.processes.map fun q => if q.pid = p.pid then p else q }

def remove (m : Machine) (pid : UInt32) : Machine :=
  { m with processes := m.processes.filter fun p => p.pid ≠ pid }

def add (m : Machine) (p : Process) : Machine :=
  { m with processes := m.processes ++ [p], nextPid := m.nextPid + 1 }

/-- Sends a signal to all living processes that are meant. -/
def send (m : Machine) (meant : Process → Bool) (g : Signal) : Machine :=
  { m with
    processes := m.processes.map fun p =>
      if meant p && p.isAlive then { p with pending := p.pending ++ [g] } else p }

def isMeant (t : Target) (p : Process) : Bool :=
  match t with
  | .process pid => p.pid = pid.number
  | .group pid => p.group = pid.number

/-- The number of the process that the run itself is. It is in no group of the machine. -/
def ownPid : UInt32 := 99

/-- Sends a signal to the run itself. Only a request to end, once those are noted, does
something. -/
def interrupt (g : Signal) (m : Machine) : Machine :=
  if m.watching && Signal.requests.contains g then
    { m with interrupts := m.interrupts.deliver g }
  else m

/-! ## Streams -/

def write (m : Machine) (s : Stream) (bytes : Bytes) : Except OsError Unit × Machine :=
  match s with
  | .closed => (.ok (), m)
  | .opened o =>
    let (r, files) := m.files.append o bytes
    (r, { m with files })
  | .output =>
    if m.outputFull && !bytes.isEmpty then (.error .noSpace, m)
    else (.ok (), { m with output := m.output ++ bytes })
  | .errors => (.ok (), { m with errors := m.errors ++ bytes })

def contentOf (m : Machine) (s : Stream) : Bytes :=
  match s with
  | .opened (.file l) =>
    match m.files.get? l with
    | some (.file content) => content
    | _ => []
  | _ => []

/-! ## Programs -/

def cutAt (b : UInt8) : Bytes → List Bytes
  | [] => [[]]
  | c :: r =>
    if c = b then [] :: cutAt b r
    else
      match cutAt b r with
      | [] => [[c]]
      | w :: ws => (c :: w) :: ws

def toolAt (m : Machine) (p : Path) : Except OsError String :=
  match m.files.locate m.directory p with
  | .error e => .error e
  | .ok (.vacant _) => .error .notFound
  | .ok (.taken _ (.tool name)) => .ok name
  | .ok (.taken _ _) => .error .accessDenied

/-- Looks for a program in directories. One that may not be executed is passed over, but
remembered. -/
def searchTool (m : Machine) (name : Bytes) (denied : Bool) : List Bytes → Except OsError String
  | [] => .error (if denied then .accessDenied else .notFound)
  | d :: r =>
    match m.toolAt (if d.isEmpty then ⟨name⟩ else Path.child ⟨d⟩ name) with
    | .ok tool => .ok tool
    | .error .accessDenied => m.searchTool name true r
    | .error .notFound => m.searchTool name denied r
    | .error .notADirectory => m.searchTool name denied r
    | .error e => .error e

def defaultSearchPath : Bytes := Text.encode "/bin:/usr/bin"

/-- The program of a name: a path if there is a `/` in it, else in the directories of a search
path. -/
def findTool (m : Machine) (searchPath : Option Bytes) (name : Bytes) : Except OsError String :=
  if name.isEmpty then .error .notFound
  else if name.contains Path.slash then m.toolAt ⟨name⟩
  else m.searchTool name false (cutAt 0x3A (searchPath.getD defaultSearchPath))

end Machine

end EngineBench
