import EngineBench.FileTree
import EngineBench.Shell.Script
import EngineBench.Signal

/-!
# Processes of a machine

A process is a shell that works off a script, or sleeps until a point in time. What a shell still
has to do is a stack of frames, so it can be left between any two commands: to let other processes
go on, to wait for a child, or to handle a signal.
-/

namespace EngineBench

/-- Where a stream of a process leads. -/
inductive Stream where
  | closed
  | opened (o : FileTree.Opened)
  | output
  | errors
  deriving DecidableEq

/-- The streams of a process, by their numbers. -/
abbrev Streams := List (Nat × Stream)

namespace Streams

def get (s : Streams) (n : Nat) : Stream := (s.lookup n).getD .closed

def set (s : Streams) (n : Nat) (t : Stream) : Streams := (n, t) :: s.filter fun e => e.1 ≠ n

end Streams

namespace Shell

/-- Something that a shell still has to do. -/
inductive Frame where
  | run (s : Script)
  /-- Runs a script if the last command succeeded, or if it failed. -/
  | runIf (succeeded : Bool) (s : Script)
  | negate
  | branch (consequence alternative : Script)
  /-- The condition of a loop was run; the number is the status that the loop has so far. -/
  | tested (whileFails : Bool) (condition body : Script) (last : UInt8)
  /-- The body of a loop was run. -/
  | repeated (whileFails : Bool) (condition body : Script)
  /-- The words that a loop still has to go through. -/
  | each (name : Bytes) (words : List Bytes) (body : Script)
  | restore (streams : Streams)
  /-- The handling of a signal is over. -/
  | settle (status : UInt8)
  | leave (code : UInt8)
  | awaitChild (pid : UInt32)
  | awaitChildren
  /-- Waits for a child, unless a signal comes in. -/
  | awaitJob (pid : UInt32)
  /-- The assignments of a command are over. -/
  | revert (vars : List (Bytes × Bytes)) (exported : List Bytes)
  /-- Does the work of a program. -/
  | work (arguments : List Bytes)
  /-- Complains about a line of the script and exits. -/
  | fail (line : Nat) (what : Bytes)

/-- A shell at work. -/
structure State where
  frames : List Frame
  status : UInt8
  vars : List (Bytes × Bytes)
  /-- The names of the variables that children get. -/
  exported : List Bytes
  /-- What complaints begin with. -/
  name : Bytes
  arguments : List Bytes
  /-- The number that the shell knows itself by. -/
  self : UInt32
  /-- The last child that was not waited for. -/
  lastJob : Option UInt32
  /-- What is done on signals, by their numbers, and at the end, by the number zero. -/
  traps : List (UInt8 × Bytes)
  /-- The signals that came in and are not handled yet. -/
  caught : List Signal
  /-- The children that were not waited for when they exited. -/
  finished : List (UInt32 × ExitStatus)

namespace State

def setStatus (s : State) (status : UInt8) : State := { s with status }

/-- Puts something in front of what is to be done. -/
def push (s : State) (f : Frame) : State := { s with frames := f :: s.frames }

def setVariable (s : State) (name value : Bytes) : State :=
  { s with vars := (name, value) :: s.vars.filter fun v => v.1 ≠ name }

def exportVariable (s : State) (name : Bytes) : State :=
  if s.exported.contains name then s else { s with exported := name :: s.exported }

def environment (s : State) : List (Bytes × Bytes) :=
  s.vars.filter fun v => s.exported.contains v.1

def setTrap (s : State) (number : UInt8) (action : Option Bytes) : State :=
  let others := s.traps.filter fun t => t.1 ≠ number
  { s with traps := action.elim others fun a => (number, a) :: others }

end State

/-- What a shell says about a child that was ended by a signal. -/
def obituary? : ExitStatus → Option String
  | .exited _ => none
  | .signaled g =>
    match g.name? with
    | some "INT" => none
    | some "PIPE" => none
    | some "HUP" => some "Hangup"
    | some "QUIT" => some "Quit"
    | some "ABRT" => some "Aborted"
    | some "KILL" => some "Killed"
    | some "SEGV" => some "Segmentation fault"
    | some "USR1" => some "User defined signal 1"
    | some "USR2" => some "User defined signal 2"
    | some "ALRM" => some "Alarm clock"
    | some "TERM" => some "Terminated"
    | _ => some ("Signal " ++ toString g.number.toNat)

/-- The status that a shell takes from a child. -/
def statusOf : ExitStatus → UInt8
  | .exited code => code
  | .signaled g => 128 + g.number

end Shell

/-- What a process does. -/
inductive Image where
  | shell (s : Shell.State)
  | sleeper

structure Process where
  pid : UInt32
  /-- The process that started it; none for one that the machine was asked to start. -/
  parent : Option UInt32
  group : UInt32
  image : Image
  streams : Streams
  ignored : List Signal
  /-- The signals that came in and did nothing yet. -/
  pending : List Signal
  stopped : Bool
  /-- When the process goes on; none while it waits for a child. -/
  wake : Option Nat
  exitStatus : Option ExitStatus

namespace Process

def isAlive (p : Process) : Bool := p.exitStatus.isNone

/-- A signal that does something even to a stopped process. -/
def isUrgent (g : Signal) : Bool := g = .kill || g = .resume

def hasSignal (p : Process) : Bool :=
  if p.stopped then p.pending.any isUrgent else !p.pending.isEmpty

def nextTime? (p : Process) (now : Nat) : Option Nat :=
  if !p.isAlive then none
  else if p.hasSignal then some now
  else if p.stopped then none
  else p.wake.map (max now)

end Process

end EngineBench
