import EngineBench.Machine.Launch

/-!
# A shell at work

A `Turn` is what one step of a shell works with: the machine, the process, which is not yet back in
the machine, and the shell that the process is. Here is what a step can do with it.
-/

namespace EngineBench

/-- What a shell works with in a step. -/
structure Turn where
  machine : Machine
  process : Process
  shell : Shell.State

namespace Turn

open Shell

def setStatus (t : Turn) (status : UInt8) : Turn := { t with shell := t.shell.setStatus status }

/-- Puts something in front of what is to be done. -/
def push (t : Turn) (f : Frame) : Turn := { t with shell := t.shell.push f }

def block (t : Turn) : Turn := { t with process := { t.process with wake := none } }

def exit (t : Turn) (code : UInt8) : Turn :=
  { t with process := { t.process with exitStatus := some (.exited code) } }

/-- Exits, after what is to be done at the end. -/
def leave (t : Turn) (code : UInt8) : Turn :=
  match t.shell.traps.lookup 0 with
  | none => t.exit code
  | some action =>
    let shell := { t.shell.setTrap 0 none with status := code, frames := [.leave code] }
    let t := { t with shell }
    match Script.read? action with
    | some s => t.push (.run s)
    | none => t

/-! ## Streams -/

def setStream (t : Turn) (n : Nat) (s : Stream) : Turn :=
  { t with process := { t.process with streams := t.process.streams.set n s } }

def setStreams (t : Turn) (s : Streams) : Turn :=
  { t with process := { t.process with streams := s } }

/-- Writes to a stream; says whether that was possible. -/
def write (t : Turn) (n : Nat) (bytes : Bytes) : Bool × Turn :=
  let (r, machine) := t.machine.write (t.process.streams.get n) bytes
  (r.isOk, { t with machine })

def say (t : Turn) (line : Bytes) : Turn := (t.write 2 (line ++ [0x0A])).2

/-! ## Complaints -/

/-- What complaints about a line of the script begin with. -/
def place (t : Turn) (line : Nat) : Bytes :=
  t.shell.name ++ Text.encode (": " ++ toString line ++ ": ")

def complain (t : Turn) (line : Nat) (what : Bytes) : Turn := t.say (t.place line ++ what)

/-- Complains about a line of the script, and exits because of it. -/
def fail (t : Turn) (line : Nat) (what : Bytes) : Turn := (t.complain line what).leave 2

end Turn

end EngineBench
