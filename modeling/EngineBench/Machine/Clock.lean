import EngineBench.Machine.Turn.Step

/-!
# The course of time on a machine

While time passes, the processes act one after the other, each at the moment at which it has
something to do: a signal to handle, a sleep that is over, a step of a script. A process that exits
is kept until somebody asks for it, or is noticed by the shell that waits for it.

* `le_clock_advance` says that the clock reaches the time it is advanced to.
* `pass` is a moment in which the world goes on.
-/

namespace EngineBench.Machine

/-- How long one step of a script takes, in nanoseconds. -/
def stepTime : Nat := 10000

/-- How long a program takes to begin, in nanoseconds. -/
def startTime : Nat := 1000000

/-- How long the world goes on between two steps of a run, in nanoseconds: a program that was
started has begun by then, and one that has nothing to do has exited. -/
def momentTime : Nat := 2 * startTime

/-- A signal that does nothing unless it is handled. -/
def isHarmless (g : Signal) : Bool := [17, 18, 23, 28].contains g.number

/-- A signal that stops a process unless it is handled. -/
def isStopping (g : Signal) : Bool := [19, 20, 21, 22].contains g.number

def announce (m : Machine) (parent : Process) (status : ExitStatus) : Machine :=
  match Shell.obituary? status with
  | none => m
  | some text => (m.write (parent.streams.get 2) (Text.encode (text ++ "\n"))).2

/-- A shell notices that a child is gone. Unless it waits for that child, it keeps the status. -/
def notify (m : Machine) (parent : Process) (s : Shell.State) (child : UInt32)
    (status : ExitStatus) : Machine :=
  let woken := { parent with wake := some (parent.wake.getD m.clock) }
  let kept := .shell { s with finished := (child, status) :: s.finished }
  match s.frames with
  | .awaitChild pid :: _ =>
    if pid = child then
      (m.update { woken with image := .shell (s.setStatus (Shell.statusOf status)) }).announce
        parent status
    else m.update { parent with image := kept }
  | .awaitChildren :: _ | .awaitJob _ :: _ => m.update { woken with image := kept }
  | _ => m.update { parent with image := kept }

/-- A process is over. One that the machine was asked to start is kept until it is asked for. -/
def finish (m : Machine) (p : Process) (status : ExitStatus) : Machine :=
  match p.parent with
  | none => m.update { p with exitStatus := some status }
  | some parent =>
    let m := m.remove p.pid
    match m.process? parent with
    | none => m
    | some parent =>
      match parent.image, parent.isAlive with
      | .shell s, true => m.notify parent s p.pid status
      | _, _ => m

def receive (m : Machine) (p : Process) (g : Signal) : Machine :=
  let unhandled :=
    if isHarmless g then m.update p
    else if isStopping g then m.update { p with stopped := true }
    else m.finish p (.signaled g)
  if g = .kill then m.finish p (.signaled g)
  else if g = .resume then m.update { p with stopped := false }
  else if g = .stop then m.update { p with stopped := true }
  else if p.ignored.contains g then m.update p
  else
    match p.image with
    | .sleeper => unhandled
    | .shell s =>
      if (s.traps.lookup g.number).isSome then
        m.update { p with
          image := .shell { s with caught := s.caught ++ [g] }
          wake := some (p.wake.getD m.clock) }
      else unhandled

/-- Puts the process of a turn back into the machine. -/
def close (t : Turn) : Machine :=
  let m := t.machine
  match t.process.exitStatus, t.process.image with
  | some status, _ => m.finish { t.process with exitStatus := none } status
  | none, .sleeper => m.update t.process
  | none, .shell _ =>
    m.update { t.process with
      image := .shell t.shell
      wake := t.process.wake.map fun _ => m.clock + stepTime }

/-- The first signal that a process can handle, and the others. -/
def takeSignal? (p : Process) : Option (Signal × Process) :=
  let g? := if p.stopped then p.pending.find? Process.isUrgent else p.pending.head?
  g?.map fun g => (g, { p with pending := p.pending.erase g })

def act (m : Machine) (p : Process) : Machine :=
  match takeSignal? p with
  | some (g, p) => m.receive p g
  | none =>
    match p.image with
    | .sleeper => m.finish p (.exited 0)
    | .shell s => close (Turn.step ⟨m, p, s⟩)

def earlier (a b : Option (Nat × Process)) : Option (Nat × Process) :=
  match a, b with
  | some a, some b => if b.1 < a.1 then some b else some a
  | some a, none => some a
  | none, b => b

def next? (m : Machine) : Option (Nat × Process) :=
  m.processes.foldl (fun best p => earlier best ((p.nextTime? m.clock).map (·, p))) none

/-- Lets time pass up to a point, with at most so many steps of processes. -/
def advanceUpTo (time : Nat) : Nat → Machine → Machine
  | 0, m => { m with clock := max m.clock time }
  | n + 1, m =>
    match m.next? with
    | none => { m with clock := max m.clock time }
    | some (t, p) =>
      if time < t then { m with clock := max m.clock time }
      else advanceUpTo time n (({ m with clock := max m.clock t }).act p)

/-- The number of steps that fit in a time, generously. -/
def stepsWithin (m : Machine) (time : Nat) : Nat :=
  16 * ((time - m.clock) / stepTime + m.processes.length + 4)

def advance (m : Machine) (time : Nat) : Machine := advanceUpTo time (m.stepsWithin time) m

theorem le_clock_advanceUpTo (time n : Nat) (m : Machine) :
    time ≤ (advanceUpTo time n m).clock := by
  induction n generalizing m with
  | zero => exact Nat.le_max_right _ _
  | succ n ih =>
    simp only [advanceUpTo]
    split
    · exact Nat.le_max_right _ _
    · split
      · exact Nat.le_max_right _ _
      · exact ih _

/-- The clock reaches the time it is advanced to. -/
theorem le_clock_advance (m : Machine) (time : Nat) : time ≤ (m.advance time).clock :=
  le_clock_advanceUpTo time _ m

/-- Lets the world go on for a moment. -/
def pass (m : Machine) : Machine := m.advance (m.clock + momentTime)

theorem clock_le_clock_pass (m : Machine) : m.clock ≤ m.pass.clock :=
  Nat.le_trans (Nat.le_add_right m.clock momentTime) (le_clock_advance m _)

/-- Lets time pass in steps of a millisecond until something is the case, at most so often. -/
def await (isSo : Machine → Bool) : Nat → Machine → Machine
  | 0, m => m
  | n + 1, m => if isSo m then m else await isSo n (m.advance (m.clock + 1000000))

end EngineBench.Machine
