import EngineBench.Command
import EngineBench.Duration
import EngineBench.Interrupts
import EngineBench.OsError
import EngineBench.Outcome
import EngineBench.Timestamp

/-!
# Hosts

A host is what a run lives on: a clock, files, processes, ports and signals. Everything that a run
does goes through a `Host`, whose state is of any type, so that a statement about runs is a
statement about all hosts. Between two steps of a run the world goes on by itself: `look` is such a
moment, and every operation may hold one.

The three laws say that the clock does not run backwards where a run waits, and that a sleep lasts.
With them every wait with a deadline ends.

* `Host.clock_slept` is the form in which waits use the laws.
-/

namespace EngineBench

/-- The number of a process. A process group has the number of its first process. -/
structure ProcessId where
  number : UInt32
  deriving DecidableEq, Repr, Inhabited

/-- Who gets a signal. -/
inductive Target where
  | process (p : ProcessId)
  | group (p : ProcessId)
  deriving DecidableEq, Repr

/-- Where the output of a new process goes. -/
inductive Sink where
  /-- Where the output of this process goes. -/
  | inherited
  /-- Both streams to the end of a file. -/
  | file (p : Path)
  deriving DecidableEq

/-- Why something ends before its end. -/
inductive Halt where
  /-- A point in time is beyond what the clock can show. -/
  | clockOverflow
  | outputLost
  deriving DecidableEq, Repr

/-- The operations of a host, on states of type `σ`. -/
structure Host (σ : Type) where
  /-- The clock, in nanoseconds. -/
  clock : σ → Nat
  /-- The date and time of the day. -/
  date : σ → Timestamp
  /-- What has been asked of this process. -/
  interrupts : σ → Interrupts
  /-- Lets the world go on for a moment. -/
  look : σ → σ
  /-- Sleeps for at least so long. -/
  sleep : Duration → σ → σ
  /-- From now on the signals that end a process are only noted. -/
  watchSignals : σ → σ
  getVariable : String → σ → Option Bytes
  workingDirectory : σ → Option Path
  isFile : Path → σ → Bool
  readFile : Path → σ → Except OsError Bytes
  /-- Makes a directory and those above it, as far as they are missing. -/
  makeDirectories : Path → σ → Except OsError Unit × σ
  emptyFile : Path → σ → Except OsError Unit × σ
  /-- Makes a file with a content, or replaces its content. -/
  writeFile : Path → Bytes → σ → Except OsError Unit × σ
  /-- Starts a program as the first process of a new group, without input. -/
  spawn : Command → Sink → σ → Except OsError ProcessId × σ
  /-- The exit status of a process, if it has exited; the process is forgotten then. -/
  poll : ProcessId → σ → Option ExitStatus × σ
  wait : ProcessId → σ → ExitStatus × σ
  /-- Sends a signal. Nobody there is no error. -/
  signal : Target → Signal → σ → Except OsError Unit × σ
  /-- Tries to connect to a loopback port, for at most `Host.connectTimeout`. -/
  connect : UInt16 → σ → ProbeResult × σ
  /-- Answers every request on a loopback port with a text. -/
  listen : UInt16 → String → σ → Except OsError Unit × σ
  unlisten : UInt16 → σ → σ
  print : String → σ → Except OsError Unit × σ
  complain : String → σ → σ
  clock_look : ∀ s, clock s ≤ clock (look s)
  clock_poll : ∀ p s, clock s ≤ clock (poll p s).2
  clock_sleep : ∀ d s, clock s + d.nanoseconds ≤ clock (sleep d s)

namespace Host

variable {σ : Type}

/-- Makes the directory that a file will be in, unless that is the working directory. -/
def makeParent (h : Host σ) (p : Path) (s : σ) : Except OsError Unit × σ :=
  match p.parent? with
  | some d => if d.bytes.isEmpty then (.ok (), s) else h.makeDirectories d s
  | none => (.ok (), s)

/-- The longest single sleep of a wait that can be cut short. -/
def slice : Duration := .ofMilliseconds 50

def connectTimeout : Duration := .ofSeconds 1

/-- How long a wait sleeps next if so much is left. -/
def nextSleep (remaining : Nat) : Duration := ⟨min remaining slice.nanoseconds⟩

/-- A clock reads at most so many seconds. -/
def maxClockSeconds : Nat := UInt64.size / 2 - 1

/-- The reading of the clock after a time, if the clock can show it. -/
def deadline? (now : Nat) (d : Duration) : Option Nat :=
  -- In this order: the kernel would count a number at the end of the sum down to zero.
  let t := d.nanoseconds + now
  if t / Duration.perSecond ≤ maxClockSeconds then some t else none

/-- A sleep of a wait brings the deadline nearer. -/
theorem clock_slept (h : Host σ) {deadline : Nat} {s : σ} (hlt : h.clock s < deadline) :
    deadline - h.clock (h.sleep (nextSleep (deadline - h.clock s)) s) < deadline - h.clock s := by
  have hsleep := h.clock_sleep (nextSleep (deadline - h.clock s)) s
  simp only [nextSleep, slice, Duration.ofMilliseconds] at hsleep ⊢
  omega

/-- Waits until a process has exited or the deadline has passed. The process is looked at first,
so one that has exited is seen even if the deadline has passed. -/
def waitUntil (h : Host σ) (p : ProcessId) (deadline : Nat) (s : σ) : Option ExitStatus × σ :=
  match _hp : h.poll p s with
  | (some status, s') => (some status, s')
  | (none, s') =>
    if _hlt : h.clock (h.look s') < deadline then
      waitUntil h p deadline (h.sleep (nextSleep (deadline - h.clock (h.look s'))) (h.look s'))
    else (none, h.look s')
  termination_by deadline - h.clock s
  decreasing_by
    have hpoll := h.clock_poll p s
    have hlook := h.clock_look s'
    have hslept := h.clock_slept _hlt
    simp only [_hp] at hpoll
    omega

theorem waitUntil_eq (h : Host σ) (p : ProcessId) (deadline : Nat) (s : σ) :
    h.waitUntil p deadline s =
      match h.poll p s with
      | (some status, s') => (some status, s')
      | (none, s') =>
        if h.clock (h.look s') < deadline then
          h.waitUntil p deadline
            (h.sleep (nextSleep (deadline - h.clock (h.look s'))) (h.look s'))
        else (none, h.look s') := by
  rw [waitUntil]
  split <;> rename_i heq <;> simp [heq]

/-- Waits for a process for at most a time; the outer `none` says that the clock cannot show the
deadline. -/
def waitFor (h : Host σ) (p : ProcessId) (d : Duration) (s : σ) :
    Option (Option ExitStatus) × σ :=
  let s := h.look s
  match deadline? (h.clock s) d with
  | none => (none, s)
  | some deadline =>
    let (status, s) := h.waitUntil p deadline s
    (some status, s)

/-- The same host with a further component of the state that it does not touch. -/
def extend (h : Host σ) (τ : Type) : Host (σ × τ) where
  clock s := h.clock s.1
  date s := h.date s.1
  interrupts s := h.interrupts s.1
  look s := (h.look s.1, s.2)
  sleep d s := (h.sleep d s.1, s.2)
  watchSignals s := (h.watchSignals s.1, s.2)
  getVariable name s := h.getVariable name s.1
  workingDirectory s := h.workingDirectory s.1
  isFile p s := h.isFile p s.1
  readFile p s := h.readFile p s.1
  makeDirectories p s := ((h.makeDirectories p s.1).1, (h.makeDirectories p s.1).2, s.2)
  emptyFile p s := ((h.emptyFile p s.1).1, (h.emptyFile p s.1).2, s.2)
  writeFile p b s := ((h.writeFile p b s.1).1, (h.writeFile p b s.1).2, s.2)
  spawn c k s := ((h.spawn c k s.1).1, (h.spawn c k s.1).2, s.2)
  poll p s := ((h.poll p s.1).1, (h.poll p s.1).2, s.2)
  wait p s := ((h.wait p s.1).1, (h.wait p s.1).2, s.2)
  signal t g s := ((h.signal t g s.1).1, (h.signal t g s.1).2, s.2)
  connect p s := ((h.connect p s.1).1, (h.connect p s.1).2, s.2)
  listen p b s := ((h.listen p b s.1).1, (h.listen p b s.1).2, s.2)
  unlisten p s := (h.unlisten p s.1, s.2)
  print t s := ((h.print t s.1).1, (h.print t s.1).2, s.2)
  complain t s := (h.complain t s.1, s.2)
  clock_look s := h.clock_look s.1
  clock_poll p s := h.clock_poll p s.1
  clock_sleep d s := h.clock_sleep d s.1

end Host

namespace Token

variable {σ : Type}

/-- Sleeps until the deadline, and less if the run is cancelled; says whether the deadline was
reached. -/
def sleepUntil (h : Host σ) (t : Token) (deadline : Nat) (s : σ) : Bool × σ :=
  if t.isCancelled (h.interrupts (h.look s)) then (false, h.look s)
  else
    let now := h.clock (h.look (h.look s))
    if _hlt : now < deadline then
      sleepUntil h t deadline (h.sleep (Host.nextSleep (deadline - now)) (h.look (h.look s)))
    else (true, h.look (h.look s))
  termination_by deadline - h.clock s
  decreasing_by
    have hlook := h.clock_look s
    have hlook' := h.clock_look (h.look s)
    have hslept := h.clock_slept _hlt
    omega

theorem sleepUntil_eq (h : Host σ) (t : Token) (deadline : Nat) (s : σ) :
    t.sleepUntil h deadline s =
      if t.isCancelled (h.interrupts (h.look s)) then (false, h.look s)
      else if h.clock (h.look (h.look s)) < deadline then
        t.sleepUntil h deadline
          (h.sleep (Host.nextSleep (deadline - h.clock (h.look (h.look s)))) (h.look (h.look s)))
      else (true, h.look (h.look s)) := by
  rw [sleepUntil]
  simp only [dite_eq_ite]

/-- Sleeps for a time, and less if the run is cancelled; says whether the whole time has passed.
The result is `none` if the clock cannot show the deadline. -/
def sleep (h : Host σ) (t : Token) (d : Duration) (s : σ) : Option Bool × σ :=
  let s := h.look s
  match Host.deadline? (h.clock s) d with
  | none => (none, s)
  | some deadline =>
    let (whole, s) := t.sleepUntil h deadline s
    (some whole, s)

end Token

end EngineBench
