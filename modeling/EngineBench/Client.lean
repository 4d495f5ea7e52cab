import EngineBench.Host

/-!
# The benchmark client

The client runs in a process group of its own with the output of this process. It is watched until
it exits; when the run is cancelled it is asked to end, given five seconds, and then killed. That
its exit is looked for first decides what a cancelled run counts as when the client is done.
-/

namespace EngineBench

inductive ClientFailure where
  | spawn (program : String) (e : OsError)
  | failed (status : ExitStatus)
  | interrupted
  /-- The client could not be asked to end. -/
  | lost (e : OsError)
  deriving DecidableEq

namespace ClientFailure

def message : ClientFailure → String
  | spawn program e => "failed to spawn benchmark client " ++ program ++ ": " ++ e.message
  | failed status => "benchmark client failed: " ++ status.text
  | interrupted => "benchmark client interrupted"
  | lost e => "lost track of benchmark client: " ++ e.message

end ClientFailure

/-- How the client ended if it succeeded, or why it did not; unless the clock gave out. -/
abbrev ClientResult := Except Halt (Except ClientFailure ExitStatus)

namespace Client

variable {σ : Type}

/-- How long a client may take to end when it is asked to. -/
def stopTimeout : Duration := .ofSeconds 5

/-- The last reading of the clock. -/
def endOfTime : Nat := (Host.maxClockSeconds + 1) * Duration.perSecond - 1

def classify (status : ExitStatus) (cancelled : Bool) : Except ClientFailure ExitStatus :=
  if status.isSuccess then .ok status
  else if cancelled then .error .interrupted
  else .error (.failed status)

/-- Stops a client because the run is cancelled. -/
def stop (h : Host σ) (p : ProcessId) (s : σ) : ClientResult × σ :=
  match h.signal (.process p) .terminate s with
  | (.error e, s) => (.ok (.error (.lost e)), s)
  | (.ok (), s) =>
    match h.waitFor p stopTimeout s with
    | (none, s) => (.error .clockOverflow, s)
    | (some (some _), s) => (.ok (.error .interrupted), s)
    | (some none, s) =>
      match h.signal (.process p) .kill s with
      | (.error e, s) => (.ok (.error (.lost e)), s)
      | (.ok (), s) => (.ok (.error .interrupted), (h.wait p s).2)

/-- Watches a client until it exits or the run is cancelled, at the latest until the clock ends. -/
def watch (h : Host σ) (t : Token) (p : ProcessId) (s : σ) : ClientResult × σ :=
  match _hp : h.poll p s with
  | (some status, s') =>
    (.ok (classify status (t.isCancelled (h.interrupts (h.look s')))), h.look s')
  | (none, s') =>
    -- Only a client that was just found running is stopped.
    if t.isCancelled (h.interrupts (h.look s')) then stop h p (h.look s')
    else if _hlt : h.clock (h.look s') ≤ endOfTime then
      watch h t p (h.sleep Host.slice (h.look s'))
    else (.error .clockOverflow, h.look s')
  termination_by endOfTime + 1 - h.clock s
  decreasing_by
    have hpoll := h.clock_poll p s
    have hlook := h.clock_look s'
    have hsleep := h.clock_sleep Host.slice (h.look s')
    simp only [_hp] at hpoll
    simp only [Host.slice, Duration.ofMilliseconds] at hsleep ⊢
    omega

theorem watch_eq (h : Host σ) (t : Token) (p : ProcessId) (s : σ) :
    watch h t p s =
      match h.poll p s with
      | (some status, s') =>
        (.ok (classify status (t.isCancelled (h.interrupts (h.look s')))), h.look s')
      | (none, s') =>
        if t.isCancelled (h.interrupts (h.look s')) then stop h p (h.look s')
        else if h.clock (h.look s') ≤ endOfTime then
          watch h t p (h.sleep Host.slice (h.look s'))
        else (.error .clockOverflow, h.look s') := by
  rw [watch]
  split <;> rename_i heq <;> simp [heq]

/-- Runs the client to its end. That the directory of the results cannot be made changes
nothing. -/
def run (h : Host σ) (t : Token) (c : Command) (results : Path) (s : σ) : ClientResult × σ :=
  let s := (h.makeParent results s).2
  match h.spawn c .inherited s with
  | (.error e, s) => (.ok (.error (.spawn c.program e)), s)
  | (.ok p, s) => watch h t p s

end Client

end EngineBench
