import EngineBench.Host

/-!
# The health gate

The gate probes the endpoint of the engine in a fixed rhythm until a probe succeeds, the engine is
gone, the run is cancelled, or the attempts are used up. Before each attempt it looks for a
cancellation and then whether the engine is alive; between two attempts it pauses. The probe and
the check of the engine are operations on the state of the world, so the gate can be run against
any schedule of answers.
-/

namespace EngineBench

inductive HealthStatus where
  | ready
  | timedOut
  /-- The engine was gone before an attempt. -/
  | engineExited
  | interrupted
  deriving DecidableEq, Repr

structure HealthReport where
  status : HealthStatus
  checks : List HealthCheck
  deriving DecidableEq, Repr

def HealthReport.attempts (r : HealthReport) : Nat := r.checks.length

/-- A rhythm and a budget of attempts. -/
structure HealthGate where
  interval : Duration
  maxAttempts : UInt32
  positive : 1 ≤ maxAttempts := by decide

namespace HealthGate

variable {σ : Type}

/-- A gate with the given rhythm and budget; one attempt is always made. -/
def make (interval : Duration) (maxAttempts : UInt32) : HealthGate :=
  if h : 1 ≤ maxAttempts then ⟨interval, maxAttempts, h⟩ else ⟨interval, 1, by decide⟩

/-- The gate of a run: one attempt a second for half a minute. -/
def standard : HealthGate := ⟨.ofSeconds 1, 30, by decide⟩

/-- Makes the remaining attempts, after the given checks. -/
def attempt (g : HealthGate) (h : Host σ) (t : Token) (probe : σ → ProbeResult × σ)
    (alive : σ → Bool × σ) : Nat → List HealthCheck → σ → Except Halt HealthReport × σ
  | 0, checks, s => (.ok ⟨.timedOut, checks⟩, s)
  | remaining + 1, checks, s =>
    let s := h.look s
    if t.isCancelled (h.interrupts s) then (.ok ⟨.interrupted, checks⟩, s)
    else
      match alive s with
      | (false, s) => (.ok ⟨.engineExited, checks⟩, s)
      | (true, s) =>
        match probe s with
        | (.ready, s) => (.ok ⟨.ready, checks ++ [⟨checks.length + 1, .ready⟩]⟩, s)
        | (.unreachable, s) =>
          let checks := checks ++ [⟨checks.length + 1, .unreachable⟩]
          -- Behind the last attempt there is no pause, and so no look for a cancellation.
          if remaining = 0 then (.ok ⟨.timedOut, checks⟩, s)
          else
            match t.sleep h g.interval s with
            | (none, s) => (.error .clockOverflow, s)
            | (some false, s) => (.ok ⟨.interrupted, checks⟩, s)
            | (some true, s) => attempt g h t probe alive remaining checks s

/-- Probes until ready, or until there is a reason to stop. -/
def wait (g : HealthGate) (h : Host σ) (t : Token) (probe : σ → ProbeResult × σ)
    (alive : σ → Bool × σ) (s : σ) : Except Halt HealthReport × σ :=
  g.attempt h t probe alive g.maxAttempts.toNat [] s

end HealthGate

end EngineBench
