/-!
# Outcomes

How a run, a probe of the endpoint, and one attempt of the health gate can end.
-/

namespace EngineBench

/-- How a run ended. -/
inductive Outcome where
  | success
  /-- An option or a setting is wrong; nothing was started. -/
  | configError
  /-- The engine could not be started, or exited before it was ready. -/
  | launchError
  /-- The endpoint was not reachable within the budget of attempts. -/
  | healthTimeout
  | benchmarkError
  /-- Cancelled, by a signal or from within. -/
  | interrupted
  deriving DecidableEq, Repr, Inhabited

namespace Outcome

def all : List Outcome :=
  [success, configError, launchError, healthTimeout, benchmarkError, interrupted]

def name : Outcome → String
  | success => "success"
  | configError => "config-error"
  | launchError => "launch-error"
  | healthTimeout => "health-timeout"
  | benchmarkError => "benchmark-error"
  | interrupted => "interrupted"

def exitCode : Outcome → Nat
  | success => 0
  | _ => 1

end Outcome

/-- What one connection attempt found. -/
inductive ProbeResult where
  | ready
  | unreachable
  deriving DecidableEq, Repr, Inhabited

namespace ProbeResult

def all : List ProbeResult := [ready, unreachable]

def name : ProbeResult → String
  | ready => "ready"
  | unreachable => "unreachable"

end ProbeResult

/-- One attempt of the health gate. -/
structure HealthCheck where
  attempt : Nat
  result : ProbeResult
  deriving DecidableEq, Repr, Inhabited

end EngineBench
