import EngineBench.Json.Record
import EngineBench.Outcome

/-!
# Outcomes in JSON

Outcomes, probe results and health checks as JSON values, and back.
-/

namespace EngineBench

namespace Outcome

def toJson (o : Outcome) : Json := .text o.name

def ofJson? : Json → Option Outcome := Json.named? all name

end Outcome

namespace ProbeResult

def toJson (r : ProbeResult) : Json := .text r.name

def ofJson? : Json → Option ProbeResult := Json.named? all name

end ProbeResult

namespace HealthCheck

def toJson (c : HealthCheck) : Json :=
  .record [("attempt", .nat c.attempt), ("outcome", c.result.toJson)]

def ofJson? (j : Json) : Option HealthCheck := do
  let [attempt, result] ← j.slots? ["attempt", "outcome"] | none
  return ⟨← attempt.required (Json.nat? 4294967295),
    ← result.required ProbeResult.ofJson?⟩

end HealthCheck

end EngineBench
