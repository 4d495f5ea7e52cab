import EngineBench.Command
import EngineBench.Json.Record

/-!
# Commands in JSON

Programs, overlays, commands and the limits of a stage as JSON values, and back.
-/

namespace EngineBench

namespace BatchPolicy

def toJson (p : BatchPolicy) : Json := .text p.name

def ofJson? : Json → Option BatchPolicy := Json.named? [.fcfs] BatchPolicy.name

end BatchPolicy

namespace StageLimits

def toJson (l : StageLimits) : Json :=
  .record [("policy", l.policy.toJson), ("max_batch_size", .nat l.requests.toNat),
    ("max_tokens_per_batch", .nat l.tokens.toNat)]

def ofJson? (j : Json) : Option StageLimits := do
  let [policy, requests, tokens] ←
    j.slots? ["policy", "max_batch_size", "max_tokens_per_batch"] | none
  return ⟨← policy.required BatchPolicy.ofJson?, ← requests.required Json.word32?,
    ← tokens.required Json.word32?⟩

end StageLimits

namespace Overlay

def toJson (e : Overlay) : Json := .record [("vars", .vars e)]

def ofJson? (j : Json) : Option Overlay := do
  let [vars] ← j.slots? ["vars"] | none
  vars.required Json.vars?

end Overlay

namespace Program

def toJson (p : Program) : Json :=
  .record [("program", .text p.executable), ("args", .list .text p.arguments)]

/-- Reads a program; it may be without arguments. -/
def ofJson? (j : Json) : Option Program := do
  let [executable, arguments] ← j.slots? ["program", "args"] | none
  return ⟨← executable.required Json.text?, ← arguments.defaulted Json.format.texts? []⟩

end Program

namespace Command

def toJson (c : Command) : Json :=
  .record [("program", .text c.program), ("args", .list .text c.arguments),
    ("env", c.environment.toJson)]

def ofJson? (j : Json) : Option Command := do
  let [program, arguments, environment] ← j.slots? ["program", "args", "env"] | none
  return ⟨← program.required Json.text?, ← arguments.required Json.format.texts?,
    ← environment.required Overlay.ofJson?⟩

end Command

end EngineBench
