import EngineBench.Configuration.Json
import EngineBench.Outcome.Json
import EngineBench.Summary

/-!
# Summaries in JSON

A summary is written field by field, with `null` for what did not happen. It cannot be written if
one of its paths is not UTF-8.
-/

namespace EngineBench

namespace ProcessState

def toJson (s : ProcessState) : Json := .text s.name

def ofJson? : Json → Option ProcessState := Json.named? all name

end ProcessState

namespace CleanupAction

def toJson (a : CleanupAction) : Json := .text a.name

def ofJson? : Json → Option CleanupAction := Json.named? all name

end CleanupAction

namespace Timestamp

def toJson (t : Timestamp) : Json := .text t.text

def ofJson? (j : Json) : Option Timestamp := j.text?.bind read?

end Timestamp

namespace Summary

def fieldNames : List String :=
  ["schema_version", "version", "started_at", "finished_at", "outcome", "exit_code", "config",
    "server_command", "client_command", "server_log", "server_pid", "server_state",
    "health_attempts", "client_exit_code", "cleanup", "cleanup_error", "interrupted_by_signal"]

/-- A summary as a JSON value, if its paths are UTF-8. -/
def toJson? (s : Summary) : Option Json := do
  let configuration ← s.configuration.toJson?
  let log ← Json.ofPath? s.engineLog
  let word (n : UInt32) : Json := .nat n.toNat
  let number (n : Int32) : Json := .int n.toInt
  return .record (fieldNames.zip
    [word s.schemaVersion, .text s.version, s.startedAt.toJson,
      .option Timestamp.toJson s.finishedAt, s.outcome.toJson, number s.exitCode, configuration,
      .text s.engineLine, .text s.clientLine, log, .option word s.enginePid,
      .option ProcessState.toJson s.engineState, .option word s.healthAttempts,
      .option number s.clientExitCode, .option CleanupAction.toJson s.cleanup,
      .option .text s.cleanupError, .option number s.interruptedBy])

/-- A field that may be `null`, or missing in an object. -/
def optionalField? {α : Type} (read? : Json → Option α) : Slot Json → Option (Option α) :=
  Slot.optional (Json.format.nullable? read?)

def ofJson? (j : Json) : Option Summary := do
  let [schemaVersion, version, startedAt, finishedAt, outcome, exitCode, configuration, engineLine,
    clientLine, engineLog, enginePid, engineState, healthAttempts, clientExitCode, cleanup,
    cleanupError, interruptedBy] ← j.slots? fieldNames | none
  return {
    schemaVersion := ← schemaVersion.required Json.word32?
    version := ← version.required Json.text?
    startedAt := ← startedAt.required Timestamp.ofJson?
    finishedAt := ← optionalField? Timestamp.ofJson? finishedAt
    outcome := ← outcome.required Outcome.ofJson?
    exitCode := ← exitCode.required Json.int32?
    configuration := ← configuration.required Configuration.ofJson?
    engineLine := ← engineLine.required Json.text?
    clientLine := ← clientLine.required Json.text?
    engineLog := ← engineLog.required Json.format.path?
    enginePid := ← optionalField? Json.word32? enginePid
    engineState := ← optionalField? ProcessState.ofJson? engineState
    healthAttempts := ← optionalField? Json.word32? healthAttempts
    clientExitCode := ← optionalField? Json.int32? clientExitCode
    cleanup := ← optionalField? CleanupAction.ofJson? cleanup
    cleanupError := ← optionalField? Json.text? cleanupError
    interruptedBy := ← optionalField? Json.int32? interruptedBy }

end Summary

end EngineBench
