import EngineBench.Command
import EngineBench.Duration
import EngineBench.Record

/-!
# Settings

The settings say how the engine and the client are started, where their output goes, and what else
happens in a run. Every field has a default. They are read from any `DataFormat`; the texts that
have to mean something are then checked by `Settings.violation?`.
-/

namespace EngineBench

/-- How the engine is started and stopped. -/
structure EngineSettings where
  program : String
  arguments : List String
  /-- Where the output of the engine goes; emptied for every run. -/
  log : Path
  /-- How long the engine may take to stop, as a duration text. -/
  grace : String
  deriving DecidableEq

structure ClientSettings where
  program : String
  arguments : List String
  results : Path
  deriving DecidableEq

/-- The environment that engine and client share. -/
structure RuntimeSettings where
  /-- A prepared runtime to activate. -/
  root : Option Path
  /-- Variables that are set after the activation. -/
  vars : Overlay
  deriving DecidableEq

structure Settings where
  engine : EngineSettings
  client : ClientSettings
  runtime : RuntimeSettings
  /-- Serve the configuration on the port above that of the engine. -/
  metadata : Bool
  /-- Where the report of the run goes, if one is wanted. -/
  report : Option Path
  deriving DecidableEq

namespace EngineSettings

def standard : EngineSettings where
  program := "python"
  arguments := ["-m", "distserve.api_server.distserve_api_server"]
  log := .ofString "logs/server.log"
  grace := "10s"

def read? {V : Type} (f : DataFormat V) (v : V) : Option EngineSettings := do
  let [program, arguments, log, grace] ←
    f.slots? ["program", "args", "log_file", "shutdown_timeout"] v | none
  return {
    program := ← program.defaulted f.text? standard.program
    arguments := ← arguments.defaulted f.texts? standard.arguments
    log := ← log.defaulted f.path? standard.log
    grace := ← grace.defaulted f.text? standard.grace }

def toProgram (s : EngineSettings) : Program := ⟨s.program, s.arguments⟩

end EngineSettings

namespace ClientSettings

def standard : ClientSettings where
  program := "python"
  arguments := ["benchmark-serving.py"]
  results := .ofString "logs/results.json"

def read? {V : Type} (f : DataFormat V) (v : V) : Option ClientSettings := do
  let [program, arguments, results] ← f.slots? ["program", "args", "output"] v | none
  return {
    program := ← program.defaulted f.text? standard.program
    arguments := ← arguments.defaulted f.texts? standard.arguments
    results := ← results.defaulted f.path? standard.results }

def toProgram (s : ClientSettings) : Program := ⟨s.program, s.arguments⟩

end ClientSettings

namespace RuntimeSettings

/-- The environment as it is. -/
def standard : RuntimeSettings := ⟨none, .empty⟩

def read? {V : Type} (f : DataFormat V) (v : V) : Option RuntimeSettings := do
  let [root, vars] ← f.slots? ["prefix", "vars"] v | none
  return {
    root := ← root.defaulted (f.nullable? f.path?) none
    vars := ← vars.defaulted f.vars? .empty }

/-- What is laid over the environment of a process, given the search path that it inherits: the
variables are set one after the other behind the activation. -/
def overlay (s : RuntimeSettings) (inherited : Option String) : Overlay :=
  s.vars.vars.foldl (fun e p => e.insert p.1 p.2)
    (s.root.elim .empty (Overlay.activate · inherited))

end RuntimeSettings

namespace Settings

def standard : Settings where
  engine := .standard
  client := .standard
  runtime := .standard
  metadata := false
  report := none

instance : Inhabited Settings := ⟨standard⟩

def readSingle? {V α : Type} (f : DataFormat V) (name : String) (read? : V → Option α)
    (default : α) (v : V) : Option α := do
  let [field] ← f.slots? [name] v | none
  field.defaulted read? default

def read? {V : Type} (f : DataFormat V) (v : V) : Option Settings := do
  let [engine, client, runtime, metadata, report] ←
    f.slots? ["server", "client", "environment", "metadata", "report"] v | none
  return {
    engine := ← engine.defaulted (EngineSettings.read? f) .standard
    client := ← client.defaulted (ClientSettings.read? f) .standard
    runtime := ← runtime.defaulted (RuntimeSettings.read? f) .standard
    metadata := ← metadata.defaulted (readSingle? f "enabled" f.bool? false) false
    report := ← report.defaulted (readSingle? f "path" (f.nullable? f.path?) none) none }

inductive Violation where
  | grace (e : Duration.Refusal)
  | blankEngine
  | blankClient
  deriving DecidableEq

def Violation.message : Violation → String
  | grace e => e.message
  | blankEngine => "server.program must not be empty"
  | blankClient => "client.program must not be empty"

def grace (s : Settings) : Except Duration.Refusal Duration := Duration.parse s.engine.grace

def violation? (s : Settings) : Option Violation :=
  match s.grace with
  | .error e => some (.grace e)
  | .ok _ =>
    if Text.isBlank s.engine.program then some .blankEngine
    else if Text.isBlank s.client.program then some .blankClient
    else none

end Settings

end EngineBench
