import EngineBench.Client
import EngineBench.HealthGate
import EngineBench.Metadata
import EngineBench.Settings
import EngineBench.Summary

/-!
# Runs

A `Plan` says how a run goes: start the engine, wait at the health gate, run the client, stop the
engine. The outcome is fixed before the engine is stopped. However the part between start and stop
ends, the guard of the engine is cleaned up exactly once; if a wait outlasts the clock, the guard is
dropped.
-/

namespace EngineBench

/-- What a run needs to know besides the configuration. -/
structure Plan where
  engine : Program
  log : Path
  client : Program
  results : Path
  /-- What is laid over the environment of engine and client. -/
  environment : Overlay
  gate : HealthGate
  /-- How long the engine may take to end when it is asked to. -/
  grace : Duration
  /-- Serve the configuration while the run goes on. -/
  metadata : Bool
  token : Token

namespace Plan

variable {σ : Type}

def ofSettings (s : Settings) (environment : Overlay) (token : Token) :
    Except Duration.Refusal Plan := do
  return {
    engine := s.engine.toProgram
    log := s.engine.log
    client := s.client.toProgram
    results := s.client.results
    environment := environment
    gate := .standard
    grace := ← s.grace
    metadata := s.metadata
    token := token }

def engineCommand (p : Plan) (c : Configuration) : Command := .engine c p.engine p.environment

def clientCommand (p : Plan) (c : Configuration) : Command :=
  .client c p.client p.results p.environment

/-- Begins to serve the configuration, if that is wanted and possible; the result is the port. -/
def startMetadata (h : Host σ) (p : Plan) (c : Configuration) (s : σ) : Option UInt16 × σ :=
  if p.metadata then
    match c.metadataPort? with
    | none => (none, s)
    | some port =>
      match Metadata.start h port c s with
      | (.ok (), s) => (some port, s)
      | (.error _, s) => (none, s)
  else (none, s)

def stopMetadata (h : Host σ) (port : Option UInt16) (s : σ) : σ :=
  match port with
  | some port => h.unlisten port s
  | none => s

def probeBeside (probe : σ → ProbeResult × σ) (w : σ × Guard) : ProbeResult × σ × Guard :=
  let (r, s) := probe w.1
  (r, s, w.2)

def pollBeside (h : Host σ) (w : σ × Guard) : Bool × σ × Guard :=
  let (running, g, s) := w.2.isRunning h w.1
  (running, s, g)

/-- Waits at the health gate. The guard is polled before each attempt. -/
def awaitReady (h : Host σ) (p : Plan) (probe : σ → ProbeResult × σ) (g : Guard) (s : σ) :
    Except Halt HealthReport × Guard × σ :=
  let (report, s, g) :=
    p.gate.wait (h.extend Guard) p.token (probeBeside probe) (pollBeside h) (s, g)
  (report, g, s)

/-- What the end of the client means for the run. -/
def clientVerdict (summary : Summary) : ClientResult → Except Halt (Outcome × Summary)
  | .error halt => .error halt
  | .ok (.ok status) => .ok (.success, summary.noteClient status)
  | .ok (.error .interrupted) => .ok (.interrupted, summary)
  | .ok (.error (.failed status)) => .ok (.benchmarkError, summary.noteClient status)
  | .ok (.error _) => .ok (.benchmarkError, summary)

/-- Runs the client and says what its end means for the run. -/
def runClient (h : Host σ) (p : Plan) (c : Configuration) (summary : Summary) (s : σ) :
    Except Halt (Outcome × Summary) × σ :=
  let (result, s) := Client.run h p.token (p.clientCommand c) p.results s
  (clientVerdict summary result, s)

/-- What a run does between the start and the stop of its engine. -/
def drive (h : Host σ) (p : Plan) (c : Configuration) (probe : σ → ProbeResult × σ)
    (summary : Summary) (g : Guard) (s : σ) : Except Halt (Outcome × Summary) × Guard × σ :=
  match p.awaitReady h probe g s with
  | (.error halt, g, s) => (.error halt, g, s)
  | (.ok report, g, s) =>
    let summary := summary.noteAttempts report.attempts
    match report.status with
    | .ready =>
      let (result, s) := p.runClient h c summary s
      (result, g, s)
    | .timedOut => (.ok (.healthTimeout, summary), g, s)
    | .engineExited => (.ok (.launchError, summary), g, s)
    | .interrupted => (.ok (.interrupted, summary), g, s)

/-- Drives a run while the configuration is served. -/
def driveServing (h : Host σ) (p : Plan) (c : Configuration) (probe : σ → ProbeResult × σ)
    (summary : Summary) (g : Guard) (s : σ) : Except Halt (Outcome × Summary) × Guard × σ :=
  let (port, s) := p.startMetadata h c s
  let (result, g, s) := p.drive h c probe summary g s
  (result, g, stopMetadata h port s)

/-- Starts the engine and goes on to the outcome, which nothing changes any more. -/
def settle (h : Host σ) (p : Plan) (c : Configuration) (probe : σ → ProbeResult × σ)
    (summary : Summary) (s : σ) : Except Halt (Outcome × Summary) × Guard × σ :=
  match Engine.launch h (p.engineCommand c) p.log s with
  | (.error _, s) => (.ok (.launchError, summary), .empty, s)
  | (.ok e, s) => p.driveServing h c probe (summary.noteEngine e.pid) (.ofEngine e p.grace) s

/-- The summary of a run with a fixed outcome, after its cleanup. -/
def close (p : Plan) (o : Outcome) (summary : Summary) (r : Except Unconfirmed CleanupAction)
    (g : Guard) (i : Interrupts) (now : Timestamp) : Summary :=
  let summary := (summary.noteCleanup r).noteState g
  let summary := if o = .interrupted then summary.noteSignal (p.token.signal? i) else summary
  summary.finish o now

/-- Stops the engine and closes the summary of a run with a fixed outcome. At last the guard is
dropped. -/
def conclude (h : Host σ) (p : Plan) (o : Outcome) (summary : Summary) (g : Guard) (s : σ) :
    Except Halt Summary × σ :=
  match g.cleanup h s with
  | (.error halt, g, s) => (.error halt, (g.drop h s).2)
  | (.ok result, g, s) =>
    let s := h.look s
    (.ok (p.close o summary result g (h.interrupts s) (h.date s)), (g.drop h s).2)

def begin (p : Plan) (c : Configuration) (now : Timestamp) : Summary :=
  .begin c (p.engineCommand c).line (p.clientCommand c).line p.log now

def run (h : Host σ) (p : Plan) (c : Configuration) (probe : σ → ProbeResult × σ) (s : σ) :
    Except Halt Summary × σ :=
  let summary := p.begin c (h.date s)
  let s := h.look s
  if p.token.isCancelled (h.interrupts s) then
    let s := h.look s
    let summary := summary.noteSignal (p.token.signal? (h.interrupts s))
    (.ok (summary.finish .interrupted (h.date s)), s)
  else
    match p.settle h c probe summary s with
    -- Unwinding drops the guard, and that is the cleanup then.
    | (.error halt, g, s) => (.error halt, (g.drop h s).2)
    | (.ok (outcome, summary), g, s) => p.conclude h outcome summary g s

end Plan

end EngineBench
