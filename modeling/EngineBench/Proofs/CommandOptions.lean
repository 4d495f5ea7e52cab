import EngineBench.Command
import EngineBench.Proofs.PlainNumbers

/-!
# The options of the commands are read back

The engine and the client get their options as text. A reader that takes flags and values in turn
gets back the numbers and names of the configuration.

* `Said` is what a reader finds: the values by their names, and the switch at the end.
* `Said.engine?` and `Said.client?` are what the two programs make of it.
* `Command.options_read` says that nothing gets lost or mixed up, and which configurations the engine
  can tell apart.
-/

namespace EngineBench

/-! ## Reading options -/

/-- What options say: the values with their names, and the switch that stands behind them. -/
structure Said where
  values : List (String × String)
  switch : Option String
  deriving DecidableEq

namespace Said

/-- All names, in their order. -/
def names (s : Said) : List String := s.values.map Prod.fst ++ s.switch.toList

/-- The value of a name, as `reader` understands it. -/
def read? {α : Type} (s : Said) (name : String) (reader : String → Option α) : Option α :=
  (s.values.lookup name).bind reader

/-- What the arguments are from which this is read. -/
def written (s : Said) : List String :=
  s.values.flatMap (fun v => Command.option v.1 v.2) ++ s.switch.toList.map Command.flag

end Said

namespace Command

/-- The name of a flag. -/
def flagName? (argument : String) : Option String :=
  match argument.toList with
  | '-' :: '-' :: name => some (String.ofList name)
  | _ => none

/-- Takes arguments in pairs, as a flag and its value. A flag that is left over is the switch. -/
def readOptions? : List String → Option Said
  | [] => some ⟨[], none⟩
  | [argument] => (flagName? argument).map fun name => ⟨[], some name⟩
  | argument :: value :: rest => do
    let name ← flagName? argument
    let said ← readOptions? rest
    return { said with values := (name, value) :: said.values }

theorem flagName?_flag (name : String) : flagName? (flag name) = some name := by
  rw [flagName?, flag, String.toList_append]
  exact congrArg some String.ofList_toList

/-- What is written is read, whatever the values are. -/
theorem readOptions?_written (s : Said) : readOptions? s.written = some s := by
  obtain ⟨values, switch⟩ := s
  induction values with
  | nil =>
    cases switch with
    | none => rfl
    | some name =>
      show (flagName? (flag name)).map _ = _
      rw [flagName?_flag]
      rfl
  | cons v values ih =>
    -- A value is taken as it is, so it may look like a flag.
    show (flagName? (flag v.1)).bind (fun name => (readOptions? (Said.written ⟨values, switch⟩)).bind
      fun said => some { said with values := (name, v.2) :: said.values }) = _
    rw [flagName?_flag, ih]
    rfl

end Command

/-- A command hands a program its own arguments and then options, in which no name stands twice. -/
structure Command.Says (k : Command) (p : Program) (said : Said) : Prop where
  executable : k.program = p.executable
  arguments : ∃ options, k.arguments = p.arguments ++ options ∧
    Command.readOptions? options = some said
  nodup : said.names.Nodup

namespace Said

theorem read?_eq {α : Type} {s : Said} {name v : String} {reader : String → Option α} {x : α}
    (hv : s.values.lookup name = some v) (hx : reader v = some x) :
    s.read? name reader = some x := by
  rw [read?, hv]
  exact hx

end Said

/-! ## What the engine reads -/

/-- What the engine is told about a run. -/
structure EngineReading where
  model : String
  tokenizer : String
  port : UInt16
  memoryFraction : Binary64
  context : Parallelism
  decoding : Parallelism
  dummyWeights : Bool
  deriving DecidableEq

namespace Said

open ValueOption (readPort? readDegree? readPort?_toString readDegree?_toString)

/-- The layout of a stage. -/
def layout? (s : Said) (stage : String) : Option Parallelism := do
  let tensor ← s.read? (stage ++ "-tensor-parallel-size") readDegree?
  let pipeline ← s.read? (stage ++ "-pipeline-parallel-size") readDegree?
  return ⟨tensor, pipeline⟩

/-- Whether the weights may be left unloaded. No other switch is known. -/
def dummyWeights? (s : Said) : Option Bool :=
  match s.switch with
  | none => some false
  | some name => if name = "use-dummy-weights" then some true else none

def engine? (s : Said) : Option EngineReading := do
  let model ← s.read? "model" some
  let tokenizer ← s.read? "tokenizer" some
  let port ← s.read? "port" readPort?
  let memoryFraction ← s.read? "gpu-memory-utilization" Decimal.readFloat?
  let context ← s.layout? "context"
  let decoding ← s.layout? "decoding"
  let dummyWeights ← s.dummyWeights?
  return { model, tokenizer, port, memoryFraction, context, decoding, dummyWeights }

theorem layout?_eq {s : Said} {stage : String} {l : Parallelism}
    (htensor : s.values.lookup (stage ++ "-tensor-parallel-size") = some (toString l.tensor.toNat))
    (hpipeline : s.values.lookup (stage ++ "-pipeline-parallel-size") =
      some (toString l.pipeline.toNat)) :
    s.layout? stage = some l := by
  rw [layout?, read?_eq htensor (readDegree?_toString _), read?_eq hpipeline (readDegree?_toString _)]
  rfl

end Said

namespace Command

def layoutValues (stage : String) (l : Parallelism) : List (String × String) :=
  [(stage ++ "-tensor-parallel-size", toString l.tensor.toNat),
    (stage ++ "-pipeline-parallel-size", toString l.pipeline.toNat)]

def limitValues (stage : String) (l : StageLimits) : List (String × String) :=
  [(stage ++ "-sched-policy", l.policy.name),
    (stage ++ "-max-batch-size", toString l.requests.toNat),
    (stage ++ "-max-tokens-per-batch", toString l.tokens.toNat)]

/-- What the options of the engine say. -/
def engineSaid (c : Configuration) : Said where
  values :=
    [("host", loopbackHost), ("port", toString c.port.toNat), ("model", c.model),
      ("tokenizer", c.model)] ++
    layoutValues "context" c.context ++ layoutValues "decoding" c.decoding ++
    [("block-size", toString blockSize), ("max-num-blocks-per-req", toString maxBlocksPerRequest),
      ("gpu-memory-utilization", c.memoryFraction.plain), ("swap-space", toString swapSpace)] ++
    limitValues "context" .context ++ limitValues "decoding" .decoding
  switch := if c.dummyWeights then some "use-dummy-weights" else none

theorem engineOptions_eq (c : Configuration) : engineOptions c = (engineSaid c).written := by
  rw [engineOptions, engineSaid]
  cases c.dummyWeights <;> rfl

/-- The names are the same for all configurations, but for the switch. -/
theorem nodup_names_engineSaid (c : Configuration) : (engineSaid c).names.Nodup := by
  have hnames : (engineSaid c).names = (engineSaid default).names ++
      if c.dummyWeights then ["use-dummy-weights"] else [] := by
    rw [engineSaid]
    cases c.dummyWeights <;> rfl
  rw [hnames]
  cases c.dummyWeights <;> decide

theorem says_engine (c : Configuration) (p : Program) (environment : Overlay) :
    (engine c p environment).Says p (engineSaid c) where
  executable := rfl
  arguments := ⟨engineOptions c, rfl, by rw [engineOptions_eq, readOptions?_written]⟩
  nodup := nodup_names_engineSaid c

theorem engine?_engineSaid (c : Configuration) : (engineSaid c).engine? =
    some ⟨c.model, c.model, c.port, c.memoryFraction, c.context, c.decoding, c.dummyWeights⟩ := by
  have hport : (engineSaid c).read? "port" ValueOption.readPort? = some c.port :=
    Said.read?_eq rfl (ValueOption.readPort?_toString _)
  have hfraction : (engineSaid c).read? "gpu-memory-utilization" Decimal.readFloat? =
      some c.memoryFraction := Said.read?_eq rfl (Binary64.readFloat?_plain _)
  have hcontext : (engineSaid c).layout? "context" = some c.context := Said.layout?_eq rfl rfl
  have hdecoding : (engineSaid c).layout? "decoding" = some c.decoding := Said.layout?_eq rfl rfl
  have hweights : (engineSaid c).dummyWeights? = some c.dummyWeights := by
    cases h : c.dummyWeights <;> simp [Said.dummyWeights?, engineSaid, h]
  rw [Said.engine?, hport, hfraction, hcontext, hdecoding, hweights]
  rfl

end Command

/-! ## What the client reads -/

/-- What the client is told about a run. -/
structure ClientReading where
  dataset : String
  results : String
  port : UInt16
  firstToken : Binary64
  perToken : Binary64
  deriving DecidableEq

def Said.client? (s : Said) : Option ClientReading := do
  let dataset ← s.read? "dataset" some
  let results ← s.read? "output" some
  let port ← s.read? "port" ValueOption.readPort?
  let firstToken ← s.read? "base-ttft" Decimal.readFloat?
  let perToken ← s.read? "base-tpot" Decimal.readFloat?
  return { dataset, results, port, firstToken, perToken }

namespace Command

/-- What the options of the client say. -/
def clientSaid (c : Configuration) (results : Path) : Said where
  values :=
    [("dataset", c.dataset.text), ("host", loopbackHost), ("port", toString c.port.toNat),
      ("output", results.text), ("base-ttft", c.firstToken.plain), ("base-tpot", c.perToken.plain)]
  switch := some "verbose"

theorem says_client (c : Configuration) (p : Program) (results : Path) (environment : Overlay) :
    (client c p results environment).Says p (clientSaid c results) where
  executable := rfl
  arguments := ⟨(clientSaid c results).written, rfl, readOptions?_written _⟩
  nodup := by
    have hnames : (clientSaid c results).names =
      ["dataset", "host", "port", "output", "base-ttft", "base-tpot", "verbose"] := rfl
    rw [hnames]
    decide

theorem client?_clientSaid (c : Configuration) (results : Path) :
    (clientSaid c results).client? =
      some ⟨c.dataset.text, results.text, c.port, c.firstToken, c.perToken⟩ := by
  have hport : (clientSaid c results).read? "port" ValueOption.readPort? = some c.port :=
    Said.read?_eq rfl (ValueOption.readPort?_toString _)
  have hfirst : (clientSaid c results).read? "base-ttft" Decimal.readFloat? = some c.firstToken :=
    Said.read?_eq rfl (Binary64.readFloat?_plain _)
  have hper : (clientSaid c results).read? "base-tpot" Decimal.readFloat? = some c.perToken :=
    Said.read?_eq rfl (Binary64.readFloat?_plain _)
  rw [Said.client?, hport, hfirst, hper]
  rfl

/-! ## Nothing gets lost -/

/-- A command says one thing only. -/
theorem Says.unique {k : Command} {p : Program} {said said' : Said} (h : k.Says p said)
    (h' : k.Says p said') : said = said' := by
  obtain ⟨options, hoptions, hread⟩ := h.arguments
  obtain ⟨options', hoptions', hread'⟩ := h'.arguments
  rw [hoptions] at hoptions'
  rw [List.append_cancel_left hoptions', hread'] at hread
  exact (Option.some.inj hread).symm

/-- Engines are started alike exactly if the engine reads the same. -/
theorem engine_eq_iff (c c' : Configuration) (p : Program) (environment : Overlay) :
    engine c p environment = engine c' p environment ↔
      c.model = c'.model ∧ c.port = c'.port ∧ c.memoryFraction = c'.memoryFraction ∧
        c.context = c'.context ∧ c.decoding = c'.decoding ∧ c.dummyWeights = c'.dummyWeights := by
  constructor
  · intro h
    -- Equal commands say the same, and what they say tells the fields.
    have hsaid : engineSaid c = engineSaid c' :=
      (says_engine c p environment).unique (h ▸ says_engine c' p environment)
    have hread := engine?_engineSaid c
    rw [hsaid, engine?_engineSaid c'] at hread
    simp only [Option.some.injEq, EngineReading.mk.injEq] at hread
    obtain ⟨hmodel, -, hport, hfraction, hcontext, hdecoding, hweights⟩ := hread
    exact ⟨hmodel.symm, hport.symm, hfraction.symm, hcontext.symm, hdecoding.symm, hweights.symm⟩
  · rintro ⟨hmodel, hport, hfraction, hcontext, hdecoding, hweights⟩
    rw [engine, engine, engineOptions, engineOptions, hmodel, hport, hfraction, hcontext, hdecoding,
      hweights]

/-- Both programs can read the numbers and names of the configuration off their options, each name
stands there once, and the engine is started alike exactly for configurations that agree on what it
reads. -/
theorem options_read (p : Program) (results : Path) (environment : Overlay) :
    (∀ c, ∃ said, (engine c p environment).Says p said ∧ said.engine? =
      some ⟨c.model, c.model, c.port, c.memoryFraction, c.context, c.decoding, c.dummyWeights⟩) ∧
    (∀ c, ∃ said, (client c p results environment).Says p said ∧ said.client? =
      some ⟨c.dataset.text, results.text, c.port, c.firstToken, c.perToken⟩) ∧
    ∀ c c', engine c p environment = engine c' p environment ↔
      c.model = c'.model ∧ c.port = c'.port ∧ c.memoryFraction = c'.memoryFraction ∧
        c.context = c'.context ∧ c.decoding = c'.decoding ∧ c.dummyWeights = c'.dummyWeights :=
  ⟨fun c => ⟨engineSaid c, says_engine c p environment, engine?_engineSaid c⟩,
    fun c => ⟨clientSaid c results, says_client c p results environment,
      client?_clientSaid c results⟩,
    fun c c' => engine_eq_iff c c' p environment⟩

end Command

end EngineBench
