import EngineBench.Options.Token

/-!
# Invocations

`resolve` turns the arguments of a command line into an `Invocation`, or says why it does not. The
arguments are read from left to right by a machine whose state is what was given so far and an
option that is *pending*: named, but not yet stored. A pending option is stored, that is checked
for repetition and its value read, when the next option or switch is reached, or at the end. So an
unknown token is reported before a wrong value in front of it, and the text of a notice after it.

* `resolve_nil` says that no arguments at all miss every option without a default.
-/

namespace EngineBench

structure Invocation where
  configuration : Configuration
  settings : Option Path
  /-- Print the commands instead of running them. -/
  dryRun : Bool
  verbose : Bool
  deriving DecidableEq

namespace Options

/-- The options and switches that were given. -/
structure Given where
  value? : (o : ValueOption) → Option o.Value
  isOn : Switch → Bool

namespace Given

def empty : Given := ⟨fun _ => none, fun _ => false⟩

def set (g : Given) (o : ValueOption) (v : o.Value) : Given :=
  { g with value? := fun p => if h : o = p then some (h ▸ v) else g.value? p }

def turnOn (g : Given) (s : Switch) : Given :=
  { g with isOn := fun t => t == s || g.isOn t }

@[simp]
theorem value?_set_self (g : Given) (o : ValueOption) (v : o.Value) :
    (g.set o v).value? o = some v := by
  simp [set]

theorem value?_set_of_ne (g : Given) {o p : ValueOption} (v : o.Value) (h : o ≠ p) :
    (g.set o v).value? p = g.value? p := by
  simp [set, h]

/-- Reads and stores the value of an option; no value reads like the empty one, and an option is
stored only once. -/
def store (g : Given) (o : ValueOption) (value : Option Bytes) : Except Refusal Given :=
  match value with
  | none => .error (.malformed o "")
  | some bs =>
    if (g.value? o).isSome then .error (.repeatedOption o)
    else (o.read bs).map (g.set o)

/-- The options without a default that are missing. -/
def missing (g : Given) : List ValueOption :=
  ValueOption.required.filter fun o => (g.value? o).isNone

end Given

/-- An option that was named but is not stored yet. -/
structure Pending where
  option : ValueOption
  value : Option Bytes

/-- The state of the machine. -/
structure State where
  given : Given
  pending : Option Pending
  trailing : Bool

/-- Why the machine stops before the end. -/
inductive Stop where
  | refused (r : Refusal)
  | notice (n : Notice)
  deriving DecidableEq

namespace State

def start : State := ⟨.empty, none, false⟩

def flush (s : State) : Except Stop Given :=
  match s.pending with
  | none => .ok s.given
  | some p => (s.given.store p.option p.value).mapError .refused

def step (s : State) : Item → Except Stop State
  | .option o none => do
    let given ← s.flush
    return { s with given, pending := some ⟨o, none⟩ }
  | .option o (some v) => do
    let given ← s.flush
    let given ← (given.store o (some v)).mapError .refused
    return { s with given, pending := none }
  | .switch w => do
    let given ← s.flush
    if given.isOn w then throw (.refused (.repeatedSwitch w))
    return { s with given := given.turnOn w, pending := none }
  | .notice n => do
    let _ ← s.flush
    throw (.notice n)
  | .excess flag v => throw (.refused (.unexpectedValue flag (Text.lossy v)))
  | .separator => return { s with trailing := true }
  | .word bs =>
    match s.pending with
    | some ⟨o, none⟩ => return { s with pending := some ⟨o, some bs⟩ }
    | _ => throw (.refused (.unknown (Text.lossy bs)))
  | .unknown token => throw (.refused (.unknown token))

/-- Takes up one argument. After the separator nothing is known any more. -/
def read (s : State) (argument : Bytes) : Except Stop State :=
  if s.trailing then .error (.refused (.unknown (Text.lossy argument)))
  else (items argument).foldlM step s

/-- What was given when the arguments are used up. -/
def finish (s : State) : Except Stop Given := do
  let given ← s.flush
  if given.missing.isEmpty then return given
  throw (.refused (.missing given.missing))

end State

def parse (arguments : List Bytes) : Except Stop Given := do
  (← arguments.foldlM State.read .start).finish

end Options

namespace Invocation

/-- The environment variable that turns on dummy weights. -/
def dummyWeightsVariable : String := "USE_DUMMY_WEIGHT"

/-- Whether a value of the variable turns dummy weights on. -/
def turnsOn (value : String) : Bool := value = "1" || value = "true" || value = "True"

/-- Why there is no invocation. -/
inductive Stop where
  | refused (r : Refusal)
  | notice (n : Notice) (text : String)
  deriving DecidableEq

/-- The name under which the program was called, for the help text. -/
def programName : Option Bytes → String
  | none => "servebench"
  | some bs => ((Path.fileName? ⟨bs⟩).bind Text.decode?).getD "servebench"

def layout (tensor pipeline : Option UInt32) : Parallelism :=
  ⟨tensor.getD Parallelism.single.tensor, pipeline.getD Parallelism.single.pipeline⟩

/-- The changes that options make to a configuration. -/
def changes (g : Options.Given) (dummyWeights : Bool) : List Configuration.Adjustment :=
  [.port ((g.value? (.parameter .port)).getD Configuration.defaultPort),
    .firstToken ((g.value? (.parameter .firstToken)).getD Configuration.defaultFirstToken),
    .perToken ((g.value? (.parameter .perToken)).getD Configuration.defaultPerToken),
    .context (layout (g.value? (.parameter .contextTensor))
      (g.value? (.parameter .contextPipeline))),
    .decoding (layout (g.value? (.parameter .decodingTensor))
      (g.value? (.parameter .decodingPipeline))),
    .dummyWeights dummyWeights]

/-- The invocation that a set of options asks for. -/
def ofGiven (g : Options.Given) (lookup : String → Option String) : Except Refusal Invocation :=
  match g.value? (.parameter .model), g.value? (.parameter .memoryFraction),
    g.value? (.parameter .dataset) with
  | some model, some memoryFraction, some dataset =>
    let fromEnvironment := (lookup dummyWeightsVariable).elim false turnsOn
    match Configuration.build model memoryFraction dataset
        (changes g (g.isOn .dummyWeights || fromEnvironment)) with
    | .error v => .error (.violation v)
    | .ok c => .ok ⟨c, g.value? .settings, g.isOn .dryRun, g.isOn .verbose⟩
  | _, _, _ => .error (.missing g.missing)

/-- Resolves a command line, the name of the program first, with a look-up of environment
variables. -/
def resolve (arguments : List Bytes) (lookup : String → Option String) : Except Stop Invocation :=
  match Options.parse arguments.tail with
  | .error (.refused r) => .error (.refused r)
  | .error (.notice n) => .error (.notice n (n.text (programName arguments.head?)))
  | .ok g => (ofGiven g lookup).mapError .refused

/-- Without any arguments everything that has no default is missing. -/
theorem resolve_nil (lookup : String → Option String) :
    resolve [] lookup =
      .error (.refused (.missing ValueOption.required)) := rfl

end Invocation

end EngineBench
