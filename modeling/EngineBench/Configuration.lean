import EngineBench.Decimal.Plain
import EngineBench.Path
import EngineBench.Text.Blank

/-!
# Run configurations

A configuration says which model is served and how it is measured. It starts from three values
that have no default, is adjusted field by field, and is then checked: `Configuration.build` gives
back the adjusted record unchanged, or the first `Violation` in the order of the fields. The order
of the adjustments does not matter for the check, since only the record is looked at.

Degrees of parallelism are numbers of 32 bits and ports numbers of 16 bits; `Parallelism.devices`
saturates.
-/

namespace EngineBench

/-- How one stage of the engine is spread over devices. -/
structure Parallelism where
  tensor : UInt32
  pipeline : UInt32
  deriving DecidableEq, Repr

namespace Parallelism

def single : Parallelism := ⟨1, 1⟩

instance : Inhabited Parallelism := ⟨single⟩

/-- The number of devices of a stage, or the largest number of 32 bits if there are more. -/
def devices (l : Parallelism) : Nat := min (l.tensor.toNat * l.pipeline.toNat) (UInt32.size - 1)

end Parallelism

/-- The parameters of a run. Nothing is checked yet. -/
structure Configuration where
  /-- The model, which also names the tokenizer. -/
  model : String
  /-- The part of the device memory that the engine may use. -/
  memoryFraction : Binary64
  dataset : Path
  port : UInt16
  /-- The target for the time to the first token, in seconds. -/
  firstToken : Binary64
  /-- The target for the time per further token, in seconds. -/
  perToken : Binary64
  /-- The layout of the stage that reads the prompt. -/
  context : Parallelism
  /-- The layout of the stage that writes the answer. -/
  decoding : Parallelism
  /-- Whether the engine may leave the weights unloaded. -/
  dummyWeights : Bool
  deriving DecidableEq

/-- The parameters that have a domain of their own, in the order in which they are checked. -/
inductive Parameter where
  | model
  | memoryFraction
  | dataset
  | port
  | firstToken
  | perToken
  | contextTensor
  | contextPipeline
  | decodingTensor
  | decodingPipeline
  deriving DecidableEq, Repr

def Parameter.flag : Parameter → String
  | .model => "--model"
  | .memoryFraction => "--gpu-memory-util"
  | .dataset => "--dataset"
  | .port => "--port"
  | .firstToken => "--base-ttft"
  | .perToken => "--base-tpot"
  | .contextTensor => "--context-tp"
  | .contextPipeline => "--context-pp"
  | .decodingTensor => "--decoding-tp"
  | .decodingPipeline => "--decoding-pp"

/-- A value outside the domain of its parameter. -/
inductive Violation where
  | unnamed (p : Parameter)
  /-- A memory fraction that is not above zero and at most one. -/
  | notAFraction (x : Binary64)
  | zeroPort
  /-- A target that is not a positive finite number. -/
  | notPositive (p : Parameter) (x : Binary64)
  | zeroDegree (p : Parameter)
  deriving DecidableEq

namespace Violation

def parameter : Violation → Parameter
  | unnamed p => p
  | notAFraction _ => .memoryFraction
  | zeroPort => .port
  | notPositive p _ => p
  | zeroDegree p => p

def reason : Violation → String
  | unnamed _ => "must not be empty"
  | notAFraction x => x.plain ++ " is not a fraction in (0, 1]"
  | zeroPort => "must be positive"
  | notPositive _ x => x.plain ++ " is not a positive number"
  | zeroDegree _ => "must be at least 1"

end Violation

namespace Configuration

def defaultPort : UInt16 := 8000

/-- The target for the time to the first token if none is given, 0.25 s. -/
def defaultFirstToken : Binary64 := Decimal.toBinary64 false ⟨25, -2⟩

/-- The target for the time per further token if none is given, 0.1 s. -/
def defaultPerToken : Binary64 := Decimal.toBinary64 false ⟨1, -1⟩

/-- The configuration that leaves everything with a default at that default. -/
def ofRequired (model : String) (memoryFraction : Binary64) (dataset : Path) : Configuration where
  model := model
  memoryFraction := memoryFraction
  dataset := dataset
  port := defaultPort
  firstToken := defaultFirstToken
  perToken := defaultPerToken
  context := .single
  decoding := .single
  dummyWeights := false

instance : Inhabited Configuration := ⟨ofRequired "" default default⟩

/-- A change of one field that has a default. -/
inductive Adjustment where
  | port (n : UInt16)
  | firstToken (x : Binary64)
  | perToken (x : Binary64)
  | context (l : Parallelism)
  | decoding (l : Parallelism)
  | dummyWeights (enabled : Bool)
  deriving DecidableEq

def adjust (c : Configuration) : Adjustment → Configuration
  | .port n => { c with port := n }
  | .firstToken x => { c with firstToken := x }
  | .perToken x => { c with perToken := x }
  | .context l => { c with context := l }
  | .decoding l => { c with decoding := l }
  | .dummyWeights enabled => { c with dummyWeights := enabled }

/-- The first value outside its domain. -/
def violation? (c : Configuration) : Option Violation :=
  if Text.isBlank c.model then some (.unnamed .model)
  else if !(c.memoryFraction.isPositive && c.memoryFraction.isAtMostOne) then
    some (.notAFraction c.memoryFraction)
  else if c.dataset.bytes.isEmpty then some (.unnamed .dataset)
  else if c.port = 0 then some .zeroPort
  else if !(c.firstToken.isFinite && c.firstToken.isPositive) then
    some (.notPositive .firstToken c.firstToken)
  else if !(c.perToken.isFinite && c.perToken.isPositive) then
    some (.notPositive .perToken c.perToken)
  else if c.context.tensor = 0 then some (.zeroDegree .contextTensor)
  else if c.context.pipeline = 0 then some (.zeroDegree .contextPipeline)
  else if c.decoding.tensor = 0 then some (.zeroDegree .decodingTensor)
  else if c.decoding.pipeline = 0 then some (.zeroDegree .decodingPipeline)
  else none

/-- The configuration itself if every value is in its domain. -/
def check (c : Configuration) : Except Violation Configuration :=
  match c.violation? with
  | some v => .error v
  | none => .ok c

/-- The checked configuration that the required values and the changes make. -/
def build (model : String) (memoryFraction : Binary64) (dataset : Path)
    (changes : List Adjustment) : Except Violation Configuration :=
  (changes.foldl adjust (ofRequired model memoryFraction dataset)).check

/-- The port of the metadata listener, one above the port of the engine. -/
def metadataPort? (c : Configuration) : Option UInt16 :=
  if c.port = 65535 then none else some (c.port + 1)

end Configuration

end EngineBench
