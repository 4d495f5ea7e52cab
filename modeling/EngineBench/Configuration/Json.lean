import EngineBench.Configuration
import EngineBench.Json.Record

/-!
# Configurations in JSON

A configuration is written field by field; a dataset path that is not UTF-8 cannot be written. What
is read is not checked: a record says what was run, not what may be run.
-/

namespace EngineBench

namespace Parallelism

def toJson (l : Parallelism) : Json :=
  .record [("tensor_parallel", .nat l.tensor.toNat), ("pipeline_parallel", .nat l.pipeline.toNat)]

def ofJson? (j : Json) : Option Parallelism := do
  let [tensor, pipeline] ← j.slots? ["tensor_parallel", "pipeline_parallel"] | none
  return ⟨← tensor.required Json.word32?, ← pipeline.required Json.word32?⟩

end Parallelism

namespace Configuration

def fieldNames : List String :=
  ["model", "gpu_memory_util", "dataset", "port", "base_ttft", "base_tpot", "context", "decoding",
    "use_dummy_weights"]

/-- The configuration as a JSON value, if its dataset path is UTF-8. -/
def toJson? (c : Configuration) : Option Json := do
  let dataset ← Json.ofPath? c.dataset
  return .record (fieldNames.zip
    [.text c.model, .float c.memoryFraction, dataset, .nat c.port.toNat, .float c.firstToken,
      .float c.perToken, c.context.toJson, c.decoding.toJson, .bool c.dummyWeights])

def ofJson? (j : Json) : Option Configuration := do
  let [model, memoryFraction, dataset, port, firstToken, perToken, context, decoding,
    dummyWeights] ← j.slots? fieldNames | none
  return {
    model := ← model.required Json.text?
    memoryFraction := ← memoryFraction.required Json.float?
    dataset := ← dataset.required Json.format.path?
    port := ← port.required Json.word16?
    firstToken := ← firstToken.required Json.float?
    perToken := ← perToken.required Json.float?
    context := ← context.required Parallelism.ofJson?
    decoding := ← decoding.required Parallelism.ofJson?
    dummyWeights := ← dummyWeights.required Json.bool? }

end Configuration

end EngineBench
