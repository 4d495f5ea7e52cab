import EngineBench.Configuration
import EngineBench.Overlay
import EngineBench.Text.ShellWord

/-!
# Commands

A run starts two programs: the engine and the benchmark client. A `Program` is what the settings
say about one of them; `Command.engine` and `Command.client` put the flags of the run behind it.
A command is a value without effects, so equal configurations give equal commands.
-/

namespace EngineBench

def loopbackHost : String := "127.0.0.1"

/-- Tokens in a block of the cache. -/
def blockSize : Nat := 16

/-- The number of blocks that one request may hold. -/
def maxBlocksPerRequest : Nat := 128

/-- Space for blocks that were moved out of device memory, in GiB. -/
def swapSpace : Nat := 16

/-- In which order a stage takes requests. -/
inductive BatchPolicy where
  /-- First come, first served. -/
  | fcfs
  deriving DecidableEq, Repr, Inhabited

def BatchPolicy.name : BatchPolicy → String
  | .fcfs => "fcfs"

/-- What one batch of a stage may hold. -/
structure StageLimits where
  policy : BatchPolicy
  requests : UInt32
  tokens : UInt32
  deriving DecidableEq, Repr, Inhabited

/-- The limits of the stage that reads the prompt. -/
def StageLimits.context : StageLimits := ⟨.fcfs, 128, 8192⟩

/-- The limits of the stage that writes the answer. -/
def StageLimits.decoding : StageLimits := ⟨.fcfs, 1024, 65536⟩

/-- An executable with the arguments that come first. -/
structure Program where
  executable : String
  arguments : List String
  deriving DecidableEq, Inhabited

/-- What is executed: a program, all its arguments, and what is laid over its environment. -/
structure Command where
  program : String
  arguments : List String
  environment : Overlay
  deriving DecidableEq, Inhabited

namespace Command

def flag (name : String) : String := "--" ++ name

def option (name value : String) : List String := [flag name, value]

def layoutOptions (stage : String) (l : Parallelism) : List String :=
  option (stage ++ "-tensor-parallel-size") (toString l.tensor.toNat) ++
    option (stage ++ "-pipeline-parallel-size") (toString l.pipeline.toNat)

def limitOptions (stage : String) (l : StageLimits) : List String :=
  option (stage ++ "-sched-policy") l.policy.name ++
    option (stage ++ "-max-batch-size") (toString l.requests.toNat) ++
    option (stage ++ "-max-tokens-per-batch") (toString l.tokens.toNat)

def engineOptions (c : Configuration) : List String :=
  option "host" loopbackHost ++
    option "port" (toString c.port.toNat) ++
    option "model" c.model ++
    option "tokenizer" c.model ++
    layoutOptions "context" c.context ++
    layoutOptions "decoding" c.decoding ++
    option "block-size" (toString blockSize) ++
    option "max-num-blocks-per-req" (toString maxBlocksPerRequest) ++
    option "gpu-memory-utilization" c.memoryFraction.plain ++
    option "swap-space" (toString swapSpace) ++
    limitOptions "context" .context ++
    limitOptions "decoding" .decoding ++
    (if c.dummyWeights then [flag "use-dummy-weights"] else [])

def clientOptions (c : Configuration) (results : Path) : List String :=
  option "dataset" c.dataset.text ++
    option "host" loopbackHost ++
    option "port" (toString c.port.toNat) ++
    option "output" results.text ++
    option "base-ttft" c.firstToken.plain ++
    option "base-tpot" c.perToken.plain ++
    [flag "verbose"]

def engine (c : Configuration) (p : Program) (environment : Overlay) : Command :=
  ⟨p.executable, p.arguments ++ engineOptions c, environment⟩

def client (c : Configuration) (p : Program) (results : Path) (environment : Overlay) : Command :=
  ⟨p.executable, p.arguments ++ clientOptions c results, environment⟩

/-- The argument behind the first occurrence of an argument. -/
def valueAfter? (argument : String) : List String → Option String
  | [] => none
  | a :: r => if a = argument then r.head? else valueAfter? argument r

/-- The argument behind the first occurrence of a flag. -/
def flagValue? (c : Command) (name : String) : Option String :=
  valueAfter? (flag name) c.arguments

def hasFlag (c : Command) (name : String) : Bool := c.arguments.contains (flag name)

def line (c : Command) : String :=
  String.intercalate " " ((c.program :: c.arguments).map Text.shellWord)

end Command

end EngineBench
