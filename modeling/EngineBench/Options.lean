import EngineBench.Configuration

/-!
# Command-line options

The vocabulary of the command line. A `ValueOption` takes a value of its own kind: `Value` is the
kind, `ValueOption.read` the reading of it. A `Switch` is given or not, and a `Notice` is a text
that is printed instead of a run. `Refusal` lists what can be wrong with a command line.
-/

namespace EngineBench

/-- The options that take a value. -/
inductive ValueOption where
  /-- An option that sets a parameter of the run. -/
  | parameter (p : Parameter)
  | settings
  deriving DecidableEq, Repr

/-- The options that take no value. -/
inductive Switch where
  | dummyWeights
  | dryRun
  | verbose
  deriving DecidableEq, Repr

/-- What is printed instead of a run. -/
inductive Notice where
  | help
  | version
  deriving DecidableEq, Repr

namespace ValueOption

def all : List ValueOption :=
  [.parameter .model, .parameter .memoryFraction, .parameter .dataset, .parameter .firstToken,
    .parameter .perToken, .parameter .port, .parameter .contextTensor,
    .parameter .contextPipeline, .parameter .decodingTensor, .parameter .decodingPipeline,
    .settings]

def flag : ValueOption → String
  | .parameter p => p.flag
  | .settings => "--config"

def placeholder : ValueOption → String
  | .parameter .model => "<MODEL>"
  | .parameter .memoryFraction => "<GPU_MEMORY_UTIL>"
  | .parameter .dataset => "<DATASET>"
  | .parameter .port => "<PORT>"
  | .parameter .firstToken => "<BASE_TTFT>"
  | .parameter .perToken => "<BASE_TPOT>"
  | .parameter .contextTensor => "<CONTEXT_TP>"
  | .parameter .contextPipeline => "<CONTEXT_PP>"
  | .parameter .decodingTensor => "<DECODING_TP>"
  | .parameter .decodingPipeline => "<DECODING_PP>"
  | .settings => "<CONFIG>"

def usage (o : ValueOption) : String := o.flag ++ " " ++ o.placeholder

def Value : ValueOption → Type
  | .parameter .model => String
  | .parameter .memoryFraction | .parameter .firstToken | .parameter .perToken => Binary64
  | .parameter .dataset | .settings => Path
  | .parameter .port => UInt16
  | .parameter .contextTensor | .parameter .contextPipeline
  | .parameter .decodingTensor | .parameter .decodingPipeline => UInt32

end ValueOption

namespace Switch

def all : List Switch := [.dummyWeights, .dryRun, .verbose]

def flag : Switch → String
  | .dummyWeights => "--use-dummy-weights"
  | .dryRun => "--dry-run"
  | .verbose => "--verbose"

end Switch

namespace Notice

def all : List Notice := [.help, .version]

def flag : Notice → String
  | .help => "--help"
  | .version => "--version"

end Notice

/-! ## The help text -/

namespace ValueOption

def description : ValueOption → String
  | .parameter .model => "Model identifier, also used as the tokenizer"
  | .parameter .memoryFraction => "Fraction of GPU memory the engine may use, in (0, 1]"
  | .parameter .dataset => "Benchmark dataset passed to the client"
  | .parameter .firstToken => "Baseline time-to-first-token target, in seconds [default: 0.25]"
  | .parameter .perToken =>
    "Baseline time-per-output-token target, in seconds [default: 0.1]"
  | .parameter .port => "Loopback port of the served endpoint [default: 8000]"
  | .parameter .contextTensor => "Context-stage tensor parallel size [default: 1]"
  | .parameter .contextPipeline => "Context-stage pipeline parallel size [default: 1]"
  | .parameter .decodingTensor => "Decoding-stage tensor parallel size [default: 1]"
  | .parameter .decodingPipeline => "Decoding-stage pipeline parallel size [default: 1]"
  | .settings => "Harness settings file; defaults to a discovered servebench.toml"

/-- The options without a default, in the order in which they are reported. -/
def required : List ValueOption :=
  [.parameter .model, .parameter .memoryFraction, .parameter .dataset]

end ValueOption

def Switch.description : Switch → String
  | .dummyWeights => "Serve with dummy weights (also enabled by USE_DUMMY_WEIGHT=1)"
  | .dryRun => "Print the server and client commands without running anything"
  | .verbose => "Verbose harness logging"

namespace Notice

def description : Notice → String
  | .help => "Print help"
  | .version => "Print version"

def versionNumber : String := "0.1.0"

/-- An entry of the help text. Long options are aligned, with or without a short one. -/
def entry (short : Option Char) (usage description : String) : String :=
  let start :=
    match short with
    | some c => "  -" ++ String.singleton c ++ ", "
    | none => "      "
  start ++ usage ++ "\n          " ++ description ++ "\n"

def entries : List String :=
  let option (o : ValueOption) := entry none o.usage o.description
  let switch (short : Option Char) (s : Switch) := entry short s.flag s.description
  let notice (short : Char) (n : Notice) := entry (some short) n.flag n.description
  (ValueOption.all.filter (· ≠ .settings)).map option ++
    [switch none .dummyWeights, option .settings, switch none .dryRun,
      switch (some 'v') .verbose, notice 'h' .help, notice 'V' .version]

/-- The text of a notice, for a program called by the given name. -/
def text (program : String) : Notice → String
  | version => "servebench " ++ versionNumber ++ "\n"
  | help =>
    "ServeBench - launch a serving engine, benchmark it, tear it down\n\n" ++
      "Usage: " ++ program ++ " [OPTIONS] " ++
      String.intercalate " " (ValueOption.required.map (·.usage)) ++ "\n\n" ++
      "Options:\n" ++ String.join entries

end Notice

/-! ## Refusals -/

/-- What can be wrong with a command line. -/
inductive Refusal where
  /-- Options without a default were not given. -/
  | missing (options : List ValueOption)
  | unknown (token : String)
  /-- A value of the wrong form; an empty text also stands for a value that was not given. -/
  | malformed (option : ValueOption) (text : String)
  | violation (v : Violation)
  /-- An option with a value was given twice. -/
  | repeatedOption (option : ValueOption)
  | repeatedSwitch (switch : Switch)
  /-- A value was given to an option that takes none. -/
  | unexpectedValue (flag value : String)
  /-- A value that has to be text is not UTF-8. -/
  | notUtf8
  deriving DecidableEq

/-- The four classes of refusals. -/
inductive RefusalKind where
  | missing
  | unknown
  | invalidValue
  | usage
  deriving DecidableEq, Repr

namespace Refusal

def kind : Refusal → RefusalKind
  | missing _ => .missing
  | unknown _ => .unknown
  | malformed .. | violation _ => .invalidValue
  | repeatedOption _ | repeatedSwitch _ | unexpectedValue .. | notUtf8 => .usage

/-- The first line of a text, without the control characters that are not white space. -/
def firstLine (s : String) : String :=
  let line := s.toList.takeWhile (· ≠ '\n')
  let line := if s.toList.contains '\n' && line.getLast? = some '\r' then line.dropLast else line
  String.ofList (line.filter fun c => c.toNat ≠ 0x7F && (0x20 ≤ c.toNat || c = '\t' || c = '\r'
    || c = '\x0c'))

def message : Refusal → String
  | missing os => "missing required argument: " ++ String.intercalate ", " (os.map (·.usage))
  | unknown token => "unknown parameter: " ++ token
  | malformed o text => "invalid value for " ++ o.usage ++ ": '" ++ text ++ "' is not accepted"
  | violation v => "invalid value for " ++ v.parameter.flag ++ ": " ++ v.reason
  | repeatedOption o => repetition o.usage
  | repeatedSwitch s => repetition s.flag
  | unexpectedValue flag value =>
    "invalid invocation: " ++
      firstLine ("unexpected value '" ++ value ++ "' for '" ++ flag ++
        "' found; no more were expected")
  | notUtf8 => "invalid invocation: invalid UTF-8 was detected in one or more arguments"
where
  repetition (name : String) : String :=
    "invalid invocation: the argument '" ++ name ++ "' cannot be used multiple times"

end Refusal

namespace ValueOption

def readText {α : Type} (o : ValueOption) (read? : String → Option α) (bs : Bytes) :
    Except Refusal α :=
  match Text.decode? bs with
  | none => .error .notUtf8
  | some s =>
    match read? s with
    | none => .error (.malformed o s)
    | some a => .ok a

def readPath (o : ValueOption) (bs : Bytes) : Except Refusal Path :=
  if bs.isEmpty then .error (.malformed o "") else .ok ⟨bs⟩

def readPort? (s : String) : Option UInt16 := (Decimal.readWhole? 65535 s).map UInt16.ofNat

/-- Reads a degree of parallelism: a whole number of 32 bits. -/
def readDegree? (s : String) : Option UInt32 := (Decimal.readWhole? 4294967295 s).map UInt32.ofNat

def read : (o : ValueOption) → Bytes → Except Refusal o.Value
  | .parameter .model => readText (.parameter .model) some
  | .parameter .memoryFraction => readText (.parameter .memoryFraction) Decimal.readFloat?
  | .parameter .dataset => readPath (.parameter .dataset)
  | .parameter .port => readText (.parameter .port) readPort?
  | .parameter .firstToken => readText (.parameter .firstToken) Decimal.readFloat?
  | .parameter .perToken => readText (.parameter .perToken) Decimal.readFloat?
  | .parameter .contextTensor => readText (.parameter .contextTensor) readDegree?
  | .parameter .contextPipeline => readText (.parameter .contextPipeline) readDegree?
  | .parameter .decodingTensor => readText (.parameter .decodingTensor) readDegree?
  | .parameter .decodingPipeline => readText (.parameter .decodingPipeline) readDegree?
  | .settings => readPath .settings

end ValueOption

end EngineBench
