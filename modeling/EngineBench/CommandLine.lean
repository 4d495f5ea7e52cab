import EngineBench.Invocation
import EngineBench.Plan
import EngineBench.Report
import EngineBench.Settings.Load

/-!
# The command line

From the arguments to the outcome: resolve the arguments, load the settings, print the commands or
run them, and write the report. Nothing is started and no file is touched before the arguments and
the settings are known to be right, and a report that cannot be written does not change the outcome.
-/

namespace EngineBench

/-- The exit code of a program that could not go on. -/
def Halt.exitCode : Nat := 101

namespace CommandLine

variable {σ : Type}

def programName : String := "servebench"

def complain (h : Host σ) (message : String) (s : σ) : σ :=
  h.complain (programName ++ ": " ++ message) s

def refuse (h : Host σ) (r : Refusal) (s : σ) : σ :=
  h.complain ("Run '" ++ programName ++ " --help' for the list of options.")
    (complain h r.message s)

def printNotice (h : Host σ) (text : String) (s : σ) : Outcome × σ :=
  match h.print text s with
  | (.ok (), s) => (.success, s)
  | (.error e, s) => (.configError, complain h ("cannot print usage: " ++ e.message) s)

/-- The value of an environment variable, if it is UTF-8. -/
def textVariable (h : Host σ) (s : σ) (name : String) : Option String :=
  (h.getVariable name s).bind Text.decode?

/-- The line that a dry run prints for a command. -/
def planned (role : String) (c : Command) : String := role ++ ": " ++ c.line ++ "\n"

def dryRun (h : Host σ) (p : Plan) (c : Configuration) (s : σ) : Except Halt Outcome × σ :=
  match h.print (planned "server" (p.engineCommand c)) s with
  | (.error _, s) => (.error .outputLost, s)
  | (.ok (), s) =>
    match h.print (planned "client" (p.clientCommand c)) s with
    | (.error _, s) => (.error .outputLost, s)
    | (.ok (), s) => (.ok .success, s)

/-- Runs a plan against its endpoint and writes the report that the settings ask for. -/
def execute (h : Host σ) (p : Plan) (c : Configuration) (report : Option Path) (s : σ) :
    Except Halt Outcome × σ :=
  match p.run h c (h.connect c.port) s with
  | (.error halt, s) => (.error halt, s)
  | (.ok summary, s) =>
    match report with
    | none => (.ok summary.outcome, s)
    | some path => (.ok summary.outcome, (Report.write h path summary s).2)

/-- Does what a resolved command line asks for. -/
def perform (h : Host σ) (i : Invocation) (s : σ) : Except Halt Outcome × σ :=
  match Settings.resolve h i.settings s with
  | .error _ => (.ok .configError, s)
  | .ok settings =>
    let token : Token := ⟨0, !i.dryRun⟩
    let s := if i.dryRun then s else h.watchSignals s
    match Plan.ofSettings settings (settings.environment h s) token with
    | .error _ => (.ok .configError, s)
    | .ok plan =>
      if i.dryRun then dryRun h plan i.configuration s
      else execute h plan i.configuration settings.report s

/-- Runs a command line, the name of the program first. -/
def run (h : Host σ) (arguments : List Bytes) (s : σ) : Except Halt Outcome × σ :=
  match Invocation.resolve arguments (textVariable h s) with
  | .error (.notice _ text) =>
    let (outcome, s) := printNotice h text s
    (.ok outcome, s)
  | .error (.refused r) => (.ok .configError, refuse h r s)
  | .ok i => perform h i s

/-- The exit code of the program for a result of `run`. -/
def exitCode : Except Halt Outcome → Nat
  | .ok o => o.exitCode
  | .error _ => Halt.exitCode

end CommandLine

end EngineBench
