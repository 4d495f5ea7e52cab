import EngineBench.CommandLine
import EngineBench.Machine.Host

/-!
# The program

The program rehearses its command line on a machine in memory. The machine has the environment and
the working directory of the program, and the settings files that it could load; what is printed
there is printed here. The machine has no engine, so a run ends there with a failed launch.
-/

namespace EngineBench

/-- The variables of the environment that matter. -/
def rehearsedVariables : List String := ["PATH", Invocation.dummyWeightsVariable]

/-- The settings files that a command line could load. -/
def wantedFiles (arguments : List Bytes) (directory : Path) (lookup : String → Option String) :
    List Path :=
  match Invocation.resolve arguments lookup with
  | .ok i => i.settings.elim (Settings.candidates directory) fun p => [p]
  | .error _ => []

/-- A machine with the environment of the program. -/
def rehearsalMachine (directory : Path) : IO Machine := do
  let m := (Machine.fresh.installDirectory directory).enter directory
  rehearsedVariables.foldlM
    (fun m name => return m.setVariable name ((← IO.getEnv name).map Text.encode)) m

/-- The machine with a file of the program, if there is such a file. -/
def withFile (m : Machine) (p : Path) : IO Machine := do
  try
    let content ← IO.FS.readBinFile p.text
    return m.install p content.toList
  catch _ => return m

end EngineBench

open EngineBench in
/-- Runs the command line on a machine in memory. -/
def main (arguments : List String) : IO UInt32 := do
  let arguments := (CommandLine.programName :: arguments).map Text.encode
  let directory := Path.ofString (← IO.currentDir).toString
  let m ← rehearsalMachine directory
  let wanted := wantedFiles arguments directory (CommandLine.textVariable Machine.host m)
  let m ← wanted.foldlM withFile m
  let (result, m) := CommandLine.run Machine.host arguments m
  (← IO.getStdout).write ⟨m.output.toArray⟩
  (← IO.getStderr).write ⟨m.errors.toArray⟩
  return UInt32.ofNat (CommandLine.exitCode result)
