import EngineBench.Machine
import EngineBench.Shell.Reader

/-!
# Starting programs

What a process does at first when it starts a program: `sleep` only waits, `sh` works off a script,
and the other programs are a shell with one thing to do.
-/

namespace EngineBench.Machine

def endlessly : Duration := .ofSeconds (UInt64.size / 2)

def unitOf (c : Char) : Option Nat :=
  match c with
  | 's' => some 1
  | 'm' => some 60
  | 'h' => some 3600
  | 'd' => some 86400
  | _ => none

/-- The time that one argument of `sleep` asks for. -/
def sleepTime? (argument : Bytes) : Option Duration := do
  let text ← Text.decode? argument
  let cs := text.toList
  let (number, unit) :=
    match cs.getLast?.bind unitOf with
    | some unit => (cs.dropLast, unit)
    | none => (cs, 1)
  let x ← Decimal.readFloat? (String.ofList number)
  if x.isNegative then none
  else
    match Duration.ofBinary64? x with
    | some d => return ⟨d.nanoseconds * unit⟩
    | none => if x.isFinite then none else return endlessly

/-- The time that all arguments of `sleep` ask for. -/
def sleepTotal? : List Bytes → Option Duration
  | [] => none
  | arguments => do
    let times ← arguments.mapM sleepTime?
    return ⟨times.foldl (fun n d => n + d.nanoseconds) 0⟩

/-- The words of a shell behind its options, and whether the first of them is the script itself. -/
def shellWords : List Bytes → Bool × List Bytes
  | (0x2D :: letters) :: r =>
    if letters.contains 0x63 then (true, r)
    else if letters.isEmpty || letters = [0x2D] then (false, r)
    else shellWords r
  | r => (false, r)

/-- A shell with something to do. It knows the working directory and who started it. -/
def shellOf (m : Machine) (frames : List Shell.Frame) (name : Bytes) (arguments : List Bytes)
    (vars : List (Bytes × Bytes)) (pid parent : UInt32) : Shell.State :=
  let shell : Shell.State :=
    ⟨frames, 0, vars, vars.map Prod.fst, name, arguments, pid, none, [], [], []⟩
  (shell.setVariable (Text.encode "PWD") (Path.slash :: Path.join m.directory)).setVariable
    (Text.encode "PPID") (Text.encode (toString parent.toNat))

def scriptShell (m : Machine) (script name : Bytes) (arguments : List Bytes)
    (vars : List (Bytes × Bytes)) (pid parent : UInt32) : Shell.State :=
  let frame :=
    match Shell.Script.read? script with
    | some s => .run s
    | none => .fail 1 (Text.encode "Syntax error")
  m.shellOf [frame] name arguments vars pid parent

/-- What `sh` does with its arguments. Without a script it reads nothing and is done. -/
def startShell (m : Machine) (name : Bytes) (arguments : List Bytes)
    (vars : List (Bytes × Bytes)) (pid parent : UInt32) : Shell.State :=
  match shellWords arguments with
  | (true, script :: name :: rest) => m.scriptShell script name rest vars pid parent
  | (true, [script]) => m.scriptShell script name [] vars pid parent
  | (false, path :: rest) =>
    match m.files.read m.directory ⟨path⟩ with
    | .ok script => m.scriptShell script path rest vars pid parent
    | .error _ =>
      let reason := Text.encode "cannot open " ++ path ++ Text.encode ": No such file"
      m.shellOf [.fail 0 reason] name [] vars pid parent
  | (true, []) =>
    m.shellOf [.fail 0 (Text.encode "-c requires an argument")] name [] vars pid parent
  | (false, []) => m.shellOf [] name [] vars pid parent

/-- What a process does at first that starts a program, and when it goes on. -/
def startTool (m : Machine) (tool : String) (name : Bytes) (arguments : List Bytes)
    (vars : List (Bytes × Bytes)) (pid parent : UInt32) (now : Nat) : Image × Nat :=
  if tool = "sh" then (.shell (m.startShell name arguments vars pid parent), now)
  else
    match if tool = "sleep" then sleepTotal? arguments else none with
    | some d => (.sleeper, now + d.nanoseconds)
    | none =>
      (.shell (m.shellOf [.work (Text.encode tool :: arguments)] name [] vars pid parent), now)

end EngineBench.Machine
