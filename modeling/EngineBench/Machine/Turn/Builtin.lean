import EngineBench.Machine.Turn.Tool

/-!
# Commands of the shell

The commands that change the shell itself or its processes. Some of them are special: if something
is wrong with their arguments, the shell exits.
-/

namespace EngineBench.Turn

open Shell

/-- A complaint about a word that should be a number. -/
def illegalNumber (command : String) (w : Bytes) : Bytes :=
  Text.encode (command ++ ": Illegal number: ") ++ w

/-! ## Traps -/

/-- The signal or, as zero, the end of the shell that a word names. -/
def condition? (w : Bytes) : Option UInt8 :=
  match natural? w with
  | some n => if n < 65 then some (UInt8.ofNat n) else none
  | none => do
    let name := (← Text.decode? w).toUpper
    if name = "EXIT" then return 0
    return (← Signal.ofName? name).number

/-- Sets what is done on a condition; an empty action ignores a signal. -/
def trapOne (t : Turn) (action : Option Bytes) (n : UInt8) : Turn :=
  let ignored := t.process.ignored.filter fun g => g.number ≠ n
  let (ignored, action) :=
    match action with
    | some [] => if n = 0 then (ignored, none) else (⟨n⟩ :: ignored, none)
    | action => (ignored, action)
  { t with process := { t.process with ignored }, shell := t.shell.setTrap n action }

def trap (t : Turn) : List Bytes → Turn
  | [] => t.setStatus 0
  | action :: rest =>
    let (action, conditions) :=
      if rest.isEmpty || (natural? action).isSome then (none, action :: rest)
      else if action = [0x2D] then (none, rest)
      else (some action, rest)
    let known := conditions.takeWhile fun w => (condition? w).isSome
    let t := (known.filterMap condition?).foldl (fun t n => t.trapOne action n) t
    match conditions.drop known.length with
    | [] => t.setStatus 0
    | w :: _ => (t.say (Text.encode "trap: " ++ w ++ Text.encode ": bad trap")).setStatus 1

/-! ## Signals -/

/-- The signal that `kill` is to send, and the words behind it. -/
def killSignal? : List Bytes → Option (UInt8 × List Bytes)
  | [0x2D, 0x73] :: name :: r => (condition? name).map (·, r)
  | (0x2D :: name) :: r => (condition? name).map (·, r)
  | r => some (Signal.terminate.number, r)

/-- The processes that a number means for `kill`. -/
def isTarget (t : Turn) (i : Int) (p : Process) : Bool :=
  if 0 < i then p.pid.toNat = i.toNat
  else if i = 0 then p.group = t.process.group
  else p.group.toNat = (-i).toNat

/-- Sends a signal to what a number means; says whether there was something. -/
def killOne (line : Nat) (g : UInt8) (t : Turn) (w : Bytes) : Bool × Turn :=
  let meant := t.isTarget ((integer? w).getD 0)
  if integer? w = some (Machine.ownPid.toNat : Int) then
    (true, { t with machine := t.machine.interrupt ⟨g⟩ })
  else if !(t.machine.processes.any meant) then
    (false, t.complain line (Text.encode "kill: No such process\n"))
  else if g = 0 then (true, t)
  else
    let machine := t.machine.send meant ⟨g⟩
    let process :=
      if meant t.process then { t.process with pending := t.process.pending ++ [⟨g⟩] }
      else t.process
    (true, { t with machine, process })

def killUsage : String :=
  "kill: Usage: kill [-s sigspec | -signum | -sigspec] [pid | job]... or\nkill -l [exitstatus]"

def kill (t : Turn) (line : Nat) (arguments : List Bytes) : Turn :=
  match killSignal? arguments with
  | none =>
    let letter := ((arguments.headD []).drop 1).take 1
    (t.complain line (Text.encode "kill: Illegal option -" ++ letter)).setStatus 2
  | some (_, []) => (t.complain line (Text.encode killUsage)).setStatus 2
  | some (g, targets) =>
    match targets.find? fun w => (integer? w).isNone with
    | some w => (t.complain line (illegalNumber "kill" w)).setStatus 2
    | none => t.forAll (killOne line g) targets

/-! ## Variables -/

/-- Sets a variable from an argument with an equals sign, and makes children get it. -/
def exportOne (t : Turn) (argument : Bytes) : Turn :=
  let name := argument.takeWhile (· ≠ 0x3D)
  let shell :=
    match argument.drop name.length with
    | _ :: value => t.shell.setVariable name value
    | [] => t.shell
  { t with shell := shell.exportVariable name }

def unsetOne (t : Turn) (name : Bytes) : Turn :=
  let vars := t.shell.vars.filter fun v => v.1 ≠ name
  let exported := t.shell.exported.filter (· ≠ name)
  { t with shell := { t.shell with vars, exported } }

/-- Reads a line into a variable. Without a whole line there is no success. -/
def readLine (t : Turn) (names : List Bytes) : Turn :=
  let content := t.machine.contentOf (t.process.streams.get 0)
  let value := trimmed (content.takeWhile (· ≠ 0x0A))
  let shell := names.head?.elim t.shell fun name => t.shell.setVariable name value
  { t with shell }.setStatus (if content.contains 0x0A then 0 else 1)

/-! ## Control -/

/-- Leaves the frames up to the innermost loop, which is left too or goes on. Redirections and
assignments on the way are taken back. -/
def unwind (t : Turn) (goOn : Bool) : List Frame → Turn
  | [] => { t with shell := { t.shell with frames := [] } }
  | .restore streams :: r => (t.setStreams streams).unwind goOn r
  | .revert vars exported :: r => { t with shell := { t.shell with vars, exported } }.unwind goOn r
  | f :: r =>
    match f with
    | .tested .. | .repeated .. | .each .. =>
      { t with shell := { t.shell with frames := if goOn then f :: r else r } }
    | _ => t.unwind goOn r

def isInLoop (t : Turn) : Bool :=
  t.shell.frames.any fun f =>
    match f with
    | .tested .. | .repeated .. | .each .. => true
    | _ => false

/-- Leaves a loop or goes on with it; outside of loops nothing happens. -/
def loopControl (t : Turn) (goOn : Bool) : Turn :=
  let t := t.setStatus 0
  if t.isInLoop then t.unwind goOn t.shell.frames else t

/-- Exits with the status that an argument gives. -/
def exitWith (t : Turn) (line : Nat) (command : String) : List Bytes → Turn
  | [] => t.leave t.shell.status
  | w :: _ =>
    match natural? w with
    | some n => t.leave (UInt8.ofNat n)
    | none => t.fail line (illegalNumber command w)

def shift (t : Turn) (line : Nat) (arguments : List Bytes) : Turn :=
  match arguments.head?.elim (some 1) natural? with
  | none => t.fail line (illegalNumber "shift" (arguments.headD []))
  | some n =>
    if t.shell.arguments.length < n then
      t.fail line (Text.encode "shift: can't shift that many")
    else
      { t with shell := { t.shell with arguments := t.shell.arguments.drop n } }.setStatus 0

/-- Waits for children: for those that are named, or for all. -/
def wait (t : Turn) (line : Nat) (arguments : List Bytes) : Turn :=
  match arguments.find? fun w => (natural? w).isNone with
  | some w => (t.complain line (illegalNumber "wait" w)).setStatus 2
  | none =>
    if arguments.isEmpty then (t.setStatus 0).push .awaitChildren
    else
      (arguments.filterMap natural?).foldr (fun n t => t.push (.awaitJob (UInt32.ofNat n))) t

def specialNames : List String :=
  [":", "break", "continue", "eval", "exec", "exit", "export", "return", "set", "shift", "trap",
    "unset"]

/-- The commands of the shell itself; `none` for other names. -/
def builtin? (t : Turn) (line : Nat) (name : String) (arguments : List Bytes) : Option Turn :=
  match name with
  | ":" | "ulimit" | "umask" => some (t.setStatus 0)
  | "exit" | "return" => some (t.exitWith line name arguments)
  | "trap" => some (t.trap arguments)
  | "kill" => some (t.kill line arguments)
  | "break" => some (t.loopControl false)
  | "continue" => some (t.loopControl true)
  | "export" => some ((arguments.foldl exportOne t).setStatus 0)
  | "unset" => some ((arguments.foldl unsetOne t).setStatus 0)
  | "read" => some (t.readLine arguments)
  | "shift" => some (t.shift line arguments)
  | "wait" => some (t.wait line arguments)
  | "set" =>
    match arguments with
    | [0x2D, 0x2D] :: rest =>
      some ({ t with shell := { t.shell with arguments := rest } }.setStatus 0)
    | _ => some (t.setStatus 0)
  | "eval" =>
    match Script.read? (spaced arguments) with
    | some s => some ((t.setStatus 0).push (.run s))
    | none => some (t.fail line (Text.encode "Syntax error"))
  | _ => none

end EngineBench.Turn
