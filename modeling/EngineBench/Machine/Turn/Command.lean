import EngineBench.Machine.Turn.Builtin
import EngineBench.Machine.Turn.Redirection

/-!
# Simple commands

The words of a simple command are expanded, its redirections are applied, its assignments are made,
and then the command is done by the shell itself, except for `sleep` and `sh`, which are children.
-/

namespace EngineBench.Turn

open Shell

/-! ## Programs with a process of their own -/

def searchPath (t : Turn) : Option Bytes := t.shell.vars.lookup (Text.encode "PATH")

/-- Starts a child with an image; the result is its number. -/
def addChild (t : Turn) (image : Image) (wake : Nat) (streams : Streams)
    (ignored : List Signal) : UInt32 × Turn :=
  let pid := t.machine.nextPid
  let child : Process :=
    ⟨pid, some t.process.pid, t.process.group, image, streams, ignored, [], false, some wake, none⟩
  (pid, { t with machine := t.machine.add child })

/-- Starts a program as a child and waits for it. -/
def runChild (t : Turn) (tool : String) (name : Bytes) (arguments : List Bytes) : Turn :=
  let (image, wake) :=
    t.machine.startTool tool name arguments t.shell.environment t.machine.nextPid t.process.pid
      t.machine.clock
  let (pid, t) := t.addChild image wake t.process.streams t.process.ignored
  (t.push (.awaitChild pid)).block

/-- What is said about a program that cannot be run, and the status of that. -/
def unusable (name : Bytes) : OsError → Bytes × UInt8
  | .accessDenied => (name ++ Text.encode ": Permission denied", 126)
  | _ => (name ++ Text.encode ": not found", 127)

def runTool (t : Turn) (line : Nat) (name : Bytes) (arguments : List Bytes) : Turn :=
  match t.machine.findTool t.searchPath name with
  | .error e =>
    let (text, status) := unusable name e
    (t.complain line text).setStatus status
  | .ok tool =>
    if tool = "sh" || (tool = "sleep" && (Machine.sleepTotal? arguments).isSome) then
      t.runChild tool name arguments
    else t.work [] tool arguments

def exec (t : Turn) (line : Nat) (name : Bytes) (arguments : List Bytes) : Turn :=
  match t.machine.findTool t.searchPath name with
  | .error e =>
    let (text, status) := unusable name e
    (t.complain line (Text.encode "exec: " ++ text)).exit status
  | .ok tool =>
    let (image, wake) :=
      t.machine.startTool tool name arguments t.shell.environment t.process.pid
        (t.process.parent.getD Machine.ownPid) t.machine.clock
    match image with
    | .shell shell => { t with shell }
    | .sleeper => { t with process := { t.process with image, wake := some wake } }

/-! ## Parts of a command -/

/-- The names of the programs that are part of the shell. -/
def innerTools : List String := ["true", "false", "echo", "printf", "test", "[", "pwd"]

def perform (t : Turn) (line : Nat) (name : Bytes) (arguments : List Bytes) : Turn :=
  let word := (Text.decode? name).getD ""
  match t.builtin? line word arguments with
  | some t => t
  | none =>
    if innerTools.contains word then t.work (t.place line) word arguments
    else t.runTool line name arguments

def assign (t : Turn) (assignments : List (Bytes × Word)) : Turn :=
  assignments.foldl
    (fun t a => { t with shell := t.shell.setVariable a.1 (t.expandWhole a.2) }) t

/-- Makes assignments for the time of one command, which gets them. -/
def assignFor (t : Turn) (assignments : List (Bytes × Word)) : Turn :=
  if assignments.isEmpty then t
  else
    let t := (t.push (.revert t.shell.vars t.shell.exported)).assign assignments
    { t with shell := assignments.foldl (fun s a => s.exportVariable a.1) t.shell }

/-- The command `exec`. Without a program, only its redirections matter. -/
def execAll (t : Turn) (line : Nat) : List Bytes → Turn
  | [] => t.setStatus 0
  | name :: arguments => t.exec line name arguments

/-- Does a simple command. The streams come back afterwards, except behind `exec`. -/
def command (t : Turn) (line : Nat) (assignments : List (Bytes × Word)) (words : List Word)
    (redirections : List Redirection) : Turn :=
  let streams := t.process.streams
  let fields := t.expand words
  let name := fields.headD []
  let isSpecial := specialNames.contains ((Text.decode? name).getD "")
  match t.redirectAll redirections with
  | .error text =>
    if isSpecial then t.fail line text else (t.complain line text).setStatus 2
  | .ok t =>
    if fields.isEmpty then ((t.assign assignments).setStreams streams).setStatus 0
    else if name = Text.encode "exec" then (t.assign assignments).execAll line fields.tail
    else
      let t := if redirections.isEmpty then t else t.push (.restore streams)
      let t := if isSpecial then t.assign assignments else t.assignFor assignments
      t.perform line name fields.tail

end EngineBench.Turn
