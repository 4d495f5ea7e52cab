import EngineBench.Machine.Turn.Expansion
import EngineBench.Shell.Test

/-!
# Programs that need no process

The work of small programs, done by the shell in one step. Some are part of the shell, and then
begin their complaints as it does; `speaker` is what stands in front of the name of the program.
-/

namespace EngineBench.Turn

open Shell

def grumble (t : Turn) (speaker : Bytes) (name what : String) : Turn :=
  t.say (speaker ++ Text.encode (name ++ ": " ++ what))

/-- Writes to the standard output, and sets the status to what came of it. -/
def printBytes (t : Turn) (speaker : Bytes) (name : String) (bytes : Bytes) : Turn :=
  match t.write 1 bytes with
  | (true, t) => t.setStatus 0
  | (false, t) =>
    let reason :=
      if speaker.isEmpty then "write error: " ++ OsError.noSpace.text else name ++ ": I/O error"
    (t.grumble speaker name reason).setStatus 1

/-- Does something with each of several words, and sets the status to what came of all. -/
def forAll (t : Turn) (f : Turn → Bytes → Bool × Turn) (words : List Bytes) : Turn :=
  let (ok, t) :=
    words.foldl
      (fun (ok, t) w =>
        let (well, t) := f t w
        (ok && well, t))
      (true, t)
  t.setStatus (if ok then 0 else 1)

/-- Does something with each of several words; without a word there is a complaint. -/
def forSome (t : Turn) (name : String) (f : Turn → Bytes → Bool × Turn) (words : List Bytes) :
    Turn :=
  if words.isEmpty then
    let what := if name = "touch" then "missing file operand" else "missing operand"
    ((t.grumble [] name what).say
      (Text.encode ("Try '" ++ name ++ " --help' for more information."))).setStatus 1
  else t.forAll f words

/-! ## Tests -/

def fileView (t : Turn) : FileView :=
  let files := t.machine.files
  let node? (path : Bytes) :=
    match files.locate t.machine.directory ⟨path⟩ with
    | .ok (.taken _ n) => some n
    | _ => none
  { isThere := fun path => (node? path).isSome
    isFile := fun path => files.isFile t.machine.directory ⟨path⟩
    isDirectory := fun path => files.isDirectory t.machine.directory ⟨path⟩
    isTool := fun path =>
      match node? path with
      | some (.tool _) => true
      | _ => false
    hasContent := fun path =>
      match node? path with
      | some (.file content) => !content.isEmpty
      | some .directory => true
      | _ => false }

/-- Does a test, and sets the status to what it finds. -/
def runTest (t : Turn) (speaker : Bytes) (name : String) (arguments : List Bytes) : Turn :=
  match Shell.test t.fileView arguments with
  | .ok true => t.setStatus 0
  | .ok false => t.setStatus 1
  | .error e => (t.say (speaker ++ Text.encode (name ++ ": ") ++ e.text)).setStatus 2

/-! ## Files -/

/-- Complains about something that cannot be done with a path. -/
def refuse (t : Turn) (what : String) (path : Bytes) (e : OsError) : Bool × Turn :=
  (false, t.say (Text.encode (what ++ " '") ++ path ++ Text.encode ("': " ++ e.text)))

def catOne (t : Turn) (path : Bytes) : Bool × Turn :=
  match t.machine.files.read t.machine.directory ⟨path⟩ with
  | .ok content => t.write 1 content
  | .error e => (false, t.say (Text.encode "cat: " ++ path ++ Text.encode (": " ++ e.text)))

def touchOne (t : Turn) (path : Bytes) : Bool × Turn :=
  match t.machine.files.openFile t.machine.directory ⟨path⟩ false with
  | .ok (_, files) => (true, { t with machine := { t.machine with files } })
  | .error .isADirectory => (true, t)
  | .error e => t.refuse "touch: cannot touch" path e

/-- Makes a directory; with `parents` also those above, and it may be there. -/
def makeOne (parents : Bool) (t : Turn) (path : Bytes) : Bool × Turn :=
  let files := t.machine.files
  let (r, files) :=
    if parents then files.makeDirectories t.machine.directory ⟨path⟩
    else
      match files.makeDirectory t.machine.directory ⟨path⟩ with
      | .ok files => (.ok (), files)
      | .error e => (.error e, files)
  let t := { t with machine := { t.machine with files } }
  match r with
  | .ok () => (true, t)
  | .error e => t.refuse "mkdir: cannot create directory" path e

/-- Removes a file; with `below` also a directory and all in it. If `quiet`, it may be missing. -/
def removeOne (below quiet : Bool) (t : Turn) (path : Bytes) : Bool × Turn :=
  let cannot (e : OsError) := t.refuse "rm: cannot remove" path e
  match t.machine.files.locate t.machine.directory ⟨path⟩ with
  | .ok (.taken _ (.tool _)) => cannot .accessDenied
  | .ok (.taken l n) =>
    if n = .directory && !below then cannot .isADirectory
    else
      let files := t.machine.files.remove l
      (true, { t with machine := { t.machine with files } })
  | .ok (.vacant _) => if quiet then (true, t) else cannot .notFound
  | .error e => if quiet && e = .notFound then (true, t) else cannot e

/-- The letters of the options in front of the other words, and those words. -/
def optionLetters : List Bytes → Bytes × List Bytes
  | (0x2D :: b :: letters) :: r => ((b :: letters) ++ (optionLetters r).1, (optionLetters r).2)
  | r => ([], r)

/-! ## All programs -/

/-- What is wrong with the arguments of `sleep`. -/
def sleepFault (arguments : List Bytes) : String :=
  match arguments.find? fun w => (Machine.sleepTime? w).isNone with
  | none => "missing operand"
  | some w =>
    match w.map Char.ofUInt8 with
    | '-' :: c :: _ => "invalid option -- '" ++ String.singleton c ++ "'"
    | cs => "invalid time interval '" ++ String.ofList cs ++ "'"

/-- The work of a program that needs no process of its own. -/
def work (t : Turn) (speaker : Bytes) (name : String) (arguments : List Bytes) : Turn :=
  match name with
  | "true" => t.setStatus 0
  | "false" => t.setStatus 1
  | "echo" => t.printBytes speaker name (echoed arguments)
  | "printf" =>
    match if arguments.head? = some [0x2D, 0x2D] then arguments.tail else arguments with
    | [] => (t.grumble speaker name "usage: printf format [arg ...]").setStatus 2
    | format :: rest =>
      let f := formatted format rest
      let t := f.complaints.foldl (fun t c => t.say (speaker ++ Text.encode "printf: " ++ c)) t
      let t := t.printBytes speaker name f.text
      if f.status = 0 then t else t.setStatus f.status
  | "test" => t.runTest speaker name arguments
  | "[" =>
    if arguments.getLast? = some [0x5D] then t.runTest speaker name arguments.dropLast
    else (t.grumble speaker name "missing ]").setStatus 2
  | "pwd" => t.printBytes speaker name (Path.slash :: Path.join t.machine.directory ++ [0x0A])
  | "cat" =>
    if arguments.isEmpty then
      t.printBytes speaker name (t.machine.contentOf (t.process.streams.get 0))
    else t.forAll catOne arguments
  | "touch" => t.forSome name touchOne arguments
  | "mkdir" =>
    let (letters, paths) := optionLetters arguments
    t.forSome name (makeOne (letters.contains 0x70)) paths
  | "rm" =>
    let (letters, paths) := optionLetters arguments
    let quiet := letters.contains 0x66
    if quiet && paths.isEmpty then t.setStatus 0
    else t.forSome name (removeOne (letters.contains 0x72) quiet) paths
  | "sleep" =>
    ((t.grumble speaker name (sleepFault arguments)).say
      (Text.encode "Try 'sleep --help' for more information.")).setStatus 1
  | _ => t.setStatus 127

end EngineBench.Turn
