import EngineBench.Options

/-!
# Tokens of the command line

Every argument is read as a list of `Item`s: a long option is one item, a cluster of short options
is one item for each of its letters. What a word means depends on what stands before it, so that is
left to `Invocation`.
-/

namespace EngineBench.Options

/-- What an argument says. -/
inductive Item where
  /-- An option with a value, and the value if it is attached by `=`. -/
  | option (o : ValueOption) (attached : Option Bytes)
  | switch (s : Switch)
  | notice (n : Notice)
  /-- A value attached to an option that takes none. -/
  | excess (flag : String) (value : Bytes)
  /-- The mark after which every argument is a word. -/
  | separator
  /-- A word: a value, or a stray token. -/
  | word (bytes : Bytes)
  /-- Something that looks like an option and is none. -/
  | unknown (token : String)
  deriving DecidableEq

def dash : UInt8 := 0x2D

def equals : UInt8 := 0x3D

/-- What the name of a long option, without its dashes, stands for. -/
def ofName (name : Bytes) (attached : Option Bytes) : Item :=
  let flag := dash :: dash :: name
  match ValueOption.all.find? fun o => Text.encode o.flag = flag with
  | some o => .option o attached
  | none =>
    match Switch.all.find? fun s => Text.encode s.flag = flag, attached with
    | some s, none => .switch s
    | some s, some v => .excess s.flag v
    | none, _ =>
      match Notice.all.find? fun n => Text.encode n.flag = flag, attached with
      | some n, none => .notice n
      | some n, some v => .excess n.flag v
      | none, _ => .unknown (Text.lossy flag)

/-- A long option, without its dashes: a name, and after the first `=` a value. -/
def ofLong (body : Bytes) : Item :=
  let name := body.takeWhile (· ≠ equals)
  match body.dropWhile (· ≠ equals) with
  | [] => ofName name none
  | _ :: value => ofName name (some value)

def ofShort : Char → Item
  | 'v' => .switch .verbose
  | 'h' => .notice .help
  | 'V' => .notice .version
  | c => .unknown (String.ofList ['-', c])

/-- The letters of a cluster. What follows a letter that is not UTF-8 is shown as a whole. -/
def ofCluster (body : Bytes) : List Item :=
  match Text.decode? body with
  | some s => s.toList.map ofShort
  | none =>
    let letters := (Text.scan body).takeWhile Option.isSome
    let read := letters.filterMap id
    let rest := body.drop (Text.encode (String.ofList read)).length
    read.map ofShort ++ [.unknown ("-" ++ Text.lossy rest)]

def items : Bytes → List Item
  | 0x2D :: 0x2D :: [] => [.separator]
  | 0x2D :: 0x2D :: body => [ofLong body]
  | 0x2D :: b :: r => ofCluster (b :: r)
  | bs => [.word bs]

end EngineBench.Options
