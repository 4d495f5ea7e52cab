import EngineBench.Toml.Scalar
import EngineBench.Toml.Table

/-!
# Reading TOML documents

`read?` reads a document line by line. Values of several parts are read by a recursion on how deep
they may still be nested and on a bound for the number of their parts.
-/

namespace EngineBench.Toml

/-- Splits a key into the parts on the way and the name at its end. -/
def splitKey (key : List String) : List String × String := (key.dropLast, key.getLastD "")

/-! ## Values -/

/-- What follows the closing bracket of an array or table, if it comes next. -/
def close? (closing : Char) : List Char → Option (List Char)
  | c :: r => if c = closing then some r else none
  | [] => none

mutual

/-- A value that is nested at most `depth` deep. The other bound counts the parts of values. -/
def readValue? : Nat → Nat → List Char → Option (Toml × List Char)
  | 0, _, _ => none
  | _ + 1, _, '"' :: r => (readString? ('"' :: r)).map fun (s, r) => (.text s, r)
  | _ + 1, _, '\'' :: r => (readString? ('\'' :: r)).map fun (s, r) => (.text s, r)
  | n + 1, depth + 1, '[' :: r => (readElements? n depth r).map fun (vs, r) => (.array vs, r)
  | n + 1, depth + 1, '{' :: r =>
    match close? '}' (skipBlanks r) with
    | some r => some (.table [], r)
    | none => (readMembers? n depth [] r).map fun (ms, r) => (.table (membersToToml ms), r)
  | _ + 1, 0, '[' :: _ => none
  | _ + 1, 0, '{' :: _ => none
  | _ + 1, _, cs => readScalar? cs

/-- The elements of an array, with line ends and comments between them, and the closing bracket.
A comma may stand behind the last one. -/
def readElements? : Nat → Nat → List Char → Option (List Toml × List Char)
  | 0, _, _ => none
  | n + 1, depth, cs =>
    let r := skipLines cs.length cs
    match close? ']' r with
    | some r => some ([], r)
    | none => do
      let (v, r) ← readValue? n depth r
      let r := skipLines r.length r
      match r with
      | ',' :: r =>
        let (vs, r) ← readElements? n depth r
        return (v :: vs, r)
      | ']' :: r => return ([v], r)
      | _ => none

/-- At least one member of an inline table, all on one line, and the closing brace. -/
def readMembers? : Nat → Nat → Members → List Char → Option (Members × List Char)
  | 0, _, _, _ => none
  | n + 1, depth, ms, cs => do
    let (key, r) ← readKey? cs
    let (v, r) ← readValue? n depth (skipBlanks (← expect? '=' r))
    let (path, name) := splitKey key
    let ms ← ms.addKey? path name v .header
    match skipBlanks r with
    | ',' :: r => readMembers? n depth ms r
    | '}' :: r => return (ms, r)
    | _ => none

end

/-! ## Documents -/

/-- A document in the making: its tables, and the way to the table that keys go to. -/
structure Document where
  members : Members
  current : List String

namespace Document

def readAssignment? (d : Document) (cs : List Char) : Option (Document × List Char) := do
  let (key, r) ← readKey? cs
  let r := skipBlanks (← expect? '=' r)
  let (v, r) ← readValue? (r.length + 1) (depthBound - 1) r
  let (path, name) := splitKey key
  let members ← Members.update? .passed (fun self ms => Members.addKey? path name v self ms)
    d.current .header d.members
  return ({ d with members }, ← lineEnd? r)

/-- The header of a table, or of the next element of an array of tables. -/
def readHeader? (d : Document) (cs : List Char) : Option (Document × List Char) := do
  let (element, r) :=
    match cs with
    | '[' :: r => (true, r)
    | r => (false, r)
  let (key, r) ← readKey? r
  let r ← expect? ']' r
  let r ← if element then expect? ']' r else some r
  let (path, name) := splitKey key
  let open? := if element then Members.openElement? name else Members.openTable? name
  let members ← Members.update? .passed (fun _ ms => open? ms) path .header d.members
  return (⟨members, key⟩, ← lineEnd? r)

/-- The lines of a document. The bound counts the lines. -/
def readLines? : Nat → Document → List Char → Option Document
  | 0, _, _ => none
  | n + 1, d, cs =>
    let cs := skipLines cs.length cs
    match cs with
    | [] => some d
    | '[' :: r => do
      let (d, r) ← d.readHeader? r
      readLines? n d r
    | cs => do
      let (d, r) ← d.readAssignment? cs
      readLines? n d r

end Document

/-- The table that a document spells. A byte order mark may come first. -/
def read? (s : String) : Option Toml :=
  let cs :=
    match s.toList with
    | '\uFEFF' :: r => r
    | r => r
  (Document.readLines? (cs.length + 1) ⟨[], []⟩ cs).map fun d => .table (membersToToml d.members)

end EngineBench.Toml
