import EngineBench.Text.Utf8

/-!
# Paths

A path is a byte string; `/` separates its parts. Empty parts mean nothing, and neither does a
`.` except at the start of a relative path. `Path.text` is what a path looks like in messages and
on command lines; for a path that is not UTF-8 it is lossy, and `Path.text?` refuses.
-/

namespace EngineBench

/-- A path as the operating system takes it. -/
structure Path where
  bytes : Bytes
  deriving DecidableEq, Inhabited, Repr

namespace Path

def slash : UInt8 := 0x2F

def here : Bytes := [0x2E]

def up : Bytes := [0x2E, 0x2E]

def ofString (s : String) : Path := ⟨Text.encode s⟩

/-- The path as shown in messages, with U+FFFD for what is not UTF-8. -/
def text (p : Path) : String := Text.lossy p.bytes

def text? (p : Path) : Option String := Text.decode? p.bytes

/-- Cuts a byte string at every `/`; there is always at least one piece. -/
def pieces : Bytes → List Bytes
  | [] => [[]]
  | b :: r =>
    if b = slash then [] :: pieces r
    else
      match pieces r with
      | [] => [[b]]
      | p :: ps => (b :: p) :: ps

def join : List Bytes → Bytes
  | [] => []
  | [p] => p
  | p :: q :: ps => p ++ slash :: join (q :: ps)

def isAbsolute (p : Path) : Bool := p.bytes.head? = some slash

/-- A path that asks for a directory by its last byte. -/
def hasTrailingSlash (p : Path) : Bool := p.bytes.getLast? = some slash

/-- The parts that mean something: a `.` counts only at the start of a relative path. -/
def parts (p : Path) : List Bytes :=
  match pieces p.bytes with
  | [] => []
  | first :: rest =>
    let keep := rest.filter fun q => q ≠ [] ∧ q ≠ here
    if first = [] then keep else first :: keep

/-- The last part, unless it is `.` or `..`. -/
def fileName? (p : Path) : Option Bytes :=
  match p.parts.getLast? with
  | some q => if q = here ∨ q = up then none else some q
  | none => none

/-- The path without its last part; the root and the empty path have no parent. -/
def parent? (p : Path) : Option Path :=
  match p.parts with
  | [] => none
  | q :: qs =>
    let body := join (q :: qs).dropLast
    some ⟨if p.isAbsolute then slash :: body else body⟩

/-- A relative name below a path. One `/` is put between, unless the path is empty or ends in
one. -/
def child (p : Path) (name : Bytes) : Path :=
  if p.bytes.isEmpty || p.hasTrailingSlash then ⟨p.bytes ++ name⟩ else ⟨p.bytes ++ slash :: name⟩

end Path

end EngineBench
