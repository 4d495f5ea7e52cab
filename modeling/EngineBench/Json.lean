import EngineBench.Decimal.Literal

/-!
# JSON values

A value as its text spells it: numbers are kept as numerals, since what a numeral means depends on
the kind of number that is wanted, and the members of an object keep their order and their
repetitions. A string that holds an escaped surrogate without its partner has no text; it may
stand where nobody looks at it, so it is a value too, written `none`.
-/

namespace EngineBench

/-- A numeral as it is spelled. -/
structure Numeral where
  negative : Bool
  whole : List Char
  /-- The digits behind the point; none if there is no point. -/
  fraction : List Char
  exponent : Option Int
  deriving DecidableEq, Inhabited

inductive Json where
  | null
  | bool (b : Bool)
  | number (n : Numeral)
  | string (text : Option String)
  | array (elements : List Json)
  | object (members : List (Option String × Json))
  deriving Inhabited

namespace Numeral

def ofNat (n : Nat) : Numeral := ⟨false, Decimal.digitsOf n, [], none⟩

def ofInt (i : Int) : Numeral := ⟨i < 0, Decimal.digitsOf i.natAbs, [], none⟩

/-- A numeral without a point and without an exponent. -/
def isInteger (n : Numeral) : Bool := n.fraction.isEmpty && n.exponent.isNone

end Numeral

namespace Json

def text (s : String) : Json := .string (some s)

def nat (n : Nat) : Json := .number (.ofNat n)

def int (i : Int) : Json := .number (.ofInt i)

def record (members : List (String × Json)) : Json :=
  .object (members.map fun m => (some m.1, m.2))

/-- A value that may be absent, written as `null` then. -/
def option {α : Type} (f : α → Json) : Option α → Json
  | some a => f a
  | none => .null

/-- Inserts a member into members in increasing order of their names. -/
def insertMember (m : Option String × Json) :
    List (Option String × Json) → List (Option String × Json)
  | [] => [m]
  | n :: r =>
    if m.1.getD "" < n.1.getD "" then m :: n :: r else n :: insertMember m r

mutual

/-- The value with the members of every object in increasing order of their names. -/
def sorted : Json → Json
  | .array elements => .array (sortedElements elements)
  | .object members => .object (sortedMembers members)
  | j => j

def sortedElements : List Json → List Json
  | [] => []
  | j :: r => sorted j :: sortedElements r

/-- Sorts the members of an object, and within them. -/
def sortedMembers : List (Option String × Json) → List (Option String × Json)
  | [] => []
  | (name, j) :: r => insertMember (name, sorted j) (sortedMembers r)

end

end Json

end EngineBench
