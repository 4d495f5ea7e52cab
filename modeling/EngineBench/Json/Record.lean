import EngineBench.Json.Number
import EngineBench.Record

/-!
# Records in JSON

A record is written as an object. It is read from an object in any order, where unknown members
are ignored and a known one may occur only once, or from an array with no more elements than the
record has fields. `Json.format` collects these rules.
-/

namespace EngineBench.Json

/-- The values that the members of an object hold for a name. -/
def valuesOf (name : String) (members : List (Option String × Json)) : List Json :=
  members.filterMap fun m => if m.1 = some name then some m.2 else none

/-- The slot of one name in an object; `none` if the name is repeated. -/
def memberSlot? (members : List (Option String × Json)) (name : String) : Option (Slot Json) :=
  match valuesOf name members with
  | [] => some .absent
  | [j] => some (.given j)
  | _ => none

/-- The slots of a record whose fields have the given names, in their order. -/
def slots? (names : List String) : Json → Option (List (Slot Json))
  | .object members =>
    if members.all (·.1.isSome) then names.mapM (memberSlot? members) else none
  | .array elements =>
    if elements.length ≤ names.length then some (Slot.ofElements names elements) else none
  | _ => none

/-! ## Values of fields -/

def isNull : Json → Bool
  | .null => true
  | _ => false

def text? : Json → Option String
  | .string s => s
  | _ => none

def bool? : Json → Option Bool
  | .bool b => some b
  | _ => none

def nat? (bound : Nat) : Json → Option Nat
  | .number n => n.nat? bound
  | _ => none

def word16? (j : Json) : Option UInt16 := (j.nat? 65535).map UInt16.ofNat

def word32? (j : Json) : Option UInt32 := (j.nat? 4294967295).map UInt32.ofNat

def int32? : Json → Option Int32
  | .number n => (n.int? (UInt32.size / 2)).map Int32.ofInt
  | _ => none

def float? : Json → Option Binary64
  | .number n => n.float?
  | _ => none

def list? : Json → Option (List Json)
  | .array elements => some elements
  | _ => none

def namedText? (m : Option String × Json) : Option (String × String) := do
  return (← m.1, ← m.2.text?)

/-- Texts by name; of two with one name the later counts. -/
def vars? : Json → Option Overlay
  | .object members => (members.mapM namedText?).map Overlay.ofList
  | _ => none

/-- One of finitely many values, by its name alone or as an object with that one member, which
is `null`. -/
def named? {α : Type} (all : List α) (name : α → String) : Json → Option α
  | .string (some s) => all.find? fun a => name a = s
  | .object [(some s, .null)] => all.find? fun a => name a = s
  | _ => none

def format : DataFormat Json := ⟨slots?, isNull, text?, bool?, list?, vars?⟩

/-! ## Fields as values -/

def vars (e : Overlay) : Json := .record (e.vars.map fun v => (v.1, .text v.2))

def list {α : Type} (f : α → Json) (xs : List α) : Json := .array (xs.map f)

/-- A path as text; `none` if it is not UTF-8. -/
def ofPath? (p : Path) : Option Json := p.text?.map Json.text

def ofPathOption? : Option Path → Option Json
  | some p => ofPath? p
  | none => some .null

end EngineBench.Json
