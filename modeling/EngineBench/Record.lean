import EngineBench.Overlay

/-!
# Records in structured texts

Settings and reports are records: their fields have names and an order. A structured text gives a
record as a table, in which a field is found by its name, or as an array, in which it is found by
its place. `Slot` is what is found for one field, and `required`, `defaulted` and `optional` say
what a field makes of it. `DataFormat` is what a reader of records has to know about a format.
-/

namespace EngineBench

/-- What a value of a structured text holds for a field. -/
inductive Slot (V : Type) where
  | given (v : V)
  | absent
  /-- The array ends before the field. -/
  | cut

namespace Slot

variable {V α : Type}

def required (read? : V → Option α) : Slot V → Option α
  | .given v => read? v
  | _ => none

def defaulted (read? : V → Option α) (default : α) : Slot V → Option α
  | .given v => read? v
  | _ => some default

/-- A field that need not be there in a table. The reader knows which values stand for none. -/
def optional (read? : V → Option (Option α)) : Slot V → Option (Option α)
  | .given v => read? v
  | .absent => some none
  | .cut => none

/-- The slots of as many fields as an array may have elements. -/
def ofElements : List String → List V → List (Slot V)
  | [], _ => []
  | _ :: names, [] => .cut :: ofElements names []
  | _ :: names, v :: vs => .given v :: ofElements names vs

end Slot

/-- How the values of a format are taken apart. -/
structure DataFormat (V : Type) where
  /-- The slots of a record whose fields have the given names, in their order. -/
  slots? : List String → V → Option (List (Slot V))
  /-- The value stands for the absence of one. -/
  isNull : V → Bool
  text? : V → Option String
  bool? : V → Option Bool
  list? : V → Option (List V)
  vars? : V → Option Overlay

namespace DataFormat

variable {V : Type} (f : DataFormat V)

def path? (v : V) : Option Path := (f.text? v).map Path.ofString

def texts? (v : V) : Option (List String) := (f.list? v).bind fun vs => vs.mapM f.text?

/-- A value, unless it stands for none. -/
def nullable? {α : Type} (read? : V → Option α) (v : V) : Option (Option α) :=
  if f.isNull v then some none else (read? v).map some

end DataFormat

end EngineBench
