import EngineBench.Record
import EngineBench.Toml

/-!
# Records in TOML

A record is a table, or an array of its fields in order, where further elements are ignored. A date
or time is accepted as a table with one member of a name that no record has.
-/

namespace EngineBench.Toml

/-- The name of the one member of a date or time that is taken for a table. -/
def momentName : String := "$__toml_private_datetime"

/-- The members of what can be taken for a table. -/
def members? : Toml → Option (List (String × Toml))
  | .table members => some members
  | .moment s => some [(momentName, .text s)]
  | _ => none

def memberSlot (members : List (String × Toml)) (name : String) : Slot Toml :=
  match members.lookup name with
  | some v => .given v
  | none => .absent

/-- The slots of a record whose fields have the given names, in their order. -/
def slots? (names : List String) : Toml → Option (List (Slot Toml))
  | .array elements => some (Slot.ofElements names elements)
  | v => v.members?.map fun members => names.map (memberSlot members)

def text? : Toml → Option String
  | .text s => some s
  | _ => none

def bool? : Toml → Option Bool
  | .bool b => some b
  | _ => none

def list? : Toml → Option (List Toml)
  | .array elements => some elements
  | _ => none

def namedText? (m : String × Toml) : Option (String × String) := m.2.text?.map (m.1, ·)

def vars? (v : Toml) : Option Overlay :=
  v.members?.bind fun members => (members.mapM namedText?).map Overlay.ofList

/-- The rules of TOML for records. No value stands for the absence of one. -/
def format : DataFormat Toml := ⟨slots?, fun _ => false, text?, bool?, list?, vars?⟩

end EngineBench.Toml
