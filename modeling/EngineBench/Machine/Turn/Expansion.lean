import EngineBench.Machine.Turn
import EngineBench.Shell.Output

/-!
# Expansion

A word becomes fields: parameters are replaced by their values, and a value that is not quoted is
split at blanks. The list of arguments is the one parameter with several values.
-/

namespace EngineBench.Turn

open Shell

def digits (n : Nat) : Bytes := Text.encode (toString n)

/-- The value of a parameter that is not a list; `none` if it has none. -/
def parameter? (t : Turn) (name : Bytes) : Option Bytes :=
  match name.map Char.ofUInt8 with
  | ['?'] => some (digits t.shell.status.toNat)
  | ['$'] => some (digits t.shell.self.toNat)
  | ['#'] => some (digits t.shell.arguments.length)
  | ['!'] => t.shell.lastJob.map fun pid => digits pid.toNat
  | ['0'] => some t.shell.name
  | _ =>
    match natural? name with
    | some n => t.shell.arguments[n - 1]?
    | none => t.shell.vars.lookup name

def isList (name : Bytes) : Bool := name = [0x40] || name = [0x2A]

def values (t : Turn) (name : Bytes) : List Bytes :=
  if isList name then t.shell.arguments else [(t.parameter? name).getD []]

/-- The parameter has a value; if `nonEmpty`, one that is not empty. -/
def hasValue (t : Turn) (nonEmpty : Bool) (name : Bytes) : Bool :=
  if isList name then !t.shell.arguments.isEmpty
  else (t.parameter? name).any fun v => !(nonEmpty && v.isEmpty)

def expansion (t : Turn) (name : Bytes) (m : Modifier) : List Bytes :=
  match m with
  | .plain => t.values name
  | .length => [digits (spaced (t.values name)).length]
  | .default nonEmpty word => if t.hasValue nonEmpty name then t.values name else [word]
  | .alternative nonEmpty word => if t.hasValue nonEmpty name then [word] else [[]]

def expandWhole (t : Turn) (w : Word) : Bytes :=
  w.flatMap fun p =>
    match p with
    | .literal bs _ => bs
    | .parameter name m _ => spaced (t.expansion name m)

/-! ## Fields -/

/-- The fields of a word so far: those that are complete, in reverse, and the one that is not. -/
structure Fields where
  done : List Bytes
  current : Option Bytes

namespace Fields

def extend (f : Fields) (bs : Bytes) : Fields :=
  { f with current := some (f.current.getD [] ++ bs) }

def finish (f : Fields) : Fields :=
  match f.current with
  | some c => ⟨c :: f.done, none⟩
  | none => f

/-- Adds a byte of an unquoted value, which may end a field. -/
def addSplit (f : Fields) (b : UInt8) : Fields :=
  if b = 0x20 ∨ b = 0x09 ∨ b = 0x0A then f.finish else f.extend [b]

/-- Adds values, each of which begins a field, except that the first goes on. -/
def addValues (f : Fields) (add : Fields → Bytes → Fields) : List Bytes → Fields
  | [] => f
  | [v] => add f v
  | v :: r => (add f v).finish.addValues add r

end Fields

def expandPiece (t : Turn) (f : Fields) (p : Piece) : Fields :=
  match p with
  | .literal bs _ => f.extend bs
  | .parameter name m true =>
    if name = [0x40] then f.addValues Fields.extend (t.expansion name m)
    else f.extend (spaced (t.expansion name m))
  | .parameter name m false =>
    f.addValues (fun f v => v.foldl Fields.addSplit f) (t.expansion name m)

def expand (t : Turn) (ws : List Word) : List Bytes :=
  ws.flatMap fun w => (w.foldl t.expandPiece ⟨[], none⟩).finish.done.reverse

end EngineBench.Turn
