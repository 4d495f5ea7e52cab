import EngineBench.Shell.Number

/-!
# Tests

What `test` and `[` find out about their arguments. The number of arguments decides how they are
read, so a word that looks like an operator can be tested too.
-/

namespace EngineBench.Shell

/-- What can be asked about the file at a path. -/
structure FileView where
  isThere : Bytes → Bool
  isFile : Bytes → Bool
  isDirectory : Bytes → Bool
  isTool : Bytes → Bool
  hasContent : Bytes → Bool

/-- Why arguments are no test. -/
inductive TestError where
  | illegalNumber (w : Bytes)
  /-- Something follows an operand that is no operator. -/
  | unexpected (operand : Bytes)

namespace TestError

def text : TestError → Bytes
  | illegalNumber w => Text.encode "Illegal number: " ++ w
  | unexpected operand => operand ++ Text.encode ": unexpected operator"

end TestError

/-- A test of one operand; `none` if there is no such test. -/
def testOne? (v : FileView) (operator operand : Bytes) : Option Bool :=
  match Text.decode? operator with
  | some "-n" => some !operand.isEmpty
  | some "-z" => some operand.isEmpty
  | some "-e" => some (v.isThere operand)
  | some "-f" => some (v.isFile operand)
  | some "-d" => some (v.isDirectory operand)
  | some "-r" => some (v.isThere operand)
  | some "-w" => some (v.isThere operand)
  | some "-x" => some (v.isTool operand || v.isDirectory operand)
  | some "-s" => some (v.hasContent operand)
  | some "-t" => some false
  | _ => none

def operand (w : Bytes) : Except TestError Int :=
  match integer? w with
  | some i => .ok i
  | none => .error (.illegalNumber w)

def compare (f : Int → Int → Bool) (a b : Bytes) : Except TestError Bool := do
  return f (← operand a) (← operand b)

/-- A test of two operands; `none` if there is no such test. -/
def testTwo? (a operator b : Bytes) : Option (Except TestError Bool) :=
  match Text.decode? operator with
  | some "=" => some (.ok (a = b))
  | some "!=" => some (.ok (a ≠ b))
  | some "-eq" => some (compare (· = ·) a b)
  | some "-ne" => some (compare (· ≠ ·) a b)
  | some "-lt" => some (compare (· < ·) a b)
  | some "-le" => some (compare (· ≤ ·) a b)
  | some "-gt" => some (compare (· > ·) a b)
  | some "-ge" => some (compare (· ≥ ·) a b)
  | some "-a" => some (.ok (!a.isEmpty && !b.isEmpty))
  | some "-o" => some (.ok (!a.isEmpty || !b.isEmpty))
  | _ => none

/-- The word `!`. -/
def bang : Bytes := [0x21]

def test (v : FileView) : List Bytes → Except TestError Bool
  | [] => .ok false
  | [a] => .ok !a.isEmpty
  | [a, b] =>
    if a = bang then .ok b.isEmpty
    else
      match testOne? v a b with
      | some r => .ok r
      | none => .error (.unexpected a)
  | [a, b, c] =>
    match testTwo? a b c with
    | some r => r
    | none =>
      if a = bang then
        match testOne? v b c with
        | some r => .ok !r
        | none => .error (.unexpected b)
      else .error (.unexpected a)
  | a :: b :: c :: d :: r =>
    if a = bang then
      if r.isEmpty then
        match testTwo? b c d with
        | some r => r.map (!·)
        | none => .error (.unexpected b)
      else .error (.unexpected b)
    else .error (.unexpected a)

end EngineBench.Shell
