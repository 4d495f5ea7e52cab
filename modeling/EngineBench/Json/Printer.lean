import EngineBench.Json

/-!
# Writing JSON

Two layouts: `compact` without any white space, and `pretty` with one element or member on a line
and two spaces for every level. In strings only quotes, backslashes and control characters are
escaped. An exponent is always written with its sign.
-/

namespace EngineBench.Json

/-- The lower-case hexadecimal digit of a number below sixteen. -/
def hexDigit (n : Nat) : Char :=
  if n < 10 then Char.ofNat (n + '0'.toNat) else Char.ofNat (n - 10 + 'a'.toNat)

def escape (c : Char) : List Char :=
  if c = '"' then ['\\', '"']
  else if c = '\\' then ['\\', '\\']
  else if c = '\x08' then ['\\', 'b']
  else if c = '\t' then ['\\', 't']
  else if c = '\n' then ['\\', 'n']
  else if c = '\x0c' then ['\\', 'f']
  else if c = '\r' then ['\\', 'r']
  else if c.toNat < 0x20 then
    ['\\', 'u', '0', '0', hexDigit (c.toNat / 16), hexDigit (c.toNat % 16)]
  else [c]

def quoted (s : String) : List Char := '"' :: s.toList.flatMap escape ++ ['"']

/-- A string; one without text is written as a single surrogate. -/
def stringChars : Option String → List Char
  | some s => quoted s
  | none => '"' :: "\\ud800".toList ++ ['"']

def numeralChars (n : Numeral) : List Char :=
  let sign := if n.negative then ['-'] else []
  let fraction := if n.fraction.isEmpty then [] else '.' :: n.fraction
  let exponent :=
    match n.exponent with
    | none => []
    | some e => 'e' :: (if e < 0 then '-' else '+') :: Decimal.digitsOf e.natAbs
  sign ++ n.whole ++ fraction ++ exponent

mutual

def compactChars : Json → List Char
  | .null => "null".toList
  | .bool true => "true".toList
  | .bool false => "false".toList
  | .number n => numeralChars n
  | .string s => stringChars s
  | .array elements => '[' :: compactElements true elements ++ [']']
  | .object members => '{' :: compactMembers true members ++ ['}']

/-- The elements of an array, each but the first behind a comma. -/
def compactElements : Bool → List Json → List Char
  | _, [] => []
  | first, j :: r => (if first then [] else [',']) ++ compactChars j ++ compactElements false r

/-- The members of an object, each but the first behind a comma. -/
def compactMembers : Bool → List (Option String × Json) → List Char
  | _, [] => []
  | first, (name, j) :: r =>
    (if first then [] else [',']) ++ stringChars name ++ ':' :: compactChars j ++
      compactMembers false r

end

def newLine (level : Nat) : List Char := '\n' :: List.replicate (2 * level) ' '

mutual

/-- A value at a level, one element or member on a line. -/
def prettyChars (level : Nat) : Json → List Char
  | .null => "null".toList
  | .bool true => "true".toList
  | .bool false => "false".toList
  | .number n => numeralChars n
  | .string s => stringChars s
  | .array [] => ['[', ']']
  | .array (j :: r) =>
    '[' :: prettyElements (level + 1) true (j :: r) ++ newLine level ++ [']']
  | .object [] => ['{', '}']
  | .object (m :: r) =>
    '{' :: prettyMembers (level + 1) true (m :: r) ++ newLine level ++ ['}']

def prettyElements (level : Nat) : Bool → List Json → List Char
  | _, [] => []
  | first, j :: r =>
    (if first then [] else [',']) ++ newLine level ++ prettyChars level j ++
      prettyElements level false r

def prettyMembers (level : Nat) : Bool → List (Option String × Json) → List Char
  | _, [] => []
  | first, (name, j) :: r =>
    (if first then [] else [',']) ++ newLine level ++ stringChars name ++ ':' :: ' ' ::
      prettyChars level j ++ prettyMembers level false r

end

def compact (j : Json) : String := String.ofList j.compactChars

/-- The text of a value with one element or member on a line. -/
def pretty (j : Json) : String := String.ofList (j.prettyChars 0)

end EngineBench.Json
