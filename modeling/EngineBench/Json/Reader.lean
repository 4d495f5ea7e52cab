import EngineBench.Json

/-!
# Reading JSON

`read?` accepts exactly one value with white space around it. Reading is a recursion on a bound
for the number of values and separators that are still to come; the length of the text is such a
bound, so `read?` shows none.
-/

namespace EngineBench.Json

def isBlank (c : Char) : Bool := c = ' ' || c = '\t' || c = '\n' || c = '\r'

/-- The text without the white space at its start. -/
def skipBlanks (cs : List Char) : List Char := cs.dropWhile isBlank

/-! ## Numbers -/

/-- A fraction, if the text goes on with a point. -/
def readFraction? : List Char → Option (List Char × List Char)
  | '.' :: cs =>
    let (digits, r) := Decimal.spanDigits cs
    if digits.isEmpty then none else some (digits, r)
  | cs => some ([], cs)

def readExponent? : List Char → Option (Option Int × List Char)
  | [] => some (none, [])
  | c :: cs =>
    if c = 'e' ∨ c = 'E' then
      let (negative, r) := Decimal.readSign cs
      let (digits, r) := Decimal.spanDigits r
      if digits.isEmpty then none
      else
        let n : Int := Decimal.ofDigits 0 digits
        some (some (if negative then -n else n), r)
    else some (none, c :: cs)

/-- A numeral behind its sign. No digit follows a zero at the start. -/
def readNumeral? (negative : Bool) (cs : List Char) : Option (Numeral × List Char) := do
  let (whole, r) := Decimal.spanDigits cs
  if whole.isEmpty || (whole.head? = some '0' && whole.length ≠ 1) then none
  let (fraction, r) ← readFraction? r
  let (exponent, r) ← readExponent? r
  return (⟨negative, whole, fraction, exponent⟩, r)

/-! ## Strings -/

/-- A part of a string: a character, or a code unit that was escaped by number. -/
inductive StringPart where
  | char (c : Char)
  | unit (n : Nat)

def hexValue? (c : Char) : Option Nat :=
  if c.isDigit then some (c.toNat - '0'.toNat)
  else if 'a' ≤ c ∧ c ≤ 'f' then some (c.toNat - 'a'.toNat + 10)
  else if 'A' ≤ c ∧ c ≤ 'F' then some (c.toNat - 'A'.toNat + 10)
  else none

/-- The character that a letter behind a backslash stands for. -/
def unescape? (c : Char) : Option Char :=
  if c = '"' ∨ c = '\\' ∨ c = '/' then some c
  else if c = 'b' then some '\x08'
  else if c = 't' then some '\t'
  else if c = 'n' then some '\n'
  else if c = 'f' then some '\x0c'
  else if c = 'r' then some '\r'
  else none

/-- The parts of a string up to its closing quote, and what follows. Control characters have to
be escaped. -/
def readParts? : List Char → Option (List StringPart × List Char)
  | [] => none
  | '"' :: r => some ([], r)
  | '\\' :: 'u' :: a :: b :: c :: d :: r => do
    let n := (← hexValue? a) * 4096 + (← hexValue? b) * 256 + (← hexValue? c) * 16 +
      (← hexValue? d)
    let (parts, r) ← readParts? r
    return (.unit n :: parts, r)
  | '\\' :: c :: r => do
    let c ← unescape? c
    let (parts, r) ← readParts? r
    return (.char c :: parts, r)
  | c :: r =>
    if c.toNat < 0x20 then none
    else do
      let (parts, r) ← readParts? r
      return (.char c :: parts, r)

def isLeading (n : Nat) : Bool := 0xD800 ≤ n && n < 0xDC00

def isTrailing (n : Nat) : Bool := 0xDC00 ≤ n && n < 0xE000

/-- The text of a string; a surrogate without its partner has none. -/
def assemble? : List StringPart → Option (List Char)
  | [] => some []
  | .char c :: r => (assemble? r).map (c :: ·)
  | .unit n :: .unit m :: r =>
    if isLeading n then
      if isTrailing m then
        (assemble? r).map (Char.ofNat (0x10000 + (n - 0xD800) * 0x400 + (m - 0xDC00)) :: ·)
      else none
    else if isTrailing n then none
    else (assemble? (.unit m :: r)).map (Char.ofNat n :: ·)
  | .unit n :: r =>
    if isLeading n || isTrailing n then none else (assemble? r).map (Char.ofNat n :: ·)

def readString? (cs : List Char) : Option (Option String × List Char) := do
  let (parts, r) ← readParts? cs
  return ((assemble? parts).map String.ofList, r)

/-! ## Values -/

mutual

def readValue? : Nat → List Char → Option (Json × List Char)
  | 0, _ => none
  | n + 1, cs =>
    match skipBlanks cs with
    | 'n' :: 'u' :: 'l' :: 'l' :: r => some (.null, r)
    | 't' :: 'r' :: 'u' :: 'e' :: r => some (.bool true, r)
    | 'f' :: 'a' :: 'l' :: 's' :: 'e' :: r => some (.bool false, r)
    | '"' :: r => (readString? r).map fun (s, r) => (.string s, r)
    | '[' :: r =>
      match skipBlanks r with
      | ']' :: r => some (.array [], r)
      | r => (readElements? n r).map fun (js, r) => (.array js, r)
    | '{' :: r =>
      match skipBlanks r with
      | '}' :: r => some (.object [], r)
      | r => (readMembers? n r).map fun (ms, r) => (.object ms, r)
    | '-' :: r => (readNumeral? true r).map fun (n, r) => (.number n, r)
    | r => (readNumeral? false r).map fun (n, r) => (.number n, r)

/-- At least one element, and the closing bracket. -/
def readElements? : Nat → List Char → Option (List Json × List Char)
  | 0, _ => none
  | n + 1, cs => do
    let (j, r) ← readValue? n cs
    match skipBlanks r with
    | ',' :: r =>
      let (js, r) ← readElements? n r
      return (j :: js, r)
    | ']' :: r => return ([j], r)
    | _ => none

/-- At least one member, and the closing brace. -/
def readMembers? : Nat → List Char → Option (List (Option String × Json) × List Char)
  | 0, _ => none
  | n + 1, cs => do
    let '"' :: r := skipBlanks cs | none
    let (name, r) ← readString? r
    let ':' :: r := skipBlanks r | none
    let (j, r) ← readValue? n r
    match skipBlanks r with
    | ',' :: r =>
      let (ms, r) ← readMembers? n r
      return ((name, j) :: ms, r)
    | '}' :: r => return ([(name, j)], r)
    | _ => none

end

def read? (s : String) : Option Json :=
  let cs := s.toList
  match readValue? (cs.length + 1) cs with
  | some (j, r) => if (skipBlanks r).isEmpty then some j else none
  | none => none

end EngineBench.Json
