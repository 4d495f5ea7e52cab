/-!
# Strings and keys of TOML

Readers of parts of a TOML text. Each takes the characters that are left and gives back what it
read and the characters behind it, or `none`. Strings come in four forms: basic ones with escapes
and literal ones without, each on one line or on several. In a string of several lines a line end
directly behind the opening quotes does not count, and line ends are read as line feeds.
-/

namespace EngineBench.Toml

/-! ## Blanks, line ends and comments -/

def isBlank (c : Char) : Bool := c = ' ' || c = '\t'

def skipBlanks (cs : List Char) : List Char := cs.dropWhile isBlank

/-- A character that may stand in comments: no control character but the tab. -/
def isPrintable (c : Char) : Bool := c = '\t' || (0x20 ≤ c.toNat && c.toNat ≠ 0x7F)

def newLine? : List Char → Option (List Char)
  | '\n' :: r => some r
  | '\r' :: '\n' :: r => some r
  | _ => none

/-- What follows the end of a line, with blanks and a comment in front of it. The end of the text
ends a line too. -/
def lineEnd? (cs : List Char) : Option (List Char) :=
  let r :=
    match skipBlanks cs with
    | '#' :: r => r.dropWhile isPrintable
    | r => r
  if r.isEmpty then some [] else newLine? r

/-- The text without blanks, line ends and comments at its start. The bound counts the lines. -/
def skipLines : Nat → List Char → List Char
  | 0, cs => cs
  | n + 1, cs =>
    let r := skipBlanks cs
    match r with
    | '#' :: _ | '\n' :: _ | '\r' :: _ =>
      match lineEnd? r with
      | some r => skipLines n r
      | none => r
    | _ => r

/-! ## Strings -/

/-- A character that may stand unescaped in a basic string. -/
def isBasic (c : Char) : Bool := isPrintable c && c ≠ '"' && c ≠ '\\'

/-- A character that may stand in a literal string. -/
def isLiteral (c : Char) : Bool := isPrintable c && c ≠ '\''

def hexValue? (c : Char) : Option Nat :=
  if c.isDigit then some (c.toNat - '0'.toNat)
  else if 'a' ≤ c ∧ c ≤ 'f' then some (c.toNat - 'a'.toNat + 10)
  else if 'A' ≤ c ∧ c ≤ 'F' then some (c.toNat - 'A'.toNat + 10)
  else none

/-- The character with a hexadecimal number; surrogates are no characters. -/
def hexChar? (digits : List Char) : Option Char := do
  let n := (← digits.mapM hexValue?).foldl (fun n d => 16 * n + d) 0
  if n.isValidChar then some (Char.ofNat n) else none

/-- The character that a letter behind a backslash stands for. -/
def unescape? (c : Char) : Option Char :=
  if c = '"' ∨ c = '\\' then some c
  else if c = 'b' then some '\x08'
  else if c = 't' then some '\t'
  else if c = 'n' then some '\n'
  else if c = 'f' then some '\x0c'
  else if c = 'r' then some '\r'
  else none

/-- Puts a character in front of what was read. -/
def prepend (c : Option Char) (x : Option (List Char × List Char)) :
    Option (List Char × List Char) := do
  let c ← c
  let (s, r) ← x
  return (c :: s, r)

/-- A basic string of one line behind its opening quote. -/
def readBasic? : List Char → Option (List Char × List Char)
  | '"' :: r => some ([], r)
  | '\\' :: 'u' :: a :: b :: c :: d :: r => prepend (hexChar? [a, b, c, d]) (readBasic? r)
  | '\\' :: 'U' :: a :: b :: c :: d :: e :: f :: g :: h :: r =>
    prepend (hexChar? [a, b, c, d, e, f, g, h]) (readBasic? r)
  | '\\' :: c :: r => prepend (unescape? c) (readBasic? r)
  | c :: r => if isBasic c then prepend (some c) (readBasic? r) else none
  | [] => none

/-- A literal string of one line behind its opening quote. -/
def readLiteral? : List Char → Option (List Char × List Char)
  | '\'' :: r => some ([], r)
  | c :: r => if isLiteral c then prepend (some c) (readLiteral? r) else none
  | [] => none

/-- A backslash at the end of a line, seen from behind the backslash. -/
def endsLine (cs : List Char) : Bool := (newLine? (skipBlanks cs)).isSome

/-- A basic string of several lines behind its opening quotes. While `skipping`, blanks and line
ends are passed over: they follow a backslash at the end of a line. Up to two quotes may stand in
front of the closing ones. -/
def readBasicLines? (skipping : Bool) : List Char → Option (List Char × List Char)
  | '"' :: '"' :: '"' :: '"' :: '"' :: r => some (['"', '"'], r)
  | '"' :: '"' :: '"' :: '"' :: r => some (['"'], r)
  | '"' :: '"' :: '"' :: r => some ([], r)
  | '\r' :: '\n' :: r =>
    if skipping then readBasicLines? true r else prepend (some '\n') (readBasicLines? false r)
  | '\n' :: r =>
    if skipping then readBasicLines? true r else prepend (some '\n') (readBasicLines? false r)
  | '\\' :: r =>
    if endsLine r then readBasicLines? true r
    else
      match r with
      | 'u' :: a :: b :: c :: d :: r => prepend (hexChar? [a, b, c, d]) (readBasicLines? false r)
      | 'U' :: a :: b :: c :: d :: e :: f :: g :: h :: r =>
        prepend (hexChar? [a, b, c, d, e, f, g, h]) (readBasicLines? false r)
      | c :: r => prepend (unescape? c) (readBasicLines? false r)
      | [] => none
  | c :: r =>
    if skipping && isBlank c then readBasicLines? true r
    else if isBasic c || c = '"' then prepend (some c) (readBasicLines? false r)
    else none
  | [] => none

/-- A literal string of several lines behind its opening quotes. -/
def readLiteralLines? : List Char → Option (List Char × List Char)
  | '\'' :: '\'' :: '\'' :: '\'' :: '\'' :: r => some (['\'', '\''], r)
  | '\'' :: '\'' :: '\'' :: '\'' :: r => some (['\''], r)
  | '\'' :: '\'' :: '\'' :: r => some ([], r)
  | '\r' :: '\n' :: r => prepend (some '\n') (readLiteralLines? r)
  | c :: r =>
    if isLiteral c || c = '\'' || c = '\n' then prepend (some c) (readLiteralLines? r) else none
  | [] => none

def dropNewLine (cs : List Char) : List Char := (newLine? cs).getD cs

def readString? (cs : List Char) : Option (String × List Char) :=
  let chars :=
    match cs with
    | '"' :: '"' :: '"' :: r => readBasicLines? false (dropNewLine r)
    | '\'' :: '\'' :: '\'' :: r => readLiteralLines? (dropNewLine r)
    | '"' :: r => readBasic? r
    | '\'' :: r => readLiteral? r
    | _ => none
  chars.map fun (s, r) => (String.ofList s, r)

/-! ## Keys -/

def isBare (c : Char) : Bool := c.isAlphanum || c = '_' || c = '-'

/-- One part of a key: bare, or a string of one line. -/
def readPart? (cs : List Char) : Option (String × List Char) :=
  match cs with
  | '"' :: r => (readBasic? r).map fun (s, r) => (String.ofList s, r)
  | '\'' :: r => (readLiteral? r).map fun (s, r) => (String.ofList s, r)
  | _ =>
    let (s, r) := cs.span isBare
    if s.isEmpty then none else some (String.ofList s, r)

/-- The parts of a key, joined by points, with blanks around them. The bound counts the parts. -/
def readParts? : Nat → List Char → Option (List String × List Char)
  | 0, _ => none
  | n + 1, cs => do
    let (s, r) ← readPart? (skipBlanks cs)
    match skipBlanks r with
    | '.' :: r =>
      let (ss, r) ← readParts? n r
      return (s :: ss, r)
    | r => return ([s], r)

/-- Keys have fewer parts, and values are nested less deep. -/
def depthBound : Nat := 80

def readKey? : List Char → Option (List String × List Char) := readParts? (depthBound - 1)

end EngineBench.Toml
