import EngineBench.Shell.Number
import EngineBench.Shell.Script

/-!
# Shell tokens

A script is cut into words and operators by a machine that takes one byte at a time. Its `Mode` says
inside of what it is; an operator of one character is held back until the next character shows that
it is not one of two.
-/

namespace EngineBench.Shell

/-- The operators between commands. -/
inductive Operator where
  | semicolon
  | ampersand
  | andIf
  | orIf
  | leftParenthesis
  | rightParenthesis
  deriving DecidableEq, Repr

/-- The operators of redirections. -/
inductive RedirectOperator where
  | input
  | output
  | append
  | duplicate
  deriving DecidableEq, Repr

namespace RedirectOperator

/-- The redirection of an operator and the word behind it. -/
def apply : RedirectOperator → Word → Redirect
  | input, w => .input w
  | output, w => .output w
  | append, w => .append w
  | duplicate, w => .duplicate w

end RedirectOperator

inductive Token where
  /-- A word, with the number of its line. -/
  | word (w : Word) (line : Nat)
  | newline
  | operator (o : Operator)
  /-- A redirection of the stream with a number, without its word. -/
  | redirect (stream : Nat) (o : RedirectOperator)
  deriving DecidableEq, Repr

/-- What the reader is inside of. -/
inductive Mode where
  | plain
  | singleQuotes
  | doubleQuotes
  | escape (quoted : Bool)
  | dollar (quoted : Bool)
  /-- In the name of a parameter; the name is kept in reverse. -/
  | name (quoted : Bool) (reversed : Bytes)
  /-- In braces behind a dollar sign; what is in them is kept in reverse. -/
  | braces (quoted : Bool) (reversed : Bytes)
  | comment
  /-- Behind the first character of an operator, in front of which stood a number. -/
  | operator (first : Char) (stream : Option Nat)

/-- The state of the reader; words, pieces and tokens are kept in reverse. -/
structure Lexer where
  mode : Mode
  /-- A word has begun, maybe with nothing in it yet. -/
  inWord : Bool
  pieces : List Piece
  tokens : List Token
  line : Nat
  /-- Something has no meaning here. -/
  failed : Bool

namespace Lexer

def start : Lexer := ⟨.plain, false, [], [], 1, false⟩

def around (quoted : Bool) : Mode := if quoted then .doubleQuotes else .plain

def push (x : Lexer) (t : Token) : Lexer := { x with tokens := t :: x.tokens }

def addByte (x : Lexer) (b : UInt8) (quoted : Bool) : Lexer :=
  let pieces :=
    match x.pieces with
    | .literal bs q :: r => if q = quoted then .literal (bs ++ [b]) q :: r
      else .literal [b] quoted :: x.pieces
    | _ => .literal [b] quoted :: x.pieces
  { x with pieces, inWord := true }

def addParameter (x : Lexer) (name : Bytes) (modifier : Modifier) (quoted : Bool) : Lexer :=
  { x with
    pieces := .parameter name modifier quoted :: x.pieces
    inWord := true
    mode := around quoted }

/-- Opens quotes: the word is there even if nothing is in them. -/
def openQuotes (x : Lexer) (m : Mode) : Lexer :=
  { x with mode := m, inWord := true, pieces := .literal [] true :: x.pieces }

def endWord (x : Lexer) : Lexer :=
  if x.inWord then
    { x with inWord := false, pieces := [], tokens := .word x.pieces.reverse x.line :: x.tokens }
  else x

/-- Whether a byte can stand in the name of a variable. -/
def isNameByte (b : UInt8) : Bool :=
  let c := Char.ofUInt8 b
  c.isAlphanum || c = '_'

/-- Whether a name of one character is a parameter. -/
def isSpecial (c : Char) : Bool := c.isDigit || c ∈ ['@', '*', '#', '?', '$', '!']

def isParameter (name : Bytes) : Bool :=
  match name with
  | [] => false
  | [b] => isNameByte b || isSpecial (Char.ofUInt8 b)
  | b :: _ =>
    name.all isNameByte && (!isDigit b || name.all isDigit)

/-- The modifier that is written behind the name of a parameter in braces. -/
def modifier? : Bytes → Option Modifier
  | [] => some .plain
  | 0x2D :: word => some (.default false word)
  | 0x2B :: word => some (.alternative false word)
  | 0x3A :: 0x2D :: word => some (.default true word)
  | 0x3A :: 0x2B :: word => some (.alternative true word)
  | _ => none

/-- The name and the modifier that are written in braces. -/
def expansion? : Bytes → Option (Bytes × Modifier)
  | [] => none
  | b :: r =>
    if b = 0x23 ∧ isParameter r then some (r, .length)
    else if isSpecial (Char.ofUInt8 b) && !isDigit b then
      (modifier? r).map ([b], ·)
    else
      let name := (b :: r).takeWhile isNameByte
      if isParameter name then (modifier? ((b :: r).drop name.length)).map (name, ·) else none

/-- Bytes that have no meaning in braces. -/
def isOutsideBraces (c : Char) : Bool := c ∈ ['$', '`', '"', '\'', '\\', '\n', '\x7b']

/-- The number in front of a redirection, if the word so far is one. -/
def streamNumber? (x : Lexer) : Option Nat :=
  match x.pieces with
  | [.literal bs false] =>
    if bs.all isDigit then some (numberOf bs) else none
  | _ => none

def beginOperator (x : Lexer) (c : Char) : Lexer :=
  if c = '<' ∨ c = '>' then
    match x.streamNumber? with
    | some n => { x with inWord := false, pieces := [], mode := .operator c (some n) }
    | none => { x.endWord with mode := .operator c none }
  else { x.endWord with mode := .operator c none }

def plain (x : Lexer) (b : UInt8) : Lexer :=
  let x := { x with mode := .plain }
  match Char.ofUInt8 b with
  | ' ' | '\t' => x.endWord
  | '\n' => { x.endWord.push .newline with line := x.line + 1 }
  | '\'' => x.openQuotes .singleQuotes
  | '"' => x.openQuotes .doubleQuotes
  | '\\' => { x with mode := .escape false }
  | '$' => { x with mode := .dollar false }
  | '#' => if x.inWord then x.addByte b false else { x with mode := .comment }
  | '(' => x.endWord.push (.operator .leftParenthesis)
  | ')' => x.endWord.push (.operator .rightParenthesis)
  | ';' => x.beginOperator ';'
  | '&' => x.beginOperator '&'
  | '|' => x.beginOperator '|'
  | '<' => x.beginOperator '<'
  | '>' => x.beginOperator '>'
  | '`' => { x with failed := true }
  | _ => x.addByte b false

def doubleQuoted (x : Lexer) (b : UInt8) : Lexer :=
  let x := { x with mode := .doubleQuotes }
  match Char.ofUInt8 b with
  | '"' => { x with mode := .plain }
  | '\\' => { x with mode := .escape true }
  | '$' => { x with mode := .dollar true }
  | '`' => { x with failed := true }
  | _ => x.addByte b true

def resume (x : Lexer) (quoted : Bool) (b : UInt8) : Lexer :=
  if quoted then x.doubleQuoted b else x.plain b

def single (x : Lexer) (c : Char) (stream : Option Nat) : Lexer :=
  match c with
  | ';' => x.push (.operator .semicolon)
  | '&' => x.push (.operator .ampersand)
  | '<' => x.push (.redirect (stream.getD 0) .input)
  | '>' => x.push (.redirect (stream.getD 1) .output)
  | _ => { x with failed := true }

/-- A byte behind the first character of an operator. -/
def afterOperator (x : Lexer) (c : Char) (stream : Option Nat) (b : UInt8) : Lexer :=
  let x := { x with mode := .plain }
  match c, Char.ofUInt8 b with
  | '&', '&' => x.push (.operator .andIf)
  | '|', '|' => x.push (.operator .orIf)
  | '>', '>' => x.push (.redirect (stream.getD 1) .append)
  | '>', '|' => x.push (.redirect (stream.getD 1) .output)
  | '>', '&' => x.push (.redirect (stream.getD 1) .duplicate)
  | '<', '&' => x.push (.redirect (stream.getD 0) .duplicate)
  | '<', '<' => { x with failed := true }
  | '<', '>' => { x with failed := true }
  | ';', ';' => { x with failed := true }
  | _, _ => (x.single c stream).plain b

/-- A byte behind a backslash. In double quotes the backslash is kept, unless it is needed. -/
def afterBackslash (x : Lexer) (quoted : Bool) (b : UInt8) : Lexer :=
  let x := { x with mode := around quoted }
  match Char.ofUInt8 b with
  | '\n' => { x with line := x.line + 1 }
  | c =>
    if !quoted || c ∈ ['$', '`', '"', '\\'] then x.addByte b true
    else (x.addByte 0x5C true).addByte b true

/-- A byte behind a dollar sign. -/
def afterDollar (x : Lexer) (quoted : Bool) (b : UInt8) : Lexer :=
  let c := Char.ofUInt8 b
  if isSpecial c then x.addParameter [b] .plain quoted
  else if isNameByte b then { x with mode := .name quoted [b] }
  else if c = '{' then { x with mode := .braces quoted [] }
  else if c = '(' then { x with failed := true }
  else (x.addByte 0x24 quoted).resume quoted b

def step (x : Lexer) (b : UInt8) : Lexer :=
  match x.mode with
  | .plain => x.plain b
  | .singleQuotes =>
    if Char.ofUInt8 b = '\'' then { x with mode := .plain } else x.addByte b true
  | .doubleQuotes => x.doubleQuoted b
  | .escape quoted => x.afterBackslash quoted b
  | .dollar quoted => x.afterDollar quoted b
  | .name quoted reversed =>
    if isNameByte b then { x with mode := .name quoted (b :: reversed) }
    else (x.addParameter reversed.reverse .plain quoted).resume quoted b
  | .braces quoted reversed =>
    if b = 0x7D then
      match expansion? reversed.reverse with
      | some (name, modifier) => x.addParameter name modifier quoted
      | none => { x with failed := true }
    else if isOutsideBraces (Char.ofUInt8 b) then { x with failed := true }
    else { x with mode := .braces quoted (b :: reversed) }
  | .comment => if Char.ofUInt8 b = '\n' then x.plain b else x
  | .operator c stream => x.afterOperator c stream b

def isComplete (x : Lexer) : Bool :=
  match x.mode with
  | .plain => !x.failed
  | _ => false

end Lexer

/-- The tokens of a script; a last newline is added. -/
def tokens? (script : Bytes) : Option (List Token) :=
  let x := (script ++ [0x0A]).foldl Lexer.step .start
  if x.isComplete then some x.tokens.reverse else none

end EngineBench.Shell
