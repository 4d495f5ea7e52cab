import EngineBench.Shell.Number

/-!
# Printed text

The texts that `echo` and `printf` print for their arguments. Both replace escapes, but differ in
which ones they know, and `\c` ends everything.
-/

namespace EngineBench.Shell

/-- The byte that an escape of one letter stands for. -/
def escapeByte? (b : UInt8) : Option UInt8 :=
  match Char.ofUInt8 b with
  | 'a' => some 7
  | 'b' => some 8
  | 't' => some 9
  | 'n' => some 10
  | 'v' => some 11
  | 'f' => some 12
  | 'r' => some 13
  | '\\' => some 0x5C
  | _ => none

/-- The value of at most `n` octal digits, and what follows them. -/
def octal : Nat → Nat → Bytes → Nat × Bytes
  | n + 1, v, b :: r =>
    if 48 ≤ b ∧ b ≤ 55 then octal n (8 * v + (b.toNat - 48)) r else (v, b :: r)
  | _, v, r => (v, r)

/-- A text with escapes replaced; the flag says that it ended at `\c`. An octal number is written
behind `\0`, or behind the backslash alone if `bare`. The first argument bounds the length. -/
def unescape (bare : Bool) : Nat → Bytes → Bytes × Bool
  | 0, _ => ([], false)
  | _ + 1, [] => ([], false)
  | n + 1, 0x5C :: b :: r =>
    if Char.ofUInt8 b = 'c' then ([], true)
    else
      match escapeByte? b with
      | some c =>
        let (rest, ended) := unescape bare n r
        (c :: rest, ended)
      | none =>
        if b = 48 ∨ (bare ∧ 49 ≤ b ∧ b ≤ 55) then
          let (v, r) := if bare then octal 3 0 (b :: r) else octal 3 0 r
          let (rest, ended) := unescape bare n r
          (UInt8.ofNat v :: rest, ended)
        else
          let (rest, ended) := unescape bare n r
          (0x5C :: b :: rest, ended)
  | n + 1, b :: r =>
    let (rest, ended) := unescape bare n r
    (b :: rest, ended)

def spaced : List Bytes → Bytes
  | [] => []
  | [w] => w
  | w :: r => w ++ 0x20 :: spaced r

def echoed (arguments : List Bytes) : Bytes :=
  let (quiet, words) :=
    match arguments with
    | [0x2D, 0x6E] :: r => (true, r)
    | r => (false, r)
  let text := spaced words
  let (text, ended) := unescape false text.length text
  if quiet || ended then text else text ++ [0x0A]

/-! ## Formats -/

/-- How an argument is printed. -/
structure Directive where
  written : Bytes
  flags : Bytes
  width : Nat
  /-- The number of bytes of a text, or of digits of a number. -/
  precision : Option Nat
  letter : Char
  deriving DecidableEq

/-- A part of a format. -/
inductive FormatItem where
  | text (bytes : Bytes)
  | directive (d : Directive)
  | stop
  deriving DecidableEq

def isFlag (b : UInt8) : Bool := [0x20, 0x23, 0x2B, 0x2D, 0x30].contains b

def readDirective (format : Bytes) : Directive × Bytes :=
  let flags := format.takeWhile isFlag
  let r := format.drop flags.length
  let width := r.takeWhile isDigit
  let r := r.drop width.length
  let (precision, r) :=
    match r with
    | 0x2E :: r =>
      let digits := r.takeWhile isDigit
      (some (numberOf digits), r.drop digits.length)
    | r => (none, r)
  let written := 0x25 :: format.take (format.length - r.length + 1)
  (⟨written, flags, numberOf width, precision, Char.ofUInt8 (r.headD 0)⟩, r.tail)

/-- The parts of a format, up to a bound. -/
def formatItems : Nat → Bytes → List FormatItem
  | 0, _ => []
  | _ + 1, [] => []
  | n + 1, 0x25 :: 0x25 :: r => .text [0x25] :: formatItems n r
  | n + 1, 0x25 :: r =>
    let (d, r) := readDirective r
    .directive d :: formatItems n r
  | n + 1, 0x5C :: b :: r =>
    if Char.ofUInt8 b = 'c' then [.stop]
    else
      match escapeByte? b with
      | some c => .text [c] :: formatItems n r
      | none =>
        if 48 ≤ b ∧ b ≤ 55 then
          let (v, r) := octal 3 0 (b :: r)
          .text [UInt8.ofNat v] :: formatItems n r
        else if b = 0x22 ∨ b = 0x27 then .text [b] :: formatItems n r
        else .text [0x5C, b] :: formatItems n r
  | n + 1, b :: r => .text [b] :: formatItems n r

namespace Directive

/-- A text in the width of a directive; zeros go behind the sign. -/
def pad (d : Directive) (sign text : Bytes) (zeros : Bool) : Bytes :=
  let missing := d.width - (sign.length + text.length)
  if d.flags.contains 0x2D then sign ++ text ++ List.replicate missing 0x20
  else if zeros && d.flags.contains 0x30 then sign ++ List.replicate missing 0x30 ++ text
  else List.replicate missing 0x20 ++ sign ++ text

def ofText (d : Directive) (text : Bytes) : Bytes :=
  d.pad [] (d.precision.elim text fun n => text.take n) false

def ofDigits (d : Directive) (sign : Bytes) (base n : Nat) : Bytes :=
  let digits := Text.encode (String.ofList (Nat.toDigits base n))
  let digits := List.replicate (d.precision.getD 0 - digits.length) 0x30 ++ digits
  d.pad sign digits d.precision.isNone

/-- The text of a directive for an integer; negative ones are shown in 64 bits without a sign. -/
def ofInteger? (d : Directive) (i : Int) : Option Bytes :=
  let plus : Bytes := if d.flags.contains 0x2B then [0x2B] else []
  let word := (i % (UInt64.size : Int)).toNat
  match d.letter with
  | 'd' | 'i' => some (d.ofDigits (if i < 0 then [0x2D] else plus) 10 i.natAbs)
  | 'u' => some (d.ofDigits [] 10 word)
  | 'o' => some (d.ofDigits [] 8 word)
  | 'x' => some (d.ofDigits [] 16 word)
  | 'X' => some ((d.ofDigits [] 16 word).map fun b => if 97 ≤ b && b ≤ 102 then b - 32 else b)
  | _ => none

/-- What a directive prints for an argument; `none` if there is no such directive. -/
def text? (d : Directive) (argument : Bytes) : Option Bytes :=
  match d.letter with
  | 's' => some (d.ofText argument)
  | 'b' => some (d.ofText (unescape false argument.length argument).1)
  | 'c' => some (d.ofText (argument.take 1))
  | _ => d.ofInteger? (readInteger argument).value

/-- What is to be said about an argument for a directive. -/
def complaint? (d : Directive) (argument : Bytes) : Option Bytes :=
  if d.letter ∈ ['s', 'b', 'c'] || argument.isEmpty then none
  else
    let n := readInteger argument
    if n.isEmpty then some (argument ++ Text.encode ": expected numeric value")
    else if n.rest.isEmpty then none
    else some (argument ++ Text.encode ": not completely converted")

end Directive

/-- What is printed so far, the arguments that are left, and what is to be said about them. -/
structure Formatted where
  text : Bytes
  arguments : List Bytes
  complaints : List Bytes
  /-- The status: one if an argument does not fit, two if a directive has no meaning. -/
  status : UInt8
  ended : Bool

/-- Prints one part of a format. A directive without an argument gets an empty one. -/
def Formatted.add (f : Formatted) (item : FormatItem) : Formatted :=
  if f.ended then f
  else
    match item with
    | .text bytes => { f with text := f.text ++ bytes }
    | .stop => { f with ended := true }
    | .directive d =>
      let argument := f.arguments.headD []
      match d.text? argument with
      | none =>
        { f with
          complaints := f.complaints ++ [d.written ++ Text.encode ": invalid directive"]
          status := 2
          ended := true }
      | some bytes =>
        let f := { f with text := f.text ++ bytes, arguments := f.arguments.tail }
        match d.complaint? argument with
        | none => f
        | some c => { f with complaints := f.complaints ++ [c], status := 1 }

/-- Goes through the format until the arguments are used up, at most so often. -/
def formatLoop (items : List FormatItem) : Nat → Formatted → Formatted
  | 0, f => f
  | n + 1, f =>
    let g := items.foldl Formatted.add f
    if g.ended || g.arguments.isEmpty || g.arguments.length = f.arguments.length then g
    else formatLoop items n g

/-- What `printf` prints for a format and arguments. -/
def formatted (format : Bytes) (arguments : List Bytes) : Formatted :=
  formatLoop (formatItems format.length format) (arguments.length + 1)
    ⟨[], arguments, [], 0, false⟩

end EngineBench.Shell
