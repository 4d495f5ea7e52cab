import EngineBench.Text.Utf8

/-!
# Numbers in scripts

A number as a whole word has decimal digits. `printf` reads as much of a word as is a number, which
may also be octal behind `0`, hexadecimal behind `0x`, or the code of the byte behind a quote.
-/

namespace EngineBench.Shell

def isDigit (b : UInt8) : Bool := 48 ≤ b && b ≤ 57

def numberOf (digits : Bytes) : Nat := digits.foldl (fun n b => 10 * n + (b.toNat - 48)) 0

def natural? (w : Bytes) : Option Nat :=
  if !w.isEmpty && w.all isDigit then some (numberOf w) else none

def trimmed (w : Bytes) : Bytes :=
  let isBlank (b : UInt8) := b = 0x20 || (9 ≤ b && b ≤ 13)
  ((w.dropWhile isBlank).reverse.dropWhile isBlank).reverse

def integer? (w : Bytes) : Option Int :=
  match trimmed w with
  | 0x2D :: r => (natural? r).map fun n => -(n : Int)
  | 0x2B :: r => (natural? r).map Int.ofNat
  | r => (natural? r).map Int.ofNat

/-! ## Numbers at the beginning of a word -/

/-- What a word begins with: a number, or nothing that is one. -/
structure Leading where
  value : Int
  isEmpty : Bool
  rest : Bytes

def digitValue? (base : Nat) (b : UInt8) : Option Nat :=
  let v :=
    if isDigit b then b.toNat - 48
    else if 97 ≤ b && b ≤ 102 then b.toNat - 87
    else if 65 ≤ b && b ≤ 70 then b.toNat - 55
    else base
  if v < base then some v else none

def readDigits (base : Nat) (negative : Bool) (w : Bytes) : Leading :=
  let digits := w.takeWhile fun b => (digitValue? base b).isSome
  let n := digits.foldl (fun n b => base * n + (digitValue? base b).getD 0) 0
  ⟨if negative then -(n : Int) else n, digits.isEmpty, w.drop digits.length⟩

def readUnsigned (negative : Bool) : Bytes → Leading
  | 0x30 :: 0x78 :: r => readDigits 16 negative r
  | 0x30 :: 0x58 :: r => readDigits 16 negative r
  | 0x30 :: r => { readDigits 8 negative r with isEmpty := false }
  | r => readDigits 10 negative r

def readInteger (w : Bytes) : Leading :=
  match w with
  | 0x22 :: r | 0x27 :: r => ⟨((r.headD 0).toNat : Int), false, []⟩
  | _ =>
    match w.dropWhile (· = 0x20) with
    | 0x2D :: r => readUnsigned true r
    | 0x2B :: r => readUnsigned false r
    | r => readUnsigned false r

end EngineBench.Shell
