import Mathlib.Data.Nat.Digits.Defs
import Mathlib.Tactic.Ring
import EngineBench.Decimal.Literal

/-!
# Digits of a number

`Decimal.digitsOf` writes a number and `Decimal.ofDigits` reads it: what is written is read back, and
no number but zero is written with a zero in front.
-/

namespace EngineBench.Decimal

theorem ofDigits_eq (n : Nat) (cs : List Char) : ofDigits n cs = Nat.ofDigitChars 10 cs n := by
  rw [Nat.ofDigitChars_eq_foldl]
  rfl

theorem ofDigits_append (n : Nat) (cs ds : List Char) :
    ofDigits n (cs ++ ds) = ofDigits (ofDigits n cs) ds := List.foldl_append

theorem ofDigits_digitsOf (n : Nat) : ofDigits 0 (digitsOf n) = n := by
  rw [ofDigits_eq, digitsOf, Nat.ofDigitChars_ten_toDigits]

theorem digitsOf_ne_nil (n : Nat) : digitsOf n ≠ [] := Nat.toDigits_ne_nil

theorem digitsOf_isDigit (n : Nat) : (digitsOf n).all Char.isDigit :=
  List.all_eq_true.mpr fun _ hc => Nat.isDigit_of_mem_toDigits (by decide) (by decide) hc

theorem digitsOf_zero : digitsOf 0 = ['0'] := Nat.toDigits_zero 10

/-- Only zero begins with a zero. -/
theorem digitsOf_head_ne_zero {n : Nat} (hn : n ≠ 0) : (digitsOf n).head? ≠ some '0' := by
  -- Along the digits: all but the last are those of the tenth part.
  induction n using Nat.strongRecOn with
  | ind n ih =>
    rcases Nat.lt_or_ge n 10 with hlt | hge
    · rw [digitsOf, Nat.toDigits_of_lt_base hlt, List.head?_cons]
      intro h
      exact hn (Nat.digitChar_eq_zero.mp (Option.some.inj h))
    · have hhead := ih (n / 10) (by omega) (by omega)
      rw [digitsOf, Nat.toDigits_of_base_le (by decide) hge]
      rw [digitsOf] at hhead
      cases hds : Nat.toDigits 10 (n / 10) with
      | nil => exact absurd hds Nat.toDigits_ne_nil
      | cons d ds =>
        rw [hds] at hhead
        exact hhead

/-- A number that begins with a zero has one digit. -/
theorem length_digitsOf_of_head_zero {n : Nat} (h : (digitsOf n).head? = some '0') :
    (digitsOf n).length = 1 := by
  have hn : n = 0 := by
    by_cases hn : n = 0
    · exact hn
    · exact absurd h (digitsOf_head_ne_zero hn)
  rw [hn, digitsOf_zero]
  rfl

theorem le_ofDigits (n : Nat) (cs : List Char) : n ≤ ofDigits n cs := by
  induction cs generalizing n with
  | nil => exact Nat.le_refl n
  | cons c cs ih =>
    have hle := ih (10 * n + digitValue c)
    show n ≤ ofDigits (10 * n + digitValue c) cs
    omega

theorem ofDigits_zeros (n k : Nat) : ofDigits n (List.replicate k '0') = n * powerOfTen k := by
  induction k generalizing n with
  | zero => exact (Nat.mul_one n).symm
  | succ k ih =>
    show ofDigits (10 * n + 0) (List.replicate k '0') = n * 10 ^ (k + 1)
    rw [ih, Nat.pow_succ, Nat.add_zero]
    show 10 * n * 10 ^ k = n * (10 ^ k * 10)
    ring

theorem length_digitsOf_le {n k : Nat} (hk : 0 < k) (h : n < 10 ^ k) : (digitsOf n).length ≤ k :=
  Nat.toDigits_length 10 n k hk h

theorem lt_powerOfTen_length (n : Nat) : n < powerOfTen (digitsOf n).length :=
  (Nat.length_toDigits_le_iff (by decide) (List.length_pos_iff.mpr (digitsOf_ne_nil n))).mp
    (Nat.le_refl _)

theorem length_digitsOf_pos (n : Nat) : 0 < (digitsOf n).length :=
  List.length_pos_iff.mpr (digitsOf_ne_nil n)

end EngineBench.Decimal
