import EngineBench.Decimal.Plain
import EngineBench.Options
import EngineBench.Proofs.Digits
import EngineBench.Proofs.Literals
import EngineBench.Proofs.ShortestDecimals

/-!
# Plain numbers are read back

On a command line a number is written positionally, without an exponent, however small or large it
is. The readers of the options read it as the number that was written.

* `Decimal.numeral_positional_of_nonneg` and `Decimal.numeral_positional_of_neg`: positional notation
  is a numeral, and it stands for the decimal that was written.
* `Binary64.readFloat?_plain` is the reading of every floating-point number.
* `ValueOption.readPort?_toString` and `ValueOption.readDegree?_toString` are the whole numbers.
-/

namespace EngineBench

namespace Decimal

theorem zeros_isDigit (n : Nat) : (zeros n).all Char.isDigit = true := by
  simp [zeros, List.all_replicate]

/-- A decimal without a fraction is written with all its places. -/
theorem numeral_positional_of_nonneg {x : Decimal} (hx : 0 ≤ x.exponent) :
    Numeral ⟨x.digits * powerOfTen x.exponent.toNat, 0⟩ x.positional := by
  have hdigits : (digitsOf x.digits ++ zeros x.exponent.toNat).all Char.isDigit = true := by
    rw [List.all_append, digitsOf_isDigit, zeros_isDigit, Bool.and_self]
  have hvalue : ofDigits 0 (digitsOf x.digits ++ zeros x.exponent.toNat) =
      x.digits * powerOfTen x.exponent.toNat := by
    rw [ofDigits_append, ofDigits_digitsOf]
    exact ofDigits_zeros _ _
  have hform : x.positional = digitsOf x.digits ++ zeros x.exponent.toNat ++ ([] ++ []) := by
    rw [positional, if_pos hx, List.append_nil, List.append_nil]
  rw [hform, ← hvalue]
  refine .intro (e := 0) hdigits .none (fun h => ?_) .none
  exact digitsOf_ne_nil x.digits (List.append_eq_nil_iff.mp h.1).1

/-- A decimal with a fraction is written with its own digits, wherever the point is. -/
theorem numeral_positional_of_neg {x : Decimal} (hx : x.exponent < 0) :
    Numeral x x.positional := by
  obtain ⟨places, hplaces⟩ : ∃ places, places = (-x.exponent).toNat := ⟨_, rfl⟩
  have hvalue := ofDigits_digitsOf x.digits
  have hdigits := digitsOf_isDigit x.digits
  have hexponent : x.exponent = 0 - (places : Int) := by omega
  rw [positional, if_neg (by omega)]
  simp only [← hplaces]
  by_cases hpoint : places < (digitsOf x.digits).length
  · -- The point is among the digits.
    rw [if_pos hpoint]
    obtain ⟨n, hn⟩ : ∃ n, n = (digitsOf x.digits).length - places := ⟨_, rfl⟩
    rw [← hn]
    have hlength : ((digitsOf x.digits).drop n).length = places := by
      rw [List.length_drop]
      omega
    have hsplit : ofDigits (ofDigits 0 ((digitsOf x.digits).take n)) ((digitsOf x.digits).drop n) =
        x.digits := by
      rw [← ofDigits_append, List.take_append_drop, hvalue]
    have hnumeral : Numeral
        ⟨ofDigits (ofDigits 0 ((digitsOf x.digits).take n)) ((digitsOf x.digits).drop n),
          0 - ((digitsOf x.digits).drop n).length⟩
        ((digitsOf x.digits).take n ++ ('.' :: (digitsOf x.digits).drop n ++ [])) := by
      refine .intro ?_ (.point ?_) (fun h => ?_) .none
      · exact List.all_eq_true.mpr fun c hc =>
          List.all_eq_true.mp hdigits c (List.mem_of_mem_take hc)
      · exact List.all_eq_true.mpr fun c hc =>
          List.all_eq_true.mp hdigits c (List.mem_of_mem_drop hc)
      · have hall := List.take_append_drop n (digitsOf x.digits)
        rw [h.1, h.2] at hall
        exact digitsOf_ne_nil _ hall.symm
    rw [hsplit, hlength, ← hexponent, List.append_nil] at hnumeral
    exact hnumeral
  · -- Zeros stand between the point and the digits.
    rw [if_neg hpoint]
    obtain ⟨fraction, hfraction⟩ : ∃ fraction,
        fraction = zeros (places - (digitsOf x.digits).length) ++ digitsOf x.digits := ⟨_, rfl⟩
    have hlength : fraction.length = places := by
      rw [hfraction, List.length_append, zeros, List.length_replicate]
      omega
    have hread : ofDigits (ofDigits 0 ['0']) fraction = x.digits := by
      show ofDigits 0 fraction = x.digits
      rw [hfraction, ofDigits_append, zeros, ofDigits_zeros, Nat.zero_mul, hvalue]
    have hnumeral : Numeral ⟨ofDigits (ofDigits 0 ['0']) fraction, 0 - fraction.length⟩
        (['0'] ++ ('.' :: fraction ++ [])) := by
      refine .intro rfl (.point ?_) (fun h => nomatch h.1) .none
      rw [hfraction, List.all_append, zeros_isDigit, hdigits, Bool.and_self]
    rw [hread, hlength, ← hexponent, List.append_nil, hfraction] at hnumeral
    exact hnumeral

end Decimal

namespace Magnitude

/-- All places of a whole number are read as the magnitude that its decimal is read as. -/
theorem toMagnitude_whole (tie : Tie) {m : Magnitude} (he : 0 ≤ (m.shortest tie).exponent) :
    Decimal.toMagnitude
      ⟨(m.shortest tie).digits * Decimal.powerOfTen (m.shortest tie).exponent.toNat, 0⟩ =
        some m := by
  by_cases hm : m.significand = 0
  · rw [shortest_zero tie hm, eq_zero_of_significand hm]
    rfl
  have hx := shortest_digits_ne_zero tie hm
  have hcovers := covers_shortest tie hm
  generalize m.shortest tie = x at he hx hcovers ⊢
  have hpos : 0 < x.digits * Decimal.powerOfTen x.exponent.toNat :=
    Nat.mul_pos (Nat.pos_of_ne_zero hx) (powerOfTen_pos _)
  refine toMagnitude_of_covers (Nat.ne_of_gt hpos) (by simp) (by simp) ?_
  rw [Int.toNat_of_nonpos (show -x.exponent ≤ 0 by omega)] at hcovers
  show m.covers (4 * (x.digits * Decimal.powerOfTen x.exponent.toNat * Decimal.powerOfTen 0 *
    unitsPerOne)) (Decimal.powerOfTen 0) = true
  rwa [show Decimal.powerOfTen 0 = 1 from rfl, Nat.mul_one]

/-- Positional notation of a shortest decimal is a numeral for the magnitude. -/
theorem exists_numeral_positional (tie : Tie) (m : Magnitude) :
    ∃ x, Decimal.Numeral x (m.shortest tie).positional ∧ x.toMagnitude = some m := by
  by_cases he : 0 ≤ (m.shortest tie).exponent
  · exact ⟨_, Decimal.numeral_positional_of_nonneg he, toMagnitude_whole tie he⟩
  · exact ⟨_, Decimal.numeral_positional_of_neg (by omega), toMagnitude_shortest tie m⟩

end Magnitude

namespace Binary64

open Decimal

/-- What is written for a number is a literal of it. -/
theorem literal_plain (x : Binary64) : FloatLiteral x x.plain.toList := by
  cases x with
  | finite negative m =>
    obtain ⟨x, hx, hm⟩ := m.exists_numeral_positional .away
    have hvalue : toBinary64 negative x = .finite negative m := by rw [toBinary64, hm]
    rw [plain, String.toList_ofList, ← hvalue]
    cases negative with
    | false => exact .number .none hx
    | true => exact .number .minus hx
  | infinite negative =>
    have hword : "inf".toList.map Char.toLower = "inf".toList := rfl
    cases negative with
    | false => exact .infinite .none (.inl hword)
    | true => exact .infinite .minus (.inl hword)
  | nan =>
    have hword : "NaN".toList.map Char.toLower = "nan".toList := rfl
    exact .nan .none hword

/-- What is written for a number is read as the number. -/
theorem readFloat?_plain (x : Binary64) : readFloat? x.plain = some x :=
  readFloat?_eq_some_iff.mpr x.literal_plain

end Binary64

/-! ## Whole numbers -/

theorem Decimal.readWhole?_toString {bound n : Nat} (h : n ≤ bound) :
    readWhole? bound (toString n) = some n := by
  have hvalue := ofDigits_digitsOf n
  have hliteral : WholeLiteral bound (ofDigits 0 (digitsOf n)) ([] ++ digitsOf n) :=
    .intro .none (digitsOf_ne_nil n) (digitsOf_isDigit n) (by rwa [hvalue]) nofun
  rw [hvalue, List.nil_append] at hliteral
  refine readWhole?_eq_some_iff.mpr ?_
  rwa [show (toString n).toList = digitsOf n from Nat.toList_repr]

namespace ValueOption

theorem readPort?_toString (n : UInt16) : readPort? (toString n.toNat) = some n := by
  have hle : n.toNat ≤ 65535 := Nat.le_of_lt_succ n.toNat_lt
  rw [readPort?, Decimal.readWhole?_toString hle, Option.map_some, UInt16.ofNat_toNat]

theorem readDegree?_toString (n : UInt32) : readDegree? (toString n.toNat) = some n := by
  have hle : n.toNat ≤ 4294967295 := Nat.le_of_lt_succ n.toNat_lt
  rw [readDegree?, Decimal.readWhole?_toString hle, Option.map_some, UInt32.ofNat_toNat]

end ValueOption

end EngineBench
