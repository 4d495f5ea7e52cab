import Mathlib.Tactic.Ring
import EngineBench.Json.Record
import EngineBench.Proofs.JsonText
import EngineBench.Proofs.NearestMagnitude
import EngineBench.Proofs.ShortestDecimals

/-!
# Numbers in JSON

Whole numbers are read back as they were written. A floating-point number is written with the
shortest digits that are read back *correctly rounded*, but the reader rounds twice; so only some
are read back exactly.

* `Json.word16?_nat`, `Json.word32?_nat` and `Json.int32?_int` are the whole numbers.
* `Magnitude.IsShort` asks for a shortest decimal of at most fifteen digits whose power of ten is
  exact, and `Json.float?_float_of_isShort` says that such numbers are read back.
* `Json.float_finite_inj`: what is written tells all finite numbers apart.
-/

namespace EngineBench

namespace Numeral

theorem leadingWhole_eq {n : Nat} {ds : List Char} (h : Decimal.ofDigits n ds < significandBound) :
    leadingWhole n ds = (Decimal.ofDigits n ds, 0) := by
  induction ds generalizing n with
  | nil => rfl
  | cons d ds ih =>
    have hstep : 10 * n + Decimal.digitValue d < significandBound :=
      Nat.lt_of_le_of_lt (Decimal.le_ofDigits _ ds) h
    simp only [leadingWhole, hstep, if_true]
    exact ih h

theorem leadingFraction_eq {n : Nat} {ds : List Char}
    (h : Decimal.ofDigits n ds < significandBound) :
    leadingFraction n ds = (Decimal.ofDigits n ds, ds.length) := by
  induction ds generalizing n with
  | nil => rfl
  | cons d ds ih =>
    have hstep : 10 * n + Decimal.digitValue d < significandBound :=
      Nat.lt_of_le_of_lt (Decimal.le_ofDigits _ ds) h
    simp only [leadingFraction, hstep, if_true, ih h]
    rfl

/-! ## Whole numbers -/

theorem whole?_digitsOf (negative : Bool) {n : Nat} (hn : n < significandBound) :
    whole? ⟨negative, Decimal.digitsOf n, [], none⟩ = some n := by
  have hvalue := Decimal.ofDigits_digitsOf n
  have hlead : leadingWhole 0 (Decimal.digitsOf n) = _ := leadingWhole_eq (by rwa [hvalue])
  rw [hvalue] at hlead
  simp only [whole?, hlead]
  rfl

theorem nat?_ofNat {bound n : Nat} (hn : n ≤ bound) (hbound : bound < significandBound) :
    (ofNat n).nat? bound = some n := by
  rw [nat?, ofNat, whole?_digitsOf false (Nat.lt_of_le_of_lt hn hbound)]
  simp [hn]

theorem int?_ofInt {bound : Nat} {i : Int} (hlow : -(bound : Int) ≤ i) (hhigh : i < bound)
    (hbound : bound < significandBound) : (ofInt i).int? bound = some i := by
  rw [int?, ofInt, whole?_digitsOf _ (by omega)]
  by_cases hi : i < 0
  · have hneg : 0 < i.natAbs ∧ i.natAbs ≤ bound := by omega
    have hvalue : -(i.natAbs : Int) = i := by omega
    rw [decide_eq_true hi, Option.bind_eq_bind, Option.bind_some, if_pos rfl, if_pos hneg, hvalue]
  · have hlt : i.natAbs < bound := by omega
    have hvalue : (i.natAbs : Int) = i := by omega
    rw [decide_eq_false hi, Option.bind_eq_bind, Option.bind_some, if_neg Bool.false_ne_true,
      if_pos hlt, hvalue]

theorem isGrammatical_digitsOf (negative : Bool) (n : Nat) :
    IsGrammatical ⟨negative, Decimal.digitsOf n, [], none⟩ :=
  ⟨Decimal.digitsOf_ne_nil n, Decimal.digitsOf_isDigit n, Decimal.length_digitsOf_of_head_zero, rfl⟩

end Numeral

namespace Json

theorem isGrammatical_nat (n : Nat) : (nat n).IsGrammatical :=
  .number (Numeral.isGrammatical_digitsOf false n)

theorem isGrammatical_int (i : Int) : (int i).IsGrammatical :=
  .number (Numeral.isGrammatical_digitsOf (i < 0) i.natAbs)

theorem word16?_nat (n : UInt16) : (nat n.toNat).word16? = some n := by
  have hle : n.toNat ≤ 65535 := Nat.le_of_lt_succ n.toNat_lt
  show (Option.map UInt16.ofNat ((Numeral.ofNat n.toNat).nat? 65535)) = some n
  rw [Numeral.nat?_ofNat hle (by decide), Option.map_some, UInt16.ofNat_toNat]

theorem word32?_nat (n : UInt32) : (nat n.toNat).word32? = some n := by
  have hle : n.toNat ≤ 4294967295 := Nat.le_of_lt_succ n.toNat_lt
  show (Option.map UInt32.ofNat ((Numeral.ofNat n.toNat).nat? 4294967295)) = some n
  rw [Numeral.nat?_ofNat hle (by decide), Option.map_some, UInt32.ofNat_toNat]

theorem int32?_int (n : Int32) : (int n.toInt).int32? = some n := by
  have hlow := n.le_toInt
  have hhigh := n.toInt_lt
  show (Option.map Int32.ofInt ((Numeral.ofInt n.toInt).int? (UInt32.size / 2))) = some n
  have hsize : UInt32.size / 2 = 2147483648 := rfl
  rw [Numeral.int?_ofInt (by omega) (by omega) (by decide), Option.map_some, Int32.ofInt_toInt]

end Json

/-! ## Exact magnitudes -/

namespace Magnitude

theorem covers_mul_right (m : Magnitude) (p q : Nat) {c : Nat} (hc : 0 < c) :
    m.covers (p * c) (q * c) = m.covers p q := by
  simp only [covers, ← Nat.mul_assoc, Nat.mul_le_mul_right_iff hc, Nat.mul_lt_mul_right hc]

theorem covers_units (m : Magnitude) : m.covers (4 * m.units) 1 = true := by
  have hquarters : 4 * m.units = m.quarters := by
    rw [units, quarters, Nat.shiftLeft_eq, Nat.shiftLeft_eq, Nat.mul_assoc]
  rw [hquarters]
  by_cases hm : m.significand = 0
  · rw [eq_zero_of_significand hm]
    rfl
  · have hlower := lower_add_two_le hm
    have hupper := m.quarters_lt_upper
    exact covers_of_between (by omega) (by omega)

/-- What is a magnitude is not rounded. -/
theorem ofUnits_units (m : Magnitude) {c : Nat} (hc : 0 < c) : ofUnits (m.units * c) c = some m := by
  refine ofUnits_of_covers hc ?_
  have hcovers := covers_mul_right m (4 * m.units) 1 hc
  rw [Nat.one_mul, Nat.mul_assoc] at hcovers
  rw [hcovers]
  exact m.covers_units

theorem exists_ofRatio_eq {n k : Nat} (hn : n < 2 ^ 53) (hk : k ≤ 900) :
    ∃ m : Magnitude, ofRatio (n * 2 ^ k) 1 = some m ∧ m.units = n * 2 ^ k * unitsPerOne := by
  obtain ⟨m, hm⟩ := exists_units_eq (Nat.le_of_lt hn) (by omega : k + 1074 ≤ 2044)
  have hunits : m.units = n * 2 ^ k * unitsPerOne := by
    rw [hm, unitsPerOne, Nat.one_shiftLeft, Nat.pow_add, Nat.mul_assoc]
  refine ⟨m, ?_, hunits⟩
  have hround := ofUnits_units m Nat.one_pos
  rwa [Nat.mul_one, hunits] at hround

end Magnitude

namespace Numeral

open Magnitude

/-- The powers of ten that are floating-point numbers themselves. -/
theorem units_power {k : Nat} (hk : k ≤ 22) :
    (power k).units = Decimal.powerOfTen k * unitsPerOne := by
  have hfive : 5 ^ k < 2 ^ 53 :=
    Nat.lt_of_le_of_lt (Nat.pow_le_pow_right (by decide) hk) (by decide)
  obtain ⟨m, hm, hunits⟩ := exists_ofRatio_eq (k := k) hfive (by omega)
  have hten : 5 ^ k * 2 ^ k = Decimal.powerOfTen k := (Nat.mul_pow 5 2 k).symm
  rw [hten] at hm hunits
  rw [power, hm, Option.getD_some, hunits]

/-- Exact leading digits and an exact power of ten are rounded once. -/
theorem scale_of_covers {m : Magnitude} {k j : Nat} {e : Int} (hpos : 0 < k) (hk : k < 2 ^ 53)
    (hj : j ≤ 900) (hlow : -22 ≤ e) (hhigh : e ≤ 22)
    (h : m.covers (4 * (k * 2 ^ j * Decimal.powerOfTen e.toNat * unitsPerOne))
      (Decimal.powerOfTen (-e).toNat) = true) :
    ((Magnitude.ofRatio (k * 2 ^ j) 1).bind fun x => scale x e) = some m := by
  obtain ⟨x, hx, hunits⟩ := exists_ofRatio_eq hk hj
  have hU := unitsPerOne_pos
  have hne : x.significand ≠ 0 := by
    intro hzero
    rw [eq_zero_of_significand hzero] at hunits
    have hprod : 0 < k * 2 ^ j * unitsPerOne :=
      Nat.mul_pos (Nat.mul_pos hpos (Nat.two_pow_pos j)) hU
    rw [← hunits] at hprod
    exact absurd hprod (by decide)
  rw [hx, Option.bind_some, scale, if_neg hne]
  by_cases he : 0 ≤ e
  · have hinverse : Decimal.powerOfTen (-e).toNat = 1 := by
      rw [Int.toNat_of_nonpos (by omega)]
      rfl
    rw [if_pos he, if_pos (by simp only [maxPower]; omega), Magnitude.mul,
      units_power (by omega), hunits]
    refine ofUnits_of_covers hU ?_
    rw [hinverse, ← covers_mul_right m _ _ hU, Nat.one_mul] at h
    have hmul (a p u : Nat) : 4 * (a * u * (p * u)) = 4 * (a * p * u) * u := by ring
    rwa [hmul]
  · have hforward : Decimal.powerOfTen e.toNat = 1 := by
      rw [Int.toNat_of_nonpos (by omega)]
      rfl
    rw [if_neg he, if_pos (by simp only [maxPower]; omega), Magnitude.div,
      units_power (by omega), hunits]
    refine ofUnits_of_covers (Nat.mul_pos (powerOfTen_pos _) hU) ?_
    rw [hforward, Nat.mul_one, ← covers_mul_right m _ _ hU] at h
    rwa [Nat.mul_assoc 4] at h

/-! ## Floating-point numbers -/

theorem maxExponent_eq : maxExponent = 2147483647 := rfl

/-- The decimal that a numeral spells. -/
def toDecimal (n : Numeral) : Decimal :=
  ⟨Decimal.ofDigits 0 (n.whole ++ n.fraction), n.exponent.getD 0 - n.fraction.length⟩

/-- A numeral whose digits all count is read as its digits, scaled. -/
theorem magnitude?_eq {n : Numeral} (hdigits : n.toDecimal.digits < significandBound)
    (hlow : -1000 ≤ n.exponent.getD 0) (hhigh : n.exponent.getD 0 ≤ 1000)
    (hscale : -1000 ≤ n.toDecimal.exponent) :
    n.magnitude? =
      (Magnitude.ofRatio n.toDecimal.digits 1).bind fun m => scale m n.toDecimal.exponent := by
  have happend := Decimal.ofDigits_append 0 n.whole n.fraction
  have hdigits' : Decimal.ofDigits (Decimal.ofDigits 0 n.whole) n.fraction < significandBound := by
    rw [← happend]
    exact hdigits
  have hwhole : Decimal.ofDigits 0 n.whole < significandBound :=
    Nat.lt_of_le_of_lt (Decimal.le_ofDigits _ n.fraction) hdigits'
  have hclamp : max (-maxExponent - 1)
      (min maxExponent (((0 : Nat) : Int) - n.fraction.length + n.exponent.getD 0)) =
        n.toDecimal.exponent := by
    have hexponent : n.toDecimal.exponent = n.exponent.getD 0 - n.fraction.length := rfl
    simp only [maxExponent_eq]
    omega
  have hbound := maxExponent_eq
  simp only [magnitude?, leadingWhole_eq hwhole, leadingFraction_eq hdigits', ← happend]
  rw [if_neg (by omega), if_neg (by omega), hclamp]
  rfl

/-! ### Written decimals -/

theorem negative_ofDecimal (negative : Bool) (x : Decimal) :
    (ofDecimal negative x).negative = negative := by
  simp only [ofDecimal]
  repeat' split
  all_goals rfl

theorem exponent_ofDecimal (negative : Bool) (x : Decimal) :
    (ofDecimal negative x).exponent.getD 0 = 0 ∨
      (ofDecimal negative x).exponent.getD 0 =
        (Decimal.digitsOf x.digits).length + x.exponent - 1 := by
  simp only [ofDecimal]
  repeat' split
  all_goals first | exact .inl rfl | exact .inr rfl

/-- A short whole number is written with a zero behind the point. -/
theorem toDecimal_ofDecimal_of_whole (negative : Bool) {x : Decimal} (hx : x.digits ≠ 0)
    (h : 0 ≤ x.exponent ∧ (Decimal.digitsOf x.digits).length + x.exponent ≤ 16) :
    (ofDecimal negative x).toDecimal =
      ⟨x.digits * Decimal.powerOfTen x.exponent.toNat * 10, -1⟩ := by
  have hform : ofDecimal negative x =
      ⟨negative, Decimal.digitsOf x.digits ++ List.replicate x.exponent.toNat '0', ['0'], none⟩ := by
    simp only [ofDecimal]
    rw [if_neg hx, if_pos h]
  have hvalue : Decimal.ofDigits 0
      (Decimal.digitsOf x.digits ++ List.replicate x.exponent.toNat '0' ++ ['0']) =
        x.digits * Decimal.powerOfTen x.exponent.toNat * 10 := by
    rw [Decimal.ofDigits_append, Decimal.ofDigits_append, Decimal.ofDigits_digitsOf,
      Decimal.ofDigits_zeros]
    exact Nat.mul_comm 10 _
  rw [hform, toDecimal, hvalue]
  rfl

/-- Other decimals are written with their own digits, wherever the point is. -/
theorem toDecimal_ofDecimal_of_not_whole (negative : Bool) {x : Decimal} (hx : x.digits ≠ 0)
    (h : ¬ (0 ≤ x.exponent ∧ (Decimal.digitsOf x.digits).length + x.exponent ≤ 16)) :
    (ofDecimal negative x).toDecimal = x := by
  have hpos := Decimal.length_digitsOf_pos x.digits
  have hvalue := Decimal.ofDigits_digitsOf x.digits
  simp only [ofDecimal]
  rw [if_neg hx, if_neg h]
  split
  next hpoint =>
    simp only [toDecimal, List.take_append_drop, hvalue, Option.getD_none, List.length_drop]
    congr 1
    omega
  next =>
    split
    next hpoint =>
      have hzeros : Decimal.ofDigits 0 (['0'] ++
          (List.replicate (-((Decimal.digitsOf x.digits).length + x.exponent)).toNat '0' ++
            Decimal.digitsOf x.digits)) = x.digits := by
        show Decimal.ofDigits 0 (List.replicate _ '0' ++ _) = _
        rw [Decimal.ofDigits_append, Decimal.ofDigits_zeros, Nat.zero_mul, hvalue]
      simp only [toDecimal, hzeros, Option.getD_none, List.length_append, List.length_replicate]
      congr 1
      omega
    next =>
      simp only [toDecimal, List.take_append_drop, hvalue, Option.getD_some, List.length_drop]
      congr 1
      omega

theorem isGrammatical_ofDecimal (negative : Bool) (x : Decimal) :
    (ofDecimal negative x).IsGrammatical := by
  have hdigits := Decimal.digitsOf_isDigit x.digits
  have hall : ∀ c ∈ Decimal.digitsOf x.digits, c.isDigit = true := List.all_eq_true.mp hdigits
  have hzeros (k : Nat) : (List.replicate k '0').all Char.isDigit = true := by
    simp [List.all_replicate]
  obtain ⟨d, ds, hds⟩ := List.exists_cons_of_ne_nil (Decimal.digitsOf_ne_nil x.digits)
  simp only [ofDecimal]
  split
  · exact ⟨by simp, rfl, fun _ => rfl, rfl⟩
  next hx =>
    have hhead := Decimal.digitsOf_head_ne_zero hx
    rw [hds] at hhead
    split
    · refine ⟨by simp [hds], ?_, fun h => absurd ?_ hhead, rfl⟩
      · simp only [List.all_append, hdigits, hzeros, Bool.and_self]
      · simpa [hds] using h
    split
    next hpoint =>
      obtain ⟨k, hk⟩ := Nat.exists_eq_succ_of_ne_zero
        (n := ((Decimal.digitsOf x.digits).length + x.exponent).toNat) (by omega)
      rw [hk]
      refine ⟨by simp [hds], ?_, fun h => absurd ?_ hhead, ?_⟩
      · exact List.all_eq_true.mpr fun c hc => hall c (List.mem_of_mem_take hc)
      · simpa [hds] using h
      · exact List.all_eq_true.mpr fun c hc => hall c (List.mem_of_mem_drop hc)
    split
    · refine ⟨by simp, rfl, fun _ => rfl, ?_⟩
      simp only [List.all_append, hdigits, hzeros, Bool.and_self]
    · refine ⟨by simp [hds], ?_, fun _ => by simp [hds], ?_⟩
      · exact List.all_eq_true.mpr fun c hc => hall c (List.mem_of_mem_take hc)
      · exact List.all_eq_true.mpr fun c hc => hall c (List.mem_of_mem_drop hc)

end Numeral

/-- A magnitude whose shortest decimal has at most fifteen digits in front of its last place, and a
power of ten that is exact. -/
def Magnitude.IsShort (m : Magnitude) : Prop :=
  let x := m.shortest .even
  x.digits * Decimal.powerOfTen x.exponent.toNat < 10 ^ 15 ∧ -22 ≤ x.exponent

instance (m : Magnitude) : Decidable m.IsShort := inferInstanceAs (Decidable (_ ∧ _))

/-- A finite number with a short decimal. -/
def Binary64.IsShort : Binary64 → Prop
  | .finite _ m => m.IsShort
  | _ => False

instance : (x : Binary64) → Decidable x.IsShort
  | .finite _ m => inferInstanceAs (Decidable m.IsShort)
  | .infinite _ => isFalse id
  | .nan => isFalse id

namespace Numeral

open Magnitude

/-- A whole number below a power of ten has no more digits than that. -/
theorem length_digitsOf_add_le {x : Decimal} (hx : x.digits ≠ 0) (he : 0 ≤ x.exponent)
    (h : x.digits * Decimal.powerOfTen x.exponent.toNat < 10 ^ 15) :
    (Decimal.digitsOf x.digits).length + x.exponent ≤ 15 := by
  have hexponent : x.exponent.toNat < 15 := by
    refine Nat.lt_of_not_le fun hle => ?_
    have hpow : 10 ^ 15 ≤ Decimal.powerOfTen x.exponent.toNat :=
      Nat.pow_le_pow_right (by decide) hle
    have hmul := Nat.mul_le_mul (Nat.one_le_iff_ne_zero.mpr hx) hpow
    omega
  have hlength : (Decimal.digitsOf x.digits).length ≤ 15 - x.exponent.toNat := by
    refine Decimal.length_digitsOf_le (by omega) ?_
    refine Nat.lt_of_mul_lt_mul_right (a := Decimal.powerOfTen x.exponent.toNat) ?_
    refine Nat.lt_of_lt_of_eq h ?_
    show 10 ^ 15 = 10 ^ (15 - x.exponent.toNat) * 10 ^ x.exponent.toNat
    rw [← Nat.pow_add]
    congr 1
    omega
  omega

/-- A whole number and ten times it, a place further to the right, are the same. -/
theorem covers_tenfold {m : Magnitude} {x : Decimal} (he : 0 ≤ x.exponent)
    (h : m.covers (4 * (x.digits * Decimal.powerOfTen x.exponent.toNat * unitsPerOne))
      (Decimal.powerOfTen (-x.exponent).toNat) = true) :
    m.covers (4 * (x.digits * Decimal.powerOfTen x.exponent.toNat * 10 *
      Decimal.powerOfTen (-1 : Int).toNat * unitsPerOne))
        (Decimal.powerOfTen (-(-1) : Int).toNat) = true := by
  have hinverse : Decimal.powerOfTen (-x.exponent).toNat = 1 := by
    rw [Int.toNat_of_nonpos (by omega)]
    rfl
  rw [hinverse, ← covers_mul_right m _ _ (show 0 < 10 by decide)] at h
  have hmul (a u : Nat) : 4 * (a * 10 * Decimal.powerOfTen 0 * u) = 4 * (a * u) * 10 := by
    show 4 * (a * 10 * 1 * u) = 4 * (a * u) * 10
    ring
  show m.covers (4 * (_ * 10 * Decimal.powerOfTen 0 * unitsPerOne)) (1 * 10) = true
  rwa [hmul]

/-- What is written reads as the number that was written, if it is rounded correctly. -/
theorem toMagnitude_toDecimal (negative : Bool) (m : Magnitude) :
    (ofDecimal negative (m.shortest .even)).toDecimal.toMagnitude = some m := by
  by_cases hm : m.significand = 0
  · rw [shortest_zero .even hm, eq_zero_of_significand hm]
    rfl
  have hx := shortest_digits_ne_zero .even hm
  have hcovers := covers_shortest .even hm
  obtain ⟨-, hlow, hhigh⟩ := onGrid?_shortest .even hm
  generalize m.shortest .even = x at hx hcovers hlow hhigh ⊢
  by_cases h : 0 ≤ x.exponent ∧ (Decimal.digitsOf x.digits).length + x.exponent ≤ 16
  · have hpos : 0 < x.digits * Decimal.powerOfTen x.exponent.toNat :=
      Nat.mul_pos (Nat.pos_of_ne_zero hx) (powerOfTen_pos _)
    rw [toDecimal_ofDecimal_of_whole negative hx h]
    have hten : x.digits * Decimal.powerOfTen x.exponent.toNat * 10 ≠ 0 := by omega
    exact toMagnitude_of_covers hten (by simp) (by simp) (covers_tenfold h.1 hcovers)
  · rw [toDecimal_ofDecimal_of_not_whole negative hx h]
    exact toMagnitude_of_covers hx hlow hhigh hcovers

/-- The reader rounds a short number correctly. -/
theorem magnitude?_of_isShort (negative : Bool) {m : Magnitude} (h : m.IsShort) :
    (ofDecimal negative (m.shortest .even)).magnitude? = some m := by
  by_cases hm : m.significand = 0
  · rw [shortest_zero .even hm, eq_zero_of_significand hm]
    cases negative <;> decide +kernel
  obtain ⟨hlt, hlow⟩ := h
  have hx := shortest_digits_ne_zero .even hm
  have hcovers := covers_shortest .even hm
  generalize m.shortest .even = x at hlt hlow hx hcovers ⊢
  have hpos := Nat.pos_of_ne_zero hx
  have hsize : significandBound = 2 ^ 64 := rfl
  have hexponent := exponent_ofDecimal negative x
  have hlength := Decimal.length_digitsOf_pos x.digits
  by_cases he : 0 ≤ x.exponent
  · have hle := length_digitsOf_add_le hx he hlt
    have hdecimal := toDecimal_ofDecimal_of_whole negative hx ⟨he, by omega⟩
    have hwhole : 0 < x.digits * Decimal.powerOfTen x.exponent.toNat :=
      Nat.mul_pos hpos (powerOfTen_pos _)
    have hbound : x.digits * Decimal.powerOfTen x.exponent.toNat * 10 < significandBound := by
      omega
    rw [magnitude?_eq (by rwa [hdecimal]) (by omega) (by omega) (by rw [hdecimal]; simp), hdecimal]
    -- Ten times the number is even, so it fits although it may have 54 binary digits.
    have hten : x.digits * Decimal.powerOfTen x.exponent.toNat * 10 =
        x.digits * Decimal.powerOfTen x.exponent.toNat * 5 * 2 ^ 1 := by ring
    have htenfold := covers_tenfold he hcovers
    simp only [hten] at htenfold ⊢
    exact scale_of_covers (by omega) (by omega) (by decide) (by decide) (by decide) htenfold
  · have hforward : Decimal.powerOfTen x.exponent.toNat = 1 := by
      rw [Int.toNat_of_nonpos (by omega)]
      rfl
    rw [hforward, Nat.mul_one] at hlt
    have hle := Decimal.length_digitsOf_le (by decide) hlt
    have hdecimal := toDecimal_ofDecimal_of_not_whole negative hx fun h => he h.1
    rw [magnitude?_eq (by rw [hdecimal]; omega) (by omega) (by omega) (by rw [hdecimal]; omega),
      hdecimal]
    have hcast : x.digits * 2 ^ 0 = x.digits := Nat.mul_one _
    rw [← hcast]
    refine scale_of_covers hpos (by omega) (by decide) hlow (by omega) ?_
    rwa [hcast]

end Numeral

namespace Json

theorem isGrammatical_float (x : Binary64) : (float x).IsGrammatical := by
  cases x with
  | finite negative m => exact .number (Numeral.isGrammatical_ofDecimal negative _)
  | infinite _ => exact .null
  | nan => exact .null

/-- Finite numbers are told apart by what is written. -/
theorem float_finite_inj {a b : Bool} {m k : Magnitude}
    (h : float (.finite a m) = float (.finite b k)) : a = b ∧ m = k := by
  have hnumeral : Numeral.ofDecimal a (m.shortest .even) =
      Numeral.ofDecimal b (k.shortest .even) := Json.number.inj h
  have hsign := congrArg Numeral.negative hnumeral
  have hmagnitude := congrArg (fun n => n.toDecimal.toMagnitude) hnumeral
  simp only [Numeral.negative_ofDecimal, Numeral.toMagnitude_toDecimal, Option.some.injEq]
    at hsign hmagnitude
  exact ⟨hsign, hmagnitude⟩

/-- A short number is read back. -/
theorem float?_float_of_isShort {x : Binary64} (h : x.IsShort) : (float x).float? = some x := by
  cases x with
  | finite negative m =>
    show Option.map (Binary64.finite _) _ = _
    rw [Numeral.magnitude?_of_isShort negative h, Numeral.negative_ofDecimal]
    rfl
  | infinite _ => exact h.elim
  | nan => exact h.elim

end Json

end EngineBench
