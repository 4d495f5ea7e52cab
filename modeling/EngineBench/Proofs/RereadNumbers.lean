import EngineBench.Proofs.JsonNumbers

/-!
# Every number that is written is read

The reader of floating-point numbers rounds twice, so a number may be read as another one. But it is
read as some number: two roundings add so little that they lead beyond the largest number from next
to it only, and there they do not.

* `Magnitude.gridUnits_ofUnits_bounds`: a rounding adds at most one part in `2 ^ 53`.
* `Magnitude.ofUnits_isSome`: what is below the last midpoint is not rounded to overflow.
* `Numeral.scale_isSome_of_neg` and `Numeral.scale_isSome` are the two ways a number is scaled.
* `Json.float?_float_isSome_iff`: exactly the finite numbers are read.
-/

namespace EngineBench

/-- A quotient is rounded by at most a half. -/
theorem divNearest_halfStep (n : Nat) {d : Nat} (hd : 0 < d) :
    2 * (divNearest n d * d) ≤ 2 * n + d ∧ 2 * n ≤ 2 * (divNearest n d * d) + d := by
  have hdiv := Nat.div_add_mod n d
  have hmod := Nat.mod_lt n hd
  have hsucc : (n / d + 1) * d = n / d * d + d := Nat.succ_mul _ _
  rw [Nat.mul_comm] at hdiv
  simp only [divNearest]
  repeat' split
  all_goals omega

namespace Magnitude

variable {n d : Nat}

/-! ## One rounding -/

theorem overflowUnits_eq_topStep : overflowUnits = 2 ^ 53 * topStep := by decide +kernel

theorem shiftFor_le (hd : 0 < d) (h : n < overflowUnits * d) : shiftFor n d ≤ 2045 := by
  refine Classical.byContradiction fun hshift => ?_
  exact absurd h (Nat.not_lt.mpr (overflowUnits_mul_le hd hshift))

/-- A rounded number is at most half a step away. -/
theorem gridUnits_halfStep (hd : 0 < d) (hshift : shiftFor n d ≤ 2045) :
    2 * (gridUnits (ofUnits n d) * d) ≤ 2 * n + d * 2 ^ shiftFor n d ∧
      2 * n ≤ 2 * (gridUnits (ofUnits n d) * d) + d * 2 ^ shiftFor n d := by
  have hnearest := divNearest_halfStep n (Nat.mul_pos hd (Nat.two_pow_pos (shiftFor n d)))
  rw [(ofUnits_spec hshift).1, Nat.shiftLeft_eq, Nat.mul_assoc, Nat.mul_comm (2 ^ _) d]
  exact hnearest

/-- A number of 53 binary digits or more consists of many steps. -/
theorem mul_step_le (hd : 0 < d) (hlow : 2 ^ 53 * d ≤ n) :
    2 ^ 52 * (d * 2 ^ shiftFor n d) ≤ n := by
  have hquotient := (Nat.le_div_iff_mul_le hd).mpr hlow
  have hne : shiftFor n d ≠ 0 := by
    have hlog := (Nat.le_log2 (by omega)).mpr hquotient
    rw [shiftFor]
    omega
  have hstep := le_div_shiftFor n d hne
  rwa [Nat.one_shiftLeft, Nat.shiftLeft_eq,
    Nat.le_div_iff_mul_le (Nat.mul_pos hd (Nat.two_pow_pos _))] at hstep

/-- A rounding adds at most one part in `2 ^ 53`, and leaves at least a half. -/
theorem gridUnits_ofUnits_bounds (hd : 0 < d) (hlow : 2 ^ 53 * d ≤ n)
    (hhigh : n < overflowUnits * d) :
    gridUnits (ofUnits n d) * d * 2 ^ 53 ≤ n * (2 ^ 53 + 1) ∧
      n ≤ 2 * (gridUnits (ofUnits n d) * d) := by
  obtain ⟨hup, hdown⟩ := gridUnits_halfStep hd (shiftFor_le hd hhigh)
  have hstep := mul_step_le hd hlow
  omega

/-- What is below the midpoint between the largest magnitude and overflow does not overflow. -/
theorem ofUnits_isSome (hd : 0 < d) (h : 2 * n + d * topStep < 2 * (overflowUnits * d)) :
    (ofUnits n d).isSome := by
  have hshift := shiftFor_le hd (by omega : n < overflowUnits * d)
  cases hr : ofUnits n d with
  | some m => rfl
  | none =>
    obtain ⟨hhalf, -⟩ := gridUnits_halfStep hd hshift
    have hstep := Nat.mul_le_mul_left d (two_pow_le_topStep hshift)
    rw [hr, gridUnits] at hhalf
    omega

/-- There is a gap below overflow too. -/
theorem units_add_topStep_le (m : Magnitude) : m.units + topStep ≤ overflowUnits := by
  have hlt := units_lt_overflowUnits m
  have hgap := units_add_le (m := m) (k := 2045) (Nat.le_refl _)
  rw [overflowUnits_eq_topStep] at hlt ⊢
  rw [topStep] at hlt ⊢
  generalize 2045 = top at hlt hgap ⊢
  rw [Nat.one_shiftLeft] at hlt ⊢
  exact hgap hlt

/-- A quotient by one or more does not overflow. -/
theorem div_isSome (m : Magnitude) {b : Magnitude} (hb : unitsPerOne ≤ b.units) :
    (m.div b).isSome := by
  have hpos : 0 < b.units := Nat.lt_of_lt_of_le unitsPerOne_pos hb
  have hle := Nat.mul_le_mul_left m.units hb
  have hgap := Nat.mul_le_mul_left b.units m.units_add_topStep_le
  have hstep := Nat.mul_pos hpos topStep_pos
  refine ofUnits_isSome hpos ?_
  rw [Nat.mul_add, Nat.mul_comm _ m.units, Nat.mul_comm _ overflowUnits] at hgap
  omega

/-! ## Two roundings -/

/-- Two roundings of what is read as a magnitude, except for the two largest. -/
theorem twiceRounded_lt {m : Magnitude} (h : m.shift ≠ 2045 ∨ m.significand + 3 ≤ 2 ^ 53) :
    (2 * m.significand + 1) * 2 ^ m.shift * (2 ^ 53 + 1) ^ 2 <
      (2 ^ 54 - 1) * topStep * 2 ^ 106 := by
  have hmax := m.significand_lt'
  have hshift := m.shift_le
  have htop := topStep_pos
  by_cases hlow : m.shift + 1 ≤ 2045
  · have hpow := two_pow_le_topStep hlow
    rw [Nat.pow_succ] at hpow
    have hmul := Nat.mul_le_mul (by omega : 2 * m.significand + 1 ≤ 2 ^ 54 - 1) hpow
    rw [← Nat.mul_assoc] at hmul
    omega
  · have hmul := Nat.mul_le_mul (by omega : 2 * m.significand + 1 ≤ 2 ^ 54 - 5)
      (two_pow_le_topStep hshift)
    omega

/-- The product of two rounded numbers does not overflow if their exact product is read as a
magnitude that is not one of the two largest. -/
theorem mul_isSome {m a b : Magnitude} {p q : Nat}
    (h : m.shift ≠ 2045 ∨ m.significand + 3 ≤ 2 ^ 53)
    (ha : a.units * 2 ^ 53 ≤ p * unitsPerOne * (2 ^ 53 + 1))
    (hb : b.units * 2 ^ 53 ≤ q * unitsPerOne * (2 ^ 53 + 1))
    (hpq : 2 * (p * q * unitsPerOne) ≤ (2 * m.significand + 1) * 2 ^ m.shift) :
    (a.mul b).isSome := by
  have hU := unitsPerOne_pos
  have hround := twiceRounded_lt h
  have hproduct :
      2 * (a.units * b.units) * 2 ^ 106 < (2 ^ 54 - 1) * topStep * unitsPerOne * 2 ^ 106 :=
    calc 2 * (a.units * b.units) * 2 ^ 106
        = 2 * (a.units * 2 ^ 53 * (b.units * 2 ^ 53)) := by ring
      _ ≤ 2 * (p * unitsPerOne * (2 ^ 53 + 1) * (q * unitsPerOne * (2 ^ 53 + 1))) :=
        Nat.mul_le_mul_left 2 (Nat.mul_le_mul ha hb)
      _ = 2 * (p * q * unitsPerOne) * ((2 ^ 53 + 1) ^ 2 * unitsPerOne) := by ring
      _ ≤ (2 * m.significand + 1) * 2 ^ m.shift * ((2 ^ 53 + 1) ^ 2 * unitsPerOne) :=
        Nat.mul_le_mul_right _ hpq
      _ = (2 * m.significand + 1) * 2 ^ m.shift * (2 ^ 53 + 1) ^ 2 * unitsPerOne :=
        (Nat.mul_assoc _ _ _).symm
      _ < (2 ^ 54 - 1) * topStep * 2 ^ 106 * unitsPerOne :=
        Nat.mul_lt_mul_of_pos_right hround hU
      _ = (2 ^ 54 - 1) * topStep * unitsPerOne * 2 ^ 106 := Nat.mul_right_comm _ _ _
  have hlt := Nat.lt_of_mul_lt_mul_right hproduct
  refine ofUnits_isSome hU ?_
  rw [overflowUnits_eq_topStep]
  rw [Nat.mul_assoc] at hlt ⊢
  rw [Nat.mul_comm unitsPerOne]
  omega

/-- A whole number that is not too large is rounded to a magnitude. -/
theorem exists_ofRatio_le {n : Nat} (hpos : 0 < n) (hn : n ≤ Decimal.powerOfTen 308) :
    ∃ m, ofRatio n 1 = some m ∧ n * unitsPerOne ≤ 2 * m.units ∧
      m.units * 2 ^ 53 ≤ n * unitsPerOne * (2 ^ 53 + 1) := by
  have hone : 2 ^ 53 ≤ unitsPerOne := by decide +kernel
  have hedge : 2 * (Decimal.powerOfTen 308 * unitsPerOne) + topStep < 2 * overflowUnits := by
    decide +kernel
  have hle := Nat.mul_le_mul_right unitsPerOne hn
  have hlow := Nat.le_mul_of_pos_left unitsPerOne hpos
  obtain ⟨m, hm⟩ := Option.isSome_iff_exists.mp
    (ofUnits_isSome (n := n * unitsPerOne) Nat.one_pos (by omega))
  obtain ⟨hround, hhalf⟩ :=
    gridUnits_ofUnits_bounds (n := n * unitsPerOne) Nat.one_pos (by omega) (by omega)
  rw [hm, gridUnits, Nat.mul_one] at hround hhalf
  exact ⟨m, hm, hhalf, hround⟩

end Magnitude

namespace Numeral

open Magnitude

/-! ## Scaling -/

theorem powerOfTen_le {k n : Nat} (h : k ≤ n) : Decimal.powerOfTen k ≤ Decimal.powerOfTen n :=
  Nat.pow_le_pow_right (by decide) h

/-- A power of ten is at least one, also when it is rounded. -/
theorem unitsPerOne_le_power {k : Nat} (hk : k ≤ maxPower) : unitsPerOne ≤ (power k).units := by
  cases k with
  | zero => decide +kernel
  | succ k =>
    obtain ⟨b, hb, hhalf, -⟩ := exists_ofRatio_le (powerOfTen_pos (k + 1)) (powerOfTen_le hk)
    have hten : 10 * unitsPerOne ≤ Decimal.powerOfTen (k + 1) * unitsPerOne :=
      Nat.mul_le_mul_right _ (powerOfTen_le (k := 1) (Nat.succ_pos k))
    rw [power, hb, Option.getD_some]
    omega

/-- A magnitude that is made smaller does not overflow. -/
theorem scale_isSome_of_neg (m : Magnitude) {e : Int} (he : e < 0) : (scale m e).isSome := by
  fun_induction scale m e with
  | case1 => rfl
  | case2 m e _ hnonneg | case3 m e _ hnonneg => omega
  | case4 m e _ _ hmax => exact m.div_isSome (unitsPerOne_le_power (by omega))
  | case5 m e _ _ hmax ih =>
    obtain ⟨m', hm'⟩ := Option.isSome_iff_exists.mp
      (m.div_isSome (unitsPerOne_le_power (Nat.le_refl maxPower)))
    rw [hm', Option.bind_some]
    exact ih m' (by simp only [maxPower] at hmax ⊢; omega)

/-- The digits of a magnitude that is not one of the two largest are read as a number. -/
theorem scale_isSome {m : Magnitude} {x : Decimal} (hx : x.digits ≠ 0)
    (hdigits : x.digits < 10 * 2 ^ 55) (hexponent : x.exponent ≤ 308)
    (hcovers : m.covers (4 * (x.digits * Decimal.powerOfTen x.exponent.toNat * unitsPerOne))
      (Decimal.powerOfTen (-x.exponent).toNat) = true)
    (h : m.shift ≠ 2045 ∨ m.significand + 3 ≤ 2 ^ 53) :
    ((Magnitude.ofRatio x.digits 1).bind fun a => scale a x.exponent).isSome := by
  have hbound : 10 * 2 ^ 55 ≤ Decimal.powerOfTen 308 := by decide +kernel
  obtain ⟨a, ha, -, hunits⟩ := exists_ofRatio_le (Nat.pos_of_ne_zero hx) (by omega)
  rw [ha, Option.bind_some]
  by_cases he : x.exponent < 0
  · exact scale_isSome_of_neg a he
  · have hk : x.exponent.toNat ≤ 308 := by omega
    obtain ⟨b, hb, -, hpower⟩ := exists_ofRatio_le (powerOfTen_pos _) (powerOfTen_le hk)
    have hinverse : Decimal.powerOfTen (-x.exponent).toNat = 1 := by
      rw [Int.toNat_of_nonpos (by omega)]
      rfl
    obtain ⟨-, hhalf, -⟩ := halfStep_of_covers hcovers
    rw [hinverse, Nat.one_mul, ← Nat.mul_assoc 2 m.significand, ← Nat.succ_mul] at hhalf
    have hscaled : power x.exponent.toNat = b := by rw [power, hb, Option.getD_some]
    rw [scale, hscaled]
    split
    · rfl
    · rw [if_pos (by omega), if_pos (by simp only [maxPower]; omega)]
      exact mul_isSome h hunits hpower hhalf

/-- The two largest magnitudes are read too. -/
theorem magnitude?_isSome_of_large (negative : Bool) {m : Magnitude} (hshift : m.shift = 2045)
    (hsignificand : 2 ^ 53 ≤ m.significand + 2) :
    (ofDecimal negative (m.shortest .even)).magnitude?.isSome := by
  have hmax := m.significand_lt'
  have hlast : (ofDecimal negative (shortest .even
      ⟨9007199254740991, 2045, by decide, by decide, by decide⟩)).magnitude?.isSome := by
    cases negative <;> decide +kernel
  have hlastButOne : (ofDecimal negative (shortest .even
      ⟨9007199254740990, 2045, by decide, by decide, by decide⟩)).magnitude?.isSome := by
    cases negative <;> decide +kernel
  have hcases : m.significand = 9007199254740991 ∨ m.significand = 9007199254740990 := by omega
  cases m
  dsimp only at hshift hcases
  subst hshift
  obtain rfl | rfl := hcases
  · exact hlast
  · exact hlastButOne

/-- A whole number that is written without exponent has at most sixteen digits. -/
theorem whole_lt_of_length {x : Decimal}
    (h : 0 ≤ x.exponent ∧ (Decimal.digitsOf x.digits).length + x.exponent ≤ 16) :
    x.digits * Decimal.powerOfTen x.exponent.toNat < 10 ^ 16 := by
  have hdigits := Nat.mul_lt_mul_of_pos_right (Decimal.lt_powerOfTen_length x.digits)
    (powerOfTen_pos x.exponent.toNat)
  calc x.digits * Decimal.powerOfTen x.exponent.toNat
      < 10 ^ (Decimal.digitsOf x.digits).length * 10 ^ x.exponent.toNat := hdigits
    _ = 10 ^ ((Decimal.digitsOf x.digits).length + x.exponent.toNat) := (Nat.pow_add ..).symm
    _ ≤ 10 ^ 16 := Nat.pow_le_pow_right (by decide) (by omega)

/-- What is written for a magnitude is read as some magnitude. -/
theorem magnitude?_isSome (negative : Bool) (m : Magnitude) :
    (ofDecimal negative (m.shortest .even)).magnitude?.isSome := by
  by_cases hm : m.significand = 0
  · rw [shortest_zero .even hm]
    cases negative <;> decide +kernel
  by_cases hlarge : m.shift = 2045 ∧ 2 ^ 53 ≤ m.significand + 2
  · exact magnitude?_isSome_of_large negative hlarge.1 hlarge.2
  have hx := shortest_digits_ne_zero .even hm
  have hdigits := shortest_digits_lt .even m
  have hcovers := covers_shortest .even hm
  obtain ⟨-, hlow, hhigh⟩ := onGrid?_shortest .even hm
  generalize m.shortest .even = x at hx hdigits hcovers hlow hhigh ⊢
  have hsize : significandBound = 2 ^ 64 := rfl
  have hexponent := exponent_ofDecimal negative x
  have hpos := Decimal.length_digitsOf_pos x.digits
  have hlength : (Decimal.digitsOf x.digits).length ≤ 18 :=
    Decimal.length_digitsOf_le (by decide) (by omega)
  by_cases hwhole : 0 ≤ x.exponent ∧ (Decimal.digitsOf x.digits).length + x.exponent ≤ 16
  · -- A short whole number is scaled by a tenth only.
    have hdecimal := toDecimal_ofDecimal_of_whole negative hx hwhole
    have hlt := whole_lt_of_length hwhole
    have hbound : x.digits * Decimal.powerOfTen x.exponent.toNat * 10 < significandBound := by omega
    rw [magnitude?_eq (by rwa [hdecimal]) (by omega) (by omega) (by rw [hdecimal]; simp), hdecimal]
    have hwhole : 0 < x.digits * Decimal.powerOfTen x.exponent.toNat :=
      Nat.mul_pos (Nat.pos_of_ne_zero hx) (powerOfTen_pos _)
    have hten : 10 ^ 17 ≤ Decimal.powerOfTen 308 := by decide +kernel
    obtain ⟨a, ha, -⟩ := exists_ofRatio_le (Nat.mul_pos hwhole (by decide : 0 < 10)) (by omega)
    rw [ha, Option.bind_some]
    exact scale_isSome_of_neg a (show (-1 : Int) < 0 by decide)
  · have hdecimal := toDecimal_ofDecimal_of_not_whole negative hx hwhole
    rw [magnitude?_eq (by rw [hdecimal]; omega) (by omega) (by omega) (by rw [hdecimal]; omega),
      hdecimal]
    exact scale_isSome hx hdigits hhigh hcovers (by omega)

end Numeral

/-- Exactly the finite numbers are read from what is written. -/
theorem Json.float?_float_isSome_iff {x : Binary64} :
    (float x).float?.isSome ↔ x.isFinite = true := by
  cases x with
  | finite negative m =>
    refine iff_of_true ?_ rfl
    show (Option.map (Binary64.finite _) _).isSome = true
    rw [Option.isSome_map]
    exact Numeral.magnitude?_isSome negative m
  | infinite _ => exact iff_of_false nofun nofun
  | nan => exact iff_of_false nofun nofun

end EngineBench
