import EngineBench.Proofs.DurationText

/-!
# Durations that are read exactly

A duration text passes through binary floating point, where most decimals have no exact value. In
the range that durations are given in, the two roundings on the way are together off by less than
half a nanosecond, so that the rounding to nanoseconds takes them back.

* `Duration.parse_exact`: seconds with up to nine digits behind the point, whole milliseconds and
  whole minutes are read exactly.
-/

namespace EngineBench

open Magnitude

namespace Text

theorem trimLeft_eq_self {cs : List Char} (h : ∀ c ∈ cs, isSpace c = false) : trimLeft cs = cs := by
  cases cs with
  | nil => rfl
  | cons c r =>
    have hc : ¬ isSpace c = true := by
      rw [h c List.mem_cons_self]
      decide
    exact List.dropWhile_cons_of_neg hc

theorem trim_eq_self {cs : List Char} (h : ∀ c ∈ cs, isSpace c = false) : trim cs = cs := by
  have hreverse : ∀ c ∈ cs.reverse, isSpace c = false := fun c hc => h c (List.mem_reverse.mp hc)
  rw [trim, trimLeft_eq_self h, trimLeft_eq_self hreverse, List.reverse_reverse]

/-- A character of a decimal number, neither white space nor a letter. -/
def IsPlain (c : Char) : Prop := isSpace c = false ∧ isAlphabetic c = false

/-- A character of a unit, not white space but a letter. -/
def isLetter (c : Char) : Bool := !isSpace c && isAlphabetic c

theorem isPlain_of_isDigit {c : Char} (h : c.isDigit = true) : IsPlain c := by
  simp only [Char.isDigit, Bool.and_eq_true, decide_eq_true_eq, UInt32.le_iff_toNat_le] at h
  obtain ⟨hlow, hhigh⟩ : 48 ≤ c.toNat ∧ c.toNat ≤ 57 := h
  constructor
  · simp only [isSpace, Bool.or_eq_false_iff, Bool.and_eq_false_iff, decide_eq_false_iff_not]
    omega
  · -- The letters of both cases lie above the digits.
    have habove {low : UInt32} (hlow : 57 < low.toNat) : ¬ c.val ≥ low := by
      rw [ge_iff_le, UInt32.le_iff_toNat_le]
      show ¬ low.toNat ≤ c.toNat
      omega
    have hupper : c.isUpper = false := decide_eq_false fun h => habove (by decide) h.1
    have hlower : c.isLower = false := by
      show (decide (c.val ≥ 97) && _) = false
      rw [decide_eq_false (habove (by decide))]
      rfl
    show (c.isUpper || c.isLower || _) = false
    rw [hupper, hlower, decide_eq_false (by omega)]
    rfl

end Text

namespace Decimal

/-- A decimal number with a sign and at most `places` digits behind the point. -/
inductive Written (places : ℕ) : ℚ → String → Prop
  | intro {negative : Bool} {sign cs : List Char} {x : Decimal} : Sign negative sign →
      Positional x cs → -(places : ℤ) ≤ x.exponent →
      Written places (if negative then -x.value else x.value) (String.ofList (sign ++ cs))

theorem Sign.isPlain {negative : Bool} {sign : List Char} (h : Sign negative sign) :
    ∀ c ∈ sign, Text.IsPlain c := by
  intro c hc
  cases h with
  | none => cases hc
  | plus =>
    obtain rfl := List.mem_singleton.mp hc
    exact ⟨by decide, by decide⟩
  | minus =>
    obtain rfl := List.mem_singleton.mp hc
    exact ⟨by decide, by decide⟩

theorem Positional.isPlain {x : Decimal} {cs : List Char} (h : Positional x cs) :
    ∀ c ∈ cs, Text.IsPlain c := by
  cases h with
  | @intro whole fraction point hwhole hfraction hne =>
    intro c hc
    have hdigit {ds : List Char} (hds : ds.all Char.isDigit = true) (hc : c ∈ ds) :
        Text.IsPlain c := Text.isPlain_of_isDigit (List.all_eq_true.mp hds c hc)
    rcases List.mem_append.mp hc with hc | hc
    · exact hdigit hwhole hc
    · cases hfraction with
      | none => cases hc
      | point hds =>
        rcases List.mem_cons.mp hc with rfl | hc
        · exact ⟨by decide, by decide⟩
        · exact hdigit hds hc

/-- The digits of a whole number are a decimal number. -/
theorem positional_digitsOf (n : ℕ) : Positional ⟨n, 0⟩ (digitsOf n) := by
  have h := Positional.intro (digitsOf_isDigit n) .none fun hnil => digitsOf_ne_nil n hnil.1
  rwa [List.append_nil, ofDigits_digitsOf] at h

/-- With so many digits behind the point, that power of ten makes a whole number. -/
theorem value_mul_powerOfTen {x : Decimal} (places : ℕ) (h : -(places : ℤ) ≤ x.exponent) :
    x.value * 10 ^ places = (x.digits * 10 ^ (places + x.exponent).toNat : ℕ) := by
  have hexponent : x.exponent + places = ((places + x.exponent).toNat : ℤ) := by omega
  calc x.value * 10 ^ places
      = x.digits * (10 ^ x.exponent * 10 ^ (places : ℤ)) := by
        rw [value, zpow_natCast, mul_assoc]
    _ = x.digits * 10 ^ (places + x.exponent).toNat := by
        rw [← zpow_add₀ (by norm_num), hexponent, zpow_natCast]
    _ = (x.digits * 10 ^ (places + x.exponent).toNat : ℕ) := by
        rw [Nat.cast_mul, Nat.cast_pow, Nat.cast_ofNat]

end Decimal

namespace Duration

open Decimal

/-! ## Less than half a nanosecond -/

theorem perSecond_cast : (perSecond : ℚ) = 10 ^ 9 := by norm_num [perSecond]

/-- A whole number of nanoseconds is found again if it was missed by less than half a
nanosecond. -/
theorem rounds_of_near {d : Duration} {y seconds : ℚ} (hd : (d.nanoseconds : ℚ) = y * perSecond)
    (hnear : |y - seconds| * perSecond < 1 / 2) (hy : y < 2 ^ 64) : d.Rounds seconds := by
  have hpos : (0 : ℚ) < perSecond := by
    rw [perSecond_cast]
    positivity
  constructor
  · have hlt : |seconds * perSecond - d.nanoseconds| < 1 / 2 := by
      rwa [hd, ← sub_mul, abs_mul, abs_of_pos hpos, abs_sub_comm]
    exact Grid.nearest_whole hlt.le fun htie => absurd htie hlt.ne
  · have hlt : (d.nanoseconds : ℚ) < 2 ^ 64 * perSecond := by
      rw [hd]
      exact mul_lt_mul_of_pos_right hy hpos
    exact_mod_cast hlt

/-- A number in front of a unit is read, however the unit is written. -/
theorem parse_append {number : List Char} (unit : List Char) {value seconds : Magnitude}
    {scale : Scale} {d : Duration} (hplain : ∀ c ∈ number, Text.IsPlain c)
    (hunit : unit.all Text.isLetter = true)
    (hscale : String.ofList (unit.map Char.toLower) ∈ scale.names)
    (hamount : Amount value number)
    (hseconds : grid.Nearest (value.value * scale.factor) (some seconds))
    (hd : d.Rounds seconds.value) : parse (String.ofList (number ++ unit)) = .ok d := by
  have htrim : Text.trim number = number := Text.trim_eq_self fun c hc => (hplain c hc).1
  have hletter (c : Char) (hc : c ∈ unit) : Text.isSpace c = false ∧ Text.isAlphabetic c = true := by
    simpa [Text.isLetter] using List.all_eq_true.mp hunit c hc
  refine Spells.parse_eq ?_
  refine .intro ?_ (fun c hc => (hplain c hc).2) ?_ (by rwa [htrim]) hscale hseconds hd
  · rw [String.toList_ofList]
    refine Text.trim_eq_self fun c hc => ?_
    rcases List.mem_append.mp hc with hc | hc
    · exact (hplain c hc).1
    · exact (hletter c hc).1
  · intro c hc
    exact (hletter c (List.mem_of_mem_head? hc)).2

/-! ## Seconds -/

/-- A number of seconds below `2 ^ 22` is read to within `2 ^ -32`. -/
theorem exists_amount_of_lt {x : Decimal} (hx : x.value < 2 ^ 22) :
    ∃ v : Magnitude, grid.Nearest x.value (some v) ∧ |x.value - v.value| * perSecond < 1 / 2 := by
  obtain ⟨v, hnearest, hnear⟩ := exists_nearest (k := 31) (by decide) x.value_nonneg (by linarith)
  refine ⟨v, hnearest, ?_⟩
  rw [perSecond_cast]
  linarith

/-- A sign does not matter in front of zero, and a minus sign stands nowhere else. -/
theorem amount_of_nearest {negative : Bool} {sign cs : List Char} {x : Decimal} {v : Magnitude}
    (hsign : Sign negative sign) (hpositional : Positional x cs)
    (hzero : negative = true → x.value = 0) (hnearest : grid.Nearest x.value (some v)) :
    Amount v (sign ++ cs) := by
  refine .intro hsign hpositional hnearest fun hnegative => ?_
  rw [hzero hnegative, ← value_zero, ← grid_point_some] at hnearest
  rw [← Option.some.inj ((grid.nearest_point _).unique hnearest), value_zero]

theorem parse_seconds {v : ℚ} {s : String} (h : Written 9 v s) (hv : 0 ≤ v) (hlt : v < 2 ^ 22) :
    ∃ d : Duration, (d.nanoseconds : ℚ) = v * perSecond ∧ parse s = .ok d ∧
      parse (s ++ "s") = .ok d := by
  cases h with
  | @intro negative sign cs x hsign hpositional hplaces =>
    -- A minus sign stands in front of zero.
    have hx : (if negative then -x.value else x.value) = x.value ∧
        (negative = true → x.value = 0) := by
      cases negative with
      | false => exact ⟨rfl, nofun⟩
      | true =>
        have hzero : x.value = 0 := le_antisymm (neg_nonneg.mp hv) x.value_nonneg
        exact ⟨by simp [hzero], fun _ => hzero⟩
    rw [hx.1] at hlt ⊢
    obtain ⟨seconds, hnearest, hnear⟩ := exists_amount_of_lt hlt
    have hamount := amount_of_nearest hsign hpositional hx.2 hnearest
    have hplain : ∀ c ∈ sign ++ cs, Text.IsPlain c := by
      intro c hc
      rcases List.mem_append.mp hc with hc | hc
      · exact hsign.isPlain c hc
      · exact hpositional.isPlain c hc
    have hself : grid.Nearest (seconds.value * Scale.seconds.factor) (some seconds) := by
      rw [Scale.factor, mul_one]
      exact grid.nearest_point (some seconds)
    obtain ⟨d, hd⟩ : ∃ d : Duration, (d.nanoseconds : ℚ) = x.value * perSecond := by
      rw [perSecond_cast, value_mul_powerOfTen 9 hplaces]
      exact ⟨⟨_⟩, rfl⟩
    have hrounds : d.Rounds seconds.value := rounds_of_near hd hnear (by linarith)
    refine ⟨d, hd, ?_, ?_⟩
    · have hparse := parse_append [] hplain rfl (by decide) hamount hself hrounds
      rwa [List.append_nil] at hparse
    · have hparse := parse_append ['s'] hplain (by decide) (by decide) hamount hself hrounds
      rwa [String.ofList_append] at hparse

/-! ## Milliseconds and minutes -/

theorem exists_amount_nat {n : ℕ} (hn : n < 2 ^ 32) :
    ∃ v : Magnitude, v.value = n ∧ Amount v (digitsOf n) := by
  obtain ⟨v, hnearest, hv⟩ := exists_nearest_nat (by omega : n ≤ 2 ^ 53)
  refine ⟨v, hv, ?_⟩
  have hvalue : (⟨n, 0⟩ : Decimal).value = n := by rw [Decimal.value, zpow_zero, mul_one]
  rw [← hvalue] at hnearest
  refine .intro .none (positional_digitsOf n) hnearest ?_
  intro hnegative
  cases hnegative

theorem parse_toString {n : ℕ} (hn : n < 2 ^ 32) {unit : String} {scale : Scale} {d : Duration}
    {seconds : Magnitude}
    (hunit : unit.toList.all Text.isLetter = true)
    (hscale : String.ofList (unit.toList.map Char.toLower) ∈ scale.names)
    (hseconds : grid.Nearest (n * scale.factor) (some seconds)) (hd : d.Rounds seconds.value) :
    parse (toString n ++ unit) = .ok d := by
  obtain ⟨v, hv, hamount⟩ := exists_amount_nat hn
  rw [← hv] at hseconds
  have hparse := parse_append _ (positional_digitsOf n).isPlain hunit hscale hamount hseconds hd
  rwa [String.ofList_append, String.ofList_toList] at hparse

theorem parse_milliseconds {n : ℕ} (hn : n < 2 ^ 32) :
    parse (toString n ++ "ms") = .ok (ofMilliseconds n) := by
  have hcast : (n : ℚ) < 2 ^ 32 := by exact_mod_cast hn
  obtain ⟨seconds, hnearest, hnear⟩ :=
    exists_nearest (x := n * Scale.milliseconds.factor) (k := 30) (by decide)
      (by rw [Scale.factor]; positivity) (by rw [Scale.factor]; linarith)
  refine parse_toString hn (by decide) (by decide) hnearest ?_
  refine rounds_of_near (y := n * Scale.milliseconds.factor) ?_ ?_ ?_
  · rw [ofMilliseconds, Scale.factor, perSecond_cast]
    push_cast
    ring
  · rw [perSecond_cast]
    linarith
  · rw [Scale.factor]
    linarith

theorem parse_minutes {n : ℕ} (hn : n < 2 ^ 32) {unit : String}
    (hunit : unit = "m" ∨ unit = "min") :
    parse (toString n ++ unit) = .ok (ofSeconds (60 * n)) := by
  have hcast : (n : ℚ) < 2 ^ 32 := by exact_mod_cast hn
  obtain ⟨seconds, hnearest, hseconds⟩ := exists_nearest_nat (by omega : 60 * n ≤ 2 ^ 53)
  have hminutes : ((60 * n : ℕ) : ℚ) = n * Scale.minutes.factor := by
    rw [Scale.factor]
    push_cast
    ring
  have hrounds : (ofSeconds (60 * n)).Rounds seconds.value := by
    refine rounds_of_near (y := seconds.value) ?_ ?_ ?_
    · rw [ofSeconds, hseconds, Nat.cast_mul]
    · rw [sub_self, abs_zero, zero_mul]
      norm_num
    · rw [hseconds]
      push_cast
      linarith
  rw [hminutes] at hnearest
  refine parse_toString hn ?_ ?_ hnearest hrounds
  · rcases hunit with rfl | rfl <;> decide
  · rcases hunit with rfl | rfl <;> decide

/-- **Durations in decimal are exact:** seconds below `2 ^ 22` with up to nine digits behind the
point, and milliseconds and minutes below `2 ^ 32`. -/
theorem parse_exact :
    (∀ (v : ℚ) (s : String), Written 9 v s → 0 ≤ v → v < 2 ^ 22 →
      ∃ d : Duration, (d.nanoseconds : ℚ) = v * perSecond ∧ parse s = .ok d ∧
        parse (s ++ "s") = .ok d) ∧
    (∀ n : ℕ, n < 2 ^ 32 →
      parse (toString n ++ "ms") = .ok (ofMilliseconds n) ∧
      parse (toString n ++ "m") = .ok (ofSeconds (60 * n)) ∧
      parse (toString n ++ "min") = .ok (ofSeconds (60 * n))) := by
  refine ⟨fun v s h hv hlt => parse_seconds h hv hlt, fun n hn => ⟨parse_milliseconds hn, ?_, ?_⟩⟩
  · exact parse_minutes hn (.inl rfl)
  · exact parse_minutes hn (.inr rfl)

theorem parse_exact_tenth : Written 9 (1 / 10) "0.1" ∧
    (∃ d : Duration, (d.nanoseconds : ℚ) = 1 / 10 * perSecond ∧ parse "0.1" = .ok d ∧
      parse ("0.1" ++ "s") = .ok d) ∧
    parse (toString 250 ++ "ms") = .ok (ofMilliseconds 250) := by
  have hwritten : Written 9 (1 / 10) "0.1" := by
    have hfraction : Fraction ['1'] ['.', '1'] := .point (by decide)
    have hpositional : Positional ⟨1, -1⟩ (['0'] ++ ['.', '1']) :=
      @Positional.intro ['0'] ['1'] ['.', '1'] (by decide) hfraction (by decide)
    have htext : Written 9 _ _ := .intro .none hpositional (by decide)
    have hvalue : (⟨1, -1⟩ : Decimal).value = 1 / 10 := by norm_num [Decimal.value]
    rwa [if_neg (by decide), hvalue] at htext
  exact ⟨hwritten, parse_exact.1 _ _ hwritten (by norm_num) (by norm_num),
    (parse_exact.2 250 (by norm_num)).1⟩

end Duration

end EngineBench
