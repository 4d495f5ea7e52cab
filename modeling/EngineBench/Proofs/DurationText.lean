import Mathlib.Data.List.TakeWhile
import EngineBench.Duration
import EngineBench.Proofs.Digits
import EngineBench.Proofs.Literals
import EngineBench.Proofs.LoadedSettings
import EngineBench.Proofs.NearestMagnitude

/-!
# The grammar of duration texts

Which texts are durations, and of how many nanoseconds. `Duration.Spells` is the grammar together
with the three roundings on the way, each as the nearest point of a grid: the number to the nearest
magnitude, the product with the unit to the nearest magnitude, the nanoseconds to the nearest whole
number.

* `Duration.parse_grammar`: `Duration.parse` accepts what `Duration.Spells` says, nothing else, and
  with that number of nanoseconds.
-/

namespace EngineBench

open Magnitude

namespace Text

theorem mem_of_mem_trim {c : Char} {cs : List Char} (h : c ∈ trim cs) : c ∈ cs := by
  rw [trim, List.mem_reverse] at h
  have hleft := mem_of_mem_trimLeft h
  rw [List.mem_reverse] at hleft
  exact mem_of_mem_trimLeft hleft

theorem isAlphabetic_of_toLower {c : Char} (h : isAlphabetic c.toLower = true) :
    isAlphabetic c = true := by
  by_cases hupper : c.isUpper = true
  · show (c.isUpper || c.isLower || _) = true
    rw [hupper]
    rfl
  · have hlower : c.toLower = c := by
      refine dif_neg fun hrange => hupper ?_
      exact decide_eq_true hrange
    rwa [hlower] at h

/-- A word that is a word of letters in lower case has a letter. -/
theorem exists_isAlphabetic {word letters : List Char} {d : Char}
    (h : word.map Char.toLower = d :: letters) (hd : isAlphabetic d = true) :
    ∃ c ∈ word, isAlphabetic c = true := by
  cases word with
  | nil => cases h
  | cons c r =>
    rw [List.map_cons, List.cons.injEq] at h
    refine ⟨c, List.mem_cons_self, isAlphabetic_of_toLower ?_⟩
    rwa [h.1]

end Text

/-! ## Numbers without letters -/

namespace Decimal

/-- Digits with an optional point and digits, or a point followed by digits. -/
inductive Positional : Decimal → List Char → Prop
  | intro {whole fraction point : List Char} : whole.all Char.isDigit → Fraction fraction point →
      ¬ (whole = [] ∧ fraction = []) →
      Positional ⟨ofDigits 0 (whole ++ fraction), -fraction.length⟩ (whole ++ point)

variable {x : Decimal} {cs : List Char}

theorem Positional.numeral (h : Positional x cs) : Numeral x cs := by
  cases h with
  | @intro whole fraction point hwhole hfraction hne =>
    have hnumeral := Numeral.intro hwhole hfraction hne .none
    rwa [Int.zero_sub, List.append_nil, ← ofDigits_append] at hnumeral

/-- A numeral without letters has no exponent. -/
theorem Numeral.positional (h : Numeral x cs) (hplain : ∀ c ∈ cs, Text.isAlphabetic c = false) :
    Positional x cs := by
  cases h with
  | @intro whole fraction point exponent e hwhole hfraction hne hexponent =>
    cases hexponent with
    | none =>
      rw [Int.zero_sub, List.append_nil, ← ofDigits_append]
      exact .intro hwhole hfraction hne
    | @written letter negative sign ds hletter hsign hds hdigits =>
      have hmem : letter ∈ whole ++ (point ++ letter :: (sign ++ ds)) := by simp
      have hfalse := hplain letter hmem
      rcases hletter with rfl | rfl
      · exact absurd hfalse (by decide)
      · exact absurd hfalse (by decide)

/-- Without letters a floating-point literal is a sign and digits with at most one point. -/
theorem FloatLiteral.positional {b : Binary64} (h : FloatLiteral b cs)
    (hplain : ∀ c ∈ cs, Text.isAlphabetic c = false) :
    ∃ negative sign ds y, Sign negative sign ∧ Positional y ds ∧ cs = sign ++ ds ∧
      b = toBinary64 negative y := by
  -- The special words have letters.
  have hword {sign word letters : List Char} {d : Char} (hcs : cs = sign ++ word)
      (h : word.map Char.toLower = d :: letters) (hd : Text.isAlphabetic d = true) : False := by
    obtain ⟨c, hc, hletter⟩ := Text.exists_isAlphabetic h hd
    have hfalse := hplain c (hcs ▸ List.mem_append_right sign hc)
    rw [hletter] at hfalse
    cases hfalse
  cases h with
  | infinite hsign hinf =>
    rcases hinf with hinf | hinf
    · exact (hword rfl hinf (by decide)).elim
    · exact (hword rfl hinf (by decide)).elim
  | nan hsign hnan => exact (hword rfl hnan (by decide)).elim
  | @number negative sign ds y hsign hnumeral =>
    have hds : ∀ c ∈ ds, Text.isAlphabetic c = false := fun c hc =>
      hplain c (List.mem_append_right sign hc)
    exact ⟨negative, sign, ds, y, hsign, hnumeral.positional hds, rfl, rfl⟩

end Decimal

namespace Magnitude

theorem value_eq_zero_iff {m : Magnitude} : m.value = 0 ↔ m.significand = 0 := by
  rw [value, div_eq_zero_iff, or_iff_left unitsPerOne_cast_pos.ne', Nat.cast_eq_zero, units_eq,
    Nat.mul_eq_zero, or_iff_left (Nat.two_pow_pos _).ne']

theorem nearest_scale (m : Magnitude) (n : ℕ) {d : ℕ} (hd : 0 < d) :
    grid.Nearest (m.value * (n / d)) (ofUnits (m.units * n) d) := by
  have hunits : m.value * (n / d) = ((m.units * n : ℕ) : ℚ) / d / unitsPerOne := by
    rw [value, Nat.cast_mul, div_mul_div_comm, div_div, mul_comm (unitsPerOne : ℚ)]
  rw [hunits]
  exact nearest_ofUnits hd

end Magnitude

namespace Binary64

/-- The number with a sign and a rounded magnitude. -/
def ofRounded (negative : Bool) : Option Magnitude → Binary64
  | some m => .finite negative m
  | none => .infinite negative

theorem scale_finite (negative : Bool) (m : Magnitude) (n d : ℕ) :
    (finite negative m).scale n d = ofRounded negative (ofUnits (m.units * n) d) := by
  unfold scale
  dsimp only
  cases ofUnits (m.units * n) d with
  | some r => rfl
  | none => rfl

end Binary64

namespace Duration

open Decimal

/-! ## The grammar -/

/-- A number in front of a unit, and the magnitude nearest to it. A minus sign stands only in front
of what is rounded to zero. -/
inductive Amount (value : Magnitude) : List Char → Prop
  | intro {negative : Bool} {sign cs : List Char} {x : Decimal} : Sign negative sign →
      Positional x cs → grid.Nearest x.value (some value) → (negative = true → value.value = 0) →
      Amount value (sign ++ cs)

/-- The names of a unit. Characters that are not ASCII are no letter of a name in lower case
either. -/
def Scale.names : Scale → List String
  | .milliseconds => ["ms"]
  | .seconds => ["", "s"]
  | .minutes => ["m", "min"]

/-- The number of seconds in a unit. -/
def Scale.factor : Scale → ℚ
  | .milliseconds => 1 / 1000
  | .seconds => 1
  | .minutes => 60

/-- The duration of so many seconds to the nearest nanosecond. Durations have fewer than `2 ^ 64`
seconds. -/
structure Rounds (d : Duration) (seconds : ℚ) : Prop where
  nearest : Grid.whole.Nearest (seconds * perSecond) d.nanoseconds
  fits : d.nanoseconds < 2 ^ 64 * perSecond

/-- The duration that a text spells: a number, and a unit that starts at the first alphabetic
character. -/
inductive Spells (s : String) (d : Duration) : Prop
  | intro {number unit : List Char} {value seconds : Magnitude} {scale : Scale} :
      Text.trim s.toList = number ++ unit →
      (∀ c ∈ number, Text.isAlphabetic c = false) →
      (∀ c ∈ unit.head?, Text.isAlphabetic c = true) →
      Amount value (Text.trim number) →
      String.ofList (unit.map Char.toLower) ∈ scale.names →
      grid.Nearest (value.value * scale.factor) (some seconds) →
      d.Rounds seconds.value →
      Spells s d

/-! ## The parts of a text -/

theorem Amount.readFloat? {value : Magnitude} {cs : List Char} (h : Amount value cs) :
    ∃ negative, Decimal.readFloat? (String.ofList cs) = some (.finite negative value) ∧
      (Binary64.finite negative value).isNegative = false := by
  cases h with
  | @intro negative sign ds x hsign hpositional hnearest hzero =>
    refine ⟨negative, readFloat?_eq_some_iff.mpr ?_, ?_⟩
    · rw [String.toList_ofList]
      have hliteral := FloatLiteral.number hsign hpositional.numeral
      rwa [toBinary64, toMagnitude_iff.mpr hnearest] at hliteral
    · cases negative with
      | false => rfl
      | true =>
        have hsignificand := value_eq_zero_iff.mp (hzero rfl)
        rw [Binary64.isNegative, hsignificand]
        rfl

theorem Amount.ne_nil {value : Magnitude} {cs : List Char} (h : Amount value cs) : cs ≠ [] := by
  cases h with
  | intro hsign hpositional hnearest hzero =>
    obtain ⟨c, r, rfl, _⟩ := hpositional.numeral.head
    exact List.append_ne_nil_of_right_ne_nil _ (List.cons_ne_nil c r)

/-- What is read of a text without letters, and is finite and not negative, is its amount. -/
theorem amount_of_readFloat? {cs : List Char} {x : Binary64}
    (hread : Decimal.readFloat? (String.ofList cs) = some x)
    (hplain : ∀ c ∈ cs, Text.isAlphabetic c = false)
    (hrange : (!x.isFinite || x.isNegative) = false) :
    ∃ negative value, x = .finite negative value ∧ Amount value cs := by
  have hliteral := readFloat?_eq_some_iff.mp hread
  rw [String.toList_ofList] at hliteral
  obtain ⟨negative, sign, ds, y, hsign, hpositional, rfl, rfl⟩ := hliteral.positional hplain
  have hnearest := y.nearest_toMagnitude
  rw [toBinary64] at hrange ⊢
  cases hy : y.toMagnitude with
  | none =>
    rw [hy] at hrange
    cases hrange
  | some value =>
    rw [hy] at hrange hnearest
    refine ⟨negative, value, rfl, .intro hsign hpositional hnearest ?_⟩
    rintro rfl
    have hsignificand : decide (0 < value.significand) = false := hrange
    rw [decide_eq_false_iff_not, Nat.not_lt, Nat.le_zero] at hsignificand
    exact value_eq_zero_iff.mpr hsignificand

theorem Scale.ofChars?_eq_some_iff {cs : List Char} {scale : Scale} :
    Scale.ofChars? cs = some scale ↔ String.ofList (cs.map Char.toLower) ∈ scale.names := by
  unfold Scale.ofChars?
  generalize String.ofList (cs.map Char.toLower) = word
  constructor
  · intro h
    dsimp only at h
    split at h
    next hword =>
      cases h
      rw [hword]
      decide
    next =>
      split at h
      next hword =>
        cases h
        rcases hword with rfl | rfl
        · decide
        · decide
      next =>
        split at h
        next hword =>
          cases h
          rcases hword with rfl | rfl
          · decide
          · decide
        next => cases h
  · intro h
    cases scale with
    | milliseconds =>
      rcases List.mem_singleton.mp h with rfl
      decide
    | seconds =>
      rcases List.mem_pair.mp h with rfl | rfl
      · decide
      · decide
    | minutes =>
      rcases List.mem_pair.mp h with rfl | rfl
      · decide
      · decide

/-- The seconds of a number are its product with the unit, rounded once. -/
theorem exists_toSeconds (scale : Scale) (negative : Bool) (value : Magnitude) :
    ∃ r, grid.Nearest (value.value * scale.factor) r ∧
      scale.toSeconds (.finite negative value) = .ofRounded negative r := by
  cases scale with
  | milliseconds =>
    refine ⟨_, ?_, Binary64.scale_finite negative value 1 1000⟩
    have hnearest := value.nearest_scale 1 (d := 1000) (by decide)
    rwa [Nat.cast_one, Nat.cast_ofNat] at hnearest
  | seconds =>
    refine ⟨some value, ?_, rfl⟩
    rw [Scale.factor, mul_one]
    exact grid.nearest_point (some value)
  | minutes =>
    refine ⟨_, ?_, Binary64.scale_finite negative value 60 1⟩
    have hnearest := value.nearest_scale 60 (d := 1) (by decide)
    rwa [Nat.cast_one, Nat.cast_ofNat, div_one] at hnearest

theorem ofBinary64?_eq_some_iff {negative : Bool} {seconds : Magnitude} {d : Duration} :
    ofBinary64? (.finite negative seconds) = some d ↔ d.Rounds seconds.value := by
  have hcast : seconds.value * perSecond =
      ((seconds.units * perSecond : ℕ) : ℚ) / (unitsPerOne : ℕ) := by
    rw [Magnitude.value, Nat.cast_mul]
    ring
  constructor
  · intro h
    refine ⟨?_, lt_of_ofBinary64? h⟩
    simp only [ofBinary64?, Option.ite_none_right_eq_some, Option.some.injEq] at h
    obtain ⟨hlt, rfl⟩ := h
    rw [hcast]
    exact nearest_divNearest unitsPerOne_pos
  · rintro ⟨hnearest, hfits⟩
    rw [hcast] at hnearest
    have hround := (divNearest_iff unitsPerOne_pos).mpr hnearest
    have hlt : seconds.units < UInt64.size * unitsPerOne := by
      -- As many seconds as that are not rounded to fewer nanoseconds.
      refine Nat.lt_of_not_le fun hge => ?_
      have hle : 2 ^ 64 * perSecond ≤ seconds.units * perSecond / unitsPerOne := by
        rw [Nat.le_div_iff_mul_le unitsPerOne_pos, Nat.mul_right_comm]
        exact Nat.mul_le_mul_right perSecond hge
      have hdiv := div_le_divNearest (seconds.units * perSecond) unitsPerOne
      omega
    rw [ofBinary64?, if_pos hlt, hround]

theorem ofBinary64?_toSeconds_iff {scale : Scale} {negative : Bool} {value : Magnitude}
    {d : Duration} : ofBinary64? (scale.toSeconds (.finite negative value)) = some d ↔
      ∃ seconds, grid.Nearest (value.value * scale.factor) (some seconds) ∧
        d.Rounds seconds.value := by
  obtain ⟨r, hr, heq⟩ := exists_toSeconds scale negative value
  rw [heq]
  constructor
  · intro h
    cases r with
    | none => cases h
    | some seconds => exact ⟨seconds, hr, ofBinary64?_eq_some_iff.mp h⟩
  · rintro ⟨seconds, hseconds, hd⟩
    rw [hr.unique hseconds]
    exact ofBinary64?_eq_some_iff.mpr hd

/-! ## The whole text -/

variable {s : String} {d : Duration}

theorem spells_of_parse (h : parse s = .ok d) : Spells s d := by
  unfold parse at h
  dsimp only at h
  generalize hcs : Text.trim s.toList = cs at h
  have hplain : ∀ c ∈ cs.takeWhile fun c => !Text.isAlphabetic c, Text.isAlphabetic c = false := by
    intro c hc
    simpa using List.mem_takeWhile_imp hc
  have hletter : ∀ c ∈ (cs.dropWhile fun c => !Text.isAlphabetic c).head?,
      Text.isAlphabetic c = true := by
    intro c hc
    have hhead := List.head?_dropWhile_not (fun c => !Text.isAlphabetic c) cs
    rw [hc] at hhead
    simpa using hhead
  split at h
  · cases h
  split at h
  · cases h
  next x hread =>
    split at h
    · cases h
    next hrange =>
      split at h
      · cases h
      next scale hscale =>
        split at h
        next hseconds =>
          cases h
          obtain ⟨negative, value, rfl, hamount⟩ := amount_of_readFloat? hread
            (fun c hc => hplain c (Text.mem_of_mem_trim hc)) (Bool.eq_false_iff.mpr hrange)
          obtain ⟨seconds, hnearest, hd⟩ := ofBinary64?_toSeconds_iff.mp hseconds
          exact .intro (hcs.trans List.takeWhile_append_dropWhile.symm) hplain hletter hamount
            (Scale.ofChars?_eq_some_iff.mp hscale) hnearest hd
        · cases h

theorem Spells.parse_eq (h : Spells s d) : parse s = .ok d := by
  obtain @⟨number, unit, value, seconds, scale, htext, hplain, hletter, hamount, hscale, hnearest,
    hd⟩ := h
  obtain ⟨negative, hread, hpositive⟩ := hamount.readFloat?
  -- The text is cut where it was put together.
  have hstop (c : Char) (hc : c ∈ number) : (!Text.isAlphabetic c) = true := by
    rw [hplain c hc]
    rfl
  have hcut : (unit.takeWhile fun c => !Text.isAlphabetic c) = [] ∧
      (unit.dropWhile fun c => !Text.isAlphabetic c) = unit := by
    cases unit with
    | nil => exact ⟨rfl, rfl⟩
    | cons c r =>
      have hc : ¬ (!Text.isAlphabetic c) = true := by
        rw [hletter c rfl]
        decide
      exact ⟨List.takeWhile_cons_of_neg hc, List.dropWhile_cons_of_neg hc⟩
  have hnumber : ((number ++ unit).takeWhile fun c => !Text.isAlphabetic c) = number := by
    rw [List.takeWhile_append_of_pos hstop, hcut.1, List.append_nil]
  have hunit : ((number ++ unit).dropWhile fun c => !Text.isAlphabetic c) = unit := by
    rw [List.dropWhile_append_of_pos hstop, hcut.2]
  have hne : (number ++ unit).isEmpty = false := by
    cases number with
    | nil => exact absurd rfl hamount.ne_nil
    | cons c r => rfl
  have hrange : (!(Binary64.finite negative value).isFinite ||
      (Binary64.finite negative value).isNegative) = false := by
    rw [hpositive]
    rfl
  unfold parse
  simp only [htext, hnumber, hunit, hne, hread, hrange, Scale.ofChars?_eq_some_iff.mpr hscale,
    ofBinary64?_toSeconds_iff.mpr ⟨seconds, hnearest, hd⟩]
  rfl

/-- **The grammar.** A text is read as a duration exactly if it spells that duration, and refused if
it spells none. -/
theorem parse_grammar (s : String) : (∀ d, parse s = .ok d ↔ Spells s d) ∧
    ((∃ refusal, parse s = .error refusal) ↔ ∀ d, ¬ Spells s d) := by
  refine ⟨fun d => ⟨spells_of_parse, Spells.parse_eq⟩, ?_⟩
  constructor
  · rintro ⟨refusal, hrefused⟩ d hspells
    rw [hspells.parse_eq] at hrefused
    cases hrefused
  · intro hnone
    cases hparse : parse s with
    | ok d => exact absurd (spells_of_parse hparse) (hnone d)
    | error refusal => exact ⟨refusal, rfl⟩

example : parse " 1.5 MIN" = .ok (ofSeconds 90) := by decide +kernel

end Duration

end EngineBench
