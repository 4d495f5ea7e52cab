import EngineBench.Decimal.Literal
import Mathlib.Data.List.TakeDrop

/-!
# The grammar of numerals

What the readers of numbers accept, as a grammar with the number that each numeral stands for.

* `Decimal.readFloat?_eq_some_iff`: a floating-point literal is a sign and then `inf`, `infinity` or
  `nan` in any case, or digits with at most one point and at least one digit and then an exponent.
* `Decimal.readWhole?_eq_some_iff`: a whole number is a sign and at least one digit, with a bound on
  its value.
-/

namespace EngineBench.Decimal

/-- A sign, or none: whether the number is negative, and how that is written. -/
inductive Sign : Bool → List Char → Prop
  | none : Sign false []
  | plus : Sign false ['+']
  | minus : Sign true ['-']

/-- The exponent of a numeral: none, which counts as zero, or a letter, a sign and digits. -/
inductive Exponent : Int → List Char → Prop
  | none : Exponent 0 []
  | written {letter : Char} {negative : Bool} {sign ds : List Char} : letter = 'e' ∨ letter = 'E' →
      Sign negative sign → ds ≠ [] → ds.all Char.isDigit →
      Exponent (if negative then -(ofDigits 0 ds : Int) else ofDigits 0 ds)
        (letter :: (sign ++ ds))

/-- The fraction of a numeral: its digits, and with them the point, unless there is none. -/
inductive Fraction : List Char → List Char → Prop
  | none : Fraction [] []
  | point {ds : List Char} : ds.all Char.isDigit → Fraction ds ('.' :: ds)

/-- An unsigned numeral, and the decimal that it stands for. -/
inductive Numeral : Decimal → List Char → Prop
  | intro {whole fraction point exponent : List Char} {e : Int} : whole.all Char.isDigit →
      Fraction fraction point → ¬ (whole = [] ∧ fraction = []) → Exponent e exponent →
      Numeral ⟨ofDigits (ofDigits 0 whole) fraction, e - fraction.length⟩
        (whole ++ (point ++ exponent))

/-- A floating-point literal, and the number nearest to what it stands for. -/
inductive FloatLiteral : Binary64 → List Char → Prop
  | infinite {negative : Bool} {sign word : List Char} : Sign negative sign →
      word.map Char.toLower = "inf".toList ∨ word.map Char.toLower = "infinity".toList →
      FloatLiteral (.infinite negative) (sign ++ word)
  | nan {negative : Bool} {sign word : List Char} : Sign negative sign →
      word.map Char.toLower = "nan".toList → FloatLiteral .nan (sign ++ word)
  | number {negative : Bool} {sign cs : List Char} {x : Decimal} : Sign negative sign →
      Numeral x cs → FloatLiteral (toBinary64 negative x) (sign ++ cs)

/-- A whole number up to a bound; a minus sign stands in front of zero only. -/
inductive WholeLiteral (bound : Nat) : Nat → List Char → Prop
  | intro {negative : Bool} {sign ds : List Char} : Sign negative sign → ds ≠ [] →
      ds.all Char.isDigit → ofDigits 0 ds ≤ bound → (negative = true → ofDigits 0 ds = 0) →
      WholeLiteral bound (ofDigits 0 ds) (sign ++ ds)

theorem WholeLiteral.le {bound n : Nat} {cs : List Char} (h : WholeLiteral bound n cs) :
    n ≤ bound := by
  cases h with
  | intro _ _ _ hbound _ => exact hbound

/-! ## Signs -/

/-- What begins with a sign. -/
def IsSigned (cs : List Char) : Prop := cs.head? = some '+' ∨ cs.head? = some '-'

theorem not_isSigned_of_isDigit {ds : List Char} (h : ds.all Char.isDigit) : ¬ IsSigned ds := by
  cases ds with
  | nil => simp [IsSigned]
  | cons d ds =>
    rw [List.all_cons, Bool.and_eq_true] at h
    simp only [IsSigned, List.head?_cons, Option.some.injEq]
    rintro (rfl | rfl)
    · exact absurd h.1 (by decide)
    · exact absurd h.1 (by decide)

theorem sign_of_readSign {cs r : List Char} {negative : Bool} (h : readSign cs = (negative, r)) :
    ∃ sign, Sign negative sign ∧ cs = sign ++ r := by
  unfold readSign at h
  split at h
  · cases h
    exact ⟨_, .minus, rfl⟩
  · cases h
    exact ⟨_, .plus, rfl⟩
  · cases h
    exact ⟨_, .none, rfl⟩

theorem Sign.readSign {sign r : List Char} {negative : Bool} (h : Sign negative sign)
    (hr : ¬ IsSigned r) : readSign (sign ++ r) = (negative, r) := by
  cases h with
  | none =>
    rw [List.nil_append]
    unfold Decimal.readSign
    split
    · exact absurd (.inr rfl) hr
    · exact absurd (.inl rfl) hr
    · rfl
  | plus => rfl
  | minus => rfl

/-! ## Numerals -/

theorem readExponent?_eq_some_iff {cs : List Char} {e : Int} :
    readExponent? cs = some e ↔ Exponent e cs := by
  constructor
  · intro h
    cases cs with
    | nil =>
      cases h
      exact .none
    | cons letter cs =>
      simp only [readExponent?] at h
      split at h
      next hletter =>
        rcases hs : readSign cs with ⟨negative, ds⟩
        obtain ⟨sign, hsign, rfl⟩ := sign_of_readSign hs
        simp only [hs] at h
        split at h
        · cases h
        next hds =>
          cases h
          simp only [Bool.or_eq_true, List.isEmpty_iff, Bool.not_eq_true', not_or,
            Bool.not_eq_false] at hds
          exact .written hletter hsign hds.1 hds.2
      · cases h
  · intro h
    cases h with
    | none => rfl
    | written hletter hsign hne hds =>
      simp [readExponent?, hletter, hsign.readSign (not_isSigned_of_isDigit hds), hne, hds]

theorem Exponent.not_isDigit {e : Int} {cs : List Char} (h : Exponent e cs) :
    ∀ c ∈ cs.head?, c.isDigit = false ∧ c ≠ '.' := by
  cases h with
  | none => simp
  | written hletter _ _ _ =>
    rintro c hc
    obtain rfl := Option.some.inj hc
    rcases hletter with rfl | rfl
    · decide
    · decide

theorem spanDigits_append {ds r : List Char} (hds : ds.all Char.isDigit)
    (hr : ∀ c ∈ r.head?, c.isDigit = false) : spanDigits (ds ++ r) = (ds, r) := by
  rw [List.all_eq_true] at hds
  rw [spanDigits, List.span_eq_takeWhile_dropWhile, List.takeWhile_append_of_pos hds,
    List.dropWhile_append_of_pos hds]
  cases r with
  | nil => simp
  | cons c r => simp [hr c rfl]

theorem eq_of_spanDigits {cs ds r : List Char} (h : spanDigits cs = (ds, r)) :
    ds.all Char.isDigit ∧ cs = ds ++ r := by
  rw [spanDigits, List.span_eq_takeWhile_dropWhile] at h
  cases h
  exact ⟨List.all_takeWhile, List.takeWhile_append_dropWhile.symm⟩

/-- The digits behind the point, if there is one, and what follows them. -/
def spanFraction (cs : List Char) : List Char × List Char :=
  match cs with
  | '.' :: r => spanDigits r
  | _ => ([], cs)

theorem read?_eq (cs : List Char) :
    read? cs =
      let (whole, rest) := spanDigits cs
      let (fraction, rest) := spanFraction rest
      if whole.isEmpty && fraction.isEmpty then none
      else
        (readExponent? rest).map fun e =>
          ⟨ofDigits (ofDigits 0 whole) fraction, e - fraction.length⟩ := rfl

theorem fraction_of_spanFraction {cs fraction rest : List Char}
    (h : spanFraction cs = (fraction, rest)) :
    ∃ point, Fraction fraction point ∧ cs = point ++ rest := by
  unfold spanFraction at h
  split at h
  · obtain ⟨hfraction, rfl⟩ := eq_of_spanDigits h
    exact ⟨_, .point hfraction, rfl⟩
  · cases h
    exact ⟨[], .none, rfl⟩

theorem Fraction.spanFraction {fraction point rest : List Char} (h : Fraction fraction point)
    (hrest : ∀ c ∈ rest.head?, c.isDigit = false ∧ c ≠ '.') :
    spanFraction (point ++ rest) = (fraction, rest) := by
  cases h with
  | none =>
    rw [List.nil_append]
    unfold Decimal.spanFraction
    split
    next r => exact absurd rfl (hrest '.' rfl).2
    next => rfl
  | point hds => exact spanDigits_append hds fun c hc => (hrest c hc).1

theorem Fraction.not_isDigit {fraction point rest : List Char} (h : Fraction fraction point)
    (hrest : ∀ c ∈ rest.head?, c.isDigit = false ∧ c ≠ '.') :
    ∀ c ∈ (point ++ rest).head?, c.isDigit = false := by
  cases h with
  | none => exact fun c hc => (hrest c hc).1
  | point _ =>
    intro c hc
    obtain rfl := Option.some.inj hc
    decide

theorem read?_eq_some_iff {cs : List Char} {x : Decimal} : read? cs = some x ↔ Numeral x cs := by
  rw [read?_eq]
  constructor
  · intro h
    rcases hw : spanDigits cs with ⟨whole, rest⟩
    obtain ⟨hwhole, rfl⟩ := eq_of_spanDigits hw
    rcases hf : spanFraction rest with ⟨fraction, exponent⟩
    obtain ⟨point, hfraction, rfl⟩ := fraction_of_spanFraction hf
    simp only [hw, hf] at h
    split at h
    · cases h
    next hne =>
      obtain ⟨e, he, rfl⟩ := Option.map_eq_some_iff.mp h
      refine .intro hwhole hfraction ?_ (readExponent?_eq_some_iff.mp he)
      simpa using hne
  · rintro ⟨hwhole, hfraction, hne, hexponent⟩
    have hend := hexponent.not_isDigit
    simp only [spanDigits_append hwhole (hfraction.not_isDigit hend), hfraction.spanFraction hend,
      readExponent?_eq_some_iff.mpr hexponent]
    rw [if_neg (by simpa using hne)]
    rfl

/-! ## Floating-point literals -/

/-- A numeral begins with a digit or a point, and so with neither a sign nor a letter. -/
theorem Numeral.head {cs : List Char} {x : Decimal} (h : Numeral x cs) :
    ∃ c r, cs = c :: r ∧ (c.isDigit ∨ c = '.') := by
  cases h with
  | @intro whole fraction point exponent e hwhole hfraction hne hexponent =>
    cases whole with
    | cons c r =>
      rw [List.all_cons, Bool.and_eq_true] at hwhole
      exact ⟨c, _, rfl, .inl hwhole.1⟩
    | nil =>
      cases hfraction with
      | none => exact absurd ⟨rfl, rfl⟩ hne
      | point _ => exact ⟨'.', _, rfl, .inr rfl⟩

theorem Numeral.not_isSigned {cs : List Char} {x : Decimal} (h : Numeral x cs) :
    ¬ IsSigned cs := by
  obtain ⟨c, r, rfl, hc⟩ := h.head
  simp only [IsSigned, List.head?_cons, Option.some.injEq]
  rintro (rfl | rfl) <;> revert hc <;> decide

/-- Neither a digit nor the point is a letter in lower case. -/
theorem toLower_lt {c : Char} (hc : c.isDigit ∨ c = '.') : c.toLower < 'a' := by
  rcases hc with hc | rfl
  · have hlower : c.toLower = c := by
      refine dif_neg fun hupper => ?_
      simp only [Char.isDigit, Bool.and_eq_true, decide_eq_true_eq] at hc
      exact absurd (UInt32.le_trans hupper.1 hc.2) (by decide)
    rw [hlower]
    simp only [Char.isDigit, Bool.and_eq_true, decide_eq_true_eq] at hc
    exact UInt32.lt_of_le_of_lt hc.2 (by decide)
  · decide

/-- The special words are no numerals, in any case. -/
theorem Numeral.toLower_ne {cs : List Char} {x : Decimal} (h : Numeral x cs) {d : Char}
    {word : List Char} (hd : 'a' ≤ d) : cs.map Char.toLower ≠ d :: word := by
  obtain ⟨c, r, rfl, hc⟩ := h.head
  intro heq
  rw [List.map_cons, List.cons.injEq] at heq
  have hlt := toLower_lt hc
  rw [heq.1] at hlt
  exact absurd hlt (Nat.not_lt.mpr hd)

/-- A special word begins with a letter, and so with no sign. -/
theorem not_isSigned_of_toLower {cs : List Char} {d : Char} {word : List Char}
    (h : cs.map Char.toLower = d :: word) (hd : d ≠ '+' ∧ d ≠ '-') : ¬ IsSigned cs := by
  cases cs with
  | nil => cases h
  | cons c cs =>
    rw [List.map_cons, List.cons.injEq] at h
    simp only [IsSigned, List.head?_cons, Option.some.injEq]
    rintro (rfl | rfl)
    · exact hd.1 h.1.symm
    · exact hd.2 h.1.symm

theorem readFloat?_eq_some_iff {s : String} {x : Binary64} :
    readFloat? s = some x ↔ FloatLiteral x s.toList := by
  constructor
  · intro h
    unfold readFloat? at h
    rcases hs : readSign s.toList with ⟨negative, cs⟩
    obtain ⟨sign, hsign, htext⟩ := sign_of_readSign hs
    rw [htext]
    simp only [hs] at h
    split at h
    next hword =>
      cases h
      exact .infinite hsign hword
    split at h
    next hword =>
      cases h
      exact .nan hsign hword
    · obtain ⟨d, hd, rfl⟩ := Option.map_eq_some_iff.mp h
      exact .number hsign (read?_eq_some_iff.mp hd)
  · intro h
    unfold readFloat?
    generalize s.toList = cs at h
    cases h with
    | infinite hsign hword =>
      have hunsigned := hword.elim (not_isSigned_of_toLower · (by decide))
        (not_isSigned_of_toLower · (by decide))
      simp only [hsign.readSign hunsigned, hword, if_true]
    | nan hsign hword =>
      have hunsigned := not_isSigned_of_toLower hword (by decide)
      simp only [hsign.readSign hunsigned, hword]
      rfl
    | number hsign hx =>
      have hinf : _ ≠ "inf".toList := hx.toLower_ne (by decide : 'a' ≤ 'i')
      have hinfinity : _ ≠ "infinity".toList := hx.toLower_ne (by decide : 'a' ≤ 'i')
      have hnan : _ ≠ "nan".toList := hx.toLower_ne (by decide : 'a' ≤ 'n')
      simp only [hsign.readSign hx.not_isSigned, hinf, hinfinity, hnan, or_self, if_false,
        read?_eq_some_iff.mpr hx, Option.map_some]

/-! ## Whole numbers -/

theorem readWhole?_eq_some_iff {bound n : Nat} {s : String} :
    readWhole? bound s = some n ↔ WholeLiteral bound n s.toList := by
  unfold readWhole?
  constructor
  · intro h
    rcases hs : readSign s.toList with ⟨negative, ds⟩
    obtain ⟨sign, hsign, htext⟩ := sign_of_readSign hs
    rw [htext]
    simp only [hs] at h
    split at h
    · cases h
    next hds =>
      split at h
      next hbound =>
        cases h
        simp only [Bool.or_eq_true, List.isEmpty_iff, Bool.not_eq_true', not_or,
          Bool.not_eq_false] at hds
        exact .intro hsign hds.1 hds.2 hbound.1 hbound.2
      · cases h
  · intro h
    generalize s.toList = cs at h
    cases h with
    | intro hsign hne hds hbound hzero =>
      simp only [hsign.readSign (not_isSigned_of_isDigit hds), hds, Bool.not_true, Bool.or_false,
        List.isEmpty_iff, hne, if_false, if_pos (And.intro hbound hzero)]

end EngineBench.Decimal
