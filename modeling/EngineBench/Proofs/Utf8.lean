import EngineBench.Text.Utf8

/-!
# UTF-8 is read as it is written

The reader of byte strings and the encoding of scalar values fit together in both directions: what
was written is read back, and whatever is read as a scalar value is its encoding.

* `Text.scan_eq_cons_some_iff` says so of the first scalar value of a byte string.
* `Text.decode?_eq_some_iff` says so of whole texts.
-/

namespace EngineBench.Text

/-! ## Lead bytes and what follows them -/

/-- What a lead byte announces, by its number. -/
theorem lead?_eq (b : UInt8) :
    lead? b =
      if b.toNat < 0xC2 then none
      else if b.toNat < 0xE0 then some (b.toNat - 0xC0, 1, 0x80, 0xBF)
      else if b.toNat = 0xE0 then some (0, 2, 0xA0, 0xBF)
      else if b.toNat = 0xED then some (0xD, 2, 0x80, 0x9F)
      else if b.toNat < 0xF0 then some (b.toNat - 0xE0, 2, 0x80, 0xBF)
      else if b.toNat = 0xF0 then some (0, 3, 0x90, 0xBF)
      else if b.toNat < 0xF4 then some (b.toNat - 0xF0, 3, 0x80, 0xBF)
      else if b.toNat = 0xF4 then some (4, 3, 0x80, 0x8F)
      else none := by
  simp only [lead?, UInt8.lt_iff_toNat_lt, ← UInt8.toNat_inj]
  rfl

theorem lead?_bounds {b : UInt8} {x : Nat × Nat × UInt8 × UInt8} (h : lead? b = some x) :
    0xC2 ≤ b.toNat ∧ b.toNat ≤ 0xF4 := by
  refine Decidable.byContradiction fun hout => ?_
  rw [lead?_eq] at h
  repeat' split at h
  all_goals first | omega | cases h

theorem lead?_of_two {b : UInt8} (h : 0xC2 ≤ b.toNat) (h' : b.toNat < 0xE0) :
    lead? b = some (b.toNat - 0xC0, 1, 0x80, 0xBF) := by
  rw [lead?_eq, if_neg (by omega), if_pos h']

/-- The range of the second of three bytes excludes overlong forms and surrogates. -/
theorem lead?_of_three {b : UInt8} (h : 0xE0 ≤ b.toNat) (h' : b.toNat < 0xF0) :
    ∃ lo hi : UInt8, lead? b = some (b.toNat - 0xE0, 2, lo, hi) ∧
      ∀ n : Nat, lo.toNat ≤ n ∧ n ≤ hi.toNat ↔
        (0x80 ≤ n ∧ n ≤ 0xBF) ∧ (b.toNat = 0xE0 → 0xA0 ≤ n) ∧ (b.toNat = 0xED → n ≤ 0x9F) := by
  rw [lead?_eq, if_neg (by omega), if_neg (by omega)]
  by_cases hlong : b.toNat = 0xE0
  · refine ⟨0xA0, 0xBF, by rw [if_pos hlong, hlong], fun n => ?_⟩
    rw [show (0xA0 : UInt8).toNat = 0xA0 from rfl, show (0xBF : UInt8).toNat = 0xBF from rfl]
    omega
  by_cases hsurrogate : b.toNat = 0xED
  · refine ⟨0x80, 0x9F, by rw [if_neg hlong, if_pos hsurrogate, hsurrogate], fun n => ?_⟩
    rw [show (0x80 : UInt8).toNat = 0x80 from rfl, show (0x9F : UInt8).toNat = 0x9F from rfl]
    omega
  · refine ⟨0x80, 0xBF, by rw [if_neg hlong, if_neg hsurrogate, if_pos h'], fun n => ?_⟩
    rw [show (0x80 : UInt8).toNat = 0x80 from rfl, show (0xBF : UInt8).toNat = 0xBF from rfl]
    omega

/-- The range of the second of four bytes excludes overlong forms and values above U+10FFFF. -/
theorem lead?_of_four {b : UInt8} (h : 0xF0 ≤ b.toNat) (h' : b.toNat ≤ 0xF4) :
    ∃ lo hi : UInt8, lead? b = some (b.toNat - 0xF0, 3, lo, hi) ∧
      ∀ n : Nat, lo.toNat ≤ n ∧ n ≤ hi.toNat ↔
        (0x80 ≤ n ∧ n ≤ 0xBF) ∧ (b.toNat = 0xF0 → 0x90 ≤ n) ∧ (b.toNat = 0xF4 → n ≤ 0x8F) := by
  rw [lead?_eq, if_neg (by omega), if_neg (by omega), if_neg (by omega), if_neg (by omega),
    if_neg (by omega)]
  by_cases hlong : b.toNat = 0xF0
  · refine ⟨0x90, 0xBF, by rw [if_pos hlong, hlong], fun n => ?_⟩
    rw [show (0x90 : UInt8).toNat = 0x90 from rfl, show (0xBF : UInt8).toNat = 0xBF from rfl]
    omega
  by_cases hlast : b.toNat = 0xF4
  · refine ⟨0x80, 0x8F, by rw [if_neg hlong, if_neg (by omega), if_pos hlast, hlast],
      fun n => ?_⟩
    rw [show (0x80 : UInt8).toNat = 0x80 from rfl, show (0x8F : UInt8).toNat = 0x8F from rfl]
    omega
  · refine ⟨0x80, 0xBF, by rw [if_neg hlong, if_pos (by omega)], fun n => ?_⟩
    rw [show (0x80 : UInt8).toNat = 0x80 from rfl, show (0xBF : UInt8).toNat = 0xBF from rfl]
    omega

theorem continuation_zero_eq_some_iff {lo hi : UInt8} {v w : Nat} {bs r : Bytes} :
    continuation 0 lo hi v bs = (some w, r) ↔ v = w ∧ bs = r := by
  rw [continuation, Prod.mk.injEq, Option.some.injEq]

/-- The first of several bytes that follow a lead byte. -/
theorem continuation_succ_eq_some_iff {n : Nat} {lo hi : UInt8} {v w : Nat} {bs r : Bytes} :
    continuation (n + 1) lo hi v bs = (some w, r) ↔
      ∃ b t, bs = b :: t ∧ (lo.toNat ≤ b.toNat ∧ b.toNat ≤ hi.toNat) ∧
        continuation n 0x80 0xBF (v * 64 + b.toNat % 64) t = (some w, r) := by
  cases bs with
  | nil => simp [continuation]
  | cons b t =>
    simp only [continuation, UInt8.le_iff_toNat_le, List.cons.injEq]
    split
    next h =>
      constructor
      · intro hc
        exact ⟨b, t, ⟨rfl, rfl⟩, h, hc⟩
      · rintro ⟨_, _, ⟨rfl, rfl⟩, -, hc⟩
        exact hc
    next h =>
      constructor
      · intro hc
        cases hc
      · rintro ⟨_, _, ⟨rfl, rfl⟩, hrange, -⟩
        exact absurd hrange h

/-! ## Well-formed sequences -/

/-- The well-formed sequences of bytes, with the numbers that they stand for: no overlong forms, no
surrogates, and nothing above U+10FFFF. -/
inductive Sequence (v : Nat) : Bytes → Prop
  | one {b : UInt8} : b.toNat < 0x80 → v = b.toNat → Sequence v [b]
  | two {b b₁ : UInt8} : 0xC2 ≤ b.toNat → b.toNat < 0xE0 →
      0x80 ≤ b₁.toNat → b₁.toNat ≤ 0xBF →
      v = (b.toNat - 0xC0) * 64 + b₁.toNat % 64 → Sequence v [b, b₁]
  | three {b b₁ b₂ : UInt8} : 0xE0 ≤ b.toNat → b.toNat < 0xF0 →
      0x80 ≤ b₁.toNat → b₁.toNat ≤ 0xBF →
      (b.toNat = 0xE0 → 0xA0 ≤ b₁.toNat) → (b.toNat = 0xED → b₁.toNat ≤ 0x9F) →
      0x80 ≤ b₂.toNat → b₂.toNat ≤ 0xBF →
      v = ((b.toNat - 0xE0) * 64 + b₁.toNat % 64) * 64 + b₂.toNat % 64 → Sequence v [b, b₁, b₂]
  | four {b b₁ b₂ b₃ : UInt8} : 0xF0 ≤ b.toNat → b.toNat ≤ 0xF4 →
      0x80 ≤ b₁.toNat → b₁.toNat ≤ 0xBF →
      (b.toNat = 0xF0 → 0x90 ≤ b₁.toNat) → (b.toNat = 0xF4 → b₁.toNat ≤ 0x8F) →
      0x80 ≤ b₂.toNat → b₂.toNat ≤ 0xBF → 0x80 ≤ b₃.toNat → b₃.toNat ≤ 0xBF →
      v = (((b.toNat - 0xF0) * 64 + b₁.toNat % 64) * 64 + b₂.toNat % 64) * 64 + b₃.toNat % 64 →
      Sequence v [b, b₁, b₂, b₃]

theorem toNat_ofNat_of_isValidChar {v : Nat} (h : v.isValidChar) :
    (Char.ofNat v).val.toNat = v := by
  rw [Char.ofNat, dif_pos h]
  rfl

namespace Sequence

variable {v : Nat} {q : Bytes}

theorem isValidChar (hq : Sequence v q) : v.isValidChar := by
  unfold Nat.isValidChar
  cases hq with
  | one _ _ => omega
  | two _ _ _ _ _ => omega
  | three _ _ _ _ _ _ _ _ _ => omega
  | four _ _ _ _ _ _ _ _ _ _ _ => omega

/-- A well-formed sequence is the encoding of its number. -/
theorem encode (hq : Sequence v q) : String.utf8EncodeChar (Char.ofNat v) = q := by
  unfold String.utf8EncodeChar
  rw [toNat_ofNat_of_isValidChar hq.isValidChar]
  simp only
  cases hq with
  | one h hv =>
    rw [if_pos (by omega), hv, UInt8.ofNat_toNat]
  | two h h' h₁ h₁' hv =>
    rw [if_neg (by omega), if_pos (by omega)]
    simp only [List.cons.injEq, and_true, ← UInt8.toNat_inj, UInt8.toNat_ofNat']
    omega
  | three h h' h₁ h₁' hlong hsurrogate h₂ h₂' hv =>
    rw [if_neg (by omega), if_neg (by omega), if_pos (by omega)]
    simp only [List.cons.injEq, and_true, ← UInt8.toNat_inj, UInt8.toNat_ofNat']
    omega
  | four h h' h₁ h₁' hlong hlast h₂ h₂' h₃ h₃' hv =>
    rw [if_neg (by omega), if_neg (by omega), if_neg (by omega)]
    simp only [List.cons.injEq, and_true, ← UInt8.toNat_inj, UInt8.toNat_ofNat']
    omega

/-- The encoding of a scalar value is a well-formed sequence. -/
theorem of_encode (c : Char) : Sequence c.val.toNat (String.utf8EncodeChar c) := by
  have hvalid : c.val.toNat.isValidChar := c.valid
  unfold Nat.isValidChar at hvalid
  unfold String.utf8EncodeChar
  simp only
  generalize c.val.toNat = v at hvalid
  have hmod (n : Nat) : (UInt8.ofNat n).toNat = n % 256 := UInt8.toNat_ofNat'
  split
  · exact .one (by rw [hmod]; omega) (by rw [hmod]; omega)
  split
  · refine .two ?_ ?_ ?_ ?_ ?_ <;> simp only [hmod] <;> omega
  split
  · refine .three ?_ ?_ ?_ ?_ ?_ ?_ ?_ ?_ ?_ <;> simp only [hmod] <;> omega
  · refine .four ?_ ?_ ?_ ?_ ?_ ?_ ?_ ?_ ?_ ?_ ?_ <;> simp only [hmod] <;> omega

end Sequence

/-! ## The reader -/

/-- A lead byte with everything that it announces is read as one scalar value. -/
theorem scan_of_lead? {b lo hi : UInt8} {v n w : Nat} {t r : Bytes}
    (hlead : lead? b = some (v, n, lo, hi)) (hpart : continuation n lo hi v t = (some w, r)) :
    scan (b :: t) = some (Char.ofNat w) :: scan r := by
  have hascii : ¬ b < 0x80 := by
    rw [UInt8.lt_iff_toNat_lt, show (0x80 : UInt8).toNat = 0x80 from rfl]
    have hbounds := lead?_bounds hlead
    omega
  rw [scan, if_neg hascii, hlead]
  simp only [hpart, Option.map_some]

/-- A well-formed sequence is read as its number, whatever follows it. -/
theorem Sequence.scan_append {v : Nat} {q : Bytes} (hq : Sequence v q) (r : Bytes) :
    scan (q ++ r) = some (Char.ofNat v) :: scan r := by
  have hlater {n w x : Nat} {b : UInt8} {t : Bytes} (h : 0x80 ≤ b.toNat) (h' : b.toNat ≤ 0xBF)
      (hc : continuation n 0x80 0xBF (w * 64 + b.toNat % 64) t = (some x, r)) :
      continuation (n + 1) 0x80 0xBF w (b :: t) = (some x, r) :=
    continuation_succ_eq_some_iff.mpr ⟨b, t, rfl, ⟨h, h'⟩, hc⟩
  cases hq with
  | one h hv =>
    rw [List.singleton_append, scan, if_pos (UInt8.lt_iff_toNat_lt.mpr h), hv]
  | two h h' h₁ h₁' hv =>
    subst hv
    exact scan_of_lead? (lead?_of_two h h') (hlater h₁ h₁' rfl)
  | three h h' h₁ h₁' hlong hsurrogate h₂ h₂' hv =>
    subst hv
    obtain ⟨lo, hi, hlead, hrange⟩ := lead?_of_three h h'
    refine scan_of_lead? hlead (continuation_succ_eq_some_iff.mpr
      ⟨_, _, rfl, ?_, hlater h₂ h₂' rfl⟩)
    exact (hrange _).mpr ⟨⟨h₁, h₁'⟩, hlong, hsurrogate⟩
  | four h h' h₁ h₁' hlong hlast h₂ h₂' h₃ h₃' hv =>
    subst hv
    obtain ⟨lo, hi, hlead, hrange⟩ := lead?_of_four h h'
    refine scan_of_lead? hlead (continuation_succ_eq_some_iff.mpr
      ⟨_, _, rfl, ?_, hlater h₂ h₂' (hlater h₃ h₃' rfl)⟩)
    exact (hrange _).mpr ⟨⟨h₁, h₁'⟩, hlong, hlast⟩

/-- Whatever is read as a scalar value is a well-formed sequence. -/
theorem exists_sequence_of_scan {bs : Bytes} {c : Char} {cs : List (Option Char)}
    (h : scan bs = some c :: cs) :
    ∃ v q r, Sequence v q ∧ bs = q ++ r ∧ c = Char.ofNat v ∧ cs = scan r := by
  cases bs with
  | nil =>
    rw [scan] at h
    cases h
  | cons b t =>
    rw [scan] at h
    split at h
    next hascii =>
      cases h
      exact ⟨b.toNat, [b], t, .one (UInt8.lt_iff_toNat_lt.mp hascii) rfl, rfl, rfl, rfl⟩
    rcases hlead : lead? b with _ | ⟨v, n, lo, hi⟩
    · rw [hlead] at h
      cases h
    rw [hlead] at h
    rcases hpart : continuation n lo hi v t with ⟨_ | w, r⟩
    · simp [hpart] at h
    simp only [hpart, Option.map_some, List.cons.injEq, Option.some.injEq] at h
    obtain ⟨rfl, rfl⟩ := h
    suffices hq : ∃ q, Sequence w (b :: q) ∧ t = q ++ r by
      obtain ⟨q, hq, rfl⟩ := hq
      exact ⟨w, b :: q, r, hq, rfl, rfl, rfl⟩
    have hbounds := lead?_bounds hlead
    by_cases htwo : b.toNat < 0xE0
    · rw [lead?_of_two hbounds.1 htwo] at hlead
      obtain ⟨rfl, rfl, rfl, rfl⟩ : _ ∧ _ ∧ _ ∧ _ := by
        simpa only [Option.some.injEq, Prod.mk.injEq] using hlead
      obtain ⟨b₁, t₁, rfl, ⟨h₁, h₁'⟩, hend⟩ := continuation_succ_eq_some_iff.mp hpart
      obtain ⟨rfl, rfl⟩ := continuation_zero_eq_some_iff.mp hend
      exact ⟨[b₁], .two hbounds.1 htwo h₁ h₁' rfl, rfl⟩
    by_cases hthree : b.toNat < 0xF0
    · obtain ⟨lo', hi', hlead', hrange⟩ := lead?_of_three (by omega) hthree
      rw [hlead'] at hlead
      obtain ⟨rfl, rfl, rfl, rfl⟩ : _ ∧ _ ∧ _ ∧ _ := by
        simpa only [Option.some.injEq, Prod.mk.injEq] using hlead
      obtain ⟨b₁, t₁, rfl, hfirst, hrest⟩ := continuation_succ_eq_some_iff.mp hpart
      obtain ⟨⟨h₁, h₁'⟩, hlong, hsurrogate⟩ := (hrange _).mp hfirst
      obtain ⟨b₂, t₂, rfl, ⟨h₂, h₂'⟩, hend⟩ := continuation_succ_eq_some_iff.mp hrest
      obtain ⟨rfl, rfl⟩ := continuation_zero_eq_some_iff.mp hend
      exact ⟨[b₁, b₂], .three (by omega) hthree h₁ h₁' hlong hsurrogate h₂ h₂' rfl, rfl⟩
    · obtain ⟨lo', hi', hlead', hrange⟩ := lead?_of_four (by omega) hbounds.2
      rw [hlead'] at hlead
      obtain ⟨rfl, rfl, rfl, rfl⟩ : _ ∧ _ ∧ _ ∧ _ := by
        simpa only [Option.some.injEq, Prod.mk.injEq] using hlead
      obtain ⟨b₁, t₁, rfl, hfirst, hrest⟩ := continuation_succ_eq_some_iff.mp hpart
      obtain ⟨⟨h₁, h₁'⟩, hlong, hlast⟩ := (hrange _).mp hfirst
      obtain ⟨b₂, t₂, rfl, ⟨h₂, h₂'⟩, hrest'⟩ := continuation_succ_eq_some_iff.mp hrest
      obtain ⟨b₃, t₃, rfl, ⟨h₃, h₃'⟩, hend⟩ := continuation_succ_eq_some_iff.mp hrest'
      obtain ⟨rfl, rfl⟩ := continuation_zero_eq_some_iff.mp hend
      exact ⟨[b₁, b₂, b₃],
        .four (by omega) hbounds.2 h₁ h₁' hlong hlast h₂ h₂' h₃ h₃' rfl, rfl⟩

/-- A written scalar value is read back as itself, whatever follows it. -/
theorem scan_encode_char (c : Char) (r : Bytes) :
    scan (String.utf8EncodeChar c ++ r) = some c :: scan r := by
  rw [(Sequence.of_encode c).scan_append r, show c.val.toNat = c.toNat from rfl, Char.ofNat_toNat]

theorem scan_eq_cons_some_iff {bs : Bytes} {c : Char} {cs : List (Option Char)} :
    scan bs = some c :: cs ↔ ∃ r, bs = String.utf8EncodeChar c ++ r ∧ cs = scan r := by
  constructor
  · intro h
    obtain ⟨v, q, r, hq, rfl, rfl, rfl⟩ := exists_sequence_of_scan h
    exact ⟨r, by rw [hq.encode], rfl⟩
  · rintro ⟨r, rfl, rfl⟩
    exact scan_encode_char c r

/-- A byte string is read without an ill-formed part exactly if it is the encoding of what was
read. -/
theorem scan_eq_map_some_iff {bs : Bytes} {cs : List Char} :
    scan bs = cs.map some ↔ bs = cs.flatMap String.utf8EncodeChar := by
  induction cs generalizing bs with
  | nil =>
    cases bs with
    | nil => simp [scan]
    | cons b t =>
      refine iff_of_false ?_ (List.cons_ne_nil b t)
      rw [scan]
      split
      · exact List.cons_ne_nil _ _
      · split <;> exact List.cons_ne_nil _ _
  | cons c cs ih =>
    rw [List.map_cons, scan_eq_cons_some_iff, List.flatMap_cons]
    constructor
    · rintro ⟨r, rfl, hr⟩
      rw [ih.mp hr.symm]
    · rintro rfl
      exact ⟨_, rfl, (ih.mpr rfl).symm⟩

theorem mapM_id_eq_some_iff {α : Type} {l : List (Option α)} {r : List α} :
    l.mapM id = some r ↔ l = r.map some := by
  induction l generalizing r with
  | nil => cases r <;> simp
  | cons x l ih =>
    rw [List.mapM_cons]
    cases x with
    | none => cases r <;> simp
    | some a =>
      rcases hl : l.mapM id with _ | r'
      · cases r <;> simp [← ih, hl]
      · cases r <;> simp [← ih, hl]

/-- A byte string is UTF-8 exactly if it is the encoding of a text, which it is read as. -/
theorem decode?_eq_some_iff {bs : Bytes} {s : String} : decode? bs = some s ↔ bs = encode s := by
  rw [decode?, encode, Option.map_eq_some_iff, ← scan_eq_map_some_iff]
  simp only [mapM_id_eq_some_iff]
  constructor
  · rintro ⟨cs, hcs, rfl⟩
    rw [hcs, String.toList_ofList]
  · intro h
    exact ⟨s.toList, h, String.ofList_toList⟩

theorem encode_inj {s t : String} : encode s = encode t ↔ s = t := by
  refine ⟨fun h => ?_, congrArg encode⟩
  have hs := decode?_eq_some_iff.mpr h.symm
  rw [decode?_eq_some_iff.mpr rfl] at hs
  exact (Option.some.inj hs).symm

theorem encode_eq_nil_iff {s : String} : encode s = [] ↔ s = "" := encode_inj (t := "")

end EngineBench.Text
