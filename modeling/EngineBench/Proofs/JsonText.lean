import EngineBench.Json.Printer
import EngineBench.Json.Reader
import EngineBench.Proofs.Digits
import EngineBench.Proofs.Literals

/-!
# Texts of JSON values

A text *spells* a value if it is put together from the spellings of numerals and strings that the
printers use, with white space wherever it may stand. What is spelled is read back.

* `Json.Spelled` is the relation, `Json.IsGrammatical` says which values have a spelling: those with
  proper numerals.
* `Json.read?_of_spelled`: what is spelled is read back; `Json.read?_pretty` and
  `Json.read?_compact` are the cases of the two layouts.
* `Json.isGrammatical_of_read?`: only such values are ever read.
-/

namespace EngineBench

/-- What the grammar of numbers asks of a numeral. -/
structure Numeral.IsGrammatical (n : Numeral) : Prop where
  whole_ne_nil : n.whole ≠ []
  whole_isDigit : n.whole.all Char.isDigit
  /-- No digit follows a zero at the start. -/
  leadingZero : n.whole.head? = some '0' → n.whole.length = 1
  fraction_isDigit : n.fraction.all Char.isDigit

namespace Json

/-- The values whose numerals have a spelling. -/
inductive IsGrammatical : Json → Prop
  | null : IsGrammatical .null
  | bool (b : Bool) : IsGrammatical (.bool b)
  | number {n : Numeral} : n.IsGrammatical → IsGrammatical (.number n)
  | string (s : Option String) : IsGrammatical (.string s)
  | array {js : List Json} : (∀ j ∈ js, IsGrammatical j) → IsGrammatical (.array js)
  | object {ms : List (Option String × Json)} : (∀ m ∈ ms, IsGrammatical m.2) →
      IsGrammatical (.object ms)

/-- Nothing but white space. -/
def IsBlank (cs : List Char) : Prop := ∀ c ∈ cs, isBlank c = true

mutual

/-- A text without white space around it that stands for a value. -/
inductive Spelled : Json → List Char → Prop
  | null : Spelled .null "null".toList
  | true : Spelled (.bool true) "true".toList
  | false : Spelled (.bool false) "false".toList
  | number {n : Numeral} : n.IsGrammatical → Spelled (.number n) (numeralChars n)
  | string (s : Option String) : Spelled (.string s) (stringChars s)
  | emptyArray {ws : List Char} : IsBlank ws → Spelled (.array []) ('[' :: (ws ++ [']']))
  | array {js : List Json} {cs : List Char} : SpelledElements js cs →
      Spelled (.array js) ('[' :: cs)
  | emptyObject {ws : List Char} : IsBlank ws → Spelled (.object []) ('{' :: (ws ++ ['}']))
  | object {ms : List (Option String × Json)} {cs : List Char} : SpelledMembers ms cs →
      Spelled (.object ms) ('{' :: cs)

/-- At least one element of an array, and the closing bracket. -/
inductive SpelledElements : List Json → List Char → Prop
  | last {j : Json} {ws cs ws' : List Char} : IsBlank ws → Spelled j cs → IsBlank ws' →
      SpelledElements [j] (ws ++ (cs ++ (ws' ++ [']'])))
  | more {j : Json} {js : List Json} {ws cs ws' rest : List Char} : IsBlank ws → Spelled j cs →
      IsBlank ws' → SpelledElements js rest →
      SpelledElements (j :: js) (ws ++ (cs ++ (ws' ++ ',' :: rest)))

/-- At least one member of an object, and the closing brace. -/
inductive SpelledMembers : List (Option String × Json) → List Char → Prop
  | last {s : Option String} {j : Json} {ws ws₁ cs ws₂ : List Char} : IsBlank ws → IsBlank ws₁ →
      Spelled j cs → IsBlank ws₂ →
      SpelledMembers [(s, j)] (ws ++ (stringChars s ++ ':' :: (ws₁ ++ (cs ++ (ws₂ ++ ['}'])))))
  | more {s : Option String} {j : Json} {ms : List (Option String × Json)}
      {ws ws₁ cs ws₂ rest : List Char} : IsBlank ws → IsBlank ws₁ → Spelled j cs → IsBlank ws₂ →
      SpelledMembers ms rest →
      SpelledMembers ((s, j) :: ms)
        (ws ++ (stringChars s ++ ':' :: (ws₁ ++ (cs ++ (ws₂ ++ ',' :: rest)))))

end

/-! ## White space -/

theorem skipBlanks_append {ws : List Char} (h : IsBlank ws) (cs : List Char) :
    skipBlanks (ws ++ cs) = skipBlanks cs := List.dropWhile_append_of_pos h

theorem skipBlanks_cons {c : Char} (h : isBlank c = false) (cs : List Char) :
    skipBlanks (c :: cs) = c :: cs := by
  simp [skipBlanks, h]

theorem IsBlank.nil : IsBlank [] := fun _ hc => (List.not_mem_nil hc).elim

theorem IsBlank.newLine (level : Nat) : IsBlank (newLine level) := by
  intro c hc
  rcases List.mem_cons.mp hc with rfl | hc
  · rfl
  · rw [(List.mem_replicate.mp hc).2]
    rfl

/-! ## Numerals -/

/-- A character that could go on a numeral. -/
def isNumeralPart (c : Char) : Bool := c.isDigit || c = '.' || c = 'e' || c = 'E'

/-- The text does not go on a numeral in front of it. -/
def EndsNumeral (cs : List Char) : Prop := ∀ c ∈ cs.head?, isNumeralPart c = false

def fractionChars (ds : List Char) : List Char := if ds.isEmpty then [] else '.' :: ds

def exponentChars : Option Int → List Char
  | none => []
  | some e => 'e' :: (if e < 0 then '-' else '+') :: Decimal.digitsOf e.natAbs

theorem numeralChars_eq (n : Numeral) :
    numeralChars n = (if n.negative then ['-'] else []) ++
      (n.whole ++ (fractionChars n.fraction ++ exponentChars n.exponent)) := by
  simp only [numeralChars, List.append_assoc]
  rfl

theorem EndsNumeral.cons {c : Char} (h : isNumeralPart c = false) (cs : List Char) :
    EndsNumeral (c :: cs) := by
  rintro d ⟨⟩
  exact h

/-- White space ends a numeral, and without it what comes behind it. -/
theorem EndsNumeral.append {ws cs : List Char} (h : IsBlank ws) (hcs : EndsNumeral cs) :
    EndsNumeral (ws ++ cs) := by
  cases ws with
  | nil => exact hcs
  | cons c ws =>
    refine .cons ?_ _
    have hc := h c List.mem_cons_self
    simp only [isBlank, Bool.or_eq_true, decide_eq_true_eq] at hc
    rcases hc with ((rfl | rfl) | rfl) | rfl <;> rfl

theorem EndsNumeral.not_isDigit {cs : List Char} (h : EndsNumeral cs) :
    ∀ c ∈ cs.head?, c.isDigit = false := by
  intro c hc
  have hpart := h c hc
  simp only [isNumeralPart, Bool.or_eq_false_iff] at hpart
  exact hpart.1.1.1

theorem readFraction?_append {ds r : List Char} (hds : ds.all Char.isDigit)
    (hr : ∀ c ∈ r.head?, c.isDigit = false ∧ c ≠ '.') :
    readFraction? (fractionChars ds ++ r) = some (ds, r) := by
  cases ds with
  | nil =>
    rw [fractionChars, List.isEmpty_nil, if_pos rfl, List.nil_append]
    unfold readFraction?
    split
    next cs => exact absurd rfl (hr '.' rfl).2
    next => rfl
  | cons d ds =>
    have hspan := Decimal.spanDigits_append hds fun c hc => (hr c hc).1
    show readFraction? ('.' :: ((d :: ds) ++ r)) = _
    rw [readFraction?, hspan]
    rfl

theorem readExponent?_append (e : Option Int) {r : List Char} (hr : EndsNumeral r) :
    readExponent? (exponentChars e ++ r) = some (e, r) := by
  cases e with
  | none =>
    rw [exponentChars, List.nil_append]
    cases r with
    | nil => rfl
    | cons c r =>
      have hc := hr c rfl
      simp only [isNumeralPart, Bool.or_eq_false_iff, decide_eq_false_iff_not] at hc
      simp [readExponent?, hc.1.2, hc.2]
  | some e =>
    have hspan := Decimal.spanDigits_append (Decimal.digitsOf_isDigit e.natAbs) hr.not_isDigit
    have hne := Decimal.digitsOf_ne_nil e.natAbs
    have hvalue := Decimal.ofDigits_digitsOf e.natAbs
    have hdigits : (Decimal.digitsOf e.natAbs).isEmpty = false := by
      rw [List.isEmpty_eq_false_iff]
      exact hne
    by_cases he : e < 0
    · have hneg : -(e.natAbs : Int) = e := by omega
      rw [exponentChars, if_pos he]
      show readExponent? ('e' :: '-' :: (Decimal.digitsOf e.natAbs ++ r)) = _
      simp only [readExponent?, true_or, if_true, Decimal.readSign, hspan, hdigits, hvalue, hneg,
        Bool.false_eq_true, if_false]
    · have hpos : (e.natAbs : Int) = e := by omega
      rw [exponentChars, if_neg he]
      show readExponent? ('e' :: '+' :: (Decimal.digitsOf e.natAbs ++ r)) = _
      simp only [readExponent?, true_or, if_true, Decimal.readSign, hspan, hdigits, hvalue, hpos,
        Bool.false_eq_true, if_false]

theorem exponentChars_head (e : Option Int) {r : List Char} (hr : EndsNumeral r) :
    ∀ c ∈ (exponentChars e ++ r).head?, c.isDigit = false ∧ c ≠ '.' := by
  cases e with
  | none =>
    intro c hc
    have hpart := hr c hc
    simp only [isNumeralPart, Bool.or_eq_false_iff, decide_eq_false_iff_not] at hpart
    exact ⟨hpart.1.1.1, hpart.1.1.2⟩
  | some e =>
    rintro c ⟨⟩
    exact ⟨rfl, by decide⟩

theorem fractionChars_head (ds : List Char) {r : List Char}
    (hr : ∀ c ∈ r.head?, c.isDigit = false ∧ c ≠ '.') :
    ∀ c ∈ (fractionChars ds ++ r).head?, c.isDigit = false := by
  cases ds with
  | nil => exact fun c hc => (hr c hc).1
  | cons d ds =>
    rintro c ⟨⟩
    rfl

theorem readNumeral?_append {n : Numeral} (hn : n.IsGrammatical) {r : List Char}
    (hr : EndsNumeral r) :
    readNumeral? n.negative
      (n.whole ++ (fractionChars n.fraction ++ exponentChars n.exponent) ++ r) = some (n, r) := by
  have hexponent := exponentChars_head n.exponent hr
  have hwhole := Decimal.spanDigits_append hn.whole_isDigit
    (fractionChars_head n.fraction hexponent)
  have hlead : ¬ (n.whole.isEmpty || (n.whole.head? = some '0' && n.whole.length ≠ 1)) := by
    simp only [Bool.or_eq_true, List.isEmpty_iff, Bool.and_eq_true, decide_eq_true_eq, not_or,
      not_and, Decidable.not_not]
    exact ⟨hn.whole_ne_nil, hn.leadingZero⟩
  rw [readNumeral?, List.append_assoc, List.append_assoc, hwhole]
  simp only [hlead, readFraction?_append hn.fraction_isDigit hexponent,
    Option.bind_eq_bind, Option.bind_some, readExponent?_append n.exponent hr]
  rfl

/-! ## Strings -/

/-- How a character is read back from its escape. -/
def partOf (c : Char) : StringPart :=
  if c.toNat < 0x20 ∧ c ≠ '\x08' ∧ c ≠ '\t' ∧ c ≠ '\n' ∧ c ≠ '\x0c' ∧ c ≠ '\r' then .unit c.toNat
  else .char c

theorem hexValue?_hexDigit {n : Nat} (hn : n < 16) : hexValue? (hexDigit n) = some n := by
  have hall : ∀ m < 16, hexValue? (hexDigit m) = some m := by decide
  exact hall n hn

/-- The escape of a character is read as one part. -/
theorem readParts?_escape (c : Char) (r : List Char) :
    readParts? (escape c ++ r) = (readParts? r).map fun x => (partOf c :: x.1, x.2) := by
  by_cases hshort : c = '"' ∨ c = '\\' ∨ c = '\x08' ∨ c = '\t' ∨ c = '\n' ∨ c = '\x0c' ∨ c = '\r'
  · rcases hshort with rfl | rfl | rfl | rfl | rfl | rfl | rfl <;>
      (show readParts? ('\\' :: _ :: r) = _; cases hr : readParts? r <;>
        simp [readParts?, unescape?, hr, partOf])
  simp only [not_or] at hshort
  obtain ⟨hquote, hslash, hb, ht, hn, hf, hcr⟩ := hshort
  by_cases hctl : c.toNat < 0x20
  · have hhigh := hexValue?_hexDigit (n := c.toNat / 16) (by omega)
    have hlow := hexValue?_hexDigit (n := c.toNat % 16) (by omega)
    have hzero : hexValue? '0' = some 0 := rfl
    have hsum : 0 * 4096 + 0 * 256 + c.toNat / 16 * 16 + c.toNat % 16 = c.toNat := by omega
    have hpart : partOf c = .unit c.toNat := if_pos ⟨hctl, hb, ht, hn, hf, hcr⟩
    simp only [escape, hquote, hslash, hb, ht, hn, hf, hcr, hctl, if_false, if_true,
      List.cons_append, List.nil_append]
    rw [readParts?]
    cases hr : readParts? r <;>
      simp only [hzero, hhigh, hlow, hsum, hpart, Option.bind_eq_bind, Option.bind_some,
        Option.bind_none, Option.map_some, Option.map_none, Option.pure_def]
  · have hpart : partOf c = .char c := if_neg fun h => hctl h.1
    simp only [escape, hquote, hslash, hb, ht, hn, hf, hcr, hctl, if_false, List.cons_append,
      List.nil_append]
    rw [readParts?, if_neg hctl]
    · cases hr : readParts? r <;> simp [hpart]
    · exact hquote
    · exact fun _ _ _ _ _ h => absurd h hslash
    · exact fun _ _ h => absurd h hslash

theorem readParts?_append (cs r : List Char) :
    readParts? (cs.flatMap escape ++ '"' :: r) = some (cs.map partOf, r) := by
  induction cs with
  | nil => rfl
  | cons c cs ih =>
    rw [List.flatMap_cons, List.append_assoc, readParts?_escape, ih]
    rfl

/-- A written control character is no surrogate. -/
theorem partOf_eq (c : Char) :
    partOf c = .char c ∨ (partOf c = .unit c.toNat ∧ c.toNat < 0x20) := by
  unfold partOf
  split
  next h => exact .inr ⟨rfl, h.1⟩
  next => exact .inl rfl

/-- The reader looks one part ahead for the partner of a surrogate only. -/
theorem assemble?_unit {n : Nat} (hn : n < 0x20) (ps : List StringPart) :
    assemble? (.unit n :: ps) = (assemble? ps).map (Char.ofNat n :: ·) := by
  have hlead : isLeading n = false := by
    simp only [isLeading, Bool.and_eq_false_iff, decide_eq_false_iff_not]
    omega
  have htrail : isTrailing n = false := by
    simp only [isTrailing, Bool.and_eq_false_iff, decide_eq_false_iff_not]
    omega
  cases ps with
  | nil => simp [assemble?, hlead, htrail]
  | cons p ps =>
    cases p with
    | char d => simp [assemble?, hlead, htrail]
    | unit m => simp [assemble?, hlead, htrail]

theorem assemble?_map_partOf (cs : List Char) : assemble? (cs.map partOf) = some cs := by
  induction cs with
  | nil => rfl
  | cons c cs ih =>
    rw [List.map_cons]
    rcases partOf_eq c with hc | ⟨hc, hlt⟩
    · rw [hc, assemble?, ih]
      rfl
    · rw [hc, assemble?_unit hlt, ih, Option.map_some, Char.ofNat_toNat]

/-- What follows the opening quote of a string. -/
def stringTail (s : Option String) : List Char := (stringChars s).tail

theorem stringChars_eq (s : Option String) : stringChars s = '"' :: stringTail s := by
  cases s <;> rfl

theorem readString?_append (s : Option String) (r : List Char) :
    readString? (stringTail s ++ r) = some (s, r) := by
  cases s with
  | none =>
    show readString? ('\\' :: 'u' :: 'd' :: '8' :: '0' :: '0' :: '"' :: r) = _
    simp [readString?, readParts?, hexValue?, assemble?, isLeading]
  | some s =>
    have htail : stringTail (some s) ++ r = s.toList.flatMap escape ++ '"' :: r := by
      show s.toList.flatMap escape ++ ['"'] ++ r = _
      rw [List.append_assoc, List.singleton_append]
    rw [htail, readString?, readParts?_append]
    simp [assemble?_map_partOf]

/-! ## Values -/

theorem readValue?_append {ws : List Char} (h : IsBlank ws) (n : Nat) (cs : List Char) :
    readValue? n (ws ++ cs) = readValue? n cs := by
  cases n with
  | zero => rfl
  | succ n => rw [readValue?, readValue?, skipBlanks_append h]

/-- A text begins with a mark that is neither white space nor a closing bracket. -/
def Opens (cs : List Char) : Prop := ∃ c r, cs = c :: r ∧ isBlank c = false ∧ c ≠ ']' ∧ c ≠ '}'

theorem Opens.append {cs : List Char} (h : Opens cs) (r : List Char) : Opens (cs ++ r) := by
  obtain ⟨c, cs, rfl, hc⟩ := h
  exact ⟨c, cs ++ r, rfl, hc⟩

theorem Opens.skipBlanks_append {ws cs : List Char} (h : Opens cs) (hws : IsBlank ws) :
    skipBlanks (ws ++ cs) = cs := by
  obtain ⟨c, cs, rfl, hc, -⟩ := h
  rw [Json.skipBlanks_append hws, skipBlanks_cons hc]

theorem isDigit_of_head {n : Numeral} (hn : n.IsGrammatical) :
    ∃ d ds, n.whole = d :: ds ∧ d.isDigit = true := by
  cases hds : n.whole with
  | nil => exact absurd hds hn.whole_ne_nil
  | cons d ds =>
    have hall := hn.whole_isDigit
    rw [hds, List.all_cons, Bool.and_eq_true] at hall
    exact ⟨d, ds, rfl, hall.1⟩

theorem opens_of_isDigit {d : Char} (hd : d.isDigit = true) (r : List Char) : Opens (d :: r) := by
  refine ⟨d, r, rfl, ?_, ?_, ?_⟩
  · simp only [isBlank, Bool.or_eq_false_iff, decide_eq_false_iff_not]
    refine ⟨⟨⟨?_, ?_⟩, ?_⟩, ?_⟩ <;> (rintro rfl; cases hd)
  · rintro rfl
    cases hd
  · rintro rfl
    cases hd

theorem Spelled.opens {j : Json} {cs : List Char} (h : Spelled j cs) : Opens cs := by
  cases h with
  | null => exact ⟨_, _, rfl, rfl, by decide, by decide⟩
  | true => exact ⟨_, _, rfl, rfl, by decide, by decide⟩
  | false => exact ⟨_, _, rfl, rfl, by decide, by decide⟩
  | @number n hn =>
    rw [numeralChars_eq]
    cases n.negative with
    | true => exact ⟨_, _, rfl, rfl, by decide, by decide⟩
    | false =>
      obtain ⟨d, ds, hds, hd⟩ := isDigit_of_head hn
      rw [hds]
      exact opens_of_isDigit hd _
  | string s =>
    rw [stringChars_eq]
    exact ⟨_, _, rfl, rfl, by decide, by decide⟩
  | emptyArray _ => exact ⟨_, _, rfl, rfl, by decide, by decide⟩
  | array _ => exact ⟨_, _, rfl, rfl, by decide, by decide⟩
  | emptyObject _ => exact ⟨_, _, rfl, rfl, by decide, by decide⟩
  | object _ => exact ⟨_, _, rfl, rfl, by decide, by decide⟩

theorem readValue?_numeral {n : Numeral} (hn : n.IsGrammatical) {r : List Char}
    (hr : EndsNumeral r) (k : Nat) :
    readValue? (k + 1) (numeralChars n ++ r) = some (.number n, r) := by
  have hread := readNumeral?_append hn hr
  rw [numeralChars_eq, readValue?]
  cases hneg : n.negative with
  | true =>
    rw [hneg] at hread
    rw [if_pos rfl, List.singleton_append, List.cons_append, skipBlanks_cons rfl]
    simp only [hread, Option.map_some]
  | false =>
    rw [hneg] at hread
    obtain ⟨d, ds, hds, hd⟩ := isDigit_of_head hn
    rw [hds] at hread ⊢
    obtain ⟨c, t, hct, hblank, -⟩ := opens_of_isDigit hd
      (ds ++ (fractionChars n.fraction ++ exponentChars n.exponent) ++ r)
    rw [if_neg Bool.false_ne_true, List.nil_append, List.cons_append, List.cons_append, hct,
      skipBlanks_cons hblank, ← hct]
    -- No other value begins with a digit.
    split
    case h_8 => simpa using hread
    all_goals
      rename_i heq
      obtain ⟨rfl, -⟩ := List.cons.inj heq
      cases hd

theorem readValue?_string (s : Option String) (k : Nat) (r : List Char) :
    readValue? (k + 1) (stringChars s ++ r) = some (.string s, r) := by
  rw [stringChars_eq, List.cons_append, readValue?, skipBlanks_cons rfl]
  simp only [readString?_append, Option.map_some]

theorem readElements?_append {ws : List Char} (h : IsBlank ws) (n : Nat) (cs : List Char) :
    readElements? n (ws ++ cs) = readElements? n cs := by
  cases n with
  | zero => rfl
  | succ n => rw [readElements?, readElements?, readValue?_append h]

theorem readMembers?_append {ws : List Char} (h : IsBlank ws) (n : Nat) (cs : List Char) :
    readMembers? n (ws ++ cs) = readMembers? n cs := by
  cases n with
  | zero => rfl
  | succ n => rw [readMembers?, readMembers?, skipBlanks_append h]

theorem readValue?_emptyArray {ws : List Char} (h : IsBlank ws) (k : Nat) (r : List Char) :
    readValue? (k + 1) ('[' :: (ws ++ ']' :: r)) = some (.array [], r) := by
  rw [readValue?, skipBlanks_cons rfl]
  simp only [skipBlanks_append h, skipBlanks_cons (c := ']') rfl]

theorem readValue?_emptyObject {ws : List Char} (h : IsBlank ws) (k : Nat) (r : List Char) :
    readValue? (k + 1) ('{' :: (ws ++ '}' :: r)) = some (.object [], r) := by
  rw [readValue?, skipBlanks_cons rfl]
  simp only [skipBlanks_append h, skipBlanks_cons (c := '}') rfl]

theorem readValue?_array {js : List Json} {ws cs r : List Char} {k : Nat} (h : IsBlank ws)
    (hopen : Opens cs) (hread : readElements? k (ws ++ cs) = some (js, r)) :
    readValue? (k + 1) ('[' :: (ws ++ cs)) = some (.array js, r) := by
  rw [readElements?_append h] at hread
  rw [readValue?, skipBlanks_cons rfl]
  simp only [hopen.skipBlanks_append h]
  obtain ⟨c, t, rfl, -, hc, -⟩ := hopen
  split
  next heq => exact absurd (List.cons.inj heq).1 hc
  next => rw [hread, Option.map_some]

theorem readValue?_object {ms : List (Option String × Json)} {ws cs r : List Char} {k : Nat}
    (h : IsBlank ws) (hopen : Opens cs) (hread : readMembers? k (ws ++ cs) = some (ms, r)) :
    readValue? (k + 1) ('{' :: (ws ++ cs)) = some (.object ms, r) := by
  rw [readMembers?_append h] at hread
  rw [readValue?, skipBlanks_cons rfl]
  simp only [hopen.skipBlanks_append h]
  obtain ⟨c, t, rfl, -, -, hc⟩ := hopen
  split
  next heq => exact absurd (List.cons.inj heq).1 hc
  next => rw [hread, Option.map_some]

theorem readElements?_last {j : Json} {cs ws r : List Char} {k : Nat} (h : IsBlank ws)
    (hread : readValue? k cs = some (j, ws ++ ']' :: r)) :
    readElements? (k + 1) cs = some ([j], r) := by
  rw [readElements?, hread]
  simp only [Option.bind_eq_bind, Option.bind_some, skipBlanks_append h,
    skipBlanks_cons (c := ']') rfl, Option.pure_def]

theorem readElements?_more {j : Json} {js : List Json} {cs ws rest r : List Char} {k : Nat}
    (h : IsBlank ws) (hread : readValue? k cs = some (j, ws ++ ',' :: rest))
    (hrest : readElements? k rest = some (js, r)) :
    readElements? (k + 1) cs = some (j :: js, r) := by
  rw [readElements?, hread]
  simp only [Option.bind_eq_bind, Option.bind_some, skipBlanks_append h,
    skipBlanks_cons (c := ',') rfl, hrest, Option.pure_def]

/-- A member up to its value. -/
theorem readMembers?_name (s : Option String) (k : Nat) (cs : List Char) :
    readMembers? (k + 1) (stringChars s ++ ':' :: cs) = (do
      let (j, r) ← readValue? k cs
      match skipBlanks r with
      | ',' :: r =>
        let (ms, r) ← readMembers? k r
        return ((s, j) :: ms, r)
      | '}' :: r => return ([(s, j)], r)
      | _ => none) := by
  rw [stringChars_eq, List.cons_append, readMembers?, skipBlanks_cons rfl]
  simp only [readString?_append, Option.bind_eq_bind, Option.bind_some]
  rfl

theorem readMembers?_last {s : Option String} {j : Json} {cs ws r : List Char} {k : Nat}
    (h : IsBlank ws) (hread : readValue? k cs = some (j, ws ++ '}' :: r)) :
    readMembers? (k + 1) (stringChars s ++ ':' :: cs) = some ([(s, j)], r) := by
  rw [readMembers?_name, hread]
  simp only [Option.bind_eq_bind, Option.bind_some, skipBlanks_append h,
    skipBlanks_cons (c := '}') rfl, Option.pure_def]

theorem readMembers?_more {s : Option String} {j : Json} {ms : List (Option String × Json)}
    {cs ws rest r : List Char} {k : Nat} (h : IsBlank ws)
    (hread : readValue? k cs = some (j, ws ++ ',' :: rest))
    (hrest : readMembers? k rest = some (ms, r)) :
    readMembers? (k + 1) (stringChars s ++ ':' :: cs) = some ((s, j) :: ms, r) := by
  rw [readMembers?_name, hread]
  simp only [Option.bind_eq_bind, Option.bind_some, skipBlanks_append h,
    skipBlanks_cons (c := ',') rfl, hrest, Option.pure_def]

theorem SpelledElements.opens {js : List Json} {cs : List Char} (h : SpelledElements js cs) :
    ∃ ws t, cs = ws ++ t ∧ IsBlank ws ∧ Opens t := by
  cases h with
  | last hws hj _ => exact ⟨_, _, rfl, hws, hj.opens.append _⟩
  | more hws hj _ _ => exact ⟨_, _, rfl, hws, hj.opens.append _⟩

theorem SpelledMembers.opens {ms : List (Option String × Json)} {cs : List Char}
    (h : SpelledMembers ms cs) : ∃ ws t, cs = ws ++ t ∧ IsBlank ws ∧ Opens t := by
  cases h with
  | @last s _ _ _ _ _ hws _ _ _ => exact ⟨_, _, rfl, hws, (Spelled.string s).opens.append _⟩
  | @more s _ _ _ _ _ _ _ hws _ _ _ _ =>
    exact ⟨_, _, rfl, hws, (Spelled.string s).opens.append _⟩

/-- What is spelled is read back, whatever follows it. The bound counts the characters. -/
theorem reads_of_spelled (n : Nat) :
    (∀ j cs r, Spelled j cs → cs.length ≤ n → EndsNumeral r →
      readValue? n (cs ++ r) = some (j, r)) ∧
    (∀ js cs r, SpelledElements js cs → cs.length ≤ n →
      readElements? n (cs ++ r) = some (js, r)) ∧
    (∀ ms cs r, SpelledMembers ms cs → cs.length ≤ n →
      readMembers? n (cs ++ r) = some (ms, r)) := by
  induction n with
  | zero =>
    refine ⟨fun j cs r hj hlen => ?_, fun js cs r hjs hlen => ?_, fun ms cs r hms hlen => ?_⟩
    · obtain ⟨c, t, rfl, -⟩ := hj.opens
      simp at hlen
    · obtain ⟨ws, t, rfl, -, c, t', rfl, -⟩ := hjs.opens
      simp at hlen
    · obtain ⟨ws, t, rfl, -, c, t', rfl, -⟩ := hms.opens
      simp at hlen
  | succ n ih =>
    obtain ⟨ihValue, ihElements, ihMembers⟩ := ih
    have hcomma (r : List Char) : EndsNumeral (',' :: r) := .cons rfl r
    refine ⟨fun j cs r hj hlen hr => ?_, fun js cs r hjs hlen => ?_, fun ms cs r hms hlen => ?_⟩
    · cases hj with
      | null => rfl
      | true => rfl
      | false => rfl
      | number hn => exact readValue?_numeral hn hr n
      | string s => exact readValue?_string s n r
      | emptyArray hws =>
        rw [List.cons_append, List.append_assoc]
        exact readValue?_emptyArray hws n r
      | emptyObject hws =>
        rw [List.cons_append, List.append_assoc]
        exact readValue?_emptyObject hws n r
      | array hjs =>
        have hread := ihElements _ _ r hjs (Nat.le_of_succ_le_succ hlen)
        obtain ⟨ws, t, rfl, hws, ht⟩ := hjs.opens
        rw [List.append_assoc] at hread
        rw [List.cons_append, List.append_assoc]
        exact readValue?_array hws (ht.append r) hread
      | object hms =>
        have hread := ihMembers _ _ r hms (Nat.le_of_succ_le_succ hlen)
        obtain ⟨ws, t, rfl, hws, ht⟩ := hms.opens
        rw [List.append_assoc] at hread
        rw [List.cons_append, List.append_assoc]
        exact readValue?_object hws (ht.append r) hread
    · cases hjs with
      | @last j ws cs ws' hws hj hws' =>
        simp only [List.length_append, List.length_cons] at hlen
        simp only [List.append_assoc, List.cons_append, List.nil_append]
        rw [readElements?_append hws]
        refine readElements?_last hws' (ihValue _ _ _ hj (by omega) ?_)
        exact .append hws' (.cons rfl r)
      | @more j js ws cs ws' rest hws hj hws' hjs =>
        simp only [List.length_append, List.length_cons] at hlen
        simp only [List.append_assoc, List.cons_append]
        rw [readElements?_append hws]
        refine readElements?_more hws' (ihValue _ _ _ hj (by omega) ?_)
          (ihElements _ _ r hjs (by omega))
        exact .append hws' (hcomma _)
    · cases hms with
      | @last s j ws ws₁ cs ws₂ hws hws₁ hj hws₂ =>
        simp only [List.length_append, List.length_cons] at hlen
        simp only [List.append_assoc, List.cons_append, List.nil_append]
        rw [readMembers?_append hws]
        refine readMembers?_last hws₂ ?_
        rw [readValue?_append hws₁]
        exact ihValue _ _ _ hj (by omega) (.append hws₂ (.cons rfl r))
      | @more s j ms ws ws₁ cs ws₂ rest hws hws₁ hj hws₂ hms =>
        simp only [List.length_append, List.length_cons] at hlen
        simp only [List.append_assoc, List.cons_append]
        rw [readMembers?_append hws]
        refine readMembers?_more hws₂ ?_ (ihMembers _ _ r hms (by omega))
        rw [readValue?_append hws₁]
        exact ihValue _ _ _ hj (by omega) (.append hws₂ (hcomma _))

/-- What is spelled is read back, with white space around it. -/
theorem read?_of_spelled {j : Json} {ws cs ws' : List Char} (hws : IsBlank ws)
    (hj : Spelled j cs) (hws' : IsBlank ws') :
    read? (String.ofList (ws ++ (cs ++ ws'))) = some j := by
  have hends : EndsNumeral (ws' ++ []) := .append hws' fun _ hc => nomatch hc
  rw [List.append_nil] at hends
  have hread := (reads_of_spelled ((ws ++ (cs ++ ws')).length + 1)).1 j cs ws' hj
    (by simp only [List.length_append]; omega) hends
  have hskip : skipBlanks ws' = [] := by
    have h := skipBlanks_append hws' []
    rwa [List.append_nil] at h
  rw [read?, String.toList_ofList, readValue?_append hws, hread]
  simp only [hskip]
  rfl

/-! ## The layout with one member on a line -/

mutual

/-- The layout with one element or member on a line spells. -/
theorem spelled_pretty (level : Nat) : ∀ j : Json, j.IsGrammatical → Spelled j (prettyChars level j)
  | .null, _ => .null
  | .bool true, _ => .true
  | .bool false, _ => .false
  | .number _, .number hn => .number hn
  | .string s, _ => .string s
  | .array [], _ => .emptyArray .nil
  | .array (j :: js), .array h => by
    have hall := spelledElements_pretty (level + 1) level (j :: js) h (by simp)
    simpa only [prettyChars, List.cons_append, List.append_assoc] using Spelled.array hall
  | .object [], _ => .emptyObject .nil
  | .object (m :: ms), .object h => by
    have hall := spelledMembers_pretty (level + 1) level (m :: ms) h (by simp)
    simpa only [prettyChars, List.cons_append, List.append_assoc] using Spelled.object hall

theorem spelledElements_pretty (level outer : Nat) : ∀ js : List Json,
    (∀ j ∈ js, j.IsGrammatical) → js ≠ [] →
      SpelledElements js (prettyElements level true js ++ (newLine outer ++ [']']))
  | [], _, hne => absurd rfl hne
  | [j], h, _ => by
    have hj := spelled_pretty level j (h j List.mem_cons_self)
    simpa [prettyElements] using SpelledElements.last (.newLine level) hj (.newLine outer)
  | j :: k :: js, h, _ => by
    have hj := spelled_pretty level j (h j List.mem_cons_self)
    have hjs := spelledElements_pretty level outer (k :: js)
      (fun i hi => h i (List.mem_cons_of_mem _ hi)) (by simp)
    simpa [prettyElements] using SpelledElements.more (.newLine level) hj .nil hjs

theorem spelledMembers_pretty (level outer : Nat) : ∀ ms : List (Option String × Json),
    (∀ m ∈ ms, m.2.IsGrammatical) → ms ≠ [] →
      SpelledMembers ms (prettyMembers level true ms ++ (newLine outer ++ ['}']))
  | [], _, hne => absurd rfl hne
  | [(s, j)], h, _ => by
    have hj := spelled_pretty level j (h (s, j) List.mem_cons_self)
    have hspace : IsBlank [' '] := by simp [IsBlank, isBlank]
    simpa [prettyMembers] using
      SpelledMembers.last (s := s) (.newLine level) hspace hj (.newLine outer)
  | (s, j) :: m :: ms, h, _ => by
    have hj := spelled_pretty level j (h (s, j) List.mem_cons_self)
    have hspace : IsBlank [' '] := by simp [IsBlank, isBlank]
    have hms := spelledMembers_pretty level outer (m :: ms)
      (fun i hi => h i (List.mem_cons_of_mem _ hi)) (by simp)
    simpa [prettyMembers] using SpelledMembers.more (s := s) (.newLine level) hspace hj .nil hms

end

/-- What is written with one element or member on a line is read back. -/
theorem read?_pretty {j : Json} (h : j.IsGrammatical) : read? j.pretty = some j := by
  have hread := read?_of_spelled .nil (spelled_pretty 0 j h) .nil
  rwa [List.nil_append, List.append_nil] at hread

/-! ## The layout without white space -/

mutual

/-- The layout without white space spells. -/
theorem spelled_compact : ∀ j : Json, j.IsGrammatical → Spelled j (compactChars j)
  | .null, _ => .null
  | .bool true, _ => .true
  | .bool false, _ => .false
  | .number _, .number hn => .number hn
  | .string s, _ => .string s
  | .array [], _ => .emptyArray .nil
  | .array (j :: js), .array h => .array (spelledElements_compact (j :: js) h (by simp))
  | .object [], _ => .emptyObject .nil
  | .object (m :: ms), .object h => .object (spelledMembers_compact (m :: ms) h (by simp))

theorem spelledElements_compact : ∀ js : List Json, (∀ j ∈ js, j.IsGrammatical) → js ≠ [] →
    SpelledElements js (compactElements true js ++ [']'])
  | [], _, hne => absurd rfl hne
  | [j], h, _ => by
    have hj := spelled_compact j (h j List.mem_cons_self)
    simpa [compactElements] using SpelledElements.last .nil hj .nil
  | j :: k :: js, h, _ => by
    have hj := spelled_compact j (h j List.mem_cons_self)
    have hjs := spelledElements_compact (k :: js)
      (fun i hi => h i (List.mem_cons_of_mem _ hi)) (by simp)
    simpa [compactElements] using SpelledElements.more .nil hj .nil hjs

theorem spelledMembers_compact : ∀ ms : List (Option String × Json),
    (∀ m ∈ ms, m.2.IsGrammatical) → ms ≠ [] →
      SpelledMembers ms (compactMembers true ms ++ ['}'])
  | [], _, hne => absurd rfl hne
  | [(s, j)], h, _ => by
    have hj := spelled_compact j (h (s, j) List.mem_cons_self)
    simpa [compactMembers] using SpelledMembers.last (s := s) .nil .nil hj .nil
  | (s, j) :: m :: ms, h, _ => by
    have hj := spelled_compact j (h (s, j) List.mem_cons_self)
    have hms := spelledMembers_compact (m :: ms)
      (fun i hi => h i (List.mem_cons_of_mem _ hi)) (by simp)
    simpa [compactMembers] using SpelledMembers.more (s := s) .nil .nil hj .nil hms

end

/-- What is written without white space is read back. -/
theorem read?_compact {j : Json} (h : j.IsGrammatical) : read? j.compact = some j := by
  have hread := read?_of_spelled .nil (spelled_compact j h) .nil
  rwa [List.nil_append, List.append_nil] at hread

/-! ## What is read -/

theorem isGrammatical_of_readNumeral? {negative : Bool} {cs r : List Char} {n : Numeral}
    (h : readNumeral? negative cs = some (n, r)) : n.IsGrammatical := by
  rcases hspan : Decimal.spanDigits cs with ⟨whole, rest⟩
  simp only [readNumeral?, hspan] at h
  split at h
  · cases h
  next hlead =>
    simp only [Bool.or_eq_true, List.isEmpty_iff, Bool.and_eq_true, decide_eq_true_eq, not_or,
      not_and, Decidable.not_not] at hlead
    obtain ⟨⟨fraction, r₁⟩, hfraction, h⟩ := Option.bind_eq_some_iff.mp h
    obtain ⟨⟨exponent, r₂⟩, -, h⟩ := Option.bind_eq_some_iff.mp h
    cases h
    refine ⟨hlead.1, (Decimal.eq_of_spanDigits hspan).1, hlead.2, ?_⟩
    show fraction.all Char.isDigit = true
    unfold readFraction? at hfraction
    split at hfraction
    next r =>
      rcases hdigits : Decimal.spanDigits r with ⟨ds, r₃⟩
      rw [hdigits] at hfraction
      dsimp only at hfraction
      split at hfraction
      · cases hfraction
      · cases hfraction
        exact (Decimal.eq_of_spanDigits hdigits).1
    next =>
      cases hfraction
      rfl

/-- Every value that is read has proper numerals. -/
theorem isGrammatical_of_reads (n : Nat) :
    (∀ cs j r, readValue? n cs = some (j, r) → j.IsGrammatical) ∧
    (∀ cs js r, readElements? n cs = some (js, r) → ∀ j ∈ js, j.IsGrammatical) ∧
    (∀ cs ms r, readMembers? n cs = some (ms, r) → ∀ m ∈ ms, m.2.IsGrammatical) := by
  induction n with
  | zero => exact ⟨nofun, nofun, nofun⟩
  | succ n ih =>
    obtain ⟨ihValue, ihElements, ihMembers⟩ := ih
    refine ⟨fun cs j r h => ?_, fun cs js r h => ?_, fun cs ms r h => ?_⟩
    · rw [readValue?] at h
      split at h
      · cases h
        exact .null
      · cases h
        exact .bool true
      · cases h
        exact .bool false
      · obtain ⟨⟨s, _⟩, -, h⟩ := Option.map_eq_some_iff.mp h
        cases h
        exact .string s
      · split at h
        · cases h
          exact .array nofun
        · obtain ⟨⟨js, _⟩, hjs, h⟩ := Option.map_eq_some_iff.mp h
          cases h
          exact .array (ihElements _ _ _ hjs)
      · split at h
        · cases h
          exact .object nofun
        · obtain ⟨⟨ms, _⟩, hms, h⟩ := Option.map_eq_some_iff.mp h
          cases h
          exact .object (ihMembers _ _ _ hms)
      · obtain ⟨⟨m, _⟩, hm, h⟩ := Option.map_eq_some_iff.mp h
        cases h
        exact .number (isGrammatical_of_readNumeral? hm)
      · obtain ⟨⟨m, _⟩, hm, h⟩ := Option.map_eq_some_iff.mp h
        cases h
        exact .number (isGrammatical_of_readNumeral? hm)
    · rw [readElements?] at h
      obtain ⟨⟨j, r₁⟩, hj, h⟩ := Option.bind_eq_some_iff.mp h
      have hgrammatical := ihValue _ _ _ hj
      dsimp only at h
      split at h
      · obtain ⟨⟨js', r₂⟩, hjs, h⟩ := Option.bind_eq_some_iff.mp h
        cases h
        exact List.forall_mem_cons.mpr ⟨hgrammatical, ihElements _ _ _ hjs⟩
      · cases h
        exact List.forall_mem_singleton.mpr hgrammatical
      · cases h
    · rw [readMembers?] at h
      split at h
      next r₀ _ =>
        obtain ⟨⟨s, r₁⟩, -, h⟩ := Option.bind_eq_some_iff.mp h
        dsimp only at h
        split at h
        next r₂ _ =>
          obtain ⟨⟨j, r₃⟩, hj, h⟩ := Option.bind_eq_some_iff.mp h
          have hgrammatical := ihValue _ _ _ hj
          dsimp only at h
          split at h
          · obtain ⟨⟨ms', r₄⟩, hms, h⟩ := Option.bind_eq_some_iff.mp h
            cases h
            exact List.forall_mem_cons.mpr ⟨hgrammatical, ihMembers _ _ _ hms⟩
          · cases h
            exact List.forall_mem_singleton.mpr hgrammatical
          · cases h
        · cases h
      · cases h

theorem isGrammatical_of_read? {s : String} {j : Json} (h : read? s = some j) :
    j.IsGrammatical := by
  unfold read? at h
  dsimp only at h
  split at h
  next hread =>
    split at h
    · cases h
      exact (isGrammatical_of_reads _).1 _ _ _ hread
    · cases h
  · cases h

end Json

end EngineBench
