import EngineBench.Invocation
import EngineBench.Proofs.Literals
import EngineBench.Proofs.Utf8
import Mathlib.Data.List.TakeWhile

/-!
# The grammar of the command line

A command line is a list of groups: an option with its value, in one token or in two, or a switch.
The machine of `Invocation` accepts exactly those, and what it makes of them is what is made of the
groups one by one.

* `ValueOption.Denotes` is the lexical domain of an option: the byte strings that spell a value.
* `Options.Split` cuts the tokens of a command line into groups.
* `Options.Split.run_eq` and `Options.exists_split` say that the machine accepts nothing else.
-/

namespace EngineBench

/-! ## Values -/

namespace ValueOption

/-- A byte string spells a floating-point number. -/
def SpellsFloat (bs : Bytes) (x : Binary64) : Prop :=
  ∃ s, bs = Text.encode s ∧ Decimal.FloatLiteral x s.toList

/-- A byte string spells a whole number up to a bound. -/
def SpellsWhole (bound : Nat) (bs : Bytes) (n : Nat) : Prop :=
  ∃ s, bs = Text.encode s ∧ Decimal.WholeLiteral bound n s.toList

/-- Any byte string but the empty one is a path. -/
def SpellsPath (bs : Bytes) (p : Path) : Prop := bs ≠ [] ∧ p = ⟨bs⟩

/-- The byte strings that an option takes, with the values that they stand for. -/
def Denotes : (o : ValueOption) → Bytes → o.Value → Prop
  | .parameter .model, bs, (s : String) => bs = Text.encode s
  | .parameter .memoryFraction, bs, x => SpellsFloat bs x
  | .parameter .dataset, bs, p => SpellsPath bs p
  | .parameter .port, bs, (n : UInt16) => SpellsWhole 65535 bs n.toNat
  | .parameter .firstToken, bs, x => SpellsFloat bs x
  | .parameter .perToken, bs, x => SpellsFloat bs x
  | .parameter .contextTensor, bs, (n : UInt32) => SpellsWhole 4294967295 bs n.toNat
  | .parameter .contextPipeline, bs, (n : UInt32) => SpellsWhole 4294967295 bs n.toNat
  | .parameter .decodingTensor, bs, (n : UInt32) => SpellsWhole 4294967295 bs n.toNat
  | .parameter .decodingPipeline, bs, (n : UInt32) => SpellsWhole 4294967295 bs n.toNat
  | .settings, bs, p => SpellsPath bs p

theorem readText_eq_ok_iff {α : Type} {o : ValueOption} {read? : String → Option α} {bs : Bytes}
    {a : α} : readText o read? bs = .ok a ↔ ∃ s, bs = Text.encode s ∧ read? s = some a := by
  simp only [← Text.decode?_eq_some_iff, readText]
  rcases Text.decode? bs with _ | s
  · simp
  · rcases hs : read? s with _ | b <;> simp [hs]

theorem readModel_eq_ok_iff {o : ValueOption} {bs : Bytes} {s : String} :
    readText o some bs = .ok s ↔ bs = Text.encode s := by
  simp [readText_eq_ok_iff]

theorem readPath_eq_ok_iff {o : ValueOption} {bs : Bytes} {p : Path} :
    readPath o bs = .ok p ↔ SpellsPath bs p := by
  unfold readPath SpellsPath
  cases bs <;> simp [eq_comm]

theorem readFloat_eq_ok_iff {o : ValueOption} {bs : Bytes} {x : Binary64} :
    readText o Decimal.readFloat? bs = .ok x ↔ SpellsFloat bs x := by
  simp only [readText_eq_ok_iff, SpellsFloat, Decimal.readFloat?_eq_some_iff]

theorem readPort?_eq_some_iff {s : String} {n : UInt16} :
    readPort? s = some n ↔ Decimal.WholeLiteral 65535 n.toNat s.toList := by
  rw [readPort?, Option.map_eq_some_iff]
  simp only [Decimal.readWhole?_eq_some_iff]
  constructor
  · rintro ⟨m, hm, rfl⟩
    rwa [UInt16.toNat_ofNat_of_lt' (Nat.lt_succ_of_le hm.le)]
  · intro h
    exact ⟨n.toNat, h, UInt16.ofNat_toNat⟩

theorem readDegree?_eq_some_iff {s : String} {n : UInt32} :
    readDegree? s = some n ↔ Decimal.WholeLiteral 4294967295 n.toNat s.toList := by
  rw [readDegree?, Option.map_eq_some_iff]
  simp only [Decimal.readWhole?_eq_some_iff]
  constructor
  · rintro ⟨m, hm, rfl⟩
    rwa [UInt32.toNat_ofNat_of_lt' (Nat.lt_succ_of_le hm.le)]
  · intro h
    exact ⟨n.toNat, h, UInt32.ofNat_toNat⟩

theorem readPort_eq_ok_iff {o : ValueOption} {bs : Bytes} {n : UInt16} :
    readText o readPort? bs = .ok n ↔ SpellsWhole 65535 bs n.toNat := by
  simp only [readText_eq_ok_iff, SpellsWhole, readPort?_eq_some_iff]

theorem readDegree_eq_ok_iff {o : ValueOption} {bs : Bytes} {n : UInt32} :
    readText o readDegree? bs = .ok n ↔ SpellsWhole 4294967295 bs n.toNat := by
  simp only [readText_eq_ok_iff, SpellsWhole, readDegree?_eq_some_iff]

/-- An option reads exactly the byte strings of its domain, as what they stand for. -/
theorem read_eq_ok_iff (o : ValueOption) {bs : Bytes} {v : o.Value} :
    o.read bs = .ok v ↔ o.Denotes bs v := by
  rcases o with p | _
  · cases p with
    | model => exact readModel_eq_ok_iff (o := .parameter .model)
    | memoryFraction => exact readFloat_eq_ok_iff
    | dataset => exact readPath_eq_ok_iff
    | port => exact readPort_eq_ok_iff
    | firstToken => exact readFloat_eq_ok_iff
    | perToken => exact readFloat_eq_ok_iff
    | contextTensor => exact readDegree_eq_ok_iff
    | contextPipeline => exact readDegree_eq_ok_iff
    | decodingTensor => exact readDegree_eq_ok_iff
    | decodingPipeline => exact readDegree_eq_ok_iff
  · exact readPath_eq_ok_iff

end ValueOption

namespace Options

/-! ## Groups -/

/-- A part of a command line: an option with its value, or a switch. -/
inductive Group where
  | option (o : ValueOption) (value : Bytes)
  | switch (s : Switch)
  deriving DecidableEq

/-- What a group is about. -/
def Group.subject : Group → ValueOption ⊕ Switch
  | .option o _ => .inl o
  | .switch s => .inr s

/-- A token that may stand behind an option: it does not begin with a dash, or is nothing else. -/
def IsValue (token : Bytes) : Prop := token.head? ≠ some dash ∨ token = [dash]

/-- The ways to write a group. -/
inductive Group.Spelled : Group → List Bytes → Prop
  | separate {o : ValueOption} {value : Bytes} : IsValue value →
      Spelled (.option o value) [Text.encode o.flag, value]
  | attached {o : ValueOption} {value : Bytes} :
      Spelled (.option o value) [Text.encode o.flag ++ equals :: value]
  | long {s : Switch} : Spelled (.switch s) [Text.encode s.flag]
  | short : Spelled (.switch .verbose) [Text.encode "-v"]

/-- The tokens of a command line, cut into groups; behind them may stand one separator. -/
inductive Split : List Bytes → List Group → Prop
  | nil : Split [] []
  | separator : Split [Text.encode "--"] []
  | cons {x : Group} {tokens rest : List Bytes} {xs : List Group} : x.Spelled tokens →
      Split rest xs → Split (tokens ++ rest) (x :: xs)

/-- Takes up a group as a whole. -/
def Given.add (g : Given) : Group → Except Stop Given
  | .option o v => (g.store o (some v)).mapError .refused
  | .switch s => if g.isOn s then .error (.refused (.repeatedSwitch s)) else .ok (g.turnOn s)

/-! ## Tokens -/

/-- The name of an option, without its dashes. -/
def nameOf (flag : String) : Bytes := (Text.encode flag).drop 2

theorem encode_option_flag (o : ValueOption) :
    Text.encode o.flag = dash :: dash :: nameOf o.flag := by
  rcases o with (_ | _ | _ | _ | _ | _ | _ | _ | _ | _) | _ <;> decide

theorem option_name (o : ValueOption) : nameOf o.flag ≠ [] ∧ ∀ b ∈ nameOf o.flag, b ≠ equals := by
  have hname : nameOf o.flag ≠ [] ∧ equals ∉ nameOf o.flag := by
    rcases o with (_ | _ | _ | _ | _ | _ | _ | _ | _ | _) | _ <;> decide
  refine ⟨hname.1, fun b hb => ?_⟩
  rintro rfl
  exact hname.2 hb

theorem find?_option (o : ValueOption) :
    (ValueOption.all.find? fun p => Text.encode p.flag = dash :: dash :: nameOf o.flag) =
      some o := by
  rcases o with (_ | _ | _ | _ | _ | _ | _ | _ | _ | _) | _ <;> decide

theorem items_of_isValue {token : Bytes} (h : IsValue token) : items token = [.word token] := by
  rcases h with h | rfl
  · unfold items
    split
    · exact absurd rfl h
    · exact absurd rfl h
    · exact absurd rfl h
    · rfl
  · rfl

theorem items_long {body : Bytes} (hb : body ≠ []) :
    items (dash :: dash :: body) = [ofLong body] := by
  cases body with
  | nil => exact absurd rfl hb
  | cons b r => rfl

theorem items_cluster {b : UInt8} {r : Bytes} (hb : b ≠ dash) :
    items (dash :: b :: r) = ofCluster (b :: r) := by
  unfold items
  split
  next heq => cases heq; exact absurd rfl hb
  next heq => cases heq; exact absurd rfl hb
  next heq => cases heq; rfl
  next hno => exact absurd rfl (hno b r)

theorem ofLong_name {name : Bytes} (hname : ∀ b ∈ name, b ≠ equals) :
    ofLong name = ofName name none := by
  have hall : ∀ b ∈ name, decide (b ≠ equals) = true := by simpa using hname
  rw [ofLong, List.takeWhile_eq_self_iff.mpr hall, List.dropWhile_eq_nil_iff.mpr hall]

theorem ofLong_attached {name : Bytes} (hname : ∀ b ∈ name, b ≠ equals) (value : Bytes) :
    ofLong (name ++ equals :: value) = ofName name (some value) := by
  have hall : ∀ b ∈ name, decide (b ≠ equals) = true := by simpa using hname
  rw [ofLong, List.takeWhile_append_of_pos hall, List.dropWhile_append_of_pos hall]
  simp

theorem ofName_option (o : ValueOption) (attached : Option Bytes) :
    ofName (nameOf o.flag) attached = .option o attached := by
  simp only [ofName, find?_option]

theorem items_option (o : ValueOption) : items (Text.encode o.flag) = [.option o none] := by
  obtain ⟨hne, hname⟩ := option_name o
  rw [encode_option_flag, items_long hne, ofLong_name hname, ofName_option]

theorem items_attached (o : ValueOption) (value : Bytes) :
    items (Text.encode o.flag ++ equals :: value) = [.option o (some value)] := by
  obtain ⟨hne, hname⟩ := option_name o
  rw [encode_option_flag, List.cons_append, List.cons_append, items_long (by simp),
    ofLong_attached hname, ofName_option]

theorem items_switch (s : Switch) : items (Text.encode s.flag) = [.switch s] := by
  cases s <;> decide

theorem items_short : items (Text.encode "-v") = [.switch .verbose] := by
  show ofCluster (Text.encode "v") = _
  rw [ofCluster, Text.decode?_eq_some_iff.mpr rfl]
  rfl

theorem items_separator : items (Text.encode "--") = [.separator] := by decide

/-- What a group says that stands in one token. -/
def Item.ofGroup : Group → Item
  | .option o v => .option o (some v)
  | .switch s => .switch s

theorem items_spelled {x : Group} {token : Bytes} (h : x.Spelled [token]) :
    items token = [.ofGroup x] := by
  cases h with
  | attached => exact items_attached _ _
  | long => exact items_switch _
  | short => exact items_short

/-! ## Steps of the machine -/

theorem bind_eq_ok_iff {ε α β : Type} {x : Except ε α} {f : α → Except ε β} {b : β} :
    (x >>= f) = .ok b ↔ ∃ a, x = .ok a ∧ f a = .ok b := by
  cases x with
  | error e => exact ⟨nofun, fun ⟨_, h, _⟩ => nomatch h⟩
  | ok a =>
    constructor
    · intro h
      exact ⟨a, rfl, h⟩
    · rintro ⟨_, ⟨⟩, h⟩
      exact h

theorem pure_eq_ok_iff {ε α : Type} {a b : α} : (pure a : Except ε α) = .ok b ↔ b = a := by
  constructor
  · rintro ⟨⟩
    rfl
  · rintro rfl
    rfl

theorem mapError_eq_ok_iff {ε ε' α : Type} {f : ε → ε'} {x : Except ε α} {a : α} :
    x.mapError f = .ok a ↔ x = .ok a := by
  cases x with
  | error e => exact ⟨nofun, nofun⟩
  | ok b =>
    constructor
    · rintro ⟨⟩
      rfl
    · rintro ⟨⟩
      rfl

/-- An option without its value becomes pending. -/
theorem step_option_iff {s s' : State} {o : ValueOption} :
    s.step (.option o none) = .ok s' ↔
      ∃ g, s.flush = .ok g ∧ s' = ⟨g, some ⟨o, none⟩, s.trailing⟩ := by
  simp only [State.step, bind_eq_ok_iff, pure_eq_ok_iff]

/-- A group in one token is taken up as a whole, behind what was pending. -/
theorem step_ofGroup_iff {s s' : State} {x : Group} :
    s.step (.ofGroup x) = .ok s' ↔
      ∃ g g', s.flush = .ok g ∧ g.add x = .ok g' ∧ s' = ⟨g', none, s.trailing⟩ := by
  cases x with
  | option o v =>
    simp only [Item.ofGroup, State.step, Given.add, bind_eq_ok_iff, pure_eq_ok_iff, exists_and_left]
  | switch w =>
    simp only [Item.ofGroup, State.step, Given.add, bind_eq_ok_iff, exists_and_left]
    refine exists_congr fun g => and_congr_right fun _ => ?_
    split
    · exact ⟨nofun, fun ⟨_, h, _⟩ => nomatch h⟩
    · constructor
      · rintro ⟨⟩
        exact ⟨_, rfl, rfl⟩
      · rintro ⟨_, ⟨⟩, rfl⟩
        rfl

/-- What the machine stops at, in whatever state. -/
def Item.IsRefused : Item → Prop
  | .notice _ | .excess .. | .unknown _ => True
  | _ => False

theorem not_ok_of_isRefused {x : Item} (hx : x.IsRefused) (s s' : State) : s.step x ≠ .ok s' := by
  cases x with
  | notice n =>
    simp only [State.step]
    cases s.flush <;> exact nofun
  | excess flag v => exact nofun
  | unknown token => exact nofun
  | _ => exact hx.elim

/-- A token at which the machine stops, in whatever state. -/
def Refuses (token : Bytes) : Prop := ∀ s s', (items token).foldlM State.step s ≠ .ok s'

theorem foldlM_ne_ok_of_mem {x : Item} {xs : List Item} (hmem : x ∈ xs) (hx : x.IsRefused)
    (s s' : State) : xs.foldlM State.step s ≠ .ok s' := by
  induction xs generalizing s with
  | nil => cases hmem
  | cons y xs ih =>
    intro h
    rw [List.foldlM_cons] at h
    obtain ⟨s₁, hy, hrest⟩ := bind_eq_ok_iff.mp h
    rcases List.mem_cons.mp hmem with rfl | hmem
    · exact not_ok_of_isRefused hx _ _ hy
    · exact ih hmem s₁ hrest

/-- The short switch is not accepted twice in a cluster. -/
theorem verbose_twice (xs : List Item) (s s' : State) :
    (.switch .verbose :: .switch .verbose :: xs).foldlM State.step s ≠ .ok s' := by
  intro h
  rw [List.foldlM_cons] at h
  obtain ⟨s₁, hfirst, hrest⟩ := bind_eq_ok_iff.mp h
  rw [List.foldlM_cons] at hrest
  obtain ⟨s₂, hsecond, -⟩ := bind_eq_ok_iff.mp hrest
  obtain ⟨g, g₁, -, hadd, rfl⟩ := step_ofGroup_iff (x := .switch .verbose).mp hfirst
  obtain ⟨_, g₂, ⟨⟩, hagain, -⟩ := step_ofGroup_iff (x := .switch .verbose).mp hsecond
  have hon : g₁.isOn .verbose = true := by
    simp only [Given.add] at hadd
    split at hadd
    · cases hadd
    · cases hadd
      simp [Given.turnOn]
  simp only [Given.add, hon, if_true] at hagain
  cases hagain

/-! ## What a token can be -/

/-- A long option is what its token spells, or it is refused. -/
theorem ofName_cases (name : Bytes) (attached : Option Bytes) :
    (∃ o, Text.encode (ValueOption.flag o) = dash :: dash :: name) ∨
      (∃ s, Text.encode (Switch.flag s) = dash :: dash :: name ∧ attached = none) ∨
      (ofName name attached).IsRefused := by
  unfold ofName
  simp only
  split
  next o ho =>
    have h := List.find?_some ho
    exact .inl ⟨o, by simpa using h⟩
  split
  next s hs =>
    have h := List.find?_some hs
    exact .inr (.inl ⟨s, by simpa using h, rfl⟩)
  · exact .inr (.inr trivial)
  · split <;> exact .inr (.inr trivial)

/-- A letter stands for the short switch, or for nothing that is accepted. -/
theorem ofShort_cases (c : Char) : c = 'v' ∨ (ofShort c).IsRefused := by
  unfold ofShort
  split
  · exact .inl rfl
  · exact .inr trivial
  · exact .inr trivial
  · exact .inr trivial

/-- A cluster of short options is the short switch alone, or it is refused. -/
theorem cluster_cases (b : UInt8) (r : Bytes) :
    b :: r = Text.encode "v" ∨ ∀ s s', (ofCluster (b :: r)).foldlM State.step s ≠ .ok s' := by
  rcases hs : Text.decode? (b :: r) with _ | s
  · simp only [ofCluster, hs]
    exact .inr (foldlM_ne_ok_of_mem (List.mem_append_right _ (List.mem_singleton_self _)) trivial)
  have hencode := Text.decode?_eq_some_iff.mp hs
  rcases hcs : s.toList with _ | ⟨c, cs⟩
  · rw [Text.encode, hcs] at hencode
    cases hencode
  simp only [ofCluster, hs, hcs]
  by_cases hall : ∀ d ∈ c :: cs, d = 'v'
  · cases cs with
    | nil =>
      refine .inl ?_
      rw [hencode, Text.encode, hcs, hall c (List.mem_singleton_self c)]
      rfl
    | cons d cs =>
      refine .inr ?_
      rw [hall c (by simp), hall d (by simp)]
      exact verbose_twice _
  · simp only [not_forall] at hall
    obtain ⟨d, hd, hne⟩ := hall
    exact .inr (foldlM_ne_ok_of_mem (List.mem_map_of_mem hd) ((ofShort_cases d).resolve_left hne))

/-- Every token is a value, the separator, an option, a group, or refused. -/
theorem token_cases (token : Bytes) :
    IsValue token ∨ token = Text.encode "--" ∨ (∃ o, token = Text.encode (ValueOption.flag o)) ∨
      (∃ x : Group, x.Spelled [token]) ∨ Refuses token := by
  have hrefused {x : Item} (hitems : items token = [x]) (hx : x.IsRefused) : Refuses token := by
    intro s s'
    rw [hitems]
    exact foldlM_ne_ok_of_mem (List.mem_singleton_self x) hx s s'
  rcases token with _ | ⟨b, _ | ⟨b', r⟩⟩
  · exact .inl (.inl nofun)
  · by_cases hb : b = dash
    · exact .inl (.inr (by rw [hb]))
    · exact .inl (.inl (by simpa using hb))
  by_cases hb : b = dash
  swap
  · exact .inl (.inl (by simpa using hb))
  subst hb
  by_cases hb' : b' = dash
  · subst hb'
    cases r with
    | nil => exact .inr (.inl (by decide))
    | cons c r =>
      have hlong := items_long (List.cons_ne_nil c r)
      generalize c :: r = body at hlong hrefused
      rcases hrest : body.dropWhile (· ≠ equals) with _ | ⟨e, value⟩
      · -- No value is attached.
        have hname : ∀ b ∈ body, b ≠ equals := by simpa using hrest
        rw [ofLong_name hname] at hlong
        rcases ofName_cases body none with ⟨o, ho⟩ | ⟨w, hw, -⟩ | hno
        · exact .inr (.inr (.inl ⟨o, ho.symm⟩))
        · exact .inr (.inr (.inr (.inl ⟨.switch w, hw ▸ .long⟩)))
        · exact .inr (.inr (.inr (.inr (hrefused hlong hno))))
      · have hname : ∀ b ∈ body.takeWhile (· ≠ equals), b ≠ equals := fun b hb => by
          simpa using List.mem_takeWhile_imp hb
        have he : e = equals := by
          have hhead := List.head?_dropWhile_not (· ≠ equals) body
          rw [hrest] at hhead
          simpa using hhead
        have hbody := List.takeWhile_append_dropWhile (p := (· ≠ equals)) (l := body)
        rw [hrest, he] at hbody
        generalize body.takeWhile (· ≠ equals) = name at hname hbody
        subst hbody
        rw [ofLong_attached hname] at hlong
        rcases ofName_cases name (some value) with ⟨o, ho⟩ | ⟨w, -, hw⟩ | hno
        · refine .inr (.inr (.inr (.inl ⟨.option o value, ?_⟩)))
          have htoken : dash :: dash :: (name ++ equals :: value) =
              Text.encode o.flag ++ equals :: value := by rw [ho]; rfl
          rw [htoken]
          exact .attached
        · cases hw
        · exact .inr (.inr (.inr (.inr (hrefused hlong hno))))
  · rcases cluster_cases b' r with hv | hno
    · rw [hv]
      exact .inr (.inr (.inr (.inl ⟨_, .short⟩)))
    · refine .inr (.inr (.inr (.inr fun s s' => ?_)))
      rw [items_cluster hb']
      exact hno s s'

/-! ## Whole command lines -/

/-- What was given when the machine has read some more tokens. -/
def State.run (s : State) (tokens : List Bytes) : Except Stop Given :=
  tokens.foldlM State.read s >>= State.flush

theorem run_cons_eq_ok_iff {s : State} {token : Bytes} {rest : List Bytes} {g : Given} :
    s.run (token :: rest) = .ok g ↔ ∃ s', s.read token = .ok s' ∧ s'.run rest = .ok g := by
  simp only [State.run, List.foldlM_cons, bind_eq_ok_iff]
  constructor
  · rintro ⟨s'', ⟨s', hread, hrest⟩, hflush⟩
    exact ⟨s', hread, s'', hrest, hflush⟩
  · rintro ⟨s', hread, s'', hrest, hflush⟩
    exact ⟨s'', ⟨s', hread, hrest⟩, hflush⟩

/-- A token that says one thing is one step. -/
theorem read_eq_step {s : State} (hs : s.trailing = false) {token : Bytes} {x : Item}
    (hitems : items token = [x]) : s.read token = s.step x := by
  rw [State.read, hs, if_neg Bool.false_ne_true, hitems, List.foldlM_cons]
  cases s.step x <;> rfl

theorem not_ok_of_refuses {token : Bytes} (h : Refuses token) {s : State}
    (hs : s.trailing = false) (s' : State) : s.read token ≠ .ok s' := by
  rw [State.read, hs, if_neg Bool.false_ne_true]
  exact h s s'

/-- Behind the separator there is nothing. -/
theorem run_trailing {s : State} (hs : s.trailing = true) {rest : List Bytes} {g : Given} :
    s.run rest = .ok g ↔ rest = [] ∧ s.flush = .ok g := by
  cases rest with
  | nil => simp [State.run]
  | cons token rest => simp [run_cons_eq_ok_iff, State.read, hs]

theorem read_separator {s : State} (hs : s.trailing = false) :
    s.read (Text.encode "--") = .ok { s with trailing := true } :=
  read_eq_step hs items_separator

/-- A value completes a pending option, and only that. -/
theorem read_value_eq_ok_iff {s s' : State} (hs : s.trailing = false) {v : Bytes}
    (hv : IsValue v) : s.read v = .ok s' ↔
      ∃ o, s.pending = some ⟨o, none⟩ ∧ s' = { s with pending := some ⟨o, some v⟩ } := by
  rw [read_eq_step hs (items_of_isValue hv), State.step]
  split
  next o ho =>
    rw [ho]
    constructor
    · intro h
      exact ⟨o, rfl, pure_eq_ok_iff.mp h⟩
    · rintro ⟨_, ⟨⟩, rfl⟩
      rfl
  next hno =>
    refine iff_of_false nofun ?_
    rintro ⟨o, ho, -⟩
    exact hno o ho

theorem run_option_eq_ok_iff {s : State} (hs : s.trailing = false) {o : ValueOption}
    {rest : List Bytes} {g : Given} : s.run (Text.encode o.flag :: rest) = .ok g ↔
      ∃ g₀, s.flush = .ok g₀ ∧ State.run ⟨g₀, some ⟨o, none⟩, false⟩ rest = .ok g := by
  rw [run_cons_eq_ok_iff, read_eq_step hs (items_option o)]
  simp only [step_option_iff, hs]
  constructor
  · rintro ⟨_, ⟨g₀, hflush, rfl⟩, hrest⟩
    exact ⟨g₀, hflush, hrest⟩
  · rintro ⟨g₀, hflush, hrest⟩
    exact ⟨_, ⟨g₀, hflush, rfl⟩, hrest⟩

theorem run_spelled_eq_ok_iff {s : State} (hs : s.trailing = false) {x : Group} {token : Bytes}
    (hx : x.Spelled [token]) {rest : List Bytes} {g : Given} : s.run (token :: rest) = .ok g ↔
      ∃ g₀ g₁, s.flush = .ok g₀ ∧ g₀.add x = .ok g₁ ∧
        State.run ⟨g₁, none, false⟩ rest = .ok g := by
  rw [run_cons_eq_ok_iff, read_eq_step hs (items_spelled hx)]
  simp only [step_ofGroup_iff, hs]
  constructor
  · rintro ⟨_, ⟨g₀, g₁, hflush, hadd, rfl⟩, hrest⟩
    exact ⟨g₀, g₁, hflush, hadd, hrest⟩
  · rintro ⟨g₀, g₁, hflush, hadd, hrest⟩
    exact ⟨_, ⟨g₀, g₁, hflush, hadd, rfl⟩, hrest⟩

/-- The machine makes of a command line what is made of its groups, one by one, after what was
pending. -/
theorem Split.run_eq {tokens : List Bytes} {xs : List Group} (h : Split tokens xs) {s : State}
    (hs : s.trailing = false) {g : Given} :
    s.run tokens = .ok g ↔ ∃ g₀, s.flush = .ok g₀ ∧ xs.foldlM Given.add g₀ = .ok g := by
  induction h generalizing s with
  | nil =>
    show s.flush = .ok g ↔ _
    simp [pure_eq_ok_iff]
  | separator =>
    rw [run_cons_eq_ok_iff]
    simp [read_separator hs, run_trailing, State.flush, pure_eq_ok_iff]
  | @cons x tokens rest xs hx hrest ih =>
    simp only [List.foldlM_cons, bind_eq_ok_iff]
    have hsingle {token : Bytes} (htoken : x.Spelled [token]) :
        s.run ([token] ++ rest) = .ok g ↔
          ∃ g₀, s.flush = .ok g₀ ∧ ∃ g₁, g₀.add x = .ok g₁ ∧ xs.foldlM Given.add g₁ = .ok g := by
      have hend (g₁ : Given) : State.run ⟨g₁, none, false⟩ rest = .ok g ↔
          xs.foldlM Given.add g₁ = .ok g := by
        rw [ih rfl]
        simp [State.flush]
      rw [List.singleton_append, run_spelled_eq_ok_iff hs htoken]
      simp only [hend, exists_and_left]
    cases hx with
    | @separate o v hv =>
      rw [List.cons_append, run_option_eq_ok_iff hs]
      refine exists_congr fun g₀ => and_congr_right fun _ => ?_
      rw [List.singleton_append, run_cons_eq_ok_iff]
      constructor
      · rintro ⟨s', hread, hrun⟩
        obtain ⟨_, ⟨⟩, rfl⟩ := (read_value_eq_ok_iff rfl hv).mp hread
        exact (ih rfl).mp hrun
      · intro hadd
        exact ⟨_, (read_value_eq_ok_iff rfl hv).mpr ⟨o, rfl, rfl⟩, (ih rfl).mpr hadd⟩
    | attached => exact hsingle .attached
    | long => exact hsingle .long
    | short => exact hsingle .short

/-- An option that is pending without a value cannot be stored. -/
theorem flush_ne_ok {s : State} {o : ValueOption} (ho : s.pending = some ⟨o, none⟩) (g : Given) :
    s.flush ≠ .ok g := by
  rw [State.flush, ho]
  exact nofun

/-- What the machine accepts can be cut into groups; a pending option without a value takes the
next token. -/
theorem exists_split {tokens : List Bytes} {s : State} {g : Given} (hs : s.trailing = false)
    (h : s.run tokens = .ok g) :
    (∀ o, s.pending = some ⟨o, none⟩ →
        ∃ v rest xs, tokens = v :: rest ∧ IsValue v ∧ Split rest xs) ∧
      ((∀ o, s.pending ≠ some ⟨o, none⟩) → ∃ xs, Split tokens xs) := by
  induction tokens generalizing s with
  | nil => exact ⟨fun o ho => absurd h (flush_ne_ok ho g), fun _ => ⟨[], .nil⟩⟩
  | cons token rest ih =>
    rcases token_cases token with hv | rfl | ⟨o, rfl⟩ | ⟨x, hx⟩ | hno
    · -- A value has to complete the pending option.
      obtain ⟨s', hread, hrun⟩ := run_cons_eq_ok_iff.mp h
      obtain ⟨o, ho, rfl⟩ := (read_value_eq_ok_iff hs hv).mp hread
      obtain ⟨xs, hxs⟩ := (ih (s := { s with pending := some ⟨o, some token⟩ }) hs hrun).2
        (fun _ => nofun)
      exact ⟨fun _ _ => ⟨token, rest, xs, rfl, hv, hxs⟩, fun hno => absurd ho (hno o)⟩
    · obtain ⟨s', hread, hrun⟩ := run_cons_eq_ok_iff.mp h
      rw [read_separator hs] at hread
      cases hread
      obtain ⟨rfl, hflush⟩ := (run_trailing rfl).mp hrun
      exact ⟨fun o ho => absurd hflush (flush_ne_ok ho g), fun _ => ⟨[], .separator⟩⟩
    · obtain ⟨g₀, hflush, hrun⟩ := (run_option_eq_ok_iff hs).mp h
      refine ⟨fun o ho => absurd hflush (flush_ne_ok ho g₀), fun _ => ?_⟩
      obtain ⟨v, rest', xs, rfl, hv, hxs⟩ := (ih rfl hrun).1 o rfl
      exact ⟨_, .cons (.separate hv) hxs⟩
    · obtain ⟨g₀, g₁, hflush, -, hrun⟩ := (run_spelled_eq_ok_iff hs hx).mp h
      refine ⟨fun o ho => absurd hflush (flush_ne_ok ho g₀), fun _ => ?_⟩
      obtain ⟨xs, hxs⟩ := (ih rfl hrun).2 nofun
      exact ⟨_, .cons hx hxs⟩
    · obtain ⟨s', hread, -⟩ := run_cons_eq_ok_iff.mp h
      exact absurd hread (not_ok_of_refuses hno hs s')

end Options

end EngineBench
