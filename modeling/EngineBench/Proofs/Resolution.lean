import EngineBench.Proofs.OptionGrammar
import Mathlib.Data.List.Induction
import Mathlib.Data.List.Nodup

/-!
# What is resolved

The command lines that are accepted, and the invocations that they ask for.

* `Options.foldlM_add_eq_ok_iff`: taking up groups one by one succeeds if no group repeats another
  and every value is read, and then holds what the groups say, in whatever order they stand.
* `Invocation.AskedBy` is the invocation that groups and environment ask for.
* `Invocation.resolve_eq_ok_iff`: a command line is resolved exactly if it can be cut into groups
  that are accepted and whose configuration is valid.
-/

namespace EngineBench

/-! ## Defaults -/

namespace ValueOption

/-- The value of an option that is omitted, as the help text has it. -/
def defaultText? : ValueOption → Option String
  | .parameter .port => some "8000"
  | .parameter .firstToken => some "0.25"
  | .parameter .perToken => some "0.1"
  | .parameter .contextTensor | .parameter .contextPipeline
  | .parameter .decodingTensor | .parameter .decodingPipeline => some "1"
  | .parameter .model | .parameter .memoryFraction | .parameter .dataset | .settings => none

/-- What the configuration has where an option is omitted. -/
def default? : (o : ValueOption) → Option o.Value
  | .parameter .port => some Configuration.defaultPort
  | .parameter .firstToken => some Configuration.defaultFirstToken
  | .parameter .perToken => some Configuration.defaultPerToken
  | .parameter .contextTensor => some Parallelism.single.tensor
  | .parameter .contextPipeline => some Parallelism.single.pipeline
  | .parameter .decodingTensor => some Parallelism.single.tensor
  | .parameter .decodingPipeline => some Parallelism.single.pipeline
  | .parameter .model | .parameter .memoryFraction | .parameter .dataset | .settings => none

/-- An option shows its default at the end of its description. -/
theorem description_default {o : ValueOption} {text : String} (h : o.defaultText? = some text) :
    ∃ s, o.description = s ++ "[default: " ++ text ++ "]" := by
  rcases o with (_ | _ | _ | _ | _ | _ | _ | _ | _ | _) | _ <;> cases h
  · exact ⟨"Loopback port of the served endpoint ", by decide⟩
  · exact ⟨"Baseline time-to-first-token target, in seconds ", by decide⟩
  · exact ⟨"Baseline time-per-output-token target, in seconds ", by decide⟩
  · exact ⟨"Context-stage tensor parallel size ", by decide⟩
  · exact ⟨"Context-stage pipeline parallel size ", by decide⟩
  · exact ⟨"Decoding-stage tensor parallel size ", by decide⟩
  · exact ⟨"Decoding-stage pipeline parallel size ", by decide⟩

/-- A byte string stands for one value of an option. -/
theorem Denotes.unique {o : ValueOption} {bs : Bytes} {x y : o.Value} (hx : o.Denotes bs x)
    (hy : o.Denotes bs y) : x = y := by
  have hread := o.read_eq_ok_iff.mpr hx
  rw [o.read_eq_ok_iff.mpr hy] at hread
  exact (Except.ok.inj hread).symm

/-- The defaults read as the values that are used for them. -/
theorem denotes_default {o : ValueOption} {text : String} (h : o.defaultText? = some text) :
    ∃ x, o.default? = some x ∧ o.Denotes (Text.encode text) x := by
  have hport : readPort? "8000" = some Configuration.defaultPort := by decide
  have hdegree : readDegree? "1" = some 1 := by decide
  rcases o with (_ | _ | _ | _ | _ | _ | _ | _ | _ | _) | _ <;> cases h <;> refine ⟨_, rfl, ?_⟩
  · exact ⟨_, rfl, readPort?_eq_some_iff.mp hport⟩
  · exact ⟨_, rfl, Decimal.readFloat?_eq_some_iff.mp rfl⟩
  · exact ⟨_, rfl, Decimal.readFloat?_eq_some_iff.mp rfl⟩
  all_goals exact ⟨_, rfl, readDegree?_eq_some_iff.mp hdegree⟩

theorem default?_eq_none {o : ValueOption} (h : o.defaultText? = none) : o.default? = none := by
  rcases o with (_ | _ | _ | _ | _ | _ | _ | _ | _ | _) | _ <;> first | rfl | cases h

theorem default?_eq_some_iff {o : ValueOption} {x : o.Value} :
    o.default? = some x ↔ ∃ text, o.defaultText? = some text ∧ o.Denotes (Text.encode text) x := by
  constructor
  · intro h
    rcases htext : o.defaultText? with _ | text
    · rw [default?_eq_none htext] at h
      cases h
    · obtain ⟨y, hy, hdenotes⟩ := denotes_default htext
      obtain rfl : y = x := Option.some.inj (hy.symm.trans h)
      exact ⟨text, rfl, hdenotes⟩
  · rintro ⟨text, htext, hx⟩
    obtain ⟨y, hy, hdenotes⟩ := denotes_default htext
    rw [hy, hdenotes.unique hx]

end ValueOption

namespace Options

/-! ## What groups say -/

/-- What groups are about. -/
def subjects (gs : List Group) : List (ValueOption ⊕ Switch) := gs.map Group.subject

/-- Every value is in the domain of its option. -/
def Readable (gs : List Group) : Prop :=
  ∀ o bs, .option o bs ∈ gs → ∃ x, ValueOption.Denotes o bs x

/-- The groups that make up an accepted command line. -/
structure Accepted (gs : List Group) : Prop where
  /-- Nothing is given twice, however it is written. -/
  once : (subjects gs).Nodup
  readable : Readable gs
  /-- What has no default is given. -/
  complete : ∀ o ∈ ValueOption.required, .inl o ∈ subjects gs

/-- The value that an option takes: the one that is given for it, or else its default. -/
inductive Takes (gs : List Group) (o : ValueOption) (x : o.Value) : Prop
  | given {bs : Bytes} : .option o bs ∈ gs → o.Denotes bs x → Takes gs o x
  | omitted {text : String} : .inl o ∉ subjects gs → o.defaultText? = some text →
      o.Denotes (Text.encode text) x → Takes gs o x

theorem mem_subjects_option {gs : List Group} {o : ValueOption} :
    .inl o ∈ subjects gs ↔ ∃ bs, .option o bs ∈ gs := by
  simp only [subjects, List.mem_map]
  constructor
  · rintro ⟨_ | _, hmem, ⟨⟩⟩
    exact ⟨_, hmem⟩
  · rintro ⟨bs, hmem⟩
    exact ⟨_, hmem, rfl⟩

theorem mem_subjects_switch {gs : List Group} {w : Switch} :
    .inr w ∈ subjects gs ↔ .switch w ∈ gs := by
  simp only [subjects, List.mem_map]
  constructor
  · rintro ⟨_ | _, hmem, ⟨⟩⟩
    exact hmem
  · intro hmem
    exact ⟨_, hmem, rfl⟩

/-! ## What is held -/

/-- What was given is what the groups say. -/
structure Given.Holds (g : Given) (gs : List Group) : Prop where
  value : ∀ o x, g.value? o = some x ↔ ∃ bs, .option o bs ∈ gs ∧ o.Denotes bs x
  isOn : ∀ w, g.isOn w = true ↔ .switch w ∈ gs

namespace Given

variable {g g' : Given} {gs : List Group}

theorem holds_empty : Given.empty.Holds [] := ⟨by simp [empty], by simp [empty]⟩

/-- Groups determine what is held. -/
theorem Holds.unique (h : g.Holds gs) (h' : g'.Holds gs) : g = g' := by
  rcases g with ⟨value, on⟩
  rcases g' with ⟨value', on'⟩
  congr 1
  · funext o
    ext x
    rw [h.value, h'.value]
  · funext w
    rw [Bool.eq_iff_iff, h.isOn, h'.isOn]

/-- An option whose values can be read is held if it is given. -/
theorem Holds.value?_eq_none_iff (h : g.Holds gs) (hr : Readable gs) {o : ValueOption} :
    g.value? o = none ↔ .inl o ∉ subjects gs := by
  rw [mem_subjects_option, Option.eq_none_iff_forall_ne_some]
  constructor
  · rintro hnone ⟨bs, hmem⟩
    obtain ⟨x, hx⟩ := hr o bs hmem
    exact hnone x ((h.value o x).mpr ⟨bs, hmem, hx⟩)
  · rintro hnot x hx
    obtain ⟨bs, hmem, -⟩ := (h.value o x).mp hx
    exact hnot ⟨bs, hmem⟩

theorem Holds.set (h : g.Holds gs) {o : ValueOption} {bs : Bytes} {x : o.Value}
    (hfresh : .inl o ∉ subjects gs) (hx : o.Denotes bs x) :
    (g.set o x).Holds (gs ++ [.option o bs]) where
  value := by
    intro p y
    by_cases hp : o = p
    · subst hp
      rw [value?_set_self]
      constructor
      · rintro ⟨⟩
        exact ⟨bs, by simp, hx⟩
      · rintro ⟨bs', hmem, hy⟩
        rcases List.mem_append.mp hmem with hmem | hmem
        · exact absurd (mem_subjects_option.mpr ⟨bs', hmem⟩) hfresh
        · cases List.mem_singleton.mp hmem
          rw [hx.unique hy]
    · rw [value?_set_of_ne g x hp, h.value]
      simp [Ne.symm hp]
  isOn := by
    intro w
    show g.isOn w = true ↔ _
    rw [h.isOn]
    simp

theorem Holds.turnOn (h : g.Holds gs) (w : Switch) :
    (g.turnOn w).Holds (gs ++ [.switch w]) where
  value := by
    intro o x
    show g.value? o = some x ↔ _
    rw [h.value]
    simp
  isOn := by
    intro v
    rw [Given.turnOn, Bool.or_eq_true, h.isOn]
    simp [or_comm]

/-! ## Taking up groups -/

theorem add_option_eq_ok_iff {o : ValueOption} {bs : Bytes} :
    g.add (.option o bs) = .ok g' ↔
      g.value? o = none ∧ ∃ x, o.Denotes bs x ∧ g' = g.set o x := by
  simp only [add, store]
  rcases hvalue : g.value? o with _ | y
  · simp only [Option.isSome_none, Bool.false_eq_true, if_false, true_and, ← o.read_eq_ok_iff]
    cases o.read bs with
    | error r => simp [Except.map, Except.mapError]
    | ok x =>
      constructor
      · rintro ⟨⟩
        exact ⟨x, rfl, rfl⟩
      · rintro ⟨_, ⟨⟩, rfl⟩
        rfl
  · simp [Except.mapError]

theorem add_switch_eq_ok_iff {w : Switch} :
    g.add (.switch w) = .ok g' ↔ g.isOn w = false ∧ g' = g.turnOn w := by
  simp only [add]
  cases g.isOn w with
  | true => simp
  | false =>
    constructor
    · rintro ⟨⟩
      exact ⟨rfl, rfl⟩
    · rintro ⟨-, rfl⟩
      rfl

end Given

theorem subjects_concat (gs : List Group) (x : Group) :
    subjects (gs ++ [x]) = subjects gs ++ [x.subject] := by
  simp [subjects]

theorem nodup_subjects_concat {gs : List Group} {x : Group} :
    (subjects (gs ++ [x])).Nodup ↔ (subjects gs).Nodup ∧ x.subject ∉ subjects gs := by
  rw [subjects_concat, List.nodup_append_comm, List.singleton_append, List.nodup_cons, and_comm]

theorem readable_concat_option {gs : List Group} {o : ValueOption} {bs : Bytes} :
    Readable (gs ++ [.option o bs]) ↔ Readable gs ∧ ∃ x, o.Denotes bs x := by
  constructor
  · intro h
    exact ⟨fun p bs' hmem => h p bs' (List.mem_append_left _ hmem), h o bs (by simp)⟩
  · rintro ⟨hgs, hx⟩ p bs' hmem
    rcases List.mem_append.mp hmem with hmem | hmem
    · exact hgs p bs' hmem
    · cases List.mem_singleton.mp hmem
      exact hx

theorem readable_concat_switch {gs : List Group} {w : Switch} :
    Readable (gs ++ [.switch w]) ↔ Readable gs := by
  simp [Readable]

/-- A further group is taken up if it repeats none and its value is read. -/
theorem add_eq_ok_iff {g g' : Given} {gs : List Group} {x : Group} (h : g.Holds gs)
    (hr : Readable gs) : g.add x = .ok g' ↔
      x.subject ∉ subjects gs ∧ Readable (gs ++ [x]) ∧ g'.Holds (gs ++ [x]) := by
  cases x with
  | option o bs =>
    rw [Given.add_option_eq_ok_iff, h.value?_eq_none_iff hr, readable_concat_option]
    refine and_congr_right fun hfresh => ?_
    constructor
    · rintro ⟨x, hx, rfl⟩
      exact ⟨⟨hr, x, hx⟩, h.set hfresh hx⟩
    · rintro ⟨⟨-, x, hx⟩, hholds⟩
      exact ⟨x, hx, hholds.unique (h.set hfresh hx)⟩
  | switch w =>
    rw [Given.add_switch_eq_ok_iff, readable_concat_switch, ← Bool.not_eq_true, h.isOn,
      ← mem_subjects_switch]
    refine and_congr_right fun _ => ?_
    constructor
    · rintro rfl
      exact ⟨hr, h.turnOn w⟩
    · rintro ⟨-, hholds⟩
      exact hholds.unique (h.turnOn w)

/-- Groups that can be read, none of which repeats another, say what was given. -/
theorem exists_holds {gs : List Group} (hnodup : (subjects gs).Nodup) (hr : Readable gs) :
    ∃ g : Given, g.Holds gs := by
  induction gs using List.reverseRecOn with
  | nil => exact ⟨.empty, Given.holds_empty⟩
  | append_singleton gs x ih =>
    obtain ⟨hbefore, hfresh⟩ := nodup_subjects_concat.mp hnodup
    cases x with
    | option o bs =>
      obtain ⟨hgs, x, hx⟩ := readable_concat_option.mp hr
      obtain ⟨g, h⟩ := ih hbefore hgs
      exact ⟨_, h.set hfresh hx⟩
    | switch w =>
      obtain ⟨g, h⟩ := ih hbefore (readable_concat_switch.mp hr)
      exact ⟨_, h.turnOn w⟩

/-- Groups are taken up one by one if none repeats another and every value is read; what is held
then does not depend on their order. -/
theorem foldlM_add_eq_ok_iff {gs : List Group} {g : Given} :
    gs.foldlM Given.add .empty = .ok g ↔ (subjects gs).Nodup ∧ Readable gs ∧ g.Holds gs := by
  induction gs using List.reverseRecOn generalizing g with
  | nil =>
    constructor
    · rintro ⟨⟩
      exact ⟨.nil, nofun, Given.holds_empty⟩
    · rintro ⟨-, -, h⟩
      rw [h.unique Given.holds_empty]
      rfl
  | append_singleton gs x ih =>
    rw [List.foldlM_append, bind_eq_ok_iff, nodup_subjects_concat]
    simp only [ih, List.foldlM_cons, List.foldlM_nil, bind_pure]
    constructor
    · rintro ⟨g₀, ⟨hnodup, hr, h⟩, hadd⟩
      obtain ⟨hfresh, hrest⟩ := (add_eq_ok_iff h hr).mp hadd
      exact ⟨⟨hnodup, hfresh⟩, hrest⟩
    · -- What is held at the end says nothing about what was held before, so that is made anew.
      rintro ⟨⟨hnodup, hfresh⟩, hreadable, hholds⟩
      have hr : Readable gs := fun o bs hmem => hreadable o bs (List.mem_append_left _ hmem)
      obtain ⟨g₀, h⟩ := exists_holds hnodup hr
      exact ⟨g₀, ⟨hnodup, hr, h⟩, (add_eq_ok_iff h hr).mpr ⟨hfresh, hreadable, hholds⟩⟩

/-! ## Accepted command lines -/

theorem Given.Holds.missing_eq_nil_iff {g : Given} {gs : List Group} (h : g.Holds gs)
    (hr : Readable gs) :
    g.missing = [] ↔ ∀ o ∈ ValueOption.required, .inl o ∈ subjects gs := by
  rw [Given.missing, List.filter_eq_nil_iff]
  refine forall₂_congr fun o _ => ?_
  rw [Option.isNone_iff_eq_none, h.value?_eq_none_iff hr, not_not]

theorem takes_default {gs : List Group} {o : ValueOption} {x : o.Value}
    (hnot : .inl o ∉ subjects gs) (hx : o.default? = some x) : Takes gs o x := by
  obtain ⟨text, htext, hdenotes⟩ := ValueOption.default?_eq_some_iff.mp hx
  exact .omitted hnot htext hdenotes

/-- An option takes what is held for it, or else its default. -/
theorem Given.Holds.takes_iff {g : Given} {gs : List Group} (h : g.Holds gs) (hr : Readable gs)
    {o : ValueOption} {x : o.Value} : Takes gs o x ↔ (g.value? o).or o.default? = some x := by
  rcases hvalue : g.value? o with _ | y
  · have hnot := (h.value?_eq_none_iff hr).mp hvalue
    rw [Option.none_or]
    constructor
    · intro htakes
      cases htakes with
      | given hmem _ => exact absurd (mem_subjects_option.mpr ⟨_, hmem⟩) hnot
      | omitted _ htext hx => exact ValueOption.default?_eq_some_iff.mpr ⟨_, htext, hx⟩
    · exact takes_default hnot
  · rw [Option.some_or, ← hvalue, h.value]
    constructor
    · intro htakes
      cases htakes with
      | given hmem hx => exact ⟨_, hmem, hx⟩
      | omitted hnot _ _ =>
        rw [← h.value?_eq_none_iff hr, hvalue] at hnot
        cases hnot
    · rintro ⟨bs, hmem, hx⟩
      exact .given hmem hx

theorem parse_eq_ok_iff {tokens : List Bytes} {g : Given} :
    parse tokens = .ok g ↔ State.start.run tokens = .ok g ∧ g.missing = [] := by
  simp only [parse, State.run, State.finish, bind_eq_ok_iff]
  constructor
  · rintro ⟨s, hs, g', hflush, hif⟩
    split at hif
    next hnil =>
      obtain rfl := pure_eq_ok_iff.mp hif
      exact ⟨⟨s, hs, hflush⟩, List.isEmpty_iff.mp hnil⟩
    · cases hif
  · rintro ⟨⟨s, hs, hflush⟩, hnil⟩
    refine ⟨s, hs, g, hflush, ?_⟩
    rw [hnil]
    rfl

/-- A command line that is cut into groups is parsed if the groups are accepted, as what they
say. -/
theorem Split.parse_eq_ok_iff {tokens : List Bytes} {gs : List Group} (h : Split tokens gs)
    {g : Given} : parse tokens = .ok g ↔ Accepted gs ∧ g.Holds gs := by
  have hrun : State.start.run tokens = .ok g ↔ gs.foldlM Given.add .empty = .ok g := by
    rw [h.run_eq rfl]
    simp [State.flush, State.start]
  rw [Options.parse_eq_ok_iff, hrun, foldlM_add_eq_ok_iff]
  constructor
  · rintro ⟨⟨hnodup, hr, hholds⟩, hnil⟩
    exact ⟨⟨hnodup, hr, (hholds.missing_eq_nil_iff hr).mp hnil⟩, hholds⟩
  · rintro ⟨⟨hnodup, hr, hcomplete⟩, hholds⟩
    exact ⟨⟨hnodup, hr, hholds⟩, (hholds.missing_eq_nil_iff hr).mpr hcomplete⟩

/-- Only what can be cut into groups is parsed. -/
theorem exists_split_of_parse {tokens : List Bytes} {g : Given} (h : parse tokens = .ok g) :
    ∃ gs, Split tokens gs :=
  (exists_split rfl (parse_eq_ok_iff.mp h).1).2 nofun

/-- A group in one token. -/
def Group.token : Group → Bytes
  | .option o v => Text.encode o.flag ++ equals :: v
  | .switch s => Text.encode s.flag

/-- All groups can be written, in any order. -/
theorem split_tokens (gs : List Group) : Split (gs.map Group.token) gs := by
  induction gs with
  | nil => exact .nil
  | cons x gs ih =>
    have hx : x.Spelled [x.token] := by
      cases x with
      | option => exact .attached
      | switch => exact .long
    exact .cons hx ih

theorem Accepted.of_perm {gs gs' : List Group} (hperm : gs.Perm gs') (h : Accepted gs) :
    Accepted gs' where
  once := (hperm.map Group.subject).nodup_iff.mp h.once
  readable := fun o bs hmem => h.readable o bs (hperm.mem_iff.mpr hmem)
  complete := fun o ho => (hperm.map Group.subject).mem_iff.mp (h.complete o ho)

theorem Takes.of_perm {gs gs' : List Group} (hperm : gs.Perm gs') {o : ValueOption} {x : o.Value}
    (h : Takes gs o x) : Takes gs' o x := by
  cases h with
  | given hmem hx => exact .given (hperm.mem_iff.mp hmem) hx
  | omitted hnot htext hx =>
    exact .omitted (fun hmem => hnot ((hperm.map Group.subject).mem_iff.mpr hmem)) htext hx

end Options

/-! ## Invocations -/

/-- What a configuration has for a parameter. -/
def Configuration.valueOf (c : Configuration) : (p : Parameter) → (ValueOption.parameter p).Value
  | .model => c.model
  | .memoryFraction => c.memoryFraction
  | .dataset => c.dataset
  | .port => c.port
  | .firstToken => c.firstToken
  | .perToken => c.perToken
  | .contextTensor => c.context.tensor
  | .contextPipeline => c.context.pipeline
  | .decodingTensor => c.decoding.tensor
  | .decodingPipeline => c.decoding.pipeline

theorem Configuration.eq_of_check {c c' : Configuration} (h : c.check = .ok c') : c' = c := by
  unfold check at h
  split at h
  · cases h
  · cases h
    rfl

namespace Invocation

open Options

/-- The invocation that groups ask for, together with the variable of the environment. -/
structure AskedBy (i : Invocation) (gs : List Group) (lookup : String → Option String) :
    Prop where
  parameter : ∀ p, Takes gs (.parameter p) (i.configuration.valueOf p)
  dummyWeights : i.configuration.dummyWeights = true ↔
    .switch .dummyWeights ∈ gs ∨
      lookup "USE_DUMMY_WEIGHT" ∈ [some "1", some "true", some "True"]
  settings : ∀ path, i.settings = some path ↔
    ∃ bs, .option .settings bs ∈ gs ∧ ValueOption.Denotes .settings bs path
  dryRun : i.dryRun = true ↔ .switch .dryRun ∈ gs
  verbose : i.verbose = true ↔ .switch .verbose ∈ gs

theorem AskedBy.of_perm {i : Invocation} {gs gs' : List Group} {lookup : String → Option String}
    (hperm : gs.Perm gs') (h : i.AskedBy gs lookup) : i.AskedBy gs' lookup where
  parameter := fun p => (h.parameter p).of_perm hperm
  dummyWeights := by rw [h.dummyWeights, hperm.mem_iff]
  settings := by simpa only [hperm.mem_iff] using h.settings
  dryRun := by rw [h.dryRun, hperm.mem_iff]
  verbose := by rw [h.verbose, hperm.mem_iff]

/-- Whether the environment turns dummy weights on. -/
theorem turnsOn_iff (value? : Option String) : value?.elim false turnsOn = true ↔
    value? ∈ [some "1", some "true", some "True"] := by
  cases value? <;> simp [turnsOn, or_assoc]

/-- The record before it is checked: what was given for each parameter, or else its default. -/
theorem foldl_adjust_eq_iff {g : Given} {dummyWeights : Bool} {c : Configuration} {model : String}
    {memoryFraction : Binary64} {dataset : Path}
    (hmodel : g.value? (.parameter .model) = some model)
    (hfraction : g.value? (.parameter .memoryFraction) = some memoryFraction)
    (hdataset : g.value? (.parameter .dataset) = some dataset) :
    (changes g dummyWeights).foldl Configuration.adjust
        (Configuration.ofRequired model memoryFraction dataset) = c ↔
      (∀ p, (g.value? (.parameter p)).or (ValueOption.default? (.parameter p)) =
          some (c.valueOf p)) ∧ c.dummyWeights = dummyWeights := by
  constructor
  · rintro rfl
    refine ⟨fun p => ?_, rfl⟩
    cases p with
    | model => rw [hmodel]; rfl
    | memoryFraction => rw [hfraction]; rfl
    | dataset => rw [hdataset]; rfl
    | _ => exact Option.or_some
  · rintro ⟨hvalues, rfl⟩
    have hrequired {p : Parameter} {x : (ValueOption.parameter p).Value}
        (hx : g.value? (.parameter p) = some x) : x = c.valueOf p := by
      have hp := hvalues p
      rw [hx] at hp
      exact Option.some.inj hp
    have hgetD {p : Parameter} {d : (ValueOption.parameter p).Value}
        (hd : ValueOption.default? (.parameter p) = some d) :
        (g.value? (.parameter p)).getD d = c.valueOf p := by
      have hp := hvalues p
      rw [hd, Option.or_some] at hp
      exact Option.some.inj hp
    -- The record is determined field by field.
    rcases c with ⟨model', memoryFraction', dataset', port, firstToken, perToken,
      ⟨contextTensor, contextPipeline⟩, ⟨decodingTensor, decodingPipeline⟩, dummyWeights⟩
    obtain rfl : model = model' := hrequired hmodel
    obtain rfl : memoryFraction = memoryFraction' := hrequired hfraction
    obtain rfl : dataset = dataset' := hrequired hdataset
    obtain rfl : _ = port := hgetD (p := .port) rfl
    obtain rfl : _ = firstToken := hgetD (p := .firstToken) rfl
    obtain rfl : _ = perToken := hgetD (p := .perToken) rfl
    obtain rfl : _ = contextTensor := hgetD (p := .contextTensor) rfl
    obtain rfl : _ = contextPipeline := hgetD (p := .contextPipeline) rfl
    obtain rfl : _ = decodingTensor := hgetD (p := .decodingTensor) rfl
    obtain rfl : _ = decodingPipeline := hgetD (p := .decodingPipeline) rfl
    rfl

/-- What is asked for by groups is what is made of the options that they give. -/
theorem askedBy_iff_of_holds {g : Given} {gs : List Group} (h : g.Holds gs) (hr : Readable gs)
    {lookup : String → Option String} {i : Invocation} : i.AskedBy gs lookup ↔
      ((∀ p, (g.value? (.parameter p)).or (ValueOption.default? (.parameter p)) =
          some (i.configuration.valueOf p)) ∧
        i.configuration.dummyWeights =
          (g.isOn .dummyWeights || (lookup dummyWeightsVariable).elim false turnsOn)) ∧
        (i.settings = g.value? .settings ∧ i.dryRun = g.isOn .dryRun ∧
          i.verbose = g.isOn .verbose) := by
  have hswitch {b : Bool} {w : Switch} : b = g.isOn w ↔ (b = true ↔ .switch w ∈ gs) := by
    rw [Bool.eq_iff_iff, h.isOn]
  have hdummy {b : Bool} :
      b = (g.isOn .dummyWeights || (lookup dummyWeightsVariable).elim false turnsOn) ↔
        (b = true ↔ .switch .dummyWeights ∈ gs ∨
          lookup dummyWeightsVariable ∈ [some "1", some "true", some "True"]) := by
    rw [Bool.eq_iff_iff, Bool.or_eq_true, h.isOn, turnsOn_iff]
  have hsettings : i.settings = g.value? .settings ↔ ∀ path, i.settings = some path ↔
      ∃ bs, .option .settings bs ∈ gs ∧ ValueOption.Denotes .settings bs path := by
    constructor
    · intro heq path
      rw [heq]
      exact h.value .settings path
    · intro hiff
      exact Option.ext fun path => (hiff path).trans (h.value .settings path).symm
  simp only [← h.takes_iff hr, hswitch, hdummy, hsettings]
  constructor
  · rintro ⟨hparameter, hdummy, hsettings, hdry, hverbose⟩
    exact ⟨⟨hparameter, hdummy⟩, hsettings, hdry, hverbose⟩
  · rintro ⟨⟨hparameter, hdummy⟩, hsettings, hdry, hverbose⟩
    exact ⟨hparameter, hdummy, hsettings, hdry, hverbose⟩

/-- Accepted groups ask for one invocation, and that is made of them if its configuration is
valid. -/
theorem exists_asked {g : Given} {gs : List Group} (haccepted : Accepted gs) (h : g.Holds gs)
    (lookup : String → Option String) : ∃ i₀ : Invocation,
      (∀ i, i.AskedBy gs lookup ↔ i = i₀) ∧
        ∀ i, ofGiven g lookup = .ok i ↔
          i = i₀ ∧ i.configuration.check = .ok i.configuration := by
  have hrequired {o : ValueOption} (ho : o ∈ ValueOption.required) :
      ∃ x, g.value? o = some x :=
    Option.ne_none_iff_exists'.mp fun hnone =>
      (h.value?_eq_none_iff haccepted.readable).mp hnone (haccepted.complete o ho)
  obtain ⟨model, hmodel⟩ := hrequired (o := .parameter .model) (by decide)
  obtain ⟨memoryFraction, hfraction⟩ := hrequired (o := .parameter .memoryFraction) (by decide)
  obtain ⟨dataset, hdataset⟩ := hrequired (o := .parameter .dataset) (by decide)
  have hasked (i : Invocation) : i.AskedBy gs lookup ↔ _ :=
    askedBy_iff_of_holds h haccepted.readable
  simp only [← foldl_adjust_eq_iff hmodel hfraction hdataset] at hasked
  simp only [ofGiven, hmodel, hfraction, hdataset, Configuration.build]
  generalize (changes g _).foldl Configuration.adjust _ = c at hasked
  refine ⟨⟨c, g.value? .settings, g.isOn .dryRun, g.isOn .verbose⟩, fun i => ?_, fun i => ?_⟩
  · rw [hasked]
    constructor
    · rintro ⟨rfl, hsettings, hdry, hverbose⟩
      rw [← hsettings, ← hdry, ← hverbose]
    · rintro rfl
      exact ⟨rfl, rfl, rfl, rfl⟩
  · constructor
    · intro hmade
      split at hmade
      · cases hmade
      next c' hc =>
        cases hmade
        obtain rfl := Configuration.eq_of_check hc
        exact ⟨rfl, hc⟩
    · rintro ⟨rfl, hc⟩
      rw [hc]

theorem resolve_eq_ok_iff_parse {arguments : List Bytes} {lookup : String → Option String}
    {i : Invocation} : resolve arguments lookup = .ok i ↔
      ∃ g, parse arguments.tail = .ok g ∧ ofGiven g lookup = .ok i := by
  unfold resolve
  rcases parse arguments.tail with (r | n) | g
  · simp
  · simp
  · simp [mapError_eq_ok_iff]

/-- A command line that is cut into groups resolves to what they ask for, if they are accepted and
the configuration is valid. -/
theorem resolve_of_split {arguments : List Bytes} {gs : List Group}
    (hsplit : Split arguments.tail gs) {lookup : String → Option String} {i : Invocation} :
    resolve arguments lookup = .ok i ↔
      Accepted gs ∧ i.AskedBy gs lookup ∧ i.configuration.check = .ok i.configuration := by
  simp only [resolve_eq_ok_iff_parse, hsplit.parse_eq_ok_iff]
  constructor
  · rintro ⟨g, ⟨haccepted, h⟩, hgiven⟩
    obtain ⟨i₀, hasked, hmade⟩ := exists_asked haccepted h lookup
    rw [hasked, ← hmade]
    exact ⟨haccepted, hgiven⟩
  · rintro ⟨haccepted, hi⟩
    obtain ⟨g, h⟩ := exists_holds haccepted.once haccepted.readable
    obtain ⟨i₀, hasked, hmade⟩ := exists_asked haccepted h lookup
    rw [hasked, ← hmade] at hi
    exact ⟨g, ⟨haccepted, h⟩, hi⟩

/-- Accepted groups ask for one invocation. A command line is resolved exactly if it can be cut into
accepted groups that ask for an invocation with a valid configuration, and that invocation is what
comes out. In which order the groups stand, and how they are written, makes no difference. -/
theorem resolve_eq_ok_iff (arguments : List Bytes) (lookup : String → Option String) :
    (∀ gs, Accepted gs → ∃! i : Invocation, i.AskedBy gs lookup) ∧
      (∀ i, resolve arguments lookup = .ok i ↔
        ∃ gs, Split arguments.tail gs ∧ Accepted gs ∧ i.AskedBy gs lookup ∧
          i.configuration.check = .ok i.configuration) ∧
      ∀ i gs gs' arguments', Split arguments.tail gs → Split arguments'.tail gs' → gs.Perm gs' →
        (resolve arguments' lookup = .ok i ↔ resolve arguments lookup = .ok i) := by
  refine ⟨fun gs haccepted => ?_, fun i => ?_, fun i gs gs' arguments' hsplit hsplit' hperm => ?_⟩
  · obtain ⟨g, h⟩ := exists_holds haccepted.once haccepted.readable
    obtain ⟨i₀, hasked, -⟩ := exists_asked haccepted h lookup
    exact ⟨i₀, (hasked i₀).mpr rfl, fun i hi => (hasked i).mp hi⟩
  · constructor
    · intro h
      obtain ⟨g, hparse, -⟩ := resolve_eq_ok_iff_parse.mp h
      obtain ⟨gs, hsplit⟩ := exists_split_of_parse hparse
      exact ⟨gs, hsplit, (resolve_of_split hsplit).mp h⟩
    · rintro ⟨gs, hsplit, h⟩
      exact (resolve_of_split hsplit).mpr h
  · rw [resolve_of_split hsplit, resolve_of_split hsplit']
    constructor
    · rintro ⟨haccepted, hasked, hcheck⟩
      exact ⟨haccepted.of_perm hperm.symm, hasked.of_perm hperm.symm, hcheck⟩
    · rintro ⟨haccepted, hasked, hcheck⟩
      exact ⟨haccepted.of_perm hperm, hasked.of_perm hperm, hcheck⟩

namespace Sample

/-- Groups that are accepted: a value for each option without a default, and a switch. -/
def groups : List Group :=
  [.option (.parameter .model) (Text.encode "m"),
    .option (.parameter .memoryFraction) (Text.encode "1"),
    .option (.parameter .dataset) (Text.encode "d"), .switch .verbose]

/-- What the groups ask for in an environment that turns dummy weights on. -/
def invocation : Invocation where
  configuration :=
    { Configuration.ofRequired "m" (Decimal.toBinary64 false ⟨1, 0⟩) ⟨Text.encode "d"⟩ with
      dummyWeights := true }
  settings := none
  dryRun := false
  verbose := true

theorem model_denotes : ValueOption.Denotes (.parameter .model) (Text.encode "m") "m" := rfl

theorem memoryFraction_denotes : ValueOption.Denotes (.parameter .memoryFraction)
    (Text.encode "1") (Decimal.toBinary64 false ⟨1, 0⟩) :=
  ⟨"1", rfl, Decimal.readFloat?_eq_some_iff.mp rfl⟩

theorem dataset_denotes :
    ValueOption.Denotes (.parameter .dataset) (Text.encode "d") ⟨Text.encode "d"⟩ :=
  ⟨by decide, rfl⟩

theorem groups_accepted : Accepted groups where
  once := by decide
  readable := by
    intro o bs hmem
    simp only [groups, List.mem_cons, List.not_mem_nil, Group.option.injEq, reduceCtorEq,
      or_false] at hmem
    rcases hmem with ⟨rfl, rfl⟩ | ⟨rfl, rfl⟩ | ⟨rfl, rfl⟩
    · exact ⟨_, model_denotes⟩
    · exact ⟨_, memoryFraction_denotes⟩
    · exact ⟨_, dataset_denotes⟩
  complete := by simp [ValueOption.required, subjects, groups, Group.subject]

theorem invocation_askedBy : invocation.AskedBy groups fun _ => some "1" where
  parameter := by
    intro p
    cases p <;> simp only [invocation, Configuration.ofRequired, Configuration.valueOf]
    case model => exact .given (List.mem_cons_self ..) model_denotes
    case memoryFraction => exact .given (by simp [groups]) memoryFraction_denotes
    case dataset => exact .given (by simp [groups]) dataset_denotes
    all_goals exact takes_default (by simp [subjects, groups, Group.subject]) rfl
  dummyWeights := by simp [invocation]
  settings := by simp [invocation, groups]
  dryRun := by simp [invocation, groups]
  verbose := by simp [invocation, groups]

theorem check_invocation :
    invocation.configuration.check = .ok invocation.configuration := by
  decide +kernel

end Sample

/-- The groups of the sample ask for its invocation in one order as in the other. -/
theorem resolve_eq_ok_iff_sample :
    let line (gs : List Group) := Text.encode "servebench" :: gs.map Group.token
    let gs := Sample.groups
    Accepted gs ∧ Split (line gs).tail gs ∧ Split (line gs.reverse).tail gs.reverse ∧
      gs.Perm gs.reverse ∧
      resolve (line gs) (fun _ => some "1") = .ok Sample.invocation ∧
      resolve (line gs.reverse) (fun _ => some "1") = .ok Sample.invocation := by
  intro line gs
  have hsplit (gs : List Group) : Split (line gs).tail gs := split_tokens gs
  have hperm : gs.Perm gs.reverse := (List.reverse_perm gs).symm
  obtain ⟨-, hresolve, horder⟩ := resolve_eq_ok_iff (line gs) fun _ => some "1"
  have hfirst : resolve (line gs) (fun _ => some "1") = .ok Sample.invocation :=
    (hresolve _).mpr ⟨gs, hsplit _, Sample.groups_accepted, Sample.invocation_askedBy,
      Sample.check_invocation⟩
  exact ⟨Sample.groups_accepted, hsplit _, hsplit _, hperm, hfirst,
    (horder _ _ _ _ (hsplit _) (hsplit _) hperm).mpr hfirst⟩

end Invocation

end EngineBench
