import EngineBench.Configuration
import EngineBench.Proofs.NearestMagnitude

/-!
# The check of a configuration

A configuration is made by setting its fields, in any order and as often as one likes, and is then
checked. The check looks at the parameters one after the other and blames the first that is outside
its domain.

* `Parameter.Admits` are the domains, on the numbers that floating-point values denote.
* `Configuration.MadeOf` is what a configuration holds before it is checked.
* `Configuration.build_judged`: the check accepts exactly the domains, changes nothing, and blames
  the first violation.
-/

namespace EngineBench

/-! ## Domains -/

namespace Binary64

/-- The number that is denoted, if it is finite. Both zeros denote zero. -/
def toRat? : Binary64 → Option ℚ
  | .finite negative m => some (if negative then -m.value else m.value)
  | .infinite _ | .nan => none

end Binary64

namespace Magnitude

theorem value_pos_iff {m : Magnitude} : 0 < m.value ↔ 0 < m.significand := by
  have hunits : 0 < m.units ↔ 0 < m.significand := by
    rw [units_eq]
    exact Nat.mul_pos_iff_of_pos_right (Nat.two_pow_pos _)
  rw [value, div_pos_iff_of_pos_right unitsPerOne_cast_pos, Nat.cast_pos, hunits]

theorem value_le_one_iff {m : Magnitude} : m.value ≤ 1 ↔ m.units ≤ unitsPerOne := by
  rw [value, div_le_one unitsPerOne_cast_pos, Nat.cast_le]

theorem not_neg_value_pos (m : Magnitude) : ¬ 0 < -m.value := by
  rw [not_lt, neg_nonpos]
  exact div_nonneg (Nat.cast_nonneg _) (Nat.cast_nonneg _)

end Magnitude

namespace Binary64

theorem isFinite_and_isPositive_iff (x : Binary64) :
    (x.isFinite && x.isPositive) = true ↔ ∃ q, x.toRat? = some q ∧ 0 < q := by
  cases x with
  | finite negative m =>
    cases negative with
    | false => simp [isFinite, isPositive, toRat?, Magnitude.value_pos_iff]
    | true => simpa [isFinite, isPositive, toRat?] using m.not_neg_value_pos
  | infinite negative => simp [isFinite, toRat?]
  | nan => simp [isFinite, toRat?]

theorem isPositive_and_isAtMostOne_iff (x : Binary64) :
    (x.isPositive && x.isAtMostOne) = true ↔ ∃ q, x.toRat? = some q ∧ 0 < q ∧ q ≤ 1 := by
  cases x with
  | finite negative m =>
    cases negative with
    | false =>
      simp [isPositive, isAtMostOne, toRat?, Magnitude.value_pos_iff, Magnitude.value_le_one_iff]
    | true =>
      have hneg := m.not_neg_value_pos
      simp [isPositive, toRat?, hneg]
  | infinite negative => cases negative <;> simp [isPositive, isAtMostOne, toRat?]
  | nan => simp [isPositive, toRat?]

end Binary64

namespace Parameter

/-- The order in which the parameters are checked. -/
def order : List Parameter :=
  [.model, .memoryFraction, .dataset, .port, .firstToken, .perToken, .contextTensor,
    .contextPipeline, .decodingTensor, .decodingPipeline]

/-- The value that a configuration has for a parameter is in the domain of the parameter. -/
def Admits (c : Configuration) : Parameter → Prop
  | .model => ∃ ch ∈ c.model.toList, Text.isSpace ch = false
  | .memoryFraction => ∃ q, c.memoryFraction.toRat? = some q ∧ 0 < q ∧ q ≤ 1
  | .dataset => c.dataset.bytes ≠ []
  | .port => c.port ≠ 0
  | .firstToken => ∃ q, c.firstToken.toRat? = some q ∧ 0 < q
  | .perToken => ∃ q, c.perToken.toRat? = some q ∧ 0 < q
  | .contextTensor => 1 ≤ c.context.tensor
  | .contextPipeline => 1 ≤ c.context.pipeline
  | .decodingTensor => 1 ≤ c.decoding.tensor
  | .decodingPipeline => 1 ≤ c.decoding.pipeline

/-- The violation that a parameter is blamed for. -/
def violation (c : Configuration) : Parameter → Violation
  | .model => .unnamed .model
  | .memoryFraction => .notAFraction c.memoryFraction
  | .dataset => .unnamed .dataset
  | .port => .zeroPort
  | .firstToken => .notPositive .firstToken c.firstToken
  | .perToken => .notPositive .perToken c.perToken
  | .contextTensor => .zeroDegree .contextTensor
  | .contextPipeline => .zeroDegree .contextPipeline
  | .decodingTensor => .zeroDegree .decodingTensor
  | .decodingPipeline => .zeroDegree .decodingPipeline

@[simp]
theorem parameter_violation (c : Configuration) (p : Parameter) :
    (p.violation c).parameter = p := by
  cases p <;> rfl

/-- What the check asks about a parameter. -/
def passes (c : Configuration) : Parameter → Bool
  | .model => !Text.isBlank c.model
  | .memoryFraction => c.memoryFraction.isPositive && c.memoryFraction.isAtMostOne
  | .dataset => !c.dataset.bytes.isEmpty
  | .port => c.port ≠ 0
  | .firstToken => c.firstToken.isFinite && c.firstToken.isPositive
  | .perToken => c.perToken.isFinite && c.perToken.isPositive
  | .contextTensor => c.context.tensor ≠ 0
  | .contextPipeline => c.context.pipeline ≠ 0
  | .decodingTensor => c.decoding.tensor ≠ 0
  | .decodingPipeline => c.decoding.pipeline ≠ 0

theorem one_le_degree_iff {n : UInt32} : 1 ≤ n ↔ n ≠ 0 := by
  rw [UInt32.le_iff_toNat_le, Ne, ← UInt32.toNat_inj]
  exact Nat.one_le_iff_ne_zero

/-- The check asks whether the value is in the domain. -/
theorem passes_iff (c : Configuration) (p : Parameter) : p.passes c = true ↔ p.Admits c := by
  cases p with
  | model => simp [passes, Admits, Text.isBlank]
  | memoryFraction => exact c.memoryFraction.isPositive_and_isAtMostOne_iff
  | dataset => simp [passes, Admits]
  | port => simp [passes, Admits]
  | firstToken => exact c.firstToken.isFinite_and_isPositive_iff
  | perToken => exact c.perToken.isFinite_and_isPositive_iff
  | _ => simp [passes, Admits, one_le_degree_iff]

end Parameter

namespace Configuration

/-- The check goes through the parameters in their order. -/
theorem violation?_eq (c : Configuration) :
    c.violation? = (Parameter.order.find? fun p => !p.passes c).map (Parameter.violation c) := by
  have hcons (p : Parameter) (ps : List Parameter) :
      ((p :: ps).find? fun q => !q.passes c).map (Parameter.violation c) =
        if !p.passes c then some (p.violation c)
        else (ps.find? fun q => !q.passes c).map (Parameter.violation c) := by
    rw [List.find?_cons]
    cases p.passes c <;> rfl
  simp only [Parameter.order, hcons, List.find?_nil, Option.map_none]
  simp only [violation?, Parameter.passes, Parameter.violation, Bool.not_not, decide_not,
    decide_eq_true_eq]

/-- The parameter is the first one outside its domain, and it is blamed for that. -/
structure Blamed (c : Configuration) (v : Violation) : Prop where
  eq : v = v.parameter.violation c
  outside : ¬ v.parameter.Admits c
  first : ∃ before after, Parameter.order = before ++ v.parameter :: after ∧
    ∀ p ∈ before, p.Admits c

theorem violation?_eq_some_iff {c : Configuration} {v : Violation} :
    c.violation? = some v ↔ c.Blamed v := by
  rw [violation?_eq, Option.map_eq_some_iff]
  simp only [List.find?_eq_some_iff_append, Bool.not_eq_true', ← Bool.not_eq_true,
    Parameter.passes_iff, not_not]
  constructor
  · rintro ⟨p, ⟨houtside, before, after, horder, hbefore⟩, rfl⟩
    refine ⟨?_, ?_, before, after, ?_, hbefore⟩
    · rw [Parameter.parameter_violation]
    · rwa [Parameter.parameter_violation]
    · rwa [Parameter.parameter_violation]
  · rintro ⟨heq, houtside, before, after, horder, hbefore⟩
    exact ⟨v.parameter, ⟨houtside, before, after, horder, hbefore⟩, heq.symm⟩

theorem violation?_eq_none_iff_passes {c : Configuration} :
    c.violation? = none ↔ ∀ p : Parameter, p.passes c = true := by
  have horder (p : Parameter) : p ∈ Parameter.order := by
    cases p <;> decide
  rw [violation?_eq, Option.map_eq_none_iff, List.find?_eq_none]
  simp only [Bool.not_eq_true', Bool.not_eq_false]
  exact ⟨fun h p => h p (horder p), fun h p _ => h p⟩

theorem violation?_eq_none {c : Configuration} :
    c.violation? = none ↔ ∀ p : Parameter, p.Admits c :=
  violation?_eq_none_iff_passes.trans (forall_congr' (Parameter.passes_iff c))

/-! ## Setting the fields -/

/-- The fields that have a default, which can be set. -/
inductive Field where
  | port
  | firstToken
  | perToken
  | context
  | decoding
  | dummyWeights
  deriving DecidableEq

namespace Field

def Value : Field → Type
  | port => UInt16
  | firstToken | perToken => Binary64
  | context | decoding => Parallelism
  | dummyWeights => Bool

/-- What the field holds as long as it is not set. -/
def default : (f : Field) → f.Value
  | port => defaultPort
  | firstToken => defaultFirstToken
  | perToken => defaultPerToken
  | context | decoding => Parallelism.single
  | dummyWeights => false

/-- What a configuration has in the field. -/
def get (c : Configuration) : (f : Field) → f.Value
  | port => c.port
  | firstToken => c.firstToken
  | perToken => c.perToken
  | context => c.context
  | decoding => c.decoding
  | dummyWeights => c.dummyWeights

/-- The value that a change sets the field to, if it is this field that it changes. -/
def setBy? : (f : Field) → Adjustment → Option f.Value
  | port, .port n => some n
  | firstToken, .firstToken x => some x
  | perToken, .perToken x => some x
  | context, .context l => some l
  | decoding, .decoding l => some l
  | dummyWeights, .dummyWeights enabled => some enabled
  | _, _ => none

/-- The value that the field is set to last. -/
def last? (f : Field) (changes : List Adjustment) : Option f.Value :=
  (changes.filterMap f.setBy?).getLast?

/-- A change sets its own field, and no other. -/
theorem get_adjust (f : Field) (c : Configuration) (a : Adjustment) :
    f.get (c.adjust a) = (f.setBy? a).getD (f.get c) := by
  cases f <;> cases a <;> rfl

/-- After some changes a field has the value that it was set to last. -/
theorem get_foldl (f : Field) (c : Configuration) (changes : List Adjustment) :
    f.get (changes.foldl adjust c) = (f.last? changes).getD (f.get c) := by
  induction changes using List.reverseRecOn with
  | nil => rfl
  | append_singleton changes a ih =>
    rw [List.foldl_concat, get_adjust, ih, last?, last?, List.filterMap_append]
    cases ha : f.setBy? a with
    | none => simp [ha]
    | some v => simp [ha]

end Field

/-- What a configuration holds that was made from the values without a default and from changes:
each of these values, and in every other field what it was set to last, or else its default. -/
structure MadeOf (c : Configuration) (model : String) (memoryFraction : Binary64) (dataset : Path)
    (changes : List Adjustment) : Prop where
  model : c.model = model
  memoryFraction : c.memoryFraction = memoryFraction
  dataset : c.dataset = dataset
  field : ∀ f : Field, f.get c = (f.last? changes).getD f.default

section Made

variable {c c' : Configuration} {model : String} {memoryFraction : Binary64} {dataset : Path}
  {changes changes' : List Adjustment}

theorem MadeOf.unique (h : c.MadeOf model memoryFraction dataset changes)
    (h' : c'.MadeOf model memoryFraction dataset changes') (hlast : ∀ f : Field,
      f.last? changes' = f.last? changes) : c' = c := by
  have hfield (f : Field) : f.get c' = f.get c := by
    rw [h.field, h'.field, hlast]
  obtain ⟨⟩ := c
  obtain ⟨⟩ := c'
  obtain ⟨rfl, rfl, rfl, -⟩ := h
  obtain ⟨rfl, rfl, rfl, -⟩ := h'
  obtain rfl : _ = _ := hfield .port
  obtain rfl : _ = _ := hfield .firstToken
  obtain rfl : _ = _ := hfield .perToken
  obtain rfl : _ = _ := hfield .context
  obtain rfl : _ = _ := hfield .decoding
  obtain rfl : _ = _ := hfield .dummyWeights
  rfl

theorem foldl_adjust_required (c : Configuration) (changes : List Adjustment) :
    (changes.foldl adjust c).model = c.model ∧
      (changes.foldl adjust c).memoryFraction = c.memoryFraction ∧
      (changes.foldl adjust c).dataset = c.dataset := by
  induction changes generalizing c with
  | nil => exact ⟨rfl, rfl, rfl⟩
  | cons a changes ih =>
    rw [List.foldl_cons]
    obtain ⟨hmodel, hfraction, hdataset⟩ := ih (c.adjust a)
    rw [hmodel, hfraction, hdataset]
    cases a <;> exact ⟨rfl, rfl, rfl⟩

theorem madeOf_foldl (model : String) (memoryFraction : Binary64) (dataset : Path)
    (changes : List Adjustment) :
    (changes.foldl adjust (ofRequired model memoryFraction dataset)).MadeOf model memoryFraction
      dataset changes := by
  obtain ⟨hmodel, hfraction, hdataset⟩ :=
    foldl_adjust_required (ofRequired model memoryFraction dataset) changes
  refine ⟨hmodel, hfraction, hdataset, fun f => ?_⟩
  have hdefault : f.get (ofRequired model memoryFraction dataset) = f.default := by
    cases f <;> simp only [Field.get, Field.default, ofRequired] <;> rfl
  rw [Field.get_foldl, hdefault]

/-- What was made is what is checked. -/
theorem MadeOf.build_eq (h : c.MadeOf model memoryFraction dataset changes) :
    build model memoryFraction dataset changes = c.check := by
  rw [build, (madeOf_foldl model memoryFraction dataset changes).unique h fun _ => rfl]

end Made

theorem check_eq_ok_iff {c c' : Configuration} :
    c.check = .ok c' ↔ c' = c ∧ c.violation? = none := by
  unfold check
  cases c.violation? with
  | none => simp [eq_comm]
  | some v => simp

theorem check_eq_ok {c c' : Configuration} :
    c.check = .ok c' ↔ c' = c ∧ ∀ p : Parameter, p.Admits c := by
  rw [check_eq_ok_iff, violation?_eq_none]

theorem check_eq_error {c : Configuration} {v : Violation} :
    c.check = .error v ↔ c.Blamed v := by
  rw [← violation?_eq_some_iff, check]
  cases c.violation? with
  | none => simp
  | some w => simp

/-- **The first violation is blamed.** Values and changes make one configuration. If all its values
are in their domains, it is what comes out, and otherwise the first parameter whose value is not is
blamed, in a fixed order. How often the fields were set, and in which order, makes no difference
beyond the last value of each field. -/
theorem build_judged :
    (∀ model memoryFraction dataset changes,
      ∃! c : Configuration, c.MadeOf model memoryFraction dataset changes) ∧
    (∀ (c : Configuration) model memoryFraction dataset changes,
      c.MadeOf model memoryFraction dataset changes →
        (∀ c', build model memoryFraction dataset changes = .ok c' ↔
          c' = c ∧ ∀ p : Parameter, p.Admits c) ∧
        ∀ v, build model memoryFraction dataset changes = .error v ↔ c.Blamed v) ∧
    (∀ model memoryFraction dataset changes changes',
      (∀ f : Field, f.last? changes' = f.last? changes) →
        build model memoryFraction dataset changes' = build model memoryFraction dataset changes) ∧
    Parameter.order.map Parameter.flag =
      ["--model", "--gpu-memory-util", "--dataset", "--port", "--base-ttft", "--base-tpot",
        "--context-tp", "--context-pp", "--decoding-tp", "--decoding-pp"] := by
  refine ⟨fun model memoryFraction dataset changes => ?_,
    fun c model memoryFraction dataset changes h => ?_,
    fun model memoryFraction dataset changes changes' hlast => ?_, rfl⟩
  · refine ⟨_, madeOf_foldl model memoryFraction dataset changes, fun c h => ?_⟩
    exact (madeOf_foldl model memoryFraction dataset changes).unique h fun _ => rfl
  · rw [h.build_eq]
    exact ⟨fun _ => check_eq_ok, fun _ => check_eq_error⟩
  · have h := madeOf_foldl model memoryFraction dataset changes
    have h' := madeOf_foldl model memoryFraction dataset changes'
    rw [h.build_eq, h'.build_eq, h.unique h' hlast]

/-- Of several violations the port is blamed, in whatever order the fields are set. -/
theorem build_judged_port :
    let one := Decimal.toBinary64 false ⟨1, 0⟩
    let changes : List Adjustment := [.decoding ⟨0, 1⟩, .perToken .nan, .port 0]
    let changes' : List Adjustment :=
      [.port 0, .perToken (.infinite false), .decoding ⟨0, 1⟩, .perToken .nan]
    let c : Configuration :=
      { ofRequired "m" one (.ofString "d") with port := 0, perToken := .nan, decoding := ⟨0, 1⟩ }
    c.MadeOf "m" one (.ofString "d") changes ∧ (∀ f : Field, f.last? changes' = f.last? changes) ∧
      build "m" one (.ofString "d") changes = .error .zeroPort ∧
      build "m" one (.ofString "d") changes' = .error .zeroPort := by
  intro one changes changes' c
  obtain ⟨-, hjudged, horder, -⟩ := build_judged
  have hc : changes.foldl adjust (ofRequired "m" one (.ofString "d")) = c := by
    simp only [changes, List.foldl_cons, List.foldl_nil, adjust, c, ofRequired]
  have hmade : c.MadeOf "m" one (.ofString "d") changes := hc ▸ madeOf_foldl _ _ _ changes
  have hlast (f : Field) : f.last? changes' = f.last? changes := by
    cases f <;> rfl
  have hblamed : c.Blamed .zeroPort := by
    refine violation?_eq_some_iff.mp ?_
    decide +kernel
  have hbuild := ((hjudged c _ _ _ _ hmade).2 .zeroPort).mpr hblamed
  exact ⟨hmade, hlast, hbuild, (horder _ _ _ _ _ hlast).trans hbuild⟩

end Configuration

end EngineBench
