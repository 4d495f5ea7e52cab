import EngineBench.Proofs.ConfigurationCheck
import EngineBench.Proofs.JsonRecords
import EngineBench.Proofs.Resolution

/-!
# Where configurations come from

There are two ways to a configuration. One is `Configuration.build`, which lets through exactly what
`Configuration.Valid` describes. The other is a JSON text, of a configuration or of a summary that
holds one; the reader of records checks nothing but the kinds of the values, so that exactly what
`Configuration.IsReadable` describes can come out of it.

* `Configuration.obtainable_iff` says so of both ways.
* `Configuration.exists_isReadFrom_violation`: the second one guarantees none of the conditions of
  the first.
-/

namespace EngineBench

/-- Some numeral stands for the number. -/
def Binary64.IsReadable (x : Binary64) : Prop :=
  ∃ n : Numeral, n.IsGrammatical ∧ n.float? = some x

namespace Json

/-- A number that is read from a value has a numeral, and can be written with it again. -/
theorem isReadable_of_float? {v : Json} {x : Binary64} (hv : v.IsGrammatical)
    (h : v.float? = some x) : x.IsReadable := by
  cases hv with
  | number hn => exact ⟨_, hn, h⟩
  | _ => cases h

end Json

theorem Binary64.isReadable_of_isShort {x : Binary64} (h : x.IsShort) : x.IsReadable :=
  Json.isReadable_of_float? (Json.isGrammatical_float x) (Json.float?_float_of_isShort h)

theorem Binary64.IsReadable.isFinite {x : Binary64} (h : x.IsReadable) : x.isFinite = true := by
  obtain ⟨n, -, hx⟩ := h
  obtain ⟨m, -, rfl⟩ := Option.map_eq_some_iff.mp hx
  rfl

namespace Configuration

/-- What the check asks of a configuration. -/
structure Valid (c : Configuration) : Prop where
  model : Text.isBlank c.model = false
  memoryFraction : c.memoryFraction.isPositive = true ∧ c.memoryFraction.isAtMostOne = true
  dataset : c.dataset.bytes ≠ []
  port : c.port ≠ 0
  firstToken : c.firstToken.isFinite = true ∧ c.firstToken.isPositive = true
  perToken : c.perToken.isFinite = true ∧ c.perToken.isPositive = true
  context : c.context.tensor ≠ 0 ∧ c.context.pipeline ≠ 0
  decoding : c.decoding.tensor ≠ 0 ∧ c.decoding.pipeline ≠ 0

/-- What a record of a configuration can hold. -/
structure IsReadable (c : Configuration) : Prop where
  memoryFraction : c.memoryFraction.IsReadable
  dataset : c.dataset.text?.isSome
  firstToken : c.firstToken.IsReadable
  perToken : c.perToken.IsReadable

/-- A text from which a configuration can be read, by itself or in a summary. -/
def IsReadFrom (c : Configuration) (text : String) : Prop :=
  ∃ j, Json.read? text = some j ∧
    (ofJson? j = some c ∨ ∃ s, Summary.ofJson? j = some s ∧ s.configuration = c)

/-! ## The check -/

theorem violation?_eq_none_iff {c : Configuration} : c.violation? = none ↔ c.Valid := by
  rw [violation?_eq_none_iff_passes]
  constructor
  · intro h
    exact {
      model := by simpa [Parameter.passes] using h .model
      memoryFraction := Bool.and_eq_true_iff.mp (h .memoryFraction)
      dataset := by simpa [Parameter.passes] using h .dataset
      port := of_decide_eq_true (h .port)
      firstToken := Bool.and_eq_true_iff.mp (h .firstToken)
      perToken := Bool.and_eq_true_iff.mp (h .perToken)
      context := ⟨of_decide_eq_true (h .contextTensor), of_decide_eq_true (h .contextPipeline)⟩
      decoding := ⟨of_decide_eq_true (h .decodingTensor), of_decide_eq_true (h .decodingPipeline)⟩ }
  · intro h p
    cases p <;> simp [Parameter.passes, h.model, h.memoryFraction, h.dataset, h.port, h.firstToken,
      h.perToken, h.context, h.decoding]

/-- Each configuration can be asked for, field by field. -/
theorem exists_build_eq_check (c : Configuration) :
    ∃ changes, build c.model c.memoryFraction c.dataset changes = c.check := by
  refine ⟨[.port c.port, .firstToken c.firstToken, .perToken c.perToken, .context c.context,
    .decoding c.decoding, .dummyWeights c.dummyWeights], ?_⟩
  simp only [build, List.foldl_cons, List.foldl_nil, adjust, ofRequired]

theorem built_iff {c : Configuration} :
    (∃ model memoryFraction dataset changes,
      build model memoryFraction dataset changes = .ok c) ↔ c.Valid := by
  rw [← violation?_eq_none_iff]
  constructor
  · rintro ⟨model, memoryFraction, dataset, changes, h⟩
    obtain ⟨rfl, hnone⟩ := check_eq_ok_iff.mp h
    exact hnone
  · intro h
    obtain ⟨changes, hbuild⟩ := c.exists_build_eq_check
    exact ⟨_, _, _, changes, hbuild.trans (check_eq_ok_iff.mpr ⟨rfl, h⟩)⟩

/-! ## Texts -/

theorem IsReadable.of_ofJson? {c : Configuration} {j : Json} (hj : j.IsGrammatical)
    (h : ofJson? j = some c) : c.IsReadable := by
  obtain ⟨slots, hslots, h⟩ := Option.bind_eq_some_iff.mp h
  split at h
  next model memoryFraction dataset port firstToken perToken context decoding dummyWeights =>
    have hgrammatical {v : Json} := Json.isGrammatical_of_slots? hj hslots (v := v)
    simp only [List.mem_cons, List.not_mem_nil, or_false] at hgrammatical
    obtain ⟨_, -, h⟩ := Option.bind_eq_some_iff.mp h
    obtain ⟨_, hmemoryFraction, h⟩ := Option.bind_eq_some_iff.mp h
    obtain ⟨_, hdataset, h⟩ := Option.bind_eq_some_iff.mp h
    obtain ⟨_, -, h⟩ := Option.bind_eq_some_iff.mp h
    obtain ⟨_, hfirstToken, h⟩ := Option.bind_eq_some_iff.mp h
    obtain ⟨_, hperToken, h⟩ := Option.bind_eq_some_iff.mp h
    obtain ⟨_, -, h⟩ := Option.bind_eq_some_iff.mp h
    obtain ⟨_, -, h⟩ := Option.bind_eq_some_iff.mp h
    obtain ⟨_, -, h⟩ := Option.bind_eq_some_iff.mp h
    cases h
    obtain ⟨v, rfl, hv⟩ := Slot.required_eq_some_iff.mp hmemoryFraction
    obtain ⟨p, rfl, hp⟩ := Slot.required_eq_some_iff.mp hdataset
    obtain ⟨w, rfl, hw⟩ := Slot.required_eq_some_iff.mp hfirstToken
    obtain ⟨u, rfl, hu⟩ := Slot.required_eq_some_iff.mp hperToken
    exact ⟨Json.isReadable_of_float? (hgrammatical (by simp)) hv, DataFormat.text?_isSome_of_path? hp,
      Json.isReadable_of_float? (hgrammatical (by simp)) hw,
      Json.isReadable_of_float? (hgrammatical (by simp)) hu⟩
  next => cases h

theorem IsReadable.of_summary {s : Summary} {j : Json} (hj : j.IsGrammatical)
    (h : Summary.ofJson? j = some s) : s.configuration.IsReadable := by
  obtain ⟨slots, hslots, h⟩ := Option.bind_eq_some_iff.mp h
  split at h
  next =>
    have hgrammatical {v : Json} := Json.isGrammatical_of_slots? hj hslots (v := v)
    -- The configuration is the seventh of seventeen fields.
    iterate 6 obtain ⟨_, -, h⟩ := Option.bind_eq_some_iff.mp h
    obtain ⟨c, hc, h⟩ := Option.bind_eq_some_iff.mp h
    iterate 10 obtain ⟨_, -, h⟩ := Option.bind_eq_some_iff.mp h
    cases h
    obtain ⟨v, rfl, hv⟩ := Slot.required_eq_some_iff.mp hc
    exact .of_ofJson? (hgrammatical (by simp)) hv
  next => cases h

theorem IsReadable.of_isReadFrom {c : Configuration} {text : String} (h : c.IsReadFrom text) :
    c.IsReadable := by
  obtain ⟨j, hj, hc | ⟨s, hs, rfl⟩⟩ := h
  · exact .of_ofJson? (Json.isGrammatical_of_read? hj) hc
  · exact .of_summary (Json.isGrammatical_of_read? hj) hs

/-- The record of a readable configuration is read as it. -/
theorem IsReadable.exists_json {c : Configuration} (h : c.IsReadable) :
    ∃ j : Json, j.IsGrammatical ∧ ofJson? j = some c := by
  obtain ⟨n, hn, hx⟩ := h.memoryFraction
  obtain ⟨k, hk, hy⟩ := h.firstToken
  obtain ⟨l, hl, hz⟩ := h.perToken
  obtain ⟨t, ht⟩ := Option.isSome_iff_exists.mp h.dataset
  have hdataset : Json.ofPath? c.dataset = some (.text t) := congrArg (Option.map Json.text) ht
  refine ⟨.record (fieldNames.zip (c.fieldValues (.number n) (.number k) (.number l) (.text t))),
    c.isGrammatical_record (.number hn) (.number hk) (.number hl) (.string _), ?_⟩
  rw [c.ofJson?_record (Json.format_path?_of_ofPath? hdataset)]
  show (n.float?.bind fun x => k.float?.bind fun y => l.float?.bind fun z => _) = _
  rw [hx, hy, hz]
  rfl

theorem readable_iff {c : Configuration} : (∃ text, c.IsReadFrom text) ↔ c.IsReadable := by
  constructor
  · rintro ⟨text, h⟩
    exact .of_isReadFrom h
  · intro h
    obtain ⟨j, hj, hc⟩ := h.exists_json
    exact ⟨j.pretty, j, Json.read?_pretty hj, .inl hc⟩

/-! ## What texts do not guarantee -/

/-- A configuration that breaks the condition on one parameter, and no other. -/
def breaking (p : Parameter) : Configuration :=
  let c := ofRequired "m" (Decimal.toBinary64 false ⟨1, 0⟩) (.ofString "d.json")
  let minusOne := Decimal.toBinary64 true ⟨1, 0⟩
  match p with
  | .model => { c with model := " " }
  | .memoryFraction => { c with memoryFraction := minusOne }
  | .dataset => { c with dataset := .ofString "" }
  | .port => { c with port := 0 }
  | .firstToken => { c with firstToken := minusOne }
  | .perToken => { c with perToken := minusOne }
  | .contextTensor => { c with context := ⟨0, 1⟩ }
  | .contextPipeline => { c with context := ⟨1, 0⟩ }
  | .decodingTensor => { c with decoding := ⟨0, 1⟩ }
  | .decodingPipeline => { c with decoding := ⟨1, 0⟩ }

theorem parameter_violation?_breaking (p : Parameter) :
    (breaking p).violation?.map Violation.parameter = some p := by
  cases p <;> decide +kernel

theorem breaking_isReadable (p : Parameter) : (breaking p).IsReadable := by
  have hnumbers : (breaking p).memoryFraction.IsShort ∧ (breaking p).firstToken.IsShort ∧
      (breaking p).perToken.IsShort := by
    cases p <;> decide +kernel
  obtain ⟨hmemoryFraction, hfirstToken, hperToken⟩ := hnumbers
  refine ⟨Binary64.isReadable_of_isShort hmemoryFraction, ?_,
    Binary64.isReadable_of_isShort hfirstToken, Binary64.isReadable_of_isShort hperToken⟩
  obtain ⟨t, ht⟩ : ∃ t, (breaking p).dataset = .ofString t := by
    cases p <;> exact ⟨_, rfl⟩
  rw [ht, Path.text?_ofString]
  rfl

/-- No parameter has to be in its domain in what is read. -/
theorem exists_isReadFrom_violation (p : Parameter) :
    ∃ c : Configuration, (∃ text, c.IsReadFrom text) ∧
      c.violation?.map Violation.parameter = some p :=
  ⟨breaking p, readable_iff.mpr (breaking_isReadable p), parameter_violation?_breaking p⟩

/-! ## Both ways -/

/-- A configuration can be built exactly if it is valid. It can be read from a text exactly if the
path of its dataset is UTF-8 and numerals stand for its numbers, which are finite then; nothing else
is asked of it. -/
theorem obtainable_iff (c : Configuration) :
    ((∃ model memoryFraction dataset changes,
      build model memoryFraction dataset changes = .ok c) ↔ c.Valid) ∧
    ((∃ text, c.IsReadFrom text) ↔ c.IsReadable) ∧
    (c.IsReadable → c.memoryFraction.isFinite = true ∧ c.firstToken.isFinite = true ∧
      c.perToken.isFinite = true) := by
  refine ⟨built_iff, readable_iff, fun h => ?_⟩
  exact ⟨h.memoryFraction.isFinite, h.firstToken.isFinite, h.perToken.isFinite⟩

end Configuration

end EngineBench
