import EngineBench.Proofs.JsonNumbers
import EngineBench.Proofs.Utf8
import EngineBench.Summary.Json

/-!
# Records in JSON are read back

The slots of a record are the values that were written, by `Json.slots?_record`. What a field makes
of its slot is a lemma for each kind of field; with them a record is read back field by field.

* `Configuration.ofJson?_of_toJson?` and `Summary.ofJson?_of_toJson?` are the two records: all fields
  come back but the floating-point numbers, which come back as `Binary64.reread?` says.
* `Json.isGrammatical_of_slots?` goes the other way, from what was read to what was there.
-/

namespace EngineBench

theorem Path.text?_ofString (s : String) : (ofString s).text? = some s :=
  Text.decode?_eq_some_iff.mpr rfl

/-- A path that is read from a text is UTF-8. -/
theorem DataFormat.text?_isSome_of_path? {V : Type} {f : DataFormat V} {v : V} {p : Path}
    (h : f.path? v = some p) : p.text?.isSome := by
  obtain ⟨t, -, rfl⟩ := Option.map_eq_some_iff.mp h
  rw [Path.text?_ofString]
  rfl

namespace Json

/-! ## Slots of written records -/

theorem valuesOf_cons (name n : String) (v : Json) (ms : List (Option String × Json)) :
    valuesOf name ((some n, v) :: ms) =
      if n = name then v :: valuesOf name ms else valuesOf name ms := by
  simp only [valuesOf, List.filterMap_cons, Option.some.injEq]
  split <;> simp_all

theorem valuesOf_zip_eq_nil {name : String} {names : List String} (values : List Json)
    (h : name ∉ names) :
    valuesOf name ((names.zip values).map fun m => (some m.1, m.2)) = [] := by
  refine List.filterMap_eq_nil_iff.mpr fun m hm => ?_
  obtain ⟨⟨n, v⟩, hmem, rfl⟩ := List.mem_map.mp hm
  have hne : n ≠ name := by
    rintro rfl
    exact h (List.of_mem_zip hmem).1
  exact if_neg fun heq => hne (Option.some.inj heq)

/-- In a record without repeated names every name has its one value. -/
theorem valuesOf_zip_eq_singleton {names : List String} {values : List Json}
    (hnodup : names.Nodup) {name : String} {v : Json} (hv : (name, v) ∈ names.zip values) :
    valuesOf name ((names.zip values).map fun m => (some m.1, m.2)) = [v] := by
  induction names generalizing values with
  | nil => cases hv
  | cons n names ih =>
    cases values with
    | nil => cases hv
    | cons w values =>
      obtain ⟨hn, hnodup⟩ := List.nodup_cons.mp hnodup
      rw [List.zip_cons_cons, List.mem_cons] at hv
      rw [List.zip_cons_cons, List.map_cons, valuesOf_cons]
      rcases hv with heq | hmem
      · cases heq
        rw [if_pos rfl, valuesOf_zip_eq_nil values hn]
      · have hne : n ≠ name := by
          rintro rfl
          exact hn (List.of_mem_zip hmem).1
        rw [if_neg hne]
        exact ih hnodup hmem

theorem mapM_zip {α β γ : Type} {f : α → Option γ} {g : β → γ} {xs : List α} {ys : List β}
    (hlength : xs.length = ys.length) (h : ∀ x y, (x, y) ∈ xs.zip ys → f x = some (g y)) :
    xs.mapM f = some (ys.map g) := by
  induction xs generalizing ys with
  | nil =>
    obtain rfl : ys = [] := List.eq_nil_of_length_eq_zero hlength.symm
    rfl
  | cons x xs ih =>
    obtain ⟨y, ys, rfl⟩ := List.exists_cons_of_length_eq_add_one hlength.symm
    rw [List.length_cons, List.length_cons, Nat.add_right_cancel_iff] at hlength
    have hhead := h x y List.mem_cons_self
    have htail := ih hlength fun x' y' hmem => h x' y' (List.mem_cons_of_mem _ hmem)
    rw [List.mapM_cons, hhead, htail]
    rfl

theorem exists_of_mem_mapM {α β : Type} {f : α → Option β} {xs : List α} {ys : List β}
    (h : xs.mapM f = some ys) {y : β} (hy : y ∈ ys) : ∃ x ∈ xs, f x = some y := by
  induction xs generalizing ys with
  | nil =>
    cases h
    cases hy
  | cons x xs ih =>
    rw [List.mapM_cons] at h
    obtain ⟨z, hz, h⟩ := Option.bind_eq_some_iff.mp h
    obtain ⟨zs, hzs, h⟩ := Option.bind_eq_some_iff.mp h
    cases h
    rcases List.mem_cons.mp hy with rfl | hy
    · exact ⟨x, List.mem_cons_self, hz⟩
    · obtain ⟨w, hw, hwy⟩ := ih hzs hy
      exact ⟨w, List.mem_cons_of_mem _ hw, hwy⟩

/-- The slots of a record are the values that were written. -/
theorem slots?_record (names : List String) (values : List Json) (hnodup : names.Nodup)
    (hlength : names.length = values.length) :
    (record (names.zip values)).slots? names = some (values.map .given) := by
  have hnamed : ((names.zip values).map fun m => (some m.1, m.2)).all (·.1.isSome) = true := by
    simp
  rw [record, slots?, if_pos hnamed]
  refine mapM_zip hlength fun name v hmem => ?_
  rw [memberSlot?, valuesOf_zip_eq_singleton hnodup hmem]

theorem isGrammatical_record (names : List String) (values : List Json)
    (h : ∀ v ∈ values, v.IsGrammatical) : (record (names.zip values)).IsGrammatical := by
  refine .object fun m hm => ?_
  obtain ⟨⟨n, v⟩, hmem, rfl⟩ := List.mem_map.mp hm
  exact h v (List.of_mem_zip hmem).2

/-- The values of a record can be told from it. -/
theorem record_inj {names : List String} {values values' : List Json} (hnodup : names.Nodup)
    (hlength : names.length = values.length) (hlength' : names.length = values'.length)
    (h : record (names.zip values) = record (names.zip values')) : values = values' := by
  have hslots := slots?_record names values hnodup hlength
  rw [h, slots?_record names values' hnodup hlength'] at hslots
  have hvalues := (List.map_inj_right fun _ _ => Slot.given.inj).mp (Option.some.inj hslots)
  exact hvalues.symm

/-! ## Slots of any value -/

theorem isGrammatical_of_memberSlot? {members : List (Option String × Json)} {name : String}
    {v : Json} (hall : ∀ m ∈ members, m.2.IsGrammatical)
    (h : memberSlot? members name = some (.given v)) : v.IsGrammatical := by
  have hvalues : ∀ w ∈ valuesOf name members, w.IsGrammatical := by
    intro w hw
    obtain ⟨m, hm, hw⟩ := List.mem_filterMap.mp hw
    split at hw
    · cases hw
      exact hall m hm
    · cases hw
  unfold memberSlot? at h
  split at h
  · cases h
  next w heq =>
    cases h
    exact hvalues _ (by rw [heq]; exact List.mem_singleton_self _)
  · cases h

theorem given_mem_ofElements {V : Type} {v : V} {names : List String} {elements : List V}
    (h : Slot.given v ∈ Slot.ofElements names elements) : v ∈ elements := by
  induction names generalizing elements with
  | nil => cases h
  | cons name names ih =>
    cases elements with
    | nil =>
      rcases List.mem_cons.mp h with h | h
      · cases h
      · exact absurd (ih h) List.not_mem_nil
    | cons w elements =>
      rcases List.mem_cons.mp h with h | h
      · cases h
        exact List.mem_cons_self
      · exact List.mem_cons_of_mem _ (ih h)

/-- What is found in a value with proper numerals has proper numerals. -/
theorem isGrammatical_of_slots? {j : Json} {names : List String} {slots : List (Slot Json)}
    (hj : j.IsGrammatical) (h : j.slots? names = some slots) {v : Json}
    (hv : Slot.given v ∈ slots) : v.IsGrammatical := by
  cases hj with
  | object hall =>
    simp only [slots?] at h
    split at h
    · obtain ⟨name, -, hslot⟩ := exists_of_mem_mapM h hv
      exact isGrammatical_of_memberSlot? hall hslot
    · cases h
  | array hall =>
    simp only [slots?] at h
    split at h
    · cases h
      exact hall v (given_mem_ofElements hv)
    · cases h
  | _ => cases h

/-! ## Fields -/

@[simp] theorem text?_text (s : String) : (text s).text? = some s := rfl

theorem format_path?_of_ofPath? {p : Path} {j : Json} (h : ofPath? p = some j) :
    format.path? j = some p := by
  obtain ⟨s, hs, rfl⟩ := Option.map_eq_some_iff.mp h
  show some (Path.ofString s) = some p
  rw [Path.ofString, ← Text.decode?_eq_some_iff.mp hs]

theorem ofPath?_ofString (s : String) : ofPath? (.ofString s) = some (text s) :=
  congrArg (Option.map text) (Path.text?_ofString s)

theorem isGrammatical_of_ofPath? {p : Path} {j : Json} (h : ofPath? p = some j) :
    j.IsGrammatical := by
  obtain ⟨s, -, rfl⟩ := Option.map_eq_some_iff.mp h
  exact .string _

theorem isGrammatical_option {α : Type} {f : α → Json} (hf : ∀ a, (f a).IsGrammatical)
    (x : Option α) : (option f x).IsGrammatical := by
  cases x with
  | none => exact .null
  | some a => exact hf a

end Json

namespace Slot

theorem required_eq_some_iff {V α : Type} {read? : V → Option α} {slot : Slot V} {x : α} :
    slot.required read? = some x ↔ ∃ v, slot = .given v ∧ read? v = some x := by
  cases slot <;> simp [required]

theorem bind_required {V α β : Type} {read? : V → Option α} {v : V} {x : α}
    (h : read? v = some x) (f : α → Option β) : ((given v).required read? >>= f) = f x :=
  (congrArg (Option.bind · f) h).trans (Option.bind_some x f)

end Slot

/-- A field that may be `null` is read back, if no value is written as `null`. -/
theorem Summary.bind_optionalField? {α β : Type} {f : α → Json} {read? : Json → Option α}
    (h : ∀ a, (f a).isNull = false) {x : Option α} (hx : ∀ a ∈ x, read? (f a) = some a)
    (k : Option α → Option β) :
    (optionalField? read? (.given (.option f x)) >>= k) = k x := by
  have hread : optionalField? read? (.given (.option f x)) = some x := by
    cases x with
    | none => rfl
    | some a =>
      show (if (f a).isNull then some none else (read? (f a)).map some) = some (some a)
      rw [h a, hx a rfl]
      rfl
  rw [hread]
  rfl

theorem Outcome.ofJson?_toJson (o : Outcome) : ofJson? o.toJson = some o := by
  cases o <;> rfl

theorem ProcessState.ofJson?_toJson (s : ProcessState) : ofJson? s.toJson = some s := by
  cases s <;> rfl

theorem CleanupAction.ofJson?_toJson (a : CleanupAction) : ofJson? a.toJson = some a := by
  cases a <;> rfl

/-- Such a moment is read back from its text. -/
def Timestamp.IsReread (t : Timestamp) : Prop := read? t.text = some t

theorem Timestamp.ofJson?_toJson {t : Timestamp} (h : t.IsReread) :
    ofJson? t.toJson = some t := by
  rw [ofJson?, toJson, Json.text?_text, Option.bind_some]
  exact h

/-! ## Configurations -/

namespace Parallelism

theorem ofJson?_toJson (l : Parallelism) : ofJson? l.toJson = some l := by
  have hslots : l.toJson.slots? ["tensor_parallel", "pipeline_parallel"] =
      some [.given (.nat l.tensor.toNat), .given (.nat l.pipeline.toNat)] :=
    Json.slots?_record ["tensor_parallel", "pipeline_parallel"]
      [.nat l.tensor.toNat, .nat l.pipeline.toNat] (by decide) rfl
  simp only [ofJson?, hslots, Slot.required, Json.word32?_nat, Option.bind_eq_bind,
    Option.bind_some, Option.pure_def]

theorem isGrammatical_toJson (l : Parallelism) : l.toJson.IsGrammatical := by
  refine Json.isGrammatical_record ["tensor_parallel", "pipeline_parallel"]
    [.nat l.tensor.toNat, .nat l.pipeline.toNat] ?_
  simp only [List.forall_mem_cons]
  exact ⟨Json.isGrammatical_nat _, Json.isGrammatical_nat _, nofun⟩

end Parallelism

/-- What a floating-point number is read as after it was written. -/
def Binary64.reread? (x : Binary64) : Option Binary64 := (Json.float x).float?

namespace Configuration

/-- The values of the fields in the order of their names. -/
def fieldValues (c : Configuration) (memoryFraction firstToken perToken dataset : Json) :
    List Json :=
  [.text c.model, memoryFraction, dataset, .nat c.port.toNat, firstToken, perToken,
    c.context.toJson, c.decoding.toJson, .bool c.dummyWeights]

/-- A record of the fields is read back as its floating-point numbers are read. -/
theorem ofJson?_record (c : Configuration) {memoryFraction firstToken perToken dataset : Json}
    (hdataset : Json.format.path? dataset = some c.dataset) :
    ofJson? (.record (fieldNames.zip (c.fieldValues memoryFraction firstToken perToken dataset))) =
      memoryFraction.float?.bind fun x => firstToken.float?.bind fun y =>
        perToken.float?.bind fun z =>
          some { c with memoryFraction := x, firstToken := y, perToken := z } := by
  have hslots := Json.slots?_record fieldNames
    (c.fieldValues memoryFraction firstToken perToken dataset) (by decide) rfl
  simp only [fieldValues, List.map_cons, List.map_nil] at hslots
  rw [ofJson?, fieldValues, hslots, Option.bind_eq_bind, Option.bind_some]
  dsimp only
  rw [Slot.bind_required (Json.text?_text _)]
  show memoryFraction.float?.bind _ = _
  refine congrArg _ (funext fun x => ?_)
  rw [Slot.bind_required hdataset, Slot.bind_required (Json.word16?_nat _)]
  show firstToken.float?.bind _ = _
  refine congrArg _ (funext fun y => ?_)
  show perToken.float?.bind _ = _
  refine congrArg _ (funext fun z => ?_)
  rw [Slot.bind_required (c.context.ofJson?_toJson), Slot.bind_required (c.decoding.ofJson?_toJson)]
  rfl

theorem isGrammatical_record (c : Configuration)
    {memoryFraction firstToken perToken dataset : Json} (hm : memoryFraction.IsGrammatical)
    (hf : firstToken.IsGrammatical) (hp : perToken.IsGrammatical) (hd : dataset.IsGrammatical) :
    (Json.record (fieldNames.zip
      (c.fieldValues memoryFraction firstToken perToken dataset))).IsGrammatical := by
  refine Json.isGrammatical_record _ _ ?_
  simp only [fieldValues, List.forall_mem_cons]
  exact ⟨.string _, hm, hd, Json.isGrammatical_nat _, hf, hp, c.context.isGrammatical_toJson,
    c.decoding.isGrammatical_toJson, .bool _, nofun⟩

/-- What a configuration is read as after it was written. -/
def reread? (c : Configuration) : Option Configuration :=
  c.memoryFraction.reread?.bind fun x => c.firstToken.reread?.bind fun y =>
    c.perToken.reread?.bind fun z =>
      some { c with memoryFraction := x, firstToken := y, perToken := z }

theorem toJson?_eq_some_iff {c : Configuration} {j : Json} :
    c.toJson? = some j ↔ ∃ dataset, Json.ofPath? c.dataset = some dataset ∧
      j = .record (fieldNames.zip (c.fieldValues (.float c.memoryFraction) (.float c.firstToken)
        (.float c.perToken) dataset)) := by
  refine Option.bind_eq_some_iff.trans (exists_congr fun dataset => and_congr_right fun _ => ?_)
  exact ⟨fun h => (Option.some.inj h).symm, fun h => congrArg some h.symm⟩

theorem ofJson?_of_toJson? {c : Configuration} {j : Json} (h : c.toJson? = some j) :
    ofJson? j = c.reread? := by
  obtain ⟨dataset, hdataset, rfl⟩ := toJson?_eq_some_iff.mp h
  exact c.ofJson?_record (Json.format_path?_of_ofPath? hdataset)

theorem isGrammatical_of_toJson? {c : Configuration} {j : Json} (h : c.toJson? = some j) :
    j.IsGrammatical := by
  obtain ⟨dataset, hdataset, rfl⟩ := toJson?_eq_some_iff.mp h
  exact c.isGrammatical_record (Json.isGrammatical_float _) (Json.isGrammatical_float _)
    (Json.isGrammatical_float _) (Json.isGrammatical_of_ofPath? hdataset)

end Configuration

/-! ## Summaries -/

namespace Summary

/-- The values of the fields in the order of their names. -/
def fieldValues (s : Summary) (configuration log : Json) : List Json :=
  [.nat s.schemaVersion.toNat, .text s.version, s.startedAt.toJson,
    .option Timestamp.toJson s.finishedAt, s.outcome.toJson, .int s.exitCode.toInt, configuration,
    .text s.engineLine, .text s.clientLine, log,
    .option (fun n : UInt32 => .nat n.toNat) s.enginePid,
    .option ProcessState.toJson s.engineState,
    .option (fun n : UInt32 => .nat n.toNat) s.healthAttempts,
    .option (fun n : Int32 => .int n.toInt) s.clientExitCode,
    .option CleanupAction.toJson s.cleanup, .option .text s.cleanupError,
    .option (fun n : Int32 => .int n.toInt) s.interruptedBy]

/-- A record of the fields is read back as its configuration is read. -/
theorem ofJson?_record (s : Summary) {configuration log : Json}
    (hlog : Json.format.path? log = some s.engineLog) (hstarted : s.startedAt.IsReread)
    (hfinished : ∀ t ∈ s.finishedAt, t.IsReread) :
    ofJson? (.record (fieldNames.zip (s.fieldValues configuration log))) =
      (Configuration.ofJson? configuration).map fun c => { s with configuration := c } := by
  have hslots := Json.slots?_record fieldNames (s.fieldValues configuration log) (by decide) rfl
  simp only [fieldValues, List.map_cons, List.map_nil] at hslots
  have hword (x : Option UInt32) : ∀ n ∈ x, (Json.nat n.toNat).word32? = some n :=
    fun n _ => Json.word32?_nat n
  have hint (x : Option Int32) : ∀ n ∈ x, (Json.int n.toInt).int32? = some n :=
    fun n _ => Json.int32?_int n
  rw [ofJson?, fieldValues, hslots, Option.bind_eq_bind, Option.bind_some]
  dsimp only
  rw [Slot.bind_required (Json.word32?_nat _), Slot.bind_required (Json.text?_text _),
    Slot.bind_required (Timestamp.ofJson?_toJson hstarted),
    bind_optionalField? (fun _ => rfl) fun t ht => Timestamp.ofJson?_toJson (hfinished t ht),
    Slot.bind_required (Outcome.ofJson?_toJson _), Slot.bind_required (Json.int32?_int _)]
  show (Configuration.ofJson? configuration).bind _ = _
  cases Configuration.ofJson? configuration with
  | none => rfl
  | some c =>
    rw [Option.bind_some, Slot.bind_required (Json.text?_text _),
      Slot.bind_required (Json.text?_text _), Slot.bind_required hlog,
      bind_optionalField? (fun _ => rfl) (hword _),
      bind_optionalField? (fun _ => rfl) fun a _ => ProcessState.ofJson?_toJson a,
      bind_optionalField? (fun _ => rfl) (hword _), bind_optionalField? (fun _ => rfl) (hint _),
      bind_optionalField? (fun _ => rfl) fun a _ => CleanupAction.ofJson?_toJson a,
      bind_optionalField? (fun _ => rfl) fun t _ => Json.text?_text t,
      bind_optionalField? (fun _ => rfl) (hint _)]
    rfl

theorem isGrammatical_record (s : Summary) {configuration log : Json}
    (hc : configuration.IsGrammatical) (hlog : log.IsGrammatical) :
    (Json.record (fieldNames.zip (s.fieldValues configuration log))).IsGrammatical := by
  have hword (x : Option UInt32) :=
    Json.isGrammatical_option (fun n : UInt32 => Json.isGrammatical_nat n.toNat) x
  have hint (x : Option Int32) :=
    Json.isGrammatical_option (fun n : Int32 => Json.isGrammatical_int n.toInt) x
  refine Json.isGrammatical_record _ _ ?_
  simp only [fieldValues, List.forall_mem_cons]
  exact ⟨Json.isGrammatical_nat _, .string _, .string _,
    Json.isGrammatical_option (fun _ => .string _) _, .string _, Json.isGrammatical_int _, hc,
    .string _, .string _, hlog, hword _, Json.isGrammatical_option (fun _ => .string _) _, hword _,
    hint _, Json.isGrammatical_option (fun _ => .string _) _,
    Json.isGrammatical_option (fun _ => .string _) _, hint _, nofun⟩

/-- What a summary is read as after it was written. -/
def reread? (s : Summary) : Option Summary :=
  s.configuration.reread?.map fun c => { s with configuration := c }

theorem toJson?_eq_some_iff {s : Summary} {j : Json} :
    s.toJson? = some j ↔ ∃ configuration log, s.configuration.toJson? = some configuration ∧
      Json.ofPath? s.engineLog = some log ∧
        j = .record (fieldNames.zip (s.fieldValues configuration log)) := by
  constructor
  · intro h
    obtain ⟨configuration, hc, h⟩ := Option.bind_eq_some_iff.mp h
    obtain ⟨log, hlog, h⟩ := Option.bind_eq_some_iff.mp h
    exact ⟨configuration, log, hc, hlog, (Option.some.inj h).symm⟩
  · rintro ⟨configuration, log, hc, hlog, rfl⟩
    simp only [toJson?, hc, hlog]
    rfl

theorem ofJson?_of_toJson? {s : Summary} {j : Json} (h : s.toJson? = some j)
    (hstarted : s.startedAt.IsReread) (hfinished : ∀ t ∈ s.finishedAt, t.IsReread) :
    ofJson? j = s.reread? := by
  obtain ⟨configuration, log, hc, hlog, rfl⟩ := toJson?_eq_some_iff.mp h
  rw [s.ofJson?_record (Json.format_path?_of_ofPath? hlog) hstarted hfinished,
    Configuration.ofJson?_of_toJson? hc]
  rfl

theorem isGrammatical_of_toJson? {s : Summary} {j : Json} (h : s.toJson? = some j) :
    j.IsGrammatical := by
  obtain ⟨configuration, log, hc, hlog, rfl⟩ := toJson?_eq_some_iff.mp h
  exact s.isGrammatical_record (Configuration.isGrammatical_of_toJson? hc)
    (Json.isGrammatical_of_ofPath? hlog)

end Summary

end EngineBench
