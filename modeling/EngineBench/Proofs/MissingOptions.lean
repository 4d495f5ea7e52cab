import EngineBench.Proofs.OptionRefusals
import EngineBench.Proofs.Resolution

/-!
# Missing options

Options without a default have to be given, and a command line that is right in every other way is
refused with all those that are not. The check has its place behind the tokens and their values, and
before the values are checked against one another: whatever is wrong with a token is reported
instead, and whatever is wrong with the configuration is not.

* `Options.absent` lists what groups do not give.
* `Invocation.resolve_missing`: exactly those are reported, in a fixed order, with what their values
  stand for.
-/

namespace EngineBench

namespace Options

/-- No group gives the option. -/
def Omits (gs : List Group) (o : ValueOption) : Bool := gs.all fun x => x.subject ≠ .inl o

/-- The options without a default that groups do not give, in the order of
`ValueOption.required`. -/
def absent (gs : List Group) : List ValueOption := ValueOption.required.filter (Omits gs)

theorem omits_iff {gs : List Group} {o : ValueOption} :
    Omits gs o = true ↔ .inl o ∉ subjects gs := by
  rw [Omits, List.all_eq_true, subjects, List.mem_map, not_exists]
  refine forall_congr' fun x => ?_
  rw [decide_eq_true_iff, not_and]

/-- What is missing of what is held is what the groups do not give. -/
theorem Given.Holds.missing_eq {g : Given} {gs : List Group} (h : g.Holds gs) (hr : Readable gs) :
    g.missing = absent gs := by
  refine List.filter_congr fun o _ => ?_
  rw [Bool.eq_iff_iff, Option.isNone_iff_eq_none, h.value?_eq_none_iff hr, omits_iff]

/-! ## Other refusals -/

theorem Stop.OfValue.ne_missing {e : Stop} (h : e.OfValue) (os : List ValueOption) :
    e ≠ .refused (.missing os) := by
  rintro rfl
  obtain ⟨r, hr, heq⟩ := h
  cases heq
  cases hr

/-- No token stops the machine for missing options. -/
theorem run_ne_missing (tokens : List Bytes) (os : List ValueOption) :
    State.start.run tokens ≠ .error (.refused (.missing os)) := by
  intro h
  rcases bind_eq_error_iff.mp h with hread | ⟨s, -, hflush⟩
  · obtain ⟨_, token, _, s, -, -, htoken⟩ := foldlM_eq_error_iff.mp hread
    rcases stops_of_read htoken with ⟨-, ⟨⟩⟩ | ⟨-, x, -, hstops⟩
    cases hstops with
    | value hvalue => exact hvalue.ne_missing os rfl
  · exact (ofValue_of_flush hflush).ne_missing os rfl

/-! ## The check -/

theorem check_eq_missing_iff {g : Given} {os : List ValueOption} :
    (if g.missing.isEmpty then pure g else throw (.refused (.missing g.missing)) :
      Except Stop Given) = .error (.refused (.missing os)) ↔ os = g.missing ∧ os ≠ [] := by
  split
  next hempty =>
    refine iff_of_false nofun ?_
    rintro ⟨rfl, hne⟩
    exact hne (List.isEmpty_iff.mp hempty)
  next hempty =>
    constructor
    · intro h
      cases h
      exact ⟨rfl, fun hnil => hempty (List.isEmpty_iff.mpr hnil)⟩
    · rintro ⟨rfl, -⟩
      rfl

/-- Missing options are found at the end, when everything else is in order. -/
theorem parse_eq_missing_iff {tokens : List Bytes} {os : List ValueOption} :
    parse tokens = .error (.refused (.missing os)) ↔
      ∃ g, State.start.run tokens = .ok g ∧ os = g.missing ∧ os ≠ [] := by
  have hparse : parse tokens = State.start.run tokens >>= fun g =>
      if g.missing.isEmpty then pure g else throw (.refused (.missing g.missing)) := by
    unfold parse State.run State.finish
    rw [bind_assoc]
  rw [hparse, bind_eq_error_iff, or_iff_right (run_ne_missing tokens os)]
  exact exists_congr fun g => and_congr_right fun _ => check_eq_missing_iff

theorem Split.parse_eq_missing_iff {tokens : List Bytes} {gs : List Group} (h : Split tokens gs)
    {os : List ValueOption} : parse tokens = .error (.refused (.missing os)) ↔
      os ≠ [] ∧ (subjects gs).Nodup ∧ Readable gs ∧ os = absent gs := by
  have hrun {g : Given} : State.start.run tokens = .ok g ↔ gs.foldlM Given.add .empty = .ok g := by
    rw [h.run_eq rfl]
    simp [State.flush, State.start]
  rw [Options.parse_eq_missing_iff]
  constructor
  · rintro ⟨g, hg, rfl, hne⟩
    obtain ⟨hnodup, hr, hholds⟩ := foldlM_add_eq_ok_iff.mp (hrun.mp hg)
    exact ⟨hne, hnodup, hr, hholds.missing_eq hr⟩
  · rintro ⟨hne, hnodup, hr, rfl⟩
    obtain ⟨g, hholds⟩ := exists_holds hnodup hr
    exact ⟨g, hrun.mpr (foldlM_add_eq_ok_iff.mpr ⟨hnodup, hr, hholds⟩), (hholds.missing_eq hr).symm,
      hne⟩

/-- The options without a default, as they are reported. -/
def requiredUsages : List (ValueOption × String) :=
  [(.parameter .model, "--model <MODEL>"),
    (.parameter .memoryFraction, "--gpu-memory-util <GPU_MEMORY_UTIL>"),
    (.parameter .dataset, "--dataset <DATASET>")]

theorem usages_absent (gs : List Group) : (absent gs).map (·.usage) =
    (requiredUsages.filter fun p => Omits gs p.1).map Prod.snd := by
  have htable : requiredUsages = ValueOption.required.map fun o => (o, o.usage) := by decide
  rw [htable, List.filter_map, List.map_map]
  rfl

end Options

namespace Invocation

open Options

variable {lookup : String → Option String}

/-- Once nothing is missing, nothing is reported as missing. -/
theorem ofGiven_ne_missing {g : Given} (h : g.missing = []) (os : List ValueOption) :
    ofGiven g lookup ≠ .error (.missing os) := by
  have hvalue {o : ValueOption} (ho : o ∈ ValueOption.required) : ∃ x, g.value? o = some x := by
    refine Option.ne_none_iff_exists'.mp fun hnone => ?_
    have hmem : o ∈ g.missing := List.mem_filter.mpr ⟨ho, by rw [hnone]; rfl⟩
    rw [h] at hmem
    cases hmem
  obtain ⟨model, hmodel⟩ := hvalue (o := .parameter .model) (by decide)
  obtain ⟨memoryFraction, hfraction⟩ := hvalue (o := .parameter .memoryFraction) (by decide)
  obtain ⟨dataset, hdataset⟩ := hvalue (o := .parameter .dataset) (by decide)
  intro hmissing
  simp only [ofGiven, hmodel, hfraction, hdataset] at hmissing
  split at hmissing
  · cases hmissing
  · cases hmissing

theorem resolve_eq_missing_iff {arguments : List Bytes} {os : List ValueOption} :
    resolve arguments lookup = .error (.refused (.missing os)) ↔
      parse arguments.tail = .error (.refused (.missing os)) := by
  unfold resolve
  cases hparse : parse arguments.tail with
  | error stop =>
    cases stop with
    | refused r =>
      constructor
      · rintro ⟨⟩
        rfl
      · rintro ⟨⟩
        rfl
    | notice n => exact iff_of_false nofun nofun
  | ok g =>
    have hmissing := (parse_eq_ok_iff.mp hparse).2
    refine iff_of_false ?_ nofun
    dsimp only
    intro h
    cases hgiven : ofGiven g lookup with
    | ok i =>
      rw [hgiven] at h
      cases h
    | error r =>
      rw [hgiven] at h
      cases h
      exact ofGiven_ne_missing hmissing os hgiven

/-- **Missing options are reported completely.** A command line is refused for missing options
exactly if it is cut into groups, none given twice and every value readable, that do not give every
option without a default; whatever their order and whatever the values, all those options are
reported, in their own order and with what their values stand for. -/
theorem resolve_missing (arguments : List Bytes) (lookup : String → Option String) :
    (∀ os, resolve arguments lookup = .error (.refused (.missing os)) ↔
      os ≠ [] ∧ ∃ gs, Split arguments.tail gs ∧ (subjects gs).Nodup ∧ Readable gs ∧
        os = absent gs) ∧
    ∀ gs, (Refusal.missing (absent gs)).message = "missing required argument: " ++
      String.intercalate ", " ((requiredUsages.filter fun p => Omits gs p.1).map Prod.snd) := by
  refine ⟨fun os => ?_, fun gs => ?_⟩
  · rw [resolve_eq_missing_iff]
    constructor
    · intro h
      obtain ⟨g, hrun, -, -⟩ := parse_eq_missing_iff.mp h
      obtain ⟨gs, hsplit⟩ := (exists_split rfl hrun).2 nofun
      obtain ⟨hne, hgs⟩ := hsplit.parse_eq_missing_iff.mp h
      exact ⟨hne, gs, hsplit, hgs⟩
    · rintro ⟨hne, gs, hsplit, hgs⟩
      exact hsplit.parse_eq_missing_iff.mpr ⟨hne, hgs⟩
  · rw [← usages_absent]
    rfl

namespace Sample

/-- A port that no configuration has, a switch, and a fraction that is not a number. -/
def unchecked : List Group :=
  [.option (.parameter .port) (Text.encode "0"), .switch .verbose,
    .option (.parameter .memoryFraction) (Text.encode "NaN")]

theorem unchecked_readable : Readable unchecked := by
  intro o bs hmem
  simp only [unchecked, List.mem_cons, Group.option.injEq, List.not_mem_nil, reduceCtorEq, false_or,
    or_false] at hmem
  rcases hmem with ⟨rfl, rfl⟩ | ⟨rfl, rfl⟩
  · exact ⟨(0 : UInt16), "0", rfl, ValueOption.readPort?_eq_some_iff.mp (by decide)⟩
  · exact ⟨.nan, "NaN", rfl, Decimal.readFloat?_eq_some_iff.mp rfl⟩

end Sample

/-- Values that no configuration has do not hide what is missing. -/
theorem resolve_missing_unchecked :
    resolve (["servebench", "--port", "0", "-v", "--gpu-memory-util=NaN"].map Text.encode)
        (fun _ => none) =
      .error (.refused (.missing [.parameter .model, .parameter .dataset])) := by
  refine ((resolve_missing _ _).1 _).mpr ⟨by decide, Sample.unchecked, ?_, by decide,
    Sample.unchecked_readable, by decide⟩
  have hport : Group.Spelled (.option (.parameter .port) (Text.encode "0"))
      [Text.encode "--port", Text.encode "0"] := .separate (.inl (by decide))
  have hfraction : Group.Spelled (.option (.parameter .memoryFraction) (Text.encode "NaN"))
      [Text.encode "--gpu-memory-util=NaN"] := .attached
  exact .cons hport (.cons .short (.cons hfraction .nil))

end Invocation

end EngineBench
