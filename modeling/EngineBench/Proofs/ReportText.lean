import EngineBench.Proofs.ConfigurationText
import EngineBench.Proofs.RereadNumbers
import EngineBench.Proofs.Run
import EngineBench.Report

/-!
# The text of a report is read back

A report is written so that another program can read it. Everything in it is read back as it was
recorded, with one exception: the three floating-point numbers of the configuration are written
exactly and read with two roundings.

* `Report.read?` reads a report; `Report.decode_text` says what it makes of a written one, and when
  that is the summary itself, with the same text once more.
* `Configuration.IsFinite` asks for finite numbers; those are read, as some number. A configuration
  that is accepted has such numbers, so that the report of each run is read.
* `Configuration.IsShort` asks for numbers as people write them; those are read back.
* `Report.exists_run_not_reread`: other numbers need not be, though a run accepts them.
-/

namespace EngineBench

namespace Binary64

/-- Only finite numbers are written as numbers, and only such are read. -/
theorem exists_finite_of_reread? {x y : Binary64} (h : x.reread? = some y) :
    (∃ a m, x = .finite a m) ∧ ∃ b k, y = .finite b k := by
  cases x with
  | finite a m =>
    obtain ⟨k, -, rfl⟩ := Option.map_eq_some_iff.mp h
    exact ⟨⟨a, m, rfl⟩, _, k, rfl⟩
  | infinite _ => cases h
  | nan => cases h

/-- Exactly the finite numbers are read as some number. -/
theorem exists_reread?_iff {x : Binary64} : (∃ y, x.reread? = some y) ↔ x.isFinite = true := by
  rw [← Option.isSome_iff_exists]
  exact Json.float?_float_isSome_iff

/-- A fraction is finite. -/
theorem isFinite_of_isPositive_of_isAtMostOne {x : Binary64} (hpositive : x.isPositive = true)
    (hatMost : x.isAtMostOne = true) : x.isFinite = true := by
  cases x with
  | finite _ _ => rfl
  | infinite negative => cases negative <;> contradiction
  | nan => cases hpositive

/-- A number that is read as another one is written differently then. -/
theorem eq_of_float_eq {x y : Binary64} (h : x.reread? = some y)
    (hfloat : Json.float y = Json.float x) : y = x := by
  obtain ⟨⟨a, m, rfl⟩, b, k, rfl⟩ := exists_finite_of_reread? h
  obtain ⟨rfl, rfl⟩ := Json.float_finite_inj hfloat
  rfl

end Binary64

namespace Configuration

/-- The numbers of a configuration are read back from what is written. -/
structure IsReread (c : Configuration) : Prop where
  memoryFraction : c.memoryFraction.reread? = some c.memoryFraction
  firstToken : c.firstToken.reread? = some c.firstToken
  perToken : c.perToken.reread? = some c.perToken

/-- The numbers of a configuration are finite. -/
structure IsFinite (c : Configuration) : Prop where
  memoryFraction : c.memoryFraction.isFinite = true
  firstToken : c.firstToken.isFinite = true
  perToken : c.perToken.isFinite = true

/-- The numbers of a configuration have short decimals. -/
structure IsShort (c : Configuration) : Prop where
  memoryFraction : c.memoryFraction.IsShort
  firstToken : c.firstToken.IsShort
  perToken : c.perToken.IsShort

theorem IsShort.isReread {c : Configuration} (h : c.IsShort) : c.IsReread :=
  ⟨Json.float?_float_of_isShort h.memoryFraction, Json.float?_float_of_isShort h.firstToken,
    Json.float?_float_of_isShort h.perToken⟩

theorem reread?_eq_some_iff {c c' : Configuration} :
    c.reread? = some c' ↔ ∃ x y z, c.memoryFraction.reread? = some x ∧
      c.firstToken.reread? = some y ∧ c.perToken.reread? = some z ∧
        c' = { c with memoryFraction := x, firstToken := y, perToken := z } := by
  constructor
  · intro h
    obtain ⟨x, hx, h⟩ := Option.bind_eq_some_iff.mp h
    obtain ⟨y, hy, h⟩ := Option.bind_eq_some_iff.mp h
    obtain ⟨z, hz, h⟩ := Option.bind_eq_some_iff.mp h
    exact ⟨x, y, z, hx, hy, hz, (Option.some.inj h).symm⟩
  · rintro ⟨x, y, z, hx, hy, hz, rfl⟩
    rw [reread?, hx, hy, hz]
    rfl

/-- What is written for a configuration is read as some configuration exactly if its numbers are
finite. -/
theorem reread?_isSome_iff {c : Configuration} : c.reread?.isSome ↔ c.IsFinite := by
  rw [Option.isSome_iff_exists]
  constructor
  · rintro ⟨c', h⟩
    obtain ⟨x, y, z, hx, hy, hz, -⟩ := reread?_eq_some_iff.mp h
    exact ⟨Binary64.exists_reread?_iff.mp ⟨x, hx⟩, Binary64.exists_reread?_iff.mp ⟨y, hy⟩,
      Binary64.exists_reread?_iff.mp ⟨z, hz⟩⟩
  · intro h
    obtain ⟨x, hx⟩ := Binary64.exists_reread?_iff.mpr h.memoryFraction
    obtain ⟨y, hy⟩ := Binary64.exists_reread?_iff.mpr h.firstToken
    obtain ⟨z, hz⟩ := Binary64.exists_reread?_iff.mpr h.perToken
    exact ⟨_, reread?_eq_some_iff.mpr ⟨x, y, z, hx, hy, hz, rfl⟩⟩

theorem Valid.isFinite {c : Configuration} (h : c.Valid) : c.IsFinite where
  memoryFraction := Binary64.isFinite_of_isPositive_of_isAtMostOne h.memoryFraction.1
    h.memoryFraction.2
  firstToken := h.firstToken.1
  perToken := h.perToken.1

theorem reread?_eq_self_iff {c : Configuration} : c.reread? = some c ↔ c.IsReread := by
  rw [reread?_eq_some_iff]
  constructor
  · rintro ⟨x, y, z, hx, hy, hz, hc⟩
    have hm := congrArg memoryFraction hc
    have hf := congrArg firstToken hc
    have hp := congrArg perToken hc
    dsimp only at hm hf hp
    subst hm hf hp
    exact ⟨hx, hy, hz⟩
  · intro h
    exact ⟨_, _, _, h.memoryFraction, h.firstToken, h.perToken, rfl⟩

/-- A configuration that is read as another one is written differently then. -/
theorem eq_of_toJson?_eq {c c' : Configuration} {j : Json} (h : c.reread? = some c')
    (hc : c.toJson? = some j) (hc' : c'.toJson? = some j) : c' = c := by
  obtain ⟨x, y, z, hx, hy, hz, rfl⟩ := reread?_eq_some_iff.mp h
  obtain ⟨dataset, -, hj⟩ := toJson?_eq_some_iff.mp hc
  obtain ⟨dataset', -, hj'⟩ := toJson?_eq_some_iff.mp hc'
  have hvalues := Json.record_inj (by decide) rfl rfl (hj'.symm.trans hj)
  simp only [fieldValues, List.cons.injEq] at hvalues
  obtain ⟨-, hm, -, -, hf, hp, -⟩ := hvalues
  rw [Binary64.eq_of_float_eq hx hm, Binary64.eq_of_float_eq hy hf, Binary64.eq_of_float_eq hz hp]

end Configuration

namespace Summary

theorem reread?_eq_self_iff {s : Summary} : s.reread? = some s ↔ s.configuration.IsReread := by
  rw [← Configuration.reread?_eq_self_iff, reread?, Option.map_eq_some_iff]
  constructor
  · rintro ⟨c, hc, hs⟩
    have hconfiguration := congrArg configuration hs
    dsimp only at hconfiguration
    rwa [hconfiguration] at hc
  · intro h
    exact ⟨_, h, rfl⟩

theorem reread?_isSome_iff {s : Summary} : s.reread?.isSome ↔ s.configuration.IsFinite := by
  rw [reread?, Option.isSome_map, Configuration.reread?_isSome_iff]

/-- A summary that is read as another one is written differently then. -/
theorem eq_of_toJson?_eq {s s' : Summary} {j : Json} (h : s.reread? = some s')
    (hs : s.toJson? = some j) (hs' : s'.toJson? = some j) : s' = s := by
  obtain ⟨c, hc, rfl⟩ := Option.map_eq_some_iff.mp h
  obtain ⟨jc, log, hjc, -, hj⟩ := toJson?_eq_some_iff.mp hs
  obtain ⟨jc', log', hjc', -, hj'⟩ := toJson?_eq_some_iff.mp hs'
  have hvalues := Json.record_inj (by decide) rfl rfl (hj'.symm.trans hj)
  simp only [fieldValues, List.cons.injEq] at hvalues
  obtain ⟨-, -, -, -, -, -, rfl, -⟩ := hvalues
  rw [Configuration.eq_of_toJson?_eq hc hjc hjc']

end Summary

namespace Report

/-- The summary that a text spells. -/
def read? (text : String) : Option Summary := (Json.read? text).bind Summary.ofJson?

variable {s : Summary} {text : String}

/-- A written report is the JSON record of its summary. -/
theorem json_of_text? (h : text? s = some text) : Json.read? text = s.toJson? := by
  obtain ⟨j, hj, rfl⟩ := Option.map_eq_some_iff.mp h
  rw [hj, Json.read?_pretty (Summary.isGrammatical_of_toJson? hj)]

theorem read?_of_text? (h : text? s = some text) (hstarted : s.startedAt.IsReread)
    (hfinished : ∀ t ∈ s.finishedAt, t.IsReread) : read? text = s.reread? := by
  obtain ⟨j, hj, -⟩ := Option.map_eq_some_iff.mp h
  rw [read?, json_of_text? h, hj, Option.bind_some, Summary.ofJson?_of_toJson? hj hstarted hfinished]

theorem read?_isSome_iff (h : text? s = some text) (hstarted : s.startedAt.IsReread)
    (hfinished : ∀ t ∈ s.finishedAt, t.IsReread) :
    (read? text).isSome ↔ s.configuration.IsFinite := by
  rw [read?_of_text? h hstarted hfinished, Summary.reread?_isSome_iff]

theorem read?_eq_self_iff (h : text? s = some text) (hstarted : s.startedAt.IsReread)
    (hfinished : ∀ t ∈ s.finishedAt, t.IsReread) :
    read? text = some s ↔ s.configuration.IsReread := by
  rw [read?_of_text? h hstarted hfinished, Summary.reread?_eq_self_iff]

/-- What is read is written with the same text exactly if it is what was written. -/
theorem text?_of_read?_iff (h : text? s = some text) (hstarted : s.startedAt.IsReread)
    (hfinished : ∀ t ∈ s.finishedAt, t.IsReread) :
    (read? text).bind text? = some text ↔ s.configuration.IsReread := by
  rw [← Summary.reread?_eq_self_iff, read?_of_text? h hstarted hfinished]
  constructor
  · intro hagain
    obtain ⟨s', hs', htext⟩ := Option.bind_eq_some_iff.mp hagain
    have hjson := json_of_text? htext
    rw [json_of_text? h] at hjson
    obtain ⟨j, hj, -⟩ := Option.map_eq_some_iff.mp h
    rw [hj] at hjson
    rw [hs', Summary.eq_of_toJson?_eq hs' hj hjson.symm]
  · intro hself
    rw [hself]
    exact h

/-- A report is read as the summary that was written, with the numbers of its configuration as they
are read back; all else is the same. It is the summary itself, and leads to the same text once more,
exactly if each of these numbers is read back as itself. Short numbers are. Some summary is read
exactly if these numbers are finite, and so from the report of each configuration that is
accepted. -/
theorem decode_text (h : text? s = some text) (hstarted : s.startedAt.IsReread)
    (hfinished : ∀ t ∈ s.finishedAt, t.IsReread) :
    (∀ s', read? text = some s' ↔ ∃ x y z, s.configuration.memoryFraction.reread? = some x ∧
      s.configuration.firstToken.reread? = some y ∧ s.configuration.perToken.reread? = some z ∧
        s' = { s with configuration :=
          { s.configuration with memoryFraction := x, firstToken := y, perToken := z } }) ∧
      (read? text = some s ↔ s.configuration.IsReread) ∧
      ((read? text).bind text? = some text ↔ s.configuration.IsReread) ∧
      (s.configuration.IsShort → s.configuration.IsReread) ∧
      ((read? text).isSome ↔ s.configuration.IsFinite) ∧
      (∀ model memoryFraction dataset changes,
        Configuration.build model memoryFraction dataset changes = .ok s.configuration →
          ∃ s', read? text = some s') := by
  have hread := read?_isSome_iff h hstarted hfinished
  refine ⟨fun s' => ?_, read?_eq_self_iff h hstarted hfinished,
    text?_of_read?_iff h hstarted hfinished, Configuration.IsShort.isReread, hread, ?_⟩
  · rw [read?_of_text? h hstarted hfinished, Summary.reread?, Option.map_eq_some_iff]
    constructor
    · rintro ⟨c, hc, rfl⟩
      obtain ⟨x, y, z, hx, hy, hz, rfl⟩ := Configuration.reread?_eq_some_iff.mp hc
      exact ⟨x, y, z, hx, hy, hz, rfl⟩
    · rintro ⟨x, y, z, hx, hy, hz, rfl⟩
      exact ⟨_, Configuration.reread?_eq_some_iff.mpr ⟨x, y, z, hx, hy, hz, rfl⟩, rfl⟩
  · intro model memoryFraction dataset changes hbuild
    have hvalid := Configuration.built_iff.mp ⟨model, memoryFraction, dataset, changes, hbuild⟩
    exact Option.isSome_iff_exists.mp (hread.mpr hvalid.isFinite)

namespace Sample

/-- A moment of a day. -/
def moment : Timestamp := ⟨⟨2024, 2, 29⟩, 12, 30, 0, 250000000⟩

theorem moment_isReread : moment.IsReread := by
  unfold Timestamp.IsReread
  decide +kernel

/-- A stage with a calendar. -/
def host : Host Stage := { Stage.host with date := fun _ => moment }

/-- A stage on which the run is cancelled before it starts. -/
def start : Stage := { Stage.start with interrupts := Interrupts.none.raise 0 }

/-- A memory fraction that is written as 0.9. -/
def short : Binary64 := Decimal.toBinary64 false ⟨9, -1⟩

/-- A memory fraction that is written as 0.9007199254740993. -/
def long : Binary64 := Decimal.toBinary64 false ⟨9007199254740993, -16⟩

/-- The configuration with a memory fraction, and defaults. -/
def configuration (memoryFraction : Binary64) : Configuration :=
  .ofRequired "m" memoryFraction (.ofString "d.json")

theorem isShort_configuration : (configuration short).IsShort where
  memoryFraction := by decide +kernel
  firstToken := by decide +kernel
  perToken := by decide +kernel

theorem not_isReread_configuration : ¬ (configuration long).IsReread := by
  intro h
  have hlong : (configuration long).memoryFraction.reread? ≠
      some (configuration long).memoryFraction := by decide +kernel
  exact hlong h.memoryFraction

/-- What a run leaves that is cancelled before it starts. -/
def summary (memoryFraction : Binary64) : Summary :=
  let p : Plan := { Stage.plan with log := .ofString "server.log" }
  ((p.begin (configuration memoryFraction) moment).noteSignal none).finish .interrupted moment

theorem configuration_summary (memoryFraction : Binary64) :
    (summary memoryFraction).configuration = configuration memoryFraction := rfl

theorem run_eq (memoryFraction : Binary64) :
    (Plan.run host { Stage.plan with log := .ofString "server.log" } (configuration memoryFraction)
      Stage.cancellingProbe start).1 = .ok (summary memoryFraction) := rfl

theorem exists_text (memoryFraction : Binary64) :
    ∃ text, text? (summary memoryFraction) = some text := by
  have hconfiguration := Configuration.toJson?_eq_some_iff (c := configuration memoryFraction).mpr
    ⟨_, Json.ofPath?_ofString "d.json", rfl⟩
  have hsummary := Summary.toJson?_eq_some_iff (s := summary memoryFraction).mpr
    ⟨_, _, hconfiguration, Json.ofPath?_ofString "server.log", rfl⟩
  exact ⟨_, congrArg (Option.map Json.pretty) hsummary⟩

theorem summary_isReread (memoryFraction : Binary64) :
    (summary memoryFraction).startedAt.IsReread ∧
      ∀ t ∈ (summary memoryFraction).finishedAt, t.IsReread := by
  refine ⟨moment_isReread, ?_⟩
  rintro t ⟨⟩
  exact moment_isReread

end Sample

/-- The report of a run with a memory fraction of 0.9 is read back. -/
theorem decode_text_sample :
    let s := Sample.summary Sample.short
    ∃ text, text? s = some text ∧ s.startedAt.IsReread ∧ (∀ t ∈ s.finishedAt, t.IsReread) ∧
      read? text = some s ∧ (read? text).bind text? = some text := by
  intro s
  obtain ⟨text, htext⟩ := Sample.exists_text Sample.short
  obtain ⟨hstarted, hfinished⟩ := Sample.summary_isReread Sample.short
  obtain ⟨-, hself, hagain, hshort, -⟩ := decode_text htext hstarted hfinished
  rw [Sample.configuration_summary] at hself hagain hshort
  have hreread := hshort Sample.isShort_configuration
  exact ⟨text, htext, hstarted, hfinished, hself.mpr hreread, hagain.mpr hreread⟩

/-- A run accepts a memory fraction of 0.9007199254740993, but its report is read with another
one. -/
theorem exists_run_not_reread :
    ∃ (c : Configuration) (s : Summary) (text : String),
      Configuration.build "m" (Decimal.toBinary64 false ⟨9007199254740993, -16⟩)
        (.ofString "d.json") [] = .ok c ∧
      (Plan.run Sample.host { Stage.plan with log := .ofString "server.log" } c
        Stage.cancellingProbe Sample.start).1 = .ok s ∧
      s.startedAt.IsReread ∧ (∀ t ∈ s.finishedAt, t.IsReread) ∧
      text? s = some text ∧ read? text ≠ some s ∧ (read? text).bind text? ≠ some text := by
  obtain ⟨text, htext⟩ := Sample.exists_text Sample.long
  obtain ⟨hstarted, hfinished⟩ := Sample.summary_isReread Sample.long
  have hnot : ¬ (Sample.summary Sample.long).configuration.IsReread := by
    rw [Sample.configuration_summary]
    exact Sample.not_isReread_configuration
  refine ⟨Sample.configuration Sample.long, _, text, by decide +kernel, Sample.run_eq _, hstarted,
    hfinished, htext, ?_, ?_⟩
  · intro h
    exact hnot ((read?_eq_self_iff htext hstarted hfinished).mp h)
  · intro h
    exact hnot ((text?_of_read?_iff htext hstarted hfinished).mp h)

end Report

end EngineBench
