import EngineBench.Plan
import EngineBench.Proofs.JsonRecords
import EngineBench.Proofs.NearestMagnitude
import EngineBench.Settings.Load

/-!
# Settings that were loaded

What holds of settings once they were loaded, or found to be the standard ones: their grace is a
duration, and the path of the log is UTF-8, since it was read from a text.

* `Settings.load_eq_ok_iff` is the loading as one condition.
* `Settings.Usable` is what every run relies on; `Settings.usable_of_resolve` says that it may.
* `Duration.lt_of_parse`: a duration text stays below `2 ^ 64` seconds.
-/

namespace EngineBench

/-! ## Durations -/

namespace Duration

/-- A number of seconds that is a duration has fewer than `2 ^ 64` of them. -/
theorem lt_of_ofBinary64? {x : Binary64} {d : Duration} (h : ofBinary64? x = some d) :
    d.nanoseconds < UInt64.size * perSecond := by
  cases x with
  | finite negative m =>
    simp only [ofBinary64?, Option.ite_none_right_eq_some, Option.some.injEq] at h
    obtain ⟨hlt, rfl⟩ := h
    have hsize : UInt64.size * unitsPerOne = 2 ^ 53 * 2 ^ 1085 := by decide +kernel
    rw [hsize] at hlt
    have hgap := Magnitude.units_add_le (by decide) hlt
    -- The gap is more than the half nanosecond that rounding may add.
    have hdiv : m.units * perSecond / unitsPerOne ≤ (2 ^ 64 - 2 ^ 11) * perSecond := by
      have hunits : m.units ≤ unitsPerOne * (2 ^ 64 - 2 ^ 11) := by
        have hproduct : unitsPerOne * (2 ^ 64 - 2 ^ 11) + 2 ^ 1085 = 2 ^ 53 * 2 ^ 1085 := by
          decide +kernel
        omega
      refine Nat.div_le_of_le_mul ?_
      rw [← Nat.mul_assoc]
      exact Nat.mul_le_mul_right perSecond hunits
    have hround := divNearest_le (m.units * perSecond) unitsPerOne
    have hbound : (2 ^ 64 - 2 ^ 11) * perSecond + 1 < UInt64.size * perSecond := by decide
    exact Nat.lt_of_le_of_lt (Nat.le_trans hround (Nat.succ_le_succ hdiv)) hbound
  | infinite _ => cases h
  | nan => cases h

theorem lt_of_parse {s : String} {d : Duration} (h : parse s = .ok d) :
    d.nanoseconds < UInt64.size * perSecond := by
  unfold parse at h
  dsimp only at h
  repeat' split at h
  all_goals cases h
  next hd => exact lt_of_ofBinary64? hd

end Duration

/-! ## Fields that are texts -/

theorem Slot.defaulted_eq_some {V α : Type} {read? : V → Option α} {default x : α} {slot : Slot V}
    (h : slot.defaulted read? default = some x) :
    x = default ∨ ∃ v, slot = .given v ∧ read? v = some x := by
  cases slot with
  | given v => exact .inr ⟨v, rfl, h⟩
  | absent =>
    cases h
    exact .inl rfl
  | cut =>
    cases h
    exact .inl rfl

theorem EngineSettings.text?_log_of_read? {V : Type} {f : DataFormat V} {v : V}
    {s : EngineSettings} (h : read? f v = some s) : s.log.text?.isSome := by
  obtain ⟨slots, -, h⟩ := Option.bind_eq_some_iff.mp h
  split at h
  next =>
    obtain ⟨_, -, h⟩ := Option.bind_eq_some_iff.mp h
    obtain ⟨_, -, h⟩ := Option.bind_eq_some_iff.mp h
    obtain ⟨log, hlog, h⟩ := Option.bind_eq_some_iff.mp h
    obtain ⟨_, -, h⟩ := Option.bind_eq_some_iff.mp h
    cases h
    rcases Slot.defaulted_eq_some hlog with rfl | ⟨w, -, hw⟩
    · exact Option.isSome_iff_exists.mpr ⟨_, Path.text?_ofString _⟩
    · exact DataFormat.text?_isSome_of_path? hw
  next => cases h

namespace Settings

theorem text?_log_of_read? {V : Type} {f : DataFormat V} {v : V} {s : Settings}
    (h : read? f v = some s) : s.engine.log.text?.isSome := by
  obtain ⟨slots, -, h⟩ := Option.bind_eq_some_iff.mp h
  split at h
  next =>
    obtain ⟨engine, hengine, h⟩ := Option.bind_eq_some_iff.mp h
    iterate 4 obtain ⟨_, -, h⟩ := Option.bind_eq_some_iff.mp h
    cases h
    rcases Slot.defaulted_eq_some hengine with rfl | ⟨w, -, hw⟩
    · exact Option.isSome_iff_exists.mpr ⟨_, Path.text?_ofString _⟩
    · exact EngineSettings.text?_log_of_read? hw
  next => cases h

/-! ## Loading -/

variable {σ : Type} {h : Host σ} {s : σ} {settings : Settings}

theorem load_eq_ok_iff {p : Path} :
    load h p s = .ok settings ↔ ∃ content text, h.readFile p s = .ok content ∧
      Text.decode? content = some text ∧ ofText? text = some settings ∧
        settings.violation? = none := by
  unfold load
  constructor
  · intro hload
    split at hload
    · cases hload
    next content hread =>
      split at hload
      · cases hload
      next text htext =>
        split at hload
        · cases hload
        next settings' hsettings =>
          split at hload
          · cases hload
          next hnone =>
            cases hload
            exact ⟨content, text, hread, htext, hsettings, hnone⟩
  · rintro ⟨content, text, hread, htext, hsettings, hnone⟩
    simp only [hread, htext, hsettings, hnone]

/-- What a run relies on: there is a time of grace, and the path of the log can be shown. -/
structure Usable (s : Settings) : Prop where
  grace : ∃ d, s.grace = .ok d
  log : s.engine.log.text?.isSome

theorem exists_grace_of_violation? (h : settings.violation? = none) :
    ∃ d, settings.grace = .ok d := by
  unfold violation? at h
  cases hgrace : settings.grace with
  | error e =>
    rw [hgrace] at h
    cases h
  | ok d => exact ⟨d, rfl⟩

theorem usable_of_load {p : Path} (hload : load h p s = .ok settings) : settings.Usable := by
  obtain ⟨_, text, -, -, hsettings, hnone⟩ := load_eq_ok_iff.mp hload
  obtain ⟨t, -, hread⟩ := Option.bind_eq_some_iff.mp hsettings
  exact ⟨exists_grace_of_violation? hnone, text?_log_of_read? hread⟩

theorem usable_standard : standard.Usable where
  grace := exists_grace_of_violation? (by decide +kernel)
  log := Option.isSome_iff_exists.mpr ⟨_, Path.text?_ofString _⟩

/-- The settings of a run are usable, wherever they come from. -/
theorem usable_of_resolve {named : Option Path} (hresolve : resolve h named s = .ok settings) :
    settings.Usable := by
  unfold resolve at hresolve
  split at hresolve
  · exact usable_of_load hresolve
  · split at hresolve
    · exact usable_of_load hresolve
    · cases hresolve
      exact usable_standard

end Settings

/-- There is a plan exactly if there is a time of grace. -/
theorem Plan.ofSettings_eq_ok_iff {s : Settings} {environment : Overlay} {token : Token}
    {p : Plan} : ofSettings s environment token = .ok p ↔ ∃ d, s.grace = .ok d ∧
      p = ⟨s.engine.toProgram, s.engine.log, s.client.toProgram, s.client.results, environment,
        .standard, d, s.metadata, token⟩ := by
  unfold ofSettings
  cases s.grace with
  | error e => exact ⟨nofun, nofun⟩
  | ok d =>
    constructor
    · rintro ⟨⟩
      exact ⟨d, rfl, rfl⟩
    · rintro ⟨d', hd, rfl⟩
      cases hd
      rfl

end EngineBench
