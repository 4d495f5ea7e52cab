import EngineBench.Proofs.RunReport
import EngineBench.Proofs.RunSummary

/-!
# Command lines without side effects

A command line that does not come to a run leaves nothing behind but texts for the user. Whether it
comes to a run is decided by its arguments and its settings, and what happens after that is no
configuration error.

* `CommandLine.Rejected` lists what makes a command line a configuration error.
* `CommandLine.kept_run`: what messages do not change is not changed by a command line without a run.
* `CommandLine.run_journaled` says that a command line goes the same way beside a journal;
  `CommandLine.run_sideEffects` says what the journal holds.
-/

namespace EngineBench

/-! ## Messages -/

/-- A deed that is a text for the user. -/
def Deed.IsMessage : Deed → Prop
  | .printed _ _ => True
  | .complained _ => True
  | _ => False

namespace Host

variable {σ : Type}

/-- Texts for the user do not change a property of the state. -/
structure KeptByMessages (h : Host σ) (P : σ → Prop) : Prop where
  print (text : String) {s : σ} : P s → P (h.print text s).2
  complain (text : String) {s : σ} : P s → P (h.complain text s)

/-- A journal of messages stays one. -/
theorem journaled_keptByMessages (h : Host σ) :
    h.journaled.KeptByMessages fun w => ∀ e ∈ w.2, e.deed.IsMessage where
  print _ _ hw := List.forall_mem_append.mpr ⟨hw, List.forall_mem_singleton.mpr trivial⟩
  complain _ _ hw := List.forall_mem_append.mpr ⟨hw, List.forall_mem_singleton.mpr trivial⟩

end Host

namespace CommandLine

variable {σ : Type} {h : Host σ} {arguments : List Bytes} {i : Invocation} {settings : Settings}
  {s : σ}

/-! ## Command lines without a run -/

/-- What makes a command line a configuration error: arguments that mean nothing, settings that
cannot be loaded, and a text that was asked for but cannot be printed. -/
inductive Rejected (h : Host σ) (arguments : List Bytes) (s : σ) : Prop
  | refused {r : Refusal} :
      Invocation.resolve arguments (textVariable h s) = .error (.refused r) → Rejected h arguments s
  | unprinted {n : Notice} {text : String} {e : OsError} :
      Invocation.resolve arguments (textVariable h s) = .error (.notice n text) →
      (h.print text s).1 = .error e → Rejected h arguments s
  | unloaded {i : Invocation} {e : Settings.LoadError} :
      Invocation.resolve arguments (textVariable h s) = .ok i →
      Settings.resolve h i.settings s = .error e → Rejected h arguments s

/-- A command line that comes to no run. -/
inductive RunsNothing (h : Host σ) (arguments : List Bytes) (s : σ) : Prop
  | rejected : Rejected h arguments s → RunsNothing h arguments s
  | notice {n : Notice} {text : String} :
      Invocation.resolve arguments (textVariable h s) = .error (.notice n text) →
      RunsNothing h arguments s
  | dryRun {i : Invocation} : Invocation.resolve arguments (textVariable h s) = .ok i →
      i.dryRun = true → RunsNothing h arguments s

theorem Rejected.journaled {j : Journal} (hr : Rejected h arguments s) :
    Rejected h.journaled arguments (s, j) := by
  cases hr with
  | refused hresolve => exact .refused hresolve
  | unprinted hresolve hprint => exact .unprinted hresolve hprint
  | unloaded hresolve hsettings => exact .unloaded hresolve hsettings

theorem RunsNothing.journaled {j : Journal} (hr : RunsNothing h arguments s) :
    RunsNothing h.journaled arguments (s, j) := by
  cases hr with
  | rejected hr => exact .rejected hr.journaled
  | notice hresolve => exact .notice hresolve
  | dryRun hresolve hdry => exact .dryRun hresolve hdry

section

variable {P : σ → Prop} (hk : h.KeptByMessages P) (hs : P s)

include hk hs

theorem kept_complain (message : String) : P (complain h message s) := hk.complain _ hs

theorem kept_printNotice (text : String) : P (printNotice h text s).2 := by
  have hprint := hk.print text hs
  unfold printNotice
  rcases hp : h.print text s with ⟨e | _, s'⟩
  · rw [hp] at hprint
    exact kept_complain hk hprint _
  · rw [hp] at hprint
    exact hprint

theorem kept_dryRun (p : Plan) (c : Configuration) : P (dryRun h p c s).2 := by
  have hengine := hk.print (planned "server" (p.engineCommand c)) hs
  unfold dryRun
  rcases hp : h.print (planned "server" (p.engineCommand c)) s with ⟨_ | _, s'⟩
  · rw [hp] at hengine
    exact hengine
  · rw [hp] at hengine
    have hclient := hk.print (planned "client" (p.clientCommand c)) hengine
    rcases hp' : h.print (planned "client" (p.clientCommand c)) s' with ⟨_ | _, s''⟩
    · rw [hp'] at hclient
      simpa only [hp'] using hclient
    · rw [hp'] at hclient
      simpa only [hp'] using hclient

theorem kept_perform (hdry : i.dryRun = true) : P (perform h i s).2 := by
  unfold perform
  cases Settings.resolve h i.settings s with
  | error e => exact hs
  | ok settings =>
    simp only [hdry, if_true]
    cases Plan.ofSettings settings (settings.environment h s) ⟨0, !true⟩ with
    | error e => exact hs
    | ok p => exact kept_dryRun hk hs p i.configuration

/-- What messages do not change is not changed by a command line without a run. -/
theorem kept_run (hr : RunsNothing h arguments s) : P (run h arguments s).2 := by
  have hnotice {n : Notice} {text : String}
      (hresolve : Invocation.resolve arguments (textVariable h s) = .error (.notice n text)) :
      P (run h arguments s).2 := by
    simp only [run, hresolve]
    exact kept_printNotice hk hs text
  cases hr with
  | rejected hr =>
    cases hr with
    | refused hresolve =>
      simp only [run, hresolve]
      exact hk.complain _ (kept_complain hk hs _)
    | unprinted hresolve _ => exact hnotice hresolve
    | unloaded hresolve hsettings =>
      simp only [run, hresolve, perform, hsettings]
      exact hs
  | notice hresolve => exact hnotice hresolve
  | dryRun hresolve hdry =>
    simp only [run, hresolve]
    exact kept_perform hk hs hdry

end

/-! ## Configuration errors -/

theorem dryRun_ne_configError (p : Plan) (c : Configuration) :
    (dryRun h p c s).1 ≠ .ok .configError := by
  unfold dryRun
  rcases h.print (planned "server" (p.engineCommand c)) s with ⟨_ | _, s'⟩
  · exact nofun
  · simp only
    rcases h.print (planned "client" (p.clientCommand c)) s' with ⟨_ | _, s''⟩ <;> exact nofun

/-- The outcome is that of the run, whatever becomes of the report. -/
theorem execute_fst (p : Plan) (c : Configuration) (report : Option Path) :
    (execute h p c report s).1 = (p.run h c (h.connect c.port) s).1.map Summary.outcome := by
  unfold execute
  rcases p.run h c (h.connect c.port) s with ⟨halt | summary, s'⟩
  · rfl
  · cases report <;> rfl

/-- The outcome of a run is no configuration error. -/
theorem execute_ne_configError (p : Plan) (c : Configuration) (report : Option Path) :
    (execute h p c report s).1 ≠ .ok .configError := by
  rw [execute_fst]
  rcases hresult : (p.run h c (h.connect c.port) s).1 with halt | summary
  · exact nofun
  · obtain ⟨hhead, hran⟩ := p.run_ran h c (h.connect c.port) s
    intro ho
    exact (hran.consistent hhead hresult).configError (Except.ok.inj ho)

/-- Settings that were loaded make a plan. -/
theorem exists_plan {named : Option Path} (hsettings : Settings.resolve h named s = .ok settings)
    (environment : Overlay) (token : Token) :
    ∃ p, Plan.ofSettings settings environment token = .ok p := by
  obtain ⟨d, hd⟩ := (Settings.usable_of_resolve hsettings).grace
  exact ⟨_, Plan.ofSettings_eq_ok_iff.mpr ⟨d, hd, rfl⟩⟩

theorem perform_ne_configError (hsettings : Settings.resolve h i.settings s = .ok settings) :
    (perform h i s).1 ≠ .ok .configError := by
  simp only [perform, hsettings]
  -- The plans of a dry run and of a run differ in their tokens; either exists.
  cases i.dryRun with
  | true =>
    obtain ⟨p, hp⟩ := exists_plan hsettings (settings.environment h s) ⟨0, false⟩
    simp only [if_true, Bool.not_true, hp]
    exact dryRun_ne_configError p _
  | false =>
    obtain ⟨p, hp⟩ := exists_plan hsettings (settings.environment h (h.watchSignals s)) ⟨0, true⟩
    simp only [Bool.false_eq_true, if_false, Bool.not_false, hp]
    exact execute_ne_configError p _ _

theorem printNotice_eq_configError_iff (text : String) :
    (printNotice h text s).1 = .configError ↔ ∃ e, (h.print text s).1 = .error e := by
  unfold printNotice
  rcases h.print text s with ⟨e | _, s'⟩ <;> simp

theorem run_configError_iff :
    (run h arguments s).1 = .ok .configError ↔ Rejected h arguments s := by
  have hnotice {n : Notice} {text : String}
      (hresolve : Invocation.resolve arguments (textVariable h s) = .error (.notice n text)) :
      (run h arguments s).1 = .ok .configError ↔ ∃ e, (h.print text s).1 = .error e := by
    rw [← printNotice_eq_configError_iff]
    simp only [run, hresolve, Except.ok.injEq]
  constructor
  · intro hrun
    rcases hresolve : Invocation.resolve arguments (textVariable h s) with (r | ⟨n, text⟩) | i
    · exact .refused hresolve
    · obtain ⟨e, hprint⟩ := (hnotice hresolve).mp hrun
      exact .unprinted hresolve hprint
    · simp only [run, hresolve] at hrun
      rcases hsettings : Settings.resolve h i.settings s with e | settings
      · exact .unloaded hresolve hsettings
      · exact absurd hrun (perform_ne_configError hsettings)
  · intro hr
    cases hr with
    | refused hresolve => simp only [run, hresolve]
    | unprinted hresolve hprint => exact (hnotice hresolve).mpr ⟨_, hprint⟩
    | unloaded hresolve hsettings => simp only [run, hresolve, perform, hsettings]

/-! ## Beside a journal -/

theorem write_journaled (path : Path) (summary : Summary) (w : σ × Journal) :
    Report.write h path summary w.1 = (Report.write h.journaled path summary w).map id Prod.fst := by
  unfold Report.write
  rw [h.journaled_sees.makeParent]
  rcases h.journaled.makeParent path w with ⟨_ | _, w'⟩
  · rfl
  · cases Report.text? summary <;> rfl

theorem execute_journaled (p : Plan) (c : Configuration) (report : Option Path) (w : σ × Journal) :
    execute h p c report w.1 = (execute h.journaled p c report w).map id Prod.fst := by
  have hrun : p.run h c (h.connect c.port) w.1 =
      (p.run h.journaled c (h.journaled.connect c.port) w).map id Prod.fst :=
    h.journaled_sees.run (fun _ => rfl) p c w
  unfold execute
  rw [hrun]
  rcases p.run h.journaled c (h.journaled.connect c.port) w with ⟨_ | summary, w'⟩
  · rfl
  · cases report with
    | none => rfl
    | some path =>
      simp only [Prod.map_apply, id_eq, write_journaled]
      rfl

theorem dryRun_journaled (p : Plan) (c : Configuration) (w : σ × Journal) :
    dryRun h p c w.1 = (dryRun h.journaled p c w).map id Prod.fst := by
  have hprint (text : String) (w : σ × Journal) :
      h.print text w.1 = (h.journaled.print text w).map id Prod.fst := rfl
  unfold dryRun
  rw [hprint]
  rcases h.journaled.print (planned "server" (p.engineCommand c)) w with ⟨_ | _, w'⟩
  · rfl
  · simp only [Prod.map_apply, id_eq, hprint]
    rcases h.journaled.print (planned "client" (p.clientCommand c)) w' with ⟨_ | _, w''⟩ <;> rfl

theorem perform_journaled (w : σ × Journal) :
    perform h i w.1 = (perform h.journaled i w).map id Prod.fst := by
  have hresolve : Settings.resolve h.journaled i.settings w = Settings.resolve h i.settings w.1 := rfl
  unfold perform
  rw [hresolve]
  cases Settings.resolve h i.settings w.1 with
  | error e => rfl
  | ok settings =>
    cases i.dryRun with
    | true =>
      have henvironment : settings.environment h.journaled w = settings.environment h w.1 := rfl
      simp only [if_true, henvironment]
      cases Plan.ofSettings settings (settings.environment h w.1) ⟨0, !true⟩ with
      | error e => rfl
      | ok p => exact dryRun_journaled p _ w
    | false =>
      have henvironment : settings.environment h.journaled (h.journaled.watchSignals w) =
        settings.environment h (h.watchSignals w.1) := rfl
      simp only [Bool.false_eq_true, if_false, henvironment]
      cases Plan.ofSettings settings (settings.environment h (h.watchSignals w.1)) ⟨0, !false⟩ with
      | error e => rfl
      | ok p => exact execute_journaled p _ _ (h.journaled.watchSignals w)

/-- The journal of a command line. -/
def journal (h : Host σ) (arguments : List Bytes) (s : σ) : Journal :=
  (run h.journaled arguments (s, [])).2.2

/-- A command line goes the same way beside a journal. -/
theorem run_journaled (h : Host σ) (arguments : List Bytes) (s : σ) :
    run h.journaled arguments (s, []) =
      ((run h arguments s).1, (run h arguments s).2, journal h arguments s) := by
  have hrun : run h arguments s = (run h.journaled arguments (s, [])).map id Prod.fst := by
    have hlookup : textVariable h.journaled (s, []) = textVariable h s := rfl
    unfold run
    rw [hlookup]
    rcases Invocation.resolve arguments (textVariable h s) with (r | ⟨n, text⟩) | i
    · rfl
    · have hprint : h.print text s = (h.journaled.print text (s, [])).map id Prod.fst := rfl
      simp only [printNotice, hprint]
      rcases h.journaled.print text (s, []) with ⟨_ | _, w'⟩ <;> rfl
    · exact perform_journaled (s, [])
  rw [hrun]
  rfl

/-- A command line is a configuration error exactly if it is rejected. Settings that were loaded
always make a plan. A configuration error, a text that was asked for and a dry run leave nothing
behind but messages. A command line that comes to a run has the outcome of the run, which is no
configuration error, and a report is written after that, with success or without. -/
theorem run_sideEffects (h : Host σ) (arguments : List Bytes) (s : σ) :
    ((run h arguments s).1 = .ok .configError ↔ Rejected h arguments s) ∧
    (∀ named settings, Settings.resolve h named s = .ok settings → ∀ environment token,
      ∃ p, Plan.ofSettings settings environment token = .ok p) ∧
    ((run h arguments s).1 = .ok .configError ∨
        (∃ n text, Invocation.resolve arguments (textVariable h s) = .error (.notice n text)) ∨
        (∃ i, Invocation.resolve arguments (textVariable h s) = .ok i ∧ i.dryRun = true) →
      (∀ e ∈ journal h arguments s, e.deed.IsMessage) ∧
      ∀ P, h.KeptByMessages P → P s → P (run h arguments s).2) ∧
    ∀ i settings, Invocation.resolve arguments (textVariable h s) = .ok i → i.dryRun = false →
      Settings.resolve h i.settings s = .ok settings →
      ∃ p, Plan.ofSettings settings (settings.environment h (h.watchSignals s)) ⟨0, true⟩ = .ok p ∧
        let result := p.run h i.configuration (h.connect i.configuration.port) (h.watchSignals s)
        (run h arguments s).1 = result.1.map Summary.outcome ∧
        (run h arguments s).1 ≠ .ok .configError ∧
        ∀ path summary s', settings.report = some path → result = (.ok summary, s') →
          run h arguments s = (.ok summary.outcome, (Report.write h path summary s').2) := by
  refine ⟨run_configError_iff, fun named settings hsettings => exists_plan hsettings, ?_, ?_⟩
  · intro hcase
    have hnothing : RunsNothing h arguments s := by
      obtain herror | ⟨n, text, hresolve⟩ | ⟨i, hresolve, hdry⟩ := hcase
      · exact .rejected (run_configError_iff.mp herror)
      · exact .notice hresolve
      · exact .dryRun hresolve hdry
    exact ⟨kept_run h.journaled_keptByMessages nofun hnothing.journaled,
      fun P hk hs => kept_run hk hs hnothing⟩
  · intro i settings hresolve hdry hsettings
    obtain ⟨p, hplan, hrun⟩ := run_of_resolve hresolve hdry hsettings
    refine ⟨p, hplan, ?_, ?_, fun path summary s' hreport hresult => ?_⟩
    · rw [hrun, execute_fst]
    · rw [hrun]
      exact execute_ne_configError p _ _
    · rw [hrun, hreport, execute]
      simp only [hresult]

/-- A command line without arguments is rejected and leaves the report of an earlier run alone. A
signal before the start is no configuration error. -/
theorem run_sideEffects_sample :
    let h := Sample.host
    (run h [] Sample.start).1 = .ok .configError ∧
      (∀ e ∈ journal h [] Sample.start, e.deed.IsMessage) ∧
      (run h [] Sample.start).2.2 = Text.encode "earlier" ∧
      (∃ p, Plan.ofSettings Sample.settings .empty ⟨0, true⟩ = .ok p) ∧
      (run h Sample.arguments Sample.start).1 ≠ .ok .configError := by
  intro h
  obtain ⟨hiff, hplan, hmessages, -⟩ := run_sideEffects h [] Sample.start
  obtain ⟨-, -, -, hrun⟩ := run_sideEffects h Sample.arguments Sample.start
  have herror : (run h [] Sample.start).1 = .ok .configError :=
    hiff.mpr (.refused (Invocation.resolve_nil _))
  obtain ⟨hjournal, hkept⟩ := hmessages (.inl herror)
  have hreport : h.KeptByMessages fun s => s.2 = Text.encode "earlier" :=
    ⟨fun _ _ hs => hs, fun _ _ hs => hs⟩
  obtain ⟨p, -, -, hne, -⟩ := hrun _ _ Sample.resolve_eq rfl Sample.settings_eq
  exact ⟨herror, hjournal, hkept _ hreport rfl, hplan none _ Sample.settings_eq _ _, hne⟩

end CommandLine

end EngineBench
