import EngineBench.Proofs.Teardown

/-!
# The life of a guard

A guard is used again and again until it is dropped: the engine is looked at, cleaned up after, and
may exit at any moment. `Guard.history` is such a life, on any host; `Guard.Disciplined` says what
can be relied on in it.

* `Guard.Used` lists what one use can do, `Guard.Lived` strings uses together.
* `Guard.history_disciplined` says that every life is disciplined. What one use keeps is shown by
  its cases, what a life keeps by induction over its uses.
-/

namespace EngineBench

namespace Guard

/-- What can be done with a guard. -/
inductive Use where
  | isRunning
  | cleanup
  | drop
  deriving DecidableEq, Repr

variable {σ : Type}

/-- Uses a guard; the result is that of a cleanup. -/
def use (h : Host σ) (u : Use) (g : Guard) (s : σ) : Option CleanupResult × Guard × σ :=
  match u with
  | .isRunning => (none, (g.isRunning h s).2)
  | .cleanup => (g.cleanup h s).map some id
  | .drop => (none, g.drop h s)

/-- One use of a guard, with all that can be seen of it. -/
structure Episode where
  use : Use
  before : Guard
  /-- What a cleanup said. -/
  result : Option CleanupResult
  after : Guard
  journal : Journal

/-- Uses a guard again and again. Results and guards are those of the host itself; the journals are
kept beside it. -/
def history (h : Host σ) : List Use → Guard → σ → List Episode
  | [], _, _ => []
  | u :: us, g, s =>
    let (r, g', s') := g.use h u s
    ⟨u, g, r, g', (g.use h.journaled u (s, [])).2.2.2⟩ :: history h us g' s'

/-- The journal of a whole life. -/
def lifeJournal (l : List Episode) : Journal := l.flatMap Episode.journal

/-- The signals that may be sent at most, in this order. -/
def escalation (g : Guard) : List (Target × Signal) :=
  match g.engine with
  | none => []
  | some e => [(.group e.pid, .terminate), (.group e.pid, .kill)]

/-- What can be relied on in the life of a guard. -/
structure Disciplined (g : Guard) (l : List Episode) : Prop where
  /-- At most one request to end and one kill are sent, in this order, and nothing else. -/
  signals : (lifeJournal l).signals <+: g.escalation
  /-- Signals are sent in the first cleanup only, which may be that of the drop. -/
  first (l₁ : List Episode) (ep : Episode) (l₂ : List Episode) : l = l₁ ++ ep :: l₂ →
    ep.journal.signals ≠ [] → ep.use ≠ .isRunning ∧ ∀ ep' ∈ l₁, ep'.use = .isRunning
  /-- Before a kill the process was asked to end, and its exit was not seen in the whole time of
  grace. -/
  kill (ep : Episode) (p : ProcessId) : ep ∈ l → (.group p, .kill) ∈ ep.journal.signals →
    ∃ j₁ term w kill j₂, ep.journal = j₁ ++ term :: (w ++ kill :: j₂) ∧
      term.deed.signal? = some (.group p, .terminate) ∧ Waited p g.grace w (some none) ∧
      kill.deed.signal? = some (.group p, .kill)
  /-- Nobody is sent a signal once the exit of the process was seen. -/
  silent (e : Engine) : g.engine = some e →
    (lifeJournal l).SilentAfter e.pid ∧ (e.state = .exited → (lifeJournal l).signals = [])
  /-- The guard keeps its process. -/
  process (ep : Episode) : ep ∈ l → ep.after.engine.map Engine.pid = g.engine.map Engine.pid
  /-- It is known how the process ended exactly if it is known to have exited. -/
  coherent (ep : Episode) : ep ∈ l → ∀ e ∈ ep.after.engine, e.Coherent
  /-- What is known of a process that has exited never changes. -/
  final : (g :: l.map Episode.after).Pairwise fun a b =>
    ∀ e, a.engine = some e → e.state = .exited → b.engine = some e
  /-- A cleanup succeeds exactly if there is no process or it is known to have exited. -/
  success (ep : Episode) (r : CleanupResult) : ep ∈ l → ep.result = some r →
    ((∃ a, r = .ok (.ok a)) ↔ ep.after.IsClear)
  /-- After a cleanup that succeeded every other finds nothing left to stop. -/
  settled : l.Pairwise fun a b => ∀ action, a.result = some (.ok (.ok action)) →
    ∀ r, b.result = some r → r = .ok (.ok g.clearAction)
  /-- A cleanup has a result unless the clock cannot show the end of one of its waits. -/
  result (ep : Episode) (halt : Halt) : ep ∈ l → ep.result = some (.error halt) →
    ∃ a ∈ ep.journal, a.TooLate g.grace ∨ a.TooLate killWait

/-! ## One use -/

/-- One use of a guard: the journal, the result and the guard then. -/
inductive Used (g : Guard) : Use → Journal → Option CleanupResult → Guard → Prop
  | isRunning {j : Journal} {g' : Guard} : g.Looked j g' → Used g .isRunning j none g'
  | cleanup {j : Journal} {r : CleanupResult} {g' : Guard} : g.Cleaned j r g' →
      Used g .cleanup j (some r) g'
  /-- A drop before any cleanup. -/
  | drop {j : Journal} {r : CleanupResult} {g' : Guard} : g.attempted = false →
      g.Cleaned j r g' → Used g .drop j none g'
  /-- A drop after a cleanup. -/
  | dropAgain : g.attempted = true → Used g .drop [] none g

namespace Used

variable {g g' : Guard} {u : Use} {j : Journal} {r : Option CleanupResult}

theorem grace_eq (hu : g.Used u j r g') : g'.grace = g.grace := by
  cases hu with
  | isRunning hl => exact hl.grace_eq
  | cleanup hc => exact hc.grace_eq
  | drop _ hc => exact hc.grace_eq
  | dropAgain _ => rfl

theorem pid_eq (hu : g.Used u j r g') : g'.engine.map Engine.pid = g.engine.map Engine.pid := by
  cases hu with
  | isRunning hl => exact hl.pid_eq
  | cleanup hc => exact hc.pid_eq
  | drop _ hc => exact hc.pid_eq
  | dropAgain _ => rfl

theorem coherent (hu : g.Used u j r g') (hco : ∀ e ∈ g.engine, e.Coherent) :
    ∀ e ∈ g'.engine, e.Coherent := by
  cases hu with
  | isRunning hl => exact hl.coherent hco
  | cleanup hc => exact hc.coherent hco
  | drop _ hc => exact hc.coherent hco
  | dropAgain _ => exact hco

/-- After a use that is no look there was a cleanup, if there is an engine. -/
theorem attempted (hu : g.Used u j r g') (hg : g.engine ≠ none) (hn : u ≠ .isRunning) :
    g'.attempted = true := by
  cases hu with
  | isRunning _ => exact absurd rfl hn
  | cleanup hc => exact hc.attempted hg
  | drop _ hc => exact hc.attempted hg
  | dropAgain hatt => exact hatt

/-- After a cleanup no use sends a signal, and it stays so. -/
theorem of_attempted (hu : g.Used u j r g') (hg : g.engine ≠ none) (hatt : g.attempted = true) :
    j.signals = [] ∧ g'.attempted = true := by
  cases hu with
  | isRunning hl => exact ⟨hl.quiet, hl.attempted_eq.trans hatt⟩
  | cleanup hc => exact ⟨hc.quiet_of_attempted hatt, hc.attempted hg⟩
  | drop h _ => rw [hatt] at h; cases h
  | dropAgain _ => exact ⟨rfl, hatt⟩

theorem quiet_of_isRunning (hu : g.Used u j r g') (hn : u = .isRunning) : j.signals = [] := by
  subst hn
  cases hu with
  | isRunning hl => exact hl.quiet

/-- With nothing left to stop, no use touches anything. -/
theorem of_isClear (hu : g.Used u j r g') (hg : g.IsClear) :
    j = [] ∧ (∀ x, r = some x → x = .ok (.ok g.clearAction)) ∧ g'.engine = g.engine := by
  cases hu with
  | isRunning hl =>
    obtain ⟨rfl, rfl⟩ := hl.of_isClear hg
    exact ⟨rfl, nofun, rfl⟩
  | cleanup hc =>
    obtain ⟨rfl, rfl, hg'⟩ := hc.of_isClear hg
    refine ⟨rfl, ?_, hg'⟩
    rintro _ ⟨⟩
    rfl
  | drop _ hc =>
    obtain ⟨rfl, -, hg'⟩ := hc.of_isClear hg
    exact ⟨rfl, nofun, hg'⟩
  | dropAgain _ => exact ⟨rfl, nofun, rfl⟩

theorem signals_prefix (hu : g.Used u j r g') : j.signals <+: g.escalation := by
  have hcleaned {j : Journal} {r : CleanupResult} {g' : Guard} (hc : g.Cleaned j r g') :
      j.signals <+: g.escalation := by
    unfold escalation
    cases hg : g.engine with
    | none =>
      have hquiet := hc.quiet_of_empty hg
      simp [hquiet]
    | some e => exact hc.signals_prefix hg
  cases hu with
  | isRunning hl => rw [hl.quiet]; exact List.nil_prefix
  | cleanup hc => exact hcleaned hc
  | drop _ hc => exact hcleaned hc
  | dropAgain _ => exact List.nil_prefix

theorem of_kill (hu : g.Used u j r g') {p : ProcessId} (hkill : (.group p, .kill) ∈ j.signals) :
    ∃ j₁ term w kill j₂, j = j₁ ++ term :: (w ++ kill :: j₂) ∧
      term.deed.signal? = some (.group p, .terminate) ∧ Waited p g.grace w (some none) ∧
      kill.deed.signal? = some (.group p, .kill) := by
  have hcleaned {j : Journal} {r : CleanupResult} {g' : Guard} (hc : g.Cleaned j r g')
      (hkill : (.group p, .kill) ∈ j.signals) :
      ∃ j₁ term w kill j₂, j = j₁ ++ term :: (w ++ kill :: j₂) ∧
        term.deed.signal? = some (.group p, .terminate) ∧ Waited p g.grace w (some none) ∧
        kill.deed.signal? = some (.group p, .kill) := by
    cases hg : g.engine with
    | none => rw [hc.quiet_of_empty hg] at hkill; cases hkill
    | some e =>
      obtain rfl : p = e.pid := by
        have hmem := (hc.signals_prefix hg).subset hkill
        simp only [List.mem_cons, Prod.mk.injEq, Target.group.injEq, List.not_mem_nil, or_false]
          at hmem
        rcases hmem with ⟨hp, -⟩ | ⟨hp, -⟩ <;> exact hp
      obtain ⟨a, term, w, j', e', rfl, -, hterm, hw, hk, -⟩ := hc.of_kill hg hkill
      obtain ⟨kill, j₂, rfl, hsent⟩ := hk.eq_cons
      exact ⟨[a], term, w, kill, j₂, rfl, hterm, hw, hsent⟩
  cases hu with
  | isRunning hl => rw [hl.quiet] at hkill; cases hkill
  | cleanup hc => exact hcleaned hc hkill
  | drop _ hc => exact hcleaned hc hkill
  | dropAgain _ => cases hkill

theorem silentAfter (hu : g.Used u j r g') (p : ProcessId) : j.SilentAfter p := by
  cases hu with
  | isRunning hl => exact .of_quiet hl.quiet
  | cleanup hc => exact hc.silentAfter p
  | drop _ hc => exact hc.silentAfter p
  | dropAgain _ => exact .of_quiet rfl

theorem isClear_of_reaped (hu : g.Used u j r g') {e : Engine} (hg : g.engine = some e)
    {a : Entry} (ha : a ∈ j) (hr : a.deed.reaped? = some e.pid) : g'.IsClear := by
  cases hu with
  | isRunning hl => exact hl.isClear_of_reaped hg ha hr
  | cleanup hc => exact hc.isClear_of_reaped hg ha hr
  | drop _ hc => exact hc.isClear_of_reaped hg ha hr
  | dropAgain _ => cases ha

theorem ok_iff (hu : g.Used u j r g') {x : CleanupResult} (hr : r = some x) :
    (∃ a, x = .ok (.ok a)) ↔ g'.IsClear := by
  cases hu with
  | isRunning _ => cases hr
  | cleanup hc => cases hr; exact hc.ok_iff
  | drop _ _ => cases hr
  | dropAgain _ => cases hr

theorem tooLate (hu : g.Used u j r g') {halt : Halt} (hr : r = some (.error halt)) :
    ∃ a ∈ j, a.TooLate g.grace ∨ a.TooLate killWait := by
  cases hu with
  | isRunning _ => cases hr
  | cleanup hc => cases hr; exact hc.tooLate rfl
  | drop _ _ => cases hr
  | dropAgain _ => cases hr

end Used

/-! ## Lives -/

/-- Uses of a guard, one after the other. -/
inductive Lived : Guard → List Episode → Prop
  | nil {g : Guard} : Lived g []
  | cons {g g' : Guard} {u : Use} {j : Journal} {r : Option CleanupResult} {l : List Episode} :
      g.Used u j r g' → Lived g' l → Lived g (⟨u, g, r, g', j⟩ :: l)

theorem lifeJournal_cons (ep : Episode) (l : List Episode) :
    lifeJournal (ep :: l) = ep.journal ++ lifeJournal l := List.flatMap_cons

theorem escalation_congr {g g' : Guard}
    (hp : g'.engine.map Engine.pid = g.engine.map Engine.pid) : g'.escalation = g.escalation := by
  unfold escalation
  rcases hg : g.engine with _ | e <;> rcases hg' : g'.engine with _ | e' <;>
    simp_all

theorem clearAction_congr {g g' : Guard}
    (hp : g'.engine.map Engine.pid = g.engine.map Engine.pid) :
    g'.clearAction = g.clearAction := by
  have hsome := congrArg Option.isSome hp
  simp only [Option.isSome_map] at hsome
  simp only [clearAction, hsome]

theorem ne_none_congr {g g' : Guard}
    (hp : g'.engine.map Engine.pid = g.engine.map Engine.pid) (hg : g.engine ≠ none) :
    g'.engine ≠ none := by
  intro hg'
  rw [hg'] at hp
  exact hg (Option.map_eq_none_iff.mp hp.symm)

namespace Lived

variable {g : Guard} {l : List Episode}

theorem used (hl : Lived g l) :
    ∀ ep ∈ l, ep.before.Used ep.use ep.journal ep.result ep.after ∧
      ep.before.grace = g.grace := by
  induction hl with
  | nil => exact fun _ hep => (List.not_mem_nil hep).elim
  | cons hu _ ih =>
    intro ep hep
    rcases List.mem_cons.mp hep with rfl | hep
    · exact ⟨hu, rfl⟩
    · exact ⟨(ih ep hep).1, (ih ep hep).2.trans hu.grace_eq⟩

theorem process (hl : Lived g l) :
    ∀ ep ∈ l, ep.after.engine.map Engine.pid = g.engine.map Engine.pid := by
  induction hl with
  | nil => exact fun _ hep => (List.not_mem_nil hep).elim
  | cons hu _ ih =>
    intro ep hep
    rcases List.mem_cons.mp hep with rfl | hep
    · exact hu.pid_eq
    · exact (ih ep hep).trans hu.pid_eq

theorem coherent (hl : Lived g l) (hco : ∀ e ∈ g.engine, e.Coherent) :
    ∀ ep ∈ l, ∀ e ∈ ep.after.engine, e.Coherent := by
  induction hl with
  | nil => exact fun _ hep => (List.not_mem_nil hep).elim
  | cons hu _ ih =>
    intro ep hep
    rcases List.mem_cons.mp hep with rfl | hep
    · exact hu.coherent hco
    · exact ih (hu.coherent hco) ep hep

theorem quiet_of_attempted (hl : Lived g l) (hg : g.engine ≠ none) (hatt : g.attempted = true) :
    (lifeJournal l).signals = [] := by
  induction hl with
  | nil => rfl
  | cons hu _ ih =>
    obtain ⟨hquiet, hatt'⟩ := hu.of_attempted hg hatt
    rw [lifeJournal_cons, Journal.signals_append, hquiet,
      ih (ne_none_congr hu.pid_eq hg) hatt']
    rfl

/-- Once there is nothing left to stop, it stays so, and every cleanup says so. -/
theorem of_isClear (hl : Lived g l) (hg : g.IsClear) :
    (lifeJournal l).signals = [] ∧ ∀ ep ∈ l, ep.after.engine = g.engine ∧
      ∀ r, ep.result = some r → r = .ok (.ok g.clearAction) := by
  induction hl with
  | nil => exact ⟨rfl, fun _ hep => (List.not_mem_nil hep).elim⟩
  | @cons g g' u j r l hu hrest ih =>
    obtain ⟨hj, hr, hengine⟩ := hu.of_isClear hg
    have hg' : g'.IsClear := by
      intro e he
      exact hg e (hengine ▸ he)
    obtain ⟨hquiet, hall⟩ := ih hg'
    refine ⟨?_, ?_⟩
    · rw [lifeJournal_cons, Journal.signals_append, hquiet, hj]
      rfl
    · intro ep hep
      rcases List.mem_cons.mp hep with rfl | hep
      · exact ⟨hengine, hr⟩
      · rw [← hengine, ← clearAction_congr hu.pid_eq]
        exact hall ep hep

theorem signals_prefix (hl : Lived g l) : (lifeJournal l).signals <+: g.escalation := by
  induction hl with
  | nil => exact List.nil_prefix
  | @cons g g' u j r l hu hrest ih =>
    rw [lifeJournal_cons, Journal.signals_append]
    by_cases hg : g.engine = none
    · have hclear : g.IsClear := by simp [IsClear, hg]
      have hclear' : g'.IsClear := by
        intro e he
        exact hclear e ((hu.of_isClear hclear).2.2 ▸ he)
      rw [(hu.of_isClear hclear).1, (hrest.of_isClear hclear').1]
      exact List.nil_prefix
    -- A look sends nothing itself; after any other use the rest sends nothing.
    by_cases hn : u = .isRunning
    · rw [hu.quiet_of_isRunning hn, List.nil_append, ← escalation_congr hu.pid_eq]
      exact ih
    · rw [hrest.quiet_of_attempted (ne_none_congr hu.pid_eq hg) (hu.attempted hg hn),
        List.append_nil]
      exact hu.signals_prefix

/-- Whatever sends a signal is no look, and before it there were looks only. -/
theorem first (hl : Lived g l) {l₁ l₂ : List Episode} {ep : Episode} (hsplit : l = l₁ ++ ep :: l₂)
    (hsig : ep.journal.signals ≠ []) :
    ep.use ≠ .isRunning ∧ ∀ ep' ∈ l₁, ep'.use = .isRunning := by
  induction hl generalizing l₁ with
  | nil => cases l₁ <;> cases hsplit
  | @cons g g' u j r l hu hrest ih =>
    cases l₁ with
    | nil =>
      cases hsplit
      exact ⟨fun hn => hsig (hu.quiet_of_isRunning hn), fun _ h => (List.not_mem_nil h).elim⟩
    | cons ep₁ l₁ =>
      obtain ⟨rfl, rfl⟩ : _ ∧ l = l₁ ++ ep :: l₂ := List.cons.inj hsplit
      obtain ⟨hep, hall⟩ := ih rfl
      refine ⟨hep, List.forall_mem_cons.mpr ⟨?_, hall⟩⟩
      -- After anything but a look the rest would be quiet.
      have hloud : (lifeJournal (l₁ ++ ep :: l₂)).signals ≠ [] := by
        intro hquiet
        rw [lifeJournal, List.flatMap_append, Journal.signals_append, List.flatMap_cons,
          Journal.signals_append] at hquiet
        simp only [List.append_eq_nil_iff] at hquiet
        exact hsig hquiet.2.1
      by_cases hn : u = .isRunning
      · exact hn
      exfalso
      by_cases hg : g.engine = none
      · have hclear : g'.IsClear := by
          intro e he
          rw [(hu.of_isClear (by simp [IsClear, hg])).2.2, hg] at he
          cases he
        exact hloud (hrest.of_isClear hclear).1
      · exact hloud (hrest.quiet_of_attempted (ne_none_congr hu.pid_eq hg) (hu.attempted hg hn))

theorem silentAfter (hl : Lived g l) {e : Engine} (hg : g.engine = some e) :
    (lifeJournal l).SilentAfter e.pid := by
  induction hl generalizing e with
  | nil => exact .of_quiet rfl
  | @cons g g' u j r l hu hrest ih =>
    rw [lifeJournal_cons]
    -- Either this use sees the exit, and then the rest is quiet, or all is left to the rest.
    by_cases hseen : ∃ a ∈ j, a.deed.reaped? = some e.pid
    · obtain ⟨a, ha, hr⟩ := hseen
      have hclear : g'.IsClear := hu.isClear_of_reaped hg ha hr
      exact (hu.silentAfter e.pid).append_quiet (hrest.of_isClear hclear).1
    · obtain ⟨e', hg', hpid⟩ : ∃ e', g'.engine = some e' ∧ e'.pid = e.pid := by
        have hp := hu.pid_eq
        rw [hg] at hp
        exact Option.map_eq_some_iff.mp hp
      rw [← hpid] at hseen ⊢
      exact .unreaped_append (fun a ha hr => hseen ⟨a, ha, hr⟩) (ih hg')

theorem final (hl : Lived g l) : (g :: l.map Episode.after).Pairwise fun a b =>
    ∀ e, a.engine = some e → e.state = .exited → b.engine = some e := by
  induction hl with
  | nil => exact List.pairwise_singleton _ _
  | @cons g g' u j r l hu hrest ih =>
    refine List.pairwise_cons.mpr ⟨?_, ih⟩
    intro b hb e he hexited
    -- An engine that has exited makes the guard clear, and clear guards keep their engine.
    have hclear : g.IsClear := by
      intro e' he'
      rw [he] at he'
      cases he'
      exact hexited
    obtain ⟨ep, hep, rfl⟩ := List.mem_map.mp hb
    exact (((Lived.cons hu hrest).of_isClear hclear).2 ep hep).1.trans he

theorem settled (hl : Lived g l) : l.Pairwise fun a b =>
    ∀ action, a.result = some (.ok (.ok action)) →
      ∀ r, b.result = some r → r = .ok (.ok g.clearAction) := by
  induction hl with
  | nil => exact .nil
  | @cons g g' u j r l hu hrest ih =>
    rw [← clearAction_congr hu.pid_eq]
    refine List.pairwise_cons.mpr ⟨?_, ih⟩
    intro b hb action hok
    have hclear : g'.IsClear := (hu.ok_iff hok).mp ⟨action, rfl⟩
    exact ((hrest.of_isClear hclear).2 b hb).2

end Lived

end Guard

namespace Host.Keeps

/-- Every use of a guard is one of those that `Guard.Used` lists. -/
theorem use {σ : Type} {h : Host σ} {journal : σ → Journal} (hk : h.Keeps journal)
    (u : Guard.Use) (g : Guard) (s : σ) :
    ∃ j, journal (g.use h u s).2.2 = journal s ++ j ∧
      g.Used u j (g.use h u s).1 (g.use h u s).2.1 := by
  cases u with
  | isRunning =>
    obtain ⟨j, hadd, hl⟩ := hk.isRunning g s
    exact ⟨j, hadd, .isRunning hl⟩
  | cleanup =>
    obtain ⟨j, hadd, hc⟩ := hk.cleanup g s
    exact ⟨j, hadd, .cleanup hc⟩
  | drop =>
    obtain ⟨j, hadd, ⟨hatt, rfl, hg⟩ | ⟨hatt, r, hc⟩⟩ := hk.drop g s
    · refine ⟨[], hadd, ?_⟩
      show g.Used .drop [] none (g.drop h s).1
      rw [hg]
      exact .dropAgain hatt
    · exact ⟨j, hadd, .drop hatt hc⟩

end Host.Keeps

namespace Guard

variable {σ : Type}

theorem use_journaled (h : Host σ) (u : Use) (g : Guard) (s : σ) :
    g.use h u s = (g.use h.journaled u (s, [])).map id (Prod.map id Prod.fst) := by
  have hs := h.journaled_sees
  cases u with
  | isRunning => exact congrArg (fun r => (none, r.2)) (hs.isRunning g (s, []))
  | cleanup => exact congrArg (Prod.map some id) (hs.cleanup g (s, []))
  | drop => exact congrArg (Prod.mk none) (hs.drop g (s, []))

/-- A history is a sequence of uses as `Used` lists them. -/
theorem history_lived (h : Host σ) (us : List Use) (g : Guard) (s : σ) :
    Lived g (g.history h us s) := by
  induction us generalizing g s with
  | nil => exact .nil
  | cons u us ih =>
    obtain ⟨j, hadd, hu⟩ := h.journaled_keeps.use u g (s, [])
    have hsees := g.use_journaled h u s
    obtain rfl : (g.use h.journaled u (s, [])).2.2.2 = j := hadd
    refine .cons ?_ (ih _ _)
    show g.Used u _ (g.use h u s).1 (g.use h u s).2.1
    rw [hsees]
    exact hu

/-- Every life of a guard is disciplined, whatever is done with the guard and whenever the process
exits. -/
theorem history_disciplined (h : Host σ) (g : Guard) (hco : ∀ e ∈ g.engine, e.Coherent)
    (us : List Use) (s : σ) : g.Disciplined (g.history h us s) := by
  have hl := history_lived h us g s
  refine ⟨hl.signals_prefix, ?_, ?_, ?_, hl.process, hl.coherent hco, hl.final, ?_, hl.settled, ?_⟩
  · intro l₁ ep l₂ hsplit hsig
    exact hl.first hsplit hsig
  · intro ep p hep hkill
    obtain ⟨hu, hgrace⟩ := hl.used ep hep
    rw [← hgrace]
    exact hu.of_kill hkill
  · intro e he
    refine ⟨hl.silentAfter he, fun hexited => ?_⟩
    exact (hl.of_isClear (by rintro _ hm; cases he.symm.trans hm; exact hexited)).1
  · intro ep r hep hr
    exact (hl.used ep hep).1.ok_iff hr
  · intro ep halt hep hr
    obtain ⟨hu, hgrace⟩ := hl.used ep hep
    rw [← hgrace]
    exact hu.tooLate hr

/-- The engine of a stage, looked at, cleaned up after twice, and dropped. -/
theorem history_disciplined_stage :
    let g := ofEngine (.started ⟨2⟩ default) defaultGrace
    (∀ e ∈ g.engine, e.Coherent) ∧
      g.Disciplined
        (g.history Stage.host [.isRunning, .cleanup, .cleanup, .drop] ⟨0, .none, false⟩) := by
  have hco : ∀ e ∈ (ofEngine (.started ⟨2⟩ default) defaultGrace).engine, e.Coherent := by
    rintro _ ⟨⟩
    exact .started ⟨2⟩ default
  exact ⟨hco, history_disciplined Stage.host _ hco _ _⟩

end Guard

end EngineBench
