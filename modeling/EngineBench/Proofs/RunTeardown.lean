import EngineBench.Proofs.Run

/-!
# Every run takes its engine down

However a run goes, its engine is cleaned up after exactly once, when nothing else of the run is
left to do, and its outcome is there before.

* `Plan.TornDown` says what a journal shows of the engine of a run, `Plan.Left` what is left of it.
* `Plan.verdict?` is the outcome of a run, found without a cleanup.
* `Plan.run_tearsDown` says so of every run.
-/

namespace EngineBench

namespace Plan

/-- What a run that started an engine leaves of it, as its cleanup and its result show. -/
inductive Left (p : Plan) (pid : ProcessId) (used cleaned : Journal) (r : Except Halt Summary) :
    Prop
  /-- The exit was seen, at the latest in the cleanup. -/
  | reaped {a : Entry} : a ∈ used ++ cleaned → a.deed.reaped? = some pid →
      (∀ summary, r = .ok summary →
        summary.engineState = some .exited ∧ summary.cleanupError = none) →
      Left p pid used cleaned r
  /-- The exit was not seen in the whole wait after the kill. -/
  | unconfirmed {k w : Journal} {kill : Entry} : cleaned = k ++ kill :: w →
      kill.deed.signal? = some (.group pid, .kill) → Waited pid Guard.killWait w (some none) →
      (∀ summary, r = .ok summary → summary.engineState = some .running ∧
        summary.cleanupError = some (Unconfirmed.message ⟨pid⟩)) →
      Left p pid used cleaned r
  /-- The clock cannot show the end of a wait of the cleanup; then the run has no result. -/
  | late {a : Entry} : a ∈ cleaned → a.TooLate p.grace ∨ a.TooLate Guard.killWait →
      (∀ summary, r ≠ .ok summary) → Left p pid used cleaned r

/-- How a run takes its engine down, as its journal and its result show. -/
inductive TornDown (p : Plan) (c : Configuration) (j : Journal) (r : Except Halt Summary) : Prop
  /-- Nothing was started, and nobody gets a signal. -/
  | unstarted : j.IsIdle → TornDown p c j r
  /-- An engine was started. Its guard is cleaned up for the first time when the run has used the
  engine and the client for the last time; before, only clients get signals, and after it the run
  looks at its requests and does nothing else. -/
  | started {used cleaned rest : Journal} {launch : Entry} {pid : ProcessId} {g g' : Guard}
      {x : Guard.CleanupResult} : j = used ++ (cleaned ++ rest) → launch ∈ used →
      launch.deed = .spawned (p.engineCommand c) (.file p.log) (.ok pid) →
      (∀ s ∈ used.signals, ∃ q, s.1 = .process q) →
      g.attempted = false → g.grace = p.grace → g.engine.map Engine.pid = some pid →
      g.Cleaned cleaned x g' → (∀ a ∈ rest, a.deed = .looked) →
      p.Left pid used cleaned r → TornDown p c j r

/-! ## Up to the cleanup -/

section

variable {p : Plan} {c : Configuration} {summary : Summary} {e e' : Engine} {j : Journal}
  {r : Except Halt (Outcome × Summary)}

theorem gate_quiet {n : Nat} {checks : List HealthCheck} {x : Except Halt HealthReport}
    (hg : p.gate.Gated p.token e n checks j x e') : j.signals = [] := by
  rcases hg.engine with ⟨-, hidle, -⟩ | ⟨status, j', poll, _, -, rfl, hidle, hpoll, -⟩
  · exact hidle.signals_eq_nil
  · rw [Journal.signals_append, hidle.signals_eq_nil, Journal.signals_cons, hpoll]
    rfl

/-- Between the start and the stop of the engine only clients get signals. -/
theorem Driven.signals (hd : p.Driven c summary e j r e') :
    ∀ s ∈ j.signals, ∃ q, s.1 = .process q := by
  have hquiet {n : Nat} {checks : List HealthCheck} {j : Journal}
      {x : Except Halt HealthReport} (hg : p.gate.Gated p.token e n checks j x e') :
      ∀ s ∈ j.signals, ∃ q, s.1 = .process q := by
    rw [gate_quiet hg]
    exact fun _ hs => (List.not_mem_nil hs).elim
  cases hd with
  | late hg => exact hquiet hg
  | timedOut hg => exact hquiet hg
  | gone hg => exact hquiet hg
  | interrupted hg => exact hquiet hg
  | ready hg hc =>
    rw [Journal.signals_append]
    exact List.forall_mem_append.mpr ⟨hquiet hg, hc.signals⟩

/-- Up to the outcome only clients get signals. -/
theorem Settled.signals {g : Guard} (hs : p.Settled c summary j r g) :
    ∀ s ∈ j.signals, ∃ q, s.1 = .process q := by
  cases hs with
  | unlaunched hidle =>
    rw [hidle.signals_eq_nil]
    exact fun _ hs => (List.not_mem_nil hs).elim
  | @launched j₁ j₂ j j₃ launch pid _ e hidle₁ hlaunch hidle₂ hd hidle₃ =>
    have hsignals : Journal.signals (j₁ ++ launch :: (j₂ ++ (j ++ j₃))) = j.signals := by
      simp only [Journal.signals_cons, Journal.signals_append, hidle₁.signals_eq_nil,
        hidle₂.signals_eq_nil, hidle₃.signals_eq_nil, hlaunch, Deed.signal?, Option.toList_none,
        List.nil_append, List.append_nil]
    rw [hsignals]
    exact hd.signals

/-- The engine is known to have exited only if its exit was seen. -/
theorem Driven.engine (hd : p.Driven c summary e j r e') :
    e' = e ∨ ∃ status, e' = e.markExited status ∧ ∃ a ∈ j, a.deed.reaped? = some e.pid := by
  have hgate {n : Nat} {checks : List HealthCheck} {j : Journal}
      {x : Except Halt HealthReport} (hg : p.gate.Gated p.token e n checks j x e') :
      e' = e ∨ ∃ status, e' = e.markExited status ∧ ∃ a ∈ j, a.deed.reaped? = some e.pid := by
    rcases hg.engine with ⟨he, -⟩ | ⟨status, j', poll, _, he, rfl, -, hpoll, -⟩
    · exact .inl he
    · exact .inr ⟨status, he, poll, by simp, by rw [hpoll]; rfl⟩
  cases hd with
  | late hg => exact hgate hg
  | timedOut hg => exact hgate hg
  | gone hg => exact hgate hg
  | interrupted hg => exact hgate hg
  | ready hg _ =>
    rcases hgate hg with he | ⟨status, he, a, ha, hr⟩
    · exact .inl he
    · exact .inr ⟨status, he, a, List.mem_append_left _ ha, hr⟩

/-- A run that comes to no outcome began a wait too late. -/
theorem Driven.tooLate (hd : p.Driven c summary e j r e') {halt : Halt} (hr : r = .error halt) :
    ∃ a ∈ j, a.TooLate p.gate.interval ∨ a.TooLate Client.stopTimeout := by
  cases hd with
  | late hg =>
    obtain ⟨a, ha, hlate⟩ := hg.tooLate rfl
    exact ⟨a, ha, .inl hlate⟩
  | timedOut _ => cases hr
  | gone _ => cases hr
  | interrupted _ => cases hr
  | @ready _ _ _ _ x _ hc =>
    have hx : x = .error halt := by
      unfold clientVerdict at hr
      split at hr <;> cases hr
      rfl
    obtain ⟨a, ha, hlate⟩ := hc.tooLate hx
    exact ⟨a, List.mem_append_right _ ha, .inr hlate⟩

end

/-! ## The cleanup of a started engine -/

/-- What the cleanup of a run leaves of its engine, if the exit of the engine was seen wherever it
is known. -/
theorem left_of_cleaned {p : Plan} {e : Engine} {g' : Guard} {used cleaned : Journal}
    {x : Guard.CleanupResult} {r : Except Halt Summary}
    (hused : e.state = .running ∨ ∃ a ∈ used, a.deed.reaped? = some e.pid)
    (hc : (Guard.ofEngine e p.grace).Cleaned cleaned x g')
    (hnone : ∀ halt, x = .error halt → ∀ summary, r ≠ .ok summary)
    (hclose : ∀ y summary, x = .ok y → r = .ok summary →
      summary.engineState = g'.engine.map Engine.state ∧
        summary.cleanupError = match y with
          | .ok _ => none
          | .error u => some u.message) :
    p.Left e.pid used cleaned r := by
  rcases x with halt | u | action
  · obtain ⟨a, ha, hlate⟩ := hc.tooLate rfl
    exact .late ha hlate (hnone halt rfl)
  · obtain ⟨rfl, k, kill, w, hk, hkill, hw, hstate⟩ := hc.of_unconfirmed rfl rfl
    refine .unconfirmed hk hkill hw fun summary hr => ?_
    obtain ⟨hs, herr⟩ := hclose _ summary rfl hr
    exact ⟨hs.trans hstate, herr⟩
  · have hclear : g'.IsClear := hc.ok_iff.mp ⟨action, rfl⟩
    obtain ⟨a, ha, hr⟩ : ∃ a ∈ used ++ cleaned, a.deed.reaped? = some e.pid := by
      rcases hused with hrun | ⟨a, ha, hr⟩
      · obtain ⟨a, ha, hr⟩ := hc.reaps rfl hrun hclear
        exact ⟨a, List.mem_append_right _ ha, hr⟩
      · exact ⟨a, List.mem_append_left _ ha, hr⟩
    refine .reaped ha hr fun summary hsum => ?_
    obtain ⟨hs, herr⟩ := hclose _ summary rfl hsum
    refine ⟨hs.trans ?_, herr⟩
    obtain ⟨e', he', -⟩ := Option.map_eq_some_iff.mp (hc.pid_eq.trans rfl)
    rw [he', Option.map_some, hclear e' he']

/-- A settled run with its cleanup and what came after it. -/
theorem tornDown_of_settled {p : Plan} {c : Configuration} {summary : Summary} {look : Entry}
    {j cleaned rest : Journal} {r : Except Halt (Outcome × Summary)} {g g' : Guard}
    {x : Guard.CleanupResult} {r' : Except Halt Summary} (hlook : look.deed = .looked)
    (hs : p.Settled c summary j r g) (hc : g.Cleaned cleaned x g')
    (hrest : ∀ a ∈ rest, a.deed = .looked)
    (hnone : ∀ halt, x = .error halt → ∀ summary, r' ≠ .ok summary)
    (hclose : ∀ y summary, x = .ok y → r' = .ok summary →
      summary.engineState = g'.engine.map Engine.state ∧
        summary.cleanupError = match y with
          | .ok _ => none
          | .error u => some u.message) :
    p.TornDown c (look :: (j ++ (cleaned ++ rest))) r' := by
  have hfirst : Journal.IsIdle [look] := .of_looked (by simpa using hlook)
  have hclients := hs.signals
  cases hs with
  | unlaunched hidle =>
    -- The guard is empty, so that its cleanup leaves no journal.
    rw [(hc.of_isClear (by simp [Guard.IsClear, Guard.empty])).1]
    exact .unstarted (hfirst.append (hidle.append (.of_looked hrest)))
  | @launched j₁ j₂ j j₃ launch pid _ e hidle₁ hlaunch hidle₂ hd hidle₃ =>
    have hpid : e.pid = pid := by
      rcases hd.engine with rfl | ⟨status, rfl, -⟩ <;> rfl
    -- All that was done before the cleanup, as one journal.
    obtain ⟨used, hused⟩ : ∃ used : Journal, used = look :: (j₁ ++ launch :: (j₂ ++ (j ++ j₃))) :=
      ⟨_, rfl⟩
    have hmem : launch ∈ used := by simp [hused]
    have hsplit : look :: ((j₁ ++ launch :: (j₂ ++ (j ++ j₃))) ++ (cleaned ++ rest)) =
        used ++ (cleaned ++ rest) := by
      rw [hused]
      rfl
    -- What is known of the engine at the cleanup was seen before it.
    have hseen : e.state = .running ∨ ∃ a ∈ used, a.deed.reaped? = some e.pid := by
      rcases hd.engine with rfl | ⟨status, -, a, ha, hr⟩
      · exact .inl rfl
      · exact .inr ⟨a, by simp [hused, ha], by rw [hpid]; exact hr⟩
    have hleft := left_of_cleaned hseen hc hnone hclose
    rw [hpid] at hleft
    refine .started hsplit hmem hlaunch ?_ rfl rfl ?_ hc hrest hleft
    · rw [hused, Journal.signals_cons, hlook]
      exact hclients
    · rw [← hpid]
      rfl

/-- The outcome of a run, found without its cleanup. -/
def verdict? {σ : Type} (h : Host σ) (p : Plan) (c : Configuration)
    (probe : σ → ProbeResult × σ) (s : σ) : Option Outcome :=
  if p.token.isCancelled (h.interrupts (h.look s)) then some .interrupted
  else
    match p.settle h c probe (p.begin c (h.date s)) (h.look s) with
    | (.error _, _) => none
    | (.ok (o, _), _) => some o

/-- Whatever a cleanup does, on whatever host, the outcome stays. -/
theorem conclude_outcome {σ : Type} (h : Host σ) (p : Plan) (o : Outcome) (summary : Summary)
    (g : Guard) (s : σ) {summary' : Summary}
    (hr : (p.conclude h o summary g s).1 = .ok summary') : summary'.outcome = o := by
  unfold conclude at hr
  rcases hclean : g.cleanup h s with ⟨halt | x, g', s'⟩
  · rw [hclean] at hr
    cases hr
  · rw [hclean] at hr
    cases hr
    exact close_outcome ..

theorem verdict?_eq {σ : Type} (h : Host σ) (p : Plan) (c : Configuration)
    (probe : σ → ProbeResult × σ) (s : σ) {summary : Summary}
    (hr : (p.run h c probe s).1 = .ok summary) :
    p.verdict? h c probe s = some summary.outcome := by
  by_cases hc : p.token.isCancelled (h.interrupts (h.look s))
  · simp only [run, verdict?, hc, if_true, Except.ok.injEq] at hr ⊢
    rw [← hr]
    rfl
  rcases hsettle : p.settle h c probe (p.begin c (h.date s)) (h.look s) with
    ⟨halt | ⟨o, sum⟩, g, s'⟩
  · simp only [run, hc, hsettle, Bool.false_eq_true, if_false, reduceCtorEq] at hr
  · simp only [run, verdict?, hc, hsettle, Bool.false_eq_true, if_false] at hr ⊢
    rw [conclude_outcome h p o sum g s' hr]

/-! ## Whole runs -/

theorem Ran.tornDown {p : Plan} {c : Configuration} {j : Journal} {r : Except Halt Summary}
    (hr : p.Ran c j r) : p.TornDown c j r := by
  cases hr with
  | @cancelled look again _ _ hlook _ hagain =>
    exact .unstarted (.of_looked (by simp [hlook, hagain]))
  | @halted look j k _ halt g g' x hlook _ hs hc =>
    have htorn : p.TornDown c (look :: (j ++ (k ++ []))) (.error halt) :=
      tornDown_of_settled hlook hs hc (fun _ ha => (List.not_mem_nil ha).elim)
        (fun _ _ _ => nofun) (fun _ _ _ => nofun)
    rwa [List.append_nil] at htorn
  | @late look j k _ o summary halt g g' hlook _ hs hc =>
    have htorn : p.TornDown c (look :: (j ++ (k ++ []))) (.error halt) :=
      tornDown_of_settled hlook hs hc (fun _ ha => (List.not_mem_nil ha).elim)
        (fun _ _ _ => nofun) (fun _ _ _ => nofun)
    rwa [List.append_nil] at htorn
  | @finished look again j k began ended o summary x g g' hlook _ hs hc hagain =>
    have hopen := hs.isOpen (begin_isOpen p c began) rfl
    refine tornDown_of_settled hlook hs hc (fun a ha => ?_) (fun _ h => nomatch h) ?_
    · rw [List.mem_singleton.mp ha]
      exact hagain
    · rintro y _ ⟨⟩ ⟨⟩
      exact ⟨close_engineState .., close_cleanupError _ _ _ _ _ _ _ hopen⟩

theorem Ran.tooLate {p : Plan} {c : Configuration} {j : Journal} {r : Except Halt Summary}
    (hr : p.Ran c j r) {halt : Halt} (hh : r = .error halt) :
    ∃ a ∈ j, a.TooLate p.gate.interval ∨ a.TooLate Client.stopTimeout ∨ a.TooLate p.grace ∨
      a.TooLate Guard.killWait := by
  cases hr with
  | cancelled _ _ _ => cases hh
  | halted _ _ hs _ =>
    cases hs with
    | launched _ _ _ hd _ =>
      obtain ⟨a, ha, hlate⟩ := hd.tooLate rfl
      exact ⟨a, by simp [ha], hlate.imp_right .inl⟩
  | late _ _ hs hc =>
    obtain ⟨a, ha, hlate⟩ := hc.tooLate rfl
    cases hs with
    | unlaunched _ => cases (hc.of_isClear (by simp [Guard.IsClear, Guard.empty])).2.1
    | launched _ _ _ _ _ => exact ⟨a, by simp [ha], .inr (.inr hlate)⟩
  | finished _ _ _ _ _ => cases hh

/-- Every run takes its engine down and keeps the outcome that it had before; it has a result unless
the clock cannot show the end of one of its waits. -/
theorem run_tearsDown {σ : Type} (h : Host σ) (p : Plan) (c : Configuration)
    (probe : σ → ProbeResult × σ) (s : σ) :
    p.TornDown c (p.journal h c probe s) (p.run h c probe s).1 ∧
      (∀ summary, (p.run h c probe s).1 = .ok summary →
        p.verdict? h c probe s = some summary.outcome) ∧
      ∀ halt, (p.run h c probe s).1 = .error halt →
        ∃ a ∈ p.journal h c probe s, a.TooLate p.gate.interval ∨ a.TooLate Client.stopTimeout ∨
          a.TooLate p.grace ∨ a.TooLate Guard.killWait := by
  obtain ⟨-, hr⟩ := p.run_ran h c probe s
  exact ⟨hr.tornDown, fun _ => p.verdict?_eq h c probe s, fun _ => hr.tooLate⟩

end Plan

end EngineBench
