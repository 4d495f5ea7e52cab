import Mathlib.Data.List.Basic
import EngineBench.Proofs.LoadedSettings
import EngineBench.Proofs.RunTeardown

/-!
# The deadline of a stop

An engine that was asked to end gets its time of grace from the settings. The clock shows signed
seconds and a duration has unsigned ones, so there are settings that can be loaded, with a grace
that reaches beyond the clock. Then the run ends right after the request.

* `Plan.Enforced` is a stop that goes on from there: the exit is seen, or the engine is killed.
* `Host.Keeps.run_cleanup` takes a run apart into what comes before its cleanup, the cleanup and
  what comes after it.
* `Plan.run_enforcesStop_iff`: a stop goes on exactly if the clock can show the deadline.
-/

namespace EngineBench

/-- The clock ends with the last of its signed seconds. -/
theorem Entry.tooLate_iff {e : Entry} {d : Duration} :
    e.TooLate d ↔ 2 ^ 63 * Duration.perSecond ≤ e.clock + d.nanoseconds := by
  have hmax : Host.maxClockSeconds = 2 ^ 63 - 1 := by decide
  have hsecond : 0 < Duration.perSecond := by decide
  simp only [TooLate, Host.deadline?, ite_eq_right_iff, reduceCtorEq, imp_false, hmax]
  rw [Nat.not_le, Nat.lt_iff_add_one_le, Nat.le_div_iff_mul_le hsecond, Nat.add_comm e.clock,
    Nat.sub_add_cancel (by decide)]

/-! ## Stops -/

namespace Plan

/-- What follows the request to an engine if the stop goes on. -/
inductive Enforced (grace : Duration) (pid : ProcessId) : Journal → Prop
  /-- The exit is seen in the time of grace. -/
  | terminated {w rest : Journal} {status : ExitStatus} :
      Waited pid grace w (some (some status)) → (∀ a ∈ rest, a.deed = .looked) →
      Enforced grace pid (w ++ rest)
  /-- The engine is killed after the whole time of grace, and waited for. -/
  | killed {w w' rest : Journal} {kill : Entry} {x : Option ExitStatus} :
      Waited pid grace w (some none) → kill.deed.signal? = some (.group pid, .kill) →
      Waited pid Guard.killWait w' (some x) → (∀ a ∈ rest, a.deed = .looked) →
      Enforced grace pid (w ++ kill :: (w' ++ rest))
  /-- The engine is killed so late that the clock cannot show the end of the wait for it. -/
  | overrun {w : Journal} {kill look : Entry} :
      Waited pid grace w (some none) → kill.deed.signal? = some (.group pid, .kill) →
      look.deed = .looked → look.TooLate Guard.killWait → Enforced grace pid (w ++ [kill, look])

/-- A single look enforces nothing. -/
theorem Enforced.ne_singleton {grace : Duration} {pid : ProcessId} {j : Journal} {start : Entry}
    (he : Enforced grace pid j) : j ≠ [start] := by
  intro hj
  have hlength := congrArg List.length hj
  cases he with
  | terminated hw _ =>
    cases hw with
    | seen _ _ _ => simp at hlength
  | killed hw _ _ _ =>
    cases hw with
    | expired _ _ _ _ _ => simp at hlength
  | overrun hw _ _ _ => simp at hlength

end Plan

namespace Engine

variable {e e' : Engine} {grace : Duration} {term start : Entry} {j rest : Journal}
  {r : Guard.CleanupResult}

/-- No other request follows the first one. -/
theorem Stopped.asks_once (hs : e.Stopped grace (term :: j) r e') (p : ProcessId) :
    ∀ a ∈ j, a.deed.signal? ≠ some (.group p, .terminate) := by
  have hwait {w : Journal} {x : Option (Option ExitStatus)} (hw : Waited e.pid grace w x) :
      ∀ a ∈ w, a.deed.signal? ≠ some (.group p, .terminate) := by
    intro a ha
    rw [hw.quiet a ha]
    exact nofun
  cases hs with
  | overflow _ hw => exact hwait hw
  | terminated _ hw => exact hwait hw
  | @escalated _ _ j' _ _ _ hw hk =>
    refine List.forall_mem_append.mpr ⟨hwait hw, ?_⟩
    intro a ha hasked
    have hmem : (.group p, .terminate) ∈ Journal.signals j' :=
      List.mem_filterMap.mpr ⟨a, ha, hasked⟩
    rw [hk.signals_eq] at hmem
    simp [Signal.kill, Signal.terminate] at hmem

/-- A stop goes on, or its first wait has no deadline. -/
theorem Stopped.enforced_or (hs : e.Stopped grace (term :: j) r e') (rest : Journal)
    (hrest : ∀ a ∈ rest, a.deed = .looked) (hhalt : ∀ halt, r = .error halt → rest = []) :
    Plan.Enforced grace e.pid (j ++ rest) ∨
      r = .error .clockOverflow ∧ ∃ start, j = [start] ∧ start.TooLate grace := by
  cases hs with
  | overflow _ hw =>
    cases hw with
    | overflow _ hlate => exact .inr ⟨rfl, _, rfl, hlate⟩
  | terminated _ hw => exact .inl (.terminated hw hrest)
  | escalated _ hw hk =>
    rw [List.append_assoc]
    refine .inl ?_
    cases hk with
    | overflow hkill hwait =>
      obtain rfl := hhalt _ rfl
      cases hwait with
      | overflow hlook hlate => exact .overrun hw hkill hlook hlate
    | killed hkill hwait => exact .killed hw hkill hwait hrest
    | unconfirmed hkill hwait => exact .killed hw hkill hwait hrest

/-- If the clock cannot show the deadline, the look that finds this out is the whole stop. -/
theorem Stopped.of_tooLate (hs : e.Stopped grace (term :: start :: j) r e')
    (hlate : start.TooLate grace → j = []) (htoo : start.TooLate grace) :
    j = [] ∧ r = .error .clockOverflow := by
  obtain rfl : j = [] := hlate htoo
  rcases hs.enforced_or [] (List.forall_mem_nil _) (fun _ _ => rfl) with hgoes | ⟨hr, -⟩
  · exact absurd rfl hgoes.ne_singleton
  · exact ⟨rfl, hr⟩

theorem Stopped.enforced_iff (hs : e.Stopped grace (term :: start :: j) r e')
    (hlate : start.TooLate grace → j = []) (hrest : ∀ a ∈ rest, a.deed = .looked)
    (hhalt : ∀ halt, r = .error halt → rest = []) :
    Plan.Enforced grace e.pid (start :: (j ++ rest)) ↔ ¬ start.TooLate grace := by
  constructor
  · intro hgoes htoo
    obtain ⟨rfl, hr⟩ := hs.of_tooLate hlate htoo
    obtain rfl := hhalt _ hr
    exact hgoes.ne_singleton rfl
  · intro hnot
    rcases hs.enforced_or rest hrest hhalt with hgoes | ⟨-, look, heq, htoo⟩
    · exact hgoes
    · obtain ⟨rfl, -⟩ := List.cons.inj heq
      exact absurd htoo hnot

end Engine

namespace Plan

variable {p : Plan} {c : Configuration} {summary : Summary} {j : Journal}
  {r : Except Halt (Outcome × Summary)} {g : Guard}

theorem Settled.guard (hs : p.Settled c summary j r g) :
    g = .empty ∨ ∃ e, g = .ofEngine e p.grace := by
  cases hs with
  | unlaunched _ => exact .inl rfl
  | launched _ _ _ _ _ => exact .inr ⟨_, rfl⟩

end Plan

/-! ## Cleanups -/

namespace Host.Keeps

variable {σ : Type} {h : Host σ} {journal : σ → Journal} (hk : h.Keeps journal)

include hk

/-- The first cleanup of a guard sends no signal, or finds the engine running and stops it. -/
theorem cleanup_start {g : Guard} {grace : Duration} (hg : g = .empty ∨ ∃ e, g = .ofEngine e grace)
    (s : σ) :
    ∃ j, journal (g.cleanup h s).2.2 = journal s ++ j ∧
      (j.signals = [] ∨ ∃ (e : Engine) (poll term start : Entry) (k : Journal) (e' : Engine),
        j = poll :: term :: start :: k ∧
        poll.deed = .polled e.pid none ∧
        e.Stopped grace (term :: start :: k) (g.cleanup h s).1 e' ∧
        start.deed = .looked ∧ (start.TooLate grace → k = [])) := by
  rcases hg with rfl | ⟨e, rfl⟩
  · exact ⟨[], (List.append_nil _).symm, .inl rfl⟩
  obtain ⟨j, hadd, ho⟩ := hk.engine_poll e s
  simp only [Guard.cleanup, Guard.ofEngine]
  rcases hpoll : e.poll h s with ⟨e', s'⟩
  rw [hpoll] at hadd ho
  by_cases he' : e'.state = .exited
  · simp only [he', if_true]
    exact ⟨j, hadd, .inl ho.quiet⟩
  simp only [he', Bool.false_eq_true, if_false]
  -- The poll left the engine running, so it was running before and the poll was in vain.
  cases ho with
  | known he => exact absurd he he'
  | seen _ _ => exact absurd rfl he'
  | @alive poll he hd =>
    obtain ⟨term, start, k, e', hadd', -, hs, hlook, hlate⟩ :=
      hk.stopEngine_start ⟨some _, grace, true⟩ he s'
    refine ⟨poll :: term :: start :: k, ?_,
      .inr ⟨_, poll, term, start, k, e', rfl, hd, hs, hlook, hlate⟩⟩
    rw [hadd', hadd, List.append_assoc]
    rfl

/-- The end of a run with a fixed outcome is its cleanup, and a last look if that has a result. -/
theorem conclude_cleanup (p : Plan) (o : Outcome) (summary : Summary) (g : Guard) (s : σ) :
    ∃ rest, journal (p.conclude h o summary g s).2 = journal (g.cleanup h s).2.2 ++ rest ∧
      (∀ a ∈ rest, a.deed = .looked) ∧
      ∀ halt, (g.cleanup h s).1 = .error halt →
        rest = [] ∧ ∃ halt', (p.conclude h o summary g s).1 = .error halt' := by
  obtain ⟨k, -, hc⟩ := hk.cleanup g s
  unfold Plan.conclude
  rcases hclean : g.cleanup h s with ⟨halt | r, g', s'⟩
  · rw [hclean] at hc
    refine ⟨[], ?_, fun _ ha => (List.not_mem_nil ha).elim, fun _ _ => ⟨rfl, halt, rfl⟩⟩
    simp only [List.append_nil]
    exact hk.drop_of_cleaned hc s'
  · rw [hclean] at hc
    refine ⟨[h.entry .looked (h.look s')], ?_, ?_, nofun⟩
    · show journal (g'.drop h (h.look s')).2 = _
      rw [hk.drop_of_cleaned hc, hk.look]
    · intro a ha
      rw [List.mem_singleton.mp ha]
      rfl

/-! ## Runs -/

variable {probe : σ → ProbeResult × σ} (hprobe : h.KeepsProbe journal probe)

include hprobe

/-- A run is what comes before its cleanup, with signals to clients only, then the cleanup, then
looks; if the cleanup has no result, the run ends with it. -/
theorem run_cleanup (p : Plan) (c : Configuration) (s : σ) :
    ∃ (g : Guard) (s' : σ) (used rest : Journal), journal s' = journal s ++ used ∧
      (∀ x ∈ used.signals, ∃ q, x.1 = .process q) ∧
      (g = .empty ∨ ∃ e, g = .ofEngine e p.grace) ∧
      journal (p.run h c probe s).2 = journal (g.cleanup h s').2.2 ++ rest ∧
      (∀ a ∈ rest, a.deed = .looked) ∧
      ∀ halt, (g.cleanup h s').1 = .error halt →
        rest = [] ∧ ∃ halt', (p.run h c probe s).1 = .error halt' := by
  unfold Plan.run
  by_cases hc : p.token.isCancelled (h.interrupts (h.look s))
  · simp only [hc, if_true]
    refine ⟨.empty, h.look (h.look s),
      [h.entry .looked (h.look s), h.entry .looked (h.look (h.look s))], [], ?_, ?_, .inl rfl,
      (List.append_nil _).symm, List.forall_mem_nil _, nofun⟩
    · rw [hk.look, hk.look, List.append_assoc]
      rfl
    · exact fun _ hx => (List.not_mem_nil hx).elim
  obtain ⟨j, hadd, hs⟩ := hk.settle hprobe p c (p.begin c (h.date s)) (h.look s)
  rw [hk.look, List.append_assoc] at hadd
  simp only [hc, Bool.false_eq_true, if_false]
  rcases hsettle : p.settle h c probe (p.begin c (h.date s)) (h.look s) with
    ⟨halt | ⟨o, summary⟩, g, s'⟩
  · rw [hsettle] at hadd hs
    -- Nothing has cleaned up yet, so the drop does.
    have hdrop : g.drop h s' = (g.cleanup h s').2 := by
      rw [Guard.drop, hs.attempted_eq]
      rfl
    refine ⟨g, s', _, [], hadd, hs.signals, hs.guard, ?_, List.forall_mem_nil _,
      fun _ _ => ⟨rfl, halt, rfl⟩⟩
    simp only [hdrop, List.append_nil]
  · rw [hsettle] at hadd hs
    obtain ⟨rest, hclosed, hrest, hhalt⟩ := hk.conclude_cleanup p o summary g s'
    exact ⟨g, s', _, rest, hadd, hs.signals, hs.guard, hclosed, hrest, hhalt⟩

end Host.Keeps

/-! ## The request to end -/

/-- Where only processes get signals, no group does. -/
theorem Journal.signal?_ne_group {j : Journal} (hj : ∀ x ∈ j.signals, ∃ q, x.1 = .process q)
    (p : ProcessId) (g : Signal) : ∀ a ∈ j, a.deed.signal? ≠ some (.group p, g) := by
  intro a ha hsent
  obtain ⟨q, hq⟩ := hj (.group p, g) (List.mem_filterMap.mpr ⟨a, ha, hsent⟩)
  cases hq

/-- The request of a stop is the only one in the journal of a run. -/
theorem Engine.Stopped.eq_of_asked {e e' : Engine} {grace : Duration} {pid : ProcessId}
    {poll term term' : Entry} {used j rest before after : Journal} {r : Guard.CleanupResult}
    (hs : e.Stopped grace (term :: j) r e') (hused : ∀ x ∈ used.signals, ∃ q, x.1 = .process q)
    (hpoll : poll.deed.signal? = none) (hrest : ∀ a ∈ rest, a.deed = .looked)
    (hj : used ++ (poll :: term :: j ++ rest) = before ++ term' :: after)
    (hterm' : term'.deed.signal? = some (.group pid, .terminate)) :
    used ++ [poll] = before ∧ term = term' ∧ j ++ rest = after := by
  have hsplit : (used ++ [poll]) ++ term :: (j ++ rest) = before ++ term' :: after := by
    rw [← hj]
    simp only [List.append_assoc, List.cons_append, List.nil_append]
  refine (List.append_cons_inj_of_notMem ?_ ?_).mp hsplit
  · rw [List.mem_append, List.mem_singleton]
    rintro (hmem | rfl)
    · exact Journal.signal?_ne_group hused pid .terminate term' hmem hterm'
    · rw [hpoll] at hterm'
      cases hterm'
  · rw [List.mem_append]
    rintro (hmem | hmem)
    · exact hs.asks_once pid term' hmem hterm'
    · rw [hrest term' hmem] at hterm'
      cases hterm'

theorem Engine.Stopped.signal?_eq {e e' : Engine} {grace : Duration} {term : Entry} {j : Journal}
    {r : Guard.CleanupResult} (hs : e.Stopped grace (term :: j) r e') :
    term.deed.signal? = some (.group e.pid, .terminate) := by
  cases hs with
  | overflow hterm _ => exact hterm
  | terminated hterm _ => exact hterm
  | escalated hterm _ _ => exact hterm

namespace Plan

/-- What the journal of a run shows of a request to its engine to end. The engine was found running
right before. Its stop goes on exactly if the deadline, reckoned from the look after the request, is
below the `2 ^ 63` seconds that a clock can show. Else that look is the last entry, and the run has
no result. -/
def StopsByClock (p : Plan) (j : Journal) (r : Except Halt Summary) : Prop :=
  ∀ before term after pid, j = before ++ term :: after →
    term.deed.signal? = some (.group pid, .terminate) →
      (∃ used poll, before = used ++ [poll] ∧ poll.deed = .polled pid none) ∧
      ∃ start rest, after = start :: rest ∧ start.deed = .looked ∧
        (Enforced p.grace pid after ↔
          start.clock + p.grace.nanoseconds < 2 ^ 63 * Duration.perSecond) ∧
        (2 ^ 63 * Duration.perSecond ≤ start.clock + p.grace.nanoseconds →
          rest = [] ∧ ∃ halt, r = .error halt)

theorem stopsByClock_run {σ : Type} (h : Host σ) (p : Plan) (c : Configuration)
    (probe : σ → ProbeResult × σ) (s : σ) :
    p.StopsByClock (p.journal h c probe s) (p.run h c probe s).1 := by
  intro before term after pid hj hterm
  have hkeeps := h.journaled_keeps
  obtain ⟨g, s', used, rest, hused, hclients, hg, hrun, hrest, hhalt⟩ :=
    hkeeps.run_cleanup (h.journaledProbe_keeps probe) p c (s, [])
  obtain ⟨j, hadd, hstop⟩ := hkeeps.cleanup_start hg s'
  rw [p.run_journaled h c probe s] at hrun hhalt
  have hsplit : used ++ (j ++ rest) = before ++ term :: after := by
    rw [← hj, show p.journal h c probe s = _ from hrun, hadd, hused, List.append_assoc]
    rfl
  rcases hstop with hquiet | ⟨e, poll, term', start, k, e', rfl, hpoll, hs, hlook, hlate⟩
  · -- Nobody asked a group to end.
    have hmem : term ∈ used ++ (j ++ rest) := by
      rw [hsplit]
      exact List.mem_append_right _ List.mem_cons_self
    have hall : ∀ x ∈ Journal.signals (used ++ (j ++ rest)), ∃ q, x.1 = .process q := by
      rw [Journal.signals_append, Journal.signals_append, hquiet,
        (Journal.IsIdle.of_looked hrest).signals_eq_nil, List.append_nil, List.append_nil]
      exact hclients
    exact absurd hterm (Journal.signal?_ne_group hall pid .terminate term hmem)
  · obtain ⟨rfl, rfl, rfl⟩ :=
      hs.eq_of_asked hclients (by rw [hpoll]; rfl) hrest hsplit hterm
    obtain rfl : e.pid = pid := by
      have hasked := hs.signal?_eq.symm.trans hterm
      cases hasked
      rfl
    refine ⟨⟨used, poll, rfl, hpoll⟩, start, k ++ rest, rfl, hlook, ?_, ?_⟩
    · rw [← Nat.not_le, ← Entry.tooLate_iff]
      exact hs.enforced_iff hlate hrest fun _ hr => (hhalt _ hr).1
    · intro hle
      obtain ⟨rfl, hr⟩ := hs.of_tooLate hlate (Entry.tooLate_iff.mpr hle)
      obtain ⟨rfl, hhalted⟩ := hhalt _ hr
      exact ⟨rfl, hhalted⟩

variable {ρ : Type}

/-- Every loaded settings give a plan, with a grace below `2 ^ 64` seconds, and the clock decides
over every stop of every run of it. What is decided is whether the stop goes on behind the request
to the engine: a run that ends without a result in the wait that follows SIGKILL, because the clock
cannot show the end of that wait either, counts as one that went on (`Enforced.overrun`), since the
engine has been killed then. -/
theorem run_enforcesStop_iff (k : Host ρ) (path : Path) (s : ρ) {settings : Settings}
    (hload : Settings.load k path s = .ok settings) (environment : Overlay) (token : Token) :
    ∃ p, ofSettings settings environment token = .ok p ∧
      p.grace.nanoseconds < UInt64.size * Duration.perSecond ∧
      ∀ (σ : Type) (h : Host σ) (c : Configuration) (probe : σ → ProbeResult × σ) (s : σ),
        p.StopsByClock (p.journal h c probe s) (p.run h c probe s).1 := by
  obtain ⟨d, hd⟩ := (Settings.usable_of_load hload).grace
  refine ⟨_, ofSettings_eq_ok_iff.mpr ⟨d, hd, rfl⟩, Duration.lt_of_parse hd, ?_⟩
  intro σ h c probe s
  exact stopsByClock_run h _ c probe s

end Plan

/-! ## A grace beyond the clock -/

namespace Stage

def overlongText : String := "[server]\nshutdown_timeout = \"10000000000000000000s\"\n"

/-- The standard settings, but for a grace of more than `2 ^ 63` seconds. -/
def overlong : Settings :=
  { Settings.standard with
    engine := { EngineSettings.standard with grace := "10000000000000000000s" } }

/-- A stage with a settings file, on which a run is cancelled once its engine was started. -/
def overlongHost : Host Stage :=
  { host with
    readFile := fun _ _ => .ok (Text.encode overlongText)
    spawn := fun _ _ s => (.ok ⟨2⟩, { s with interrupts := s.interrupts.raise 0 }) }

theorem load_overlong : Settings.load overlongHost default start = .ok overlong := by
  refine Settings.load_eq_ok_iff.mpr ⟨Text.encode overlongText, overlongText, rfl, ?_, ?_, ?_⟩
  · exact Text.decode?_eq_some_iff.mpr rfl
  · decide +kernel
  · decide +kernel

def overlongPlan : Plan where
  engine := overlong.engine.toProgram
  log := overlong.engine.log
  client := overlong.client.toProgram
  results := overlong.client.results
  environment := .empty
  gate := .standard
  grace := .ofSeconds (10 ^ 19)
  metadata := false
  token := ⟨0, false⟩

theorem ofSettings_overlong : Plan.ofSettings overlong .empty ⟨0, false⟩ = .ok overlongPlan := by
  have hgrace : overlong.grace = .ok (.ofSeconds (10 ^ 19)) := by decide +kernel
  exact Plan.ofSettings_eq_ok_iff.mpr ⟨_, hgrace, rfl⟩

/-- The gate finds the run cancelled; so the engine is asked to end, and looked at once more. -/
theorem journal_overlong :
    ∃ before, overlongPlan.journal overlongHost default cancellingProbe start =
      before ++ [⟨.signaled (.group ⟨2⟩) .terminate (.ok ()), 0, Interrupts.none.raise 0⟩,
        ⟨.looked, 0, Interrupts.none.raise 0⟩] :=
  ⟨_, (List.take_append_drop 6 _).symm⟩

end Stage

namespace Plan

/-- The settings of a stage with too long a grace are loaded, and its run ends between the request
to the engine and the exit. -/
theorem run_enforcesStop_iff_stage :
    Settings.load Stage.overlongHost default Stage.start = .ok Stage.overlong ∧
      ∃ p, ofSettings Stage.overlong .empty ⟨0, false⟩ = .ok p ∧
        ∃ before term look, p.journal Stage.overlongHost default Stage.cancellingProbe Stage.start =
            before ++ [term, look] ∧
          term.deed.signal? = some (.group ⟨2⟩, .terminate) ∧ ¬ Enforced p.grace ⟨2⟩ [look] ∧
          ∃ halt, (p.run Stage.overlongHost default Stage.cancellingProbe Stage.start).1 =
            .error halt := by
  obtain ⟨p, hp, -, hstops⟩ := run_enforcesStop_iff Stage.overlongHost default Stage.start
    Stage.load_overlong .empty ⟨0, false⟩
  refine ⟨Stage.load_overlong, p, hp, ?_⟩
  rw [Stage.ofSettings_overlong] at hp
  obtain rfl := Except.ok.inj hp
  obtain ⟨before, hj⟩ := Stage.journal_overlong
  obtain ⟨-, look, rest, heq, -, hiff, hend⟩ := hstops _ _ _ _ _ before _ _ ⟨2⟩ hj rfl
  obtain ⟨rfl, -⟩ := List.cons.inj heq
  have hlate : 2 ^ 63 * Duration.perSecond ≤ 0 + Stage.overlongPlan.grace.nanoseconds := by decide
  refine ⟨before, _, _, hj, rfl, ?_, (hend hlate).2⟩
  intro hgoes
  exact absurd (hiff.mp hgoes) (Nat.not_lt_of_le hlate)

end Plan

end EngineBench
