import EngineBench.Proofs.Client
import EngineBench.Proofs.HealthGate
import EngineBench.Proofs.Summary

/-!
# Journals of runs

A run starts its engine, waits at the gate, runs the client, cleans up, and looks at the requests a
last time. Each of these parts may be the last one before the cleanup.

* `Plan.Driven`, `Plan.Settled` and `Plan.Ran` list the journals of runs with the results that they
  lead to; the outcome is there before the cleanup.
* `Plan.run_ran` says that there are no others.
-/

namespace EngineBench

namespace Plan

/-- What a run does between the start and the stop of its engine: the journal, the outcome with the
summary so far, and what is known of the engine then. -/
inductive Driven (p : Plan) (c : Configuration) (summary : Summary) (e : Engine) :
    Journal → Except Halt (Outcome × Summary) → Engine → Prop
  /-- There is no deadline for a pause of the gate. -/
  | late {j : Journal} {halt : Halt} {e' : Engine} :
      p.gate.Gated p.token e p.gate.maxAttempts.toNat [] j (.error halt) e' →
      Driven p c summary e j (.error halt) e'
  | timedOut {j : Journal} {checks : List HealthCheck} {e' : Engine} :
      p.gate.Gated p.token e p.gate.maxAttempts.toNat [] j (.ok ⟨.timedOut, checks⟩) e' →
      Driven p c summary e j (.ok (.healthTimeout, summary.noteAttempts checks.length)) e'
  | gone {j : Journal} {checks : List HealthCheck} {e' : Engine} :
      p.gate.Gated p.token e p.gate.maxAttempts.toNat [] j (.ok ⟨.engineExited, checks⟩) e' →
      Driven p c summary e j (.ok (.launchError, summary.noteAttempts checks.length)) e'
  | interrupted {j : Journal} {checks : List HealthCheck} {e' : Engine} :
      p.gate.Gated p.token e p.gate.maxAttempts.toNat [] j (.ok ⟨.interrupted, checks⟩) e' →
      Driven p c summary e j (.ok (.interrupted, summary.noteAttempts checks.length)) e'
  /-- The engine was ready, and the client was run. -/
  | ready {j j' : Journal} {checks : List HealthCheck} {e' : Engine} {r : ClientResult} :
      p.gate.Gated p.token e p.gate.maxAttempts.toNat [] j (.ok ⟨.ready, checks⟩) e' →
      Client.Ran p.token (p.clientCommand c) j' r →
      Driven p c summary e (j ++ j') (clientVerdict (summary.noteAttempts checks.length) r) e'

/-- A run up to its outcome: the journal, the outcome with the summary so far, and the guard. -/
inductive Settled (p : Plan) (c : Configuration) (summary : Summary) :
    Journal → Except Halt (Outcome × Summary) → Guard → Prop
  /-- The engine could not be started. -/
  | unlaunched {j : Journal} : j.IsIdle →
      Settled p c summary j (.ok (.launchError, summary)) .empty
  /-- The engine was started, and the run was driven while the configuration was served. -/
  | launched {j₁ j₂ j j₃ : Journal} {launch : Entry} {pid : ProcessId}
      {r : Except Halt (Outcome × Summary)} {e : Engine} : j₁.IsIdle →
      launch.deed = .spawned (p.engineCommand c) (.file p.log) (.ok pid) →
      j₂.IsIdle →
      p.Driven c (summary.noteEngine pid) (.started pid p.log) j r e →
      j₃.IsIdle →
      Settled p c summary (j₁ ++ launch :: (j₂ ++ (j ++ j₃))) r (.ofEngine e p.grace)

/-- A whole run: the journal and the result. -/
inductive Ran (p : Plan) (c : Configuration) : Journal → Except Halt Summary → Prop
  /-- The run was cancelled before anything was started. -/
  | cancelled {look again : Entry} {began ended : Timestamp} : look.deed = .looked →
      p.token.isCancelled look.interrupts = true → again.deed = .looked →
      Ran p c [look, again]
        (.ok (((p.begin c began).noteSignal (p.token.signal? again.interrupts)).finish .interrupted
          ended))
  /-- There is no outcome; the guard is dropped. -/
  | halted {look : Entry} {j k : Journal} {began : Timestamp} {halt : Halt} {g g' : Guard}
      {r : Guard.CleanupResult} : look.deed = .looked →
      p.token.isCancelled look.interrupts = false →
      p.Settled c (p.begin c began) j (.error halt) g → g.Cleaned k r g' →
      Ran p c (look :: (j ++ k)) (.error halt)
  /-- The cleanup has no result. -/
  | late {look : Entry} {j k : Journal} {began : Timestamp} {o : Outcome} {summary : Summary}
      {halt : Halt} {g g' : Guard} : look.deed = .looked →
      p.token.isCancelled look.interrupts = false →
      p.Settled c (p.begin c began) j (.ok (o, summary)) g → g.Cleaned k (.error halt) g' →
      Ran p c (look :: (j ++ k)) (.error halt)
  | finished {look again : Entry} {j k : Journal} {began ended : Timestamp} {o : Outcome}
      {summary : Summary} {r : Except Unconfirmed CleanupAction} {g g' : Guard} :
      look.deed = .looked → p.token.isCancelled look.interrupts = false →
      p.Settled c (p.begin c began) j (.ok (o, summary)) g → g.Cleaned k (.ok r) g' →
      again.deed = .looked →
      Ran p c (look :: (j ++ (k ++ [again])))
        (.ok (p.close o summary r g' again.interrupts ended))

variable {p : Plan} {c : Configuration} {summary : Summary} {j : Journal}
  {r : Except Halt (Outcome × Summary)}

/-- Up to the outcome there was no cleanup. -/
theorem Settled.attempted_eq {g : Guard} (hs : p.Settled c summary j r g) :
    g.attempted = false := by
  cases hs <;> rfl

theorem Driven.isOpen {e e' : Engine} (hd : p.Driven c summary e j r e') (hs : summary.IsOpen)
    {o : Outcome} {summary' : Summary} (hr : r = .ok (o, summary')) : summary'.IsOpen := by
  cases hd with
  | late _ => cases hr
  | timedOut _ => cases hr; exact hs.noteAttempts _
  | gone _ => cases hr; exact hs.noteAttempts _
  | interrupted _ => cases hr; exact hs.noteAttempts _
  | ready _ _ => exact isOpen_of_clientVerdict (hs.noteAttempts _) hr

theorem Settled.isOpen {g : Guard} (hd : p.Settled c summary j r g) (hs : summary.IsOpen)
    {o : Outcome} {summary' : Summary} (hr : r = .ok (o, summary')) : summary'.IsOpen := by
  cases hd with
  | unlaunched _ => cases hr; exact hs
  | launched _ _ _ hd _ => exact hd.isOpen (hs.noteEngine _) hr

theorem Driven.beginning {e e' : Engine} (hd : p.Driven c summary e j r e') {o : Outcome}
    {summary' : Summary} (hr : r = .ok (o, summary')) :
    summary'.beginning = summary.beginning := by
  cases hd with
  | late _ => cases hr
  | timedOut _ => cases hr; rfl
  | gone _ => cases hr; rfl
  | interrupted _ => cases hr; rfl
  | ready _ _ => exact (beginning_of_clientVerdict hr).trans (summary.beginning_noteAttempts _)

theorem Settled.beginning {g : Guard} (hd : p.Settled c summary j r g) {o : Outcome}
    {summary' : Summary} (hr : r = .ok (o, summary')) :
    summary'.beginning = summary.beginning := by
  cases hd with
  | unlaunched _ => cases hr; rfl
  | launched _ _ _ hd _ => exact hd.beginning hr

/-- The summary of a run is the one that it began with, and notes. -/
theorem Ran.beginning {r : Except Halt Summary} (hran : p.Ran c j r) (hr : r = .ok summary) :
    ∃ began, summary.beginning = p.begin c began := by
  cases hran with
  | cancelled _ _ _ =>
    cases hr
    exact ⟨_, rfl⟩
  | halted _ _ _ _ => cases hr
  | late _ _ _ _ => cases hr
  | @finished _ _ _ _ began _ _ _ _ _ _ _ _ hs _ _ =>
    cases hr
    exact ⟨began, (close_beginning ..).trans (hs.beginning rfl)⟩

end Plan

/-! ## Runs by their cases -/

namespace Host.Keeps

variable {σ : Type} {h : Host σ} {journal : σ → Journal} (hk : h.Keeps journal)

include hk

theorem openLog (log : Path) (s : σ) :
    ∃ j : Journal, journal (Engine.openLog h log s).2 = journal s ++ j ∧ j.IsIdle := by
  obtain ⟨j, hmade, hprep⟩ := hk.makeParent log s
  unfold Engine.openLog
  rcases hp : h.makeParent log s with ⟨_ | _, s'⟩
  · rw [hp] at hmade
    exact ⟨j, hmade, hprep.isIdle⟩
  · rw [hp] at hmade
    have hemptied := hk.emptyFile log s'
    rw [hmade, List.append_assoc] at hemptied
    exact ⟨_, hemptied, hprep.isIdle.append (.singleton ⟨rfl, rfl, rfl⟩)⟩

/-- The start of the engine: it is the last thing, or nothing was started. -/
theorem launch (c : Command) (log : Path) (s : σ) :
    (∃ (j : Journal) (launch : Entry) (pid : ProcessId),
        (Engine.launch h c log s).1 = .ok (.started pid log) ∧
        journal (Engine.launch h c log s).2 = journal s ++ (j ++ [launch]) ∧
        j.IsIdle ∧ launch.deed = .spawned c (.file log) (.ok pid)) ∨
      ∃ (j : Journal) (err : Engine.LaunchError), (Engine.launch h c log s).1 = .error err ∧
        journal (Engine.launch h c log s).2 = journal s ++ j ∧ j.IsIdle := by
  obtain ⟨j, hopened, hidle⟩ := hk.openLog log s
  unfold Engine.launch
  rcases ho : Engine.openLog h log s with ⟨err | _, s'⟩
  · rw [ho] at hopened
    exact .inr ⟨j, _, rfl, hopened, hidle⟩
  rw [ho] at hopened
  simp only
  rcases hs : h.spawn c (.file log) s' with ⟨err | pid, s''⟩
  · obtain ⟨launch, hlaunch, hadd⟩ := hk.spawned hs
    refine .inr ⟨j ++ [launch], _, rfl, ?_, hidle.append (.singleton ?_)⟩
    · rw [hadd, hopened, List.append_assoc]
    · rw [hlaunch]
      exact ⟨rfl, rfl, rfl⟩
  · obtain ⟨launch, hlaunch, hadd⟩ := hk.spawned hs
    refine .inl ⟨j, launch, pid, rfl, ?_, hidle, hlaunch⟩
    rw [hadd, hopened, List.append_assoc]

theorem startMetadata (p : Plan) (c : Configuration) (s : σ) :
    ∃ j : Journal, journal (p.startMetadata h c s).2 = journal s ++ j ∧ j.IsIdle := by
  have hnil : ∃ j : Journal, journal s = journal s ++ j ∧ j.IsIdle :=
    ⟨[], by simp, .nil⟩
  unfold Plan.startMetadata Metadata.start
  by_cases hm : p.metadata
  · simp only [hm, if_true]
    cases c.metadataPort? with
    | none => exact hnil
    | some port =>
      cases Metadata.body? c with
      | none => exact hnil
      | some body =>
        let listen := h.entry (.listened port body (h.listen port body s).1)
          (h.listen port body s).2
        refine ⟨[listen], ?_, .singleton ⟨rfl, rfl, rfl⟩⟩
        rw [← hk.listen port body s]
        rcases hl : h.listen port body s with ⟨_ | _, s'⟩ <;> simp only [hl] <;> rfl
  · simpa [hm] using hnil

theorem stopMetadata (port : Option UInt16) (s : σ) :
    ∃ j : Journal, journal (Plan.stopMetadata h port s) = journal s ++ j ∧ j.IsIdle := by
  cases port with
  | none => exact ⟨[], by simp [Plan.stopMetadata], .nil⟩
  | some port => exact ⟨_, hk.unlisten port s, .singleton ⟨rfl, rfl, rfl⟩⟩

/-- After a cleanup a drop leaves nothing. -/
theorem drop_of_cleaned {g g' : Guard} {j : Journal} {r : Guard.CleanupResult}
    (hc : g.Cleaned j r g') (s : σ) : journal (g'.drop h s).2 = journal s := by
  obtain ⟨j', hadd, ⟨-, rfl, -⟩ | ⟨hatt, r', hc'⟩⟩ := hk.drop g' s
  · simpa using hadd
  -- A cleanup without an engine does not count as one, and a drop does it again: for nothing.
  · have hg : g.engine = none := by
      by_cases hg : g.engine = none
      · exact hg
      · rw [hc.attempted hg] at hatt
        cases hatt
    have hclear : g'.IsClear := by
      have hp := hc.pid_eq
      rw [hg, Option.map_none, Option.map_eq_none_iff] at hp
      simp [Guard.IsClear, hp]
    rw [(hc'.of_isClear hclear).1] at hadd
    simpa using hadd

/-- The end of a run with a fixed outcome: the cleanup, and a last look if the cleanup has a
result. -/
theorem conclude (p : Plan) (o : Outcome) (summary : Summary) (g : Guard) (s : σ) :
    ∃ (k : Journal) (x : Guard.CleanupResult) (g' : Guard), g.Cleaned k x g' ∧
      ((∃ halt, x = .error halt ∧ (p.conclude h o summary g s).1 = .error halt ∧
          journal (p.conclude h o summary g s).2 = journal s ++ k) ∨
        ∃ (r : Except Unconfirmed CleanupAction) (again : Entry) (ended : Timestamp), x = .ok r ∧
          again.deed = .looked ∧
          (p.conclude h o summary g s).1 = .ok (p.close o summary r g' again.interrupts ended) ∧
          journal (p.conclude h o summary g s).2 = journal s ++ (k ++ [again])) := by
  obtain ⟨k, hadd, hc⟩ := hk.cleanup g s
  unfold Plan.conclude
  rcases hclean : g.cleanup h s with ⟨halt | r, g', s'⟩
  · rw [hclean] at hadd hc
    refine ⟨k, _, g', hc, .inl ⟨halt, rfl, rfl, ?_⟩⟩
    exact (hk.drop_of_cleaned hc s').trans hadd
  · rw [hclean] at hadd hc
    refine ⟨k, _, g', hc, .inr ⟨r, h.entry .looked (h.look s'), h.date (h.look s'), rfl, rfl, rfl,
      ?_⟩⟩
    show journal (g'.drop h (h.look s')).2 = _
    rw [hk.drop_of_cleaned hc, hk.look, hadd, List.append_assoc]

variable {probe : σ → ProbeResult × σ} (hprobe : h.KeepsProbe journal probe)

include hprobe

theorem drive (p : Plan) (c : Configuration) (summary : Summary) {e : Engine}
    (he : e.state = .running) (s : σ) :
    ∃ j e' s' r, p.drive h c probe summary (.ofEngine e p.grace) s =
        (r, .ofEngine e' p.grace, s') ∧
      journal s' = journal s ++ j ∧ p.Driven c summary e j r e' := by
  obtain ⟨j, e', s', r, hrun, hadd, hg⟩ := hk.awaitReady hprobe p he p.grace false s
  unfold Plan.drive
  rw [Guard.ofEngine, hrun]
  cases r with
  | error halt => exact ⟨j, e', s', _, rfl, hadd, .late hg⟩
  | ok report =>
    obtain ⟨status, checks⟩ := report
    cases status with
    | timedOut => exact ⟨j, e', s', _, rfl, hadd, .timedOut hg⟩
    | engineExited => exact ⟨j, e', s', _, rfl, hadd, .gone hg⟩
    | interrupted => exact ⟨j, e', s', _, rfl, hadd, .interrupted hg⟩
    | ready =>
      obtain ⟨j', hadd', hc⟩ := hk.client p.token (p.clientCommand c) p.results s'
      refine ⟨j ++ j', e', _, _, rfl, ?_, .ready hg hc⟩
      show journal (Client.run h p.token (p.clientCommand c) p.results s').2 = _
      rw [hadd', hadd, List.append_assoc]

theorem settle (p : Plan) (c : Configuration) (summary : Summary) (s : σ) :
    ∃ j, journal (p.settle h c probe summary s).2.2 = journal s ++ j ∧
      p.Settled c summary j (p.settle h c probe summary s).1
        (p.settle h c probe summary s).2.1 := by
  unfold Plan.settle
  rcases hk.launch (p.engineCommand c) p.log s with
    ⟨j₁, launch, pid, hres, hadd, hidle, hlaunch⟩ | ⟨j, err, hres, hadd, hidle⟩
  · rcases hl : Engine.launch h (p.engineCommand c) p.log s with ⟨res, s₁⟩
    rw [hl] at hres hadd
    obtain rfl : res = _ := hres
    obtain ⟨j₂, hserved, hidle₂⟩ := hk.startMetadata p c s₁
    obtain ⟨j, e, s₃, r, hrun, hdriven, hd⟩ := hk.drive hprobe p c (summary.noteEngine pid)
      (e := .started pid p.log) rfl (p.startMetadata h c s₁).2
    obtain ⟨j₃, hstopped, hidle₃⟩ := hk.stopMetadata (p.startMetadata h c s₁).1 s₃
    have hserving : p.driveServing h c probe (summary.noteEngine pid)
        (.ofEngine (.started pid p.log) p.grace) s₁ =
          (r, .ofEngine e p.grace, Plan.stopMetadata h (p.startMetadata h c s₁).1 s₃) := by
      simp only [Plan.driveServing, hrun]
    show ∃ j, journal (p.driveServing h c probe (summary.noteEngine pid)
      (.ofEngine (.started pid p.log) p.grace) s₁).2.2 = journal s ++ j ∧ _
    refine ⟨j₁ ++ launch :: (j₂ ++ (j ++ j₃)), ?_, ?_⟩
    · rw [hserving, hstopped, hdriven, hserved, hadd]
      simp only [List.append_assoc, List.cons_append, List.nil_append]
    · show p.Settled c summary _ (p.driveServing h c probe (summary.noteEngine pid)
        (.ofEngine (.started pid p.log) p.grace) s₁).1 (p.driveServing h c probe
          (summary.noteEngine pid) (.ofEngine (.started pid p.log) p.grace) s₁).2.1
      rw [hserving]
      exact .launched hidle hlaunch hidle₂ hd hidle₃
  · rcases hl : Engine.launch h (p.engineCommand c) p.log s with ⟨res, s₁⟩
    rw [hl] at hres hadd
    obtain rfl : res = _ := hres
    exact ⟨j, hadd, .unlaunched hidle⟩

/-- Every run is one of those that `Plan.Ran` lists. -/
theorem run (p : Plan) (c : Configuration) (s : σ) :
    ∃ j, journal (p.run h c probe s).2 = journal s ++ j ∧
      j.head? = some (h.entry .looked (h.look s)) ∧ p.Ran c j (p.run h c probe s).1 := by
  unfold Plan.run
  by_cases hc : p.token.isCancelled (h.interrupts (h.look s))
  · refine ⟨[h.entry .looked (h.look s), h.entry .looked (h.look (h.look s))], ?_, rfl, ?_⟩
    · simp only [hc, if_true]
      rw [hk.look, hk.look]
      simp
    · simp only [hc, if_true]
      exact .cancelled rfl hc rfl
  have hnot : p.token.isCancelled (h.entry .looked (h.look s)).interrupts = false :=
    Bool.eq_false_iff.mpr hc
  obtain ⟨j, hadd, hs⟩ := hk.settle hprobe p c (p.begin c (h.date s)) (h.look s)
  rw [hk.look, List.append_assoc] at hadd
  simp only [hc]
  rcases hsettle : p.settle h c probe (p.begin c (h.date s)) (h.look s) with
    ⟨halt | ⟨o, summary⟩, g, s'⟩
  · rw [hsettle] at hadd hs
    -- Nothing has cleaned up yet, so the drop does.
    obtain ⟨k, hdropped, ⟨hatt, -, -⟩ | ⟨-, r, hc'⟩⟩ := hk.drop g s'
    · rw [hs.attempted_eq] at hatt
      cases hatt
    refine ⟨h.entry .looked (h.look s) :: (j ++ k), ?_, rfl, .halted rfl hnot hs hc'⟩
    show journal (g.drop h s').2 = _
    rw [hdropped, hadd]
    simp
  · rw [hsettle] at hadd hs
    obtain ⟨k, x, g', hc', ⟨halt, rfl, hr, hclosed⟩ |
      ⟨r, again, ended, rfl, hagain, hr, hclosed⟩⟩ := hk.conclude p o summary g s'
    · refine ⟨h.entry .looked (h.look s) :: (j ++ k), ?_, rfl, ?_⟩
      · show journal (p.conclude h o summary g s').2 = _
        rw [hclosed, hadd]
        simp
      · show p.Ran c _ (p.conclude h o summary g s').1
        rw [hr]
        exact .late rfl hnot hs hc'
    · refine ⟨h.entry .looked (h.look s) :: (j ++ (k ++ [again])), ?_, rfl, ?_⟩
      · show journal (p.conclude h o summary g s').2 = _
        rw [hclosed, hadd]
        simp
      · show p.Ran c _ (p.conclude h o summary g s').1
        rw [hr]
        exact .finished rfl hnot hs hc' hagain

end Host.Keeps

/-- The journal of a run and its result are among those that `Plan.Ran` lists, and the first entry
is the look for a cancellation. -/
theorem Plan.run_ran {σ : Type} (h : Host σ) (p : Plan) (c : Configuration)
    (probe : σ → ProbeResult × σ) (s : σ) :
    (p.journal h c probe s).head? = some (h.entry .looked (h.look s)) ∧
      p.Ran c (p.journal h c probe s) (p.run h c probe s).1 := by
  obtain ⟨j, hadd, hhead, hr⟩ :=
    h.journaled_keeps.run (h.journaledProbe_keeps probe) p c (s, [])
  rw [p.run_journaled h c probe s] at hadd hr
  obtain rfl : p.journal h c probe s = j := hadd
  exact ⟨hhead, hr⟩

/-! ## A run on a stage -/

namespace Stage

/-- A run with one attempt, on a new stage. -/
def plan : Plan where
  engine := ⟨"engine", []⟩
  log := default
  client := ⟨"client", []⟩
  results := default
  environment := .empty
  gate := .make (.ofSeconds 1) 1
  grace := .ofSeconds 1
  metadata := false
  token := ⟨0, false⟩

def start : Stage := ⟨0, .none, false⟩

/-- A probe that finds nothing, while the run is cancelled. -/
def cancellingProbe (s : Stage) : ProbeResult × Stage :=
  (.unreachable, { s with interrupts := s.interrupts.raise 0 })

/-- A wait for a process that got a signal ends at once. -/
theorem waitFor_eq (i : Interrupts) (d : Duration) (hd : (Host.deadline? 0 d).isSome) :
    host.waitFor ⟨2⟩ d ⟨0, i, true⟩ = (some (some (.signaled .terminate)), ⟨0, i, true⟩) := by
  obtain ⟨deadline, hd⟩ := Option.isSome_iff_exists.mp hd
  have hlook (s : Stage) : host.look s = s := rfl
  have hclock : host.clock ⟨0, i, true⟩ = 0 := rfl
  have hpoll : host.poll ⟨2⟩ ⟨0, i, true⟩ = (some (.signaled .terminate), ⟨0, i, true⟩) := rfl
  simp only [Host.waitFor, hlook, hclock, hd]
  rw [Host.waitUntil_eq, hpoll]

theorem cleanup_eq (i : Interrupts) :
    ((Guard.ofEngine (.started ⟨2⟩ default) plan.grace).cleanup host ⟨0, i, false⟩).1 =
      .ok (.ok .terminated) := by
  have hpoll : host.poll ⟨2⟩ ⟨0, i, false⟩ = (none, ⟨0, i, false⟩) := rfl
  have hterm : host.signal (.group ⟨2⟩) .terminate ⟨0, i, false⟩ = (.ok (), ⟨0, i, true⟩) := rfl
  have hwait := waitFor_eq i plan.grace (by decide)
  simp [Guard.cleanup, Guard.ofEngine, Engine.poll, Engine.started, hpoll, Guard.stopEngine,
    Engine.terminate, Engine.noteTermination, hterm, Engine.waitFor, hwait, Engine.markExited]

/-- The run has a result, though it is cancelled while it probes. -/
theorem run_isOk (c : Configuration) :
    ∃ summary, (plan.run host c cancellingProbe start).1 = .ok summary := by
  have hrun : plan.run host c cancellingProbe start =
      plan.conclude host .healthTimeout
        (((plan.begin c default).noteEngine ⟨2⟩).noteAttempts 1)
        (.ofEngine (.started ⟨2⟩ default) plan.grace) ⟨0, Interrupts.none.raise 0, false⟩ := rfl
  have hclean := cleanup_eq (Interrupts.none.raise 0)
  rw [hrun, Plan.conclude]
  rcases h : (Guard.ofEngine (.started ⟨2⟩ default) plan.grace).cleanup host
    ⟨0, Interrupts.none.raise 0, false⟩ with ⟨r, g, s⟩
  rw [h] at hclean
  cases hclean
  exact ⟨_, rfl⟩

end Stage

end EngineBench
