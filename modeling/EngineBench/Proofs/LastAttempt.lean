import EngineBench.Proofs.Spawns
import Mathlib.Logic.Relation

/-!
# What the last attempt of the gate misses

Before each attempt the gate looks for a cancellation and then at the engine. What comes later is
left to the look before the next attempt, and behind the last probe there is none.

* `HealthGate.Failed` is an attempt with another one behind it, `HealthGate.Ended` the last one;
  both go from state to state.
* `Plan.LastAttempt` is the last attempt of a run, and `Plan.Polled.lastAttempt` says that every
  run whose gate came to a report has one.
* `Plan.run_startsClient_iff` says when the client is started, `Plan.run_launchError_iff` when a run
  ends because its engine exited too early.
-/

namespace EngineBench

variable {σ : Type}

/-- A look at a process would see that it has exited. -/
def Host.HasExited (h : Host σ) (p : ProcessId) (s : σ) : Prop := (h.poll p s).1.isSome

namespace HealthGate

/-- An attempt that failed and is not the last one: no cancellation, a running engine, a vain probe,
and the whole pause behind it. -/
def Failed (g : HealthGate) (h : Host σ) (t : Token) (probe : σ → ProbeResult × σ) (p : ProcessId)
    (s s' : σ) : Prop :=
  t.isCancelled (h.interrupts (h.look s)) = false ∧
    ∃ v w, h.poll p (h.look s) = (none, v) ∧ probe v = (.unreachable, w) ∧
      t.sleep h g.interval w = (some true, s')

/-- The last attempt: the state in which it begins, what the gate says, and the state then. -/
inductive Ended (g : HealthGate) (h : Host σ) (t : Token) (probe : σ → ProbeResult × σ)
    (p : ProcessId) (u : σ) : HealthStatus → σ → Prop
  | cancelled : t.isCancelled (h.interrupts (h.look u)) = true →
      Ended g h t probe p u .interrupted (h.look u)
  | gone {status : ExitStatus} {s' : σ} : t.isCancelled (h.interrupts (h.look u)) = false →
      h.poll p (h.look u) = (some status, s') → Ended g h t probe p u .engineExited s'
  | ready {v s' : σ} : t.isCancelled (h.interrupts (h.look u)) = false →
      h.poll p (h.look u) = (none, v) → probe v = (.ready, s') → Ended g h t probe p u .ready s'
  /-- The probe was in vain, and there are no attempts left. -/
  | spent {v s' : σ} : t.isCancelled (h.interrupts (h.look u)) = false →
      h.poll p (h.look u) = (none, v) → probe v = (.unreachable, s') →
      Ended g h t probe p u .timedOut s'
  /-- The run was cancelled in the pause behind the attempt. -/
  | cut {v w s' : σ} : t.isCancelled (h.interrupts (h.look u)) = false →
      h.poll p (h.look u) = (none, v) → probe v = (.unreachable, w) →
      t.sleep h g.interval w = (some false, s') → Ended g h t probe p u .interrupted s'

/-- A gate that comes to a report made failed attempts, and then the last one. -/
theorem exists_ended {g : HealthGate} {h : Host σ} {t : Token} {probe : σ → ProbeResult × σ}
    {e : Engine} (he : e.state = .running) {grace : Duration} {attempted : Bool} {n : Nat}
    {checks : List HealthCheck} {s s' : σ} {report : HealthReport} {guard : Guard}
    (hr : g.attempt (h.extend Guard) t (Plan.probeBeside probe) (Plan.pollBeside h) (n + 1) checks
      (s, ⟨some e, grace, attempted⟩) = (.ok report, s', guard)) :
    ∃ u, Relation.ReflTransGen (g.Failed h t probe e.pid) s u ∧
      g.Ended h t probe e.pid u report.status s' := by
  -- On the attempts that are left; each but the last is one step from state to state.
  induction n using Nat.strongRecOn generalizing checks s with
  | ind n ih =>
    rw [Host.Keeps.attempt_succ] at hr
    by_cases hc : t.isCancelled (h.interrupts (h.look s))
    · simp only [hc, if_true] at hr
      cases hr
      exact ⟨s, .refl, .cancelled hc⟩
    have hnot : t.isCancelled (h.interrupts (h.look s)) = false := Bool.eq_false_iff.mpr hc
    simp only [hc] at hr
    rcases hp : h.poll e.pid (h.look s) with ⟨_ | status, v⟩
    · have hpoll : Plan.pollBeside h (h.look s, ⟨some e, grace, attempted⟩) =
          (true, v, ⟨some e, grace, attempted⟩) := by
        simp [Plan.pollBeside, Guard.isRunning, Engine.poll, he, hp]
      rw [hpoll] at hr
      rcases hprobe : probe v with ⟨_ | _, w⟩
      · simp only [hprobe] at hr
        cases hr
        exact ⟨s, .refl, .ready hnot hp hprobe⟩
      simp only [hprobe] at hr
      cases n with
      | zero =>
        cases hr
        exact ⟨s, .refl, .spent hnot hp hprobe⟩
      | succ n =>
        rcases hsleep : t.sleep h g.interval w with ⟨_ | _ | _, s₁⟩
        · simp [hsleep] at hr
        · simp only [hsleep] at hr
          cases hr
          exact ⟨s, .refl, .cut hnot hp hprobe hsleep⟩
        · simp only [hsleep] at hr
          obtain ⟨u, hfailed, hended⟩ := ih n (Nat.lt_succ_self n) hr
          exact ⟨u, .head ⟨hnot, v, w, hp, hprobe, hsleep⟩ hfailed, hended⟩
    · have hpoll : Plan.pollBeside h (h.look s, ⟨some e, grace, attempted⟩) =
          (false, v, ⟨some (e.markExited status), grace, attempted⟩) := by
        simp [Plan.pollBeside, Guard.isRunning, Engine.poll, Engine.markExited, he, hp]
      rw [hpoll] at hr
      cases hr
      exact ⟨s, .refl, .gone hnot hp⟩

end HealthGate

namespace Plan

/-- The last attempt of a run: the engine, the state in which the attempt begins, what the gate says
then, and the state in which it says so. -/
inductive LastAttempt (h : Host σ) (p : Plan) (c : Configuration) (probe : σ → ProbeResult × σ)
    (s : σ) : Engine → σ → HealthStatus → σ → Prop
  | intro {e : Engine} {s₁ u s' : σ} {status : HealthStatus} :
      p.token.isCancelled (h.interrupts (h.look s)) = false →
      Engine.launch h (p.engineCommand c) p.log (h.look s) = (.ok e, s₁) →
      Relation.ReflTransGen (p.gate.Failed h p.token probe e.pid) (p.startMetadata h c s₁).2 u →
      p.gate.Ended h p.token probe e.pid u status s' →
      LastAttempt h p c probe s e u status s'

variable {h : Host σ} {p : Plan} {c : Configuration} {probe : σ → ProbeResult × σ} {s s' : σ}

/-- A run whose gate came to a report made a last attempt, and that is where the report is from. -/
theorem Polled.lastAttempt {report : HealthReport} (hp : p.Polled h c probe s report s') :
    ∃ e u, p.LastAttempt h c probe s e u report.status s' := by
  obtain @⟨e, s₁, _, g, _, hnot, hlaunch, hgate⟩ := hp
  have hrunning := (Engine.running_of_launch hlaunch).1
  obtain ⟨n, hn⟩ : ∃ n, p.gate.maxAttempts.toNat = n + 1 := by
    have hpos : 1 ≤ p.gate.maxAttempts.toNat := p.gate.positive
    exact ⟨p.gate.maxAttempts.toNat - 1, by omega⟩
  simp only [awaitReady, HealthGate.wait, hn, Guard.ofEngine] at hgate
  rcases hattempts : p.gate.attempt (h.extend Guard) p.token (probeBeside probe) (pollBeside h)
    (n + 1) [] ((p.startMetadata h c s₁).2, ⟨some e, p.grace, false⟩) with ⟨r, s₂, g₂⟩
  rw [hattempts] at hgate
  cases hgate
  obtain ⟨u, hfailed, hended⟩ := HealthGate.exists_ended hrunning hattempts
  exact ⟨e, u, .intro hnot hlaunch hfailed hended⟩

namespace LastAttempt

variable {e : Engine} {u : σ} {status : HealthStatus}

/-- The gate says ready if the last attempt saw no cancellation and a running engine, and the probe
behind them succeeded. -/
theorem ready_iff (hl : p.LastAttempt h c probe s e u status s') :
    status = .ready ↔ p.token.isCancelled (h.interrupts (h.look u)) = false ∧
      ∃ v, h.poll e.pid (h.look u) = (none, v) ∧ probe v = (.ready, s') := by
  cases hl with
  | intro _ _ _ hended =>
    cases hended with
    | cancelled hcan => simp [hcan]
    | gone _ hpoll => simp [hpoll]
    | ready hnot hpoll hprobe => simp [hnot, hpoll, hprobe]
    | spent _ hpoll hprobe => simp [hpoll, hprobe]
    | cut _ hpoll hprobe _ => simp [hpoll, hprobe]

/-- The gate says that the engine is gone if the last attempt saw no cancellation, and its look at
the engine an exit. -/
theorem engineExited_iff (hl : p.LastAttempt h c probe s e u status s') :
    status = .engineExited ↔ p.token.isCancelled (h.interrupts (h.look u)) = false ∧
      h.HasExited e.pid (h.look u) := by
  cases hl with
  | intro _ _ _ hended =>
    cases hended with
    | cancelled hcan => simp [hcan]
    | gone hnot hpoll => simp [hnot, Host.HasExited, hpoll]
    | ready _ hpoll _ => simp [Host.HasExited, hpoll]
    | spent _ hpoll _ => simp [Host.HasExited, hpoll]
    | cut _ hpoll _ _ => simp [Host.HasExited, hpoll]

/-- Without an exit and without a cancellation the gate says what the last probe found. -/
theorem probed (hl : p.LastAttempt h c probe s e u status s')
    (halive : ¬ h.HasExited e.pid (h.look u)) (hnot : status ≠ .interrupted) :
    ∃ v r, h.poll e.pid (h.look u) = (none, v) ∧ probe v = (r, s') ∧
      status = match r with
        | .ready => .ready
        | .unreachable => .timedOut := by
  cases hl with
  | intro _ _ _ hended =>
    cases hended with
    | cancelled _ => exact absurd rfl hnot
    | gone _ hpoll => exact absurd (by simp [Host.HasExited, hpoll]) halive
    | ready _ hpoll hprobe => exact ⟨_, _, hpoll, hprobe, rfl⟩
    | spent _ hpoll hprobe => exact ⟨_, _, hpoll, hprobe, rfl⟩
    | cut _ _ _ _ => exact absurd rfl hnot

/-- Where a cancellation is seen, the gate says so. -/
theorem interrupted_of_cancelled (hl : p.LastAttempt h c probe s e u status s')
    (hcan : p.token.isCancelled (h.interrupts (h.look u)) = true) : status = .interrupted := by
  cases hl with
  | intro _ _ _ hended =>
    cases hended with
    | cancelled _ => rfl
    | gone hnot _ => rw [hnot] at hcan; cases hcan
    | ready hnot _ _ => rw [hnot] at hcan; cases hcan
    | spent hnot _ _ => rw [hnot] at hcan; cases hcan
    | cut _ _ _ _ => rfl

end LastAttempt

end Plan

/-! ## Two probes on a stage -/

namespace Stage

/-- A probe that succeeds, while the run is cancelled. -/
def cancelledReady (s : Stage) : ProbeResult × Stage :=
  (.ready, { s with interrupts := s.interrupts.raise 0 })

/-- A probe that succeeds, while the engine exits. -/
def exitedReady (s : Stage) : ProbeResult × Stage := (.ready, { s with ended := true })

/-- The run has a result, though the engine exits while it is probed: the client fails. -/
theorem run_exitedReady (c : Configuration) :
    ∃ summary, (plan.run host c exitedReady start).1 = .ok summary ∧
      summary.outcome = .benchmarkError := by
  have hclient : Client.run host plan.token (plan.clientCommand c) plan.results
      ⟨0, .none, true⟩ = (.ok (.error (.failed (.signaled .terminate))), ⟨0, .none, true⟩) := by
    show Client.watch host plan.token ⟨2⟩ ⟨0, .none, true⟩ = _
    rw [Client.watch_eq]
    rfl
  have hdrive (summary : Summary) : plan.drive host c exitedReady summary
      (.ofEngine (.started ⟨2⟩ default) plan.grace) start =
        (.ok (.benchmarkError, (summary.noteAttempts 1).noteClient (.signaled .terminate)),
          .ofEngine (.started ⟨2⟩ default) plan.grace, ⟨0, .none, true⟩) := by
    show (let (result, s) := plan.runClient host c (summary.noteAttempts 1) ⟨0, .none, true⟩
      (result, Guard.ofEngine (.started ⟨2⟩ default) plan.grace, s)) = _
    rw [Plan.runClient, hclient]
    rfl
  have hnot : plan.token.isCancelled (host.interrupts (host.look start)) = false := rfl
  have hlaunch : Engine.launch host (plan.engineCommand c) plan.log (host.look start) =
      (.ok (.started ⟨2⟩ default), start) := rfl
  have hmetadata : plan.startMetadata host c start = (none, start) := rfl
  simp only [Plan.run, hnot, Plan.settle, hlaunch, Plan.driveServing, hmetadata, hdrive]
  exact ⟨_, rfl, rfl⟩

end Stage

/-! ## What is started, and when an exit ends the run -/

namespace Plan

/-- What a run starts when it is cancelled: nothing, if that is seen before its engine is started,
and no client, if it is seen before the last attempt. What the last probe found decides about the
client alone, whatever was requested meanwhile. -/
theorem run_startsClient_iff (h : Host σ) (p : Plan) (c : Configuration)
    (probe : σ → ProbeResult × σ) (s : σ) :
    (p.token.isCancelled (h.interrupts (h.look s)) = true →
        (p.journal h c probe s).spawns = []) ∧
      ((p.clientCommand c, .inherited) ∈ (p.journal h c probe s).spawns →
        ∃ report s', p.Polled h c probe s report s') ∧
      ∀ report s', p.Polled h c probe s report s' →
        ∃ e u, p.LastAttempt h c probe s e u report.status s' ∧
          ((p.clientCommand c, .inherited) ∈ (p.journal h c probe s).spawns ↔
            p.token.isCancelled (h.interrupts (h.look u)) = false ∧
              ∃ v, h.poll e.pid (h.look u) = (none, v) ∧ probe v = (.ready, s')) := by
  refine ⟨spawns_of_cancelled c probe, ?_, ?_⟩
  · intro hmem
    obtain ⟨report, s', hp, -⟩ := client_mem_spawns_iff.mp hmem
    exact ⟨report, s', hp⟩
  · intro report s' hp
    obtain ⟨e, u, hlast⟩ := hp.lastAttempt
    refine ⟨e, u, hlast, ?_⟩
    rw [← hlast.ready_iff, spawns_of_polled hp]
    by_cases hready : report.status = .ready <;> simp [hready]

/-- On a stage the client is started though the run was cancelled during the last probe. -/
theorem run_startsClient_iff_stage :
    ∃ report s', Stage.plan.Polled Stage.host default Stage.cancelledReady Stage.start report s' ∧
      Stage.plan.token.isCancelled (Stage.host.interrupts s') = true ∧
      (Stage.plan.clientCommand default, .inherited) ∈
        (Stage.plan.journal Stage.host default Stage.cancelledReady Stage.start).spawns := by
  have hp : Stage.plan.Polled Stage.host default Stage.cancelledReady Stage.start
      ⟨.ready, [⟨1, .ready⟩]⟩ (Stage.cancelledReady Stage.start).2 := .intro rfl rfl rfl
  obtain ⟨e, u, hlast, hiff⟩ := (run_startsClient_iff Stage.host Stage.plan default
    Stage.cancelledReady Stage.start).2.2 _ _ hp
  exact ⟨_, _, hp, rfl, hiff.mpr (hlast.ready_iff.mp rfl)⟩

/-- The verdicts that come from the gate alone: that the engine is gone, and that the attempts are
used up. -/
theorem outcome_of_polled {h : Host σ} {p : Plan} {c : Configuration}
    {probe : σ → ProbeResult × σ} {s s' : σ} {summary : Summary} {report : HealthReport}
    (hr : (p.run h c probe s).1 = .ok summary) (hp : p.Polled h c probe s report s') :
    (summary.outcome = .launchError ↔ report.status = .engineExited) ∧
      (summary.outcome = .healthTimeout ↔ report.status = .timedOut) := by
  obtain ⟨sum, hverdict⟩ := verdict?_of_polled hp
  rw [p.verdict?_eq h c probe s hr] at hverdict
  cases hstatus : report.status with
  | ready =>
    rw [hstatus] at hverdict
    rcases hclient : (Client.run h p.token (p.clientCommand c) p.results s').1 with
      halt | failure | status
    · rw [hclient] at hverdict
      cases hverdict
    · rw [hclient] at hverdict
      cases failure <;> simp [Option.some.inj hverdict]
    · rw [hclient] at hverdict
      simp [Option.some.inj hverdict]
  | _ =>
    rw [hstatus] at hverdict
    simp [Option.some.inj hverdict]

/-- A run that is not interrupted at its gate ends because its engine exited too early, without a
client, exactly if the exit showed at the last attempt. With a later one the last probe decides: if
it succeeded the client is started, otherwise the attempts are used up. -/
theorem run_launchError_iff (h : Host σ) (p : Plan) (c : Configuration)
    (probe : σ → ProbeResult × σ) (s : σ) {summary : Summary}
    (hr : (p.run h c probe s).1 = .ok summary) {report : HealthReport} {s' : σ}
    (hp : p.Polled h c probe s report s') (hnot : report.status ≠ .interrupted) :
    ∃ e u, p.LastAttempt h c probe s e u report.status s' ∧
      (h.HasExited e.pid (h.look u) ↔
        summary.outcome = .launchError ∧
          (p.clientCommand c, .inherited) ∉ (p.journal h c probe s).spawns) ∧
      (¬ h.HasExited e.pid (h.look u) →
        ∃ v r, h.poll e.pid (h.look u) = (none, v) ∧ probe v = (r, s') ∧
          match r with
          | .ready => (p.clientCommand c, .inherited) ∈ (p.journal h c probe s).spawns
          | .unreachable => summary.outcome = .healthTimeout) := by
  obtain ⟨e, u, hlast⟩ := hp.lastAttempt
  obtain ⟨hgone, hspent⟩ := outcome_of_polled hr hp
  have hseen : p.token.isCancelled (h.interrupts (h.look u)) = false :=
    Bool.eq_false_iff.mpr fun hcan => hnot (hlast.interrupted_of_cancelled hcan)
  have hexited : report.status = .engineExited ↔ h.HasExited e.pid (h.look u) := by
    rw [hlast.engineExited_iff]
    exact and_iff_right hseen
  refine ⟨e, u, hlast, ?_, ?_⟩
  · rw [hgone, spawns_of_polled hp, ← hexited]
    refine (and_iff_left_of_imp fun hstatus => ?_).symm
    simp [hstatus]
  · intro halive
    obtain ⟨v, r, hpoll, hprobe, hstatus⟩ := hlast.probed halive hnot
    refine ⟨v, r, hpoll, hprobe, ?_⟩
    cases r with
    | ready =>
      rw [spawns_of_polled hp, hstatus]
      simp
    | unreachable => exact hspent.mpr hstatus

/-- On a stage a benchmark is run though its engine exited during the last probe. -/
theorem run_launchError_iff_stage :
    ∃ summary report s',
      (Stage.plan.run Stage.host default Stage.exitedReady Stage.start).1 = .ok summary ∧
        Stage.plan.Polled Stage.host default Stage.exitedReady Stage.start report s' ∧
        report.status ≠ .interrupted ∧ Stage.host.HasExited ⟨2⟩ s' ∧
        summary.outcome ≠ .launchError ∧
        (Stage.plan.clientCommand default, .inherited) ∈
          (Stage.plan.journal Stage.host default Stage.exitedReady Stage.start).spawns := by
  have hp : Stage.plan.Polled Stage.host default Stage.exitedReady Stage.start
      ⟨.ready, [⟨1, .ready⟩]⟩ (Stage.exitedReady Stage.start).2 := .intro rfl rfl rfl
  obtain ⟨summary, hr, ho⟩ := Stage.run_exitedReady default
  obtain ⟨e, u, hlast, -, hlater⟩ := run_launchError_iff Stage.host Stage.plan default
    Stage.exitedReady Stage.start hr hp nofun
  obtain ⟨-, v, hpoll, -⟩ := hlast.ready_iff.mp rfl
  obtain ⟨v', r, -, hprobe, hstarted⟩ := hlater (by simp [Host.HasExited, hpoll])
  -- The probe of the stage always succeeds.
  obtain rfl : r = .ready := (congrArg Prod.fst hprobe).symm
  exact ⟨summary, _, _, hr, hp, nofun, rfl, by simp [ho], hstarted⟩

end Plan

end EngineBench
