import EngineBench.Proofs.Run

/-!
# Summaries do not contradict themselves

The fields of a summary are filled in one by one by the parts of a run, starting from a summary that
already says that all went well.

* `Summary.Consistent` says what holds between the fields of a summary at the end of a run.
* `Plan.Noted` lists what a summary may say when the outcome is there; the cleanup adds to it.
* `Plan.run_consistent` says that every run has a consistent summary, if it has one.
-/

namespace EngineBench

/-- What holds between the fields of the summary of a run that is over. The run is told by its plan
and its journal, and `early` says that it was cancelled before anything was started. -/
structure Summary.Consistent (s : Summary) (p : Plan) (j : Journal) (early : Prop) : Prop where
  exitCode : s.exitCode = 0 ↔ s.outcome = .success
  success : s.outcome = .success ↔ s.clientExitCode = some 0
  clientFailure (code : Int32) : s.clientExitCode = some code → code ≠ 0 →
    s.outcome = .benchmarkError
  engineState : s.enginePid.isSome ↔ s.engineState.isSome
  healthAttempts : s.enginePid.isSome ↔ s.healthAttempts.isSome
  healthTimeout : s.outcome = .healthTimeout → s.healthAttempts = some p.gate.maxAttempts
  nothingToDo : s.cleanup = some .nothingToDo ↔ s.outcome = .launchError ∧ s.enginePid = none
  engineGone : s.outcome = .launchError → s.enginePid.isSome → s.cleanup = some .alreadyExited
  /-- The cleanup is noted exactly if the run got that far. -/
  cleanupMissing : s.cleanup = none ∧ s.cleanupError = none ↔ early
  /-- The cleanup is not noted twice. -/
  cleanupOnce : s.cleanup = none ∨ s.cleanupError = none
  running : s.engineState = some .running ↔ s.cleanupError.isSome
  interruptedBy : s.interruptedBy.isSome → s.outcome = .interrupted
  configError : s.outcome ≠ .configError
  /-- A run is interrupted only where a cancellation was requested. -/
  interrupted : s.outcome = .interrupted → ∃ a ∈ j, p.token.isCancelled a.interrupts = true

namespace Plan

/-- What a summary says of a run with a fixed outcome, before the cleanup of its guard. -/
inductive Noted (p : Plan) (j : Journal) : Outcome → Summary → Guard → Prop
  | unlaunched {s : Summary} : s.enginePid = none → s.healthAttempts = none →
      s.clientExitCode = none → Noted p j .launchError s .empty
  /-- The engine exited at the gate. -/
  | gone {s : Summary} {e : Engine} : s.enginePid.isSome → s.healthAttempts.isSome →
      s.clientExitCode = none → e.state = .exited →
      Noted p j .launchError s (.ofEngine e p.grace)
  | timedOut {s : Summary} {e : Engine} : s.enginePid.isSome →
      s.healthAttempts = some p.gate.maxAttempts → s.clientExitCode = none →
      e.state = .running → Noted p j .healthTimeout s (.ofEngine e p.grace)
  | interrupted {s : Summary} {e : Engine} : s.enginePid.isSome → s.healthAttempts.isSome →
      s.clientExitCode = none → e.state = .running →
      (∃ a ∈ j, p.token.isCancelled a.interrupts = true) →
      Noted p j .interrupted s (.ofEngine e p.grace)
  | failed {s : Summary} {e : Engine} : s.enginePid.isSome → s.healthAttempts.isSome →
      s.clientExitCode ≠ some 0 → e.state = .running →
      Noted p j .benchmarkError s (.ofEngine e p.grace)
  | success {s : Summary} {e : Engine} : s.enginePid.isSome → s.healthAttempts.isSome →
      s.clientExitCode = some 0 → e.state = .running →
      Noted p j .success s (.ofEngine e p.grace)

/-! ## Up to the outcome -/

section

variable {p : Plan} {c : Configuration} {summary s : Summary} {e e' : Engine} {j : Journal}
  {o : Outcome} {g : Guard}

/-- Exit codes and the numbers of signals are noted as they are. -/
theorem toInt_ofNat_toNat (n : UInt8) : (Int32.ofNat n.toNat).toInt = n.toNat :=
  Int32.toInt_ofNat_of_lt (Nat.lt_of_lt_of_le n.toNat_lt (by decide))

/-- The exit code that is noted for a client is zero exactly if the client exited with success. -/
theorem noteClient_eq_zero_iff (s : Summary) (status : ExitStatus) :
    (s.noteClient status).clientExitCode = some 0 ↔ status.isSuccess = true := by
  cases status with
  | signaled g => simp [Summary.noteClient, ExitStatus.code?, ExitStatus.isSuccess]
  | exited code =>
    have hzero : Int32.ofNat code.toNat = 0 ↔ code = 0 := by
      rw [← Int32.toInt_inj, toInt_ofNat_toNat, ← UInt8.toNat_inj]
      simp
    simpa [Summary.noteClient, ExitStatus.code?, ExitStatus.isSuccess] using hzero

/-- Between the start and the stop of an engine the summary is noted as the outcome asks for. -/
theorem Driven.noted (hd : p.Driven c summary e j (.ok (o, s)) e') (he : e.state = .running)
    (hpid : summary.enginePid.isSome) (hclient : summary.clientExitCode = none) :
    p.Noted j o s (.ofEngine e' p.grace) := by
  -- The gate knows of an exit only where it says so.
  have hstill {n : Nat} {all checks : List HealthCheck} {j : Journal} {status : HealthStatus}
      (hg : p.gate.Gated p.token e n checks j (.ok ⟨status, all⟩) e')
      (hs : status ≠ .engineExited) : e'.state = .running := by
    rcases hg.engine with ⟨rfl, -, -⟩ | ⟨_, _, _, _, -, -, -, -, hr⟩
    · exact he
    · cases hr
      exact absurd rfl hs
  generalize hr : Except.ok (o, s) = r at hd
  cases hd with
  | late _ => cases hr
  | timedOut hg =>
    cases hr
    refine .timedOut hpid ?_ hclient (hstill hg nofun)
    rw [Summary.noteAttempts, hg.length_of_timedOut rfl, List.length_nil, Nat.zero_add,
      UInt32.ofNat_toNat]
  | gone hg =>
    cases hr
    refine .gone hpid rfl hclient ?_
    rcases hg.engine with ⟨-, -, hno⟩ | ⟨status, _, _, _, rfl, -, -, -, -⟩
    · exact absurd rfl (hno _ rfl)
    · rfl
  | interrupted hg =>
    cases hr
    exact .interrupted hpid rfl hclient (hstill hg nofun) (hg.cancelled_of_interrupted rfl)
  | @ready j j' checks _ x hg hc =>
    have hrun := hstill hg nofun
    rcases x with halt | failure | status
    · cases hr
    · cases failure with
      | interrupted =>
        cases hr
        obtain ⟨a, ha, hcan⟩ := hc.cancelled_of_interrupted rfl
        exact .interrupted hpid rfl hclient hrun ⟨a, List.mem_append_right _ ha, hcan⟩
      | failed status =>
        cases hr
        refine .failed hpid rfl ?_ hrun
        rw [Ne, noteClient_eq_zero_iff, hc.not_isSuccess rfl]
        exact nofun
      | spawn program err =>
        cases hr
        exact .failed hpid rfl (by rw [Summary.noteAttempts, hclient]; exact nofun) hrun
      | lost err =>
        cases hr
        exact .failed hpid rfl (by rw [Summary.noteAttempts, hclient]; exact nofun) hrun
    · cases hr
      exact .success hpid rfl ((noteClient_eq_zero_iff _ _).mpr (hc.isSuccess rfl)) hrun

theorem Noted.mono {j' : Journal} (hn : p.Noted j o s g) (hj : ∀ a ∈ j, a ∈ j') :
    p.Noted j' o s g := by
  cases hn with
  | unlaunched hp ha hc => exact .unlaunched hp ha hc
  | gone hp ha hc he => exact .gone hp ha hc he
  | timedOut hp ha hc he => exact .timedOut hp ha hc he
  | interrupted hp ha hc he hcan =>
    obtain ⟨a, hmem, hcan⟩ := hcan
    exact .interrupted hp ha hc he ⟨a, hj a hmem, hcan⟩
  | failed hp ha hc he => exact .failed hp ha hc he
  | success hp ha hc he => exact .success hp ha hc he

theorem Settled.noted (hs : p.Settled c summary j (.ok (o, s)) g) (hpid : summary.enginePid = none)
    (hattempts : summary.healthAttempts = none) (hclient : summary.clientExitCode = none) :
    p.Noted j o s g := by
  cases hs with
  | unlaunched _ => exact .unlaunched hpid hattempts hclient
  | launched _ _ _ hd _ =>
    refine (hd.noted rfl rfl hclient).mono fun a ha => ?_
    simp [ha]

end

/-! ## What the outcome tells -/

namespace Noted

variable {p : Plan} {j : Journal} {o : Outcome} {s : Summary} {g : Guard}

theorem success_iff (hn : p.Noted j o s g) : o = .success ↔ s.clientExitCode = some 0 := by
  cases hn <;> simp_all

theorem clientFailure (hn : p.Noted j o s g) {code : Int32} (hs : s.clientExitCode = some code)
    (hcode : code ≠ 0) : o = .benchmarkError := by
  cases hn <;> simp_all

theorem healthAttempts (hn : p.Noted j o s g) : s.enginePid.isSome ↔ s.healthAttempts.isSome := by
  cases hn <;> simp_all

theorem engine (hn : p.Noted j o s g) : s.enginePid.isSome ↔ g.engine.isSome := by
  cases hn <;> simp_all [Guard.empty, Guard.ofEngine]

theorem healthTimeout (hn : p.Noted j o s g) (ho : o = .healthTimeout) :
    s.healthAttempts = some p.gate.maxAttempts := by
  cases hn <;> simp_all

/-- The launch failed exactly if there is nothing left to stop. -/
theorem isClear_iff (hn : p.Noted j o s g) : g.IsClear ↔ o = .launchError := by
  cases hn <;> simp_all [Guard.IsClear, Guard.empty, Guard.ofEngine]

/-- There is no engine exactly if it could not be started. -/
theorem engine_eq_none_iff (hn : p.Noted j o s g) :
    g.engine = none ↔ o = .launchError ∧ s.enginePid = none := by
  cases hn <;> simp_all [Guard.empty, Guard.ofEngine]
  rintro h
  simp_all

theorem ne_configError (hn : p.Noted j o s g) : o ≠ .configError := by
  cases hn <;> exact nofun

theorem cancelled_of_interrupted (hn : p.Noted j o s g) (ho : o = .interrupted) :
    ∃ a ∈ j, p.token.isCancelled a.interrupts = true := by
  cases hn with
  | interrupted _ _ _ _ hcan => exact hcan
  | unlaunched _ _ _ => cases ho
  | gone _ _ _ _ => cases ho
  | timedOut _ _ _ _ => cases ho
  | failed _ _ _ _ => cases ho
  | success _ _ _ _ => cases ho

end Noted

/-! ## The whole run -/

theorem exitCode_eq_zero_iff (o : Outcome) : Int32.ofNat o.exitCode = 0 ↔ o = .success := by
  cases o <;> decide

/-- The cleanup and the close of a summary make it consistent. -/
theorem consistent_of_noted {p : Plan} {j j' k : Journal} {o : Outcome} {s : Summary}
    {r : Except Unconfirmed CleanupAction} {g g' : Guard} (hn : p.Noted j o s g)
    (hopen : s.IsOpen) (hc : g.Cleaned k (.ok r) g') (hj : ∀ a ∈ j, a ∈ j') (i : Interrupts)
    (now : Timestamp) : (p.close o s r g' i now).Consistent p j' False := by
  have hcleanup := close_cleanup p o s r g' i now hopen
  have herror := close_cleanupError p o s r g' i now hopen
  have hsome : g'.engine.isSome = g.engine.isSome := by
    have hp := congrArg Option.isSome hc.pid_eq
    simpa only [Option.isSome_map] using hp
  exact {
    exitCode := exitCode_eq_zero_iff o
    success := by
      rw [close_clientExitCode]
      exact hn.success_iff
    clientFailure := by
      intro code hcode hne
      rw [close_clientExitCode] at hcode
      exact hn.clientFailure hcode hne
    engineState := by
      rw [close_enginePid, close_engineState, Option.isSome_map, hsome]
      exact hn.engine
    healthAttempts := by
      rw [close_enginePid, close_healthAttempts]
      exact hn.healthAttempts
    healthTimeout := by
      intro ho
      rw [close_healthAttempts]
      exact hn.healthTimeout ho
    nothingToDo := by
      rw [hcleanup, close_enginePid, close_outcome, ← hn.engine_eq_none_iff,
        ← hc.nothingToDo_iff]
      cases r <;> simp
    engineGone := by
      intro ho hp
      rw [close_enginePid] at hp
      obtain ⟨-, hr, -⟩ := hc.of_isClear (hn.isClear_iff.mpr ho)
      cases hr
      rw [hcleanup]
      simp [Guard.clearAction, hn.engine.mp hp]
    cleanupMissing := by
      rw [hcleanup, herror]
      cases r <;> simp
    cleanupOnce := by
      rw [hcleanup, herror]
      cases r
      · exact .inl rfl
      · exact .inr rfl
    running := by
      rw [herror, close_engineState, ← Guard.not_isClear_iff, ← hc.ok_iff]
      cases r <;> simp
    interruptedBy := by
      intro hi
      by_cases ho : o = .interrupted
      · exact ho
      · rw [close_interruptedBy p o s r g' i now hopen ho] at hi
        cases hi
    configError := hn.ne_configError
    interrupted := by
      intro ho
      obtain ⟨a, ha, hcan⟩ := hn.cancelled_of_interrupted ho
      exact ⟨a, hj a ha, hcan⟩ }

/-- The summary of a run that was cancelled before anything was started is consistent. -/
theorem consistent_of_cancelled {p : Plan} {c : Configuration} {look : Entry} {j : Journal}
    (hcan : p.token.isCancelled look.interrupts = true) (hlook : look ∈ j)
    (signal : Option Signal) (began ended : Timestamp) :
    (((p.begin c began).noteSignal signal).finish .interrupted ended).Consistent p j True where
  exitCode := exitCode_eq_zero_iff .interrupted
  success := iff_of_false nofun nofun
  clientFailure _ := nofun
  engineState := Iff.rfl
  healthAttempts := Iff.rfl
  healthTimeout := nofun
  nothingToDo := iff_of_false nofun fun h => nomatch h.1
  engineGone := nofun
  cleanupMissing := iff_of_true ⟨rfl, rfl⟩ trivial
  cleanupOnce := .inl rfl
  running := iff_of_false nofun nofun
  interruptedBy _ := rfl
  configError := nofun
  interrupted _ := ⟨look, hlook, hcan⟩

theorem Ran.consistent {p : Plan} {c : Configuration} {j : Journal} {r : Except Halt Summary}
    (hr : p.Ran c j r) {look : Entry} (hlook : j.head? = some look) {summary : Summary}
    (hs : r = .ok summary) :
    summary.Consistent p j (p.token.isCancelled look.interrupts = true) := by
  cases hr with
  | cancelled _ hcan _ =>
    cases hs
    cases hlook
    rw [eq_true hcan]
    exact consistent_of_cancelled hcan List.mem_cons_self _ _ _
  | halted _ _ _ _ => cases hs
  | late _ _ _ _ => cases hs
  | @finished _ again j k began ended o sum r g g' _ hnot hset hc _ =>
    cases hs
    cases hlook
    rw [eq_false (by rw [hnot]; exact nofun : ¬ p.token.isCancelled look.interrupts = true)]
    have hopen := hset.isOpen (begin_isOpen p c began) rfl
    refine consistent_of_noted (hset.noted rfl rfl rfl) hopen hc (fun a ha => ?_) _ _
    simp [ha]

/-- The summary of every run does not contradict itself. -/
theorem run_consistent {σ : Type} (h : Host σ) (p : Plan) (c : Configuration)
    (probe : σ → ProbeResult × σ) (s : σ) {summary : Summary}
    (hr : (p.run h c probe s).1 = .ok summary) :
    summary.Consistent p (p.journal h c probe s)
      (p.token.isCancelled (h.interrupts (h.look s)) = true) := by
  obtain ⟨hhead, hran⟩ := p.run_ran h c probe s
  exact hran.consistent hhead hr

theorem run_consistent_stage :
    ∃ summary, (Stage.plan.run Stage.host default Stage.cancellingProbe Stage.start).1 =
        .ok summary ∧
      summary.Consistent Stage.plan
        (Stage.plan.journal Stage.host default Stage.cancellingProbe Stage.start)
        (Stage.plan.token.isCancelled (Stage.host.interrupts (Stage.host.look Stage.start)) =
          true) := by
  obtain ⟨summary, hr⟩ := Stage.run_isOk default
  exact ⟨summary, hr,
    run_consistent Stage.host Stage.plan default Stage.cancellingProbe Stage.start hr⟩

end Plan

end EngineBench
