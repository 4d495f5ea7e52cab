import EngineBench.Proofs.RunTeardown

/-!
# When an interruption gets lost

A cancellation is looked for before each attempt of the gate and in the pauses between attempts, but
not after the last probe: then the run is over, or the client is started. What was requested by then
may be overtaken.

* `Host.Preserves` says that no operation of a host takes a property of its state back, so no run
  does; `Host.restrict` is the host on the states with that property.
* `Host.Step` is any operation; `Host.journaled_step` says what one is beside a journal.
* `Plan.Polled` tells where the gate of a run stopped polling, `Plan.Loses` what overtakes a
  cancellation that was requested by then.
* `Plan.run_interrupted_iff` says that nothing else does.
-/

namespace EngineBench

namespace Host

variable {σ : Type} {h : Host σ} {P : σ → Prop}

/-- No operation of a host takes a property of its state back. -/
structure Preserves (h : Host σ) (P : σ → Prop) : Prop where
  look (s : σ) : P s → P (h.look s)
  sleep (d : Duration) (s : σ) : P s → P (h.sleep d s)
  watchSignals (s : σ) : P s → P (h.watchSignals s)
  makeDirectories (p : Path) (s : σ) : P s → P (h.makeDirectories p s).2
  emptyFile (p : Path) (s : σ) : P s → P (h.emptyFile p s).2
  writeFile (p : Path) (content : Bytes) (s : σ) : P s → P (h.writeFile p content s).2
  spawn (c : Command) (k : Sink) (s : σ) : P s → P (h.spawn c k s).2
  poll (p : ProcessId) (s : σ) : P s → P (h.poll p s).2
  wait (p : ProcessId) (s : σ) : P s → P (h.wait p s).2
  signal (t : Target) (g : Signal) (s : σ) : P s → P (h.signal t g s).2
  connect (port : UInt16) (s : σ) : P s → P (h.connect port s).2
  listen (port : UInt16) (body : String) (s : σ) : P s → P (h.listen port body s).2
  unlisten (port : UInt16) (s : σ) : P s → P (h.unlisten port s)
  print (text : String) (s : σ) : P s → P (h.print text s).2
  complain (text : String) (s : σ) : P s → P (h.complain text s)

/-- The host on the states with a property that it preserves. -/
def restrict (h : Host σ) (P : σ → Prop) (hp : h.Preserves P) : Host {s // P s} where
  clock s := h.clock s
  date s := h.date s
  interrupts s := h.interrupts s
  look s := ⟨h.look s, hp.look s s.2⟩
  sleep d s := ⟨h.sleep d s, hp.sleep d s s.2⟩
  watchSignals s := ⟨h.watchSignals s, hp.watchSignals s s.2⟩
  getVariable name s := h.getVariable name s
  workingDirectory s := h.workingDirectory s
  isFile p s := h.isFile p s
  readFile p s := h.readFile p s
  makeDirectories p s := ((h.makeDirectories p s).1, ⟨_, hp.makeDirectories p s s.2⟩)
  emptyFile p s := ((h.emptyFile p s).1, ⟨_, hp.emptyFile p s s.2⟩)
  writeFile p content s := ((h.writeFile p content s).1, ⟨_, hp.writeFile p content s s.2⟩)
  spawn c k s := ((h.spawn c k s).1, ⟨_, hp.spawn c k s s.2⟩)
  poll p s := ((h.poll p s).1, ⟨_, hp.poll p s s.2⟩)
  wait p s := ((h.wait p s).1, ⟨_, hp.wait p s s.2⟩)
  signal t g s := ((h.signal t g s).1, ⟨_, hp.signal t g s s.2⟩)
  connect port s := ((h.connect port s).1, ⟨_, hp.connect port s s.2⟩)
  listen port body s := ((h.listen port body s).1, ⟨_, hp.listen port body s s.2⟩)
  unlisten port s := ⟨h.unlisten port s, hp.unlisten port s s.2⟩
  print text s := ((h.print text s).1, ⟨_, hp.print text s s.2⟩)
  complain text s := ⟨h.complain text s, hp.complain text s s.2⟩
  clock_look s := h.clock_look s
  clock_poll p s := h.clock_poll p s
  clock_sleep d s := h.clock_sleep d s

theorem restrict_sees (hp : h.Preserves P) : (h.restrict P hp).Sees h Subtype.val where
  clock _ := rfl
  date _ := rfl
  interrupts _ := rfl
  look _ := rfl
  sleep _ _ := rfl
  makeDirectories _ _ := rfl
  emptyFile _ _ := rfl
  spawn _ _ _ := rfl
  poll _ _ := rfl
  wait _ _ := rfl
  signal _ _ _ := rfl
  listen _ _ _ := rfl
  unlisten _ _ := rfl

/-- What a host preserves holds after a client was run. -/
theorem Preserves.client (hp : h.Preserves P) (t : Token) (c : Command) (results : Path) {s : σ}
    (hs : P s) : P (Client.run h t c results s).2 := by
  have hrun := (restrict_sees hp).client t c results ⟨s, hs⟩
  rw [show Client.run h t c results s = _ from hrun]
  exact (Client.run (h.restrict P hp) t c results ⟨s, hs⟩).2.2

/-- What a host preserves holds after a run, if the probe preserves it too. -/
theorem Preserves.run (hp : h.Preserves P) {probe : σ → ProbeResult × σ}
    (hprobe : ∀ s, P s → P (probe s).2) (p : Plan) (c : Configuration) {s : σ} (hs : P s) :
    P (p.run h c probe s).2 := by
  let probe' (s : {s // P s}) : ProbeResult × {s // P s} := ((probe s).1, ⟨_, hprobe s s.2⟩)
  have hrun : p.run h c probe s = (p.run (h.restrict P hp) c probe' ⟨s, hs⟩).map id Subtype.val :=
    (restrict_sees hp).run (fun _ => rfl) p c ⟨s, hs⟩
  rw [hrun]
  exact (p.run (h.restrict P hp) c probe' ⟨s, hs⟩).2.2

/-! ## Steps of hosts -/

/-- What one operation makes of a state. -/
inductive Step (h : Host σ) : σ → σ → Prop
  | look (s : σ) : Step h s (h.look s)
  | sleep (d : Duration) (s : σ) : Step h s (h.sleep d s)
  | watchSignals (s : σ) : Step h s (h.watchSignals s)
  | makeDirectories (p : Path) (s : σ) : Step h s (h.makeDirectories p s).2
  | emptyFile (p : Path) (s : σ) : Step h s (h.emptyFile p s).2
  | writeFile (p : Path) (content : Bytes) (s : σ) : Step h s (h.writeFile p content s).2
  | spawn (c : Command) (k : Sink) (s : σ) : Step h s (h.spawn c k s).2
  | poll (p : ProcessId) (s : σ) : Step h s (h.poll p s).2
  | wait (p : ProcessId) (s : σ) : Step h s (h.wait p s).2
  | signal (t : Target) (g : Signal) (s : σ) : Step h s (h.signal t g s).2
  | connect (port : UInt16) (s : σ) : Step h s (h.connect port s).2
  | listen (port : UInt16) (body : String) (s : σ) : Step h s (h.listen port body s).2
  | unlisten (port : UInt16) (s : σ) : Step h s (h.unlisten port s)
  | print (text : String) (s : σ) : Step h s (h.print text s).2
  | complain (text : String) (s : σ) : Step h s (h.complain text s)

/-- A host preserves what each step does. -/
theorem preserves_iff : h.Preserves P ↔ ∀ s s', h.Step s s' → P s → P s' := by
  constructor
  · intro hp s s' hstep
    cases hstep with
    | look s => exact hp.look s
    | sleep d s => exact hp.sleep d s
    | watchSignals s => exact hp.watchSignals s
    | makeDirectories p s => exact hp.makeDirectories p s
    | emptyFile p s => exact hp.emptyFile p s
    | writeFile p content s => exact hp.writeFile p content s
    | spawn c k s => exact hp.spawn c k s
    | poll p s => exact hp.poll p s
    | wait p s => exact hp.wait p s
    | signal t g s => exact hp.signal t g s
    | connect port s => exact hp.connect port s
    | listen port body s => exact hp.listen port body s
    | unlisten port s => exact hp.unlisten port s
    | print text s => exact hp.print text s
    | complain text s => exact hp.complain text s
  · intro hstep
    exact {
      look := fun s => hstep _ _ (.look s)
      sleep := fun d s => hstep _ _ (.sleep d s)
      watchSignals := fun s => hstep _ _ (.watchSignals s)
      makeDirectories := fun p s => hstep _ _ (.makeDirectories p s)
      emptyFile := fun p s => hstep _ _ (.emptyFile p s)
      writeFile := fun p content s => hstep _ _ (.writeFile p content s)
      spawn := fun c k s => hstep _ _ (.spawn c k s)
      poll := fun p s => hstep _ _ (.poll p s)
      wait := fun p s => hstep _ _ (.wait p s)
      signal := fun t g s => hstep _ _ (.signal t g s)
      connect := fun port s => hstep _ _ (.connect port s)
      listen := fun port body s => hstep _ _ (.listen port body s)
      unlisten := fun port s => hstep _ _ (.unlisten port s)
      print := fun text s => hstep _ _ (.print text s)
      complain := fun text s => hstep _ _ (.complain text s) }

/-- A step beside a journal is a step, and an entry for it. -/
theorem journaled_step {w w' : σ × Journal} (hstep : h.journaled.Step w w') :
    ∃ d s', h.Step w.1 s' ∧ w' = h.note w.2 d s' := by
  cases hstep with
  | look => exact ⟨_, _, .look _, rfl⟩
  | sleep d => exact ⟨_, _, .sleep d _, rfl⟩
  | watchSignals => exact ⟨_, _, .watchSignals _, rfl⟩
  | makeDirectories p => exact ⟨_, _, .makeDirectories p _, rfl⟩
  | emptyFile p => exact ⟨_, _, .emptyFile p _, rfl⟩
  | writeFile p content => exact ⟨_, _, .writeFile p content _, rfl⟩
  | spawn c k => exact ⟨_, _, .spawn c k _, rfl⟩
  | poll p => exact ⟨_, _, .poll p _, rfl⟩
  | wait p => exact ⟨_, _, .wait p _, rfl⟩
  | signal t g => exact ⟨_, _, .signal t g _, rfl⟩
  | connect port => exact ⟨_, _, .connect port _, rfl⟩
  | listen port body => exact ⟨_, _, .listen port body _, rfl⟩
  | unlisten port => exact ⟨_, _, .unlisten port _, rfl⟩
  | print text => exact ⟨_, _, .print text _, rfl⟩
  | complain text => exact ⟨_, _, .complain text _, rfl⟩

/-- What shows in each entry of a property that a host preserves shows in the whole journal. -/
theorem Preserves.journaled (hp : h.Preserves P) {Q : Entry → Prop}
    (hq : ∀ d s, P s → Q (h.entry d s)) :
    h.journaled.Preserves fun w => P w.1 ∧ ∀ a ∈ w.2, Q a := by
  refine preserves_iff.mpr fun w w' hstep hw => ?_
  obtain ⟨d, s', hdone, rfl⟩ := journaled_step hstep
  have hs' : P s' := preserves_iff.mp hp _ _ hdone hw.1
  exact ⟨hs', List.forall_mem_append.mpr ⟨hw.2, List.forall_mem_singleton.mpr (hq d s' hs')⟩⟩

/-- A request to cancel stays. -/
def KeepsRequests (h : Host σ) (t : Token) : Prop :=
  h.Preserves fun s => t.isCancelled (h.interrupts s) = true

end Host

namespace Plan

variable {σ : Type}

/-- The gate of a run stopped polling with a report, in a state. -/
inductive Polled (h : Host σ) (p : Plan) (c : Configuration) (probe : σ → ProbeResult × σ) (s : σ) :
    HealthReport → σ → Prop
  | intro {e : Engine} {s₁ s' : σ} {g : Guard} {report : HealthReport} :
      p.token.isCancelled (h.interrupts (h.look s)) = false →
      Engine.launch h (p.engineCommand c) p.log (h.look s) = (.ok e, s₁) →
      p.awaitReady h probe (.ofEngine e p.grace) (p.startMetadata h c s₁).2 =
        (.ok report, g, s') →
      Polled h p c probe s report s'

/-- The journal of the client alone, when it is run in a state. -/
def clientJournal (h : Host σ) (p : Plan) (c : Configuration) (s : σ) : Journal :=
  (Client.run h.journaled p.token (p.clientCommand c) p.results (s, [])).2.2

/-- What overtakes a cancellation that was requested by the time when the gate stopped polling. -/
inductive Loses (report : HealthReport) (client : Journal) : Prop
  /-- The last attempt failed: there is no check behind it. -/
  | spent : report.status = .timedOut → Loses report client
  /-- The last attempt succeeded: the client is started, and may come to its end before the next
  check. -/
  | overtaken : report.status = .ready → Client.Overtakes client → Loses report client

theorem loses_iff {report : HealthReport} {client : Journal} : Loses report client ↔
    report.status = .timedOut ∨ report.status = .ready ∧ Client.Overtakes client := by
  constructor
  · rintro (hspent | ⟨hready, hover⟩)
    · exact .inl hspent
    · exact .inr ⟨hready, hover⟩
  · rintro (hspent | ⟨hready, hover⟩)
    · exact .spent hspent
    · exact .overtaken hready hover

/-- A client that is run in a cancelled state is interrupted exactly if nothing overtakes the
cancellation. -/
theorem client_interrupted_iff {h : Host σ} {p : Plan} (hk : h.KeepsRequests p.token)
    (c : Configuration) {s : σ} (hs : p.token.isCancelled (h.interrupts s) = true)
    (hr : ∀ halt, (Client.run h p.token (p.clientCommand c) p.results s).1 ≠ .error halt) :
    (Client.run h p.token (p.clientCommand c) p.results s).1 = .ok (.error .interrupted) ↔
      ¬ Client.Overtakes (p.clientJournal h c s) := by
  -- The same client on the host with a journal, where every entry shows the request.
  obtain ⟨j, hadd, hran⟩ :=
    h.journaled_keeps.client p.token (p.clientCommand c) p.results (s, [])
  have hsees := h.journaled_sees.client p.token (p.clientCommand c) p.results (s, [])
  have hkeeps := hk.journaled (Q := fun a => p.token.isCancelled a.interrupts = true)
    fun _ _ hcan => hcan
  have hall := (hkeeps.client p.token (p.clientCommand c) p.results (s := (s, []))
    ⟨hs, fun _ ha => (List.not_mem_nil ha).elim⟩).2
  obtain rfl : p.clientJournal h c s = j := hadd
  rw [show Client.run h p.token (p.clientCommand c) p.results s = _ from hsees] at hr ⊢
  exact hran.interrupted_iff hall hr

theorem verdict?_of_polled {h : Host σ} {p : Plan} {c : Configuration}
    {probe : σ → ProbeResult × σ} {s s' : σ} {report : HealthReport}
    (hp : p.Polled h c probe s report s') :
    ∃ summary, p.verdict? h c probe s =
      match report.status with
      | .timedOut => some .healthTimeout
      | .engineExited => some .launchError
      | .interrupted => some .interrupted
      | .ready =>
        match clientVerdict summary
            (Client.run h p.token (p.clientCommand c) p.results s').1 with
        | .error _ => none
        | .ok (o, _) => some o := by
  obtain @⟨e, s₁, _, g, _, hnot, hlaunch, hgate⟩ := hp
  refine ⟨((p.begin c (h.date s)).noteEngine e.pid).noteAttempts report.attempts, ?_⟩
  simp only [verdict?, hnot, settle, hlaunch, driveServing, drive, hgate, Bool.false_eq_true,
    if_false]
  cases report.status with
  | ready =>
    simp only [runClient]
    cases clientVerdict _ (Client.run h p.token (p.clientCommand c) p.results s').1 <;> rfl
  | timedOut => rfl
  | engineExited => rfl
  | interrupted => rfl

/-- Only an interrupted client makes a run that came to its client interrupted. -/
theorem outcome_of_clientVerdict {summary : Summary} {r : ClientResult} {o : Outcome}
    (hr : (match clientVerdict summary r with
      | .error _ => none
      | .ok (o, _) => some o) = some o) :
    (∀ halt, r ≠ .error halt) ∧ (o = .interrupted ↔ r = .ok (.error .interrupted)) := by
  rcases r with halt | failure | status
  · cases hr
  · cases failure <;> cases hr <;> simp
  · cases hr
    simp

theorem run_exitCode {h : Host σ} {p : Plan} {c : Configuration} {probe : σ → ProbeResult × σ}
    {s : σ} {summary : Summary} (hr : (p.run h c probe s).1 = .ok summary) :
    summary.exitCode = Int32.ofNat summary.outcome.exitCode := by
  obtain ⟨-, hran⟩ := p.run_ran h c probe s
  rw [hr] at hran
  generalize p.journal h c probe s = j at hran
  cases hran <;> rfl

/-- A run whose cancellation was requested by the time when its gate stopped polling, with the
engine alive, is interrupted exactly if nothing overtakes the cancellation; one that was cancelled
before anything was started always is. -/
theorem run_interrupted_iff (h : Host σ) (p : Plan) (hk : h.KeepsRequests p.token)
    (c : Configuration) (probe : σ → ProbeResult × σ) (s : σ) {summary : Summary}
    (hr : (p.run h c probe s).1 = .ok summary) :
    (p.token.isCancelled (h.interrupts (h.look s)) = true →
        summary.outcome = .interrupted ∧ summary.exitCode = 1) ∧
      ∀ report s', p.Polled h c probe s report s' → report.status ≠ .engineExited →
        p.token.isCancelled (h.interrupts s') = true →
        ((summary.outcome = .interrupted ∧ summary.exitCode = 1) ↔
          ¬ Loses report (p.clientJournal h c s')) := by
  have hverdict := p.verdict?_eq h c probe s hr
  have hcode : (summary.outcome = .interrupted ∧ summary.exitCode = 1) ↔
      summary.outcome = .interrupted := by
    refine and_iff_left_of_imp fun ho => ?_
    rw [run_exitCode hr, ho]
    rfl
  rw [hcode]
  constructor
  · intro hcan
    simp only [verdict?, hcan, if_true, Option.some.injEq] at hverdict
    exact hverdict.symm
  · intro report s' hp halive hcan
    obtain ⟨sum, heq⟩ := verdict?_of_polled hp
    rw [hverdict] at heq
    -- What the gate answered fixes the outcome, unless the client is started.
    cases hstatus : report.status with
    | engineExited => exact absurd hstatus halive
    | timedOut =>
      rw [hstatus] at heq
      rw [Option.some.inj heq]
      exact iff_of_false (by simp) fun hno => hno (.spent hstatus)
    | interrupted =>
      rw [hstatus] at heq
      rw [Option.some.inj heq]
      exact iff_of_true rfl (by simp [loses_iff, hstatus])
    | ready =>
      rw [hstatus] at heq
      obtain ⟨hhalt, houtcome⟩ := outcome_of_clientVerdict heq.symm
      rw [houtcome, client_interrupted_iff hk c hcan hhalt]
      simp [loses_iff, hstatus]

/-- On a stage a cancellation that is requested during the last probe is lost, though the engine is
alive. -/
theorem run_interrupted_iff_stage :
    ∃ summary report s',
      (Stage.plan.run Stage.host default Stage.cancellingProbe Stage.start).1 = .ok summary ∧
        Stage.host.KeepsRequests Stage.plan.token ∧
        Stage.plan.Polled Stage.host default Stage.cancellingProbe Stage.start report s' ∧
        report.status ≠ .engineExited ∧
        Stage.plan.token.isCancelled (Stage.host.interrupts s') = true ∧
        ¬ (summary.outcome = .interrupted ∧ summary.exitCode = 1) := by
  obtain ⟨summary, hr⟩ := Stage.run_isOk default
  have hk : Stage.host.KeepsRequests Stage.plan.token := by
    constructor <;> intros <;> assumption
  have hp : Stage.plan.Polled Stage.host default Stage.cancellingProbe Stage.start
      ⟨.timedOut, [⟨1, .unreachable⟩]⟩ (Stage.cancellingProbe Stage.start).2 := .intro rfl rfl rfl
  have hcan : Stage.plan.token.isCancelled
      (Stage.host.interrupts (Stage.cancellingProbe Stage.start).2) = true := rfl
  have hiff := (run_interrupted_iff Stage.host Stage.plan hk default Stage.cancellingProbe
    Stage.start hr).2 _ _ hp nofun hcan
  exact ⟨summary, _, _, hr, hk, hp, nofun, hcan, fun hint => hiff.mp hint (.spent rfl)⟩

end Plan

end EngineBench
