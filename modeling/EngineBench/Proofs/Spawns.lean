import EngineBench.Proofs.Interruption

/-!
# What a run starts

A run tries to start two programs at most, the engine and then the client. Everything else that it
does starts nothing.

* `Journal.spawns` are the programs that were to be started, in their order.
* `Plan.spawns_prefix` says that a run starts nothing but its engine and, after it, its client.
* `Plan.client_mem_spawns_iff` says that it comes to the client exactly if its gate reports ready.
-/

namespace EngineBench

/-- The program that a deed tries to start, and where its output goes. -/
def Deed.spawn? : Deed → Option (Command × Sink)
  | .spawned c k _ => some (c, k)
  | _ => none

namespace Journal

/-- The programs that were to be started, in their order, whether they could be or not. -/
def spawns (j : Journal) : List (Command × Sink) := j.filterMap fun e => e.deed.spawn?

@[simp] theorem spawns_nil : spawns [] = [] := rfl

@[simp] theorem spawns_append (j j' : Journal) : (j ++ j').spawns = j.spawns ++ j'.spawns :=
  List.filterMap_append

theorem spawns_cons (e : Entry) (j : Journal) :
    spawns (e :: j) = e.deed.spawn?.toList ++ spawns j := by
  simp only [spawns, List.filterMap_cons]
  cases e.deed.spawn? <;> rfl

theorem spawns_eq_nil_iff {j : Journal} : j.spawns = [] ↔ ∀ e ∈ j, e.deed.spawn? = none :=
  List.filterMap_eq_nil_iff

end Journal

/-! ## What starts nothing -/

theorem Deed.IsPause.spawn?_eq {d : Deed} (hd : d.IsPause) : d.spawn? = none := by
  cases d <;> first | rfl | exact hd.elim

/-- Whoever sends a signal starts nothing by that. -/
theorem Deed.spawn?_eq_of_signal? {d : Deed} {x : Target × Signal} (hd : d.signal? = some x) :
    d.spawn? = none := by
  cases d with
  | signaled t g r => rfl
  | _ => cases hd

theorem Waited.spawns_eq_nil {p : ProcessId} {d : Duration} {j : Journal}
    {r : Option (Option ExitStatus)} (hw : Waited p d j r) : j.spawns = [] := by
  refine Journal.spawns_eq_nil_iff.mpr fun e he => ?_
  rcases hw.isWait_or_seen e he with (hpause | hvain) | ⟨status, hseen⟩
  · exact hpause.spawn?_eq
  · rw [hvain]
    rfl
  · rw [hseen]
    rfl

theorem Paused.spawns_eq_nil {t : Token} {d : Duration} {j : Journal} {r : Option Bool}
    (hp : Paused t d j r) : j.spawns = [] :=
  Journal.spawns_eq_nil_iff.mpr fun a ha => (hp.isPause a ha).spawn?_eq

namespace HealthGate

theorem Tried.spawns_eq_nil {t : Token} {p : ProcessId} {j : Journal} {r : ProbeResult}
    (ht : Tried t p j r) : j.spawns = [] := by
  cases ht with
  | intro hlook _ hpoll hprobe =>
    simp [Journal.spawns_cons, hlook, hpoll, hprobe, Deed.spawn?]

theorem Gated.spawns_eq_nil {g : HealthGate} {t : Token} {e e' : Engine} {n : Nat}
    {checks : List HealthCheck} {j : Journal} {r : Except Halt HealthReport}
    (hg : g.Gated t e n checks j r e') : j.spawns = [] := by
  induction hg with
  | cancelled hlook _ => simp [Journal.spawns_cons, hlook, Deed.spawn?]
  | gone hlook _ hpoll => simp [Journal.spawns_cons, hlook, hpoll, Deed.spawn?]
  | ready ht => exact ht.spawns_eq_nil
  | spent ht => exact ht.spawns_eq_nil
  | overflow ht hp => rw [Journal.spawns_append, ht.spawns_eq_nil, hp.spawns_eq_nil]; rfl
  | cut ht hp => rw [Journal.spawns_append, ht.spawns_eq_nil, hp.spawns_eq_nil]; rfl
  | next ht hp _ ih =>
    rw [Journal.spawns_append, Journal.spawns_append, ht.spawns_eq_nil, hp.spawns_eq_nil, ih]
    rfl

end HealthGate

namespace Engine

variable {e e' : Engine} {j : Journal} {grace : Duration} {r : Guard.CleanupResult}

theorem Observed.spawns_eq_nil (ho : e.Observed j e') : j.spawns = [] := by
  cases ho with
  | known _ => rfl
  | seen _ ha => simp [Journal.spawns_cons, ha, Deed.spawn?]
  | alive _ ha => simp [Journal.spawns_cons, ha, Deed.spawn?]

theorem Killed.spawns_eq_nil (hk : e.Killed j r e') : j.spawns = [] := by
  cases hk with
  | overflow hkill hw =>
    simp [Journal.spawns_cons, Deed.spawn?_eq_of_signal? hkill, hw.spawns_eq_nil]
  | killed hkill hw =>
    simp [Journal.spawns_cons, Deed.spawn?_eq_of_signal? hkill, hw.spawns_eq_nil]
  | unconfirmed hkill hw =>
    simp [Journal.spawns_cons, Deed.spawn?_eq_of_signal? hkill, hw.spawns_eq_nil]

theorem Stopped.spawns_eq_nil (hs : e.Stopped grace j r e') : j.spawns = [] := by
  cases hs with
  | overflow hterm hw =>
    simp [Journal.spawns_cons, Deed.spawn?_eq_of_signal? hterm, hw.spawns_eq_nil]
  | terminated hterm hw =>
    simp [Journal.spawns_cons, Deed.spawn?_eq_of_signal? hterm, hw.spawns_eq_nil]
  | escalated hterm hw hk =>
    simp [Journal.spawns_cons, Deed.spawn?_eq_of_signal? hterm, hw.spawns_eq_nil,
      hk.spawns_eq_nil]

end Engine

theorem Guard.Cleaned.spawns_eq_nil {g g' : Guard} {j : Journal} {r : CleanupResult}
    (hc : g.Cleaned j r g') : j.spawns = [] := by
  cases hc with
  | empty _ => rfl
  | gone _ ho _ => exact ho.spawns_eq_nil
  | again _ _ ha _ => simp [Journal.spawns_cons, ha, Deed.spawn?]
  | first _ _ ha _ hs => simp [Journal.spawns_cons, ha, Deed.spawn?, hs.spawns_eq_nil]

namespace Client

variable {t : Token} {p : ProcessId} {c : Command} {j : Journal} {r : ClientResult}

theorem Prepared.spawns_eq_nil (hp : Prepared j) : j.spawns = [] := by
  refine Journal.spawns_eq_nil_iff.mpr fun a ha => ?_
  obtain ⟨p, r, hd⟩ := hp a ha
  rw [hd]
  rfl

theorem Stopped.spawns_eq_nil (hs : Stopped p j r) : j.spawns = [] := by
  cases hs with
  | lost hterm => simp [Journal.spawns_cons, hterm, Deed.spawn?]
  | overflow hterm hw => simp [Journal.spawns_cons, hterm, Deed.spawn?, hw.spawns_eq_nil]
  | ended hterm hw => simp [Journal.spawns_cons, hterm, Deed.spawn?, hw.spawns_eq_nil]
  | killLost hterm hw hkill =>
    simp [Journal.spawns_cons, hterm, hkill, Deed.spawn?, hw.spawns_eq_nil]
  | killed hterm hw hkill hwait =>
    simp [Journal.spawns_cons, hterm, hkill, hwait, Deed.spawn?, hw.spawns_eq_nil]

theorem Watched.spawns_eq_nil (hw : Watched t p j r) : j.spawns = [] := by
  induction hw with
  | exited hpoll hlook => simp [Journal.spawns_cons, hpoll, hlook, Deed.spawn?]
  | stopped hpoll hlook _ hs =>
    simp [Journal.spawns_cons, hpoll, hlook, Deed.spawn?, hs.spawns_eq_nil]
  | late hpoll hlook _ _ => simp [Journal.spawns_cons, hpoll, hlook, Deed.spawn?]
  | next hpoll hlook _ hsleep _ ih =>
    simp [Journal.spawns_cons, hpoll, hlook, hsleep, Deed.spawn?, ih]

/-- A client is started once, or it is tried to. -/
theorem Ran.spawns_eq (hr : Ran t c j r) : j.spawns = [(c, .inherited)] := by
  cases hr with
  | unstarted hprep hspawn =>
    simp [hprep.spawns_eq_nil, Journal.spawns_cons, hspawn, Deed.spawn?]
  | watched hprep hspawn hw =>
    simp [hprep.spawns_eq_nil, Journal.spawns_cons, hspawn, Deed.spawn?, hw.spawns_eq_nil]

end Client

/-! ## The parts of a run -/

/-- An engine that was just started is taken to run, and there is a log for it. -/
theorem Engine.running_of_launch {σ : Type} {h : Host σ} {c : Command} {log : Path} {s s' : σ}
    {e : Engine} (hl : launch h c log s = (.ok e, s')) :
    e.state = .running ∧ (openLog h log s).1.isOk = true := by
  unfold launch at hl
  rcases ho : openLog h log s with ⟨err | _, s₁⟩
  · rw [ho] at hl
    cases hl
  · rw [ho] at hl
    simp only at hl
    rcases hs : h.spawn c (.file log) s₁ with ⟨err | pid, s₂⟩ <;> rw [hs] at hl <;> cases hl
    exact ⟨rfl, rfl⟩

/-- The programs that a run can start, in their order. -/
def Plan.programs (p : Plan) (c : Configuration) : List (Command × Sink) :=
  [(p.engineCommand c, .file p.log), (p.clientCommand c, .inherited)]

/-- The gate lets the run go on to its client. -/
def HealthGate.opens : Except Halt HealthReport → Bool
  | .ok report => report.status = .ready
  | .error _ => false

namespace Host.Keeps

variable {σ : Type} {h : Host σ} {journal : σ → Journal} (hk : h.Keeps journal)

include hk

theorem look_spawns (s : σ) : (journal (h.look s)).spawns = (journal s).spawns := by
  simp [hk.look, Journal.spawns_cons, Deed.spawn?, Host.entry]

theorem openLog_spawns (log : Path) (s : σ) :
    (journal (Engine.openLog h log s).2).spawns = (journal s).spawns := by
  obtain ⟨j, hmade, hprep⟩ := hk.makeParent log s
  unfold Engine.openLog
  rcases hp : h.makeParent log s with ⟨_ | _, s'⟩
  · rw [hp] at hmade
    simp [hmade, hprep.spawns_eq_nil]
  · rw [hp] at hmade
    simp [hk.emptyFile, hmade, hprep.spawns_eq_nil, Journal.spawns_cons, Deed.spawn?, Host.entry]

/-- The start of the engine is tried once, unless there is no log for it. -/
theorem launch_spawns (c : Command) (log : Path) (s : σ) :
    (journal (Engine.launch h c log s).2).spawns = (journal s).spawns ++
      if (Engine.openLog h log s).1.isOk then [(c, .file log)] else [] := by
  have hopened := hk.openLog_spawns log s
  unfold Engine.launch
  rcases ho : Engine.openLog h log s with ⟨err | _, s'⟩
  · rw [ho] at hopened
    simpa [Except.isOk, Except.toBool] using hopened
  · rw [ho] at hopened
    have hspawned := hk.spawn c (.file log) s'
    rcases hs : h.spawn c (.file log) s' with ⟨err | pid, s''⟩
    · rw [hs] at hspawned
      simp [hs, hspawned, hopened, Journal.spawns_cons, Deed.spawn?, Host.entry, Except.isOk,
        Except.toBool]
    · rw [hs] at hspawned
      simp [hs, hspawned, hopened, Journal.spawns_cons, Deed.spawn?, Host.entry, Except.isOk,
        Except.toBool]

theorem startMetadata_spawns (p : Plan) (c : Configuration) (s : σ) :
    (journal (p.startMetadata h c s).2).spawns = (journal s).spawns := by
  unfold Plan.startMetadata Metadata.start
  by_cases hm : p.metadata
  · simp only [hm, if_true]
    cases c.metadataPort? with
    | none => rfl
    | some port =>
      cases Metadata.body? c with
      | none => rfl
      | some body =>
        have hspawns : (journal (h.listen port body s).2).spawns = (journal s).spawns := by
          simp [hk.listen, Journal.spawns_cons, Deed.spawn?, Host.entry]
        rw [← hspawns]
        rcases hl : h.listen port body s with ⟨_ | _, s'⟩ <;> simp only [hl] <;> rfl
  · simp [hm]

theorem stopMetadata_spawns (port : Option UInt16) (s : σ) :
    (journal (Plan.stopMetadata h port s)).spawns = (journal s).spawns := by
  cases port with
  | none => rfl
  | some port =>
    simp [Plan.stopMetadata, hk.unlisten, Journal.spawns_cons, Deed.spawn?, Host.entry]

theorem drop_spawns (g : Guard) (s : σ) :
    (journal (g.drop h s).2).spawns = (journal s).spawns := by
  obtain ⟨j, hadd, ⟨-, rfl, -⟩ | ⟨-, r, hc⟩⟩ := hk.drop g s
  · simp [hadd]
  · simp [hadd, hc.spawns_eq_nil]

theorem conclude_spawns (p : Plan) (o : Outcome) (summary : Summary) (g : Guard) (s : σ) :
    (journal (p.conclude h o summary g s).2).spawns = (journal s).spawns := by
  obtain ⟨k, x, g', hc, ⟨halt, -, -, hadd⟩ | ⟨r, again, ended, -, hagain, -, hadd⟩⟩ :=
    hk.conclude p o summary g s
  · simp [hadd, hc.spawns_eq_nil]
  · simp [hadd, hc.spawns_eq_nil, Journal.spawns_cons, hagain, Deed.spawn?]

theorem client_spawns (t : Token) (c : Command) (results : Path) (s : σ) :
    (journal (Client.run h t c results s).2).spawns = (journal s).spawns ++ [(c, .inherited)] := by
  obtain ⟨j, hadd, hr⟩ := hk.client t c results s
  rw [hadd, Journal.spawns_append, hr.spawns_eq]

variable {probe : σ → ProbeResult × σ} (hprobe : h.KeepsProbe journal probe)

include hprobe

/-- Between the start and the stop of the engine the client is started, if the gate opens. -/
theorem drive_spawns (p : Plan) (c : Configuration) (summary : Summary) {e : Engine}
    (he : e.state = .running) (s : σ) :
    (journal (p.drive h c probe summary (.ofEngine e p.grace) s).2.2).spawns =
      (journal s).spawns ++
        if HealthGate.opens (p.awaitReady h probe (.ofEngine e p.grace) s).1 then
          [(p.clientCommand c, .inherited)]
        else [] := by
  obtain ⟨j, e', s', r, hrun, hadd, hg⟩ := hk.awaitReady hprobe p he p.grace false s
  have hgate : (journal s').spawns = (journal s).spawns := by simp [hadd, hg.spawns_eq_nil]
  unfold Plan.drive
  rw [Guard.ofEngine, hrun]
  cases r with
  | error halt => simp [HealthGate.opens, hgate]
  | ok report =>
    cases hstatus : report.status with
    | ready => simp [HealthGate.opens, hstatus, Plan.runClient, hk.client_spawns, hgate]
    | timedOut => simp [HealthGate.opens, hstatus, hgate]
    | engineExited => simp [HealthGate.opens, hstatus, hgate]
    | interrupted => simp [HealthGate.opens, hstatus, hgate]

theorem driveServing_spawns (p : Plan) (c : Configuration) (summary : Summary) {e : Engine}
    (he : e.state = .running) (s : σ) :
    (journal (p.driveServing h c probe summary (.ofEngine e p.grace) s).2.2).spawns =
      (journal s).spawns ++
        if HealthGate.opens
            (p.awaitReady h probe (.ofEngine e p.grace) (p.startMetadata h c s).2).1 then
          [(p.clientCommand c, .inherited)]
        else [] := by
  show (journal (Plan.stopMetadata h _ (p.drive h c probe summary (.ofEngine e p.grace)
    (p.startMetadata h c s).2).2.2)).spawns = _
  rw [hk.stopMetadata_spawns, hk.drive_spawns hprobe p c summary he, hk.startMetadata_spawns]

/-- Up to its outcome a run with an engine starts the engine, and the client if the gate opens. -/
theorem settle_spawns_of_launch (p : Plan) (c : Configuration) (summary : Summary) {s s₁ : σ}
    {e : Engine} (hl : Engine.launch h (p.engineCommand c) p.log s = (.ok e, s₁)) :
    (journal (p.settle h c probe summary s).2.2).spawns =
      (journal s).spawns ++ (p.engineCommand c, .file p.log) ::
        if HealthGate.opens
            (p.awaitReady h probe (.ofEngine e p.grace) (p.startMetadata h c s₁).2).1 then
          [(p.clientCommand c, .inherited)]
        else [] := by
  obtain ⟨hrunning, hok⟩ := Engine.running_of_launch hl
  have hlaunched := hk.launch_spawns (p.engineCommand c) p.log s
  rw [hl, hok, if_pos rfl] at hlaunched
  have hdriven := hk.driveServing_spawns hprobe p c (summary.noteEngine e.pid) hrunning s₁
  rw [hlaunched, List.append_assoc, List.singleton_append] at hdriven
  unfold Plan.settle
  rw [hl]
  exact hdriven

/-- Up to its outcome a run starts a part of what it can start. -/
theorem settle_spawns_prefix (p : Plan) (c : Configuration) (summary : Summary) (s : σ) :
    ∃ l, (journal (p.settle h c probe summary s).2.2).spawns = (journal s).spawns ++ l ∧
      l <+: p.programs c := by
  rcases hl : Engine.launch h (p.engineCommand c) p.log s with ⟨err | e, s₁⟩
  · have hlaunched := hk.launch_spawns (p.engineCommand c) p.log s
    rw [hl] at hlaunched
    unfold Plan.settle
    rw [hl]
    refine ⟨_, hlaunched, ?_⟩
    cases (Engine.openLog h p.log s).1.isOk <;> simp [Plan.programs]
  · refine ⟨_, hk.settle_spawns_of_launch hprobe p c summary hl, ?_⟩
    split <;> simp [Plan.programs]

omit hprobe in
/-- A run that is cancelled before anything is started starts nothing. -/
theorem run_spawns_of_cancelled (p : Plan) (c : Configuration) {s : σ}
    (hcan : p.token.isCancelled (h.interrupts (h.look s)) = true) :
    (journal (p.run h c probe s).2).spawns = (journal s).spawns := by
  simp [Plan.run, hcan, hk.look_spawns]

omit hprobe in
/-- A run that is not cancelled before anything is started starts what it starts up to its
outcome. -/
theorem run_spawns (p : Plan) (c : Configuration) {s : σ}
    (hnot : p.token.isCancelled (h.interrupts (h.look s)) = false) :
    (journal (p.run h c probe s).2).spawns =
      (journal (p.settle h c probe (p.begin c (h.date s)) (h.look s)).2.2).spawns := by
  unfold Plan.run
  simp only [hnot, Bool.false_eq_true, if_false]
  rcases p.settle h c probe (p.begin c (h.date s)) (h.look s) with ⟨halt | ⟨o, summary⟩, g, s'⟩
  · exact hk.drop_spawns g s'
  · exact hk.conclude_spawns p o summary g s'

end Host.Keeps

/-! ## Whole runs -/

namespace Host.Sees

variable {σ τ : Type} {k : Host τ} {h : Host σ} {view : τ → σ} (hs : k.Sees h view)

include hs

/-- The gate of a run stops polling with the same report on a host with something added. -/
theorem polled_iff {probe : σ → ProbeResult × σ} {probe' : τ → ProbeResult × τ}
    (hprobe : ∀ w, probe (view w) = (probe' w).map id view) {p : Plan} {c : Configuration} (w : τ)
    {report : HealthReport} {s' : σ} :
    p.Polled h c probe (view w) report s' ↔
      ∃ w', view w' = s' ∧ p.Polled k c probe' w report w' := by
  constructor
  · rintro @⟨e, s₁, _, g, _, hnot, hlaunch, hgate⟩
    rw [hs.look, hs.interrupts] at hnot
    rw [hs.look, hs.launch] at hlaunch
    rcases hl : Engine.launch k (p.engineCommand c) p.log (k.look w) with ⟨r, w₁⟩
    rw [hl] at hlaunch
    cases hlaunch
    rw [hs.startMetadata] at hgate
    simp only [Prod.map_snd] at hgate
    rw [hs.awaitReady hprobe] at hgate
    rcases hg : p.awaitReady k probe' (.ofEngine e p.grace) (p.startMetadata k c w₁).2 with
      ⟨r, g', w'⟩
    rw [hg] at hgate
    cases hgate
    exact ⟨w', rfl, .intro hnot hl hg⟩
  · rintro ⟨w', rfl, hp⟩
    obtain @⟨e, w₁, _, g, _, hnot, hlaunch, hgate⟩ := hp
    rw [← hs.interrupts, ← hs.look] at hnot
    have hlaunch' : Engine.launch h (p.engineCommand c) p.log (h.look (view w)) =
        (.ok e, view w₁) := by
      rw [hs.look, hs.launch, hlaunch]
      rfl
    have hgate' : p.awaitReady h probe (.ofEngine e p.grace) (p.startMetadata h c (view w₁)).2 =
        (.ok report, g, view w') := by
      rw [hs.startMetadata, Prod.map_snd, hs.awaitReady hprobe, hgate]
      rfl
    exact .intro hnot hlaunch' hgate'

end Host.Sees

namespace Plan

variable {σ : Type}

/-- A run starts nothing but its engine and, after it, its client. -/
theorem spawns_prefix (h : Host σ) (p : Plan) (c : Configuration) (probe : σ → ProbeResult × σ)
    (s : σ) : (p.journal h c probe s).spawns <+: p.programs c := by
  have hk := h.journaled_keeps
  by_cases hc : p.token.isCancelled (h.interrupts (h.look s))
  · have hnone : (p.journal h c probe s).spawns = [] := hk.run_spawns_of_cancelled p c hc
    rw [hnone]
    exact List.nil_prefix
  · have hrun : (p.journal h c probe s).spawns = _ :=
      hk.run_spawns (s := (s, [])) p c (Bool.eq_false_iff.mpr hc)
    obtain ⟨l, hl, hprefix⟩ := hk.settle_spawns_prefix (h.journaledProbe_keeps probe) p c
      (p.begin c (h.journaled.date (s, []))) (h.journaled.look (s, []))
    rw [hrun, hl, hk.look_spawns]
    exact hprefix

/-- A run that is cancelled before anything is started starts nothing. -/
theorem spawns_of_cancelled {h : Host σ} {p : Plan} (c : Configuration)
    (probe : σ → ProbeResult × σ) {s : σ}
    (hcan : p.token.isCancelled (h.interrupts (h.look s)) = true) :
    (p.journal h c probe s).spawns = [] :=
  h.journaled_keeps.run_spawns_of_cancelled p c hcan

/-- A gate stops polling with the same report if a journal is kept. -/
theorem polled_journaled {h : Host σ} {p : Plan} {c : Configuration}
    {probe : σ → ProbeResult × σ} {s s' : σ} {report : HealthReport} :
    p.Polled h c probe s report s' ↔
      ∃ w', w'.1 = s' ∧ p.Polled h.journaled c (h.journaledProbe probe) (s, []) report w' :=
  h.journaled_sees.polled_iff (fun _ => rfl) (s, [])

/-- A run whose gate came to a report starts its engine, and its client exactly if the report says
that the engine is ready. -/
theorem spawns_of_polled {h : Host σ} {p : Plan} {c : Configuration}
    {probe : σ → ProbeResult × σ} {s s' : σ} {report : HealthReport}
    (hp : p.Polled h c probe s report s') :
    (p.journal h c probe s).spawns = (p.engineCommand c, .file p.log) ::
      if report.status = .ready then [(p.clientCommand c, .inherited)] else [] := by
  have hk := h.journaled_keeps
  obtain ⟨w', -, @⟨e, w₁, _, g, _, hnot, hlaunch, hgate⟩⟩ := polled_journaled.mp hp
  have hrun : (p.journal h c probe s).spawns = _ := hk.run_spawns (s := (s, [])) p c hnot
  rw [hrun, hk.settle_spawns_of_launch (h.journaledProbe_keeps probe) p c _ hlaunch, hgate,
    hk.look_spawns]
  simp [HealthGate.opens]

/-- A run starts its client exactly if its gate comes to the report that the engine is ready. -/
theorem client_mem_spawns_iff {h : Host σ} {p : Plan} {c : Configuration}
    {probe : σ → ProbeResult × σ} {s : σ} :
    (p.clientCommand c, .inherited) ∈ (p.journal h c probe s).spawns ↔
      ∃ report s', p.Polled h c probe s report s' ∧ report.status = .ready := by
  constructor
  · intro hmem
    have hk := h.journaled_keeps
    have hprobe := h.journaledProbe_keeps probe
    have hnot : p.token.isCancelled (h.interrupts (h.look s)) = false := by
      refine Bool.eq_false_iff.mpr fun hcan => ?_
      rw [spawns_of_cancelled c probe hcan] at hmem
      cases hmem
    have hrun : (p.journal h c probe s).spawns = _ := hk.run_spawns (s := (s, [])) p c hnot
    rcases hl : Engine.launch h.journaled (p.engineCommand c) p.log (h.journaled.look (s, [])) with
      ⟨err | e, w₁⟩
    · have hlaunched := hk.launch_spawns (p.engineCommand c) p.log (h.journaled.look (s, []))
      rw [hl, hk.look_spawns] at hlaunched
      rw [hrun, settle, hl, hlaunched] at hmem
      revert hmem
      split <;> simp
    · rw [hrun, hk.settle_spawns_of_launch hprobe p c _ hl, hk.look_spawns] at hmem
      rcases hg : p.awaitReady h.journaled (h.journaledProbe probe) (.ofEngine e p.grace)
        (p.startMetadata h.journaled c w₁).2 with ⟨halt | report, g, w'⟩
      · rw [hg] at hmem
        simp [HealthGate.opens] at hmem
      · rw [hg] at hmem
        have hready : report.status = .ready := by simpa [HealthGate.opens] using hmem
        exact ⟨report, w'.1, polled_journaled.mpr ⟨w', rfl, .intro hnot hl hg⟩, hready⟩
  · rintro ⟨report, s', hp, hready⟩
    rw [spawns_of_polled hp, hready]
    simp

end Plan

end EngineBench
