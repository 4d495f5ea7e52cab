import EngineBench.Plan
import EngineBench.Proofs.Journal

/-!
# Runs beside a journal

A run learns of its host only what the operations answer. So a run on a host with something added
to its state goes the same way as without it: same results, same states as far as they are shared.

* `Host.Sees.run` says so of whole runs, `Host.Sees.cleanup` of the guard of an engine.
* `Plan.journal` is the journal of a run; `Plan.run_journaled` says that keeping it does not change
  the run.
-/

namespace EngineBench

namespace Host.Sees

variable {σ τ : Type} {k : Host τ} {h : Host σ} {view : τ → σ} (hs : k.Sees h view)

include hs

/-! ## Waits -/

theorem waitUntil (p : ProcessId) (deadline : Nat) (w : τ) :
    h.waitUntil p deadline (view w) = (k.waitUntil p deadline w).map id view := by
  -- The cases are those of `k`; the equation opens one round of `h`, and `hs` makes it the same.
  fun_induction Host.waitUntil k p deadline w with
  | case1 w status w' hp =>
    rw [waitUntil_eq, hs.poll, hp]
    rfl
  | case2 w w' hp hlt ih =>
    rw [waitUntil_eq, hs.poll, hp]
    show (if h.clock (h.look (view w')) < deadline then _ else _) = _
    rw [hs.look, hs.clock, if_pos hlt, hs.sleep, ih]
  | case3 w w' hp hlt =>
    rw [waitUntil_eq, hs.poll, hp]
    show (if h.clock (h.look (view w')) < deadline then _ else _) = _
    rw [hs.look, hs.clock, if_neg hlt]
    rfl

theorem waitFor (p : ProcessId) (d : Duration) (w : τ) :
    h.waitFor p d (view w) = (k.waitFor p d w).map id view := by
  simp only [Host.waitFor, hs.look, hs.clock]
  cases deadline? (k.clock (k.look w)) d with
  | none => rfl
  | some deadline =>
    simp only [hs.waitUntil]
    rfl

theorem sleepUntil (t : Token) (deadline : Nat) (w : τ) :
    t.sleepUntil h deadline (view w) = (t.sleepUntil k deadline w).map id view := by
  fun_induction Token.sleepUntil k t deadline w with
  | case1 w hc =>
    rw [Token.sleepUntil_eq, hs.look, hs.interrupts, if_pos hc]
    rfl
  | case2 w hc now hlt ih =>
    rw [Token.sleepUntil_eq, hs.look, hs.interrupts, if_neg hc, hs.look, hs.clock, if_pos hlt,
      hs.sleep, ih]
  | case3 w hc now hlt =>
    rw [Token.sleepUntil_eq, hs.look, hs.interrupts, if_neg hc, hs.look, hs.clock, if_neg hlt]
    rfl

theorem sleep_token (t : Token) (d : Duration) (w : τ) :
    t.sleep h d (view w) = (t.sleep k d w).map id view := by
  simp only [Token.sleep, hs.look, hs.clock]
  cases deadline? (k.clock (k.look w)) d with
  | none => rfl
  | some deadline =>
    simp only [hs.sleepUntil]
    rfl

/-! ## The engine and its guard -/

theorem makeParent (p : Path) (w : τ) :
    h.makeParent p (view w) = (k.makeParent p w).map id view := by
  unfold Host.makeParent
  cases p.parent? with
  | none => rfl
  | some d =>
    by_cases hd : d.bytes.isEmpty
    · simp [hd]
    · simp [hd, hs.makeDirectories]

theorem openLog (log : Path) (w : τ) :
    Engine.openLog h log (view w) = (Engine.openLog k log w).map id view := by
  unfold Engine.openLog
  rw [hs.makeParent]
  rcases k.makeParent log w with ⟨_ | _, w'⟩
  · rfl
  · exact hs.emptyFile log w'

theorem launch (c : Command) (log : Path) (w : τ) :
    Engine.launch h c log (view w) = (Engine.launch k c log w).map id view := by
  unfold Engine.launch
  rw [hs.openLog]
  rcases Engine.openLog k log w with ⟨_ | _, w'⟩
  · rfl
  · simp only [Prod.map_apply, id_eq, hs.spawn]
    rcases k.spawn c (.file log) w' with ⟨_ | _, w''⟩ <;> rfl

theorem engine_poll (e : Engine) (w : τ) : e.poll h (view w) = (e.poll k w).map id view := by
  unfold Engine.poll
  cases e.state with
  | exited => rfl
  | running =>
    simp only [hs.poll]
    rcases k.poll e.pid w with ⟨_ | _, w'⟩ <;> rfl

theorem engine_waitFor (e : Engine) (d : Duration) (w : τ) :
    e.waitFor h d (view w) = (e.waitFor k d w).map id view := by
  unfold Engine.waitFor
  cases e.state with
  | exited => rfl
  | running =>
    simp only [hs.waitFor]
    rcases k.waitFor e.pid d w with ⟨_ | _ | _, w'⟩ <;> rfl

theorem terminate (e : Engine) (w : τ) :
    e.terminate h (view w) = (e.terminate k w).map id view := by
  simp [Engine.terminate, hs.signal]

theorem kill (e : Engine) (w : τ) : e.kill h (view w) = view (e.kill k w) := by
  simp [Engine.kill, hs.signal]

theorem isRunning (g : Guard) (w : τ) :
    g.isRunning h (view w) = (g.isRunning k w).map id (Prod.map id view) := by
  unfold Guard.isRunning
  cases g.engine with
  | none => rfl
  | some e =>
    simp only [hs.engine_poll]
    rfl

theorem killEngine (g : Guard) (e : Engine) (w : τ) :
    g.killEngine h e (view w) = (g.killEngine k e w).map id (Prod.map id view) := by
  unfold Guard.killEngine
  rw [hs.kill, hs.engine_waitFor]
  rcases e.waitFor k Guard.killWait (e.kill k w) with ⟨_ | e', w'⟩ <;> rfl

theorem stopEngine (g : Guard) (e : Engine) (w : τ) :
    g.stopEngine h e (view w) = (g.stopEngine k e w).map id (Prod.map id view) := by
  unfold Guard.stopEngine
  simp only [hs.terminate, Prod.map_fst, Prod.map_snd, id_eq, hs.engine_waitFor]
  rcases (e.terminate k w).1.waitFor k g.grace (e.terminate k w).2 with ⟨_ | e', w'⟩
  · rfl
  · by_cases he : e'.state = .exited
    · simp [he]
    · simp [he, hs.killEngine]

theorem cleanup (g : Guard) (w : τ) :
    g.cleanup h (view w) = (g.cleanup k w).map id (Prod.map id view) := by
  unfold Guard.cleanup
  cases g.engine with
  | none => rfl
  | some e =>
    simp only [hs.engine_poll, Prod.map_fst, Prod.map_snd, id_eq]
    by_cases he : (e.poll k w).1.state = .exited
    · simp [he]
    · by_cases ha : g.attempted
      · simp [he, ha]
      · simp [he, ha, hs.stopEngine]

theorem drop (g : Guard) (w : τ) : g.drop h (view w) = (g.drop k w).map id view := by
  unfold Guard.drop
  by_cases ha : g.attempted
  · simp [ha]
  · simp [ha, hs.cleanup]

/-! ## The gate and the client -/

theorem attempt {probe : σ → ProbeResult × σ} {alive : σ → Bool × σ}
    (probe' : τ → ProbeResult × τ) (alive' : τ → Bool × τ)
    (hprobe : ∀ w, probe (view w) = (probe' w).map id view)
    (halive : ∀ w, alive (view w) = (alive' w).map id view) (g : HealthGate) (t : Token)
    (n : Nat) (checks : List HealthCheck) (w : τ) :
    g.attempt h t probe alive n checks (view w) =
      (g.attempt k t probe' alive' n checks w).map id view := by
  -- On the attempts that are left; the state and the checks differ from attempt to attempt.
  induction n generalizing checks w with
  | zero => rfl
  | succ n ih =>
    simp only [HealthGate.attempt, hs.look, hs.interrupts]
    by_cases hc : t.isCancelled (k.interrupts (k.look w))
    · simp [hc]
    simp only [hc, halive]
    rcases alive' (k.look w) with ⟨_ | _, w₁⟩
    · rfl
    simp only [Prod.map_apply, id_eq, hprobe]
    rcases probe' w₁ with ⟨_ | _, w₂⟩
    · rfl
    by_cases hn : n = 0
    · simp [hn]
    simp only [Prod.map_apply, id_eq, hn, hs.sleep_token]
    rcases t.sleep k g.interval w₂ with ⟨_ | _ | _, w₃⟩
    · rfl
    · rfl
    · exact ih _ w₃

theorem stop (p : ProcessId) (w : τ) :
    Client.stop h p (view w) = (Client.stop k p w).map id view := by
  unfold Client.stop
  rw [hs.signal]
  rcases k.signal (.process p) .terminate w with ⟨_ | _, w₁⟩
  · rfl
  simp only [Prod.map_apply, id_eq, hs.waitFor]
  rcases k.waitFor p Client.stopTimeout w₁ with ⟨_ | _ | _, w₂⟩
  · rfl
  · simp only [Prod.map_apply, id_eq, hs.signal]
    rcases k.signal (.process p) .kill w₂ with ⟨_ | _, w₃⟩
    · rfl
    · simp [hs.wait]
  · rfl

theorem watch (t : Token) (p : ProcessId) (w : τ) :
    Client.watch h t p (view w) = (Client.watch k t p w).map id view := by
  fun_induction Client.watch k t p w with
  | case1 w status w' hp =>
    rw [Client.watch_eq, hs.poll, hp]
    simp only [Prod.map_apply, id_eq, hs.look, hs.interrupts]
  | case2 w w' hp hc =>
    rw [Client.watch_eq, hs.poll, hp]
    simp only [Prod.map_apply, id_eq, hs.look, hs.interrupts, if_pos hc, hs.stop]
  | case3 w w' hp hc hlt ih =>
    rw [Client.watch_eq, hs.poll, hp]
    simp only [Prod.map_apply, id_eq, hs.look, hs.interrupts, hs.clock, if_neg hc, if_pos hlt,
      hs.sleep, ih]
  | case4 w w' hp hc hlt =>
    rw [Client.watch_eq, hs.poll, hp]
    simp only [Prod.map_apply, id_eq, hs.look, hs.interrupts, hs.clock, if_neg hc, if_neg hlt]

theorem client (t : Token) (c : Command) (results : Path) (w : τ) :
    Client.run h t c results (view w) = (Client.run k t c results w).map id view := by
  unfold Client.run
  simp only [hs.makeParent, Prod.map_snd, hs.spawn]
  rcases k.spawn c .inherited (k.makeParent results w).2 with ⟨_ | p, w'⟩
  · rfl
  · exact hs.watch t p w'

/-! ## Runs -/

theorem metadata_start (port : UInt16) (c : Configuration) (w : τ) :
    Metadata.start h port c (view w) = (Metadata.start k port c w).map id view := by
  unfold Metadata.start
  cases Metadata.body? c with
  | none => rfl
  | some body => simp [hs.listen]

theorem startMetadata (p : Plan) (c : Configuration) (w : τ) :
    p.startMetadata h c (view w) = (p.startMetadata k c w).map id view := by
  unfold Plan.startMetadata
  by_cases hm : p.metadata
  · simp only [hm, if_true]
    cases c.metadataPort? with
    | none => rfl
    | some port =>
      simp only [hs.metadata_start]
      rcases Metadata.start k port c w with ⟨_ | _, w'⟩ <;> rfl
  · simp [hm]

theorem stopMetadata (port : Option UInt16) (w : τ) :
    Plan.stopMetadata h port (view w) = view (Plan.stopMetadata k port w) := by
  cases port with
  | none => rfl
  | some port => exact hs.unlisten port w

variable {probe : σ → ProbeResult × σ} {probe' : τ → ProbeResult × τ}

theorem awaitReady (hprobe : ∀ w, probe (view w) = (probe' w).map id view) (p : Plan) (g : Guard)
    (w : τ) :
    p.awaitReady h probe g (view w) =
      (p.awaitReady k probe' g w).map id (Prod.map id view) := by
  unfold Plan.awaitReady HealthGate.wait
  -- The gate works beside the guard, so the view has to carry the guard along.
  rw [show (view w, g) = Prod.map view id (w, g) from rfl, (hs.extend Guard).attempt
    (Plan.probeBeside probe') (Plan.pollBeside k) ?_ ?_]
  · rfl
  · intro w
    simp [Plan.probeBeside, hprobe]
  · intro w
    simp [Plan.pollBeside, hs.isRunning]

theorem runClient (p : Plan) (c : Configuration) (summary : Summary) (w : τ) :
    p.runClient h c summary (view w) = (p.runClient k c summary w).map id view := by
  simp [Plan.runClient, hs.client]

theorem drive (hprobe : ∀ w, probe (view w) = (probe' w).map id view) (p : Plan)
    (c : Configuration) (summary : Summary) (g : Guard) (w : τ) :
    p.drive h c probe summary g (view w) =
      (p.drive k c probe' summary g w).map id (Prod.map id view) := by
  unfold Plan.drive
  rw [hs.awaitReady hprobe]
  rcases p.awaitReady k probe' g w with ⟨_ | report, g', w'⟩
  · rfl
  · cases hr : report.status <;> simp [hr, hs.runClient]

theorem driveServing (hprobe : ∀ w, probe (view w) = (probe' w).map id view) (p : Plan)
    (c : Configuration) (summary : Summary) (g : Guard) (w : τ) :
    p.driveServing h c probe summary g (view w) =
      (p.driveServing k c probe' summary g w).map id (Prod.map id view) := by
  simp [Plan.driveServing, hs.startMetadata, hs.drive hprobe, hs.stopMetadata]

theorem settle (hprobe : ∀ w, probe (view w) = (probe' w).map id view) (p : Plan)
    (c : Configuration) (summary : Summary) (w : τ) :
    p.settle h c probe summary (view w) =
      (p.settle k c probe' summary w).map id (Prod.map id view) := by
  unfold Plan.settle
  rw [hs.launch]
  rcases Engine.launch k (p.engineCommand c) p.log w with ⟨_ | e, w'⟩
  · rfl
  · exact hs.driveServing hprobe p c _ _ w'

theorem conclude (p : Plan) (o : Outcome) (summary : Summary) (g : Guard) (w : τ) :
    p.conclude h o summary g (view w) = (p.conclude k o summary g w).map id view := by
  unfold Plan.conclude
  rw [hs.cleanup]
  rcases g.cleanup k w with ⟨_ | r, g', w'⟩
  · simp [hs.drop]
  · simp [hs.look, hs.interrupts, hs.date, hs.drop]

/-- A run answers the same on a host with something added, and its last state shows the last state
of the run without it. -/
theorem run (hprobe : ∀ w, probe (view w) = (probe' w).map id view) (p : Plan)
    (c : Configuration) (w : τ) :
    p.run h c probe (view w) = (p.run k c probe' w).map id view := by
  unfold Plan.run
  simp only [hs.look, hs.date, hs.interrupts]
  by_cases hc : p.token.isCancelled (k.interrupts (k.look w))
  · simp [hc]
  simp only [hc, hs.settle hprobe]
  rcases p.settle k c probe' _ (k.look w) with ⟨_ | ⟨o, summary⟩, g, w'⟩
  · simp [hs.drop]
  · simp [hs.conclude]

end Host.Sees

namespace Plan

variable {σ : Type}

/-- The journal of a run. -/
def journal (h : Host σ) (p : Plan) (c : Configuration) (probe : σ → ProbeResult × σ) (s : σ) :
    Journal :=
  (p.run h.journaled c (h.journaledProbe probe) (s, [])).2.2

theorem run_journaled (h : Host σ) (p : Plan) (c : Configuration) (probe : σ → ProbeResult × σ)
    (s : σ) :
    p.run h.journaled c (h.journaledProbe probe) (s, []) =
      ((p.run h c probe s).1, (p.run h c probe s).2, p.journal h c probe s) := by
  have hprobe (w : σ × Journal) :
      probe w.1 = (h.journaledProbe probe w).map id Prod.fst := rfl
  rw [show p.run h c probe s = _ from h.journaled_sees.run hprobe p c (s, [])]
  rfl

end Plan

end EngineBench
