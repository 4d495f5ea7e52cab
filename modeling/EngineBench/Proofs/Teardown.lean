import EngineBench.Proofs.Projection
import EngineBench.Proofs.Waiting

/-!
# What a guard does to its engine

The operations on an engine and on its guard, by the journals they leave.

* `Engine.Observed`, `Engine.Stopped` and `Guard.Cleaned` list what a look, a forced end and a
  cleanup can do, with the journal of each case.
* `Host.Keeps.isRunning` and `Host.Keeps.cleanup` say that nothing else happens.
-/

namespace EngineBench

namespace Engine

/-- It is known how an engine ended exactly if it is known to have exited. -/
def Coherent (e : Engine) : Prop := e.state = .exited ↔ e.exitStatus.isSome

/-- A look at an engine: the journal, and what is known then. -/
inductive Observed (e : Engine) : Journal → Engine → Prop
  | known : e.state = .exited → Observed e [] e
  | seen {a : Entry} {status : ExitStatus} : e.state = .running →
      a.deed = .polled e.pid (some status) → Observed e [a] (e.markExited status)
  | alive {a : Entry} : e.state = .running → a.deed = .polled e.pid none → Observed e [a] e

/-- The end of a running engine by a kill: the journal, the result and what is known then. -/
inductive Killed (e : Engine) : Journal → Guard.CleanupResult → Engine → Prop
  /-- There is no deadline for the wait. -/
  | overflow {kill : Entry} {j : Journal} :
      kill.deed.signal? = some (.group e.pid, .kill) → Waited e.pid Guard.killWait j none →
      Killed e (kill :: j) (.error .clockOverflow) e
  | killed {kill : Entry} {j : Journal} {status : ExitStatus} :
      kill.deed.signal? = some (.group e.pid, .kill) →
      Waited e.pid Guard.killWait j (some (some status)) →
      Killed e (kill :: j) (.ok (.ok .killed)) (e.markExited status)
  /-- The exit was not seen in the whole wait. -/
  | unconfirmed {kill : Entry} {j : Journal} :
      kill.deed.signal? = some (.group e.pid, .kill) →
      Waited e.pid Guard.killWait j (some none) →
      Killed e (kill :: j) (.ok (.error ⟨e.pid⟩)) e

/-- The end of a running engine in two stages: the journal, the result and what is known then. -/
inductive Stopped (e : Engine) (grace : Duration) :
    Journal → Guard.CleanupResult → Engine → Prop
  /-- There is no deadline for the time of grace. -/
  | overflow {term : Entry} {j : Journal} :
      term.deed.signal? = some (.group e.pid, .terminate) → Waited e.pid grace j none →
      Stopped e grace (term :: j) (.error .clockOverflow) e.noteTermination
  | terminated {term : Entry} {j : Journal} {status : ExitStatus} :
      term.deed.signal? = some (.group e.pid, .terminate) →
      Waited e.pid grace j (some (some status)) →
      Stopped e grace (term :: j) (.ok (.ok .terminated)) (e.noteTermination.markExited status)
  /-- The exit was not seen in the whole time of grace. -/
  | escalated {term : Entry} {j j' : Journal} {r : Guard.CleanupResult} {e' : Engine} :
      term.deed.signal? = some (.group e.pid, .terminate) → Waited e.pid grace j (some none) →
      e.noteTermination.Killed j' r e' → Stopped e grace (term :: (j ++ j')) r e'

end Engine

namespace Guard

/-- There is nothing left to stop. -/
def IsClear (g : Guard) : Prop := ∀ e ∈ g.engine, e.state = .exited

/-- What a cleanup says when there is nothing left to stop. -/
def clearAction (g : Guard) : CleanupAction :=
  if g.engine.isSome then .alreadyExited else .nothingToDo

/-- A look at the engine of a guard: the journal, and the guard then. -/
inductive Looked (g : Guard) : Journal → Guard → Prop
  | empty : g.engine = none → Looked g [] g
  | engine {e e' : Engine} {j : Journal} : g.engine = some e → e.Observed j e' →
      Looked g j { g with engine := some e' }

/-- A cleanup: the journal, the result and the guard then. -/
inductive Cleaned (g : Guard) : Journal → CleanupResult → Guard → Prop
  | empty : g.engine = none → Cleaned g [] (.ok (.ok .nothingToDo)) g
  | gone {e e' : Engine} {j : Journal} : g.engine = some e → e.Observed j e' →
      e'.state = .exited →
      Cleaned g j (.ok (.ok .alreadyExited)) { g with engine := some e', attempted := true }
  | again {e : Engine} {a : Entry} : g.engine = some e → e.state = .running →
      a.deed = .polled e.pid none → g.attempted = true →
      Cleaned g [a] (.ok (.error ⟨e.pid⟩)) g
  | first {e e' : Engine} {a : Entry} {j : Journal} {r : CleanupResult} : g.engine = some e →
      e.state = .running → a.deed = .polled e.pid none → g.attempted = false →
      e.Stopped g.grace j r e' →
      Cleaned g (a :: j) r { g with engine := some e', attempted := true }

end Guard

/-! ## Looks at an engine -/

namespace Engine

variable {e e' : Engine} {j : Journal}

theorem Coherent.started (pid : ProcessId) (log : Path) : (started pid log).Coherent :=
  ⟨nofun, nofun⟩

theorem Coherent.markExited (e : Engine) (status : ExitStatus) : (e.markExited status).Coherent :=
  ⟨fun _ => rfl, fun _ => rfl⟩

theorem Observed.pid_eq (ho : e.Observed j e') : e'.pid = e.pid := by
  cases ho <;> rfl

theorem Observed.coherent (ho : e.Observed j e') (hc : e.Coherent) : e'.Coherent := by
  cases ho with
  | known _ => exact hc
  | seen _ _ => exact .markExited e _
  | alive _ _ => exact hc

theorem Observed.quiet (ho : e.Observed j e') : j.signals = [] := by
  cases ho with
  | known _ => rfl
  | seen _ ha => simp [Journal.signals_cons, ha, Deed.signal?]
  | alive _ ha => simp [Journal.signals_cons, ha, Deed.signal?]

/-- An engine that is known to have exited is not looked at any more. -/
theorem Observed.of_exited (ho : e.Observed j e') (he : e.state = .exited) : j = [] ∧ e' = e := by
  cases ho with
  | known _ => exact ⟨rfl, rfl⟩
  | seen hr _ => rw [hr] at he; cases he
  | alive hr _ => rw [hr] at he; cases he

theorem Observed.exited_of_reaped (ho : e.Observed j e') {a : Entry} (ha : a ∈ j)
    (hr : a.deed.reaped? = some e.pid) : e'.state = .exited := by
  cases ho with
  | known _ => cases ha
  | seen _ _ => rfl
  | alive _ hd =>
    rw [List.mem_singleton.mp ha, hd] at hr
    cases hr

theorem Observed.reaps (ho : e.Observed j e') (hr : e.state = .running)
    (he : e'.state = .exited) : ∃ a ∈ j, a.deed.reaped? = some e.pid := by
  cases ho with
  | known h => rw [hr] at h; cases h
  | seen _ ha => exact ⟨_, List.mem_singleton_self _, by rw [ha]; rfl⟩
  | alive h _ => rw [he] at h; cases h

end Engine

/-! ## Forced ends -/

namespace Engine

variable {e e' : Engine} {j : Journal} {grace : Duration} {r : Guard.CleanupResult}

theorem Killed.pid_eq (hk : e.Killed j r e') : e'.pid = e.pid := by
  cases hk <;> rfl

theorem Killed.coherent (hk : e.Killed j r e') (hc : e.Coherent) : e'.Coherent := by
  cases hk with
  | overflow _ _ => exact hc
  | killed _ _ => exact .markExited e _
  | unconfirmed _ _ => exact hc

theorem Killed.eq_cons (hk : e.Killed j r e') :
    ∃ kill w, j = kill :: w ∧ kill.deed.signal? = some (.group e.pid, .kill) := by
  cases hk with
  | overflow hkill _ => exact ⟨_, _, rfl, hkill⟩
  | killed hkill _ => exact ⟨_, _, rfl, hkill⟩
  | unconfirmed hkill _ => exact ⟨_, _, rfl, hkill⟩

theorem Killed.signals_eq (hk : e.Killed j r e') : j.signals = [(.group e.pid, .kill)] := by
  cases hk with
  | overflow hkill hw => simp [Journal.signals_cons, hkill, hw.signals_eq_nil]
  | killed hkill hw => simp [Journal.signals_cons, hkill, hw.signals_eq_nil]
  | unconfirmed hkill hw => simp [Journal.signals_cons, hkill, hw.signals_eq_nil]

theorem Killed.silentAfter (hk : e.Killed j r e') (p : ProcessId) : j.SilentAfter p := by
  cases hk with
  | overflow hkill hw => exact .cons_signal hkill (.of_quiet hw.signals_eq_nil)
  | killed hkill hw => exact .cons_signal hkill (.of_quiet hw.signals_eq_nil)
  | unconfirmed hkill hw => exact .cons_signal hkill (.of_quiet hw.signals_eq_nil)

/-- A kill succeeds exactly if the exit is known then. -/
theorem Killed.ok_iff (hk : e.Killed j r e') (hr : e.state = .running) :
    (∃ a, r = .ok (.ok a)) ↔ e'.state = .exited := by
  cases hk with
  | overflow _ _ => simp [hr]
  | killed _ _ => simp [markExited]
  | unconfirmed _ _ => simp [hr]

theorem Killed.reaped_iff (hk : e.Killed j r e') (hr : e.state = .running) :
    (∃ a ∈ j, a.deed.reaped? = some e.pid) ↔ e'.state = .exited := by
  cases hk with
  | overflow hkill hw =>
    simp only [List.mem_cons, exists_eq_or_imp, Deed.reaped?_ne_some_of_signal? hkill, false_or,
      hr, reduceCtorEq, iff_false]
    rintro ⟨a, ha, hra⟩
    rw [hw.unreaped (.inl rfl) a ha] at hra
    cases hra
  | killed hkill hw =>
    obtain ⟨a, ha, hra⟩ := hw.reaps
    simp only [markExited, iff_true]
    exact ⟨a, List.mem_cons_of_mem _ ha, hra⟩
  | unconfirmed hkill hw =>
    simp only [List.mem_cons, exists_eq_or_imp, Deed.reaped?_ne_some_of_signal? hkill, false_or,
      hr, reduceCtorEq, iff_false]
    rintro ⟨a, ha, hra⟩
    rw [hw.unreaped (.inr rfl) a ha] at hra
    cases hra

theorem Killed.tooLate (hk : e.Killed j r e') {halt : Halt} (hr : r = .error halt) :
    ∃ a ∈ j, a.TooLate Guard.killWait := by
  cases hk with
  | overflow _ hw =>
    obtain ⟨a, ha, hlate⟩ := hw.tooLate
    exact ⟨a, List.mem_cons_of_mem _ ha, hlate⟩
  | killed _ _ => cases hr
  | unconfirmed _ _ => cases hr

theorem Stopped.pid_eq (hs : e.Stopped grace j r e') : e'.pid = e.pid := by
  cases hs with
  | overflow _ _ => rfl
  | terminated _ _ => rfl
  | escalated _ _ hk => exact hk.pid_eq

theorem Stopped.coherent (hs : e.Stopped grace j r e') (hc : e.Coherent) : e'.Coherent := by
  cases hs with
  | overflow _ _ => exact hc
  | terminated _ _ => exact .markExited _ _
  | escalated _ _ hk => exact hk.coherent hc

/-- A forced end sends one request and at most one kill, in this order. -/
theorem Stopped.signals_prefix (hs : e.Stopped grace j r e') :
    j.signals <+: [(.group e.pid, .terminate), (.group e.pid, .kill)] := by
  cases hs with
  | overflow hterm hw => simp [Journal.signals_cons, hterm, hw.signals_eq_nil]
  | terminated hterm hw => simp [Journal.signals_cons, hterm, hw.signals_eq_nil]
  | escalated hterm hw hk =>
    rw [Journal.signals_cons, Journal.signals_append, hterm, hw.signals_eq_nil, hk.signals_eq]
    exact List.prefix_refl _

theorem Stopped.of_kill (hs : e.Stopped grace j r e')
    (hkill : (.group e.pid, .kill) ∈ j.signals) :
    ∃ term w j', j = term :: (w ++ j') ∧
      term.deed.signal? = some (.group e.pid, .terminate) ∧ Waited e.pid grace w (some none) ∧
      e.noteTermination.Killed j' r e' := by
  cases hs with
  | overflow hterm hw =>
    simp only [Journal.signals_cons, hterm, hw.signals_eq_nil] at hkill
    exact absurd hkill (by simp [Signal.kill, Signal.terminate])
  | terminated hterm hw =>
    simp only [Journal.signals_cons, hterm, hw.signals_eq_nil] at hkill
    exact absurd hkill (by simp [Signal.kill, Signal.terminate])
  | escalated hterm hw hk => exact ⟨_, _, _, rfl, hterm, hw, hk⟩

theorem Stopped.silentAfter (hs : e.Stopped grace j r e') (p : ProcessId) :
    j.SilentAfter p := by
  cases hs with
  | overflow hterm hw => exact .cons_signal hterm (.of_quiet hw.signals_eq_nil)
  | terminated hterm hw => exact .cons_signal hterm (.of_quiet hw.signals_eq_nil)
  | escalated hterm hw hk =>
    -- The kill goes out only because the whole wait for the exit was in vain.
    refine .cons_signal hterm (.unreaped_append ?_ (hk.silentAfter p))
    intro a ha
    rw [hw.unreaped (.inr rfl) a ha]
    exact nofun

theorem Stopped.ok_iff (hs : e.Stopped grace j r e') (hr : e.state = .running) :
    (∃ a, r = .ok (.ok a)) ↔ e'.state = .exited := by
  cases hs with
  | overflow _ _ => simp [noteTermination, hr]
  | terminated _ _ => simp [markExited]
  | escalated _ _ hk => exact hk.ok_iff hr

/-- A forced end that succeeds says which stage it took. -/
theorem Stopped.action (hs : e.Stopped grace j r e') {a : CleanupAction} (hr : r = .ok (.ok a)) :
    a = .terminated ∨ a = .killed := by
  cases hs with
  | overflow _ _ => cases hr
  | terminated _ _ => cases hr; exact .inl rfl
  | escalated _ _ hk =>
    cases hk with
    | overflow _ _ => cases hr
    | killed _ _ => cases hr; exact .inr rfl
    | unconfirmed _ _ => cases hr

theorem Stopped.reaped_iff (hs : e.Stopped grace j r e') (hr : e.state = .running) :
    (∃ a ∈ j, a.deed.reaped? = some e.pid) ↔ e'.state = .exited := by
  cases hs with
  | overflow hterm hw =>
    simp only [List.mem_cons, exists_eq_or_imp, Deed.reaped?_ne_some_of_signal? hterm, false_or,
      noteTermination, hr, reduceCtorEq, iff_false]
    rintro ⟨a, ha, hra⟩
    rw [hw.unreaped (.inl rfl) a ha] at hra
    cases hra
  | terminated hterm hw =>
    obtain ⟨a, ha, hra⟩ := hw.reaps
    simp only [markExited, iff_true]
    exact ⟨a, List.mem_cons_of_mem _ ha, hra⟩
  | escalated hterm hw hk =>
    rw [← hk.reaped_iff hr]
    simp only [List.mem_cons, List.mem_append, exists_eq_or_imp,
      Deed.reaped?_ne_some_of_signal? hterm, false_or]
    constructor
    · rintro ⟨a, ha | ha, hra⟩
      · rw [hw.unreaped (.inr rfl) a ha] at hra
        cases hra
      · exact ⟨a, ha, hra⟩
    · rintro ⟨a, ha, hra⟩
      exact ⟨a, .inr ha, hra⟩

theorem Stopped.tooLate (hs : e.Stopped grace j r e') {halt : Halt} (hr : r = .error halt) :
    ∃ a ∈ j, a.TooLate grace ∨ a.TooLate Guard.killWait := by
  cases hs with
  | overflow _ hw =>
    obtain ⟨a, ha, hlate⟩ := hw.tooLate
    exact ⟨a, List.mem_cons_of_mem _ ha, .inl hlate⟩
  | terminated _ _ => cases hr
  | escalated _ _ hk =>
    obtain ⟨a, ha, hlate⟩ := hk.tooLate hr
    exact ⟨a, List.mem_cons_of_mem _ (List.mem_append_right _ ha), .inr hlate⟩

end Engine

/-! ## Looks and cleanups -/

namespace Guard

variable {g g' : Guard} {j : Journal} {r : CleanupResult}

/-- There is something left to stop exactly if the engine may be running. -/
theorem not_isClear_iff : ¬ g.IsClear ↔ g.engine.map Engine.state = some .running := by
  unfold IsClear
  cases g.engine with
  | none => simp
  | some e => cases he : e.state <;> simp [he]

theorem Looked.grace_eq (hl : g.Looked j g') : g'.grace = g.grace := by
  cases hl <;> rfl

theorem Looked.attempted_eq (hl : g.Looked j g') : g'.attempted = g.attempted := by
  cases hl <;> rfl

theorem Looked.pid_eq (hl : g.Looked j g') :
    g'.engine.map Engine.pid = g.engine.map Engine.pid := by
  cases hl with
  | empty _ => rfl
  | engine hg ho => simp [hg, ho.pid_eq]

theorem Looked.coherent (hl : g.Looked j g') (hc : ∀ e ∈ g.engine, e.Coherent) :
    ∀ e ∈ g'.engine, e.Coherent := by
  cases hl with
  | empty _ => exact hc
  | engine hg ho =>
    rintro _ ⟨⟩
    exact ho.coherent (hc _ hg)

theorem Looked.quiet (hl : g.Looked j g') : j.signals = [] := by
  cases hl with
  | empty _ => rfl
  | engine _ ho => exact ho.quiet

/-- A guard with nothing left to stop is not looked at. -/
theorem Looked.of_isClear (hl : g.Looked j g') (hg : g.IsClear) : j = [] ∧ g' = g := by
  cases hl with
  | empty _ => exact ⟨rfl, rfl⟩
  | engine he ho =>
    obtain ⟨rfl, rfl⟩ := ho.of_exited (hg _ he)
    obtain ⟨engine, grace, attempted⟩ := g
    cases he
    exact ⟨rfl, rfl⟩

theorem Looked.isClear_of_reaped (hl : g.Looked j g') {e : Engine} (he : g.engine = some e)
    {a : Entry} (ha : a ∈ j) (hr : a.deed.reaped? = some e.pid) : g'.IsClear := by
  cases hl with
  | empty _ => cases ha
  | engine hg ho =>
    rw [hg] at he
    cases he
    rintro _ ⟨⟩
    exact ho.exited_of_reaped ha hr

theorem Cleaned.grace_eq (hc : g.Cleaned j r g') : g'.grace = g.grace := by
  cases hc <;> rfl

theorem Cleaned.pid_eq (hc : g.Cleaned j r g') :
    g'.engine.map Engine.pid = g.engine.map Engine.pid := by
  cases hc with
  | empty _ => rfl
  | gone hg ho _ => simp [hg, ho.pid_eq]
  | again _ _ _ _ => rfl
  | first hg _ _ _ hs => simp [hg, hs.pid_eq]

theorem Cleaned.coherent (hc : g.Cleaned j r g') (hco : ∀ e ∈ g.engine, e.Coherent) :
    ∀ e ∈ g'.engine, e.Coherent := by
  cases hc with
  | empty _ => exact hco
  | gone hg ho _ =>
    rintro _ ⟨⟩
    exact ho.coherent (hco _ hg)
  | again _ _ _ _ => exact hco
  | first hg _ _ _ hs =>
    rintro _ ⟨⟩
    exact hs.coherent (hco _ hg)

/-- After a cleanup with an engine there was one. -/
theorem Cleaned.attempted (hc : g.Cleaned j r g') (hg : g.engine ≠ none) :
    g'.attempted = true := by
  cases hc with
  | empty h => exact absurd h hg
  | gone _ _ _ => rfl
  | again _ _ _ hatt => exact hatt
  | first _ _ _ _ _ => rfl

/-- A cleanup succeeds exactly if there is nothing left to stop then. -/
theorem Cleaned.ok_iff (hc : g.Cleaned j r g') : (∃ a, r = .ok (.ok a)) ↔ g'.IsClear := by
  cases hc with
  | empty hg => simp [IsClear, hg]
  | gone _ _ he' => simp [IsClear, he']
  | again hg he _ _ => simp [IsClear, hg, he]
  | first _ he _ _ hs => simp [IsClear, hs.ok_iff he]

/-- A cleanup has nothing to do exactly if there is no engine. -/
theorem Cleaned.nothingToDo_iff (hc : g.Cleaned j r g') :
    r = .ok (.ok .nothingToDo) ↔ g.engine = none := by
  cases hc with
  | empty hg => simp [hg]
  | gone hg _ _ => simp [hg]
  | again hg _ _ _ => simp [hg]
  | first hg _ _ _ hs =>
    rw [hg]
    refine iff_of_false (fun hr => ?_) nofun
    rcases hs.action hr with h | h <;> cases h

/-- A cleanup with nothing left to stop touches nothing and says so. -/
theorem Cleaned.of_isClear (hc : g.Cleaned j r g') (hg : g.IsClear) :
    j = [] ∧ r = .ok (.ok g.clearAction) ∧ g'.engine = g.engine := by
  cases hc with
  | empty he => exact ⟨rfl, by simp [clearAction, he], rfl⟩
  | gone he ho _ =>
    obtain ⟨rfl, rfl⟩ := ho.of_exited (hg _ he)
    exact ⟨rfl, by simp [clearAction, he], he.symm⟩
  | again he hr _ _ => rw [hg _ he] at hr; cases hr
  | first he hr _ _ _ => rw [hg _ he] at hr; cases hr

theorem Cleaned.quiet_of_attempted (hc : g.Cleaned j r g') (hatt : g.attempted = true) :
    j.signals = [] := by
  cases hc with
  | empty _ => rfl
  | gone _ ho _ => exact ho.quiet
  | again _ _ ha _ => simp [Journal.signals_cons, ha, Deed.signal?]
  | first _ _ _ h _ => rw [hatt] at h; cases h

theorem Cleaned.quiet_of_empty (hc : g.Cleaned j r g') (hg : g.engine = none) :
    j.signals = [] := by
  rw [(hc.of_isClear (by simp [IsClear, hg])).1]
  rfl

/-- A cleanup sends one request to end and then at most one kill, to the group of the engine. -/
theorem Cleaned.signals_prefix (hc : g.Cleaned j r g') {e : Engine} (hg : g.engine = some e) :
    j.signals <+: [(.group e.pid, .terminate), (.group e.pid, .kill)] := by
  cases hc with
  | empty _ => exact List.nil_prefix
  | gone _ ho _ => rw [ho.quiet]; exact List.nil_prefix
  | again _ _ ha _ => simp [Journal.signals_cons, ha, Deed.signal?]
  | first he _ ha _ hs =>
    rw [hg] at he
    cases he
    rw [Journal.signals_cons, ha]
    exact hs.signals_prefix

/-- A kill is sent after the request and the whole time of grace, in a first cleanup. -/
theorem Cleaned.of_kill (hc : g.Cleaned j r g') {e : Engine} (hg : g.engine = some e)
    (hkill : (.group e.pid, .kill) ∈ j.signals) :
    ∃ a term w j', ∃ e', j = a :: term :: (w ++ j') ∧ a.deed = .polled e.pid none ∧
      term.deed.signal? = some (.group e.pid, .terminate) ∧
      Waited e.pid g.grace w (some none) ∧ e.noteTermination.Killed j' r e' ∧
      g'.engine = some e' := by
  cases hc with
  | empty _ => cases hkill
  | gone _ ho _ => rw [ho.quiet] at hkill; cases hkill
  | again _ _ ha _ => simp [Journal.signals_cons, ha, Deed.signal?] at hkill
  | first he _ ha _ hs =>
    rw [hg] at he
    cases he
    rw [Journal.signals_cons, ha] at hkill
    obtain ⟨term, w, j', rfl, hterm, hw, hk⟩ := hs.of_kill hkill
    exact ⟨_, term, w, j', _, rfl, ha, hterm, hw, hk, rfl⟩

theorem Cleaned.silentAfter (hc : g.Cleaned j r g') (p : ProcessId) : j.SilentAfter p := by
  cases hc with
  | empty _ => exact .of_quiet rfl
  | gone _ ho _ => exact .of_quiet ho.quiet
  | again _ _ ha _ => exact .of_quiet (by simp [Journal.signals_cons, ha, Deed.signal?])
  | first _ _ ha _ hs => exact .cons (by rw [ha]; exact nofun) (hs.silentAfter p)

theorem Cleaned.isClear_of_reaped (hc : g.Cleaned j r g') {e : Engine} (hg : g.engine = some e)
    {a : Entry} (ha : a ∈ j) (hr : a.deed.reaped? = some e.pid) : g'.IsClear := by
  cases hc with
  | empty _ => cases ha
  | gone _ _ he' =>
    rintro _ ⟨⟩
    exact he'
  | again _ _ hd _ =>
    rw [List.mem_singleton.mp ha, hd] at hr
    cases hr
  | first he hrun hd _ hs =>
    rw [hg] at he
    cases he
    rintro _ ⟨⟩
    rcases List.mem_cons.mp ha with rfl | ha
    · rw [hd] at hr
      cases hr
    · exact (hs.reaped_iff hrun).mp ⟨a, ha, hr⟩

/-- A cleanup that finds a running engine to have exited sees the exit. -/
theorem Cleaned.reaps (hc : g.Cleaned j r g') {e : Engine} (hg : g.engine = some e)
    (hr : e.state = .running) (hg' : g'.IsClear) : ∃ a ∈ j, a.deed.reaped? = some e.pid := by
  cases hc with
  | empty h => rw [hg] at h; cases h
  | gone he ho he' =>
    rw [hg] at he
    cases he
    exact ho.reaps hr he'
  | again he _ _ _ =>
    rw [hg'  _ hg] at hr
    cases hr
  | first he _ _ _ hs =>
    rw [hg] at he
    cases he
    obtain ⟨a, ha, hra⟩ := (hs.reaped_iff hr).mpr (hg' _ rfl)
    exact ⟨a, List.mem_cons_of_mem _ ha, hra⟩

/-- A first cleanup that fails sent a kill and waited for the whole time after it. -/
theorem Cleaned.of_unconfirmed {u : Unconfirmed} (hc : g.Cleaned j (.ok (.error u)) g')
    (hatt : g.attempted = false) {e : Engine} (hg : g.engine = some e) :
    u = ⟨e.pid⟩ ∧ ∃ k kill w, j = k ++ kill :: w ∧
      kill.deed.signal? = some (.group e.pid, .kill) ∧ Waited e.pid killWait w (some none) ∧
      g'.engine.map Engine.state = some .running := by
  cases hc with
  | again _ _ _ h => rw [hatt] at h; cases h
  | @first _ _ a _ _ he hr ha _ hs =>
    rw [hg] at he
    cases he
    cases hs with
    | @escalated term w j' _ _ _ _ hk =>
      cases hk with
      | @unconfirmed kill w' hkill hw =>
        exact ⟨rfl, a :: term :: w, kill, w', rfl, hkill, hw, congrArg some hr⟩

theorem Cleaned.tooLate (hc : g.Cleaned j r g') {halt : Halt} (hr : r = .error halt) :
    ∃ a ∈ j, a.TooLate g.grace ∨ a.TooLate killWait := by
  cases hc with
  | empty _ => cases hr
  | gone _ _ _ => cases hr
  | again _ _ _ _ => cases hr
  | first _ _ _ _ hs =>
    obtain ⟨a, ha, hlate⟩ := hs.tooLate hr
    exact ⟨a, List.mem_cons_of_mem _ ha, hlate⟩

end Guard

/-! ## The operations by their cases -/

namespace Host.Keeps

variable {σ : Type} {h : Host σ} {journal : σ → Journal} (hk : h.Keeps journal)

include hk

theorem engine_poll (e : Engine) (s : σ) :
    ∃ j, journal (e.poll h s).2 = journal s ++ j ∧ e.Observed j (e.poll h s).1 := by
  have hj := hk.poll e.pid s
  unfold Engine.poll
  cases he : e.state with
  | exited => exact ⟨[], by simp, .known he⟩
  | running =>
    rcases hp : h.poll e.pid s with ⟨_ | status, s'⟩
    · rw [hp] at hj
      exact ⟨_, hj, .alive he rfl⟩
    · rw [hp] at hj
      exact ⟨_, hj, .seen he rfl⟩

/-- A wait for a running engine, and what is known of the engine then. -/
theorem engine_waitFor {e : Engine} (he : e.state = .running) (d : Duration) (s : σ) :
    ∃ start j r, journal (e.waitFor h d s).2 = journal s ++ start :: j ∧
      Waited e.pid d (start :: j) r ∧ (r = none ↔ start.TooLate d) ∧
      (e.waitFor h d s).1 =
        r.map fun status => (status.map e.markExited).getD e := by
  obtain ⟨start, j, hadd, hw, hlate⟩ := hk.waitFor_start e.pid d s
  refine ⟨start, j, _, ?_, hw, hlate, ?_⟩
  · rw [← hadd]
    simp only [Engine.waitFor, he]
    rcases h.waitFor e.pid d s with ⟨_ | _ | _, s'⟩ <;> rfl
  · simp only [Engine.waitFor, he]
    rcases h.waitFor e.pid d s with ⟨_ | _ | _, s'⟩ <;> rfl

theorem kill (e : Engine) (s : σ) :
    ∃ a : Entry, a.deed.signal? = some (.group e.pid, .kill) ∧
      journal (e.kill h s) = journal s ++ [a] :=
  ⟨_, rfl, hk.signal (.group e.pid) .kill s⟩

theorem terminate (e : Engine) (s : σ) :
    ∃ a : Entry, a.deed.signal? = some (.group e.pid, .terminate) ∧
      journal (e.terminate h s).2 = journal s ++ [a] :=
  ⟨_, rfl, hk.signal (.group e.pid) .terminate s⟩

theorem killEngine (g : Guard) {e : Engine} (he : e.state = .running) (s : σ) :
    ∃ j e', journal (g.killEngine h e s).2.2 = journal s ++ j ∧
      (g.killEngine h e s).2.1 = { g with engine := some e' } ∧
      e.Killed j (g.killEngine h e s).1 e' := by
  obtain ⟨kill, hkill, hsent⟩ := hk.kill e s
  obtain ⟨start, j, r, hadd, hw, -, hres⟩ := hk.engine_waitFor he Guard.killWait (e.kill h s)
  unfold Guard.killEngine
  rcases hwait : e.waitFor h Guard.killWait (e.kill h s) with ⟨res, s'⟩
  rw [hwait] at hadd hres
  have hjournal : journal s' = journal s ++ (kill :: start :: j) := by
    rw [hadd, hsent, List.append_assoc]
    rfl
  obtain rfl : res = _ := hres
  rcases r with _ | _ | status
  · exact ⟨_, _, hjournal, rfl, .overflow hkill hw⟩
  · refine ⟨_, e, hjournal, rfl, ?_⟩
    simp only [Option.map_some, Option.map_none, Option.getD_none, he, reduceCtorEq, if_false]
    exact .unconfirmed hkill hw
  · exact ⟨_, _, hjournal, rfl, .killed hkill hw⟩

/-- The stop of a running engine. Its second entry is the look that fixes the deadline, and the last
one if the clock cannot show the deadline. -/
theorem stopEngine_start (g : Guard) {e : Engine} (he : e.state = .running) (s : σ) :
    ∃ term start j e', journal (g.stopEngine h e s).2.2 = journal s ++ term :: start :: j ∧
      (g.stopEngine h e s).2.1 = { g with engine := some e' } ∧
      e.Stopped g.grace (term :: start :: j) (g.stopEngine h e s).1 e' ∧
      start.deed = .looked ∧ (start.TooLate g.grace → j = []) := by
  obtain ⟨term, hterm, hsent⟩ := hk.terminate e s
  -- The request changes the count only, so the wait is one for a running engine.
  have hasked : e.noteTermination.state = .running := he
  obtain ⟨start, j, r, hadd, hw, hlate, hres⟩ :=
    hk.engine_waitFor hasked g.grace (e.terminate h s).2
  unfold Guard.stopEngine
  simp only [show (e.terminate h s).1 = e.noteTermination from rfl]
  rcases hwait : e.noteTermination.waitFor h g.grace (e.terminate h s).2 with ⟨res, s'⟩
  rw [hwait] at hadd hres
  have hjournal : journal s' = journal s ++ (term :: start :: j) := by
    rw [hadd, hsent, List.append_assoc]
    rfl
  obtain rfl : res = _ := hres
  rcases r with _ | _ | status
  · refine ⟨term, start, j, _, hjournal, rfl, .overflow hterm hw, hw.looked, fun _ => ?_⟩
    cases hw with
    | overflow _ _ => rfl
  · obtain ⟨j', e', hadd', hg, hkilled⟩ := hk.killEngine g hasked s'
    simp only [Option.map_some, Option.map_none, Option.getD_none, hasked, reduceCtorEq, if_false]
    refine ⟨term, start, j ++ j', e', ?_, hg, .escalated hterm hw hkilled, hw.looked,
      fun hstart => ?_⟩
    · rw [hadd', hjournal, List.append_assoc]
      rfl
    · cases hlate.mpr hstart
  · refine ⟨term, start, j, _, hjournal, rfl, .terminated hterm hw, hw.looked, fun hstart => ?_⟩
    cases hlate.mpr hstart

theorem stopEngine (g : Guard) {e : Engine} (he : e.state = .running) (s : σ) :
    ∃ j e', journal (g.stopEngine h e s).2.2 = journal s ++ j ∧
      (g.stopEngine h e s).2.1 = { g with engine := some e' } ∧
      e.Stopped g.grace j (g.stopEngine h e s).1 e' := by
  obtain ⟨term, start, j, e', hadd, hg, hs, -⟩ := hk.stopEngine_start g he s
  exact ⟨term :: start :: j, e', hadd, hg, hs⟩

/-- Every look is one of those that `Guard.Looked` lists. -/
theorem isRunning (g : Guard) (s : σ) :
    ∃ j, journal (g.isRunning h s).2.2 = journal s ++ j ∧ g.Looked j (g.isRunning h s).2.1 := by
  unfold Guard.isRunning
  cases hg : g.engine with
  | none => exact ⟨[], by simp, .empty hg⟩
  | some e =>
    obtain ⟨j, hadd, ho⟩ := hk.engine_poll e s
    exact ⟨j, hadd, .engine hg ho⟩

/-- Every cleanup is one of those that `Guard.Cleaned` lists. -/
theorem cleanup (g : Guard) (s : σ) :
    ∃ j, journal (g.cleanup h s).2.2 = journal s ++ j ∧
      g.Cleaned j (g.cleanup h s).1 (g.cleanup h s).2.1 := by
  obtain ⟨engine, grace, attempted⟩ := g
  cases engine with
  | none => exact ⟨[], by simp [Guard.cleanup], .empty rfl⟩
  | some e =>
    obtain ⟨j, hadd, ho⟩ := hk.engine_poll e s
    simp only [Guard.cleanup]
    generalize e.poll h s = w at hadd ho ⊢
    obtain ⟨e', s'⟩ := w
    by_cases he' : e'.state = .exited
    · simp only [he', if_true]
      exact ⟨j, hadd, .gone rfl ho he'⟩
    simp only [he', if_false]
    -- The poll left the engine running, so it was running before and the poll was in vain.
    cases ho with
    | known he => exact absurd he he'
    | seen _ _ => exact absurd rfl he'
    | @alive a he ha =>
      cases attempted with
      | true => exact ⟨[a], hadd, .again rfl he ha rfl⟩
      | false =>
        obtain ⟨j', e', hadd', hg', hs⟩ := hk.stopEngine ⟨some _, grace, true⟩ he s'
        refine ⟨a :: j', ?_, ?_⟩
        · simp only [Bool.false_eq_true, if_false]
          rw [hadd', hadd, List.append_assoc]
          rfl
        · simp only [Bool.false_eq_true, if_false, hg']
          exact .first rfl he ha rfl hs

/-- A drop is the first cleanup, or nothing. -/
theorem drop (g : Guard) (s : σ) :
    ∃ j, journal (g.drop h s).2 = journal s ++ j ∧
      ((g.attempted = true ∧ j = [] ∧ (g.drop h s).1 = g) ∨
        (g.attempted = false ∧ ∃ r, g.Cleaned j r (g.drop h s).1)) := by
  unfold Guard.drop
  cases hatt : g.attempted with
  | true => exact ⟨[], by simp, .inl ⟨rfl, rfl, rfl⟩⟩
  | false =>
    obtain ⟨j, hadd, hc⟩ := hk.cleanup g s
    exact ⟨j, hadd, .inr ⟨rfl, _, hc⟩⟩

end Host.Keeps

end EngineBench
