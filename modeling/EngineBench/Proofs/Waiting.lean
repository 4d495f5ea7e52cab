import EngineBench.Proofs.Journal

/-!
# Journals of waits

What a wait leaves in the journal: a look that fixes the deadline, then looks, sleeps and polls
that find the process running, and at last what ended the wait.

* `Sliced` lists the journals of waits up to a deadline, round by round: a check, a look at the
  clock, and a sleep of at most a slice. What is checked is up to the wait (`Check`).
* `Waited` and `Paused` list the journals of waits for a process and of pauses that a cancellation
  cuts short.
* `Host.Keeps.waitFor` and `Host.Keeps.sleep_token` say that there are no others.
  `Host.NotesPauses` is all that pauses need for that.
-/

namespace EngineBench

/-- Nothing but time passes. -/
def Deed.IsPause : Deed → Prop
  | .looked => True
  | .slept _ => True
  | _ => False

/-- Part of a wait for a process that goes on. -/
def Deed.IsWait (p : ProcessId) (d : Deed) : Prop := d.IsPause ∨ d = .polled p none

/-- A wait for a process: its journal and its result. -/
inductive Waited (p : ProcessId) (d : Duration) : Journal → Option (Option ExitStatus) → Prop
  /-- The clock cannot show the deadline. -/
  | overflow {start : Entry} : start.deed = .looked → Host.deadline? start.clock d = none →
      Waited p d [start] none
  /-- The exit was seen. -/
  | seen {start last : Entry} {j : Journal} {status : ExitStatus} : start.deed = .looked →
      (∀ e ∈ j, e.deed.IsWait p) → last.deed = .polled p (some status) →
      Waited p d (start :: (j ++ [last])) (some (some status))
  /-- The time is over, and the process was running whenever it was looked at. -/
  | expired {start last : Entry} {j : Journal} : start.deed = .looked →
      (∀ e ∈ j, e.deed.IsWait p) → (∃ e ∈ j, e.deed = .polled p none) → last.deed = .looked →
      start.clock + d.nanoseconds ≤ last.clock →
      Waited p d (start :: (j ++ [last])) (some none)

/-- A pause of a run that may be cancelled: its journal and its result. -/
inductive Paused (t : Token) (d : Duration) : Journal → Option Bool → Prop
  /-- The clock cannot show the deadline. -/
  | overflow {start : Entry} : start.deed = .looked → Host.deadline? start.clock d = none →
      Paused t d [start] none
  /-- The run was found cancelled. -/
  | cut {start last : Entry} {j : Journal} : start.deed = .looked →
      (∀ e ∈ j, e.deed.IsPause) → last.deed = .looked → t.isCancelled last.interrupts = true →
      Paused t d (start :: (j ++ [last])) (some false)
  /-- The time is over, and the last check found no cancellation. -/
  | whole {start check last : Entry} {j : Journal} : start.deed = .looked →
      (∀ e ∈ j, e.deed.IsPause) → check.deed = .looked →
      t.isCancelled check.interrupts = false → last.deed = .looked →
      start.clock + d.nanoseconds ≤ last.clock →
      Paused t d (start :: (j ++ [check, last])) (some true)

/-! ## What a wait does not do -/

theorem Deed.IsPause.isIdle {d : Deed} (hd : d.IsPause) : d.IsIdle := by
  cases d <;> first | exact ⟨rfl, rfl, rfl⟩ | exact hd.elim

theorem Deed.IsWait.isIdle {p : ProcessId} {d : Deed} (hd : d.IsWait p) : d.IsIdle := by
  rcases hd with hd | rfl
  · exact hd.isIdle
  · exact ⟨rfl, rfl, rfl⟩

namespace Waited

variable {p : ProcessId} {d : Duration} {j : Journal} {r : Option (Option ExitStatus)}

theorem isWait_or_seen (hw : Waited p d j r) :
    ∀ e ∈ j, e.deed.IsWait p ∨ ∃ status, e.deed = .polled p (some status) := by
  have hlook (e : Entry) (he : e.deed = .looked) : e.deed.IsWait p := by
    rw [he]
    exact .inl trivial
  cases hw with
  | overflow hstart _ =>
    intro e he
    rw [List.mem_singleton.mp he]
    exact .inl (hlook _ hstart)
  | seen hstart hwait hlast =>
    simp only [List.mem_cons, List.mem_append, List.not_mem_nil, or_false]
    rintro e (rfl | he | rfl)
    · exact .inl (hlook _ hstart)
    · exact .inl (hwait e he)
    · exact .inr ⟨_, hlast⟩
  | expired hstart hwait _ hlast _ =>
    simp only [List.mem_cons, List.mem_append, List.not_mem_nil, or_false]
    rintro e (rfl | he | rfl)
    · exact .inl (hlook _ hstart)
    · exact .inl (hwait e he)
    · exact .inl (hlook _ hlast)

theorem quiet (hw : Waited p d j r) : ∀ e ∈ j, e.deed.signal? = none := by
  intro e he
  rcases hw.isWait_or_seen e he with hwait | ⟨status, hseen⟩
  · exact hwait.isIdle.1
  · rw [hseen]
    rfl

theorem not_isRefused (hw : Waited p d j r) : ∀ e ∈ j, ¬ e.deed.IsRefused := by
  intro e he
  rcases hw.isWait_or_seen e he with (hpause | hvain) | ⟨status, hseen⟩
  · cases hd : e.deed <;> simp_all [Deed.IsPause, Deed.IsRefused]
  · rw [hvain]
    exact id
  · rw [hseen]
    exact id

theorem signals_eq_nil (hw : Waited p d j r) : j.signals = [] :=
  Journal.signals_eq_nil_iff.mpr hw.quiet

/-- A wait that ends without the exit of the process saw the exit of nobody. -/
theorem unreaped (hw : Waited p d j r) (hr : r = none ∨ r = some none) :
    ∀ e ∈ j, e.deed.reaped? = none := by
  have hlook (e : Entry) (he : e.deed = .looked) : e.deed.reaped? = none := by rw [he]; rfl
  cases hw with
  | overflow hstart _ =>
    intro e he
    rw [List.mem_singleton.mp he]
    exact hlook _ hstart
  | seen _ _ _ => simp at hr
  | expired hstart hwait _ hlast _ =>
    simp only [List.mem_cons, List.mem_append, List.not_mem_nil, or_false]
    rintro e (rfl | he | rfl)
    · exact hlook _ hstart
    · exact (hwait e he).isIdle.2.1
    · exact hlook _ hlast

theorem reaps {status : ExitStatus} (hw : Waited p d j (some (some status))) :
    ∃ e ∈ j, e.deed.reaped? = some p := by
  cases hw with
  | @seen _ last _ _ _ _ hlast => exact ⟨last, by simp, by rw [hlast]; rfl⟩

/-- A wait begins with a look. -/
theorem looked {start : Entry} (hw : Waited p d (start :: j) r) : start.deed = .looked := by
  cases hw with
  | overflow hstart _ => exact hstart
  | seen hstart _ _ => exact hstart
  | expired hstart _ _ _ _ => exact hstart

theorem tooLate (hw : Waited p d j none) : ∃ e ∈ j, e.TooLate d := by
  cases hw with
  | overflow _ hlate => exact ⟨_, List.mem_singleton_self _, hlate⟩

end Waited

theorem Paused.isPause {t : Token} {d : Duration} {j : Journal} {r : Option Bool}
    (hp : Paused t d j r) : ∀ e ∈ j, e.deed.IsPause := by
  have hlook (e : Entry) (he : e.deed = .looked) : e.deed.IsPause := by rw [he]; trivial
  cases hp with
  | overflow hstart _ =>
    intro e he
    rw [List.mem_singleton.mp he]
    exact hlook _ hstart
  | cut hstart hpause hlast _ =>
    simp only [List.mem_cons, List.mem_append, List.not_mem_nil, or_false]
    rintro e (rfl | he | rfl)
    · exact hlook _ hstart
    · exact hpause e he
    · exact hlook _ hlast
  | whole hstart hpause hcheck _ hlast _ =>
    simp only [List.mem_cons, List.mem_append, List.not_mem_nil, or_false]
    rintro e (rfl | he | rfl | rfl)
    · exact hlook _ hstart
    · exact hpause e he
    · exact hlook _ hcheck
    · exact hlook _ hlast

theorem Paused.isIdle {t : Token} {d : Duration} {j : Journal} {r : Option Bool}
    (hp : Paused t d j r) : j.IsIdle := fun a ha => (hp.isPause a ha).isIdle

/-- A deadline lies the whole time behind the reading it is reckoned from. -/
theorem Host.eq_of_deadline? {now deadline : Nat} {d : Duration}
    (hd : deadline? now d = some deadline) : deadline = d.nanoseconds + now := by
  simp only [deadline?, Option.ite_none_right_eq_some, Option.some.injEq] at hd
  exact hd.2.symm

/-! ## Slices -/

/-- How long a deed sleeps. -/
def Deed.slept? : Deed → Option Duration
  | .slept d => some d
  | _ => none

/-- What a wait looks for before each of its sleeps. -/
structure Check (α : Type) where
  /-- An entry is a check with this answer; the wait goes on if it is `none`. -/
  Answers : Entry → Option α → Prop
  slept?_eq_none {e : Entry} {r : Option α} : Answers e r → e.deed.slept? = none

/-- A run looks whether it is cancelled. -/
def Token.check (t : Token) : Check Unit where
  Answers e r := e.deed = .looked ∧ t.isCancelled e.interrupts = r.isSome
  slept?_eq_none h := by rw [h.1]; rfl

/-- A process is asked for its exit. -/
def ProcessId.check (p : ProcessId) : Check ExitStatus where
  Answers e r := e.deed = .polled p r
  slept?_eq_none h := by rw [h]; rfl

/-- A wait up to a deadline, from a reading of the clock on: its journal, and the answer that ended
it if the deadline did not. -/
inductive Sliced {α : Type} (c : Check α) (deadline : Nat) : Nat → Journal → Option α → Prop
  | answered {now : Nat} {check : Entry} {a : α} : c.Answers check (some a) →
      Sliced c deadline now [check] (some a)
  | expired {now : Nat} {check look : Entry} : c.Answers check none → look.deed = .looked →
      deadline ≤ look.clock → Sliced c deadline now [check, look] none
  /-- Some of the time is left, and a slice of it is slept. -/
  | next {now : Nat} {check look sleep : Entry} {j : Journal} {r : Option α} :
      c.Answers check none → look.deed = .looked → now ≤ look.clock → look.clock < deadline →
      sleep.deed = .slept (Host.nextSleep (deadline - look.clock)) →
      look.clock + (Host.nextSleep (deadline - look.clock)).nanoseconds ≤ sleep.clock →
      Sliced c deadline sleep.clock j r →
      Sliced c deadline now (check :: look :: sleep :: j) r

/-- The end of a wait, and what can stand before it: looks, sleeps and checks without an answer. -/
theorem Sliced.split {α : Type} {c : Check α} {deadline now : Nat} {j : Journal} {r : Option α}
    (hs : Sliced c deadline now j r) :
    ∃ before check, (∀ e ∈ before, c.Answers e none ∨ e.deed.IsPause) ∧
      ((∃ a, r = some a ∧ c.Answers check (some a) ∧ j = before ++ [check]) ∨
        ∃ look, r = none ∧ c.Answers check none ∧ look.deed = .looked ∧ deadline ≤ look.clock ∧
          j = before ++ [check, look]) := by
  induction hs with
  | answered hcheck => exact ⟨[], _, List.forall_mem_nil _, .inl ⟨_, rfl, hcheck, rfl⟩⟩
  | expired hcheck hlook hle =>
    exact ⟨[], _, List.forall_mem_nil _, .inr ⟨_, rfl, hcheck, hlook, hle, rfl⟩⟩
  | @next _ check look sleep _ _ hcheck hlook _ _ hsleep _ _ ih =>
    obtain ⟨before, last, hbefore, hend⟩ := ih
    refine ⟨check :: look :: sleep :: before, last, ?_, ?_⟩
    · simp only [List.mem_cons, forall_eq_or_imp]
      refine ⟨.inl hcheck, .inr ?_, .inr ?_, hbefore⟩
      · rw [hlook]
        trivial
      · rw [hsleep]
        trivial
    · rcases hend with ⟨a, hr, hans, rfl⟩ | ⟨final, hr, hans, hfinal, hle, rfl⟩
      · exact .inl ⟨a, hr, hans, rfl⟩
      · exact .inr ⟨final, hr, hans, hfinal, hle, rfl⟩

/-! ## Pauses -/

/-- A view of the state gets something for each look and each sleep: what `mark` makes of its
entry. -/
structure Host.NotesPauses {σ α : Type} (h : Host σ) (mark : Entry → α) (notes : σ → List α) :
    Prop where
  look (s : σ) : notes (h.look s) = notes s ++ [mark (h.entry .looked (h.look s))]
  sleep (d : Duration) (s : σ) :
    notes (h.sleep d s) = notes s ++ [mark (h.entry (.slept d) (h.sleep d s))]

namespace Host.NotesPauses

variable {σ α : Type} {h : Host σ} {mark : Entry → α} {notes : σ → List α}
  (hn : h.NotesPauses mark notes)

include hn

/-- A pause up to a deadline is one in slices, with checks for a cancellation. -/
theorem sleepUntil_sliced (t : Token) (deadline : Nat) (s : σ) :
    ∃ (j : Journal) (r : Option Unit),
      notes (t.sleepUntil h deadline s).2 = notes s ++ j.map mark ∧
      (t.sleepUntil h deadline s).1 = r.isNone ∧ Sliced t.check deadline (h.clock s) j r := by
  -- A round looks twice, for a cancellation and at the clock.
  fun_induction Token.sleepUntil h t deadline s with
  | case1 s hc =>
    exact ⟨[h.entry .looked (h.look s)], some (), hn.look s, rfl, .answered ⟨rfl, hc⟩⟩
  | case2 s hc now hlt ih =>
    obtain ⟨j, r, hadd, hres, hs⟩ := ih
    have hnow : h.clock s ≤ now := Nat.le_trans (h.clock_look s) (h.clock_look (h.look s))
    refine ⟨h.entry .looked (h.look s) :: h.entry .looked (h.look (h.look s)) ::
      h.entry (.slept (nextSleep (deadline - now)))
        (h.sleep (nextSleep (deadline - now)) (h.look (h.look s))) :: j, r, ?_, hres,
      .next ⟨rfl, Bool.eq_false_iff.mpr hc⟩ rfl hnow hlt rfl (h.clock_sleep _ _) hs⟩
    rw [hadd, hn.sleep, hn.look, hn.look]
    simp
  | case3 s hc now hlt =>
    refine ⟨[h.entry .looked (h.look s), h.entry .looked (h.look (h.look s))], none, ?_, rfl,
      .expired ⟨rfl, Bool.eq_false_iff.mpr hc⟩ rfl (Nat.le_of_not_lt hlt)⟩
    rw [hn.look, hn.look]
    simp

/-- A pause up to a deadline: looks and sleeps, and what ended it. -/
theorem sleepUntil (t : Token) (deadline : Nat) (s : σ) :
    ∃ (j : Journal) (check : Entry),
      (∀ e ∈ j, e.deed.IsPause) ∧ check.deed = .looked ∧
      (((t.sleepUntil h deadline s).1 = false ∧ t.isCancelled check.interrupts = true ∧
          notes (t.sleepUntil h deadline s).2 = notes s ++ (j ++ [check]).map mark) ∨
        ∃ last : Entry, (t.sleepUntil h deadline s).1 = true ∧
          t.isCancelled check.interrupts = false ∧ last.deed = .looked ∧
          deadline ≤ last.clock ∧
          notes (t.sleepUntil h deadline s).2 = notes s ++ (j ++ [check, last]).map mark) := by
  obtain ⟨j, r, hadd, hres, hs⟩ := hn.sleepUntil_sliced t deadline s
  obtain ⟨before, check, hbefore, hend⟩ := hs.split
  refine ⟨before, check, ?_, ?_⟩
  · intro e he
    rcases hbefore e he with ⟨hlook, -⟩ | hpause
    · rw [hlook]
      trivial
    · exact hpause
  · rcases hend with ⟨_, rfl, ⟨hlook, hcan⟩, rfl⟩ | ⟨last, rfl, ⟨hlook, hcan⟩, hlast, hle, rfl⟩
    · exact ⟨hlook, .inl ⟨hres, hcan, hadd⟩⟩
    · exact ⟨hlook, .inr ⟨last, hres, hcan, hlast, hle, hadd⟩⟩

/-- A pause adds what it did, and that is a journal of pausing. -/
theorem sleep_token (t : Token) (d : Duration) (s : σ) :
    ∃ j : Journal, notes (t.sleep h d s).2 = notes s ++ j.map mark ∧
      Paused t d j (t.sleep h d s).1 := by
  unfold Token.sleep
  cases hd : deadline? (h.clock (h.look s)) d with
  | none =>
    simp only [hd]
    exact ⟨[h.entry .looked (h.look s)], hn.look s, .overflow rfl hd⟩
  | some deadline =>
    simp only [hd]
    have hdeadline := eq_of_deadline? hd
    obtain ⟨j, check, hpause, hcheck, hend⟩ := hn.sleepUntil t deadline (h.look s)
    rcases hend with ⟨hres, hcan, hadd⟩ | ⟨last, hres, hcan, hlast, hle, hadd⟩
    · refine ⟨h.entry .looked (h.look s) :: (j ++ [check]), ?_, ?_⟩
      · rw [hadd, hn.look]
        simp
      · rw [hres]
        exact .cut rfl hpause hcheck hcan
    · refine ⟨h.entry .looked (h.look s) :: (j ++ [check, last]), ?_, ?_⟩
      · rw [hadd, hn.look]
        simp
      · rw [hres]
        refine .whole rfl hpause hcheck hcan hlast ?_
        show h.clock (h.look s) + d.nanoseconds ≤ last.clock
        omega

end Host.NotesPauses

namespace Host.Keeps

variable {σ : Type} {h : Host σ} {journal : σ → Journal} (hk : h.Keeps journal)

include hk

/-! ## Waits for a process -/

/-- A wait up to a deadline is one in slices, with polls for the exit. -/
theorem waitUntil_sliced (p : ProcessId) (deadline : Nat) (s : σ) :
    ∃ j, journal (h.waitUntil p deadline s).2 = journal s ++ j ∧
      Sliced p.check deadline (h.clock s) j (h.waitUntil p deadline s).1 := by
  -- Along the recursion of the wait: a round is a vain poll, a look and a sleep.
  fun_induction Host.waitUntil h p deadline s with
  | case1 s status s' hp =>
    obtain ⟨poll, hpoll, hadd⟩ := hk.polled hp
    exact ⟨[poll], hadd, .answered hpoll⟩
  | case2 s s' hp hlt ih =>
    obtain ⟨poll, hpoll, hj⟩ := hk.polled hp
    obtain ⟨j, hadd, hs⟩ := ih
    have hnow : h.clock s ≤ h.clock (h.look s') := by
      have hle := h.clock_poll p s
      rw [hp] at hle
      exact Nat.le_trans hle (h.clock_look s')
    refine ⟨poll :: h.entry .looked (h.look s') ::
      h.entry (.slept (nextSleep (deadline - h.clock (h.look s'))))
        (h.sleep (nextSleep (deadline - h.clock (h.look s'))) (h.look s')) :: j, ?_,
      .next hpoll rfl hnow hlt rfl (h.clock_sleep _ _) hs⟩
    rw [hadd, hk.sleep, hk.look, hj]
    simp
  | case3 s s' hp hlt =>
    obtain ⟨poll, hpoll, hj⟩ := hk.polled hp
    refine ⟨[poll, h.entry .looked (h.look s')], ?_,
      .expired hpoll rfl (Nat.le_of_not_lt hlt)⟩
    rw [hk.look, hj]
    simp

/-- A wait up to a deadline: looks, sleeps and vain polls, and what ended it. -/
theorem waitUntil (p : ProcessId) (deadline : Nat) (s : σ) :
    ∃ (j : Journal) (last : Entry),
      journal (h.waitUntil p deadline s).2 = journal s ++ (j ++ [last]) ∧
      (∀ e ∈ j, e.deed.IsWait p) ∧
      ((∃ status, (h.waitUntil p deadline s).1 = some status ∧
          last.deed = .polled p (some status)) ∨
        ((h.waitUntil p deadline s).1 = none ∧ (∃ e ∈ j, e.deed = .polled p none) ∧
          last.deed = .looked ∧ deadline ≤ last.clock)) := by
  obtain ⟨j, hadd, hs⟩ := hk.waitUntil_sliced p deadline s
  obtain ⟨before, check, hbefore, hend⟩ := hs.split
  have hwait : ∀ e ∈ before, e.deed.IsWait p := fun e he => (hbefore e he).symm
  rcases hend with ⟨status, hres, hpoll, rfl⟩ | ⟨last, hres, hpoll, hlast, hle, rfl⟩
  · exact ⟨before, check, hadd, hwait, .inl ⟨status, hres, hpoll⟩⟩
  · refine ⟨before ++ [check], last, by simpa using hadd, ?_,
      .inr ⟨hres, ⟨check, by simp, hpoll⟩, hlast, hle⟩⟩
    exact List.forall_mem_append.mpr ⟨hwait, List.forall_mem_singleton.mpr (.inr hpoll)⟩

/-- A wait for a process leaves a journal of waiting, and fails exactly if the clock cannot show the
deadline at its first look. -/
theorem waitFor_start (p : ProcessId) (d : Duration) (s : σ) :
    ∃ start j, journal (h.waitFor p d s).2 = journal s ++ start :: j ∧
      Waited p d (start :: j) (h.waitFor p d s).1 ∧
      ((h.waitFor p d s).1 = none ↔ start.TooLate d) := by
  refine ⟨h.entry .looked (h.look s), ?_⟩
  unfold Host.waitFor
  cases hd : deadline? (h.clock (h.look s)) d with
  | none =>
    simp only [hd]
    exact ⟨[], hk.look s, .overflow rfl hd, iff_of_true trivial hd⟩
  | some deadline =>
    simp only [hd]
    obtain ⟨j, last, hadd, hwait, hend⟩ := hk.waitUntil p deadline (h.look s)
    have hnot : ¬ (h.entry .looked (h.look s)).TooLate d := by
      intro hlate
      rw [Entry.TooLate, entry, hd] at hlate
      cases hlate
    refine ⟨j ++ [last], ?_, ?_, iff_of_false nofun hnot⟩
    · rw [hadd, hk.look]
      simp
    · rcases hend with ⟨status, hres, hlast⟩ | ⟨hres, hpolled, hlast, hle⟩
      · rw [hres]
        exact .seen rfl hwait hlast
      · rw [hres]
        refine .expired rfl hwait hpolled hlast ?_
        have hdeadline := eq_of_deadline? hd
        show h.clock (h.look s) + d.nanoseconds ≤ last.clock
        omega

/-- A wait for a process leaves a journal of waiting. -/
theorem waitFor (p : ProcessId) (d : Duration) (s : σ) :
    ∃ j, journal (h.waitFor p d s).2 = journal s ++ j ∧ Waited p d j (h.waitFor p d s).1 := by
  obtain ⟨start, j, hadd, hw, -⟩ := hk.waitFor_start p d s
  exact ⟨start :: j, hadd, hw⟩

/-- A pause leaves a journal of pausing. -/
theorem sleep_token (t : Token) (d : Duration) (s : σ) :
    ∃ j, journal (t.sleep h d s).2 = journal s ++ j ∧ Paused t d j (t.sleep h d s).1 := by
  have hnotes : h.NotesPauses id journal := ⟨hk.look, hk.sleep⟩
  obtain ⟨j, hadd, hp⟩ := hnotes.sleep_token t d s
  rw [List.map_id] at hadd
  exact ⟨j, hadd, hp⟩

end Host.Keeps

end EngineBench
