import EngineBench.Proofs.Projection
import EngineBench.Proofs.Waiting
import Mathlib.Algebra.Order.Floor.Div

/-!
# Waits are bounded and never early

Nothing wakes a wait, so it sleeps in slices and checks before each of them whether to go on. How
much of its time is left it learns from a clock that it does not control: a sleep may take longer
than it was asked to, and the clock goes on between two sleeps as well.

* `Journal.FitsInto` bounds the sleeps of a wait, by their number, one by one, and together.
* `Sliced.fitsInto` says that each sleep of a wait uses up a slice of what is left, or all of it.
  `Sliced.prompt` says what can still be slept once each check would have an answer.
* `TimelyPause` and `TimelyWait` are what can be relied on in a pause that a cancellation cuts short
  and in a wait for a process; `Host.waits_timely` says that it is so on every host.
-/

namespace EngineBench

namespace Journal

/-- The sleeps, in their order. -/
def sleeps (j : Journal) : List Duration := j.filterMap fun e => e.deed.slept?

theorem sleeps_cons (e : Entry) (j : Journal) :
    sleeps (e :: j) = e.deed.slept?.toList ++ sleeps j := by
  simp only [sleeps, List.filterMap_cons]
  cases e.deed.slept? <;> rfl

theorem sleeps_cons_of_awake {e : Entry} (he : e.deed.slept? = none) (j : Journal) :
    sleeps (e :: j) = sleeps j := by
  rw [sleeps_cons, he]
  rfl

/-- The sleeps of a wait of so many nanoseconds: there are at most as many as the time has slices, a
part of a slice counted as one, none is longer than a slice, and together they are not longer than
the time. -/
structure FitsInto (j : Journal) (n : Nat) : Prop where
  length_le : j.sleeps.length ≤ n ⌈/⌉ Host.slice.nanoseconds
  le_slice : ∀ d ∈ j.sleeps, d.nanoseconds ≤ Host.slice.nanoseconds
  sum_le : (j.sleeps.map Duration.nanoseconds).sum ≤ n

/-- At least a time passes from the first entry to the last. -/
def Lasts (j : Journal) (d : Duration) : Prop :=
  ∃ first last, j.head? = some first ∧ j.getLast? = some last ∧
    first.clock + d.nanoseconds ≤ last.clock

/-- An entry comes right behind a sleep. -/
def IsBehindSleep (j : Journal) (e : Entry) : Prop :=
  ∃ before sleep after, j = before ++ sleep :: e :: after ∧ sleep.deed.slept? ≠ none

/-- A wait checks whether to go on right behind its first look, and right behind each sleep. -/
def IsCheck (j : Journal) (e : Entry) : Prop := j[1]? = some e ∨ j.IsBehindSleep e

theorem FitsInto.nil (n : Nat) : FitsInto [] n where
  length_le := Nat.zero_le _
  le_slice _ hd := (List.not_mem_nil hd).elim
  sum_le := Nat.zero_le _

theorem FitsInto.cons_awake {j : Journal} {e : Entry} {n : Nat} (hj : j.FitsInto n)
    (he : e.deed.slept? = none) : FitsInto (e :: j) n := by
  have hsleeps := sleeps_cons_of_awake he j
  exact ⟨hsleeps ▸ hj.length_le, hsleeps ▸ hj.le_slice, hsleeps ▸ hj.sum_le⟩

/-- A sleep when so much is left takes a slice of it, or all of it. -/
theorem FitsInto.cons_sleep {j : Journal} {e : Entry} {n m k : Nat} (hj : j.FitsInto m)
    (he : e.deed = .slept (Host.nextSleep n)) (hn : 0 < n)
    (hm : m ≤ n - (Host.nextSleep n).nanoseconds) (hk : n ≤ k) : FitsInto (e :: j) k := by
  have hslice : Host.slice.nanoseconds = 50000000 := rfl
  have hnext : (Host.nextSleep n).nanoseconds = min n 50000000 := rfl
  have hsleeps : sleeps (e :: j) = Host.nextSleep n :: j.sleeps := by
    rw [sleeps_cons, he]
    rfl
  refine ⟨?_, ?_, ?_⟩
  · have hlength := hj.length_le
    rw [hslice, Nat.ceilDiv_eq_add_pred_div] at hlength ⊢
    rw [hsleeps, List.length_cons]
    omega
  · rw [hsleeps]
    exact List.forall_mem_cons.mpr ⟨Nat.min_le_right _ _, hj.le_slice⟩
  · have hsum := hj.sum_le
    rw [hsleeps, List.map_cons, List.sum_cons]
    omega

theorem not_isBehindSleep_nil {e : Entry} : ¬ IsBehindSleep [] e := by
  rintro ⟨before, sleep, after, hj, -⟩
  simp at hj

theorem isBehindSleep_cons {a e : Entry} {j : Journal} :
    IsBehindSleep (a :: j) e ↔
      (a.deed.slept? ≠ none ∧ j.head? = some e) ∨ j.IsBehindSleep e := by
  constructor
  · rintro ⟨before, sleep, after, hj, hsleep⟩
    cases before with
    | nil =>
      obtain ⟨rfl, rfl⟩ := List.cons.inj hj
      exact .inl ⟨hsleep, rfl⟩
    | cons b before =>
      obtain ⟨-, rfl⟩ := List.cons.inj hj
      exact .inr ⟨before, sleep, after, rfl, hsleep⟩
  · rintro (⟨ha, hhead⟩ | ⟨before, sleep, after, rfl, hsleep⟩)
    · obtain ⟨after, rfl⟩ := List.head?_eq_some_iff.mp hhead
      exact ⟨[], a, after, rfl, ha⟩
    · exact ⟨a :: before, sleep, after, rfl, hsleep⟩

theorem isBehindSleep_cons_of_awake {a e : Entry} {j : Journal}
    (ha : a.deed.slept? = none) : IsBehindSleep (a :: j) e ↔ j.IsBehindSleep e := by
  rw [isBehindSleep_cons]
  exact or_iff_right fun h => h.1 ha

end Journal

namespace Sliced

variable {α : Type} {c : Check α} {deadline now : Nat} {j : Journal} {r : Option α}

/-! ## How much a wait sleeps -/

theorem fitsInto (hs : Sliced c deadline now j r) : j.FitsInto (deadline - now) := by
  induction hs with
  | answered hcheck => exact (Journal.FitsInto.nil _).cons_awake (c.slept?_eq_none hcheck)
  | expired hcheck hlook _ =>
    exact ((Journal.FitsInto.nil _).cons_awake (by rw [hlook]; rfl)).cons_awake
      (c.slept?_eq_none hcheck)
  | @next now check look sleep j r hcheck hlook hnow hlt hsleep hlasts _ ih =>
    -- What is left behind the sleep is at most what was left before it, less the sleep.
    have hrest : Journal.FitsInto (sleep :: j) (deadline - now) :=
      ih.cons_sleep hsleep (by omega) (by omega) (by omega)
    exact (hrest.cons_awake (by rw [hlook]; rfl)).cons_awake (c.slept?_eq_none hcheck)

/-! ## Checks -/

/-- A wait begins with a check. -/
theorem head (hs : Sliced c deadline now j r) : ∃ check x, j.head? = some check ∧
    c.Answers check x ∧ (r = none → x = none) := by
  cases hs with
  | answered hcheck => exact ⟨_, _, rfl, hcheck, nofun⟩
  | expired hcheck _ _ => exact ⟨_, _, rfl, hcheck, fun _ => rfl⟩
  | next hcheck _ _ _ _ _ _ => exact ⟨_, _, rfl, hcheck, fun _ => rfl⟩

/-- A wait whose time is over had no answer from any check. -/
theorem unanswered (hs : Sliced c deadline now j r) (hr : r = none) {e : Entry}
    (he : j.head? = some e ∨ j.IsBehindSleep e) : c.Answers e none := by
  induction hs with
  | answered _ => cases hr
  | @expired _ check look hcheck hlook _ =>
    rcases he with he | he
    · obtain rfl := Option.some.inj he
      exact hcheck
    · rw [Journal.isBehindSleep_cons_of_awake (c.slept?_eq_none hcheck),
        Journal.isBehindSleep_cons_of_awake (by rw [hlook]; rfl)] at he
      exact absurd he Journal.not_isBehindSleep_nil
  | @next _ check look sleep _ _ hcheck hlook _ _ _ _ _ ih =>
    rcases he with he | he
    · obtain rfl := Option.some.inj he
      exact hcheck
    · rw [Journal.isBehindSleep_cons_of_awake (c.slept?_eq_none hcheck),
        Journal.isBehindSleep_cons_of_awake (by rw [hlook]; rfl), Journal.isBehindSleep_cons] at he
      exact ih hr (he.imp_left And.right)

/-- A wait that would have an answer from each check is over with the first one. -/
theorem eq_singleton {P : Entry → Prop} (hP : ∀ e, c.Answers e none → ¬ P e)
    (hs : Sliced c deadline now j r) (hall : ∀ e ∈ j, P e) :
    ∃ check a, j = [check] ∧ r = some a ∧ c.Answers check (some a) := by
  cases hs with
  | answered hcheck => exact ⟨_, _, rfl, rfl, hcheck⟩
  | expired hcheck _ _ => exact absurd (hall _ List.mem_cons_self) (hP _ hcheck)
  | next hcheck _ _ _ _ _ _ => exact absurd (hall _ List.mem_cons_self) (hP _ hcheck)

/-- From an entry on where each check would have an answer, nothing is slept but the slice that the
check right before it began; then a check ends the wait, unless it was over by then. -/
theorem prompt {P : Entry → Prop} (hP : ∀ e, c.Answers e none → ¬ P e)
    (hs : Sliced c deadline now j r) {before after : Journal} {a : Entry}
    (hj : j = before ++ a :: after) (hall : ∀ e ∈ a :: after, P e) :
    (after.sleeps = [] ∨ ∃ front check sleep last d x,
        before = front ++ [check] ∧ c.Answers check none ∧
        after = [sleep, last] ∧ sleep.deed = .slept d ∧ c.Answers last (some x)) ∧
      (r = none → after = []) := by
  induction hs generalizing before with
  | answered _ =>
    obtain ⟨rfl, hnil⟩ | ⟨rest, rfl, hnil⟩ := List.cons_eq_append_iff.mp hj
    · obtain ⟨-, rfl⟩ := List.cons.inj hnil
      exact ⟨.inl rfl, fun _ => rfl⟩
    · simp at hnil
  | @expired _ check look hcheck _ _ =>
    match before with
    | [] =>
      obtain ⟨rfl, -⟩ := List.cons.inj hj
      exact absurd (hall _ List.mem_cons_self) (hP _ hcheck)
    | [_] =>
      simp only [List.cons_append, List.nil_append, List.cons.injEq] at hj
      obtain ⟨-, -, rfl⟩ := hj
      exact ⟨.inl rfl, fun _ => rfl⟩
    | _ :: _ :: _ => simp at hj
  | @next _ check look sleep j r hcheck _ _ _ hsleep _ hs ih =>
    have hrest (hsub : j ⊆ a :: after) : ∃ last x, j = [last] ∧ r = some x ∧
        c.Answers last (some x) := hs.eq_singleton hP fun e he => hall e (hsub he)
    match before with
    | [] =>
      obtain ⟨rfl, -⟩ := List.cons.inj hj
      exact absurd (hall _ List.mem_cons_self) (hP _ hcheck)
    | [_] =>
      -- In the round itself: the sleep that comes next was begun by its check.
      simp only [List.cons_append, List.nil_append, List.cons.injEq] at hj
      obtain ⟨rfl, rfl, rfl⟩ := hj
      obtain ⟨last, x, rfl, rfl, hlast⟩ := hrest (by simp)
      exact ⟨.inr ⟨[], check, sleep, last, _, x, rfl, hcheck, rfl, hsleep, hlast⟩, nofun⟩
    | [_, _] =>
      simp only [List.cons_append, List.nil_append, List.cons.injEq] at hj
      obtain ⟨-, -, rfl, rfl⟩ := hj
      obtain ⟨last, x, rfl, rfl, hlast⟩ := hrest (by simp)
      exact ⟨.inl (Journal.sleeps_cons_of_awake (c.slept?_eq_none hlast) []), nofun⟩
    | b₁ :: b₂ :: b₃ :: before =>
      simp only [List.cons_append, List.cons.injEq] at hj
      obtain ⟨hslept, hover⟩ := ih hj.2.2.2
      refine ⟨hslept.imp_right ?_, hover⟩
      rintro ⟨front, check', sleep', last, d, x, rfl, hcheck', hafter⟩
      exact ⟨b₁ :: b₂ :: b₃ :: front, check', sleep', last, d, x, rfl, hcheck', hafter⟩

/-! ## Whole waits -/

/-- The last entry of a wait says how it ended. Before it there are looks, sleeps and checks without
an answer. -/
theorem last (hs : Sliced c deadline now j r) :
    ∃ before last, j = before ++ [last] ∧ (∀ e ∈ before, c.Answers e none ∨ e.deed.IsPause) ∧
      (∀ a, r = some a → c.Answers last (some a)) ∧
      (r = none → last.deed = .looked ∧ deadline ≤ last.clock) := by
  obtain ⟨before, check, hbefore, ⟨a, rfl, hcheck, rfl⟩ | ⟨look, rfl, hcheck, hlook, hle, rfl⟩⟩ :=
    hs.split
  · refine ⟨before, check, rfl, hbefore, ?_, nofun⟩
    rintro _ ⟨⟩
    exact hcheck
  · refine ⟨before ++ [check], look, by simp, ?_, nofun, fun _ => ⟨hlook, hle⟩⟩
    exact List.forall_mem_append.mpr ⟨hbefore, List.forall_mem_singleton.mpr (.inl hcheck)⟩

/-- A wait does nothing but check, look and sleep. -/
theorem deeds (hs : Sliced c deadline now j r) :
    ∀ e ∈ j, (∃ x, c.Answers e x) ∨ e.deed.IsPause := by
  obtain ⟨before, last, rfl, hbefore, hsome, hnone⟩ := hs.last
  refine List.forall_mem_append.mpr ⟨?_, List.forall_mem_singleton.mpr ?_⟩
  · exact fun e he => (hbefore e he).imp_left fun hans => ⟨none, hans⟩
  · cases r with
    | some a => exact .inl ⟨some a, hsome a rfl⟩
    | none =>
      rw [(hnone rfl).1]
      exact .inr trivial

variable {d : Duration} {start : Entry}

theorem fitsInto_start (hs : Sliced c (d.nanoseconds + start.clock) start.clock j r)
    (hstart : start.deed = .looked) : Journal.FitsInto (start :: j) d.nanoseconds := by
  have hfits := hs.fitsInto
  rw [Nat.add_sub_cancel] at hfits
  exact hfits.cons_awake (by rw [hstart]; rfl)

theorem lasts_start (hs : Sliced c (d.nanoseconds + start.clock) start.clock j r)
    (hr : r = none) : Journal.Lasts (start :: j) d := by
  obtain ⟨before, last, rfl, -, -, hnone⟩ := hs.last
  refine ⟨start, last, rfl, by simp [List.getLast?_cons], ?_⟩
  have hle := (hnone hr).2
  omega

end Sliced

/-! ## What can be relied on in a wait -/

/-- A pause of a run: its journal, and whether the whole time is over. -/
structure TimelyPause (t : Token) (d : Duration) (j : Journal) (whole : Bool) : Prop where
  deeds : ∀ e ∈ j, e.deed.IsPause
  fits : j.FitsInto d.nanoseconds
  /-- The pause is never over early. -/
  lasts : whole = true → j.Lasts d
  unrequested : whole = true → ∀ e, j.IsCheck e → t.isCancelled e.interrupts = false
  /-- It is cut short only if a cancellation is requested. -/
  requested : whole = false →
    ∃ check, j.getLast? = some check ∧ t.isCancelled check.interrupts = true
  /-- From a request on that stays, nothing is slept but the slice that the check right before it
  began; then the pause is cut short, unless it was over by then. -/
  prompt (before : Journal) (a : Entry) (after : Journal) : j = before ++ a :: after →
    (∀ e ∈ a :: after, t.isCancelled e.interrupts = true) →
    (after.sleeps = [] ∨ ∃ front check sleep last d, before = front ++ [check] ∧
        t.isCancelled check.interrupts = false ∧
        after = [sleep, last] ∧ sleep.deed = .slept d ∧ last.deed = .looked) ∧
      (whole = true → after = [])

/-- A wait for a process: its journal, and the exit status, if it was seen. -/
structure TimelyWait (p : ProcessId) (d : Duration) (j : Journal) (status : Option ExitStatus) :
    Prop where
  deeds : ∀ e ∈ j, e.deed.IsPause ∨ ∃ r, e.deed = .polled p r
  fits : j.FitsInto d.nanoseconds
  /-- The process is looked at before anything else, however short the time is. -/
  polled : ∃ poll r, j[1]? = some poll ∧ poll.deed = .polled p r
  /-- The wait is over at once when the exit is seen. -/
  unseen : ∀ a ∈ j.dropLast, a.deed.reaped? = none
  status_iff (x : ExitStatus) :
    status = some x ↔ ∃ a, j.getLast? = some a ∧ a.deed = .polled p (some x)
  /-- It is never given up early, nor if the process was ever found to have exited. -/
  lasts : status = none → j.Lasts d ∧ ∀ a ∈ j, a.deed.reaped? = none

theorem TimelyPause.of_sliced {t : Token} {d : Duration} {start : Entry} {j : Journal}
    {r : Option Unit} (hstart : start.deed = .looked)
    (hs : Sliced t.check (d.nanoseconds + start.clock) start.clock j r) :
    TimelyPause t d (start :: j) r.isNone where
  deeds := by
    refine List.forall_mem_cons.mpr ⟨by rw [hstart]; trivial, fun e he => ?_⟩
    rcases hs.deeds e he with ⟨_, hlook, -⟩ | hpause
    · rw [hlook]
      trivial
    · exact hpause
  fits := hs.fitsInto_start hstart
  lasts hwhole := hs.lasts_start (Option.isNone_iff_eq_none.mp hwhole)
  unrequested := by
    intro hwhole e he
    rw [Journal.IsCheck, Journal.isBehindSleep_cons_of_awake (by rw [hstart]; rfl),
      List.getElem?_cons_succ, ← List.head?_eq_getElem?] at he
    exact (hs.unanswered (Option.isNone_iff_eq_none.mp hwhole) he).2
  requested := by
    intro hcut
    obtain ⟨before, check, rfl, -, hsome, -⟩ := hs.last
    cases r with
    | none => cases hcut
    | some a => exact ⟨check, by simp [List.getLast?_cons], (hsome a rfl).2⟩
  prompt := by
    intro before a after hj hall
    have hP (e : Entry) (he : t.check.Answers e none) : ¬ t.isCancelled e.interrupts = true := by
      rw [he.2]
      exact nofun
    rcases List.cons_eq_append_iff.mp hj with ⟨rfl, hj⟩ | ⟨before, rfl, rfl⟩
    · -- The request is there from the beginning, and the first check finds it.
      obtain ⟨rfl, rfl⟩ := List.cons.inj hj
      obtain ⟨check, _, rfl, rfl, hcheck⟩ :=
        hs.eq_singleton hP fun e he => hall e (List.mem_cons_of_mem _ he)
      exact ⟨.inl (Journal.sleeps_cons_of_awake (t.check.slept?_eq_none hcheck) []), nofun⟩
    · obtain ⟨hslept, hover⟩ := hs.prompt hP rfl hall
      refine ⟨hslept.imp_right ?_, fun hwhole => hover (Option.isNone_iff_eq_none.mp hwhole)⟩
      rintro ⟨front, check, sleep, last, d, _, rfl, ⟨-, hcheck⟩, rfl, hsleep, ⟨hlast, -⟩⟩
      exact ⟨start :: front, check, sleep, last, d, rfl, hcheck, rfl, hsleep, hlast⟩

theorem TimelyWait.of_sliced {p : ProcessId} {d : Duration} {start : Entry} {j : Journal}
    {r : Option ExitStatus} (hstart : start.deed = .looked)
    (hs : Sliced p.check (d.nanoseconds + start.clock) start.clock j r) :
    TimelyWait p d (start :: j) r := by
  obtain ⟨before, last, rfl, hbefore, hsome, hnone⟩ := hs.last
  have hlast : (start :: (before ++ [last])).getLast? = some last := by
    simp [List.getLast?_cons]
  have hinit : (start :: (before ++ [last])).dropLast = start :: before := by
    rw [← List.cons_append, List.dropLast_concat]
  have hquiet : ∀ a ∈ start :: before, a.deed.reaped? = none := by
    refine List.forall_mem_cons.mpr ⟨by rw [hstart]; rfl, fun a ha => ?_⟩
    rcases hbefore a ha with hvain | hpause
    · rw [show a.deed = .polled p none from hvain]
      rfl
    · exact hpause.isIdle.2.1
  refine
    { deeds := ?_
      fits := hs.fitsInto_start hstart
      polled := ?_
      unseen := by rwa [hinit]
      status_iff := ?_
      lasts := ?_ }
  · exact List.forall_mem_cons.mpr
      ⟨.inl (by rw [hstart]; trivial), fun e he => (hs.deeds e he).symm⟩
  · obtain ⟨poll, x, hhead, hpoll, -⟩ := hs.head
    exact ⟨poll, x, by rw [List.getElem?_cons_succ, ← List.head?_eq_getElem?, hhead], hpoll⟩
  · intro x
    simp only [hlast, Option.some.injEq, exists_eq_left']
    cases r with
    | none =>
      rw [(hnone rfl).1]
      exact iff_of_false nofun nofun
    | some status =>
      rw [show last.deed = .polled p (some status) from hsome status rfl]
      simp
  · rintro rfl
    refine ⟨hs.lasts_start rfl, List.forall_mem_append.mpr
      ⟨hquiet, List.forall_mem_singleton.mpr ?_⟩⟩
    rw [(hnone rfl).1]
    rfl

/-! ## Waits on a host -/

namespace Host

variable {σ : Type}

/-- The journal of a pause. -/
def pauseJournal (h : Host σ) (t : Token) (d : Duration) (s : σ) : Journal :=
  (t.sleep h.journaled d (s, [])).2.2

/-- The journal of a wait for a process. -/
def waitJournal (h : Host σ) (p : ProcessId) (d : Duration) (s : σ) : Journal :=
  (h.journaled.waitFor p d (s, [])).2.2

theorem sleep_timely (h : Host σ) (t : Token) (d : Duration) (s : σ)
    (hd : (deadline? (h.clock (h.look s)) d).isSome) :
    ∃ whole, (t.sleep h d s).1 = some whole ∧ TimelyPause t d (h.pauseJournal t d s) whole := by
  obtain ⟨deadline, hd⟩ := Option.isSome_iff_exists.mp hd
  have hnotes : h.journaled.NotesPauses id Prod.snd :=
    ⟨h.journaled_keeps.look, h.journaled_keeps.sleep⟩
  obtain ⟨j, r, hadd, hres, hs⟩ :=
    hnotes.sleepUntil_sliced t deadline (h.journaled.look (s, []))
  rw [List.map_id] at hadd
  have hclock : h.journaled.clock (h.journaled.look (s, [])) = h.clock (h.look s) := rfl
  have hsleep : t.sleep h.journaled d (s, []) =
      (some r.isNone, (t.sleepUntil h.journaled deadline (h.journaled.look (s, []))).2) := by
    simp only [Token.sleep, hclock, hd, hres]
  refine ⟨r.isNone, ?_, ?_⟩
  · rw [show t.sleep h d s = _ from h.journaled_sees.sleep_token t d (s, []), hsleep]
    rfl
  · rw [pauseJournal, hsleep, hadd]
    obtain rfl := eq_of_deadline? hd
    exact .of_sliced rfl hs

theorem waitFor_timely (h : Host σ) (p : ProcessId) (d : Duration) (s : σ)
    (hd : (deadline? (h.clock (h.look s)) d).isSome) :
    ∃ status, (h.waitFor p d s).1 = some status ∧ TimelyWait p d (h.waitJournal p d s) status := by
  obtain ⟨deadline, hd⟩ := Option.isSome_iff_exists.mp hd
  obtain ⟨j, hadd, hs⟩ :=
    h.journaled_keeps.waitUntil_sliced p deadline (h.journaled.look (s, []))
  have hclock : h.journaled.clock (h.journaled.look (s, [])) = h.clock (h.look s) := rfl
  have hwait : h.journaled.waitFor p d (s, []) =
      (some (h.journaled.waitUntil p deadline (h.journaled.look (s, []))).1,
        (h.journaled.waitUntil p deadline (h.journaled.look (s, []))).2) := by
    simp only [Host.waitFor, hclock, hd]
  refine ⟨(h.journaled.waitUntil p deadline (h.journaled.look (s, []))).1, ?_, ?_⟩
  · rw [show h.waitFor p d s = _ from h.journaled_sees.waitFor p d (s, []), hwait]
    rfl
  · rw [waitJournal, hwait, hadd]
    obtain rfl := eq_of_deadline? hd
    exact .of_sliced rfl hs

/-- Every wait whose deadline the clock can show ends, after at most as many sleeps as its time has
slices. A pause is cut short only by a cancellation, and by the next check. A wait for a process is
over when the exit is seen. Neither is over early. -/
theorem waits_timely (h : Host σ) (d : Duration) (s : σ)
    (hd : (deadline? (h.clock (h.look s)) d).isSome) :
    (∀ t : Token, ∃ whole, (t.sleep h d s).1 = some whole ∧
        TimelyPause t d (h.pauseJournal t d s) whole) ∧
      ∀ p, ∃ status, (h.waitFor p d s).1 = some status ∧
        TimelyWait p d (h.waitJournal p d s) status := by
  constructor
  · intro t
    exact h.sleep_timely t d s hd
  · intro p
    exact h.waitFor_timely p d s hd

end Host

/-! ## Waits on a stage -/

namespace Stage

/-- A stage on which a run is cancelled after 70 milliseconds. -/
def soonCancelled : Host Stage :=
  { host with
    interrupts := fun s =>
      if s.clock < 70000000 then s.interrupts else s.interrupts.raise 0 }

end Stage

/-- On a stage a pause of 120 milliseconds is cut short after the second slice. A wait for a process
that goes on takes the whole time, the last part of it in a shorter sleep. -/
theorem Host.waits_timely_stage :
    let h := Stage.soonCancelled
    let s : Stage := ⟨0, .none, false⟩
    let d := Duration.ofMilliseconds 120
    let pause := h.pauseJournal ⟨0, false⟩ d s
    let wait := h.waitJournal ⟨2⟩ d s
    (deadline? (h.clock (h.look s)) d).isSome ∧
      (Token.sleep h ⟨0, false⟩ d s).1 = some false ∧
      TimelyPause ⟨0, false⟩ d pause false ∧
      pause.sleeps = [.ofMilliseconds 50, .ofMilliseconds 50] ∧
      (h.waitFor ⟨2⟩ d s).1 = some none ∧
      TimelyWait ⟨2⟩ d wait none ∧
      wait.sleeps = [.ofMilliseconds 50, .ofMilliseconds 50, .ofMilliseconds 20] := by
  intro h s d pause wait
  have hd : (deadline? (h.clock (h.look s)) d).isSome := by decide
  have hcut : (Token.sleep h ⟨0, false⟩ d s).1 = some false := by decide +kernel
  have hgone : (h.waitFor ⟨2⟩ d s).1 = some none := by decide +kernel
  obtain ⟨hpauses, hwaits⟩ := h.waits_timely d s hd
  obtain ⟨whole, hwhole, hpause⟩ := hpauses ⟨0, false⟩
  obtain ⟨status, hstatus, hwait⟩ := hwaits ⟨2⟩
  obtain rfl := Option.some.inj (hcut.symm.trans hwhole)
  obtain rfl := Option.some.inj (hgone.symm.trans hstatus)
  exact ⟨hd, hcut, hpause, by decide +kernel, hgone, hwait, by decide +kernel⟩

end EngineBench
