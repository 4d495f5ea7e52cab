import EngineBench.Proofs.Run

/-!
# What becomes of the group of the engine

The signals of a cleanup go to the whole group of the engine, but the exit that it waits for is that
of the engine alone. So an engine that ends in time ends the cleanup too, whoever is left of its
group.

* `Member` is another process of the group, and `Member.Ended` says by which time it has ended, with
  the signals that a journal sent.
* `Member.forall_ended_iff`: only a kill is sure to end them all.
* `Guard.cleanup_endsGroup_iff` says whom a cleanup leaves behind.
-/

namespace EngineBench

/-- The whole group of a process was asked to end. -/
def Entry.Asks (p : ProcessId) (a : Entry) : Prop :=
  a.deed = .signaled (.group p) .terminate (.ok ())

/-- The whole group of a process was killed. -/
def Entry.Kills (p : ProcessId) (a : Entry) : Prop :=
  a.deed = .signaled (.group p) .kill (.ok ())

theorem Entry.Asks.signal? {p : ProcessId} {a : Entry} (ha : a.Asks p) :
    a.deed.signal? = some (.group p, .terminate) := by
  rw [ha]
  rfl

theorem Entry.Kills.signal? {p : ProcessId} {a : Entry} (ha : a.Kills p) :
    a.deed.signal? = some (.group p, .kill) := by
  rw [ha]
  rfl

/-- A process in the group of an engine, by what makes it end. -/
structure Member where
  /-- The point in time at which it ends by itself. -/
  ends : Option Nat
  /-- How long it takes to end when it is asked to; if nothing is given, it does not listen. -/
  obeys : Option Duration

namespace Member

/-- It goes on for ever and does not listen. -/
def stubborn : Member := ⟨none, none⟩

/-- A member of a group has ended by a point in time. A kill is taken to have had its effect. -/
inductive Ended (m : Member) (p : ProcessId) (j : Journal) (now : Nat) : Prop
  | itself {t : Nat} : m.ends = some t → t ≤ now → Ended m p j now
  | asked {a : Entry} {d : Duration} : a ∈ j → a.Asks p → m.obeys = some d →
      a.clock + d.nanoseconds ≤ now → Ended m p j now
  | killed {a : Entry} : a ∈ j → a.Kills p → Ended m p j now

/-- A member ends in time with one request: by itself, or because it got the request. -/
def EndsInTime (m : Member) (p : ProcessId) (ask : Entry) (now : Nat) : Prop :=
  (∃ t, m.ends = some t ∧ t ≤ now) ∨
    ask.Asks p ∧ ∃ d, m.obeys = some d ∧ ask.clock + d.nanoseconds ≤ now

theorem not_endsInTime_stubborn {p : ProcessId} {ask : Entry} {now : Nat} :
    ¬ stubborn.EndsInTime p ask now := by
  rintro (⟨_, hends, -⟩ | ⟨-, _, hobeys, -⟩)
  · cases hends
  · cases hobeys

variable {p : ProcessId} {j : Journal} {now : Nat}

theorem stubborn_ended_iff : stubborn.Ended p j now ↔ ∃ a ∈ j, a.Kills p := by
  constructor
  · intro h
    cases h with
    | itself hends _ => cases hends
    | asked _ _ hobeys _ => cases hobeys
    | killed ha hkills => exact ⟨_, ha, hkills⟩
  · rintro ⟨a, ha, hkills⟩
    exact .killed ha hkills

/-- Whoever they are, all members have ended exactly if the group was killed. -/
theorem forall_ended_iff : (∀ m : Member, m.Ended p j now) ↔ ∃ a ∈ j, a.Kills p := by
  constructor
  · intro hall
    exact stubborn_ended_iff.mp (hall stubborn)
  · rintro ⟨a, ha, hkills⟩ m
    exact .killed ha hkills

/-- With one request and no kill only those have ended who end in time. -/
theorem ended_iff_of_asked {m : Member} {ask : Entry} {before behind : Journal}
    (hask : ask.deed.signal? = some (.group p, .terminate))
    (hbefore : before.signals = []) (hbehind : behind.signals = []) :
    m.Ended p (before ++ ask :: behind) now ↔ m.EndsInTime p ask now := by
  -- Nothing else in the journal is a signal.
  have hquiet {a : Entry} (ha : a ∈ before ++ ask :: behind) {x : Target × Signal}
      (hx : a.deed.signal? = some x) : a = ask := by
    have hnone {j : Journal} (hj : j.signals = []) : a ∉ j := by
      intro hmem
      rw [Journal.signals_eq_nil_iff.mp hj a hmem] at hx
      cases hx
    rcases List.mem_append.mp ha with hmem | hmem
    · exact absurd hmem (hnone hbefore)
    · rcases List.mem_cons.mp hmem with heq | hmem
      · exact heq
      · exact absurd hmem (hnone hbehind)
  constructor
  · intro h
    cases h with
    | itself hends hle => exact .inl ⟨_, hends, hle⟩
    | asked ha hasks hobeys hle =>
      obtain rfl := hquiet ha hasks.signal?
      exact .inr ⟨hasks, _, hobeys, hle⟩
    | killed ha hkills =>
      obtain rfl := hquiet ha hkills.signal?
      rw [hkills.signal?] at hask
      cases hask
  · rintro (⟨t, hends, hle⟩ | ⟨hasks, d, hobeys, hle⟩)
    · exact .itself hends hle
    · exact .asked (List.mem_append_right _ List.mem_cons_self) hasks hobeys hle

end Member

namespace Guard

variable {σ : Type} {g g' : Guard} {j : Journal}

/-- What a cleanup asks of its host. -/
def cleanupJournal (h : Host σ) (g : Guard) (s : σ) : Journal :=
  (g.cleanup h.journaled (s, [])).2.2.2

theorem cleanup_cleaned (h : Host σ) (g : Guard) (s : σ) :
    g.Cleaned (g.cleanupJournal h s) (g.cleanup h s).1 (g.cleanup h s).2.1 := by
  obtain ⟨j, hadd, hc⟩ := h.journaled_keeps.cleanup g (s, [])
  obtain rfl : g.cleanupJournal h s = j := hadd
  have hsees := h.journaled_sees.cleanup g (s, [])
  rw [show g.cleanup h s = _ from hsees]
  exact hc

/-- A cleanup that says that the engine ended when it was asked to has sent this one request. -/
theorem Cleaned.of_terminated (hc : g.Cleaned j (.ok (.ok .terminated)) g') :
    ∃ (e : Engine) (before behind : Journal) (ask : Entry), g.engine = some e ∧
      j = before ++ ask :: behind ∧ ask.deed.signal? = some (.group e.pid, .terminate) ∧
      before.signals = [] ∧ behind.signals = [] := by
  cases hc with
  | @first e _ poll _ _ hg _ hpoll _ hs =>
    have hquiet : Journal.signals [poll] = [] := by
      simp [Journal.signals_cons, hpoll, Deed.signal?]
    cases hs with
    | terminated hask hw => exact ⟨e, [poll], _, _, hg, rfl, hask, hquiet, hw.signals_eq_nil⟩
    | escalated _ _ hk => cases hk

/-- A cleanup that says that it killed the engine has sent a kill. -/
theorem Cleaned.of_killed (hc : g.Cleaned j (.ok (.ok .killed)) g') :
    ∃ e kill, g.engine = some e ∧ kill ∈ j ∧
      kill.deed.signal? = some (.group e.pid, .kill) := by
  cases hc with
  | @first e _ poll _ _ hg _ hpoll _ hs =>
    cases hs with
    | escalated _ _ hk =>
      obtain ⟨kill, w, rfl, hkill⟩ := hk.eq_cons
      exact ⟨e, kill, hg, by simp, hkill⟩

/-- Whom a cleanup leaves behind. If it says that the engine ended when it was asked to, it has not
killed anybody, and who does not end in time stays. If it says that it killed the engine, the group
was sent a kill, and nobody is left unless the kill was refused. -/
theorem cleanup_endsGroup_iff (h : Host σ) (g : Guard) (s : σ) {action : CleanupAction}
    (hr : (g.cleanup h s).1 = .ok (.ok action))
    (hstopped : action = .terminated ∨ action = .killed) :
    let j := g.cleanupJournal h s
    let now := h.clock (g.cleanup h s).2.2
    ∃ e, g.engine = some e ∧
      ((∀ m : Member, m.Ended e.pid j now) ↔ ∃ a ∈ j, a.Kills e.pid) ∧
      (action = .terminated → (¬ ∃ a ∈ j, a.Kills e.pid) ∧
        ∃ ask ∈ j, ask.deed.signal? = some (.group e.pid, .terminate) ∧
          ∀ m : Member, m.Ended e.pid j now ↔ m.EndsInTime e.pid ask now) ∧
      (action = .killed → ∃ kill ∈ j, kill.deed.signal? = some (.group e.pid, .kill)) := by
  intro j now
  have hc := g.cleanup_cleaned h s
  rw [hr] at hc
  rcases hstopped with rfl | rfl
  · obtain ⟨e, before, behind, ask, hg, hj, hask, hbefore, hbehind⟩ := hc.of_terminated
    have hended (m : Member) : m.Ended e.pid j now ↔ m.EndsInTime e.pid ask now := by
      show m.Ended e.pid (g.cleanupJournal h s) now ↔ _
      rw [hj]
      exact Member.ended_iff_of_asked hask hbefore hbehind
    refine ⟨e, hg, Member.forall_ended_iff, fun _ => ⟨?_, ask, ?_, hask, hended⟩, nofun⟩
    · intro hkills
      -- A kill would have ended the stubborn one too.
      have hstubborn : Member.stubborn.Ended e.pid j now := Member.stubborn_ended_iff.mpr hkills
      exact Member.not_endsInTime_stubborn ((hended .stubborn).mp hstubborn)
    · show ask ∈ g.cleanupJournal h s
      rw [hj]
      simp
  · obtain ⟨e, kill, hg, hmem, hkill⟩ := hc.of_killed
    exact ⟨e, hg, Member.forall_ended_iff, nofun, fun _ => ⟨kill, hmem, hkill⟩⟩

/-- On a stage the engine ends when it is asked to, and a stubborn member of its group stays. -/
theorem cleanup_endsGroup_iff_stage :
    let g := ofEngine (.started ⟨2⟩ default) Stage.plan.grace
    (g.cleanup Stage.host Stage.start).1 = .ok (.ok .terminated) ∧
      ¬ Member.stubborn.Ended ⟨2⟩ (g.cleanupJournal Stage.host Stage.start)
        (Stage.host.clock (g.cleanup Stage.host Stage.start).2.2) := by
  intro g
  have hr := Stage.cleanup_eq .none
  obtain ⟨e, hg, -, hterminated, -⟩ := cleanup_endsGroup_iff Stage.host g Stage.start hr (.inl rfl)
  cases hg
  refine ⟨hr, ?_⟩
  rw [Member.stubborn_ended_iff]
  exact (hterminated rfl).1

end Guard

end EngineBench
