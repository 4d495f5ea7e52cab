import EngineBench.Proofs.ClientReaped
import EngineBench.Proofs.ReportedSignal

/-!
# What a client counts as, and how it is stopped

A watch is a number of rounds in which nothing happens, and a last one in which the client is seen
to exit, or is stopped because the run was cancelled. What the client counts as is decided by that
last round alone.

* `Client.Watched.lastRound` takes a watch apart in this way, and `Client.Ran.lastRound` a whole run
  of a client.
* `Client.Judged` is what the result of a client and the signals to it have to do with its exit and
  with the cancellation; `Client.run_judged` says that this is so for every run of a client.
-/

namespace EngineBench

/-- What is sent comes behind a part of the journal in which nothing is sent. -/
theorem Journal.subset_of_signal {k j before behind : Journal} {a : Entry} (hk : k.signals = [])
    (ha : a.deed.signal? ≠ none) (hj : k ++ j = before ++ a :: behind) : k ⊆ before := by
  rcases List.append_eq_append_iff.mp hj with ⟨rest, rfl, -⟩ | ⟨rest, rfl, hrest⟩
  · exact List.subset_append_left _ _
  · cases rest with
    | nil => simp
    | cons e rest =>
      -- Else the signal would be in the quiet part.
      obtain ⟨rfl, -⟩ := List.cons.inj hrest
      exact absurd (Journal.signals_eq_nil_iff.mp hk a (by simp)) ha

namespace Client

variable {t : Token} {p : ProcessId} {c : Command} {j : Journal} {r : ClientResult}

/-- The exit of a client was seen without anybody having asked it to end, and a look right behind
that ends the run of the client. -/
def Exits (p : ProcessId) (status : ExitStatus) (look : Entry) (j : Journal) : Prop :=
  ∃ before poll, j = before ++ [poll, look] ∧ poll.deed = .polled p (some status) ∧
    look.deed = .looked ∧ before.signals = []

/-- What the journal of a run says of the client that it started, and what its result has to do with
that. -/
structure Judged (t : Token) (p : ProcessId) (j : Journal) (r : ClientResult) : Prop where
  /-- It did its work exactly if it was seen to exit with code zero. -/
  succeeded_iff : ∀ status,
    r = .ok (.ok status) ↔ status = .exited 0 ∧ ∃ look, Exits p status look j
  /-- It failed exactly if it was seen to exit in another way, and no cancellation was requested
  when that was looked into. -/
  failed_iff : ∀ status, r = .ok (.error (.failed status)) ↔
    status ≠ .exited 0 ∧ ∃ look, Exits p status look j ∧ t.isCancelled look.interrupts = false
  /-- Once a cancellation is requested no exit counts as a failure. -/
  failed : ∀ status, r = .ok (.error (.failed status)) → ∀ a ∈ j, t.isCancelled a.interrupts = false
  interrupted : r = .ok (.error .interrupted) →
    ∃ look ∈ j, look.deed = .looked ∧ t.isCancelled look.interrupts = true
  /-- If nothing is refused and the clock does not give out, it is one of these three. -/
  decided : (∀ a ∈ j, ¬ a.deed.IsRefused) → (∀ a ∈ j, ¬ a.TooLate stopTimeout) →
    (∃ status, r = .ok (.ok status)) ∨ (∃ status, r = .ok (.error (.failed status))) ∨
      r = .ok (.error .interrupted)
  /-- At most one request to end and one kill are sent, in this order, and nothing else. -/
  signals : j.signals <+: [(.process p, .terminate), (.process p, .kill)]
  /-- Whatever is sent is sent because a cancellation was seen. -/
  asked : ∀ before a behind, j = before ++ a :: behind → a.deed.signal? ≠ none →
    ∃ look ∈ before, look.deed = .looked ∧ t.isCancelled look.interrupts = true
  /-- Before a kill the client was asked to end, and its exit was not seen in all the time that it
  had. -/
  kill : (.process p, .kill) ∈ j.signals → ∃ before term w kill behind,
    j = before ++ term :: (w ++ kill :: behind) ∧
      term.deed = .signaled (.process p) .terminate (.ok ()) ∧
      Waited p stopTimeout w (some none) ∧ kill.deed.signal? = some (.process p, .kill)
  /-- Nobody is sent a signal once the exit of the client was seen. -/
  silent : j.SilentAfter p

/-! ## The last round -/

/-- The round that ends a watch: its journal and the result. -/
inductive LastRound (t : Token) (p : ProcessId) : Journal → ClientResult → Prop
  | exited {poll look : Entry} {status : ExitStatus} : poll.deed = .polled p (some status) →
      look.deed = .looked →
      LastRound t p [poll, look] (.ok (classify status (t.isCancelled look.interrupts)))
  | stopped {poll look : Entry} {j : Journal} {r : ClientResult} : poll.deed = .polled p none →
      look.deed = .looked → t.isCancelled look.interrupts = true → Stopped p j r →
      LastRound t p (poll :: look :: j) r
  | late {poll look : Entry} : poll.deed = .polled p none → look.deed = .looked →
      endOfTime < look.clock → LastRound t p [poll, look] (.error .clockOverflow)

theorem Watched.lastRound (hw : Watched t p j r) :
    ∃ before last, j = before ++ last ∧ (∀ a ∈ before, a.deed.IsWait p) ∧ LastRound t p last r := by
  induction hw with
  | exited hpoll hlook => exact ⟨[], _, rfl, List.forall_mem_nil _, .exited hpoll hlook⟩
  | stopped hpoll hlook hcan hs => exact ⟨[], _, rfl, List.forall_mem_nil _, .stopped hpoll hlook hcan hs⟩
  | late hpoll hlook _ hlate => exact ⟨[], _, rfl, List.forall_mem_nil _, .late hpoll hlook hlate⟩
  | @next poll look sleep d j r hpoll hlook _ hsleep _ ih =>
    obtain ⟨before, last, rfl, hbefore, hlast⟩ := ih
    refine ⟨poll :: look :: sleep :: before, last, rfl, ?_, hlast⟩
    simp only [List.mem_cons, forall_eq_or_imp]
    refine ⟨.inr hpoll, .inl ?_, .inl ?_, hbefore⟩
    · rw [hlook]
      trivial
    · rw [hsleep]
      trivial

/-- A client cannot be started, or there is a last round for it and nothing of note before. -/
theorem Ran.lastRound (hc : Ran t c j r) :
    (j.signals = [] ∧ (∀ a ∈ j, a.deed.started? = none) ∧
        ∃ err, r = .ok (.error (.spawn c.program err))) ∨
      ∃ p before last, j = before ++ last ∧ (∃ a ∈ before, a.deed.started? = some p) ∧
        before.signals = [] ∧ (∀ a ∈ before, a.deed.reaped? = none) ∧ LastRound t p last r := by
  cases hc with
  | @unstarted j spawn err hprep hspawn =>
    refine .inl ⟨?_, ?_, err, rfl⟩
    · simp [hprep.isIdle.signals_eq_nil, Journal.signals_cons, hspawn, Deed.signal?]
    · refine List.forall_mem_append.mpr ⟨fun a ha => (hprep.isIdle a ha).2.2, ?_⟩
      simp [hspawn, Deed.started?]
  | @watched j j' spawn p r hprep hspawn hw =>
    obtain ⟨before, last, rfl, hbefore, hlast⟩ := hw.lastRound
    have hquiet : before.signals = [] :=
      Journal.signals_eq_nil_iff.mpr fun a ha => (hbefore a ha).isIdle.1
    refine .inr ⟨p, j ++ spawn :: before, last, by simp, ⟨spawn, by simp, ?_⟩, ?_, ?_, hlast⟩
    · rw [hspawn]
      rfl
    · simp [hprep.isIdle.signals_eq_nil, Journal.signals_cons, hspawn, Deed.signal?, hquiet]
    · simp only [List.mem_append, List.mem_cons]
      rintro a (ha | rfl | ha)
      · exact (hprep.isIdle a ha).2.1
      · rw [hspawn]
        rfl
      · exact (hbefore a ha).isIdle.2.1

/-! ## How a client exits -/

theorem Exits.signals_eq_nil {status : ExitStatus} {look : Entry} (hx : Exits p status look j) :
    j.signals = [] := by
  obtain ⟨before, poll, rfl, hpoll, hlook, hbefore⟩ := hx
  simp [hbefore, Journal.signals_cons, hpoll, hlook, Deed.signal?]

theorem isSuccess_iff {status : ExitStatus} : status.isSuccess = true ↔ status = .exited 0 :=
  decide_eq_true_iff

theorem classify_eq_ok_iff {status status' : ExitStatus} {cancelled : Bool} :
    classify status cancelled = .ok status' ↔ status' = .exited 0 ∧ status = status' := by
  unfold classify
  by_cases hs : status = .exited 0
  · rw [if_pos (isSuccess_iff.mpr hs)]
    constructor
    · rintro ⟨⟩
      exact ⟨hs, rfl⟩
    · rintro ⟨-, rfl⟩
      rfl
  · rw [if_neg (mt isSuccess_iff.mp hs)]
    refine iff_of_false ?_ ?_
    · split <;> exact nofun
    · rintro ⟨rfl, rfl⟩
      exact hs rfl

theorem classify_eq_failed_iff {status status' : ExitStatus} {cancelled : Bool} :
    classify status cancelled = .error (.failed status') ↔
      status' ≠ .exited 0 ∧ status = status' ∧ cancelled = false := by
  unfold classify
  by_cases hs : status = .exited 0
  · rw [if_pos (isSuccess_iff.mpr hs)]
    refine iff_of_false nofun ?_
    rintro ⟨hne, rfl, -⟩
    exact hne hs
  · rw [if_neg (mt isSuccess_iff.mp hs)]
    cases cancelled with
    | true => exact iff_of_false nofun nofun
    | false =>
      constructor
      · rintro ⟨⟩
        exact ⟨hs, rfl, rfl⟩
      · rintro ⟨-, rfl, -⟩
        rfl

/-! ## How a client is stopped -/

theorem Stopped.signals_prefix (hs : Stopped p j r) :
    j.signals <+: [(.process p, .terminate), (.process p, .kill)] := by
  cases hs with
  | lost hterm => simp [Journal.signals_cons, hterm, Deed.signal?]
  | overflow hterm hw => simp [Journal.signals_cons, hterm, hw.signals_eq_nil, Deed.signal?]
  | ended hterm hw => simp [Journal.signals_cons, hterm, hw.signals_eq_nil, Deed.signal?]
  | killLost hterm hw hkill =>
    simp [Journal.signals_cons, hterm, hw.signals_eq_nil, hkill, Deed.signal?]
  | killed hterm hw hkill hwait =>
    simp [Journal.signals_cons, hterm, hw.signals_eq_nil, hkill, hwait, Deed.signal?]

theorem Stopped.of_kill (hs : Stopped p j r) (hkill : (.process p, .kill) ∈ j.signals) :
    ∃ term w kill behind, j = term :: (w ++ kill :: behind) ∧
      term.deed = .signaled (.process p) .terminate (.ok ()) ∧
      Waited p stopTimeout w (some none) ∧ kill.deed.signal? = some (.process p, .kill) := by
  have hne : Signal.kill ≠ Signal.terminate := by decide
  cases hs with
  | lost hterm =>
    simp [Journal.signals_cons, hterm, Deed.signal?, hne] at hkill
  | overflow hterm hw =>
    simp [Journal.signals_cons, hterm, hw.signals_eq_nil, Deed.signal?, hne] at hkill
  | ended hterm hw =>
    simp [Journal.signals_cons, hterm, hw.signals_eq_nil, Deed.signal?, hne] at hkill
  | killLost hterm hw hkilled => exact ⟨_, _, _, [], rfl, hterm, hw, by rw [hkilled]; rfl⟩
  | killed hterm hw hkilled _ => exact ⟨_, _, _, [_], rfl, hterm, hw, by rw [hkilled]; rfl⟩

theorem Stopped.silentAfter (hs : Stopped p j r) : j.SilentAfter p := by
  -- The kill goes out only because the whole wait for the exit was in vain.
  have hkilled {w rest : Journal} {kill : Entry} {x : Except OsError Unit}
      (hw : Waited p stopTimeout w (some none)) (hkill : kill.deed = .signaled (.process p) .kill x)
      (hrest : rest.signals = []) : (w ++ kill :: rest).SilentAfter p := by
    refine .unreaped_append ?_ (.cons_signal (by rw [hkill]; rfl) (.of_quiet hrest))
    intro a ha
    rw [hw.unreaped (.inr rfl) a ha]
    exact nofun
  cases hs with
  | lost hterm => exact .cons_signal (by rw [hterm]; rfl) (.of_quiet rfl)
  | overflow hterm hw => exact .cons_signal (by rw [hterm]; rfl) (.of_quiet hw.signals_eq_nil)
  | ended hterm hw => exact .cons_signal (by rw [hterm]; rfl) (.of_quiet hw.signals_eq_nil)
  | killLost hterm hw hkill => exact .cons_signal (by rw [hterm]; rfl) (hkilled hw hkill rfl)
  | killed hterm hw hkill hwait =>
    refine .cons_signal (by rw [hterm]; rfl) (hkilled hw hkill ?_)
    simp [Journal.signals_cons, hwait, Deed.signal?]

theorem Stopped.signals_ne_nil (hs : Stopped p j r) : j.signals ≠ [] := by
  cases hs <;> simp_all [Journal.signals_cons, Deed.signal?]

/-- A client that is stopped is interrupted, unless something is refused or the clock gives out. -/
theorem Stopped.eq_interrupted (hs : Stopped p j r) (hrefused : ∀ a ∈ j, ¬ a.deed.IsRefused)
    (htime : ∀ a ∈ j, ¬ a.TooLate stopTimeout) : r = .ok (.error .interrupted) := by
  have hhalt (halt : Halt) : r ≠ .error halt := by
    rintro rfl
    rcases hs.result with h | ⟨err, h⟩ | ⟨a, ha, -, hlate⟩
    · cases h
    · cases h
    · exact htime a ha hlate
  exact (hs.interrupted_iff hhalt).2.mpr hrefused

/-! ## What the last round decides -/

namespace LastRound

variable {before last : Journal}

/-- Only a client that is stopped gets signals; any other last round is a poll and a look. -/
theorem length_eq_two (hl : LastRound t p last r) (hquiet : last.signals = []) :
    last.length = 2 := by
  cases hl with
  | exited _ _ => rfl
  | @stopped poll look j _ hpoll hlook _ hs =>
    exfalso
    rw [Journal.signals_cons, Journal.signals_cons, hpoll, hlook] at hquiet
    exact hs.signals_ne_nil hquiet
  | late _ _ _ => rfl

theorem exits_iff (hl : LastRound t p last r) (hquiet : before.signals = []) {status : ExitStatus}
    {look : Entry} : Exits p status look (before ++ last) ↔
      ∃ poll, last = [poll, look] ∧ poll.deed = .polled p (some status) ∧ look.deed = .looked := by
  constructor
  · intro hx
    have hsignals := hx.signals_eq_nil
    rw [Journal.signals_append, hquiet, List.nil_append] at hsignals
    have hlength := hl.length_eq_two hsignals
    obtain ⟨before', poll, hj, hpoll, hlook, -⟩ := hx
    obtain ⟨-, hlast⟩ := List.append_inj' hj hlength
    exact ⟨poll, hlast, hpoll, hlook⟩
  · rintro ⟨poll, rfl, hpoll, hlook⟩
    exact ⟨before, poll, rfl, hpoll, hlook, hquiet⟩

/-- Anything but an interruption and a lost client is what an exit was classified as. -/
theorem classified_iff (hl : LastRound t p last r) (hquiet : before.signals = [])
    (v : Except ClientFailure ExitStatus) (hinterrupted : v ≠ .error .interrupted)
    (hlost : ∀ err, v ≠ .error (.lost err)) : r = .ok v ↔
      ∃ status look, Exits p status look (before ++ last) ∧
        classify status (t.isCancelled look.interrupts) = v := by
  simp only [hl.exits_iff hquiet]
  cases hl with
  | @exited poll look status hpoll hlook =>
    constructor
    · intro hr
      exact ⟨status, look, ⟨poll, rfl, hpoll, hlook⟩, Except.ok.inj hr⟩
    · rintro ⟨status', look', ⟨poll', hpair, hpoll', -⟩, rfl⟩
      cases hpair
      rw [hpoll] at hpoll'
      cases hpoll'
      rfl
  | @stopped poll look j r hpoll _ _ hs =>
    refine iff_of_false ?_ ?_
    · rintro rfl
      rcases hs.result with h | ⟨err, h⟩ | ⟨a, -, h, -⟩
      · exact hinterrupted (Except.ok.inj h)
      · exact hlost err (Except.ok.inj h)
      · cases h
    · rintro ⟨status, look', ⟨poll', hpair, hpoll', -⟩, -⟩
      cases hpair
      rw [hpoll] at hpoll'
      cases hpoll'
  | @late poll look hpoll _ _ =>
    refine iff_of_false nofun ?_
    rintro ⟨status, look', ⟨poll', hpair, hpoll', -⟩, -⟩
    cases hpair
    rw [hpoll] at hpoll'
    cases hpoll'

theorem cancelled_of_interrupted (hl : LastRound t p last r) (hr : r = .ok (.error .interrupted)) :
    ∃ look ∈ last, look.deed = .looked ∧ t.isCancelled look.interrupts = true := by
  cases hl with
  | @exited poll look status _ hlook =>
    refine ⟨look, by simp, hlook, ?_⟩
    have hclass := Except.ok.inj hr
    simp only [classify] at hclass
    split at hclass
    · cases hclass
    · split at hclass
      · assumption
      · cases hclass
  | @stopped poll look _ _ _ hlook hcan _ => exact ⟨look, by simp, hlook, hcan⟩
  | late _ _ _ => cases hr

theorem decided (hl : LastRound t p last r) (hrefused : ∀ a ∈ last, ¬ a.deed.IsRefused)
    (htime : ∀ a ∈ last, ¬ a.TooLate stopTimeout) :
    (∃ status, r = .ok (.ok status)) ∨ (∃ status, r = .ok (.error (.failed status))) ∨
      r = .ok (.error .interrupted) := by
  cases hl with
  | @exited poll look status _ _ =>
    unfold classify
    split
    · exact .inl ⟨_, rfl⟩
    · split
      · exact .inr (.inr rfl)
      · exact .inr (.inl ⟨_, rfl⟩)
  | stopped _ _ _ hs =>
    refine .inr (.inr (hs.eq_interrupted ?_ ?_))
    · exact fun a ha => hrefused a (by simp [ha])
    · exact fun a ha => htime a (by simp [ha])
  | @late poll look _ _ hlate => exact absurd (deadline?_eq_none hlate _) (htime look (by simp))

/-- All signals of a last round are those to a client that is stopped, after a look that showed a
cancellation. -/
theorem quiet_or_stopped (hl : LastRound t p last r) : last.signals = [] ∨
    ∃ poll look j, last = poll :: look :: j ∧ poll.deed = .polled p none ∧ look.deed = .looked ∧
      t.isCancelled look.interrupts = true ∧ Stopped p j r := by
  cases hl with
  | exited hpoll hlook => exact .inl (by simp [Journal.signals_cons, hpoll, hlook, Deed.signal?])
  | stopped hpoll hlook hcan hs => exact .inr ⟨_, _, _, rfl, hpoll, hlook, hcan, hs⟩
  | late hpoll hlook _ => exact .inl (by simp [Journal.signals_cons, hpoll, hlook, Deed.signal?])

theorem signals_prefix (hl : LastRound t p last r) :
    last.signals <+: [(.process p, .terminate), (.process p, .kill)] := by
  rcases hl.quiet_or_stopped with hlast | ⟨poll, look, j, rfl, hpoll, hlook, -, hs⟩
  · rw [hlast]
    exact List.nil_prefix
  · rw [Journal.signals_cons, Journal.signals_cons, hpoll, hlook]
    exact hs.signals_prefix

theorem silentAfter (hl : LastRound t p last r) : last.SilentAfter p := by
  rcases hl.quiet_or_stopped with hlast | ⟨poll, look, j, rfl, hpoll, hlook, -, hs⟩
  · exact .of_quiet hlast
  · refine .cons ?_ (.cons ?_ hs.silentAfter)
    · rw [hpoll]
      exact nofun
    · rw [hlook]
      exact nofun

/-- A run of a client whose last round is known, with nothing of note before. That a failure shows
no cancellation is left to the host. -/
theorem judged (hl : LastRound t p last r) (hquiet : before.signals = [])
    (hunreaped : ∀ a ∈ before, a.deed.reaped? = none)
    (hfailed : ∀ a ∈ (before ++ last).getLast?, t.isCancelled a.interrupts = false →
      ∀ a ∈ before ++ last, t.isCancelled a.interrupts = false) :
    Judged t p (before ++ last) r := by
  have hfailed_iff (status : ExitStatus) : r = .ok (.error (.failed status)) ↔
      status ≠ .exited 0 ∧
        ∃ look, Exits p status look (before ++ last) ∧ t.isCancelled look.interrupts = false := by
    rw [hl.classified_iff hquiet (.error (.failed status)) (by simp) (by simp)]
    simp only [classify_eq_failed_iff]
    constructor
    · rintro ⟨_, look, hx, hne, rfl, hcan⟩
      exact ⟨hne, look, hx, hcan⟩
    · rintro ⟨hne, look, hx, hcan⟩
      exact ⟨status, look, hx, hne, rfl, hcan⟩
  refine
    { succeeded_iff := ?_
      failed_iff := hfailed_iff
      failed := ?_
      interrupted := ?_
      decided := ?_
      signals := ?_
      asked := ?_
      kill := ?_
      silent := ?_ }
  · intro status
    rw [hl.classified_iff hquiet (.ok status) (by simp) (by simp)]
    simp only [classify_eq_ok_iff]
    constructor
    · rintro ⟨_, look, hx, hzero, rfl⟩
      exact ⟨hzero, look, hx⟩
    · rintro ⟨hzero, look, hx⟩
      exact ⟨status, look, hx, hzero, rfl⟩
  · intro status hr
    obtain ⟨-, look, ⟨before', poll, hj, -⟩, hcan⟩ := (hfailed_iff status).mp hr
    refine hfailed look ?_ hcan
    rw [hj]
    simp
  · intro hr
    obtain ⟨look, hmem, hlook, hcan⟩ := hl.cancelled_of_interrupted hr
    exact ⟨look, List.mem_append_right _ hmem, hlook, hcan⟩
  · intro hrefused htime
    apply hl.decided
    · exact fun a ha => hrefused a (List.mem_append_right _ ha)
    · exact fun a ha => htime a (List.mem_append_right _ ha)
  · rw [Journal.signals_append, hquiet, List.nil_append]
    exact hl.signals_prefix
  · intro before' a behind hj hsignal
    rcases hl.quiet_or_stopped with hlast | ⟨poll, look, j, rfl, hpoll, hlook, hcan, -⟩
    · have hnone : (before ++ last).signals = [] := by
        rw [Journal.signals_append, hquiet, hlast]
        rfl
      exact absurd (Journal.signals_eq_nil_iff.mp hnone a (by rw [hj]; simp)) hsignal
    · refine ⟨look, ?_, hlook, hcan⟩
      have hfront : Journal.signals (before ++ [poll, look]) = [] := by
        simp [hquiet, Journal.signals_cons, hpoll, hlook, Deed.signal?]
      apply Journal.subset_of_signal hfront hsignal (j := j) (by simpa using hj)
      simp
  · intro hkill
    rw [Journal.signals_append, hquiet, List.nil_append] at hkill
    rcases hl.quiet_or_stopped with hlast | ⟨poll, look, j, rfl, hpoll, hlook, -, hs⟩
    · rw [hlast] at hkill
      cases hkill
    · rw [Journal.signals_cons, Journal.signals_cons, hpoll, hlook] at hkill
      obtain ⟨term, w, kill, behind, rfl, hterm, hw, hkilled⟩ := hs.of_kill hkill
      exact ⟨before ++ [poll, look], term, w, kill, behind, by simp, hterm, hw, hkilled⟩
  · refine .unreaped_append ?_ hl.silentAfter
    intro a ha hreaped
    rw [hunreaped a ha] at hreaped
    cases hreaped

end LastRound

variable {σ : Type}

/-- What a client counts as follows from its exit and from the cancellation, and it is stopped at
most once, after a cancellation and not after its exit, whatever it does and whenever the run is
cancelled. If it cannot be started nobody is sent a signal. -/
theorem run_judged (h : Host σ) (t : Token) (hk : h.KeepsRequests t) (c : Command) (results : Path)
    (s : σ) :
    let j := journal h t c results s
    let r := (run h t c results s).1
    (∃ p, (∃ a ∈ j, a.deed.started? = some p) ∧ Judged t p j r) ∨
      (∃ err, r = .ok (.error (.spawn c.program err))) ∧ (∀ a ∈ j, a.deed.started? = none) ∧
        j.signals = [] := by
  intro j r
  have hshown : h.Shown t (run h.journaled t c results (s, [])).2 :=
    hk.journaled.client t c results (.start s)
  have hfailed : ∀ a ∈ j.getLast?, t.isCancelled a.interrupts = false →
      ∀ a ∈ j, t.isCancelled a.interrupts = false := by
    intro last hlast hcan a ha
    by_contra hne
    -- A request that shows anywhere is there when the run of the client is over.
    have hstate := hshown.requests a ha (by simpa using hne)
    rw [← hshown.last last hlast, hcan] at hstate
    cases hstate
  rcases (run_ran h t c results s).lastRound with
    ⟨hquiet, hstarted, herr⟩ | ⟨p, before, last, hj, hstarted, hquiet, hunreaped, hl⟩
  · exact .inr ⟨herr, hstarted, hquiet⟩
  · refine .inl ⟨p, ?_, ?_⟩
    · obtain ⟨a, ha, hp⟩ := hstarted
      refine ⟨a, ?_, hp⟩
      show a ∈ journal h t c results s
      rw [hj]
      exact List.mem_append_left _ ha
    · have hjudged := hl.judged hquiet hunreaped (hj ▸ hfailed)
      rw [← hj] at hjudged
      exact hjudged

/-- On a stage the client of a cancelled run is asked to end, does so, and counts as interrupted. -/
theorem run_judged_stage :
    let s : Stage := ⟨0, ⟨[0], false, .none⟩, false⟩
    let t : Token := ⟨0, false⟩
    Stage.host.KeepsRequests t ∧
      (run Stage.host t default default s).1 = .ok (.error .interrupted) ∧
      ∃ p, Judged t p (journal Stage.host t default default s) (.ok (.error .interrupted)) := by
  intro s t
  have hk : Stage.host.KeepsRequests t := by constructor <;> intros <;> assumption
  have hasked : Stage.host.signal (.process ⟨2⟩) .terminate s = (.ok (), ⟨0, s.interrupts, true⟩) :=
    rfl
  have hr : (run Stage.host t default default s).1 = .ok (.error .interrupted) := by
    show (watch Stage.host t ⟨2⟩ s).1 = _
    rw [watch_eq]
    show (stop Stage.host ⟨2⟩ s).1 = _
    simp only [stop, hasked, Stage.waitFor_eq _ stopTimeout (by decide)]
  refine ⟨hk, hr, ?_⟩
  rcases run_judged Stage.host t hk default default s with ⟨p, -, hjudged⟩ | ⟨⟨err, herr⟩, -⟩
  · rw [hr] at hjudged
    exact ⟨p, hjudged⟩
  · rw [hr] at herr
    cases herr

end Client

end EngineBench
