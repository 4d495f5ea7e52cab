import EngineBench.Client
import EngineBench.Proofs.Waiting

/-!
# Journals of clients

The client is started once and looked at until it exits. Only a cancelled run sends signals, and
only to the client.

* `Client.Stopped`, `Client.Watched` and `Client.Ran` list the journals of a client with the results
  that they lead to.
* `Host.Keeps.client` says that there are no others.
* `Client.Ran.interrupted_iff` says when a run that was cancelled before its client was started
  is counted as interrupted.
-/

namespace EngineBench

namespace Client

/-- The end of a client in a cancelled run: the journal and the result. -/
inductive Stopped (p : ProcessId) : Journal → ClientResult → Prop
  /-- The client cannot be asked to end. -/
  | lost {term : Entry} {err : OsError} :
      term.deed = .signaled (.process p) .terminate (.error err) →
      Stopped p [term] (.ok (.error (.lost err)))
  /-- There is no deadline for the wait. -/
  | overflow {term : Entry} {j : Journal} :
      term.deed = .signaled (.process p) .terminate (.ok ()) → Waited p stopTimeout j none →
      Stopped p (term :: j) (.error .clockOverflow)
  | ended {term : Entry} {j : Journal} {status : ExitStatus} :
      term.deed = .signaled (.process p) .terminate (.ok ()) →
      Waited p stopTimeout j (some (some status)) →
      Stopped p (term :: j) (.ok (.error .interrupted))
  /-- The client did not end and cannot be killed. -/
  | killLost {term kill : Entry} {j : Journal} {err : OsError} :
      term.deed = .signaled (.process p) .terminate (.ok ()) →
      Waited p stopTimeout j (some none) →
      kill.deed = .signaled (.process p) .kill (.error err) →
      Stopped p (term :: (j ++ [kill])) (.ok (.error (.lost err)))
  | killed {term kill wait : Entry} {j : Journal} {status : ExitStatus} :
      term.deed = .signaled (.process p) .terminate (.ok ()) →
      Waited p stopTimeout j (some none) →
      kill.deed = .signaled (.process p) .kill (.ok ()) → wait.deed = .waited p status →
      Stopped p (term :: (j ++ [kill, wait])) (.ok (.error .interrupted))

/-- The watch over a client: the journal and the result. -/
inductive Watched (t : Token) (p : ProcessId) : Journal → ClientResult → Prop
  | exited {poll look : Entry} {status : ExitStatus} : poll.deed = .polled p (some status) →
      look.deed = .looked →
      Watched t p [poll, look] (.ok (classify status (t.isCancelled look.interrupts)))
  /-- The run was cancelled while the client was running. -/
  | stopped {poll look : Entry} {j : Journal} {r : ClientResult} : poll.deed = .polled p none →
      look.deed = .looked → t.isCancelled look.interrupts = true → Stopped p j r →
      Watched t p (poll :: look :: j) r
  /-- The clock came to its end. -/
  | late {poll look : Entry} : poll.deed = .polled p none → look.deed = .looked →
      t.isCancelled look.interrupts = false → endOfTime < look.clock →
      Watched t p [poll, look] (.error .clockOverflow)
  | next {poll look sleep : Entry} {d : Duration} {j : Journal} {r : ClientResult} :
      poll.deed = .polled p none → look.deed = .looked →
      t.isCancelled look.interrupts = false → sleep.deed = .slept d → Watched t p j r →
      Watched t p (poll :: look :: sleep :: j) r

/-- The directory of the results is made. -/
def Prepared (j : Journal) : Prop := ∀ a ∈ j, ∃ p r, a.deed = .madeDirectories p r

/-- The client from its start to its end: the journal and the result. -/
inductive Ran (t : Token) (c : Command) : Journal → ClientResult → Prop
  | unstarted {j : Journal} {spawn : Entry} {err : OsError} : Prepared j →
      spawn.deed = .spawned c .inherited (.error err) →
      Ran t c (j ++ [spawn]) (.ok (.error (.spawn c.program err)))
  | watched {j j' : Journal} {spawn : Entry} {p : ProcessId} {r : ClientResult} :
      Prepared j → spawn.deed = .spawned c .inherited (.ok p) →
      Watched t p j' r → Ran t c (j ++ spawn :: j') r

/-- Why a run that was cancelled before its client was started is not interrupted: the client cannot
be started or asked to end, or its success is seen before the cancellation is looked for. -/
inductive Overtakes (j : Journal) : Prop
  | refused {a : Entry} : a ∈ j → a.deed.IsRefused → Overtakes j
  | finished {a : Entry} {p : ProcessId} {status : ExitStatus} : a ∈ j →
      a.deed = .polled p (some status) → status.isSuccess = true → j.signals = [] → Overtakes j

end Client

/-! ## Clients by their cases -/

namespace Host.Keeps

variable {σ : Type} {h : Host σ} {journal : σ → Journal} (hk : h.Keeps journal)

include hk

theorem stop (p : ProcessId) (s : σ) :
    ∃ j, journal (Client.stop h p s).2 = journal s ++ j ∧
      Client.Stopped p j (Client.stop h p s).1 := by
  rcases hs : h.signal (.process p) .terminate s with ⟨err | _, s₁⟩
  · obtain ⟨term, hterm, hadd⟩ := hk.signaled hs
    simp only [Client.stop, hs]
    exact ⟨_, hadd, .lost hterm⟩
  obtain ⟨term, hterm, hasked⟩ := hk.signaled hs
  obtain ⟨j, hadd, hw⟩ := hk.waitFor p Client.stopTimeout s₁
  rw [hasked, List.append_assoc] at hadd
  rcases hwait : h.waitFor p Client.stopTimeout s₁ with ⟨_ | _ | status, s₂⟩
  · rw [hwait] at hadd hw
    simp only [Client.stop, hs, hwait]
    exact ⟨_, hadd, .overflow hterm hw⟩
  · rw [hwait] at hadd hw
    rcases hs' : h.signal (.process p) .kill s₂ with ⟨err | _, s₃⟩
    · obtain ⟨kill, hkill, hkilled⟩ := hk.signaled hs'
      simp only [Client.stop, hs, hwait, hs']
      refine ⟨term :: (j ++ [kill]), ?_, .killLost hterm hw hkill⟩
      rw [hkilled, hadd, List.append_assoc]
      rfl
    · obtain ⟨kill, hkill, hkilled⟩ := hk.signaled hs'
      simp only [Client.stop, hs, hwait, hs']
      refine ⟨term :: (j ++ [kill, h.entry (.waited p (h.wait p s₃).1) (h.wait p s₃).2]), ?_,
        .killed hterm hw hkill rfl⟩
      rw [hk.wait, hkilled, hadd]
      simp only [List.append_assoc]
      rfl
  · rw [hwait] at hadd hw
    simp only [Client.stop, hs, hwait]
    exact ⟨_, hadd, .ended hterm hw⟩

theorem watch (t : Token) (p : ProcessId) (s : σ) :
    ∃ j, journal (Client.watch h t p s).2 = journal s ++ j ∧
      Client.Watched t p j (Client.watch h t p s).1 := by
  -- Along the recursion of the watch: a round is a vain poll, a look without a request, a sleep.
  fun_induction Client.watch h t p s with
  | case1 s status s' hp =>
    obtain ⟨poll, hpoll, hadd⟩ := hk.polled hp
    refine ⟨[poll, h.entry .looked (h.look s')], ?_, .exited hpoll rfl⟩
    rw [hk.look, hadd, List.append_assoc]
    rfl
  | case2 s s' hp hc =>
    obtain ⟨poll, hpoll, hadd⟩ := hk.polled hp
    obtain ⟨j, hstop, hs⟩ := hk.stop p (h.look s')
    refine ⟨poll :: h.entry .looked (h.look s') :: j, ?_, .stopped hpoll rfl hc hs⟩
    rw [hstop, hk.look, hadd]
    simp only [List.append_assoc]
    rfl
  | case3 s s' hp hc hle ih =>
    obtain ⟨poll, hpoll, hadd⟩ := hk.polled hp
    obtain ⟨j, hrest, hw⟩ := ih
    refine ⟨poll :: h.entry .looked (h.look s') ::
      h.entry (.slept slice) (h.sleep slice (h.look s')) :: j, ?_,
      .next hpoll rfl (Bool.eq_false_iff.mpr hc) rfl hw⟩
    rw [hrest, hk.sleep, hk.look, hadd]
    simp only [List.append_assoc]
    rfl
  | case4 s s' hp hc hle =>
    obtain ⟨poll, hpoll, hadd⟩ := hk.polled hp
    refine ⟨[poll, h.entry .looked (h.look s')], ?_,
      .late hpoll rfl (Bool.eq_false_iff.mpr hc) (Nat.lt_of_not_le hle)⟩
    rw [hk.look, hadd, List.append_assoc]
    rfl

theorem makeParent (p : Path) (s : σ) :
    ∃ j, journal (h.makeParent p s).2 = journal s ++ j ∧ Client.Prepared j := by
  unfold Host.makeParent
  cases p.parent? with
  | none => exact ⟨[], by simp, fun _ ha => (List.not_mem_nil ha).elim⟩
  | some d =>
    by_cases hd : d.bytes.isEmpty
    · exact ⟨[], by simp [hd], fun _ ha => (List.not_mem_nil ha).elim⟩
    · refine ⟨_, by simpa [hd] using hk.makeDirectories d s, ?_⟩
      intro a ha
      rw [List.mem_singleton.mp ha]
      exact ⟨_, _, rfl⟩

/-- Every run of a client is one of those that `Client.Ran` lists. -/
theorem client (t : Token) (c : Command) (results : Path) (s : σ) :
    ∃ j, journal (Client.run h t c results s).2 = journal s ++ j ∧
      Client.Ran t c j (Client.run h t c results s).1 := by
  obtain ⟨j, hmade, hprep⟩ := hk.makeParent results s
  rcases hs : h.spawn c .inherited (h.makeParent results s).2 with ⟨err | p, s'⟩
  · obtain ⟨spawn, hspawn, hadd⟩ := hk.spawned hs
    simp only [Client.run, hs]
    refine ⟨j ++ [spawn], ?_, .unstarted hprep hspawn⟩
    rw [hadd, hmade, List.append_assoc]
  · obtain ⟨spawn, hspawn, hadd⟩ := hk.spawned hs
    obtain ⟨j', hrest, hw⟩ := hk.watch t p s'
    simp only [Client.run, hs]
    refine ⟨j ++ spawn :: j', ?_, .watched hprep hspawn hw⟩
    rw [hrest, hadd, hmade]
    simp only [List.append_assoc]
    rfl

end Host.Keeps

namespace Client

/-! ## What a client leaves behind -/

variable {t : Token} {p : ProcessId} {c : Command} {j : Journal} {r : ClientResult}

theorem Prepared.isIdle (hp : Prepared j) : j.IsIdle := by
  intro a ha
  obtain ⟨p, r, hd⟩ := hp a ha
  rw [hd]
  exact ⟨rfl, rfl, rfl⟩

theorem Prepared.not_isRefused (hp : Prepared j) : ∀ a ∈ j, ¬ a.deed.IsRefused := by
  intro a ha
  obtain ⟨p, r, hd⟩ := hp a ha
  rw [hd]
  exact id

theorem Stopped.signals (hs : Stopped p j r) : ∀ x ∈ j.signals, x.1 = .process p := by
  cases hs with
  | lost hterm => simp [Journal.signals_cons, hterm, Deed.signal?]
  | overflow hterm hw => simp [Journal.signals_cons, hterm, Deed.signal?, hw.signals_eq_nil]
  | ended hterm hw => simp [Journal.signals_cons, hterm, Deed.signal?, hw.signals_eq_nil]
  | killLost hterm hw hkill =>
    simp [Journal.signals_cons, hterm, hkill, Deed.signal?, hw.signals_eq_nil]
  | killed hterm hw hkill hwait =>
    simp [Journal.signals_cons, hterm, hkill, hwait, Deed.signal?, hw.signals_eq_nil]

theorem Watched.signals (hw : Watched t p j r) : ∀ x ∈ j.signals, x.1 = .process p := by
  induction hw with
  | exited hpoll hlook => simp [Journal.signals_cons, hpoll, hlook, Deed.signal?]
  | stopped hpoll hlook _ hs =>
    simpa [Journal.signals_cons, hpoll, hlook, Deed.signal?] using hs.signals
  | late hpoll hlook _ _ => simp [Journal.signals_cons, hpoll, hlook, Deed.signal?]
  | next hpoll hlook _ hsleep _ ih =>
    simpa [Journal.signals_cons, hpoll, hlook, hsleep, Deed.signal?] using ih

theorem Ran.signals (hr : Ran t c j r) : ∀ x ∈ j.signals, ∃ p, x.1 = .process p := by
  cases hr with
  | unstarted hprep hspawn =>
    simp [hprep.isIdle.signals_eq_nil, Journal.signals_cons, hspawn, Deed.signal?]
  | @watched _ _ _ p _ hprep hspawn hw =>
    intro x hx
    simp only [Journal.signals_append, hprep.isIdle.signals_eq_nil, Journal.signals_cons,
      hspawn, Deed.signal?, Option.toList_none, List.nil_append] at hx
    exact ⟨p, hw.signals x hx⟩

theorem Stopped.result (hs : Stopped p j r) :
    r = .ok (.error .interrupted) ∨ (∃ err, r = .ok (.error (.lost err))) ∨
      ∃ a ∈ j, r = .error .clockOverflow ∧ a.TooLate stopTimeout := by
  cases hs with
  | lost _ => exact .inr (.inl ⟨_, rfl⟩)
  | overflow _ hw =>
    obtain ⟨a, ha, hlate⟩ := hw.tooLate
    exact .inr (.inr ⟨a, List.mem_cons_of_mem _ ha, rfl, hlate⟩)
  | ended _ _ => exact .inl rfl
  | killLost _ _ _ => exact .inr (.inl ⟨_, rfl⟩)
  | killed _ _ _ _ => exact .inl rfl

/-- A client that did its work exited with success. -/
theorem Watched.isSuccess (hw : Watched t p j r) {status : ExitStatus}
    (hr : r = .ok (.ok status)) : status.isSuccess = true := by
  induction hw with
  | @exited _ look status' _ _ =>
    simp only [classify] at hr
    split at hr
    · cases hr
      assumption
    · split at hr <;> cases hr
  | stopped _ _ _ hs =>
    rcases hs.result with h | ⟨err, h⟩ | ⟨a, -, h, -⟩ <;> rw [h] at hr <;> cases hr
  | late _ _ _ _ => cases hr
  | next _ _ _ _ _ ih => exact ih hr

theorem Ran.isSuccess (hc : Ran t c j r) {status : ExitStatus} (hr : r = .ok (.ok status)) :
    status.isSuccess = true := by
  cases hc with
  | unstarted _ _ => cases hr
  | watched _ _ hw => exact hw.isSuccess hr

theorem Watched.not_isSuccess (hw : Watched t p j r) {status : ExitStatus}
    (hr : r = .ok (.error (.failed status))) : status.isSuccess = false := by
  induction hw with
  | @exited _ look status' _ _ =>
    simp only [classify] at hr
    split at hr
    · cases hr
    · split at hr <;> cases hr
      simp_all
  | stopped _ _ _ hs =>
    rcases hs.result with h | ⟨err, h⟩ | ⟨a, -, h, -⟩ <;> rw [h] at hr <;> cases hr
  | late _ _ _ _ => cases hr
  | next _ _ _ _ _ ih => exact ih hr

theorem Ran.not_isSuccess (hc : Ran t c j r) {status : ExitStatus}
    (hr : r = .ok (.error (.failed status))) : status.isSuccess = false := by
  cases hc with
  | unstarted _ _ => cases hr
  | watched _ _ hw => exact hw.not_isSuccess hr

/-- A client is interrupted only where a cancellation was seen. -/
theorem Watched.cancelled_of_interrupted (hw : Watched t p j r)
    (hr : r = .ok (.error .interrupted)) : ∃ a ∈ j, t.isCancelled a.interrupts = true := by
  induction hw with
  | @exited _ look status _ _ =>
    refine ⟨look, by simp, ?_⟩
    simp only [classify] at hr
    split at hr
    · cases hr
    · split at hr
      · assumption
      · cases hr
  | @stopped _ look _ _ _ _ hcan _ => exact ⟨look, by simp, hcan⟩
  | late _ _ _ _ => cases hr
  | next _ _ _ _ _ ih =>
    obtain ⟨a, ha, hcan⟩ := ih hr
    exact ⟨a, by simp [ha], hcan⟩

theorem Ran.cancelled_of_interrupted (hc : Ran t c j r) (hr : r = .ok (.error .interrupted)) :
    ∃ a ∈ j, t.isCancelled a.interrupts = true := by
  cases hc with
  | unstarted _ _ => cases hr
  | watched _ _ hw =>
    obtain ⟨a, ha, hcan⟩ := hw.cancelled_of_interrupted hr
    exact ⟨a, by simp [ha], hcan⟩

/-- Behind the end of the clock nothing has a deadline. -/
theorem deadline?_eq_none {now : Nat} (hlate : endOfTime < now) (d : Duration) :
    Host.deadline? now d = none := by
  have hpos : 0 < Duration.perSecond := by decide
  have hle : (Host.maxClockSeconds + 1) * Duration.perSecond ≤ d.nanoseconds + now := by
    unfold endOfTime at hlate
    omega
  have hdiv := (Nat.le_div_iff_mul_le hpos).mpr hle
  simp only [Host.deadline?, ite_eq_right_iff, reduceCtorEq, imp_false]
  omega

theorem Watched.tooLate (hw : Watched t p j r) {halt : Halt} (hr : r = .error halt) :
    ∃ a ∈ j, a.TooLate stopTimeout := by
  induction hw with
  | exited _ _ => cases hr
  | stopped _ _ _ hs =>
    rcases hs.result with h | ⟨err, h⟩ | ⟨a, ha, -, hlate⟩
    · rw [h] at hr
      cases hr
    · rw [h] at hr
      cases hr
    · exact ⟨a, by simp [ha], hlate⟩
  | @late _ look _ _ _ hlate => exact ⟨look, by simp, deadline?_eq_none hlate _⟩
  | next _ _ _ _ _ ih =>
    obtain ⟨a, ha, hlate⟩ := ih hr
    exact ⟨a, by simp [ha], hlate⟩

theorem Ran.tooLate (hc : Ran t c j r) {halt : Halt} (hr : r = .error halt) :
    ∃ a ∈ j, a.TooLate stopTimeout := by
  cases hc with
  | unstarted _ _ => cases hr
  | watched _ _ hw =>
    obtain ⟨a, ha, hlate⟩ := hw.tooLate hr
    exact ⟨a, by simp [ha], hlate⟩

/-! ## Clients of cancelled runs -/

/-- How a client ends that is stopped: it is interrupted unless something is refused. -/
theorem Stopped.interrupted_iff (hs : Stopped p j r) (hr : ∀ halt, r ≠ .error halt) :
    j.signals ≠ [] ∧ (r = .ok (.error .interrupted) ↔ ∀ a ∈ j, ¬ a.deed.IsRefused) := by
  cases hs with
  | lost hterm => simp [Journal.signals_cons, hterm, Deed.signal?, Deed.IsRefused]
  | overflow _ _ => exact absurd rfl (hr _)
  | ended hterm hw =>
    refine ⟨by simp [Journal.signals_cons, hterm, Deed.signal?], ?_⟩
    simp only [List.mem_cons, forall_eq_or_imp, hterm, true_iff]
    exact ⟨id, hw.not_isRefused⟩
  | killLost hterm _ hkill =>
    refine ⟨by simp [Journal.signals_cons, hterm, Deed.signal?], ?_⟩
    simp [hkill, Deed.IsRefused]
  | killed hterm hw hkill hwait =>
    refine ⟨by simp [Journal.signals_cons, hterm, Deed.signal?], ?_⟩
    simp only [List.mem_cons, List.mem_append, List.not_mem_nil, or_false, true_iff]
    rintro a (rfl | ha | rfl | rfl)
    · rw [hterm]
      exact id
    · exact hw.not_isRefused a ha
    · rw [hkill]
      exact id
    · rw [hwait]
      exact id

/-- What refuses nothing, sends nothing and sees no exit does not matter. -/
theorem Overtakes.append_iff {k : Journal} (hk : ∀ a ∈ k, ¬ a.deed.IsRefused)
    (hreaped : ∀ a ∈ k, a.deed.reaped? = none) (hquiet : k.signals = []) :
    Overtakes (k ++ j) ↔ Overtakes j := by
  constructor
  · rintro (⟨ha, href⟩ | ⟨ha, hpoll, hs, hsignals⟩)
    · rcases List.mem_append.mp ha with ha | ha
      · exact absurd href (hk _ ha)
      · exact .refused ha href
    · rcases List.mem_append.mp ha with ha | ha
      · have hnone := hreaped _ ha
        rw [hpoll] at hnone
        cases hnone
      · rw [Journal.signals_append, hquiet, List.nil_append] at hsignals
        exact .finished ha hpoll hs hsignals
  · rintro (⟨ha, href⟩ | ⟨ha, hpoll, hs, hsignals⟩)
    · exact .refused (List.mem_append_right _ ha) href
    · refine .finished (List.mem_append_right _ ha) hpoll hs ?_
      rw [Journal.signals_append, hquiet, hsignals]
      rfl

theorem Watched.interrupted_iff (hw : Watched t p j r)
    (hall : ∀ a ∈ j, t.isCancelled a.interrupts = true) (hr : ∀ halt, r ≠ .error halt) :
    r = .ok (.error .interrupted) ↔ ¬ Overtakes j := by
  -- No induction: the first look shows the request, so that the watch ends in its first round.
  cases hw with
  | @exited poll look status hpoll hlook =>
    rw [hall look (by simp)]
    have hquiet : Journal.signals [poll, look] = [] := by
      simp [Journal.signals_cons, hpoll, hlook, Deed.signal?]
    by_cases hs : status.isSuccess = true
    · have hover : Overtakes [poll, look] := .finished (by simp) hpoll hs hquiet
      simp [classify, hs, hover]
    · refine iff_of_true (by simp [classify, hs]) ?_
      rintro (⟨ha, href⟩ | ⟨ha, hpoll', hs', -⟩)
      · obtain rfl | rfl : _ = poll ∨ _ = look := by simpa using ha
        · rw [hpoll] at href
          exact href
        · rw [hlook] at href
          exact href
      · obtain rfl | rfl : _ = poll ∨ _ = look := by simpa using ha
        · rw [hpoll] at hpoll'
          cases hpoll'
          exact hs hs'
        · rw [hlook] at hpoll'
          cases hpoll'
  | @stopped poll look j' r hpoll hlook _ hs =>
    obtain ⟨hsignals, hiff⟩ := hs.interrupted_iff hr
    have hover : Overtakes (poll :: look :: j') ↔ Overtakes j' := by
      refine Overtakes.append_iff (k := [poll, look]) ?_ ?_ ?_
      · simp [hpoll, hlook, Deed.IsRefused]
      · simp [hpoll, hlook, Deed.reaped?]
      · simp [Journal.signals_cons, hpoll, hlook, Deed.signal?]
    rw [hiff, hover]
    constructor
    · rintro hno (⟨ha, href⟩ | ⟨_, _, _, hquiet⟩)
      · exact hno _ ha href
      · exact hsignals hquiet
    · intro hno a ha href
      exact hno (.refused ha href)
  | late _ _ hcan _ =>
    rw [hall _ (by simp)] at hcan
    cases hcan
  | next _ _ hcan _ _ =>
    rw [hall _ (by simp)] at hcan
    cases hcan

/-- A run that was cancelled before its client was started is interrupted exactly if nothing
overtakes the cancellation. -/
theorem Ran.interrupted_iff (hc : Ran t c j r) (hall : ∀ a ∈ j, t.isCancelled a.interrupts = true)
    (hr : ∀ halt, r ≠ .error halt) : r = .ok (.error .interrupted) ↔ ¬ Overtakes j := by
  cases hc with
  | @unstarted j₀ spawn err _ hspawn =>
    have href : spawn.deed.IsRefused := by
      rw [hspawn]
      trivial
    have hover : Overtakes (j₀ ++ [spawn]) := .refused (by simp) href
    simp [hover]
  | @watched j₀ j' spawn p r hprep hspawn hw =>
    -- Up to the start of the client nothing happens that could overtake the request.
    have hover : Overtakes (j₀ ++ spawn :: j') ↔ Overtakes j' := by
      rw [Overtakes.append_iff hprep.not_isRefused (fun a ha => (hprep.isIdle a ha).2.1)
        (hprep.isIdle.signals_eq_nil)]
      refine Overtakes.append_iff (k := [spawn]) ?_ ?_ ?_
      · simp [hspawn, Deed.IsRefused]
      · simp [hspawn, Deed.reaped?]
      · simp [Journal.signals_cons, hspawn, Deed.signal?]
    rw [hover]
    exact hw.interrupted_iff (fun a ha => hall a (by simp [ha])) hr

end Client

end EngineBench
