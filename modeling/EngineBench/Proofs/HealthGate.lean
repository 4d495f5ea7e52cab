import EngineBench.Proofs.Teardown

/-!
# The gate of a run

Before each attempt the gate looks for a cancellation, then at the engine, and only then probes. A
run waits at the gate with an engine that was running when it began.

* `HealthGate.Gated` lists the journals of the gate with the reports that they lead to.
* `Host.Keeps.awaitReady` says that there are no others.
* The rest reads off what each report tells of the engine, the attempts and the run.
-/

namespace EngineBench

namespace HealthGate

/-- One attempt: no cancellation, a running engine, and the result of the probe. -/
inductive Tried (t : Token) (p : ProcessId) : Journal → ProbeResult → Prop
  | intro {look poll probe : Entry} {r : ProbeResult} : look.deed = .looked →
      t.isCancelled look.interrupts = false → poll.deed = .polled p none →
      probe.deed = .probed r → Tried t p [look, poll, probe] r

/-- The remaining attempts with a running engine, after the given checks: the journal, the report,
and what is known of the engine then. -/
inductive Gated (g : HealthGate) (t : Token) (e : Engine) :
    Nat → List HealthCheck → Journal → Except Halt HealthReport → Engine → Prop
  /-- The run was cancelled before an attempt. -/
  | cancelled {n : Nat} {checks : List HealthCheck} {look : Entry} : look.deed = .looked →
      t.isCancelled look.interrupts = true →
      Gated g t e (n + 1) checks [look] (.ok ⟨.interrupted, checks⟩) e
  /-- The engine was gone before an attempt. -/
  | gone {n : Nat} {checks : List HealthCheck} {look poll : Entry} {status : ExitStatus} :
      look.deed = .looked → t.isCancelled look.interrupts = false →
      poll.deed = .polled e.pid (some status) →
      Gated g t e (n + 1) checks [look, poll] (.ok ⟨.engineExited, checks⟩) (e.markExited status)
  | ready {n : Nat} {checks : List HealthCheck} {j : Journal} : Tried t e.pid j .ready →
      Gated g t e (n + 1) checks j (.ok ⟨.ready, checks ++ [⟨checks.length + 1, .ready⟩]⟩) e
  /-- The last attempt failed. -/
  | spent {checks : List HealthCheck} {j : Journal} : Tried t e.pid j .unreachable →
      Gated g t e 1 checks j
        (.ok ⟨.timedOut, checks ++ [⟨checks.length + 1, .unreachable⟩]⟩) e
  /-- There is no deadline for the pause. -/
  | overflow {n : Nat} {checks : List HealthCheck} {j j' : Journal} :
      Tried t e.pid j .unreachable → Paused t g.interval j' none →
      Gated g t e (n + 2) checks (j ++ j') (.error .clockOverflow) e
  /-- The run was cancelled in the pause. -/
  | cut {n : Nat} {checks : List HealthCheck} {j j' : Journal} :
      Tried t e.pid j .unreachable → Paused t g.interval j' (some false) →
      Gated g t e (n + 2) checks (j ++ j')
        (.ok ⟨.interrupted, checks ++ [⟨checks.length + 1, .unreachable⟩]⟩) e
  /-- The pause is over, and there are attempts left. -/
  | next {n : Nat} {checks : List HealthCheck} {j j' j'' : Journal}
      {r : Except Halt HealthReport} {e' : Engine} :
      Tried t e.pid j .unreachable → Paused t g.interval j' (some true) →
      Gated g t e (n + 1) (checks ++ [⟨checks.length + 1, .unreachable⟩]) j'' r e' →
      Gated g t e (n + 2) checks (j ++ (j' ++ j'')) r e'

theorem Tried.isIdle {t : Token} {p : ProcessId} {j : Journal} {r : ProbeResult}
    (ht : Tried t p j r) : j.IsIdle := by
  cases ht with
  | intro hlook _ hpoll hprobe =>
    simp only [Journal.IsIdle, List.mem_cons, List.not_mem_nil, or_false, forall_eq_or_imp,
      forall_eq, hlook, hpoll, hprobe]
    exact ⟨⟨rfl, rfl, rfl⟩, ⟨rfl, rfl, rfl⟩, ⟨rfl, rfl, rfl⟩⟩

namespace Gated

variable {g : HealthGate} {t : Token} {e e' : Engine} {n : Nat} {checks : List HealthCheck}
  {j : Journal} {r : Except Halt HealthReport}

/-- What the gate finds out about the engine: nothing, or its exit, and then the gate says so. -/
theorem engine (hg : g.Gated t e n checks j r e') :
    (e' = e ∧ j.IsIdle ∧ ∀ report, r = .ok report → report.status ≠ .engineExited) ∨
      ∃ (status : ExitStatus) (j' : Journal) (poll : Entry) (checks' : List HealthCheck),
        e' = e.markExited status ∧ j = j' ++ [poll] ∧ j'.IsIdle ∧
        poll.deed = .polled e.pid (some status) ∧ r = .ok ⟨.engineExited, checks'⟩ := by
  have hidle {look : Entry} (hlook : look.deed = .looked) : Journal.IsIdle [look] :=
    .of_looked (by simpa using hlook)
  induction hg with
  | cancelled hlook _ => exact .inl ⟨rfl, hidle hlook, by rintro _ ⟨⟩; exact nofun⟩
  | @gone _ checks look poll status hlook _ hpoll =>
    exact .inr ⟨status, [look], poll, checks, rfl, rfl, hidle hlook, hpoll, rfl⟩
  | ready ht => exact .inl ⟨rfl, ht.isIdle, by rintro _ ⟨⟩; exact nofun⟩
  | spent ht => exact .inl ⟨rfl, ht.isIdle, by rintro _ ⟨⟩; exact nofun⟩
  | overflow ht hp => exact .inl ⟨rfl, ht.isIdle.append hp.isIdle, nofun⟩
  | cut ht hp => exact .inl ⟨rfl, ht.isIdle.append hp.isIdle, by rintro _ ⟨⟩; exact nofun⟩
  | next ht hp _ ih =>
    rcases ih with ⟨he, hj'', hr⟩ | ⟨status, k, poll, checks', he, rfl, hk, hpoll, hr⟩
    · exact .inl ⟨he, ht.isIdle.append (hp.isIdle.append hj''), hr⟩
    · refine .inr ⟨status, _, poll, checks', he, ?_, ht.isIdle.append (hp.isIdle.append hk),
        hpoll, hr⟩
      simp only [List.append_assoc]

/-- The gate gives up when all attempts were made. -/
theorem length_of_timedOut (hg : g.Gated t e n checks j r e') {all : List HealthCheck}
    (hr : r = .ok ⟨.timedOut, all⟩) : all.length = checks.length + n := by
  induction hg with
  | cancelled _ _ => cases hr
  | gone _ _ _ => cases hr
  | ready _ => cases hr
  | spent _ =>
    cases hr
    simp
  | overflow _ _ => cases hr
  | cut _ _ => cases hr
  | next _ _ _ ih =>
    rw [ih hr, List.length_append, List.length_singleton]
    omega

/-- The gate is interrupted only where a cancellation was seen. -/
theorem cancelled_of_interrupted (hg : g.Gated t e n checks j r e') {all : List HealthCheck}
    (hr : r = .ok ⟨.interrupted, all⟩) : ∃ a ∈ j, t.isCancelled a.interrupts = true := by
  induction hg with
  | cancelled _ hcan => exact ⟨_, List.mem_singleton_self _, hcan⟩
  | gone _ _ _ => cases hr
  | ready _ => cases hr
  | spent _ => cases hr
  | overflow _ _ => cases hr
  | cut _ hp =>
    cases hp with
    | @cut _ last _ _ _ _ hcan => exact ⟨last, by simp, hcan⟩
  | next _ _ _ ih =>
    obtain ⟨a, ha, hcan⟩ := ih hr
    exact ⟨a, List.mem_append_right _ (List.mem_append_right _ ha), hcan⟩

theorem tooLate (hg : g.Gated t e n checks j r e') {halt : Halt} (hr : r = .error halt) :
    ∃ a ∈ j, a.TooLate g.interval := by
  induction hg with
  | cancelled _ _ => cases hr
  | gone _ _ _ => cases hr
  | ready _ => cases hr
  | spent _ => cases hr
  | overflow _ hp =>
    cases hp with
    | overflow _ hlate =>
      exact ⟨_, List.mem_append_right _ (List.mem_singleton_self _), hlate⟩
  | cut _ _ => cases hr
  | next _ _ _ ih =>
    obtain ⟨a, ha, hlate⟩ := ih hr
    exact ⟨a, List.mem_append_right _ (List.mem_append_right _ ha), hlate⟩

end Gated

end HealthGate

/-! ## The gate by its cases -/

namespace Host.Keeps

variable {σ : Type} {h : Host σ} {journal : σ → Journal} (hk : h.Keeps journal)

include hk

/-- A look at a running engine beside a state. -/
theorem pollBeside {e : Engine} (he : e.state = .running) (grace : Duration) (attempted : Bool)
    (s : σ) :
    (∃ a s', Plan.pollBeside h (s, ⟨some e, grace, attempted⟩) =
        (true, s', ⟨some e, grace, attempted⟩) ∧
        a.deed = .polled e.pid none ∧ journal s' = journal s ++ [a]) ∨
      ∃ a s' status, Plan.pollBeside h (s, ⟨some e, grace, attempted⟩) =
        (false, s', ⟨some (e.markExited status), grace, attempted⟩) ∧
        a.deed = .polled e.pid (some status) ∧ journal s' = journal s ++ [a] := by
  have hj := hk.poll e.pid s
  simp only [Plan.pollBeside, Guard.isRunning, Engine.poll, he]
  rcases hp : h.poll e.pid s with ⟨_ | status, s'⟩
  · rw [hp] at hj
    exact .inl ⟨_, s', by simp [he], rfl, hj⟩
  · rw [hp] at hj
    exact .inr ⟨_, s', status, by simp [Engine.markExited], rfl, hj⟩

variable {probe : σ → ProbeResult × σ} (hprobe : h.KeepsProbe journal probe)

include hprobe

omit hk hprobe in
/-- One attempt of the gate of a run, and what is left then. -/
theorem attempt_succ (h : Host σ) (probe : σ → ProbeResult × σ) (g : HealthGate) (t : Token)
    (n : Nat) (checks : List HealthCheck) (s : σ) (guard : Guard) :
    g.attempt (h.extend Guard) t (Plan.probeBeside probe) (Plan.pollBeside h) (n + 1) checks
        (s, guard) =
      if t.isCancelled (h.interrupts (h.look s)) then (.ok ⟨.interrupted, checks⟩, h.look s, guard)
      else
        match Plan.pollBeside h (h.look s, guard) with
        | (false, w) => (.ok ⟨.engineExited, checks⟩, w)
        | (true, s, guard) =>
          match probe s with
          | (.ready, s) =>
            (.ok ⟨.ready, checks ++ [⟨checks.length + 1, .ready⟩]⟩, s, guard)
          | (.unreachable, s) =>
            let checks := checks ++ [⟨checks.length + 1, .unreachable⟩]
            if n = 0 then (.ok ⟨.timedOut, checks⟩, s, guard)
            else
              match t.sleep h g.interval s with
              | (none, s) => (.error .clockOverflow, s, guard)
              | (some false, s) => (.ok ⟨.interrupted, checks⟩, s, guard)
              | (some true, s) =>
                g.attempt (h.extend Guard) t (Plan.probeBeside probe) (Plan.pollBeside h) n checks
                  (s, guard) := by
  have hlook : (h.extend Guard).look (s, guard) = (h.look s, guard) := rfl
  have hinterrupts (w : σ × Guard) : (h.extend Guard).interrupts w = h.interrupts w.1 := rfl
  simp only [HealthGate.attempt, hlook, hinterrupts]
  by_cases hc : t.isCancelled (h.interrupts (h.look s))
  · simp [hc]
  simp only [hc]
  rcases Plan.pollBeside h (h.look s, guard) with ⟨_ | _, s', guard'⟩
  · rfl
  simp only [Plan.probeBeside]
  rcases probe s' with ⟨_ | _, s''⟩
  · rfl
  by_cases hn : n = 0
  · simp [hn]
  simp only [hn, (h.extend_sees guard').sleep_token]
  rcases t.sleep h g.interval s'' with ⟨_ | _ | _, s₃⟩ <;> rfl

theorem attempt (g : HealthGate) (t : Token) {e : Engine} (he : e.state = .running)
    (grace : Duration) (attempted : Bool) (n : Nat) (checks : List HealthCheck) (s : σ) :
    ∃ j e' s' r, g.attempt (h.extend Guard) t (Plan.probeBeside probe) (Plan.pollBeside h) (n + 1)
        checks (s, ⟨some e, grace, attempted⟩) = (r, s', ⟨some e', grace, attempted⟩) ∧
      journal s' = journal s ++ j ∧ g.Gated t e (n + 1) checks j r e' := by
  -- Strong, so that the first and the later attempts share what they begin with.
  induction n using Nat.strongRecOn generalizing checks s with
  | ind n ih =>
    have hlook := hk.look s
    rw [attempt_succ]
    by_cases hc : t.isCancelled (h.interrupts (h.look s))
    · simp only [hc, if_true]
      exact ⟨_, e, _, _, rfl, hlook, .cancelled rfl hc⟩
    simp only [hc]
    have hnot : t.isCancelled (h.entry .looked (h.look s)).interrupts = false :=
      Bool.eq_false_iff.mpr hc
    rcases hk.pollBeside he grace attempted (h.look s) with
      ⟨poll, s₁, hpoll, hdeed, hpolled⟩ | ⟨poll, s₁, status, hpoll, hdeed, hpolled⟩
    · rw [hpoll]
      have hprobed := hprobe s₁
      rcases hp : probe s₁ with ⟨r, s₂⟩
      rw [hp, hpolled, hlook] at hprobed
      have hadd : journal s₂ = journal s ++
          [h.entry .looked (h.look s), poll, h.entry (.probed r) s₂] := by simpa using hprobed
      have htried : HealthGate.Tried t e.pid
          [h.entry .looked (h.look s), poll, h.entry (.probed r) s₂] r :=
        .intro rfl hnot hdeed rfl
      -- From here on an attempt is no more than `Tried` says.
      generalize [h.entry .looked (h.look s), poll, h.entry (.probed r) s₂] = j at hadd htried
      cases r with
      | ready => exact ⟨j, e, s₂, _, by simp [hp], hadd, .ready htried⟩
      | unreachable =>
        cases n with
        | zero => exact ⟨j, e, s₂, _, by simp [hp], hadd, .spent htried⟩
        | succ n =>
          obtain ⟨j', hslept, hpause⟩ := hk.sleep_token t g.interval s₂
          rcases hs : t.sleep h g.interval s₂ with ⟨_ | _ | _, s₃⟩
          · rw [hs] at hslept hpause
            refine ⟨j ++ j', e, s₃, _, by simp [hp, hs], ?_, .overflow htried hpause⟩
            rw [hslept, hadd, List.append_assoc]
          · rw [hs] at hslept hpause
            refine ⟨j ++ j', e, s₃, _, by simp [hp, hs], ?_, .cut htried hpause⟩
            rw [hslept, hadd, List.append_assoc]
          · rw [hs] at hslept hpause
            obtain ⟨j'', e', s₄, r, hrest, hadd', hgated⟩ := ih n (Nat.lt_succ_self n)
              (checks ++ [⟨checks.length + 1, .unreachable⟩]) s₃
            refine ⟨j ++ (j' ++ j''), e', s₄, r, by simp [hp, hs, hrest], ?_,
              .next htried hpause hgated⟩
            rw [hadd', hslept, hadd]
            simp only [List.append_assoc]
    · rw [hpoll]
      refine ⟨_, _, _, _, rfl, ?_, .gone rfl hnot hdeed⟩
      rw [hpolled, hlook]
      simp

theorem awaitReady (p : Plan) {e : Engine} (he : e.state = .running) (grace : Duration)
    (attempted : Bool) (s : σ) :
    ∃ j e' s' r, p.awaitReady h probe ⟨some e, grace, attempted⟩ s =
        (r, ⟨some e', grace, attempted⟩, s') ∧
      journal s' = journal s ++ j ∧
      p.gate.Gated p.token e p.gate.maxAttempts.toNat [] j r e' := by
  obtain ⟨n, hn⟩ : ∃ n, p.gate.maxAttempts.toNat = n + 1 := by
    have hpos : 1 ≤ p.gate.maxAttempts.toNat := p.gate.positive
    exact ⟨p.gate.maxAttempts.toNat - 1, by omega⟩
  obtain ⟨j, e', s', r, hrun, hadd, hg⟩ :=
    hk.attempt hprobe p.gate p.token he grace attempted n [] s
  refine ⟨j, e', s', r, ?_, hadd, hn ▸ hg⟩
  simp only [Plan.awaitReady, HealthGate.wait, hn, hrun]

end Host.Keeps

end EngineBench
