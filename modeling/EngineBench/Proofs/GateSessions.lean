import EngineBench.Proofs.Interruption

/-!
# Sessions of the gate

A session is everything that the gate does until it stops: it looks at the clock and for a
cancellation, asks whether the engine is alive, probes, and pauses. Probe and engine may be any
operations on the state of the world, and so may each moment of a cancellation.

* `HealthGate.session` is the session of a gate; `HealthGate.wait_session` says that keeping it
  changes nothing.
* `HealthGate.Course` lists all sessions with the results of their probes and with what the gate
  says, by failed attempts and a last one.
* `HealthGate.Exact` is what a session and its report have to do with each other and with the
  budget, and `HealthGate.wait_exact` says that this is so for every gate.
-/

namespace EngineBench

namespace HealthGate

/-- Something that the gate does. -/
inductive Event where
  /-- A look or a sleep. -/
  | passed (e : Entry)
  /-- Whether the engine is alive was asked. -/
  | asked (alive : Bool)
  | probed (r : ProbeResult)

/-- The result of a probe. -/
def Event.probe? : Event → Option ProbeResult
  | .probed r => some r
  | _ => none

/-- What the gate does, in its order. -/
abbrev Session := List Event

namespace Session

/-- The results of all probes. -/
def probes (session : Session) : List ProbeResult := session.filterMap Event.probe?

/-- How often the gate goes on behind a probe. All it can do then is to pause. -/
def pauses : Session → Nat
  | .probed _ :: e :: rest => pauses (e :: rest) + 1
  | _ :: rest => pauses rest
  | [] => 0

@[simp] theorem probes_append (a b : Session) : probes (a ++ b) = probes a ++ probes b :=
  List.filterMap_append

@[simp] theorem probes_passed (j : Journal) : probes (j.map .passed) = [] := by
  rw [probes, List.filterMap_map]
  exact List.filterMap_eq_nil_iff.mpr fun _ _ => rfl

/-- Looks and sleeps hold no pause but the one that they are part of. -/
theorem pauses_passed_append (j : Journal) (b : Session) :
    pauses (j.map .passed ++ b) = pauses b := by
  induction j with
  | nil => rfl
  | cons e j ih => exact ih

/-- A probe of a session in two parts is in the first or in the second part. -/
theorem probed_or_of_append {a b before behind : Session} {r : ProbeResult}
    (hab : a ++ b = before ++ .probed r :: behind) :
    (∃ rest, a = before ++ .probed r :: rest ∧ behind = rest ++ b) ∨
      ∃ front, before = a ++ front ∧ b = front ++ .probed r :: behind := by
  rcases List.append_eq_append_iff.mp hab with ⟨front, hbefore, hb⟩ | ⟨rest, ha, hrest⟩
  · exact .inr ⟨front, hbefore, hb⟩
  · cases rest with
    | nil => exact .inr ⟨[], by simpa using ha.symm, by simpa using hrest.symm⟩
    | cons e rest =>
      obtain ⟨rfl, hbehind⟩ := List.cons.inj hrest
      exact .inl ⟨rest, ha, hbehind⟩

end Session

variable {σ : Type}

/-! ## Keeping a session -/

/-- The same host with a session beside its state. -/
def sessionHost (h : Host σ) : Host (σ × Session) :=
  { h.extend Session with
    look := fun w => (h.look w.1, w.2 ++ [.passed (h.entry .looked (h.look w.1))])
    sleep := fun d w => (h.sleep d w.1, w.2 ++ [.passed (h.entry (.slept d) (h.sleep d w.1))])
    clock_look := fun w => h.clock_look w.1
    clock_sleep := fun d w => h.clock_sleep d w.1 }

def sessionProbe (probe : σ → ProbeResult × σ) (w : σ × Session) : ProbeResult × σ × Session :=
  ((probe w.1).1, (probe w.1).2, w.2 ++ [.probed (probe w.1).1])

def sessionAlive (alive : σ → Bool × σ) (w : σ × Session) : Bool × σ × Session :=
  ((alive w.1).1, (alive w.1).2, w.2 ++ [.asked (alive w.1).1])

/-- The session of a gate. -/
def session (g : HealthGate) (h : Host σ) (t : Token) (probe : σ → ProbeResult × σ)
    (alive : σ → Bool × σ) (s : σ) : Session :=
  (g.wait (sessionHost h) t (sessionProbe probe) (sessionAlive alive) (s, [])).2.2

theorem sessionHost_sees (h : Host σ) : (sessionHost h).Sees h Prod.fst where
  clock _ := rfl
  date _ := rfl
  interrupts _ := rfl
  look _ := rfl
  sleep _ _ := rfl
  makeDirectories _ _ := rfl
  emptyFile _ _ := rfl
  spawn _ _ _ := rfl
  poll _ _ := rfl
  wait _ _ := rfl
  signal _ _ _ := rfl
  listen _ _ _ := rfl
  unlisten _ _ := rfl

theorem sessionHost_notes (h : Host σ) : (sessionHost h).NotesPauses Event.passed Prod.snd where
  look _ := rfl
  sleep _ _ := rfl

/-- A gate goes the same way if its session is kept. -/
theorem wait_session (g : HealthGate) (h : Host σ) (t : Token) (probe : σ → ProbeResult × σ)
    (alive : σ → Bool × σ) (s : σ) :
    g.wait (sessionHost h) t (sessionProbe probe) (sessionAlive alive) (s, []) =
      ((g.wait h t probe alive s).1, (g.wait h t probe alive s).2,
        g.session h t probe alive s) := by
  have hsees : g.wait h t probe alive s =
      (g.wait (sessionHost h) t (sessionProbe probe) (sessionAlive alive) (s, [])).map id
        Prod.fst :=
    (sessionHost_sees h).attempt (sessionProbe probe) (sessionAlive alive) (fun _ => rfl)
      (fun _ => rfl) g t _ [] (s, [])
  rw [hsees]
  rfl

/-! ## All sessions -/

/-- An attempt up to its probe: no cancellation, an engine that is alive, and the result. -/
inductive Probes (t : Token) : Session → ProbeResult → Prop
  | intro {look : Entry} {r : ProbeResult} : look.deed = .looked →
      t.isCancelled look.interrupts = false →
      Probes t [.passed look, .asked true, .probed r] r

/-- What the gate does last, with so many attempts left behind it: the results of the probes in it,
and what the gate says. -/
inductive Ends (interval : Duration) (t : Token) :
    Nat → Session → List ProbeResult → Except Halt HealthStatus → Prop
  /-- The run was cancelled before an attempt. -/
  | cancelled {left : Nat} {look : Entry} : look.deed = .looked →
      t.isCancelled look.interrupts = true →
      Ends interval t left [.passed look] [] (.ok .interrupted)
  /-- The engine was gone before an attempt. -/
  | gone {left : Nat} {look : Entry} : look.deed = .looked →
      t.isCancelled look.interrupts = false →
      Ends interval t left [.passed look, .asked false] [] (.ok .engineExited)
  | ready {left : Nat} {a : Session} : Probes t a .ready →
      Ends interval t left a [.ready] (.ok .ready)
  /-- The last attempt failed. -/
  | spent {a : Session} : Probes t a .unreachable →
      Ends interval t 0 a [.unreachable] (.ok .timedOut)
  /-- There is no deadline for the pause. -/
  | overflow {left : Nat} {a : Session} {j : Journal} : Probes t a .unreachable →
      Paused t interval j none →
      Ends interval t (left + 1) (a ++ j.map .passed) [.unreachable] (.error .clockOverflow)
  /-- The run was cancelled in the pause. -/
  | cut {left : Nat} {a : Session} {j : Journal} : Probes t a .unreachable →
      Paused t interval j (some false) →
      Ends interval t (left + 1) (a ++ j.map .passed) [.unreachable] (.ok .interrupted)

/-- A session with so many attempts behind the first one: the results of its probes, and what the
gate says. -/
inductive Course (interval : Duration) (t : Token) :
    Nat → Session → List ProbeResult → Except Halt HealthStatus → Prop
  | last {n : Nat} {a : Session} {results : List ProbeResult} {status : Except Halt HealthStatus} :
      Ends interval t n a results status → Course interval t n a results status
  /-- An attempt failed, and the whole pause behind it is over. -/
  | next {n : Nat} {a b : Session} {j : Journal} {results : List ProbeResult}
      {status : Except Halt HealthStatus} :
      Probes t a .unreachable → Paused t interval j (some true) →
      Course interval t n b results status →
      Course interval t (n + 1) (a ++ (j.map .passed ++ b)) (.unreachable :: results) status

/-- The checks of probes with these results. -/
def numbered (results : List ProbeResult) : List HealthCheck :=
  results.mapIdx fun i r => ⟨i + 1, r⟩

theorem length_numbered (results : List ProbeResult) :
    (numbered results).length = results.length :=
  List.length_mapIdx

theorem map_result_numbered (results : List ProbeResult) :
    (numbered results).map (·.result) = results := by
  apply List.ext_getElem
  · simp [numbered]
  · intro i _ _
    simp [numbered]

theorem map_attempt_numbered (results : List ProbeResult) :
    (numbered results).map (·.attempt) = List.range' 1 results.length := by
  apply List.ext_getElem
  · simp [numbered]
  · intro i _ _
    simp [numbered, Nat.add_comm]

theorem numbered_concat (results : List ProbeResult) (r : ProbeResult) :
    numbered (results ++ [r]) =
      numbered results ++ [⟨(numbered results).length + 1, r⟩] := by
  simp [numbered, List.mapIdx_append]

/-- One attempt beside a session, and what is left then. -/
theorem attempt_succ_session (g : HealthGate) (h : Host σ) (t : Token)
    (probe : σ → ProbeResult × σ) (alive : σ → Bool × σ) (n : Nat) (checks : List HealthCheck)
    (s : σ) (b : Session) :
    g.attempt (sessionHost h) t (sessionProbe probe) (sessionAlive alive) (n + 1) checks (s, b) =
      let look := h.entry .looked (h.look s)
      if t.isCancelled look.interrupts then
        (.ok ⟨.interrupted, checks⟩, h.look s, b ++ [.passed look])
      else
        match alive (h.look s) with
        | (false, s) => (.ok ⟨.engineExited, checks⟩, s, b ++ [.passed look, .asked false])
        | (true, s) =>
          match probe s with
          | (.ready, s) =>
            (.ok ⟨.ready, checks ++ [⟨checks.length + 1, .ready⟩]⟩, s,
              b ++ [.passed look, .asked true, .probed .ready])
          | (.unreachable, s) =>
            let checks := checks ++ [⟨checks.length + 1, .unreachable⟩]
            let b := b ++ [.passed look, .asked true, .probed .unreachable]
            if n = 0 then (.ok ⟨.timedOut, checks⟩, s, b)
            else
              match t.sleep (sessionHost h) g.interval (s, b) with
              | (none, w) => (.error .clockOverflow, w)
              | (some false, w) => (.ok ⟨.interrupted, checks⟩, w)
              | (some true, w) =>
                g.attempt (sessionHost h) t (sessionProbe probe) (sessionAlive alive) n checks
                  w := by
  have hlook : (sessionHost h).look (s, b) =
      (h.look s, b ++ [.passed (h.entry .looked (h.look s))]) := rfl
  have hinterrupts (w : σ × Session) : (sessionHost h).interrupts w = h.interrupts w.1 := rfl
  simp only [HealthGate.attempt, hlook, hinterrupts, Host.entry]
  by_cases hc : t.isCancelled (h.interrupts (h.look s))
  · simp [hc]
  simp only [hc, sessionAlive]
  rcases alive (h.look s) with ⟨_ | _, s₁⟩
  · simp
  simp only [sessionProbe]
  rcases probe s₁ with ⟨_ | _, s₂⟩
  · simp
  by_cases hn : n = 0
  · simp [hn]
  simp only [hn, List.append_assoc, List.cons_append, List.nil_append, if_false]
  generalize t.sleep (sessionHost h) g.interval (s₂, _) = slept
  rcases slept with ⟨_ | _ | _, w⟩ <;> rfl

/-- What the gate does with the attempts that are left is a course. -/
theorem attempt_course (g : HealthGate) (h : Host σ) (t : Token) (probe : σ → ProbeResult × σ)
    (alive : σ → Bool × σ) (n : Nat) (done : List ProbeResult) (s : σ) (b : Session) :
    ∃ c results status, Course g.interval t n c results status ∧
      (g.attempt (sessionHost h) t (sessionProbe probe) (sessionAlive alive) (n + 1)
        (numbered done) (s, b)).1 = status.map (⟨·, numbered (done ++ results)⟩) ∧
      (g.attempt (sessionHost h) t (sessionProbe probe) (sessionAlive alive) (n + 1)
        (numbered done) (s, b)).2.2 = b ++ c := by
  -- Strong, so that the first and the later attempts share what they begin with.
  induction n using Nat.strongRecOn generalizing done s b with
  | ind n ih =>
    rw [attempt_succ_session]
    by_cases hc : t.isCancelled (h.entry .looked (h.look s)).interrupts
    · simp only [hc, if_true]
      exact ⟨_, [], _, .last (.cancelled rfl hc), by simp [Except.map], rfl⟩
    have hnot : t.isCancelled (h.entry .looked (h.look s)).interrupts = false :=
      Bool.eq_false_iff.mpr hc
    simp only [hc]
    rcases alive (h.look s) with ⟨_ | _, s₁⟩
    · exact ⟨_, [], _, .last (.gone rfl hnot), by simp [Except.map], rfl⟩
    rcases hr : probe s₁ with ⟨_ | _, s₂⟩
    · simp only [hr]
      exact ⟨_, [.ready], _, .last (.ready (.intro rfl hnot)),
        by simp [Except.map, numbered_concat], rfl⟩
    have hprobes : Probes t [.passed (h.entry .looked (h.look s)), .asked true,
        .probed .unreachable] .unreachable := .intro rfl hnot
    simp only [hr, ← numbered_concat]
    -- From here on an attempt is no more than `Probes` says.
    generalize [Event.passed (h.entry .looked (h.look s)), .asked true, .probed .unreachable] = a
      at hprobes
    cases n with
    | zero => exact ⟨a, [.unreachable], _, .last (.spent hprobes), by simp [Except.map], rfl⟩
    | succ n =>
      obtain ⟨j, hadd, hpause⟩ :=
        (sessionHost_notes h).sleep_token t g.interval (s₂, b ++ a)
      rcases hs : t.sleep (sessionHost h) g.interval (s₂, b ++ a) with ⟨_ | _ | _, s₃, b'⟩
      · rw [hs] at hadd hpause
        refine ⟨_, [.unreachable], _, .last (.overflow hprobes hpause), ?_, ?_⟩
        · simp [Except.map]
        · simpa [hs] using hadd
      · rw [hs] at hadd hpause
        refine ⟨_, [.unreachable], _, .last (.cut hprobes hpause), ?_, ?_⟩
        · simp [Except.map]
        · simpa [hs] using hadd
      · rw [hs] at hadd hpause
        obtain ⟨c, results, status, hcourse, hresult, hsession⟩ :=
          ih n (Nat.lt_succ_self n) (done ++ [.unreachable]) s₃ b'
        refine ⟨_, .unreachable :: results, status, .next hprobes hpause hcourse, ?_, ?_⟩
        · simpa [hs] using hresult
        · simpa [hs, show b' = _ from hadd] using hsession

/-! ## What a session tells -/

/-- The last thing that the gate does is to see a cancellation. -/
def Session.SeesCancellation (t : Token) (session : Session) : Prop :=
  ∃ look, session.getLast? = some (.passed look) ∧ look.deed = .looked ∧
    t.isCancelled look.interrupts = true

/-- The last things that the gate does are to see no cancellation and an engine that is alive. -/
def Session.SeesAlive (t : Token) (session : Session) : Prop :=
  ∃ before look, session = before ++ [.passed look, .asked true] ∧ look.deed = .looked ∧
    t.isCancelled look.interrupts = false

theorem Session.SeesAlive.append {t : Token} {b : Session} (hb : b.SeesAlive t) (a : Session) :
    Session.SeesAlive t (a ++ b) := by
  obtain ⟨before, look, rfl, hlook, hnot⟩ := hb
  exact ⟨a ++ before, look, by simp, hlook, hnot⟩

section Course

variable {interval : Duration} {t : Token} {n : Nat} {a b : Session} {r : ProbeResult}
  {results : List ProbeResult} {status : Except Halt HealthStatus}

theorem Probes.probes_eq (hp : Probes t a r) : a.probes = [r] := by
  cases hp with
  | intro _ _ => rfl

theorem Probes.pauses_append_le (hp : Probes t a r) (c : Session) :
    Session.pauses (a ++ c) ≤ Session.pauses c + 1 := by
  cases hp with
  | intro _ _ =>
    cases c with
    | nil => exact Nat.zero_le _
    | cons e rest => exact Nat.le_refl _

theorem Probes.pauses_eq (hp : Probes t a r) : a.pauses = 0 := by
  cases hp with
  | intro _ _ => rfl

/-- There is one probe in an attempt, behind its look and its question. -/
theorem Probes.append_eq (hp : Probes t a r) {j : Journal} {before behind : Session}
    {result : ProbeResult} (ha : a ++ j.map .passed = before ++ .probed result :: behind) :
    before.SeesAlive t ∧ behind = j.map .passed := by
  cases hp with
  | @intro look _ hlook hnot =>
    have hpassed : Event.probed result ∉ j.map Event.passed := by simp
    match before with
    | [] => simp at ha
    | [_] => simp at ha
    | [x, y] =>
      simp only [List.cons_append, List.nil_append, List.cons.injEq] at ha
      obtain ⟨rfl, rfl, -, hbehind⟩ := ha
      exact ⟨⟨[], look, rfl, hlook, hnot⟩, hbehind.symm⟩
    | _ :: _ :: _ :: rest =>
      simp only [List.cons_append, List.nil_append, List.cons.injEq] at ha
      refine absurd ?_ hpassed
      rw [ha.2.2.2]
      simp

theorem Course.probes_eq (hc : Course interval t n b results status) : b.probes = results := by
  induction hc with
  | last he =>
    cases he with
    | cancelled _ _ => rfl
    | gone _ _ => rfl
    | ready hp => exact hp.probes_eq
    | spent hp => exact hp.probes_eq
    | overflow hp _ => simp [hp.probes_eq]
    | cut hp _ => simp [hp.probes_eq]
  | next hp _ _ ih => simp [hp.probes_eq, ih]

theorem Course.length_le (hc : Course interval t n b results status) :
    results.length ≤ n + 1 := by
  induction hc with
  | last he => cases he <;> simp
  | next _ _ _ ih =>
    rw [List.length_cons]
    omega

theorem Course.pauses_le (hc : Course interval t n b results status) : b.pauses ≤ n := by
  have hpause {a : Session} {j : Journal} {r : ProbeResult} (hp : Probes t a r) :
      Session.pauses (a ++ j.map .passed) ≤ 1 := by
    have hle := hp.pauses_append_le (j.map .passed)
    have hnone := Session.pauses_passed_append j []
    rw [List.append_nil] at hnone
    rw [hnone] at hle
    exact hle
  induction hc with
  | last he =>
    cases he with
    | cancelled _ _ => exact Nat.zero_le _
    | gone _ _ => exact Nat.zero_le _
    | ready hp =>
      rw [hp.pauses_eq]
      exact Nat.zero_le _
    | spent hp => exact Nat.le_of_eq hp.pauses_eq
    | overflow hp _ => exact Nat.le_trans (hpause hp) (Nat.le_add_left _ _)
    | cut hp _ => exact Nat.le_trans (hpause hp) (Nat.le_add_left _ _)
  | @next _ a b j _ _ hp _ _ ih =>
    have hle := hp.pauses_append_le (j.map .passed ++ b)
    rw [Session.pauses_passed_append] at hle
    omega

/-- What stands around a probe: in front of it a check for a cancellation that finds none and an
engine that is alive, and behind it nothing or a pause. -/
theorem Course.around (hc : Course interval t n b results status) {before behind : Session}
    {result : ProbeResult} (hb : b = before ++ .probed result :: behind) :
    before.SeesAlive t ∧
      (behind = [] ∨ ∃ j whole rest, Paused t interval j whole ∧ behind = j.map .passed ++ rest ∧
        (whole = none → status = .error .clockOverflow)) := by
  induction hc generalizing before with
  | last he =>
    cases he with
    | cancelled _ _ => simp [List.singleton_eq_append_iff] at hb
    | gone _ _ =>
      match before with
      | [] => simp at hb
      | [_] => simp at hb
      | _ :: _ :: _ => simp at hb
    | ready hp =>
      obtain ⟨hbefore, hbehind⟩ := hp.append_eq (j := []) (by simpa using hb)
      exact ⟨hbefore, .inl hbehind⟩
    | spent hp =>
      obtain ⟨hbefore, hbehind⟩ := hp.append_eq (j := []) (by simpa using hb)
      exact ⟨hbefore, .inl hbehind⟩
    | overflow hp hpause =>
      obtain ⟨hbefore, hbehind⟩ := hp.append_eq hb
      exact ⟨hbefore, .inr ⟨_, _, [], hpause, by simp [hbehind], fun _ => rfl⟩⟩
    | cut hp hpause =>
      obtain ⟨hbefore, hbehind⟩ := hp.append_eq hb
      exact ⟨hbefore, .inr ⟨_, _, [], hpause, by simp [hbehind], nofun⟩⟩
  | @next _ a b j _ _ hp hpause _ ih =>
    rcases Session.probed_or_of_append hb with ⟨rest, ha, hbehind⟩ | ⟨front, rfl, hfront⟩
    · obtain ⟨hbefore, hrest⟩ := hp.append_eq (j := []) (by simpa using ha)
      refine ⟨hbefore, .inr ⟨j, _, b, hpause, ?_, nofun⟩⟩
      simpa [hrest] using hbehind
    · rcases Session.probed_or_of_append hfront with ⟨rest, hj, -⟩ | ⟨front', rfl, hb'⟩
      · have hmem : Event.probed result ∈ j.map Event.passed := by
          rw [hj]
          simp
        simp at hmem
      · obtain ⟨hbefore, hbehind⟩ := ih hb'
        exact ⟨(hbefore.append _).append a, hbehind⟩

/-- A session is some failed attempts and what the gate does last. -/
theorem Course.ends (hc : Course interval t n b results status) :
    ∃ before a left failed last, b = before ++ a ∧ Ends interval t left a last status ∧
      results = failed ++ last ∧ (∀ r ∈ failed, r = .unreachable) ∧ failed.length + left = n := by
  induction hc with
  | last he => exact ⟨[], _, _, [], _, rfl, he, rfl, by simp, by simp⟩
  | @next _ a _ j _ _ hp hpause _ ih =>
    obtain ⟨before, a', left, failed, last, rfl, he, rfl, hfailed, hlength⟩ := ih
    refine ⟨a ++ (j.map .passed ++ before), a', left, .unreachable :: failed, last, by simp, he,
      rfl, by simpa using hfailed, ?_⟩
    rw [List.length_cons]
    omega

/-- An attempt ends with its probe, and its engine is alive. -/
theorem Probes.getLast?_eq (hp : Probes t a r) : a.getLast? = some (.probed r) := by
  cases hp with
  | intro _ _ => rfl

theorem Probes.alive (hp : Probes t a r) : Event.asked false ∉ a := by
  cases hp with
  | intro _ _ => simp

/-- The last event of a session decides what the gate says, and the other way round. -/
theorem Course.getLast?_eq (hc : Course interval t n b results status) :
    match status with
    | .ok .ready => b.getLast? = some (.probed .ready)
    | .ok .timedOut => b.getLast? = some (.probed .unreachable)
    | .ok .engineExited => b.getLast? = some (.asked false)
    | .ok .interrupted => b.SeesCancellation t
    | .error _ => ∃ before look, b = before ++ [.probed .unreachable, .passed look] ∧
        look.TooLate interval := by
  obtain ⟨before, a, left, failed, last, rfl, he, -⟩ := hc.ends
  cases he with
  | cancelled hlook hcan => exact ⟨_, by simp, hlook, hcan⟩
  | gone _ _ => simp
  | ready hp => simp [List.getLast?_append, hp.getLast?_eq]
  | spent hp => simp [List.getLast?_append, hp.getLast?_eq]
  | overflow hp hpause =>
    cases hpause with
    | @overflow look _ hlate =>
      cases hp with
      | @intro look' _ _ _ =>
        exact ⟨before ++ [.passed look', .asked true], look, by simp, hlate⟩
  | cut _ hpause =>
    cases hpause with
    | @cut start look j _ _ hlook hcan =>
      exact ⟨look, by simp [List.getLast?_append, List.getLast?_cons], hlook, hcan⟩

/-- The gate does nothing more when it was told that the engine is gone. -/
theorem Course.engineExited_of_mem (hc : Course interval t n b results status)
    (hb : .asked false ∈ b) : status = .ok .engineExited := by
  induction hc with
  | last he =>
    cases he with
    | cancelled _ _ => simp at hb
    | gone _ _ => rfl
    | ready hp => exact absurd hb hp.alive
    | spent hp => exact absurd hb hp.alive
    | overflow hp _ => exact absurd (by simpa using hb) hp.alive
    | cut hp _ => exact absurd (by simpa using hb) hp.alive
  | next hp _ _ ih =>
    rcases List.mem_append.mp hb with ha | hrest
    · exact absurd ha hp.alive
    · exact ih (by simpa using hrest)

/-- Only the last probe may succeed. -/
theorem Course.earlier (hc : Course interval t n b results status) :
    ∀ r ∈ results.dropLast, r = .unreachable := by
  obtain ⟨_, _, _, failed, last, -, he, rfl, hfailed, -⟩ := hc.ends
  intro r hr
  apply hfailed
  cases he with
  | cancelled _ _ => exact List.dropLast_subset _ (by simpa using hr)
  | gone _ _ => exact List.dropLast_subset _ (by simpa using hr)
  | _ => simpa using hr

/-- The gate says ready if the last probe succeeded. -/
theorem Course.ready_iff (hc : Course interval t n b results status) :
    status = .ok .ready ↔ results.getLast? = some .ready := by
  obtain ⟨_, _, _, failed, last, -, he, rfl, hfailed, -⟩ := hc.ends
  have hnot : failed.getLast? ≠ some .ready := by
    intro hready
    have hr := hfailed _ (List.mem_of_getLast? hready)
    cases hr
  cases he with
  | cancelled _ _ => simpa using hnot
  | gone _ _ => simpa using hnot
  | ready _ => simp
  | _ => simp

/-- The last event of a gate whose attempts are all made is the last probe. -/
theorem Course.getLast?_of_length (hc : Course interval t n b results status)
    (hlength : results.length = n + 1) : ∃ r, b.getLast? = some (.probed r) := by
  obtain ⟨before, a, left, failed, last, rfl, he, rfl, -, hleft⟩ := hc.ends
  rw [List.length_append] at hlength
  cases he with
  | ready hp => exact ⟨.ready, by simp [List.getLast?_append, hp.getLast?_eq]⟩
  | spent hp => exact ⟨.unreachable, by simp [List.getLast?_append, hp.getLast?_eq]⟩
  | _ =>
    -- Here at least one attempt is left.
    simp only [List.length_nil, List.length_singleton] at hlength
    omega

/-- The gate says that the time is over if all attempts were made and failed. -/
theorem Course.timedOut_iff (hc : Course interval t n b results status) :
    status = .ok .timedOut ↔ results.length = n + 1 ∧ ∀ r ∈ results, r = .unreachable := by
  constructor
  · intro hstatus
    obtain ⟨_, _, left, failed, last, -, he, rfl, hfailed, hlength⟩ := hc.ends
    subst hstatus
    cases he with
    | spent _ => exact ⟨by simpa using hlength, by simpa [or_imp, forall_and] using hfailed⟩
  · rintro ⟨hlength, hall⟩
    obtain ⟨r, hlast⟩ := hc.getLast?_of_length hlength
    have hend := hc.getLast?_eq
    have hready := hc.ready_iff
    rcases status with halt | (_ | _ | _ | _)
    · obtain ⟨before, look, rfl, -⟩ := hend
      simp at hlast
    · have hr := hall _ (List.mem_of_getLast? (hready.mp rfl))
      cases hr
    · rfl
    · rw [hlast] at hend
      cases hend
    · obtain ⟨look, hlook, -⟩ := hend
      rw [hlast] at hlook
      cases hlook

/-- What the gate says is decided by the last event of its session. -/
theorem Course.engineExited_iff {v : HealthStatus} (hc : Course interval t n b results (.ok v)) :
    v = .engineExited ↔ b.getLast? = some (.asked false) := by
  constructor
  · rintro rfl
    exact hc.getLast?_eq
  · intro hlast
    have hmem := hc.engineExited_of_mem (List.mem_of_getLast? hlast)
    cases hmem
    rfl

theorem Course.interrupted_iff {v : HealthStatus} (hc : Course interval t n b results (.ok v)) :
    v = .interrupted ↔ b.SeesCancellation t := by
  constructor
  · rintro rfl
    exact hc.getLast?_eq
  · rintro ⟨look, hlook, -⟩
    have hlast := hc.getLast?_eq
    cases v with
    | interrupted => rfl
    | _ =>
      rw [hlook] at hlast
      cases hlast

/-- There is no report exactly if the clock could not show the end of a pause. -/
theorem Course.halted_iff (hc : Course interval t n b results status) :
    (∃ halt, status = .error halt) ↔
      ∃ before r look, b = before ++ [.probed r, .passed look] ∧ look.TooLate interval := by
  constructor
  · rintro ⟨halt, rfl⟩
    obtain ⟨before, look, hb, hlate⟩ := hc.getLast?_eq
    exact ⟨before, _, look, hb, hlate⟩
  · rintro ⟨before, r, look, hb, hlate⟩
    obtain ⟨-, hnil | ⟨j, whole, rest, hpause, hbehind, hnone⟩⟩ := hc.around hb
    · cases hnil
    · -- A pause of one event is one without an end.
      cases hpause with
      | overflow _ _ => exact ⟨_, hnone rfl⟩
      | cut _ _ _ _ => simp at hbehind
      | whole _ _ _ _ _ _ => simp at hbehind

end Course

/-! ## What a session and its report have to do with each other -/

/-- The answers that a session has got from its probe are those of a probe that succeeds for the
first time when it is called so often. -/
def Session.SucceedsFirstAt (k : Nat) (session : Session) : Prop :=
  ∀ i r, session.probes[i]? = some r → (i + 1 < k → r = .unreachable) ∧ (i + 1 = k → r = .ready)

/-- A report tells what happened in a session with so many attempts. -/
structure Told (budget : Nat) (t : Token) (session : Session) (report : HealthReport) : Prop where
  attempts_eq : report.attempts = session.probes.length
  /-- The checks are numbered from one on, without gaps. -/
  numbers_eq : report.checks.map (·.attempt) = List.range' 1 report.attempts
  results_eq : report.checks.map (·.result) = session.probes
  earlier : ∀ check ∈ report.checks.dropLast, check.result = .unreachable
  ready_iff : report.status = .ready ↔
    ∃ check, report.checks.getLast? = some check ∧ check.result = .ready
  timedOut_iff : report.status = .timedOut ↔
    report.checks.length = budget ∧ (∀ check ∈ report.checks, check.result = .unreachable) ∧
      ¬ session.SeesCancellation t ∧ .asked false ∉ session
  /-- The last thing that the gate did was to ask for the engine. -/
  engineExited_iff : report.status = .engineExited ↔ session.getLast? = some (.asked false)
  interrupted_iff : report.status = .interrupted ↔ session.SeesCancellation t

/-- A session with so many attempts is the one that the gate promises, and so is what it ends
with. -/
structure Exact (interval : Duration) (budget : Nat) (t : Token) (session : Session)
    (r : Except Halt HealthReport) : Prop where
  probes_le : session.probes.length ≤ budget
  pauses_lt : session.pauses < budget
  /-- Behind the last attempt there is no pause, nor anything else. -/
  unpaused : session.probes.length = budget → ∃ result, session.getLast? = some (.probed result)
  /-- Right in front of each probe the engine was alive, and before that there was no
  cancellation. -/
  alive : ∀ before result behind, session = before ++ .probed result :: behind →
    Session.SeesAlive t before
  /-- If the gate goes on behind a probe, it pauses for the interval, or until it is cancelled. -/
  paused : ∀ before result behind, session = before ++ .probed result :: behind → behind ≠ [] →
    ∃ j whole rest, Paused t interval j whole ∧ behind = j.map .passed ++ rest
  told : ∀ report, r = .ok report → Told budget t session report
  /-- The only thing that keeps the gate from its report is a pause whose end the clock cannot
  show. -/
  halted_iff : (∃ halt, r = .error halt) ↔
    ∃ before result look, session = before ++ [.probed result, .passed look] ∧
      look.TooLate interval
  /-- A probe that succeeds in time, with an engine that is alive and without a cancellation, is
  called until it succeeds. -/
  first : ∀ k, 1 ≤ k → k ≤ budget → session.SucceedsFirstAt k → .asked false ∉ session →
    ¬ session.SeesCancellation t → (∀ look, .passed look ∈ session → ¬ look.TooLate interval) →
    ∃ report, r = .ok report ∧ report.status = .ready ∧ session.probes.length = k

namespace Told

variable {budget : Nat} {t : Token} {session : Session} {report : HealthReport}

theorem probe_earlier (ht : Told budget t session report) {i : Nat} {r : ProbeResult}
    (hr : session.probes[i]? = some r) (hi : i + 1 < session.probes.length) :
    r = .unreachable := by
  have hmem : r ∈ session.probes.dropLast := by
    apply List.mem_of_getElem?
    rw [List.getElem?_dropLast, if_pos (Nat.lt_sub_of_add_lt hi)]
    exact hr
  rw [← ht.results_eq, ← List.map_dropLast] at hmem
  obtain ⟨check, hcheck, rfl⟩ := List.mem_map.mp hmem
  exact ht.earlier check hcheck

/-- Without a cancellation and with an engine that is alive the gate stops at the first success. -/
theorem first {k : Nat} (ht : Told budget t session report) (hk : 1 ≤ k) (hle : k ≤ budget)
    (hfirst : session.SucceedsFirstAt k) (halive : .asked false ∉ session)
    (hnot : ¬ session.SeesCancellation t) :
    report.status = .ready ∧ session.probes.length = k := by
  have hsucceeds (hlt : k ≤ session.probes.length) : session.probes[k - 1]? = some .ready := by
    have hr := List.getElem?_eq_getElem (l := session.probes) (i := k - 1) (by omega)
    rw [hr, (hfirst _ _ hr).2 (by omega)]
  cases hstatus : report.status with
  | engineExited =>
    exact absurd (List.mem_of_getLast? (ht.engineExited_iff.mp hstatus)) halive
  | interrupted => exact absurd (ht.interrupted_iff.mp hstatus) hnot
  | timedOut =>
    -- Then the success at `k` was taken for a failure.
    obtain ⟨hlength, hall, -⟩ := ht.timedOut_iff.mp hstatus
    have hlt : k ≤ session.probes.length := by
      rw [← ht.attempts_eq, HealthReport.attempts, hlength]
      exact hle
    have hmem := List.mem_of_getElem? (hsucceeds hlt)
    rw [← ht.results_eq] at hmem
    obtain ⟨check, hcheck, hready⟩ := List.mem_map.mp hmem
    rw [hall check hcheck] at hready
    cases hready
  | ready =>
    refine ⟨rfl, ?_⟩
    obtain ⟨check, hlast, hready⟩ := ht.ready_iff.mp hstatus
    have hend : session.probes.getLast? = some .ready := by
      rw [← ht.results_eq, List.getLast?_map, hlast, ← hready]
      rfl
    rw [List.getLast?_eq_getElem?] at hend
    have hsome := (List.getElem?_eq_some_iff.mp hend).1
    -- A success before `k` is none, and one behind it is not reached.
    rcases Nat.lt_trichotomy session.probes.length k with hlt | heq | hgt
    · have hr := (hfirst _ _ hend).1 (by omega)
      cases hr
    · exact heq
    · have hr := ht.probe_earlier (hsucceeds (by omega)) (by omega)
      cases hr

end Told

/-- What a course tells of the session that it is the course of. -/
theorem Course.told {interval : Duration} {t : Token} {n : Nat} {b : Session}
    {results : List ProbeResult} {v : HealthStatus} (hc : Course interval t n b results (.ok v)) :
    Told (n + 1) t b ⟨v, numbered results⟩ where
  attempts_eq := by
    rw [hc.probes_eq]
    exact length_numbered results
  numbers_eq := by rw [map_attempt_numbered, HealthReport.attempts, length_numbered]
  results_eq := by rw [hc.probes_eq, map_result_numbered]
  earlier := by
    intro check hcheck
    apply hc.earlier
    have hmem := List.mem_map_of_mem (f := (·.result)) hcheck
    rw [List.map_dropLast, map_result_numbered] at hmem
    exact hmem
  ready_iff := by
    have hlast : results.getLast? = (numbered results).getLast?.map (·.result) := by
      rw [← List.getLast?_map, map_result_numbered]
    have hready : v = .ready ↔ results.getLast? = some .ready := by
      rw [← hc.ready_iff]
      exact (Except.ok.injEq v .ready).symm ▸ Iff.rfl
    rw [hready, hlast]
    exact Option.map_eq_some_iff
  timedOut_iff := by
    have hall : (∀ check ∈ numbered results, check.result = .unreachable) ↔
        ∀ r ∈ results, r = .unreachable := by
      have hmap := List.forall_mem_map (f := HealthCheck.result) (l := numbered results)
        (P := fun r => r = .unreachable)
      rw [map_result_numbered] at hmap
      exact hmap.symm
    rw [hall, length_numbered]
    constructor
    · rintro rfl
      obtain ⟨hlength, hfailed⟩ := hc.timedOut_iff.mp rfl
      refine ⟨hlength, hfailed, ?_, ?_⟩
      · intro hcan
        cases hc.interrupted_iff.mpr hcan
      · intro hmem
        cases hc.engineExited_of_mem hmem
    · rintro ⟨hlength, hfailed, -⟩
      exact Except.ok.inj (hc.timedOut_iff.mpr ⟨hlength, hfailed⟩)
  engineExited_iff := hc.engineExited_iff
  interrupted_iff := hc.interrupted_iff

theorem make_maxAttempts (interval : Duration) (requested : UInt32) :
    (make interval requested).maxAttempts.toNat = max 1 requested.toNat := by
  unfold make
  split
  case isTrue hpos =>
    have hle : 1 ≤ requested.toNat := hpos
    exact (Nat.max_eq_right hle).symm
  case isFalse hpos =>
    have hzero : requested.toNat < 1 := Nat.lt_of_not_le hpos
    exact (Nat.max_eq_left (Nat.le_of_lt hzero)).symm

theorem make_interval (interval : Duration) (requested : UInt32) :
    (make interval requested).interval = interval := by
  unfold make
  split <;> rfl

/-- The session of a gate is a course, and its report is the one of the course. -/
theorem wait_course (g : HealthGate) (h : Host σ) (t : Token) (probe : σ → ProbeResult × σ)
    (alive : σ → Bool × σ) (s : σ) {n : Nat} (hn : g.maxAttempts.toNat = n + 1) :
    ∃ results status, Course g.interval t n (g.session h t probe alive s) results status ∧
      (g.wait h t probe alive s).1 = status.map (⟨·, numbered results⟩) := by
  obtain ⟨c, results, status, hc, hresult, hsession⟩ := g.attempt_course h t probe alive n [] s []
  have hwait := g.wait_session h t probe alive s
  have hdef : g.wait (sessionHost h) t (sessionProbe probe) (sessionAlive alive) (s, []) =
      g.attempt (sessionHost h) t (sessionProbe probe) (sessionAlive alive) (n + 1)
        (numbered []) (s, []) := by
    rw [wait, hn]
    rfl
  rw [← hdef, hwait] at hresult hsession
  obtain rfl : g.session h t probe alive s = c := by simpa using hsession
  exact ⟨results, status, hc, hresult⟩

/-- The gate goes on until a probe succeeds, the engine is gone, the run is cancelled or the
attempts are used up, and does nothing beside that; and its report says what happened. -/
theorem wait_exact (h : Host σ) (interval : Duration) (requested : UInt32) (t : Token)
    (probe : σ → ProbeResult × σ) (alive : σ → Bool × σ) (s : σ) :
    Exact interval (max 1 requested.toNat) t
      ((make interval requested).session h t probe alive s)
      ((make interval requested).wait h t probe alive s).1 := by
  obtain ⟨n, hn⟩ : ∃ n, max 1 requested.toNat = n + 1 :=
    ⟨max 1 requested.toNat - 1, by omega⟩
  obtain ⟨results, status, hc, hr⟩ := wait_course (make interval requested) h t probe alive s
    ((make_maxAttempts interval requested).trans hn)
  rw [make_interval] at hc
  rw [hr, hn]
  have htold (report : HealthReport)
      (hreport : status.map (⟨·, numbered results⟩) = .ok report) :
      Told (n + 1) t ((make interval requested).session h t probe alive s) report := by
    cases status with
    | error halt => cases hreport
    | ok v =>
      cases hreport
      exact hc.told
  have hhalted : (∃ halt, status.map (⟨·, numbered results⟩) =
      (.error halt : Except Halt HealthReport)) ↔ ∃ halt, status = .error halt := by
    cases status <;> simp [Except.map]
  refine
    { probes_le := by rw [hc.probes_eq]; exact hc.length_le
      pauses_lt := Nat.lt_succ_of_le hc.pauses_le
      unpaused := ?_
      alive := fun _ _ _ hsplit => (hc.around hsplit).1
      paused := ?_
      told := htold
      halted_iff := hhalted.trans hc.halted_iff
      first := ?_ }
  · intro hlength
    rw [hc.probes_eq] at hlength
    exact hc.getLast?_of_length hlength
  · intro before result behind hsplit hne
    obtain ⟨-, hnil | ⟨j, whole, rest, hpause, hbehind, -⟩⟩ := hc.around hsplit
    · exact absurd hnil hne
    · exact ⟨j, whole, rest, hpause, hbehind⟩
  · intro k hk hle hfirst halive hnot htime
    cases hstatus : status with
    | error halt =>
      obtain ⟨before, result, look, hb, hlate⟩ := hc.halted_iff.mp ⟨halt, hstatus⟩
      refine absurd hlate (htime look ?_)
      rw [hb]
      simp
    | ok v =>
      have ht := htold ⟨v, numbered results⟩ (by rw [hstatus]; rfl)
      exact ⟨_, rfl, ht.first hk hle hfirst halive hnot⟩

end HealthGate

end EngineBench
