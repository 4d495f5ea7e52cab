import Mathlib.Data.List.Induction
import EngineBench.Proofs.Interruption
import EngineBench.Proofs.RunSummary

/-!
# The signal that a run reports

The handler of a signal stores the number of the signal and then marks that one was delivered. A run
is cancelled by the first mark, but it reads the number only after its engine was stopped. So it
reports the last signal that has arrived by then.

* `Handled` lists the steps that handlers can have made, in any interleaving; `Host.Handles` says
  that nothing else cancels the runs of a host.
* `Host.Shown` is what a journal tells of the state behind it; `Plan.run_shown` says that the journal
  of a run does.
* `Plan.run_interruptedBy`: an interrupted run reports a signal, which is the first one exactly if the
  last one is.
-/

namespace EngineBench

/-! ## Steps of handlers -/

/-- A step of the handler of a signal. -/
inductive HandlerStep where
  /-- The number of the signal is stored. -/
  | enter (g : Signal)
  /-- It is marked that a signal was delivered. -/
  | mark
  deriving DecidableEq

namespace HandlerStep

def entered? : HandlerStep → Option Signal
  | enter g => some g
  | mark => none

/-- The signals that were delivered, in their order. -/
def entered (l : List HandlerStep) : List Signal := l.filterMap entered?

theorem entered_append (l l' : List HandlerStep) : entered (l ++ l') = entered l ++ entered l' :=
  List.filterMap_append

end HandlerStep

namespace Interrupts

open HandlerStep (entered entered_append)

def after (i : Interrupts) : HandlerStep → Interrupts
  | .enter g => i.enter g
  | .mark => i.mark

/-- What has been asked of a process by signals alone. -/
def ofSteps (l : List HandlerStep) : Interrupts := l.foldl after none

theorem ofSteps_concat (l : List HandlerStep) (x : HandlerStep) :
    ofSteps (l ++ [x]) = (ofSteps l).after x := List.foldl_append

theorem raised_ofSteps (l : List HandlerStep) : (ofSteps l).raised = [] := by
  induction l using List.reverseRecOn with
  | nil => rfl
  | append_singleton l x ih =>
    rw [ofSteps_concat, ← ih]
    cases x <;> rfl

theorem delivered_ofSteps_iff (l : List HandlerStep) :
    (ofSteps l).delivered = true ↔ .mark ∈ l := by
  induction l using List.reverseRecOn with
  | nil => exact iff_of_false nofun nofun
  | append_singleton l x ih =>
    rw [ofSteps_concat, List.mem_append, List.mem_singleton, ← ih]
    cases x with
    | enter g => exact (or_iff_left nofun).symm
    | mark => exact iff_of_true rfl (.inr rfl)

/-- The number that is stored is that of the last signal. -/
theorem last_ofSteps (l : List HandlerStep) : (ofSteps l).last = (entered l).getLast? := by
  induction l using List.reverseRecOn with
  | nil => rfl
  | append_singleton l x ih =>
    rw [ofSteps_concat, entered_append]
    cases x with
    | enter g => exact List.getLast?_concat.symm
    | mark => exact ih.trans (congrArg _ (List.append_nil _).symm)

end Interrupts

/-- Without a request from within, a run that watches signals is cancelled by the first mark. -/
theorem Token.isCancelled_ofSteps {t : Token} (ht : t.watchesSignals = true)
    (l : List HandlerStep) : t.isCancelled (.ofSteps l) = true ↔ .mark ∈ l := by
  rw [isCancelled, Interrupts.raised_ofSteps, ht, ← Interrupts.delivered_ofSteps_iff]
  rfl

/-- The steps that handlers have made, while `n` of them are between their two steps. -/
inductive Handled : Nat → List HandlerStep → Prop
  | none : Handled 0 []
  | enter {n : Nat} {l : List HandlerStep} {g : Signal} : g ∈ Signal.requests → Handled n l →
      Handled (n + 1) (l ++ [.enter g])
  | mark {n : Nat} {l : List HandlerStep} : Handled (n + 1) l → Handled n (l ++ [.mark])

/-- Each handler that marks has stored a number before. -/
theorem Handled.length_entered {n : Nat} {l : List HandlerStep} (hl : Handled n l) :
    (HandlerStep.entered l).length = n + l.count .mark := by
  induction hl with
  | none => rfl
  | @enter n l g _ _ ih =>
    have hentered : HandlerStep.entered [.enter g] = [g] := rfl
    rw [HandlerStep.entered_append, List.length_append, ih, List.count_append, hentered,
      List.count_singleton, List.length_singleton]
    simp only [reduceCtorEq, beq_iff_eq, if_false]
    omega
  | @mark n l _ ih =>
    have hentered : HandlerStep.entered [.mark] = [] := rfl
    rw [HandlerStep.entered_append, List.length_append, ih, List.count_append, hentered,
      List.count_singleton_self, List.length_nil]
    omega

theorem Handled.entered_ne_nil {n : Nat} {l : List HandlerStep} (hl : Handled n l)
    (hmark : .mark ∈ l) : HandlerStep.entered l ≠ [] := by
  have hcount := List.count_pos_iff.mpr hmark
  have hlength := hl.length_entered
  exact List.ne_nil_of_length_pos (by omega)

/-! ## What a journal tells of the state behind it -/

namespace Host

variable {σ : Type} {h : Host σ} {t : Token}

/-- A journal tells of the state behind it that the requests in it are still there, and the last
entry shows the state itself. -/
structure Shown (h : Host σ) (t : Token) (w : σ × Journal) : Prop where
  requests : ∀ a ∈ w.2, t.isCancelled a.interrupts = true →
    t.isCancelled (h.interrupts w.1) = true
  last : ∀ a ∈ w.2.getLast?, a.interrupts = h.interrupts w.1

theorem Shown.start (s : σ) : h.Shown t (s, []) where
  requests := List.forall_mem_nil _
  last := by simp

theorem Shown.note {s s' : σ} {j : Journal} (hs : h.Shown t (s, j)) (d : Deed)
    (hstay : t.isCancelled (h.interrupts s) = true → t.isCancelled (h.interrupts s') = true) :
    h.Shown t (h.note j d s') where
  requests := by
    intro a ha hcan
    rcases List.mem_append.mp ha with ha | ha
    · exact hstay (hs.requests a ha hcan)
    · rw [List.mem_singleton.mp ha] at hcan
      exact hcan
  last := by
    intro a ha
    rw [Host.note, List.getLast?_concat] at ha
    cases ha
    rfl

theorem KeepsRequests.journaled (hk : h.KeepsRequests t) : h.journaled.Preserves (h.Shown t) := by
  refine preserves_iff.mpr fun w w' hstep hw => ?_
  obtain ⟨d, s', hdone, rfl⟩ := journaled_step hstep
  exact hw.note d (preserves_iff.mp hk _ _ hdone)

/-- Signals are all that is asked of the process, and `steps` are the steps of their handlers. -/
structure Handles (h : Host σ) (steps : σ → List HandlerStep) : Prop where
  interrupts (s : σ) : h.interrupts s = .ofSteps (steps s)
  handled (s : σ) : ∃ n, Handled n (steps s)
  grows {s s' : σ} : h.Step s s' → steps s <+: steps s'

namespace Handles

variable {steps : σ → List HandlerStep} (hh : h.Handles steps) (ht : t.watchesSignals = true)

include hh ht

theorem isCancelled_iff (s : σ) : t.isCancelled (h.interrupts s) = true ↔ .mark ∈ steps s := by
  rw [hh.interrupts, Token.isCancelled_ofSteps ht]

theorem isCancelled_mono {s s' : σ} (hsteps : steps s <+: steps s')
    (hcan : t.isCancelled (h.interrupts s) = true) : t.isCancelled (h.interrupts s') = true := by
  rw [hh.isCancelled_iff ht] at hcan ⊢
  exact hsteps.subset hcan

theorem keepsRequests : h.KeepsRequests t :=
  preserves_iff.mpr fun _ _ hstep hcan => hh.isCancelled_mono ht (hh.grows hstep) hcan

end Handles

end Host

namespace Plan

variable {σ : Type} {h : Host σ} {p : Plan} {c : Configuration} {probe : σ → ProbeResult × σ}

/-- The journal of a run tells of its last state. -/
theorem run_shown (hk : h.KeepsRequests p.token)
    (hprobe : ∀ s, p.token.isCancelled (h.interrupts s) = true →
      p.token.isCancelled (h.interrupts (probe s).2) = true) (s : σ) :
    h.Shown p.token ((p.run h c probe s).2, p.journal h c probe s) := by
  have hstart : h.Shown p.token (s, []) := .start s
  have hrun : h.Shown p.token (p.run h.journaled c (h.journaledProbe probe) (s, [])).2 :=
    hk.journaled.run (fun w hw => hw.note _ (hprobe w.1)) p c hstart
  rwa [p.run_journaled h c probe s] at hrun

/-! ## What is reported -/

/-- The number of a signal, as it is reported. -/
def code (g : Signal) : Int32 := Int32.ofNat g.number.toNat

theorem code_inj {g g' : Signal} (hcode : code g = code g') : g = g' := by
  have hnumber := congrArg Int32.toInt hcode
  rw [code, code, toInt_ofNat_toNat, toInt_ofNat_toNat, Int.ofNat_inj, UInt8.toNat_inj] at hnumber
  cases g
  cases g'
  exact congrArg Signal.mk hnumber

/-- An interrupted run reports what its last look saw, and any other run reports nothing. -/
theorem Ran.interruptedBy {j : Journal} {summary : Summary} (hran : p.Ran c j (.ok summary)) :
    ∃ again, j.getLast? = some again ∧ summary.interruptedBy =
      if summary.outcome = .interrupted then (p.token.signal? again.interrupts).map code
      else none := by
  generalize hr : Except.ok summary = r at hran
  cases hran with
  | cancelled _ _ _ =>
    cases hr
    exact ⟨_, rfl, rfl⟩
  | halted _ _ _ _ => cases hr
  | late _ _ _ _ => cases hr
  | @finished look again j k began ended o sum r g g' _ _ hset _ _ =>
    cases hr
    refine ⟨again, ?_, ?_⟩
    · rw [← List.cons_append, ← List.append_assoc, List.getLast?_concat]
    · rw [close_outcome]
      by_cases ho : o = .interrupted
      · rw [if_pos ho, close, if_pos ho]
        rfl
      · rw [if_neg ho]
        exact close_interruptedBy _ _ _ _ _ _ _ (hset.isOpen (begin_isOpen p c began) rfl) ho

/-- A run that only signals cancel reports a signal exactly if it is interrupted. It is the last
signal that has arrived when the run is over, also while the engine was stopped; so it is the first
one, by which the run was cancelled, exactly if that is the last one too. -/
theorem run_interruptedBy (h : Host σ) {steps : σ → List HandlerStep} (hh : h.Handles steps)
    (p : Plan) (ht : p.token.watchesSignals = true) (c : Configuration)
    (probe : σ → ProbeResult × σ) (hprobe : ∀ s, steps s <+: steps (probe s).2) (s : σ)
    {summary : Summary} (hr : (p.run h c probe s).1 = .ok summary) :
    (summary.interruptedBy.isSome ↔ summary.outcome = .interrupted) ∧
      ∀ n, summary.interruptedBy = some n → ∃ first last,
        (HandlerStep.entered (steps (p.run h c probe s).2)).head? = some first ∧
        (HandlerStep.entered (steps (p.run h c probe s).2)).getLast? = some last ∧
        n = code last ∧ (n = code first ↔ last = first) := by
  obtain ⟨hhead, hran⟩ := p.run_ran h c probe s
  have hshown := run_shown (hh.keepsRequests ht)
    (fun s hcan => hh.isCancelled_mono ht (hprobe s) hcan) s (c := c)
  rw [hr] at hran
  obtain ⟨again, hagain, hreported⟩ := hran.interruptedBy
  -- What the last look saw is what the last state shows: no operation comes after it.
  rw [hshown.last again hagain, hh.interrupts, Token.signal?, if_pos ht,
    Interrupts.last_ofSteps] at hreported
  by_cases ho : summary.outcome = .interrupted
  · have hne : HandlerStep.entered (steps (p.run h c probe s).2) ≠ [] := by
      obtain ⟨a, ha, hcan⟩ := (hran.consistent hhead rfl).interrupted ho
      obtain ⟨n, hhandled⟩ := hh.handled (p.run h c probe s).2
      exact hhandled.entered_ne_nil ((hh.isCancelled_iff ht _).mp (hshown.requests a ha hcan))
    have hlast := List.getLast?_eq_some_getLast hne
    rw [if_pos ho, hlast, Option.map_some] at hreported
    rw [hreported]
    refine ⟨iff_of_true rfl ho, ?_⟩
    rintro _ ⟨⟩
    exact ⟨_, _, List.head?_eq_some_head hne, hlast, rfl, code_inj, congrArg code⟩
  · rw [if_neg ho] at hreported
    rw [hreported]
    exact ⟨iff_of_false nofun ho, nofun⟩

end Plan

/-! ## Two signals on a stage -/

namespace Stage

/-- Steps of handlers that have all come to their end. -/
abbrev Delivered := {l : List HandlerStep // Handled 0 l}

def Delivered.add (l : Delivered) (g : Signal) (hg : g ∈ Signal.requests) : Delivered :=
  ⟨l.1 ++ [.enter g] ++ [.mark], .mark (.enter hg l.2)⟩

theorem Delivered.prefix_add (l : Delivered) (g : Signal) (hg : g ∈ Signal.requests) :
    l.1 <+: (l.add g hg).1 :=
  (List.prefix_append ..).trans (List.prefix_append ..)

/-- A stage on which this process is interrupted when a program is started, and loses its terminal
when it stops one. -/
def signalingHost : Host (Stage × Delivered) :=
  { host.extend Delivered with
    interrupts := fun s => .ofSteps s.2.1
    spawn := fun _ _ s => (.ok ⟨2⟩, s.1, s.2.add .interrupt (by decide))
    signal := fun _ _ s => (.ok (), { s.1 with ended := true }, s.2.add .hangup (by decide)) }

theorem signalingHost_handles : signalingHost.Handles fun s => s.2.1 where
  interrupts _ := rfl
  handled s := ⟨0, s.2.2⟩
  grows hstep := by
    cases hstep with
    | spawn => exact Delivered.prefix_add _ _ (by decide)
    | signal => exact Delivered.prefix_add _ _ (by decide)
    | _ => exact List.prefix_rfl

/-- A run with one attempt that watches signals. -/
def watchingPlan : Plan := { plan with token := ⟨0, true⟩ }

def unreachable (s : Stage × Delivered) : ProbeResult × Stage × Delivered := (.unreachable, s)

/-- A wait for a process that got a signal ends at once. -/
theorem signaling_waitFor (x : Delivered) (d : Duration) (hd : (Host.deadline? 0 d).isSome) :
    signalingHost.waitFor ⟨2⟩ d (⟨0, .none, true⟩, x) =
      (some (some (.signaled .terminate)), ⟨0, .none, true⟩, x) := by
  obtain ⟨deadline, hd⟩ := Option.isSome_iff_exists.mp hd
  have hlook (s : Stage × Delivered) : signalingHost.look s = s := rfl
  have hclock : signalingHost.clock (⟨0, .none, true⟩, x) = 0 := rfl
  have hpoll : signalingHost.poll ⟨2⟩ (⟨0, .none, true⟩, x) =
      (some (.signaled .terminate), ⟨0, .none, true⟩, x) := rfl
  simp only [Host.waitFor, hlook, hclock, hd]
  rw [Host.waitUntil_eq, hpoll]

/-- The steps that the handlers have made before the engine is stopped. -/
def interrupted : Delivered := Delivered.add ⟨[], .none⟩ .interrupt (by decide)

theorem signaling_cleanup :
    ∃ g s', (Guard.ofEngine (.started ⟨2⟩ default) plan.grace).cleanup signalingHost
        (start, interrupted) = (.ok (.ok .terminated), g, s') ∧ g.attempted = true ∧
      s' = (⟨0, .none, true⟩, interrupted.add .hangup (by decide)) := by
  have hpoll : signalingHost.poll ⟨2⟩ (start, interrupted) = (none, start, interrupted) := rfl
  have hterm : signalingHost.signal (.group ⟨2⟩) .terminate (start, interrupted) =
      (.ok (), ⟨0, .none, true⟩, interrupted.add .hangup (by decide)) := rfl
  have hwait := signaling_waitFor (interrupted.add .hangup (by decide)) plan.grace (by decide)
  simp [Guard.cleanup, Guard.ofEngine, Engine.poll, Engine.started, hpoll, Guard.stopEngine,
    Engine.terminate, Engine.noteTermination, hterm, Engine.waitFor, hwait, Engine.markExited]

theorem signaling_run :
    ∃ summary, watchingPlan.run signalingHost default unreachable (start, ⟨[], .none⟩) =
      (.ok summary, ⟨0, .none, true⟩, interrupted.add .hangup (by decide)) ∧
        summary.outcome = .interrupted := by
  have hrun : watchingPlan.run signalingHost default unreachable (start, ⟨[], .none⟩) =
      watchingPlan.conclude signalingHost .interrupted
        (((watchingPlan.begin default default).noteEngine ⟨2⟩).noteAttempts 0)
        (.ofEngine (.started ⟨2⟩ default) plan.grace) (start, interrupted) := rfl
  obtain ⟨g, s', hclean, hattempted, rfl⟩ := signaling_cleanup
  rw [hrun, Plan.conclude, hclean]
  simp only [Guard.drop, hattempted, if_true]
  exact ⟨_, rfl, rfl⟩

end Stage

/-- A run that is interrupted by one signal and gets another one while its engine is stopped reports
the other one. -/
theorem Plan.run_interruptedBy_stage :
    ∃ summary, (Stage.watchingPlan.run Stage.signalingHost default Stage.unreachable
        (Stage.start, ⟨[], .none⟩)).1 = .ok summary ∧
      summary.outcome = .interrupted ∧ summary.interruptedBy = some (code .hangup) ∧
      code .hangup ≠ code .interrupt := by
  obtain ⟨summary, hrun, ho⟩ := Stage.signaling_run
  have hr := congrArg Prod.fst hrun
  obtain ⟨hiff, hcode⟩ := run_interruptedBy Stage.signalingHost Stage.signalingHost_handles
    Stage.watchingPlan rfl default Stage.unreachable (fun _ => List.prefix_rfl) _ hr
  obtain ⟨n, hn⟩ := Option.isSome_iff_exists.mp (hiff.mpr ho)
  obtain ⟨first, last, hfirst, hlast, rfl, -⟩ := hcode n hn
  rw [hrun] at hlast
  cases hlast
  exact ⟨summary, hr, ho, hn, by decide⟩

end EngineBench
