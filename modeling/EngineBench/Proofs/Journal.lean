import EngineBench.Host

/-!
# Journals

A journal holds everything that was asked of a host, in its order: what it was, what came of it,
and what the clock and the requests to the process read right after. Any host can be made to keep
one; a second host that differs in nothing but such a component goes through the same steps.

* `Host.journaled` is a host that keeps a journal in its state.
* `Host.Keeps` says that a view of the state is a journal, `Host.Sees` that a host is another one
  with something added to its state. Both are the case for `Host.journaled`.
-/

namespace EngineBench

/-- Something that was asked of a host, and what came of it. -/
inductive Deed where
  | looked
  | slept (d : Duration)
  | watchedSignals
  | madeDirectories (p : Path) (r : Except OsError Unit)
  | emptied (p : Path) (r : Except OsError Unit)
  | wrote (p : Path) (content : Bytes) (r : Except OsError Unit)
  | spawned (c : Command) (k : Sink) (r : Except OsError ProcessId)
  | polled (p : ProcessId) (status : Option ExitStatus)
  | waited (p : ProcessId) (status : ExitStatus)
  | signaled (t : Target) (g : Signal) (r : Except OsError Unit)
  | probed (r : ProbeResult)
  | listened (port : UInt16) (body : String) (r : Except OsError Unit)
  | unlistened (port : UInt16)
  | printed (text : String) (r : Except OsError Unit)
  | complained (text : String)

namespace Deed

/-- The signal that a deed sends, and to whom. -/
def signal? : Deed → Option (Target × Signal)
  | .signaled t g _ => some (t, g)
  | _ => none

/-- The process whose exit a deed saw; the host has forgotten it then. -/
def reaped? : Deed → Option ProcessId
  | .polled p (some _) => some p
  | .waited p _ => some p
  | _ => none

/-- The process that a deed started. -/
def started? : Deed → Option ProcessId
  | .spawned _ _ (.ok p) => some p
  | _ => none

/-- The system refused to start a program or to send a signal. -/
def IsRefused : Deed → Prop
  | .spawned _ _ (.error _) => True
  | .signaled _ _ (.error _) => True
  | _ => False

/-- No process is touched, and none is found to have exited. -/
def IsIdle (d : Deed) : Prop := d.signal? = none ∧ d.reaped? = none ∧ d.started? = none

end Deed

/-- Whoever sends a signal sees nobody's exit by that. -/
theorem Deed.reaped?_ne_some_of_signal? {d : Deed} {x : Target × Signal}
    (hd : d.signal? = some x) (p : ProcessId) : d.reaped? ≠ some p := by
  cases d with
  | signaled t g r => exact nofun
  | _ => cases hd

/-- One entry of a journal: a deed, and what the clock and the requests read right after it. -/
structure Entry where
  deed : Deed
  clock : Nat
  interrupts : Interrupts

/-- A wait that begins at the reading of an entry would end when the clock shows nothing more. -/
def Entry.TooLate (d : Duration) (e : Entry) : Prop := Host.deadline? e.clock d = none

/-- Entries in the order of their deeds. -/
abbrev Journal := List Entry

namespace Journal

/-- The signals that were sent, in their order. -/
def signals (j : Journal) : List (Target × Signal) := j.filterMap fun e => e.deed.signal?

@[simp] theorem signals_nil : signals [] = [] := rfl

@[simp] theorem signals_append (j j' : Journal) : (j ++ j').signals = j.signals ++ j'.signals :=
  List.filterMap_append

theorem signals_cons (e : Entry) (j : Journal) :
    signals (e :: j) = e.deed.signal?.toList ++ signals j := by
  simp only [signals, List.filterMap_cons]
  cases e.deed.signal? <;> rfl

theorem signals_eq_nil_iff {j : Journal} : j.signals = [] ↔ ∀ e ∈ j, e.deed.signal? = none :=
  List.filterMap_eq_nil_iff

/-- All deeds touch no process. -/
def IsIdle (j : Journal) : Prop := ∀ e ∈ j, e.deed.IsIdle

theorem IsIdle.nil : IsIdle [] := fun _ he => (List.not_mem_nil he).elim

theorem IsIdle.singleton {e : Entry} (he : e.deed.IsIdle) : IsIdle [e] := by
  intro e' he'
  rw [List.mem_singleton.mp he']
  exact he

theorem IsIdle.append {j j' : Journal} (hj : j.IsIdle) (hj' : j'.IsIdle) : IsIdle (j ++ j') :=
  List.forall_mem_append.mpr ⟨hj, hj'⟩

theorem IsIdle.of_looked {j : Journal} (hj : ∀ e ∈ j, e.deed = .looked) : j.IsIdle := by
  intro e he
  rw [hj e he]
  exact ⟨rfl, rfl, rfl⟩

theorem IsIdle.signals_eq_nil {j : Journal} (hj : j.IsIdle) : j.signals = [] :=
  signals_eq_nil_iff.mpr fun e he => (hj e he).1

/-- No signal is sent once the exit of a process was seen. -/
def SilentAfter (p : ProcessId) (j : Journal) : Prop :=
  j.Pairwise fun a b => a.deed.reaped? = some p → b.deed.signal? = none

theorem SilentAfter.of_quiet {p : ProcessId} {j : Journal} (hj : j.signals = []) :
    j.SilentAfter p :=
  List.pairwise_of_forall_mem_list fun _ _ b hb _ => signals_eq_nil_iff.mp hj b hb

theorem SilentAfter.cons {p : ProcessId} {e : Entry} {j : Journal}
    (he : e.deed.reaped? ≠ some p) (hj : j.SilentAfter p) : SilentAfter p (e :: j) :=
  List.pairwise_cons.mpr ⟨fun _ _ hr => absurd hr he, hj⟩

theorem SilentAfter.cons_signal {p : ProcessId} {e : Entry} {j : Journal} {x : Target × Signal}
    (he : e.deed.signal? = some x) (hj : j.SilentAfter p) : SilentAfter p (e :: j) :=
  .cons (Deed.reaped?_ne_some_of_signal? he p) hj

/-- What follows a silent journal without a signal does not break the silence. -/
theorem SilentAfter.append_quiet {p : ProcessId} {j j' : Journal} (hj : j.SilentAfter p)
    (hj' : j'.signals = []) : SilentAfter p (j ++ j') :=
  List.pairwise_append.mpr
    ⟨hj, SilentAfter.of_quiet hj', fun _ _ b hb _ => signals_eq_nil_iff.mp hj' b hb⟩

/-- What goes before a silent journal without the exit of the process does not matter. -/
theorem SilentAfter.unreaped_append {p : ProcessId} {j j' : Journal}
    (hj : ∀ a ∈ j, a.deed.reaped? ≠ some p) (hj' : j'.SilentAfter p) :
    SilentAfter p (j ++ j') := by
  refine List.pairwise_append.mpr ⟨?_, hj', fun a ha _ _ hr => absurd hr (hj a ha)⟩
  exact List.pairwise_of_forall_mem_list fun a ha _ _ hr => absurd hr (hj a ha)

end Journal

namespace Host

variable {σ τ : Type}

/-- The entry for a deed that led to a state. -/
def entry (h : Host σ) (d : Deed) (s : σ) : Entry := ⟨d, h.clock s, h.interrupts s⟩

/-- A state behind a deed, with the entry for it. -/
def note (h : Host σ) (j : Journal) (d : Deed) (s : σ) : σ × Journal := (s, j ++ [h.entry d s])

/-- The same host with a journal beside its state. -/
def journaled (h : Host σ) : Host (σ × Journal) where
  clock w := h.clock w.1
  date w := h.date w.1
  interrupts w := h.interrupts w.1
  look w := h.note w.2 .looked (h.look w.1)
  sleep d w := h.note w.2 (.slept d) (h.sleep d w.1)
  watchSignals w := h.note w.2 .watchedSignals (h.watchSignals w.1)
  getVariable name w := h.getVariable name w.1
  workingDirectory w := h.workingDirectory w.1
  isFile p w := h.isFile p w.1
  readFile p w := h.readFile p w.1
  makeDirectories p w :=
    let r := h.makeDirectories p w.1
    (r.1, h.note w.2 (.madeDirectories p r.1) r.2)
  emptyFile p w :=
    let r := h.emptyFile p w.1
    (r.1, h.note w.2 (.emptied p r.1) r.2)
  writeFile p content w :=
    let r := h.writeFile p content w.1
    (r.1, h.note w.2 (.wrote p content r.1) r.2)
  spawn c k w :=
    let r := h.spawn c k w.1
    (r.1, h.note w.2 (.spawned c k r.1) r.2)
  poll p w :=
    let r := h.poll p w.1
    (r.1, h.note w.2 (.polled p r.1) r.2)
  wait p w :=
    let r := h.wait p w.1
    (r.1, h.note w.2 (.waited p r.1) r.2)
  signal t g w :=
    let r := h.signal t g w.1
    (r.1, h.note w.2 (.signaled t g r.1) r.2)
  connect port w :=
    let r := h.connect port w.1
    (r.1, h.note w.2 (.probed r.1) r.2)
  listen port body w :=
    let r := h.listen port body w.1
    (r.1, h.note w.2 (.listened port body r.1) r.2)
  unlisten port w := h.note w.2 (.unlistened port) (h.unlisten port w.1)
  print text w :=
    let r := h.print text w.1
    (r.1, h.note w.2 (.printed text r.1) r.2)
  complain text w := h.note w.2 (.complained text) (h.complain text w.1)
  clock_look w := h.clock_look w.1
  clock_poll p w := h.clock_poll p w.1
  clock_sleep d w := h.clock_sleep d w.1

/-- A probe beside which a journal is kept. -/
def journaledProbe (h : Host σ) (probe : σ → ProbeResult × σ) (w : σ × Journal) :
    ProbeResult × σ × Journal :=
  let r := probe w.1
  (r.1, h.note w.2 (.probed r.1) r.2)

/-! ## Hosts that keep a journal -/

/-- A view of the state is a journal of what a run asks of the host. -/
structure Keeps (h : Host σ) (journal : σ → Journal) : Prop where
  look (s : σ) : journal (h.look s) = journal s ++ [h.entry .looked (h.look s)]
  sleep (d : Duration) (s : σ) :
    journal (h.sleep d s) = journal s ++ [h.entry (.slept d) (h.sleep d s)]
  makeDirectories (p : Path) (s : σ) :
    journal (h.makeDirectories p s).2 = journal s ++
      [h.entry (.madeDirectories p (h.makeDirectories p s).1) (h.makeDirectories p s).2]
  emptyFile (p : Path) (s : σ) :
    journal (h.emptyFile p s).2 = journal s ++
      [h.entry (.emptied p (h.emptyFile p s).1) (h.emptyFile p s).2]
  spawn (c : Command) (k : Sink) (s : σ) :
    journal (h.spawn c k s).2 = journal s ++
      [h.entry (.spawned c k (h.spawn c k s).1) (h.spawn c k s).2]
  poll (p : ProcessId) (s : σ) :
    journal (h.poll p s).2 = journal s ++ [h.entry (.polled p (h.poll p s).1) (h.poll p s).2]
  wait (p : ProcessId) (s : σ) :
    journal (h.wait p s).2 = journal s ++ [h.entry (.waited p (h.wait p s).1) (h.wait p s).2]
  signal (t : Target) (g : Signal) (s : σ) :
    journal (h.signal t g s).2 = journal s ++
      [h.entry (.signaled t g (h.signal t g s).1) (h.signal t g s).2]
  listen (port : UInt16) (body : String) (s : σ) :
    journal (h.listen port body s).2 = journal s ++
      [h.entry (.listened port body (h.listen port body s).1) (h.listen port body s).2]
  unlisten (port : UInt16) (s : σ) :
    journal (h.unlisten port s) = journal s ++ [h.entry (.unlistened port) (h.unlisten port s)]

/-- A probe adds its entry to the journal. -/
def KeepsProbe (h : Host σ) (journal : σ → Journal) (probe : σ → ProbeResult × σ) : Prop :=
  ∀ s, journal (probe s).2 = journal s ++ [h.entry (.probed (probe s).1) (probe s).2]

theorem journaled_keeps (h : Host σ) : h.journaled.Keeps Prod.snd where
  look _ := rfl
  sleep _ _ := rfl
  makeDirectories _ _ := rfl
  emptyFile _ _ := rfl
  spawn _ _ _ := rfl
  poll _ _ := rfl
  wait _ _ := rfl
  signal _ _ _ := rfl
  listen _ _ _ := rfl
  unlisten _ _ := rfl

theorem journaledProbe_keeps (h : Host σ) (probe : σ → ProbeResult × σ) :
    h.journaled.KeepsProbe Prod.snd (h.journaledProbe probe) := fun _ => rfl

theorem Keeps.polled {h : Host σ} {journal : σ → Journal} (hk : h.Keeps journal) {p : ProcessId}
    {s s' : σ} {r : Option ExitStatus} (hp : h.poll p s = (r, s')) :
    ∃ a : Entry, a.deed = .polled p r ∧ journal s' = journal s ++ [a] := by
  have hj := hk.poll p s
  rw [hp] at hj
  exact ⟨_, rfl, hj⟩

theorem Keeps.signaled {h : Host σ} {journal : σ → Journal} (hk : h.Keeps journal) {t : Target}
    {g : Signal} {s s' : σ} {r : Except OsError Unit} (hs : h.signal t g s = (r, s')) :
    ∃ a : Entry, a.deed = .signaled t g r ∧ journal s' = journal s ++ [a] := by
  have hj := hk.signal t g s
  rw [hs] at hj
  exact ⟨_, rfl, hj⟩

theorem Keeps.spawned {h : Host σ} {journal : σ → Journal} (hk : h.Keeps journal) {c : Command}
    {k : Sink} {s s' : σ} {r : Except OsError ProcessId} (hs : h.spawn c k s = (r, s')) :
    ∃ a : Entry, a.deed = .spawned c k r ∧ journal s' = journal s ++ [a] := by
  have hj := hk.spawn c k s
  rw [hs] at hj
  exact ⟨_, rfl, hj⟩

/-! ## Hosts with something added -/

/-- What `k` does is what `h` does, as far as `view` shows its state. -/
structure Sees (k : Host τ) (h : Host σ) (view : τ → σ) : Prop where
  clock (w : τ) : h.clock (view w) = k.clock w
  date (w : τ) : h.date (view w) = k.date w
  interrupts (w : τ) : h.interrupts (view w) = k.interrupts w
  look (w : τ) : h.look (view w) = view (k.look w)
  sleep (d : Duration) (w : τ) : h.sleep d (view w) = view (k.sleep d w)
  makeDirectories (p : Path) (w : τ) :
    h.makeDirectories p (view w) = (k.makeDirectories p w).map id view
  emptyFile (p : Path) (w : τ) : h.emptyFile p (view w) = (k.emptyFile p w).map id view
  spawn (c : Command) (o : Sink) (w : τ) : h.spawn c o (view w) = (k.spawn c o w).map id view
  poll (p : ProcessId) (w : τ) : h.poll p (view w) = (k.poll p w).map id view
  wait (p : ProcessId) (w : τ) : h.wait p (view w) = (k.wait p w).map id view
  signal (t : Target) (g : Signal) (w : τ) :
    h.signal t g (view w) = (k.signal t g w).map id view
  listen (port : UInt16) (body : String) (w : τ) :
    h.listen port body (view w) = (k.listen port body w).map id view
  unlisten (port : UInt16) (w : τ) : h.unlisten port (view w) = view (k.unlisten port w)

theorem journaled_sees (h : Host σ) : h.journaled.Sees h Prod.fst where
  clock _ := rfl
  date _ := rfl
  interrupts _ := rfl
  look _ := rfl
  sleep _ _ := rfl
  makeDirectories _ _ := rfl
  emptyFile _ _ := rfl
  spawn _ _ _ := rfl
  poll _ _ := rfl
  wait _ _ := rfl
  signal _ _ _ := rfl
  listen _ _ _ := rfl
  unlisten _ _ := rfl

theorem Sees.extend {k : Host τ} {h : Host σ} {view : τ → σ} (hs : k.Sees h view) (ρ : Type) :
    (k.extend ρ).Sees (h.extend ρ) (Prod.map view id) where
  clock w := hs.clock w.1
  date w := hs.date w.1
  interrupts w := hs.interrupts w.1
  look w := by simp [Host.extend, hs.look]
  sleep d w := by simp [Host.extend, hs.sleep]
  makeDirectories p w := by simp [Host.extend, hs.makeDirectories]
  emptyFile p w := by simp [Host.extend, hs.emptyFile]
  spawn c o w := by simp [Host.extend, hs.spawn]
  poll p w := by simp [Host.extend, hs.poll]
  wait p w := by simp [Host.extend, hs.wait]
  signal t g w := by simp [Host.extend, hs.signal]
  listen port body w := by simp [Host.extend, hs.listen]
  unlisten port w := by simp [Host.extend, hs.unlisten]

/-- A host with a further component of the state is the host beside any value of it. -/
theorem extend_sees (h : Host σ) (x : τ) : h.Sees (h.extend τ) fun s => (s, x) where
  clock _ := rfl
  date _ := rfl
  interrupts _ := rfl
  look _ := rfl
  sleep _ _ := rfl
  makeDirectories _ _ := rfl
  emptyFile _ _ := rfl
  spawn _ _ _ := rfl
  poll _ _ := rfl
  wait _ _ := rfl
  signal _ _ _ := rfl
  listen _ _ _ := rfl
  unlisten _ _ := rfl

end Host

/-! ## A small host -/

/-- A world in which every program starts, and ends with the first signal. -/
structure Stage where
  clock : Nat
  interrupts : Interrupts
  /-- There was a signal. -/
  ended : Bool
  deriving DecidableEq

/-- The host that a stage is. Time passes in sleeps only. -/
def Stage.host : Host Stage where
  clock s := s.clock
  date _ := default
  interrupts s := s.interrupts
  look s := s
  sleep d s := { s with clock := s.clock + d.nanoseconds }
  watchSignals s := s
  getVariable _ _ := none
  workingDirectory _ := none
  isFile _ _ := false
  readFile _ _ := .error .notFound
  makeDirectories _ s := (.ok (), s)
  emptyFile _ s := (.ok (), s)
  writeFile _ _ s := (.ok (), s)
  spawn _ _ s := (.ok ⟨2⟩, s)
  poll _ s := (if s.ended then some (.signaled .terminate) else none, s)
  wait _ s := (.signaled .terminate, s)
  signal _ _ s := (.ok (), { s with ended := true })
  connect _ s := (.unreachable, s)
  listen _ _ s := (.ok (), s)
  unlisten _ s := s
  print _ s := (.ok (), s)
  complain _ s := s
  clock_look _ := Nat.le_refl _
  clock_poll _ _ := Nat.le_refl _
  clock_sleep _ _ := Nat.le_refl _

end EngineBench
