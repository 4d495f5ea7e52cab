import EngineBench.Proofs.Spawns

/-!
# Whether the client is left behind

A run of the client that comes to a result leaves no client behind, except if the system refuses a
signal to it: then the run is over at once, and nobody waits for the client any more.

* `Client.Left` lists the ways in which a client is left, and `Client.Stopped.left`,
  `Client.Watched.left` and `Client.Ran.left` say that there are no others.
* `Client.run_reaps_iff` says of every run of a client when the client is reaped.
-/

namespace EngineBench

namespace Client

variable {t : Token} {p : ProcessId} {c : Command} {j : Journal} {r : ClientResult}

/-- The exit of a process was seen, so the system has forgotten it. -/
def Reaped (p : ProcessId) (j : Journal) : Prop := ∃ a ∈ j, a.deed.reaped? = some p

/-- The system refused to send a process a signal, and that was the last thing that was asked of
it. -/
def EndsRefused (p : ProcessId) (err : OsError) (j : Journal) : Prop :=
  ∃ before a g, j = before ++ [a] ∧ a.deed = .signaled (.process p) g (.error err)

/-- How a client is left when its run is over. -/
inductive Left (p : ProcessId) (j : Journal) (r : ClientResult) : Prop
  | reaped : Reaped p j → (∀ a ∈ j, ¬ a.deed.IsRefused) → (∀ err, r ≠ .ok (.error (.lost err))) →
      Left p j r
  /-- The run gave up when a signal was refused. -/
  | lost {err : OsError} : ¬ Reaped p j → EndsRefused p err j → r = .ok (.error (.lost err)) →
      Left p j r

/-- What reaps nobody and is not refused does not matter if it comes first. -/
theorem Left.prepend {k : Journal} (hl : Left p j r) (hreaped : ∀ a ∈ k, a.deed.reaped? = none)
    (hrefused : ∀ a ∈ k, ¬ a.deed.IsRefused) : Left p (k ++ j) r := by
  cases hl with
  | reaped hj hnot hr =>
    obtain ⟨a, ha, hra⟩ := hj
    refine .reaped ⟨a, List.mem_append_right _ ha, hra⟩ ?_ hr
    exact List.forall_mem_append.mpr ⟨hrefused, hnot⟩
  | lost hj hend hr =>
    obtain ⟨before, last, g, rfl, hlast⟩ := hend
    refine .lost ?_ ⟨k ++ before, last, g, by simp, hlast⟩ hr
    rintro ⟨a, ha, hra⟩
    rcases List.mem_append.mp ha with hmem | hmem
    · rw [hreaped a hmem] at hra
      cases hra
    · exact hj ⟨a, hmem, hra⟩

theorem Stopped.left (hs : Stopped p j r) (hr : ∀ halt, r ≠ .error halt) : Left p j r := by
  have hnone {a : Entry} {g : Signal} {x : Except OsError Unit}
      (ha : a.deed = .signaled (.process p) g x) : a.deed.reaped? = none := by
    rw [ha]
    rfl
  have hunreaped {j : Journal} (hj : ∀ a ∈ j, a.deed.reaped? = none) : ¬ Reaped p j := by
    rintro ⟨a, ha, hra⟩
    rw [hj a ha] at hra
    cases hra
  cases hs with
  | @lost term err hterm =>
    refine .lost (hunreaped ?_) ⟨[], term, _, rfl, hterm⟩ rfl
    simpa using hnone hterm
  | overflow _ _ => exact absurd rfl (hr _)
  | @ended term j _ hterm hw =>
    obtain ⟨a, ha, hra⟩ := hw.reaps
    refine .reaped ⟨a, List.mem_cons_of_mem _ ha, hra⟩ ?_ nofun
    simp only [List.mem_cons, forall_eq_or_imp, hterm]
    exact ⟨id, hw.not_isRefused⟩
  | @killLost term kill j err hterm hw hkill =>
    -- The whole time that the client had was over, and still it was not seen to exit.
    refine .lost (hunreaped ?_) ⟨term :: j, kill, _, rfl, hkill⟩ rfl
    simp only [List.mem_cons, List.mem_append, List.not_mem_nil, or_false]
    rintro a (rfl | ha | rfl)
    · exact hnone hterm
    · exact hw.unreaped (.inr rfl) a ha
    · exact hnone hkill
  | @killed term kill wait j _ hterm hw hkill hwait =>
    refine .reaped ⟨wait, by simp, by rw [hwait]; rfl⟩ ?_ nofun
    simp only [List.mem_cons, List.mem_append, List.not_mem_nil, or_false]
    rintro a (rfl | ha | rfl | rfl)
    · rw [hterm]
      exact id
    · exact hw.not_isRefused a ha
    · rw [hkill]
      exact id
    · rw [hwait]
      exact id

theorem Watched.left (hw : Watched t p j r) (hr : ∀ halt, r ≠ .error halt) : Left p j r := by
  -- Up to the last round the client is found running, and nothing is refused.
  induction hw with
  | @exited poll look status hpoll hlook =>
    refine .reaped ⟨poll, by simp, by rw [hpoll]; rfl⟩ ?_ ?_
    · simp [hpoll, hlook, Deed.IsRefused]
    · intro err hlost
      have hclass := Except.ok.inj hlost
      simp only [classify] at hclass
      split at hclass
      · cases hclass
      · split at hclass <;> cases hclass
  | @stopped poll look j r hpoll hlook _ hs =>
    refine (hs.left hr).prepend (k := [poll, look]) ?_ ?_
    · simp [hpoll, hlook, Deed.reaped?]
    · simp [hpoll, hlook, Deed.IsRefused]
  | late _ _ _ _ => exact absurd rfl (hr _)
  | @next poll look sleep _ j r hpoll hlook _ hsleep _ ih =>
    refine (ih hr).prepend (k := [poll, look, sleep]) ?_ ?_
    · simp [hpoll, hlook, hsleep, Deed.reaped?]
    · simp [hpoll, hlook, hsleep, Deed.IsRefused]

theorem not_started_of_spawns {a : Entry} (ha : a ∈ j) (hj : j.spawns = []) :
    a.deed.started? ≠ some p := by
  intro hstarted
  have hnone := Journal.spawns_eq_nil_iff.mp hj a ha
  cases hd : a.deed with
  | spawned c k r =>
    rw [hd] at hnone
    cases hnone
  | _ =>
    rw [hd] at hstarted
    cases hstarted

theorem Ran.left (hc : Ran t c j r) (hr : ∀ halt, r ≠ .error halt)
    (hstarted : ∃ a ∈ j, a.deed.started? = some p) : Left p j r := by
  obtain ⟨a, ha, hp⟩ := hstarted
  cases hc with
  | unstarted hprep hspawn =>
    rcases List.mem_append.mp ha with hmem | hmem
    · exact absurd hp (not_started_of_spawns hmem hprep.spawns_eq_nil)
    · rw [List.mem_singleton.mp hmem, hspawn] at hp
      cases hp
  | @watched j j' spawn q _ hprep hspawn hw =>
    -- Nothing else is started, so it is this client.
    obtain rfl : q = p := by
      rcases List.mem_append.mp ha with hmem | hmem
      · exact absurd hp (not_started_of_spawns hmem hprep.spawns_eq_nil)
      rcases List.mem_cons.mp hmem with rfl | hmem
      · rw [hspawn] at hp
        exact Option.some.inj hp
      · exact absurd hp (not_started_of_spawns hmem hw.spawns_eq_nil)
    refine Left.prepend (k := j) ?_ (fun a ha => (hprep.isIdle a ha).2.1) hprep.not_isRefused
    refine (hw.left hr).prepend (k := [spawn]) ?_ ?_
    · simp [hspawn, Deed.reaped?]
    · simp [hspawn, Deed.IsRefused]

variable {σ : Type}

/-- What a run of a client asks of its host. -/
def journal (h : Host σ) (t : Token) (c : Command) (results : Path) (s : σ) : Journal :=
  (run h.journaled t c results (s, [])).2.2

theorem run_ran (h : Host σ) (t : Token) (c : Command) (results : Path) (s : σ) :
    Ran t c (journal h t c results s) (run h t c results s).1 := by
  obtain ⟨j, hadd, hran⟩ := h.journaled_keeps.client t c results (s, [])
  obtain rfl : journal h t c results s = j := hadd
  have hsees := h.journaled_sees.client t c results (s, [])
  rw [show run h t c results s = _ from hsees]
  exact hran

/-- The client that a run has started is reaped when the run comes to a result, exactly if the
system refused no signal to it. If it refused one, nothing was done behind that, and the run says
that it has lost the client. -/
theorem run_reaps_iff (h : Host σ) (t : Token) (c : Command) (results : Path) (s : σ)
    {result : Except ClientFailure ExitStatus} (hr : (run h t c results s).1 = .ok result)
    {p : ProcessId} (hstarted : ∃ a ∈ journal h t c results s, a.deed.started? = some p) :
    let j := journal h t c results s
    (Reaped p j ↔ ∀ a ∈ j, ¬ a.deed.IsRefused) ∧
      (Reaped p j ↔ ∀ err, result ≠ .error (.lost err)) ∧
      ∀ err, result = .error (.lost err) → EndsRefused p err j := by
  intro j
  have hran := run_ran h t c results s
  rw [hr] at hran
  cases hran.left nofun hstarted with
  | reaped hreaped hnot hresult =>
    have hkept (err : OsError) : result ≠ .error (.lost err) := fun heq =>
      hresult err (congrArg Except.ok heq)
    exact ⟨iff_of_true hreaped hnot, iff_of_true hreaped hkept, fun err heq =>
      absurd heq (hkept err)⟩
  | @lost err hleft hend hresult =>
    cases hresult
    obtain ⟨before, a, g, hj, ha⟩ := hend
    have hrefused : ¬ ∀ a ∈ j, ¬ a.deed.IsRefused := by
      intro hnot
      refine hnot a ?_ ?_
      · show a ∈ journal h t c results s
        rw [hj]
        simp
      · rw [ha]
        trivial
    refine ⟨iff_of_false hleft hrefused, iff_of_false hleft fun hnot => hnot err rfl, ?_⟩
    rintro _ ⟨⟩
    exact ⟨before, a, g, hj, ha⟩

end Client

/-- A stage on which nobody may send signals. -/
def Stage.forbiddingHost : Host Stage :=
  { Stage.host with signal := fun _ _ s => (.error .notPermitted, s) }

namespace Client

/-- A cancelled run that may not ask its client to end leaves it running. -/
theorem run_reaps_iff_forbidding :
    let s : Stage := ⟨0, Interrupts.none.raise 0, false⟩
    (run Stage.forbiddingHost ⟨0, false⟩ default default s).1 =
        .ok (.error (.lost .notPermitted)) ∧
      (∃ a ∈ journal Stage.forbiddingHost ⟨0, false⟩ default default s,
        a.deed.started? = some ⟨2⟩) ∧
      ¬ Reaped ⟨2⟩ (journal Stage.forbiddingHost ⟨0, false⟩ default default s) := by
  intro s
  have hr : (run Stage.forbiddingHost ⟨0, false⟩ default default s).1 =
      .ok (.error (.lost .notPermitted)) := by
    show (watch Stage.forbiddingHost ⟨0, false⟩ ⟨2⟩ s).1 = _
    rw [watch_eq]
    rfl
  have hstarted : ∃ a ∈ journal Stage.forbiddingHost ⟨0, false⟩ default default s,
      a.deed.started? = some ⟨2⟩ := by
    refine ⟨Stage.forbiddingHost.entry (.spawned default .inherited (.ok ⟨2⟩)) s, ?_, rfl⟩
    show _ ∈ (watch Stage.forbiddingHost.journaled ⟨0, false⟩ ⟨2⟩ (s, [_])).2.2
    rw [watch_eq]
    exact List.mem_cons_self
  refine ⟨hr, hstarted, fun hreaped => ?_⟩
  obtain ⟨-, hiff, -⟩ := run_reaps_iff Stage.forbiddingHost ⟨0, false⟩ default default s hr hstarted
  exact hiff.mp hreaped .notPermitted rfl

end Client

end EngineBench
