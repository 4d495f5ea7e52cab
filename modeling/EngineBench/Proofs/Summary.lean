import EngineBench.Plan

/-!
# What is noted in a summary

The parts of a run note what they did in fields of their own, and the close of the summary leaves
those alone.

* `Summary.IsOpen` says that nothing of the end of a run is noted; the notes before the cleanup
  keep it.
* `Summary.beginning` is the summary without any notes; they all keep it.
* The fields of `Plan.close` are those of the notes.
-/

namespace EngineBench

namespace Summary

/-- Nothing of the cleanup and of what came after it is noted. -/
structure IsOpen (s : Summary) : Prop where
  cleanup : s.cleanup = none
  cleanupError : s.cleanupError = none
  engineState : s.engineState = none
  interruptedBy : s.interruptedBy = none

variable {s : Summary}

theorem IsOpen.noteEngine (hs : s.IsOpen) (p : ProcessId) : (s.noteEngine p).IsOpen :=
  ⟨hs.cleanup, hs.cleanupError, hs.engineState, hs.interruptedBy⟩

theorem IsOpen.noteAttempts (hs : s.IsOpen) (n : Nat) : (s.noteAttempts n).IsOpen :=
  ⟨hs.cleanup, hs.cleanupError, hs.engineState, hs.interruptedBy⟩

theorem IsOpen.noteClient (hs : s.IsOpen) (status : ExitStatus) : (s.noteClient status).IsOpen :=
  ⟨hs.cleanup, hs.cleanupError, hs.engineState, hs.interruptedBy⟩

/-- The summary as it was begun. -/
def beginning (s : Summary) : Summary :=
  .begin s.configuration s.engineLine s.clientLine s.engineLog s.startedAt

@[simp] theorem beginning_finish (o : Outcome) (now : Timestamp) :
    (s.finish o now).beginning = s.beginning := rfl

@[simp] theorem beginning_noteEngine (p : ProcessId) : (s.noteEngine p).beginning = s.beginning :=
  rfl

@[simp] theorem beginning_noteAttempts (n : Nat) : (s.noteAttempts n).beginning = s.beginning := rfl

@[simp] theorem beginning_noteClient (status : ExitStatus) :
    (s.noteClient status).beginning = s.beginning := rfl

@[simp] theorem beginning_noteCleanup (r : Except Unconfirmed CleanupAction) :
    (s.noteCleanup r).beginning = s.beginning := by
  cases r <;> rfl

@[simp] theorem beginning_noteState (g : Guard) : (s.noteState g).beginning = s.beginning := rfl

@[simp] theorem beginning_noteSignal (signal : Option Signal) :
    (s.noteSignal signal).beginning = s.beginning := rfl

end Summary

namespace Plan

theorem begin_isOpen (p : Plan) (c : Configuration) (now : Timestamp) : (p.begin c now).IsOpen :=
  ⟨rfl, rfl, rfl, rfl⟩

/-- The end of the client is noted in the summary, and nothing else. -/
theorem isOpen_of_clientVerdict {summary summary' : Summary} (hs : summary.IsOpen)
    {r : ClientResult} {o : Outcome} (hr : clientVerdict summary r = .ok (o, summary')) :
    summary'.IsOpen := by
  unfold clientVerdict at hr
  split at hr
  · cases hr
  · cases hr
    exact hs.noteClient _
  · cases hr
    exact hs
  · cases hr
    exact hs.noteClient _
  · cases hr
    exact hs

/-- The end of the client changes nothing that was there from the beginning. -/
theorem beginning_of_clientVerdict {summary summary' : Summary} {r : ClientResult} {o : Outcome}
    (hr : clientVerdict summary r = .ok (o, summary')) :
    summary'.beginning = summary.beginning := by
  unfold clientVerdict at hr
  split at hr
  all_goals cases hr
  all_goals rfl

variable (p : Plan) (o : Outcome) (s : Summary) (r : Except Unconfirmed CleanupAction) (g : Guard)
  (i : Interrupts) (now : Timestamp)

@[simp] theorem close_beginning : (p.close o s r g i now).beginning = s.beginning := by
  unfold close
  split <;> simp

@[simp] theorem close_outcome : (p.close o s r g i now).outcome = o := rfl

@[simp] theorem close_engineState :
    (p.close o s r g i now).engineState = g.engine.map Engine.state := by
  unfold close
  split <;> rfl

@[simp] theorem close_enginePid : (p.close o s r g i now).enginePid = s.enginePid := by
  unfold close
  split <;> cases r <;> rfl

@[simp] theorem close_healthAttempts :
    (p.close o s r g i now).healthAttempts = s.healthAttempts := by
  unfold close
  split <;> cases r <;> rfl

@[simp] theorem close_clientExitCode :
    (p.close o s r g i now).clientExitCode = s.clientExitCode := by
  unfold close
  split <;> cases r <;> rfl

theorem close_cleanup (hs : s.IsOpen) :
    (p.close o s r g i now).cleanup =
      match r with
      | .ok action => some action
      | .error _ => none := by
  unfold close
  cases r with
  | error u => split <;> exact hs.cleanup
  | ok action => split <;> rfl

theorem close_cleanupError (hs : s.IsOpen) :
    (p.close o s r g i now).cleanupError =
      match r with
      | .ok _ => none
      | .error u => some u.message := by
  unfold close
  cases r with
  | error u => split <;> rfl
  | ok action => split <;> exact hs.cleanupError

/-- Only an interrupted run has a signal to report. -/
theorem close_interruptedBy (hs : s.IsOpen) (ho : o ≠ .interrupted) :
    (p.close o s r g i now).interruptedBy = none := by
  simp only [close, if_neg ho]
  cases r <;> exact hs.interruptedBy

end Plan

end EngineBench
