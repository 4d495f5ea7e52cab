import EngineBench.Signal

/-!
# Cancellation

A run is cancelled from within, by raising a flag, or from without, by a signal. The handler of a
signal stores its number and then marks that one was delivered, so there is a moment between the
two. `Token` is what a run looks at: it has a flag of its own, and may watch signals too.
-/

namespace EngineBench

/-- What has been asked of the process so far. -/
structure Interrupts where
  raised : List Nat
  delivered : Bool
  /-- The last signal whose handler was entered. -/
  last : Option Signal
  deriving DecidableEq, Inhabited

namespace Interrupts

def none : Interrupts := ⟨[], false, .none⟩

def raise (i : Interrupts) (flag : Nat) : Interrupts := { i with raised := flag :: i.raised }

/-- The first step of the handler. -/
def enter (i : Interrupts) (s : Signal) : Interrupts := { i with last := some s }

/-- The second step of the handler. -/
def mark (i : Interrupts) : Interrupts := { i with delivered := true }

def deliver (i : Interrupts) (s : Signal) : Interrupts := (i.enter s).mark

end Interrupts

/-- What a run looks at to see whether it is cancelled. -/
structure Token where
  flag : Nat
  watchesSignals : Bool
  deriving DecidableEq, Repr, Inhabited

namespace Token

/-- The run is cancelled. -/
def isCancelled (t : Token) (i : Interrupts) : Bool :=
  i.raised.contains t.flag || (t.watchesSignals && i.delivered)

/-- The signal that the run has to report. -/
def signal? (t : Token) (i : Interrupts) : Option Signal :=
  if t.watchesSignals then i.last else none

end Token

end EngineBench
