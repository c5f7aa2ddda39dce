import Wiretap.Sink

/-! Shared sinks: one sink behind any number of handles. Each call holds the lock for its whole length,
so what one handle writes is never interleaved with what another does. A panic inside a call happens
with the lock held and poisons the sink: from then on every call on every handle fails and none
reaches the sink behind. -/

namespace Wiretap

structure Shared (σ : Type) where
  inner : σ
  poisoned : Bool := false
  handles : Nat := 1
deriving DecidableEq, Repr

namespace Shared

variable {σ : Type}

/-- An earlier call panicked. -/
def poisonedError : IoError := .told .other "shared pcap sink poisoned"

/-- One more handle. -/
def share (w : Shared σ) : Shared σ := { w with handles := w.handles + 1 }

/-- One handle less. -/
def release (w : Shared σ) : Shared σ := { w with handles := w.handles - 1 }

def call (sink : Sink σ) (c : SinkCall) (w : Shared σ) : Outcome × Shared σ :=
  if w.poisoned then (.failed poisonedError, w)
  else
    match sink.call c w.inner with
    | (.panicked, inner) => (.panicked, { w with inner, poisoned := true })
    | (o, inner) => (o, { w with inner })

/-- A call that gets to the sink behind poisons exactly if it panics. -/
theorem call_of_not_poisoned {w : Shared σ} (h : w.poisoned = false) (sink : Sink σ) (c : SinkCall) :
    w.call sink c = ((sink.call c w.inner).1,
      { w with
        inner := (sink.call c w.inner).2
        poisoned := (sink.call c w.inner).1 == .panicked }) := by
  rw [call, if_neg (Bool.eq_false_iff.mp h)]
  rcases sink.call c w.inner with ⟨_ | e | _, inner⟩
  · exact congrArg (fun b => (Outcome.ok, Shared.mk inner b w.handles)) h
  · exact congrArg (fun b => (Outcome.failed e, Shared.mk inner b w.handles)) h
  · rfl

end Shared

/-- A sink behind a lock, as every handle sees it. -/
def Sink.shared {σ : Type} (sink : Sink σ) : Sink (Shared σ) where
  call := Shared.call sink
  release := Shared.release

end Wiretap
