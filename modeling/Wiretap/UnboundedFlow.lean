import Wiretap.Flow

/-! Flows that count without end. Each side has sent a number of bytes, counting a SYN or FIN as one,
and that number never wraps. Modulo 2^32 such a flow is a flow with counters, and every operation there
is the operation here with its numbers taken modulo 2^32. -/

namespace Wiretap

/-- A segment header with numbers that do not wrap. -/
structure UnboundedSegment where
  sender : Side
  src : Endpoint
  dst : Endpoint
  flags : TcpFlags
  seq : Nat
  ack : Nat

namespace UnboundedSegment

def wrapped (s : UnboundedSegment) : Segment :=
  ⟨s.sender, s.src, s.dst, s.flags, UInt32.ofNat s.seq, UInt32.ofNat s.ack⟩

end UnboundedSegment

structure UnboundedFlow where
  endpoint : Side → Endpoint
  localIsServer : Bool
  sent : Side → Nat

namespace UnboundedFlow

/-- The local end sends what is outbound. -/
def sender (f : UnboundedFlow) (d : Direction) : Side :=
  if (d == .outbound) == f.localIsServer then .server else .client

/-- A side has sent so many more. -/
def advance (f : UnboundedFlow) (s : Side) (n : Nat) : UnboundedFlow :=
  { f with sent := fun t => if t = s then f.sent t + n else f.sent t }

/-- A segment from a side that has sent `seq` and received `ack`. -/
def segment (f : UnboundedFlow) (s : Side) (flags : TcpFlags) (seq ack : Nat) : UnboundedSegment :=
  ⟨s, f.endpoint s, f.endpoint s.opposite, flags, seq, ack⟩

/-- Data, and the acknowledgment of all that was sent with them. -/
def send (f : UnboundedFlow) (d : Direction) (length : Nat) :
    (UnboundedSegment × UnboundedSegment) × UnboundedFlow :=
  let s := f.sender d
  let after := f.advance s length
  ((f.segment s .ack (f.sent s) (f.sent s.opposite),
    f.segment s.opposite .ack (f.sent s.opposite) (after.sent s)), after)

/-- Whatever was sent before, both sides have sent their SYN after it. -/
def handshake (f : UnboundedFlow) : List UnboundedSegment × UnboundedFlow :=
  ([f.segment .client .syn 0 0, f.segment .server .synAck 0 1, f.segment .client .ack 1 1],
    { f with sent := fun _ => 1 })

/-- Both sides send their FIN. -/
def close (f : UnboundedFlow) (initiator : Side) : List UnboundedSegment × UnboundedFlow :=
  let responder := initiator.opposite
  let after := (f.advance initiator 1).advance responder 1
  ([f.segment initiator .finAck (f.sent initiator) (f.sent responder),
      f.segment responder .finAck (f.sent responder) (f.sent initiator),
      f.segment initiator .ack (after.sent initiator) (after.sent responder)], after)

def reset (f : UnboundedFlow) (initiator : Side) : UnboundedSegment :=
  f.segment initiator .rstAck (f.sent initiator) (f.sent initiator.opposite)

def wrapped (f : UnboundedFlow) : Flow :=
  ⟨f.endpoint .client, f.endpoint .server, f.localIsServer, UInt32.ofNat (f.sent .client),
    UInt32.ofNat (f.sent .server)⟩

@[simp] theorem seq_wrapped (f : UnboundedFlow) (s : Side) :
    f.wrapped.seq s = UInt32.ofNat (f.sent s) := by
  cases s <;> rfl

@[simp] theorem endpoint_wrapped (f : UnboundedFlow) (s : Side) :
    f.wrapped.endpoint s = f.endpoint s := by
  cases s <;> rfl

theorem sender_wrapped (f : UnboundedFlow) (d : Direction) : f.wrapped.sender d = f.sender d := by
  cases d <;> cases h : f.localIsServer <;> simp [Flow.sender, sender, wrapped, h]

theorem segment_wrapped (f : UnboundedFlow) (s : Side) (flags : TcpFlags) (seq ack : Nat) :
    (f.segment s flags seq ack).wrapped =
      f.wrapped.segment s flags (UInt32.ofNat seq) (UInt32.ofNat ack) := by
  simp [segment, UnboundedSegment.wrapped, Flow.segment]

theorem wrapped_advance (f : UnboundedFlow) (s : Side) (n : Nat) :
    (f.advance s n).wrapped = f.wrapped.setSeq (UInt32.ofNat (f.sent s + n)) s := by
  cases s <;> simp [advance, wrapped, Flow.setSeq]

end UnboundedFlow

/-- A flow as it would be if its counters had never wrapped. -/
def Flow.unwrapped (f : Flow) : UnboundedFlow :=
  ⟨f.endpoint, f.localIsServer, fun s => (f.seq s).toNat⟩

theorem Flow.wrapped_unwrapped (f : Flow) : f.unwrapped.wrapped = f := by
  simp [Flow.unwrapped, UnboundedFlow.wrapped, Flow.endpoint, Flow.seq]

end Wiretap
