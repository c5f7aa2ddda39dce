import Wiretap.Packet

/-! The bookkeeping of one TCP flow. Each side has a counter, the sequence number that it sends next,
and acknowledges the counter of the other; counters wrap at 2^32. From the counters come the headers
of the segments that the two sides would have sent: the handshake, data with its acknowledgment, the
closing sequence and a reset. -/

namespace Wiretap

/-- Which way a payload travels, as seen from the capturing end. -/
inductive Direction
  | outbound
  | inbound
deriving DecidableEq, Repr

namespace Direction

def opposite : Direction → Direction
  | outbound => inbound
  | inbound => outbound

end Direction

/-- The role of one end of a flow. -/
inductive Side
  | client
  | server
deriving DecidableEq, Repr

namespace Side

def opposite : Side → Side
  | client => server
  | server => client

theorem opposite_opposite (s : Side) : s.opposite.opposite = s := by cases s <;> rfl

theorem opposite_ne (s : Side) : s.opposite ≠ s := by cases s <;> decide

end Side

/-- The header of a segment. -/
structure Segment where
  sender : Side
  src : Endpoint
  dst : Endpoint
  flags : TcpFlags
  seq : UInt32
  ack : UInt32
deriving DecidableEq, Repr

/-- The segment as a packet with a payload. -/
def Segment.packet (s : Segment) (payload : Bytes) : Packet :=
  .tcp s.src s.dst s.seq s.ack s.flags payload

/-- A data segment and the receiver's acknowledgment of it. -/
structure Exchange where
  data : Segment
  ack : Segment
deriving DecidableEq, Repr

structure Flow where
  client : Endpoint
  server : Endpoint
  localIsServer : Bool
  clientSeq : UInt32 := 0
  serverSeq : UInt32 := 0
deriving DecidableEq, Repr

namespace Flow

/-- The side whose bytes travel in a direction. -/
def sender (f : Flow) : Direction → Side
  | .outbound => if f.localIsServer then .server else .client
  | .inbound => if f.localIsServer then .client else .server

def seq (f : Flow) : Side → UInt32
  | .client => f.clientSeq
  | .server => f.serverSeq

/-- A side acknowledges what the other has sent. -/
def ack (f : Flow) (s : Side) : UInt32 := f.seq s.opposite

def setSeq (f : Flow) (n : UInt32) : Side → Flow
  | .client => { f with clientSeq := n }
  | .server => { f with serverSeq := n }

def endpoint (f : Flow) : Side → Endpoint
  | .client => f.client
  | .server => f.server

/-- A segment from one side to the other. -/
def segment (f : Flow) (sender : Side) (flags : TcpFlags) (seq ack : UInt32) : Segment :=
  ⟨sender, f.endpoint sender, f.endpoint sender.opposite, flags, seq, ack⟩

/-- So many payload bytes travel in a direction: a segment with the sender's counter before them, and
the receiver's acknowledgment of its end. -/
def send (f : Flow) (d : Direction) (length : UInt32) : Exchange × Flow :=
  let sender := f.sender d
  let receiver := sender.opposite
  let seq := f.seq sender
  let ack := f.seq receiver
  (⟨f.segment sender .ack seq ack, f.segment receiver .ack ack (seq + length)⟩,
    f.setSeq (seq + length) sender)

/-- SYN, SYN+ACK, ACK, opened by the client whichever end is local. Both counters end at one. -/
def handshake (f : Flow) : List Segment × Flow :=
  ([f.segment .client .syn 0 0, f.segment .server .synAck 0 1, f.segment .client .ack 1 1],
    { f with clientSeq := 1, serverSeq := 1 })

/-- FIN+ACK from the initiator, FIN+ACK back, the last ACK. A FIN takes one sequence number. -/
def close (f : Flow) (initiator : Side) : List Segment × Flow :=
  let responder := initiator.opposite
  let seq := f.seq initiator
  let ack := f.seq responder
  ([f.segment initiator .finAck seq ack, f.segment responder .finAck ack seq,
      f.segment initiator .ack (seq + 1) (ack + 1)],
    (f.setSeq (seq + 1) initiator).setSeq (ack + 1) responder)

/-- RST+ACK from the initiator at the current counters. -/
def reset (f : Flow) (initiator : Side) : Segment :=
  f.segment initiator .rstAck (f.seq initiator) (f.ack initiator)

@[simp] theorem seq_setSeq_same (f : Flow) (n : UInt32) (s : Side) : (f.setSeq n s).seq s = n := by
  cases s <;> rfl

@[simp] theorem seq_setSeq_opposite (f : Flow) (n : UInt32) (s : Side) :
    (f.setSeq n s).seq s.opposite = f.seq s.opposite := by
  cases s <;> rfl

@[simp] theorem endpoint_setSeq (f : Flow) (n : UInt32) (s t : Side) :
    (f.setSeq n s).endpoint t = f.endpoint t := by
  cases s <;> cases t <;> rfl

end Flow

end Wiretap
