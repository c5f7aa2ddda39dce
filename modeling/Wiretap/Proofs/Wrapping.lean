import Wiretap.Proofs.Deeds
import Wiretap.UnboundedFlow

/-! Counters that wrap. A flow is told of handshakes, data, closes and resets in any order and number. All
that it answers is what a flow with unbounded counters answers, with the numbers taken modulo 2^32, and
its counters are those of the unbounded flow modulo 2^32. One call of either flow is related to one call of
the other, and runs follow from that. Whatever it is told, the ends of a flow stay what they are. -/

namespace Wiretap

/-- One call on a flow. -/
inductive FlowCall
  | handshake
  | send (d : Direction) (length : UInt32)
  | close (initiator : Side)
  | reset (initiator : Side)
deriving DecidableEq, Repr

namespace UnboundedFlow

/-- The segments that a call gives, and the flow after it. -/
def call (u : UnboundedFlow) : FlowCall → List UnboundedSegment × UnboundedFlow
  | .handshake => u.handshake
  | .send d length => ([(u.send d length.toNat).1.1, (u.send d length.toNat).1.2],
      (u.send d length.toNat).2)
  | .close initiator => u.close initiator
  | .reset initiator => ([u.reset initiator], u)

/-- The segments of each of a number of calls, the first call first, and the flow after them. -/
def follow (u : UnboundedFlow) : List FlowCall → List (List UnboundedSegment) × UnboundedFlow
  | [] => ([], u)
  | c :: calls =>
    let rest := (u.call c).2.follow calls
    ((u.call c).1 :: rest.1, rest.2)

end UnboundedFlow

namespace Flow

/-- The segments that a call gives, and the flow after it. -/
def call (f : Flow) : FlowCall → List Segment × Flow
  | .handshake => f.handshake
  | .send d length => ([(f.send d length).1.data, (f.send d length).1.ack], (f.send d length).2)
  | .close initiator => f.close initiator
  | .reset initiator => ([f.reset initiator], f)

/-- The segments of each of a number of calls, the first call first, and the flow after them. -/
def follow (f : Flow) : List FlowCall → List (List Segment) × Flow
  | [] => ([], f)
  | c :: calls =>
    let rest := (f.call c).2.follow calls
    ((f.call c).1 :: rest.1, rest.2)

end Flow

/-! ### Calls of both flows -/

namespace UnboundedFlow

variable (u : UnboundedFlow)

/-- Both sides opened. -/
theorem wrapped_handshake :
    u.wrapped.handshake = (u.handshake.1.map UnboundedSegment.wrapped, u.handshake.2.wrapped) := by
  simp only [Flow.handshake, handshake, List.map_cons, List.map_nil, segment_wrapped]
  rfl

theorem wrapped_send (d : Direction) (length : UInt32) :
    u.wrapped.send d length =
      (⟨(u.send d length.toNat).1.1.wrapped, (u.send d length.toNat).1.2.wrapped⟩,
        (u.send d length.toNat).2.wrapped) := by
  have hnext : UInt32.ofNat (u.sent (u.sender d) + length.toNat) =
      UInt32.ofNat (u.sent (u.sender d)) + length := by
    rw [UInt32.ofNat_add, UInt32.ofNat_toNat]
  simp only [Flow.send, send, segment_wrapped, wrapped_advance, sender_wrapped, seq_wrapped]
  simp [advance, hnext]

theorem sent_close (initiator s : Side) : (u.close initiator).2.sent s = u.sent s + 1 := by
  cases initiator <;> cases s <;> simp [close, advance, Side.opposite]

theorem wrapped_close (initiator : Side) :
    u.wrapped.close initiator =
      ((u.close initiator).1.map UnboundedSegment.wrapped, (u.close initiator).2.wrapped) := by
  have hresponder : (u.advance initiator 1).sent initiator.opposite = u.sent initiator.opposite :=
    if_neg initiator.opposite_ne
  have hafter : (u.close initiator).2.wrapped =
      (u.wrapped.setSeq (.ofNat (u.sent initiator + 1)) initiator).setSeq
        (.ofNat (u.sent initiator.opposite + 1)) initiator.opposite := by
    change ((u.advance initiator 1).advance initiator.opposite 1).wrapped = _
    rw [wrapped_advance, wrapped_advance, hresponder]
  have hlast : (u.close initiator).1 =
      [u.segment initiator .finAck (u.sent initiator) (u.sent initiator.opposite),
        u.segment initiator.opposite .finAck (u.sent initiator.opposite) (u.sent initiator),
        u.segment initiator .ack (u.sent initiator + 1) (u.sent initiator.opposite + 1)] := by
    rw [← sent_close u initiator initiator, ← sent_close u initiator initiator.opposite]
    rfl
  rw [hafter, hlast, Flow.close]
  simp only [List.map_cons, List.map_nil, segment_wrapped, seq_wrapped, UInt32.ofNat_add]
  rfl

theorem wrapped_reset (initiator : Side) :
    u.wrapped.reset initiator = (u.reset initiator).wrapped := by
  rw [reset, segment_wrapped, Flow.reset, Flow.ack, seq_wrapped, seq_wrapped]

/-- **A call of a flow is the call of the unbounded flow**, with all numbers wrapped. -/
theorem wrapped_call (c : FlowCall) :
    u.wrapped.call c = ((u.call c).1.map UnboundedSegment.wrapped, (u.call c).2.wrapped) := by
  cases c with
  | handshake => exact u.wrapped_handshake
  | send d length =>
      rw [Flow.call, wrapped_send]
      rfl
  | close initiator => exact u.wrapped_close initiator
  | reset initiator =>
      rw [Flow.call, wrapped_reset]
      rfl

/-- Whatever has been counted so far, a run of calls is the run of the unbounded flow. -/
theorem wrapped_follow (calls : List FlowCall) :
    u.wrapped.follow calls =
      ((u.follow calls).1.map (List.map UnboundedSegment.wrapped), (u.follow calls).2.wrapped) := by
  induction calls generalizing u with
  | nil => rfl
  | cons c calls ih =>
      rw [Flow.follow, wrapped_call]
      dsimp only
      rw [ih]
      rfl

end UnboundedFlow

/-! ### What calls leave as it is -/

namespace Flow

/-- A segment goes from the end of its sender to that of the other side. -/
def Carries (f : Flow) (x : Segment) : Prop :=
  x.src = f.endpoint x.sender ∧ x.dst = f.endpoint x.sender.opposite

/-- What a call does to the counters: only the sender's goes on with data, both do at the end, none does
with a reset, and a handshake begins anew. -/
def Advances (f : Flow) : FlowCall → Flow → Prop
  | .handshake, g => ∀ s, g.seq s = 1
  | .send d length, g =>
    g.seq (f.sender d) = f.seq (f.sender d) + length ∧
      g.seq (f.sender d).opposite = f.seq (f.sender d).opposite
  | .close _, g => ∀ s, g.seq s = f.seq s + 1
  | .reset _, g => ∀ s, g.seq s = f.seq s

theorem segment_carries (f : Flow) (s : Side) (flags : TcpFlags) (seq ack : UInt32) :
    f.Carries (f.segment s flags seq ack) :=
  ⟨rfl, rfl⟩

theorem call_sameEnds (f : Flow) (c : FlowCall) : f.SameEnds (f.call c).2 := by
  cases c with
  | handshake => exact ⟨rfl, rfl, rfl⟩
  | send d length => exact f.sameEnds_setSeq _ _
  | close initiator => exact f.sameEnds_close initiator
  | reset initiator => exact .refl f

theorem call_carries (f : Flow) (c : FlowCall) : ∀ x ∈ (f.call c).1, f.Carries x := by
  cases c <;> simp [call, handshake, send, close, reset, segment_carries]

theorem close_seq (f : Flow) (initiator s : Side) :
    (f.close initiator).2.seq s = f.seq s + 1 := by
  cases initiator <;> cases s <;> rfl

theorem call_advances (f : Flow) (c : FlowCall) : f.Advances c (f.call c).2 := by
  cases c with
  | handshake => exact fun s => by cases s <;> rfl
  | send d length => exact ⟨seq_setSeq_same _ _ _, seq_setSeq_opposite _ _ _⟩
  | close initiator => exact f.close_seq initiator
  | reset initiator => exact fun _ => rfl

theorem SameEnds.carries {f g : Flow} (h : f.SameEnds g) {x : Segment} (hx : g.Carries x) :
    f.Carries x :=
  ⟨hx.1.trans (h.endpoint _), hx.2.trans (h.endpoint _)⟩

theorem follow_sameEnds (f : Flow) (calls : List FlowCall) : f.SameEnds (f.follow calls).2 := by
  induction calls generalizing f with
  | nil => exact .refl f
  | cons c calls ih => exact (f.call_sameEnds c).trans (ih _)

theorem follow_carries (f : Flow) (calls : List FlowCall) :
    ∀ x ∈ (f.follow calls).1.flatten, f.Carries x := by
  induction calls generalizing f with
  | nil => exact List.forall_mem_nil _
  | cons c calls ih =>
      intro x hx
      rw [follow, List.flatten_cons, List.mem_append] at hx
      rcases hx with hx | hx
      · exact f.call_carries c x hx
      · exact (f.call_sameEnds c).carries (ih _ x hx)

/-- **Wrapping counters stand for unbounded ones.** Told anything in any order and number, a flow answers
what the flow answers whose counters began with the same numbers and never wrapped, each number modulo
2^32, and its counters are the unbounded ones modulo 2^32. A side acknowledges what the other has sent,
every segment goes from its sender's end to the other, and the ends and their roles stay. Wherever the run
has got to, the next call changes the counters only as it should. -/
theorem counters_wrapped (f : Flow) (calls : List FlowCall) :
    let run := f.follow calls
    let reference := f.unwrapped.follow calls
    run.1 = reference.1.map (List.map UnboundedSegment.wrapped) ∧
      (∀ s, (run.2.seq s).toNat = reference.2.sent s % UInt32.size) ∧
      (∀ s, run.2.ack s = run.2.seq s.opposite) ∧
      (∀ x ∈ run.1.flatten, f.Carries x) ∧
      f.SameEnds run.2 ∧
      ∀ next, run.2.Advances next (run.2.call next).2 := by
  intro run reference
  have hrun : run = (reference.1.map (List.map UnboundedSegment.wrapped), reference.2.wrapped) := by
    have hfollow := f.unwrapped.wrapped_follow calls
    rwa [f.wrapped_unwrapped] at hfollow
  refine ⟨congrArg Prod.fst hrun, ?_, fun _ => rfl, f.follow_carries calls,
    f.follow_sameEnds calls, run.2.call_advances⟩
  intro s
  calc
    (run.2.seq s).toNat = (reference.2.wrapped.seq s).toNat := by rw [hrun]
    _ = (UInt32.ofNat (reference.2.sent s)).toNat := by rw [UnboundedFlow.seq_wrapped]
    _ = reference.2.sent s % UInt32.size := UInt32.toNat_ofNat'

/-- The far end is the client. -/
def longFlow : Flow := ⟨⟨⟨10, 0, 0, 1⟩, 4000⟩, ⟨⟨10, 0, 0, 2⟩, 80⟩, true, 0, 0⟩

/-- The last data lies across the end of the numbers. -/
theorem counters_wrapped_straddling :
    let calls := [.handshake, .send .inbound 4294967293, .send .inbound 8]
    let run := longFlow.follow calls
    (longFlow.unwrapped.follow calls).2.sent .client = 4294967302 ∧
      (run.2.seq .client).toNat = 6 ∧ run.2.ack .server = run.2.seq .client ∧
      (run.1.map fun segments => segments.map fun x => (x.seq, x.ack)) =
        [[(0, 0), (0, 1), (1, 1)], [(1, 1), (1, 4294967294)], [(4294967294, 1), (1, 6)]] := by
  intro calls run
  obtain ⟨-, hseq, hack, -, -, -⟩ := counters_wrapped longFlow calls
  have hsent : (longFlow.unwrapped.follow calls).2.sent .client = 4294967302 := by decide
  refine ⟨hsent, ?_, hack .server, by decide⟩
  calc
    (run.2.seq .client).toNat = (longFlow.unwrapped.follow calls).2.sent .client % UInt32.size :=
      hseq .client
    _ = 4294967302 % UInt32.size := by rw [hsent]
    _ = 6 := rfl

end Flow

end Wiretap
