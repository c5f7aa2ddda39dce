import Wiretap.Proofs.Lifecycle

/-! A TCP conversation as it is recorded. From the events alone it is said which bytes travelled while
the session was writing and where in the stream of their side each piece stands; a run records exactly
the segments that this account calls for, whose sequence numbers are the positions modulo 2^32, and
the counters of the flow follow the account through every payload, recorded or not. -/

namespace Wiretap

/-- The events of a connection that is neither opened nor ended. -/
def Event.isTalk : Event → Bool
  | .payload _ _ => true
  | .shutdown _ => true
  | .pause => true
  | .resume => true
  | _ => false

/-- One data segment that a side sent: how many bytes that side had sent before it, how many the other
side had sent by then, and what it carries. -/
structure Transfer where
  sender : Side
  before : Nat
  received : Nat
  payload : Bytes
deriving DecidableEq, Repr

namespace Transfer

/-- The data segment and the acknowledgment of it. Both streams begin at sequence number one. -/
def packets (flow : Flow) (t : Transfer) : List Packet :=
  [.tcp (flow.endpoint t.sender) (flow.endpoint t.sender.opposite) (.ofNat (1 + t.before))
      (.ofNat (1 + t.received)) .ack t.payload,
    .tcp (flow.endpoint t.sender.opposite) (flow.endpoint t.sender) (.ofNat (1 + t.received))
      (.ofNat (1 + t.before + t.payload.length)) .ack []]

/-- Parts that a side sends one after another. -/
def series (sender : Side) (before received : Nat) : List Bytes → List Transfer
  | [] => []
  | part :: parts =>
    ⟨sender, before, received, part⟩ :: series sender (before + part.length) received parts

end Transfer

/-- How many payload bytes a side has sent in some events, recorded or not. -/
def observed (flow : Flow) (side : Side) : List Event → Nat
  | [] => 0
  | .payload d data :: rest =>
    (if flow.sender d = side then data.size else 0) + observed flow side rest
  | _ :: rest => observed flow side rest

/-- The last pause or resumption among the events was a pause. -/
def paused (events : List Event) : Bool :=
  events.foldl (fun paused e =>
    match e with
    | .pause => true
    | .resume => false
    | _ => paused) false

/-- The transfers that an event is recorded as, after some events before it. -/
def transfersOf (flow : Flow) (zeroBytes : Bool) (before : List Event) : Event → List Transfer
  | .payload d data =>
    if paused before ∨ (data.isEmpty ∧ zeroBytes = false) then []
    else
      let sender := flow.sender d
      Transfer.series sender (observed flow sender before) (observed flow sender.opposite before)
        ((pieces data).map fun p => p.data.toList)
  | _ => []

/-- The transfers that events are recorded as, after some events before them. -/
def transfers (flow : Flow) (zeroBytes : Bool) : List Event → List Event → List Transfer
  | _, [] => []
  | before, e :: rest =>
    transfersOf flow zeroBytes before e ++ transfers flow zeroBytes (before ++ [e]) rest

/-- The side that stopped sending first, as far as the events tell. -/
def firstToStop? (flow : Flow) (events : List Event) : Option Side :=
  events.findSome? fun e =>
    match e with
    | .shutdown d => some (flow.sender d)
    | _ => none

/-- A segment without payload that a side sends past all the bytes of some events. -/
def parting (flow : Flow) (events : List Event) (flags : TcpFlags) (sender : Side) (past : Nat) :
    Packet :=
  .tcp (flow.endpoint sender) (flow.endpoint sender.opposite)
    (.ofNat (past + observed flow sender events))
    (.ofNat (past + observed flow sender.opposite events)) flags []

/-- How the end of a conversation is recorded: with a reset if the connection failed, with the closing
sequence otherwise, and not at all while the session is paused. The side that stopped first comes
first, or the client. -/
def farewell (flow : Flow) (events : List Event) (failed : Bool) : List Packet :=
  let side := (firstToStop? flow events).getD .client
  if paused events then []
  else if failed then [parting flow events .rstAck side 1]
  else
    [parting flow events .finAck side 1, parting flow events .finAck side.opposite 1,
      parting flow events .ack side 2]

/-- The bytes that a side sends while the session is writing, in events after some others. -/
def spoken (flow : Flow) (side : Side) : List Event → List Event → Bytes
  | _, [] => []
  | before, .payload d data :: rest =>
    (if flow.sender d = side ∧ paused before = false then data.data.toList else []) ++
      spoken flow side (before ++ [.payload d data]) rest
  | before, e :: rest => spoken flow side (before ++ [e]) rest

/-! ### The account -/

section

variable (flow : Flow)

theorem observed_append (side : Side) (events more : List Event) :
    observed flow side (events ++ more) = observed flow side events + observed flow side more := by
  induction events with
  | nil => exact (Nat.zero_add _).symm
  | cons e events ih =>
      cases e with
      | payload d data => rw [List.cons_append, observed, observed, ih, Nat.add_assoc]
      | _ => exact ih

theorem paused_concat (events : List Event) (e : Event) :
    paused (events ++ [e]) =
      match e with
      | .pause => true
      | .resume => false
      | _ => paused events := by
  rw [paused, List.foldl_append]
  rfl

theorem firstToStop?_append (events more : List Event) :
    firstToStop? flow (events ++ more) = (firstToStop? flow events).or (firstToStop? flow more) :=
  List.findSome?_append

theorem series_payloads (sender : Side) (before received : Nat) (parts : List Bytes) :
    (Transfer.series sender before received parts).flatMap Transfer.payload = parts.flatten := by
  induction parts generalizing before with
  | nil => rfl
  | cons part parts ih => rw [Transfer.series, List.flatMap_cons, ih, List.flatten_cons]

theorem series_sender {sender : Side} {before received : Nat} {parts : List Bytes} {t : Transfer}
    (ht : t ∈ Transfer.series sender before received parts) : t.sender = sender := by
  induction parts generalizing before with
  | nil => cases ht
  | cons part parts ih =>
      rcases List.mem_cons.mp ht with rfl | ht
      · rfl
      · exact ih ht

theorem transfersOf_payloads (zeroBytes : Bool) (side : Side) (before : List Event) (d : Direction)
    (data : ByteArray) :
    ((transfersOf flow zeroBytes before (.payload d data)).filter fun t =>
        t.sender = side).flatMap Transfer.payload =
      if flow.sender d = side ∧ paused before = false then data.data.toList else [] := by
  rw [transfersOf]
  by_cases hpaused : paused before = true
  · rw [if_pos (.inl hpaused), if_neg (by simp [hpaused])]
    rfl
  by_cases hskips : data.isEmpty = true ∧ zeroBytes = false
  · have hempty : data.data.toList = [] := by
      apply List.eq_nil_of_length_eq_zero
      rw [toList_length]
      exact (isEmpty_iff_size data).mp hskips.1
    rw [if_pos (.inr hskips), hempty, ite_self]
    rfl
  rw [if_neg (not_or.mpr ⟨hpaused, hskips⟩)]
  by_cases hside : flow.sender d = side
  · rw [if_pos ⟨hside, Bool.eq_false_iff.mpr hpaused⟩, List.filter_eq_self.mpr, series_payloads]
    · rw [← List.flatMap_def, pieces_flatMap]
    · intro t ht
      simp [series_sender ht, hside]
  · rw [if_neg fun h => hside h.1, List.filter_eq_nil_iff.mpr]
    · rfl
    · intro t ht
      simp [series_sender ht, hside]

/-- What is recorded of one side is what it sent while the session was writing. -/
theorem transfers_payloads (zeroBytes : Bool) (side : Side) (before events : List Event) :
    ((transfers flow zeroBytes before events).filter fun t => t.sender = side).flatMap
      Transfer.payload = spoken flow side before events := by
  induction events generalizing before with
  | nil => rfl
  | cons e events ih =>
      rw [transfers, List.filter_append, List.flatMap_append, ih]
      cases e with
      | payload d data => rw [spoken, transfersOf_payloads]
      | _ => rfl

end

/-! ### Sending -/

namespace Flow

@[simp] theorem sender_setSeq (f : Flow) (n : UInt32) (side : Side) (d : Direction) :
    (f.setSeq n side).sender d = f.sender d := by
  cases side <;> cases d <;> rfl

theorem setSeq_setSeq (f : Flow) (m n : UInt32) (side : Side) :
    (f.setSeq m side).setSeq n side = f.setSeq n side := by
  cases side <;> rfl

theorem setSeq_seq (f : Flow) (side : Side) : f.setSeq (f.seq side) side = f := by
  cases side <;> rfl

theorem packets_setSeq (f : Flow) (n : UInt32) (side : Side) :
    Transfer.packets (f.setSeq n side) = Transfer.packets f := by
  funext t
  simp [Transfer.packets]

/-- The segments of a series of parts stand where the counters of the flow say, and the counter of the
sender moves by all of them. -/
theorem sendAll_series (d : Direction) (parts : List ByteArray) (f : Flow) (before received : Nat)
    (hbefore : f.seq (f.sender d) = .ofNat (1 + before))
    (hreceived : f.seq (f.sender d).opposite = .ofNat (1 + received)) :
    (f.sendAll d parts).1.flatMap SentPiece.packets =
        (Transfer.series (f.sender d) before received
          (parts.map fun p => p.data.toList)).flatMap (Transfer.packets f) ∧
      (f.sendAll d parts).2 =
        f.setSeq (.ofNat (1 + before + (parts.flatMap fun p => p.data.toList).length))
          (f.sender d) := by
  induction parts generalizing f before with
  | nil =>
      refine ⟨rfl, ?_⟩
      rw [List.flatMap_nil, List.length_nil, Nat.add_zero, ← hbefore, setSeq_seq]
      rfl
  | cons part parts ih =>
      have hnext : f.seq (f.sender d) + .ofNat part.size = .ofNat (1 + (before + part.size)) := by
        rw [hbefore, ← UInt32.ofNat_add, Nat.add_assoc]
      obtain ⟨hpackets, hflow⟩ := ih (f.setSeq (.ofNat (1 + (before + part.size))) (f.sender d))
        (before + part.size) (by simp) (by simpa using hreceived)
      rw [sendAll, send, hnext]
      dsimp only
      rw [sender_setSeq] at hpackets hflow
      refine ⟨?_, ?_⟩
      · rw [List.flatMap_cons, hpackets, packets_setSeq, List.map_cons, Transfer.series,
          List.flatMap_cons, toList_length]
        congr 1
        simp only [SentPiece.packets, Segment.packet, segment, Transfer.packets,
          Side.opposite_opposite, hbefore, hreceived, toList_length, Nat.add_assoc]
      · rw [hflow, setSeq_setSeq, List.flatMap_cons, List.length_append, toList_length]
        congr 2
        omega

end Flow

/-! ### Hearing -/

/-- The counters of a flow are at the positions that some events have brought them to. -/
structure Flow.Counts (flow : Flow) (before : List Event) (f : Flow) : Prop where
  endpoint : ∀ side, f.endpoint side = flow.endpoint side
  sender : ∀ d, f.sender d = flow.sender d
  seq : ∀ side, f.seq side = .ofNat (1 + observed flow side before)

/-- The session has been open on a flow since it was told some events. -/
structure Session.Hears (options : Options) (flow : Flow) (before : List Event) (s : Session) :
    Prop where
  options : s.options = options
  phase : s.phase = if paused before then .paused else .writing
  holds : s.holdsSink = true
  initiator : s.initiator = firstToStop? flow before
  channel : ∃ f, s.channel = some (.tcp f) ∧ flow.Counts before f

theorem Flow.Counts.packets {flow f : Flow} {before : List Event} (h : flow.Counts before f) :
    Transfer.packets f = Transfer.packets flow := by
  funext t
  simp only [Transfer.packets, h.endpoint]

/-- Events that carry no payload leave the counters where they are. -/
theorem Flow.Counts.quiet {flow f : Flow} {before : List Event} {e : Event}
    (h : flow.Counts before f) (he : ∀ side, observed flow side [e] = 0) :
    flow.Counts (before ++ [e]) f := by
  refine ⟨h.endpoint, h.sender, ?_⟩
  intro side
  rw [observed_append, he, Nat.add_zero]
  exact h.seq side

theorem Flow.Counts.sends {flow f : Flow} {before : List Event} (h : flow.Counts before f)
    (d : Direction) (data : ByteArray) :
    flow.Counts (before ++ [.payload d data]) (f.sendAll d (pieces data)).2 ∧
      (f.sendAll d (pieces data)).1.flatMap SentPiece.packets =
        (Transfer.series (flow.sender d) (observed flow (flow.sender d) before)
          (observed flow (flow.sender d).opposite before)
          ((pieces data).map fun p => p.data.toList)).flatMap (Transfer.packets flow) := by
  obtain ⟨hpackets, hflow⟩ := f.sendAll_series d (pieces data)
    (observed flow (flow.sender d) before) (observed flow (flow.sender d).opposite before)
    (by rw [h.sender, h.seq]) (by rw [h.sender, h.seq])
  rw [h.sender] at hpackets hflow
  rw [hpackets, hflow, h.packets, pieces_flatMap, toList_length]
  refine ⟨⟨?_, ?_, ?_⟩, rfl⟩
  · intro side
    rw [Flow.endpoint_setSeq, h.endpoint]
  · intro d'
    rw [Flow.sender_setSeq, h.sender]
  · intro side
    rw [observed_append]
    by_cases hside : flow.sender d = side
    · rw [← hside, Flow.seq_setSeq_same]
      simp [observed, Nat.add_assoc]
    · have hopposite : side = (flow.sender d).opposite := by
        cases side <;> cases hsender : flow.sender d <;> simp_all [Side.opposite]
      rw [hopposite, Flow.seq_setSeq_opposite, h.seq]
      simp [observed, (Side.opposite_ne (flow.sender d)).symm]

namespace Session

variable {options : Options} {flow : Flow} {before : List Event} {s : Session}

theorem planPayload_active {f : Flow} (d : Direction) (data : ByteArray)
    (hphase : s.phase = .writing ∨ s.phase = .paused) (hchannel : s.channel = some (.tcp f)) :
    s.planPayload d data = if s.skips data then s.planNothing else s.planTcp d data f := by
  have hinit : s.phase ≠ .init := by rcases hphase with h | h <;> simp [h]
  have hclosed : s.phase ≠ .closed := by rcases hphase with h | h <;> simp [h]
  have hactive : s.planEnsureActive = s.planNothing := by
    rw [planEnsureActive, if_neg fun h => hinit h.1]
  rw [planPayload, hactive]
  simp only [Plan.andThen, planNothing, List.nil_append, planHeard, hinit, hclosed, false_or, hchannel]

theorem planTcp_paused {f : Flow} (d : Direction) (data : ByteArray) (hphase : s.phase = .paused) :
    s.planTcp d data f = planNothing { s with channel := some (.tcp (f.sendAll d (pieces data)).2) } := by
  simp [planTcp, isWriting, hphase]

theorem planTcp_writing {f : Flow} (d : Direction) (data : ByteArray) (hphase : s.phase = .writing) :
    s.planTcp d data f =
      planBatch ((f.sendAll d (pieces data)).1.flatMap SentPiece.packets)
        { s with channel := some (.tcp (f.sendAll d (pieces data)).2) } := by
  simp [planTcp, isWriting, hphase]

theorem finish_packets (s : Session) : s.planFinish.acts.flatMap Act.packets = [] := by
  unfold planFinish
  split
  · rw [lastActs]
    cases s.headerOwed <;> rfl
  · rfl

/-- A last batch of segments, if the session is writing, and the end. -/
theorem batch_finish_packets {s : Session} (segments : List Segment) (hholds : s.holdsSink = true) :
    ((s.planBatch (barePackets segments)).andThen planFinish).acts.flatMap Act.packets =
      barePackets segments := by
  rw [Plan.andThen, List.flatMap_append, finish_packets, planBatch_acts, hholds]
  simp [Act.packets]

namespace Hears

theorem active (h : s.Hears options flow before) : s.phase = .writing ∨ s.phase = .paused := by
  rw [h.phase]
  cases paused before with
  | true => exact .inr rfl
  | false => exact .inl rfl

theorem ne_closed (h : s.Hears options flow before) : s.phase ≠ .closed := by
  rcases h.active with hphase | hphase <;> rw [hphase] <;> exact Phase.noConfusion

theorem isWriting_eq (h : s.Hears options flow before) : s.isWriting = !paused before := by
  rw [isWriting, h.phase]
  cases paused before <;> rfl

/-- An event that asks nothing of the sink and leaves the flow as it is. -/
theorem quiet {e : Event} {after : Session} (h : s.Hears options flow before)
    (he : ∀ side, observed flow side [e] = 0) (hoptions : after.options = s.options)
    (hphase : after.phase = if paused (before ++ [e]) then .paused else .writing)
    (hholds : after.holdsSink = s.holdsSink)
    (hinitiator : after.initiator = s.initiator.or (firstToStop? flow [e]))
    (hchannel : after.channel = s.channel) : after.Hears options flow (before ++ [e]) := by
  obtain ⟨f, hf, hcounts⟩ := h.channel
  refine ⟨hoptions.trans h.options, hphase, hholds.trans h.holds, ?_, f, hchannel.trans hf,
    hcounts.quiet he⟩
  rw [hinitiator, h.initiator, firstToStop?_append]

/-- A payload that is recorded or counted. -/
theorem sends {f : Flow} (h : s.Hears options flow before) (hcounts : flow.Counts before f)
    (d : Direction) (data : ByteArray) :
    (s.planTcp d data f).acts.flatMap Act.packets =
        (if paused before then []
          else (f.sendAll d (pieces data)).1.flatMap SentPiece.packets) ∧
      (s.planTcp d data f).session.Hears options flow (before ++ [.payload d data]) := by
  have hphase := h.phase
  have hafter := (hcounts.sends d data).1
  cases hpaused : paused before with
  | true =>
      rw [hpaused, if_pos rfl] at hphase
      rw [planTcp_paused d data hphase]
      refine ⟨rfl, h.options, ?_, h.holds, ?_, _, rfl, hafter⟩
      · rw [paused_concat, hpaused]
        exact hphase
      · rw [firstToStop?_append, ← h.initiator]
        exact (Option.or_none).symm
  | false =>
      rw [hpaused, if_neg Bool.false_ne_true] at hphase
      rw [planTcp_writing d data hphase]
      refine ⟨?_, ?_, ?_, ?_, ?_, _, planBatch_channel _ _, hafter⟩
      · rw [planBatch_acts, h.holds]
        simp [Act.packets]
      · rw [planBatch_options, h.options]
      · rw [planBatch_phase, paused_concat, hpaused]
        exact hphase
      · rw [planBatch_holdsSink, h.holds]
      · rw [planBatch_initiator, firstToStop?_append, ← h.initiator]
        exact (Option.or_none).symm

theorem payload (h : s.Hears options flow before) (d : Direction) (data : ByteArray) :
    (s.planPayload d data).acts.flatMap Act.packets =
        (transfersOf flow options.zeroBytes before (.payload d data)).flatMap
          (Transfer.packets flow) ∧
      (s.planPayload d data).session.Hears options flow (before ++ [.payload d data]) := by
  obtain ⟨f, hf, hcounts⟩ := h.channel
  rw [planPayload_active d data h.active hf, transfersOf]
  by_cases hskips : s.skips data = true
  · have hempty : data.isEmpty = true ∧ options.zeroBytes = false := by
      simpa [skips, h.options] using hskips
    rw [if_pos hskips, if_pos (.inr hempty)]
    refine ⟨rfl, h.quiet ?_ rfl ?_ rfl Option.or_none.symm rfl⟩
    · intro side
      simp [observed, (isEmpty_iff_size data).mp hempty.1]
    · rw [paused_concat]
      exact h.phase
  have hfull : ¬(data.isEmpty = true ∧ options.zeroBytes = false) := by
    simpa [skips, h.options] using hskips
  obtain ⟨hacts, hafter⟩ := h.sends hcounts d data
  rw [if_neg hskips]
  refine ⟨?_, hafter⟩
  rw [hacts, (hcounts.sends d data).2]
  cases paused before with
  | true => rw [if_pos rfl, if_pos (.inl rfl)]; rfl
  | false => rw [if_neg Bool.false_ne_true, if_neg (by simpa using hfull)]

theorem shutdown (h : s.Hears options flow before) (d : Direction) :
    (s.planShutdown d).acts.flatMap Act.packets = [] ∧
      (s.planShutdown d).session.Hears options flow (before ++ [.shutdown d]) := by
  obtain ⟨f, hf, hcounts⟩ := h.channel
  have hphase : s.phase = if paused (before ++ [.shutdown d]) then .paused else .writing := by
    rw [paused_concat]
    exact h.phase
  unfold planShutdown
  rw [s.flow?_eq_some_iff.mpr hf]
  cases hinitiator : s.initiator with
  | none =>
      refine ⟨rfl, h.quiet (fun side => rfl) rfl hphase rfl ?_ rfl⟩
      rw [hinitiator, Option.none_or]
      change some (f.sender d) = some (flow.sender d)
      rw [hcounts.sender]
  | some side =>
      refine ⟨rfl, h.quiet (fun side => rfl) rfl hphase rfl ?_ rfl⟩
      rw [hinitiator]
      exact hinitiator

/-- **One event of a conversation is recorded as the account says.** -/
theorem event {e : Event} (h : s.Hears options flow before) (he : e.isTalk = true) :
    (s.plan e).acts.flatMap Act.packets =
        (transfersOf flow options.zeroBytes before e).flatMap (Transfer.packets flow) ∧
      (s.plan e).session.Hears options flow (before ++ [e]) := by
  have hphase := h.phase
  cases e with
  | payload d data => exact h.payload d data
  | shutdown d => exact h.shutdown d
  | pause =>
      change s.planPause.acts.flatMap _ = _ ∧ s.planPause.session.Hears _ _ _
      unfold planPause
      split
      · refine ⟨rfl, h.quiet (fun side => rfl) rfl ?_ rfl Option.or_none.symm rfl⟩
        rw [paused_concat]
        rfl
      · refine ⟨rfl, h.quiet (fun side => rfl) rfl ?_ rfl Option.or_none.symm rfl⟩
        rw [paused_concat]
        exact h.active.resolve_left ‹_›
  | resume =>
      change s.planResume.acts.flatMap _ = _ ∧ s.planResume.session.Hears _ _ _
      unfold planResume
      split
      · refine ⟨rfl, h.quiet (fun side => rfl) rfl ?_ rfl Option.or_none.symm rfl⟩
        rw [paused_concat]
        rfl
      · refine ⟨rfl, h.quiet (fun side => rfl) rfl ?_ rfl Option.or_none.symm rfl⟩
        rw [paused_concat]
        exact h.active.resolve_right ‹_›
  | active connection => cases he
  | datagram d data peer => cases he
  | error => cases he
  | close => cases he

theorem events (h : s.Hears options flow before) (es : List Event)
    (hes : ∀ e ∈ es, e.isTalk = true) :
    (s.planAll es).acts.flatMap Act.packets =
        (transfers flow options.zeroBytes before es).flatMap (Transfer.packets flow) ∧
      (s.planAll es).session.Hears options flow (before ++ es) := by
  induction es generalizing s before with
  | nil =>
      refine ⟨rfl, ?_⟩
      rwa [List.append_nil]
  | cons e es ih =>
      obtain ⟨hacts, hafter⟩ := h.event (hes e List.mem_cons_self)
      obtain ⟨hacts', hafter'⟩ := ih hafter fun e he => hes e (List.mem_cons_of_mem _ he)
      rw [List.append_assoc] at hafter'
      refine ⟨?_, hafter'⟩
      rw [planAll, Plan.andThen, List.flatMap_append, transfers, List.flatMap_append, hacts, hacts']

/-! ### Ending -/

theorem closeInitiator_eq (h : s.Hears options flow before) :
    s.closeInitiator = (firstToStop? flow before).getD .client := by
  rw [closeInitiator, h.initiator]

theorem close (h : s.Hears options flow before) :
    s.planClose.acts.flatMap Act.packets = farewell flow before false := by
  obtain ⟨f, hf, hcounts⟩ := h.channel
  unfold planClose farewell
  rw [if_neg h.ne_closed, h.isWriting_eq, hf]
  cases paused before with
  | true => exact finish_packets s
  | false =>
      have hnext : ∀ n : Nat, (.ofNat (1 + n) + 1 : UInt32) = .ofNat (2 + n) := by
        intro n
        rw [Nat.add_comm 2 n, Nat.add_comm 1 n, UInt32.ofNat_add, UInt32.ofNat_add, UInt32.add_assoc]
        rfl
      refine (batch_finish_packets (s := { s with channel := some (.tcp (f.close _).2) })
        (f.close s.closeInitiator).1 h.holds).trans ?_
      rw [if_neg Bool.false_ne_true, if_neg Bool.false_ne_true]
      simp only [Flow.close, barePackets, List.map_cons, List.map_nil, Segment.packet, Flow.segment,
        parting, hcounts.endpoint, hcounts.seq, h.closeInitiator_eq, Side.opposite_opposite, hnext]

theorem error (h : s.Hears options flow before) :
    s.planError.acts.flatMap Act.packets = farewell flow before true := by
  obtain ⟨f, hf, hcounts⟩ := h.channel
  unfold planError farewell
  rw [if_neg h.ne_closed, h.isWriting_eq, hf]
  cases paused before with
  | true => exact finish_packets s
  | false =>
      refine (batch_finish_packets [f.reset s.closeInitiator] h.holds).trans ?_
      rw [if_neg Bool.false_ne_true, if_pos rfl]
      simp only [Flow.reset, barePackets, List.map_cons, List.map_nil, Segment.packet, Flow.segment,
        parting, Flow.ack, hcounts.endpoint, hcounts.seq, h.closeInitiator_eq]

end Hears

/-! ### Opening -/

theorem handshake_counts (flow : Flow) : flow.Counts [] flow.handshake.2 := by
  refine ⟨?_, ?_, ?_⟩
  · intro side
    cases side <;> rfl
  · intro d
    cases d <;> rfl
  · intro side
    cases side <;> rfl

/-- A session that becomes active on a flow records the handshake and settles the header. -/
theorem create_activates {connection : Option Connection}
    (hchannel : options.channel? connection = some (.tcp flow)) :
    let p := (create options).planActivate connection
    p.acts.flatMap Act.packets = barePackets flow.handshake.1 ∧ p.session.headerOwed = false ∧
      p.session.Hears options flow [] := by
  have hplan : (create options).planActivate connection = (create options).planStart (.tcp flow) := by
    unfold planActivate
    rw [if_pos (create_phase options), create_options, hchannel]
  rw [hplan, planStart]
  refine ⟨?_, ?_, ?_⟩
  · simp [Act.packets]
  · simp
  · exact ⟨by simp, by simp [paused], by simp, planBatch_initiator _ _, _, planBatch_channel _ _,
      handshake_counts flow⟩

/-- A payload that opens a session is what the opening and then the payload are. -/
theorem planPayload_opens (d : Direction) (data : ByteArray)
    (hopen : s.planEnsureActive.session.phase ≠ .init) :
    s.planPayload d data = s.planEnsureActive.andThen (planPayload d data) := by
  have hactive : s.planEnsureActive.session.planEnsureActive =
      s.planEnsureActive.session.planNothing := by
    rw [planEnsureActive, if_neg fun h => hopen h.1]
  calc
    s.planPayload d data = s.planEnsureActive.andThen (planHeard d data) := rfl
    _ = s.planEnsureActive.andThen (planPayload d data) := by
      rw [Plan.andThen, Plan.andThen, planPayload, hactive]
      rfl

end Session

/-- The events leave a session with the options where it was created: it is not active yet. -/
def Options.Sleeps (options : Options) (events : List TimedEvent) : Prop :=
  ((Session.create options).run Sink.recording events []).session.phase = .init

/-- A session with the options is opened on the flow: by word that the connection is active, or, with
ends given up front, by the first payload. -/
inductive Opens (options : Options) (flow : Flow) : List TimedEvent → List TimedEvent → Prop
  | reported (idle : List TimedEvent) (now : Timestamp) (connection : Option Connection)
      (events : List TimedEvent) (hidle : options.Sleeps idle)
      (hchannel : options.channel? connection = some (.tcp flow)) :
      Opens options flow (idle ++ [(now, .active connection)]) events
  | unreported (idle : List TimedEvent) (now : Timestamp) (d : Direction) (data : ByteArray)
      (rest : List TimedEvent) (hidle : options.Sleeps idle)
      (hchannel : options.channel? none = some (.tcp flow)) :
      Opens options flow idle ((now, .payload d data) :: rest)

namespace Session

variable {options : Options} {flow : Flow} {opening events : List TimedEvent}

theorem planAll_sleeps (h : options.Sleeps events) :
    (create options).planAll (events.map Prod.snd) = (create options).planNothing := by
  rw [Options.Sleeps, run_recording] at h
  exact (planAll_path _ _).asleep (create_channel options) h

/-- A payload that activates a session with ends given up front. -/
theorem plan_payload_opens (d : Direction) (data : ByteArray)
    (hchannel : options.channel? none = some (.tcp flow)) :
    (create options).plan (.payload d data) =
      ((create options).planActivate none).andThen (planPayload d data) := by
  have hforced : options.forced.isSome = true := by
    cases hforced : options.forced with
    | some f => rfl
    | none => simp [Options.channel?, hforced] at hchannel
  have hensure : (create options).planEnsureActive = (create options).planActivate none := by
    rw [planEnsureActive, if_pos ⟨create_phase options, hforced⟩]
  obtain ⟨-, -, hhears⟩ := create_activates hchannel
  have hopen : (create options).planEnsureActive.session.phase ≠ .init := by
    rw [hensure, hhears.phase]
    decide
  rw [← hensure]
  exact planPayload_opens d data hopen

/-- Either way the run is that of the activation and then the events. -/
theorem planAll_opens (hopens : Opens options flow opening events) :
    ∃ connection, options.channel? connection = some (.tcp flow) ∧
      (create options).planAll ((opening ++ events).map Prod.snd) =
        ((create options).planActivate connection).andThen (planAll (events.map Prod.snd)) := by
  cases hopens with
  | reported idle now connection events hidle hchannel =>
      refine ⟨connection, hchannel, ?_⟩
      rw [List.append_assoc, List.map_append, planAll_append, planAll_sleeps hidle]
      rfl
  | unreported idle now d data rest hidle hchannel =>
      refine ⟨none, hchannel, ?_⟩
      rw [List.map_append, planAll_append, planAll_sleeps hidle]
      change (create options).planAll (.payload d data :: rest.map Prod.snd) = _
      rw [planAll, plan_payload_opens d data hchannel]
      simp only [Plan.andThen, List.append_assoc]
      rfl

theorem planAll_conversation (hopens : Opens options flow opening events)
    (htalk : ∀ x ∈ events, x.2.isTalk = true) :
    let p := (create options).planAll ((opening ++ events).map Prod.snd)
    p.acts.flatMap Act.packets = barePackets flow.handshake.1 ++
        (transfers flow options.zeroBytes [] (events.map Prod.snd)).flatMap
          (Transfer.packets flow) ∧
      p.session.headerOwed = false ∧ p.session.Hears options flow (events.map Prod.snd) := by
  obtain ⟨connection, hchannel, hplan⟩ := planAll_opens hopens
  obtain ⟨hpackets, hsettled, hhears⟩ := create_activates hchannel
  obtain ⟨hpackets', hhears'⟩ := hhears.events (events.map Prod.snd) fun e he => by
    obtain ⟨x, hx, rfl⟩ := List.mem_map.mp he
    exact htalk x hx
  have hheader := (planAll_path (events.map Prod.snd)
    ((create options).planActivate connection).session).lawful.header
  rw [hsettled] at hheader
  dsimp only
  rw [hplan, Plan.andThen]
  exact ⟨by rw [List.flatMap_append, hpackets, hpackets'], hheader.settled, hhears'⟩

/-- Records of a run carry the packets of its plan. -/
theorem timedRecords_frames (events : List TimedEvent) (s : Session) :
    (timedRecords (s.timedActs events)).map Record.frame =
      ((s.planAll (events.map Prod.snd)).acts.flatMap Act.packets).map Packet.frame := by
  rw [← timedActs_acts, List.flatMap_map, timedRecords, List.map_flatMap, List.map_flatMap]
  congr 1
  funext x
  rw [List.map_map]
  rfl

/-- What the end of a conversation adds to the file. -/
theorem written_farewell (hopens : Opens options flow opening events)
    (htalk : ∀ x ∈ events, x.2.isTalk = true) (later : Timestamp) {e : Event} (failed : Bool)
    (he : e = if failed then .error else .close) :
    ∃ last, written ((create options).intended (opening ++ events ++ [(later, e)])) =
        options.front ++ CaptureFile.encode
          (timedRecords ((create options).timedActs (opening ++ events)) ++ last) ∧
      last.map Record.frame = (farewell flow (events.map Prod.snd) failed).map Packet.frame := by
  obtain ⟨-, hsettled, hhears⟩ := planAll_conversation hopens htalk
  have hacts := timedActs_append (opening ++ events) [(later, e)] (create options)
  have hplan := planAll_append ((opening ++ events).map Prod.snd) [e] (create options)
  generalize hp : (create options).planAll ((opening ++ events).map Prod.snd) = p at *
  have hheader := (planAll_path [e] p.session).lawful.header
  rw [hsettled] at hheader
  refine ⟨timedRecords (p.session.timedActs [(later, e)]), ?_, ?_⟩
  · rw [written_intended, hacts]
    · simp only [timedRecords, List.flatMap_append]
    · rw [List.map_append, List.map_singleton, hplan]
      exact hheader.settled
  · rw [timedRecords_frames]
    congr 1
    have hend : (p.session.planAll [e]).acts = (p.session.plan e).acts := List.append_nil _
    rw [List.map_singleton, hend, he]
    cases failed with
    | true => exact hhears.error
    | false => exact hhears.close

/-- **A TCP conversation is recorded as it went.** The file is the header, the handshake and the
transfers of the account, each with its acknowledgment, and the farewell if the connection then closes or
fails; the bytes recorded of a side are those it sent while the session was writing; and the counters
stand where all the bytes have brought them. -/
theorem conversation_recorded (hopens : Opens options flow opening events)
    (htalk : ∀ x ∈ events, x.2.isTalk = true) :
    let course := (create options).run Sink.recording (opening ++ events) []
    let told := events.map Prod.snd
    let sent := transfers flow options.zeroBytes [] told
    course.results = List.replicate (opening ++ events).length .done ∧
      (∃ records, written course.sink.reverse = options.front ++ CaptureFile.encode records ∧
        records.map Record.frame = ((flow.handshake.1.map fun x => x.packet []) ++
          sent.flatMap (Transfer.packets flow)).map Packet.frame ∧
        ∀ (later : Timestamp) (failed : Bool),
          let ending := (later, if failed then Event.error else Event.close)
          let ended := (create options).run Sink.recording (opening ++ events ++ [ending]) []
          ∃ last, written ended.sink.reverse =
              options.front ++ CaptureFile.encode (records ++ last) ∧
            last.map Record.frame = (farewell flow told failed).map Packet.frame) ∧
      (∀ side, (sent.filter fun t => t.sender = side).flatMap Transfer.payload =
        spoken flow side [] told) ∧
      ∃ f, course.session.channel = some (.tcp f) ∧
        ∀ side, f.seq side = .ofNat (1 + observed flow side told) := by
  obtain ⟨hpackets, hsettled, hhears⟩ := planAll_conversation hopens htalk
  obtain ⟨f, hf, hcounts⟩ := hhears.channel
  dsimp only
  rw [run_recording_calls, run_recording]
  refine ⟨rfl, ⟨_, written_intended (opening ++ events) options hsettled, ?_, ?_⟩,
    fun side => transfers_payloads flow options.zeroBytes side [] _, f, hf, hcounts.seq⟩
  · rw [timedRecords_frames, hpackets]
    rfl
  · intro later failed
    rw [run_recording_calls]
    exact written_farewell hopens htalk later failed rfl

/-- A server that captures itself, with the ends given up front. -/
def servingOptions : Options :=
  { id := "serving", forced := some (.tcp (.v4 ⟨10, 0, 0, 2⟩ 80) (.v4 ⟨10, 0, 0, 1⟩ 4000) true) }

def servingFlow : Flow := ⟨⟨⟨10, 0, 0, 1⟩, 4000⟩, ⟨⟨10, 0, 0, 2⟩, 80⟩, true, 0, 0⟩

/-- Two bytes in, three bytes in while paused, one byte out. -/
def servingTalk : List TimedEvent :=
  [.payload .inbound ⟨#[97, 98]⟩, .pause, .payload .inbound ⟨#[99, 100, 101]⟩, .shutdown .inbound,
    .resume, .payload .outbound ⟨#[102]⟩].map fun e => (.epoch, e)

theorem conversation_recorded_serving :
    Opens servingOptions servingFlow [(.epoch, .active none)] servingTalk ∧
      (∀ x ∈ servingTalk, x.2.isTalk = true) ∧
      let course := (create servingOptions).run Sink.recording
        ([(.epoch, .active none)] ++ servingTalk) []
      ∃ records f, written course.sink.reverse = CaptureFile.header ++ CaptureFile.encode records ∧
        records.map Record.frame = ((servingFlow.handshake.1.map fun x => x.packet []) ++
          [⟨.client, 0, 0, [97, 98]⟩, ⟨.server, 0, 5, [102]⟩].flatMap
            (Transfer.packets servingFlow)).map Packet.frame ∧
        (∃ last, written ((create servingOptions).run Sink.recording
              ([(.epoch, .active none)] ++ servingTalk ++ [(.epoch, .close)]) []).sink.reverse =
            CaptureFile.header ++ CaptureFile.encode (records ++ last) ∧
          last.map Record.frame = [parting servingFlow (servingTalk.map Prod.snd) .finAck .client 1,
            parting servingFlow (servingTalk.map Prod.snd) .finAck .server 1,
            parting servingFlow (servingTalk.map Prod.snd) .ack .client 2].map Packet.frame) ∧
        course.session.channel = some (.tcp f) ∧ f.seq .client = 6 ∧ f.seq .server = 2 := by
  have hopens : Opens servingOptions servingFlow [(.epoch, .active none)] servingTalk :=
    .reported [] .epoch none servingTalk rfl rfl
  have htalk : ∀ x ∈ servingTalk, x.2.isTalk = true := by simp [servingTalk, Event.isTalk]
  obtain ⟨-, ⟨records, hwritten, hframes, hend⟩, -, f, hf, hseq⟩ :=
    conversation_recorded hopens htalk
  exact ⟨hopens, htalk, records, f, hwritten, hframes, hend .epoch false, hf, hseq .client,
    hseq .server⟩

end Session

end Wiretap
