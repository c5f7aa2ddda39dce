import Wiretap.Proofs.Batches
import Wiretap.Proofs.Conversation
import Wiretap.Proofs.Sharing
import Mathlib.Data.List.Basic

/-! Segmentation. A payload that no segment can hold goes out in pieces, all of the full length but the
last. One write then has what the pieces would have been recorded as if each had been a payload of its
own, and the counters of the flow do not tell one payload from the two parts of any split of it, however
often they wrap. -/

namespace Wiretap

/-! ### The pieces -/

/-- All parts but the last have the full size. -/
theorem cut_sizes {size : Nat} (hsize : 0 < size) {data : ByteArray} (hdata : data.size ≠ 0) :
    ∃ init last, cut size data = init ++ [last] ∧ (∀ p ∈ init, p.size = size) ∧
      1 ≤ last.size ∧ last.size ≤ size := by
  have hempty : ¬data.isEmpty = true := by rwa [isEmpty_iff_size]
  -- The last part begins at the last multiple of the size before the end.
  have hcount : (data.size + size - 1) / size = (data.size - 1) / size + 1 := by
    rw [← Nat.add_div_right _ hsize]
    congr 1
    omega
  have hfloor := Nat.div_mul_le_self (data.size - 1) size
  have hceil := Nat.lt_div_mul_add (a := data.size - 1) hsize
  rw [cut, if_neg hempty, hcount, List.range_succ, List.map_append, List.map_singleton]
  refine ⟨_, _, rfl, ?_, ?_⟩
  · intro p hp
    obtain ⟨i, hi, rfl⟩ := List.mem_map.mp hp
    have hbefore := Nat.mul_le_mul_right size (Nat.succ_le_of_lt (List.mem_range.mp hi))
    rw [Nat.succ_mul] at hbefore
    rw [ByteArray.size_extract, Nat.succ_mul]
    omega
  · rw [ByteArray.size_extract, Nat.succ_mul]
    omega

/-- What one part can hold is not cut. -/
theorem cut_of_le {size : Nat} {data : ByteArray} (hdata : data.size ≠ 0) (hle : data.size ≤ size) :
    cut size data = [data] := by
  have hempty : ¬data.isEmpty = true := by rwa [isEmpty_iff_size]
  have hcount : (data.size + size - 1) / size = 1 := by
    rw [Nat.div_eq_iff (by omega)]
    omega
  have hwhole : data.extract (0 * size) ((0 + 1) * size) = data := by
    apply ByteArray.ext
    apply Array.toList_inj.mp
    rw [extract_toList, Nat.zero_mul, List.drop_zero, List.take_of_length_le]
    rw [toList_length]
    omega
  rw [cut, if_neg hempty, hcount, List.range_one, List.map_singleton, hwhole]

theorem pieces_sizes {data : ByteArray} (hdata : data.size ≠ 0) :
    ∃ init last, pieces data = init ++ [last] ∧ (∀ p ∈ init, p.size = maxTcpPayload) ∧
      1 ≤ last.size ∧ last.size ≤ maxTcpPayload :=
  cut_sizes maxTcpPayload_pos hdata

/-- A piece is the only piece of itself. -/
theorem pieces_piece {data p : ByteArray} (hdata : data.size ≠ 0) (hp : p ∈ pieces data) :
    p.size ≠ 0 ∧ pieces p = [p] := by
  have hle : p.size ≤ maxTcpPayload := cut_size_le hp
  have hpos : p.size ≠ 0 := by
    obtain ⟨init, last, hpieces, hinit, hlast, -⟩ := pieces_sizes hdata
    rw [hpieces, List.mem_append, List.mem_singleton] at hp
    rcases hp with hp | rfl
    · rw [hinit p hp]
      exact Nat.ne_of_gt maxTcpPayload_pos
    · exact Nat.ne_of_gt hlast
  exact ⟨hpos, cut_of_le hpos hle⟩

/-- All bytes of some parts, one part after another. -/
def joined (ps : List ByteArray) : Bytes := ps.flatMap fun p => p.data.toList

theorem joined_length_cons (p : ByteArray) (ps : List ByteArray) :
    (joined (p :: ps)).length = p.size + (joined ps).length := by
  rw [joined, List.flatMap_cons, List.length_append, toList_length]
  rfl

theorem joined_pieces_length (data : ByteArray) : (joined (pieces data)).length = data.size := by
  rw [joined, pieces_flatMap, toList_length]

/-! ### The counters -/

namespace Flow

/-- The flow after so many bytes that travelled in a direction. -/
def past (f : Flow) (d : Direction) (n : Nat) : Flow :=
  f.setSeq (f.seq (f.sender d) + .ofNat n) (f.sender d)

theorem past_zero (f : Flow) (d : Direction) : f.past d 0 = f := by
  change f.setSeq (f.seq (f.sender d) + 0) (f.sender d) = f
  rw [UInt32.add_zero, setSeq_seq]

/-- **Counting is additive**, also where the sum is more than a counter holds. -/
theorem past_past (f : Flow) (d : Direction) (m n : Nat) :
    (f.past d m).past d n = f.past d (m + n) := by
  simp only [past, sender_setSeq, seq_setSeq_same, setSeq_setSeq]
  rw [UInt32.ofNat_add, UInt32.add_assoc]

theorem sendAll_past (f : Flow) (d : Direction) (ps : List ByteArray) :
    (f.sendAll d ps).2 = f.past d (joined ps).length := by
  induction ps generalizing f with
  | nil => exact (f.past_zero d).symm
  | cons p ps ih =>
      calc
        (f.sendAll d (p :: ps)).2 = ((f.past d p.size).sendAll d ps).2 := rfl
        _ = (f.past d p.size).past d (joined ps).length := ih _
        _ = f.past d (p.size + (joined ps).length) := f.past_past d _ _
        _ = f.past d (joined (p :: ps)).length := by rw [joined_length_cons]

theorem sendAll_pieces (f : Flow) (d : Direction) (data : ByteArray) :
    (f.sendAll d (pieces data)).2 = f.past d data.size := by
  rw [sendAll_past, joined_pieces_length]

/-- The packets of each piece. -/
def exchanges (f : Flow) (d : Direction) (ps : List ByteArray) : List (List Packet) :=
  (f.sendAll d ps).1.map SentPiece.packets

theorem exchanges_cons (f : Flow) (d : Direction) (p : ByteArray) (ps : List ByteArray) :
    f.exchanges d (p :: ps) = (f.exchanges d [p]).flatten :: (f.past d p.size).exchanges d ps := rfl

theorem exchanges_length (f : Flow) (d : Direction) (ps : List ByteArray) :
    (f.exchanges d ps).length = ps.length := by
  induction ps generalizing f with
  | nil => rfl
  | cons p ps ih => rw [exchanges_cons, List.length_cons, ih, List.length_cons]

theorem exchanges_flatten (f : Flow) (d : Direction) (ps : List ByteArray) :
    (f.sendAll d ps).1.flatMap SentPiece.packets = (f.exchanges d ps).flatten := rfl

end Flow

/-! ### Payloads of an open session -/

namespace Session

/-- What is left of a session after a payload that brought its flow to the given one. -/
def counted (s : Session) (flow : Flow) : Session :=
  { s with channel := some (.tcp flow), headerOwed := s.headerOwed && !s.isWriting }

theorem counted_counted (s : Session) (f g : Flow) : (s.counted f).counted g = s.counted g := by
  simp only [counted, isWriting, Bool.and_assoc, Bool.and_self]

section

variable {s : Session} {flow : Flow}

/-- A payload moves the counters by its length, skipped or not. -/
theorem plan_payload_channel (hchannel : s.channel = some (.tcp flow))
    (hactive : s.phase = .writing ∨ s.phase = .paused) (d : Direction) (data : ByteArray) :
    (s.plan (.payload d data)).session.channel = some (.tcp (flow.past d data.size)) ∧
      (s.plan (.payload d data)).session.phase = s.phase := by
  change (s.planPayload d data).session.channel = _ ∧ (s.planPayload d data).session.phase = _
  rw [planPayload_active d data hactive hchannel]
  split
  · rename_i hskips
    obtain ⟨hempty, -⟩ := Bool.and_eq_true_iff.mp hskips
    rw [(isEmpty_iff_size data).mp hempty, flow.past_zero]
    exact ⟨hchannel, rfl⟩
  · rcases hactive with hphase | hphase
    · rw [planTcp_writing d data hphase, planBatch_channel, planBatch_phase, flow.sendAll_pieces]
      exact ⟨rfl, rfl⟩
    · rw [planTcp_paused d data hphase, flow.sendAll_pieces]
      exact ⟨rfl, rfl⟩

/-- A payload that is not empty is counted and, while writing, one batch. -/
theorem plan_payload_counted (hchannel : s.channel = some (.tcp flow))
    (hactive : s.phase = .writing ∨ s.phase = .paused) (hholds : s.holdsSink = true) (d : Direction)
    {data : ByteArray} (hdata : data.size ≠ 0) :
    (s.plan (.payload d data)).session = s.counted (flow.past d data.size) ∧
      (s.plan (.payload d data)).batches =
        if s.isWriting then [(flow.exchanges d (pieces data)).flatten] else [] := by
  have hskips : ¬s.skips data = true := by
    rw [skips, Bool.and_eq_true_iff, isEmpty_iff_size]
    exact fun h => hdata h.1
  change (s.planPayload d data).session = _ ∧ (s.planPayload d data).batches = _
  rw [planPayload_active d data hactive hchannel, if_neg hskips]
  rcases hactive with hphase | hphase
  · have hwriting : s.isWriting = true := (isWriting_iff s).mpr hphase
    have hnonempty := sendAll_packets_ne_nil d (pieces_ne_nil data) flow
    rw [planTcp_writing d data hphase, flow.sendAll_pieces, planBatch, if_pos hholds]
    rw [flow.exchanges_flatten] at hnonempty ⊢
    simp [Plan.batches, Act.packets, counted, hwriting, hnonempty]
  · have hpaused : s.isWriting = false := by simp [isWriting, hphase]
    rw [planTcp_paused d data hphase, flow.sendAll_pieces]
    simp [planNothing, Plan.batches, counted, hpaused]

/-- Pieces that are told one after another are counted together. -/
theorem planAll_counted (hchannel : s.channel = some (.tcp flow))
    (hactive : s.phase = .writing ∨ s.phase = .paused) (hholds : s.holdsSink = true) (d : Direction)
    {ps : List ByteArray} (hnonempty : ps ≠ []) (hps : ∀ p ∈ ps, p.size ≠ 0) :
    (s.planAll (ps.map (.payload d))).session =
      s.counted (flow.past d (joined ps).length) := by
  induction ps generalizing s flow with
  | nil => exact absurd rfl hnonempty
  | cons p ps ih =>
      obtain ⟨hsession, -⟩ :=
        plan_payload_counted hchannel hactive hholds d (hps p List.mem_cons_self)
      rw [List.map_cons, planAll, Plan.andThen, hsession, joined_length_cons]
      rcases ps with _ | ⟨q, ps⟩
      · rfl
      · change (planAll _ (s.counted (flow.past d p.size))).session = _
        rw [ih (s := s.counted (flow.past d p.size)) rfl hactive hholds (List.cons_ne_nil q ps)
            (fun p hp => hps p (List.mem_cons_of_mem _ hp)),
          flow.past_past, counted_counted]

/-- Pieces that are told one after another are, while writing, a batch each: the records of that piece. -/
theorem timedBatches_pieces (hchannel : s.channel = some (.tcp flow))
    (hactive : s.phase = .writing ∨ s.phase = .paused) (hholds : s.holdsSink = true) (d : Direction)
    {ps : List ByteArray} (hps : ∀ p ∈ ps, p.size ≠ 0 ∧ pieces p = [p]) {events : List TimedEvent}
    (hevents : events.map Prod.snd = ps.map (.payload d)) :
    s.timedBatches events =
      if s.isWriting then (events.map Prod.fst).zip (flow.exchanges d ps) else [] := by
  induction ps generalizing s flow events with
  | nil =>
      rw [List.map_eq_nil_iff.mp hevents]
      exact (ite_self _).symm
  | cons p ps ih =>
      obtain ⟨⟨now, e⟩, rest, rfl, rfl, hrest⟩ := List.map_eq_cons_iff.mp hevents
      obtain ⟨hsize, hpiece⟩ := hps p List.mem_cons_self
      obtain ⟨hsession, hbatches⟩ := plan_payload_counted hchannel hactive hholds d hsize
      have hlater := ih (s := s.counted (flow.past d p.size)) rfl hactive hholds
        (fun q hq => hps q (List.mem_cons_of_mem p hq)) hrest
      rw [timedBatches, Plan.timedBatches, hbatches, hsession, hlater, hpiece, flow.exchanges_cons]
      change _ ++ (if s.isWriting then _ else _) = _
      split <;> rfl

/-- An open session that is told events leaves its sink open. -/
theorem run_kept (hholds : s.holdsSink = true) (events : List TimedEvent)
    (hkept : (s.planAll (events.map Prod.snd)).session.holdsSink = true) :
    (s.run Sink.recording events []).sink.reverse =
      captureCalls s.headerOwed false (s.timedBatches events) := by
  have hcloses : (s.planAll (events.map Prod.snd)).closes = false := by
    rw [Plan.closes, hkept]
    rfl
  rw [run_recording_calls, intended_eq events hholds, hcloses]

/-- The calls for some pieces, each told as a payload, and the session after them. -/
theorem run_pieces (hchannel : s.channel = some (.tcp flow))
    (hactive : s.phase = .writing ∨ s.phase = .paused) (hholds : s.holdsSink = true) (d : Direction)
    {data : ByteArray} (hdata : data.size ≠ 0) {events : List TimedEvent}
    (hevents : events.map Prod.snd = (pieces data).map (.payload d)) :
    (s.run Sink.recording events []).session = s.counted (flow.past d data.size) ∧
      (s.run Sink.recording events []).sink.reverse =
        captureCalls s.headerOwed false
          (if s.isWriting then (events.map Prod.fst).zip (flow.exchanges d (pieces data)) else []) := by
  have hsession := planAll_counted hchannel hactive hholds d (pieces_ne_nil data)
    fun p hp => (pieces_piece hdata hp).1
  rw [joined_pieces_length, ← hevents] at hsession
  have hcalls := run_kept hholds events (by rw [hsession]; exact hholds)
  rw [timedBatches_pieces hchannel hactive hholds d (fun p hp => pieces_piece hdata hp) hevents] at hcalls
  exact ⟨by rw [run_recording, hsession], hcalls⟩

/-- The calls for the payload that they are the pieces of, and the session after it. -/
theorem run_whole (hchannel : s.channel = some (.tcp flow))
    (hactive : s.phase = .writing ∨ s.phase = .paused) (hholds : s.holdsSink = true) (now : Timestamp)
    (d : Direction) {data : ByteArray} (hdata : data.size ≠ 0) :
    (s.run Sink.recording [(now, .payload d data)] []).session = s.counted (flow.past d data.size) ∧
      (s.run Sink.recording [(now, .payload d data)] []).sink.reverse =
        captureCalls s.headerOwed false
          (if s.isWriting then [(now, (flow.exchanges d (pieces data)).flatten)] else []) := by
  obtain ⟨hsession, hbatches⟩ := plan_payload_counted hchannel hactive hholds d hdata
  have hlast : (s.planAll [.payload d data]).session = s.counted (flow.past d data.size) := hsession
  have hcalls := run_kept hholds [(now, .payload d data)] (by rw [List.map_singleton, hlast]; exact hholds)
  rw [timedBatches, timedBatches, List.append_nil, Plan.timedBatches, hbatches] at hcalls
  refine ⟨by rw [run_recording, List.map_singleton, hlast], hcalls.trans ?_⟩
  split <;> rfl

end

end Session

/-- Batches of one time are written as one batch of that time would be. -/
theorem written_together (owed : Bool) (now : Timestamp) {batches : List (Timestamp × List Packet)}
    (hnonempty : batches ≠ []) (hnow : ∀ b ∈ batches, b.1 = now) :
    written (captureCalls owed false batches) =
      Act.content now owed (batches.map Prod.snd).flatten := by
  have hrecords : batches.flatMap (fun b => b.2.map (Packet.record b.1)) =
      (batches.map Prod.snd).flatten.map (Packet.record now) := by
    rw [List.map_flatten, List.map_map, ← List.flatMap_def]
    exact List.flatMap_congr fun b hb => by rw [hnow b hb]; rfl
  rw [written_capture, hrecords, List.isEmpty_eq_false_iff.mpr hnonempty]
  simp [Act.content]

/-- The pieces told at one time are written as the payload would be then. -/
theorem written_apart (flow : Flow) (d : Direction) {data : ByteArray} (owed : Bool) {now : Timestamp}
    {events : List TimedEvent} (hevents : events.map Prod.snd = (pieces data).map (.payload d))
    (hnow : ∀ x ∈ events, x.1 = now) :
    written (captureCalls owed false ((events.map Prod.fst).zip (flow.exchanges d (pieces data)))) =
      Act.content now owed (flow.exchanges d (pieces data)).flatten := by
  have hlength : (flow.exchanges d (pieces data)).length = (events.map Prod.fst).length := by
    rw [flow.exchanges_length, List.length_map, ← List.length_map Prod.snd, hevents, List.length_map]
  have hpackets := List.map_snd_zip (Nat.le_of_eq hlength)
  have hnonempty : flow.exchanges d (pieces data) ≠ [] := by
    rw [← List.length_pos_iff, flow.exchanges_length, List.length_pos_iff]
    exact pieces_ne_nil data
  rw [written_together owed now, hpackets]
  · intro hnil
    rw [hnil] at hpackets
    exact hnonempty hpackets.symm
  · rintro ⟨t, packets⟩ hb
    obtain ⟨x, hx, rfl⟩ := List.mem_map.mp (List.of_mem_zip hb).1
    exact hnow x hx

namespace Session

variable {s : Session} {flow : Flow}

/-- The flow after two payloads is the flow after both in one. -/
theorem planAll_split (hchannel : s.channel = some (.tcp flow))
    (hactive : s.phase = .writing ∨ s.phase = .paused) (d : Direction) (a b : ByteArray) :
    (s.planAll [.payload d a, .payload d b]).session.channel =
        some (.tcp (flow.past d (a ++ b).size)) ∧
      (s.planAll [.payload d (a ++ b)]).session.channel =
        some (.tcp (flow.past d (a ++ b).size)) := by
  obtain ⟨hfirst, hphase⟩ := plan_payload_channel hchannel hactive d a
  obtain ⟨hsecond, -⟩ := plan_payload_channel hfirst (by rwa [hphase]) d b
  rw [flow.past_past, ← ByteArray.size_append] at hsecond
  exact ⟨hsecond, (plan_payload_channel hchannel hactive d (a ++ b)).1⟩

/-- **One payload is as its pieces are.** An open session that is told a payload writes in one call the
records that it would write of the pieces, each told as a payload of its own and whenever, and is the same
session afterwards. Its counters are the same for a payload and for the parts of any split of it, one after
the other. -/
theorem payload_like_pieces (hchannel : s.channel = some (.tcp flow))
    (hactive : s.phase = .writing ∨ s.phase = .paused) (hholds : s.holdsSink = true) (d : Direction) :
    (∀ data, data.size ≠ 0 →
      (∃ init last, pieces data = init ++ [last] ∧ (∀ p ∈ init, p.size = maxTcpPayload) ∧
        1 ≤ last.size ∧ last.size ≤ maxTcpPayload) ∧
      ((pieces data).flatMap fun p => p.data.toList) = data.data.toList ∧
      ∀ now events, events.map Prod.snd = (pieces data).map (.payload d) →
        let whole := s.run Sink.recording [(now, .payload d data)] []
        let apart := s.run Sink.recording events []
        let exchanges := flow.exchanges d (pieces data)
        whole.results = [.done] ∧ (∀ result ∈ apart.results, result = .done) ∧
          whole.session = apart.session ∧
          if s.phase = .writing then
            whole.sink.reverse = [.write (Act.content now s.headerOwed exchanges.flatten), .flush] ∧
              apart.sink.reverse =
                captureCalls s.headerOwed false ((events.map Prod.fst).zip exchanges) ∧
              ((∀ x ∈ events, x.1 = now) → written whole.sink.reverse = written apart.sink.reverse)
          else whole.sink = [] ∧ apart.sink = []) ∧
    ∀ now events (a b : ByteArray),
      events.map Prod.snd = [.payload d a, .payload d b] →
        (s.run Sink.recording events []).session.channel =
            some (.tcp (flow.past d (a ++ b).size)) ∧
          (s.run Sink.recording [(now, .payload d (a ++ b))] []).session.channel =
            some (.tcp (flow.past d (a ++ b).size)) := by
  refine ⟨?_, ?_⟩
  · intro data hdata
    refine ⟨pieces_sizes hdata, pieces_flatMap data, ?_⟩
    intro now events hevents whole apart exchanges
    obtain ⟨hwhole, hcalls⟩ := run_whole hchannel hactive hholds now d hdata
    obtain ⟨hapart, hcalls'⟩ := run_pieces hchannel hactive hholds d hdata hevents
    refine ⟨?_, ?_, hwhole.trans hapart.symm, ?_⟩
    · exact congrArg Course.results (run_recording _ s [])
    · intro result hresult
      rw [show apart.results = _ from congrArg Course.results (run_recording events s [])] at hresult
      exact List.eq_of_mem_replicate hresult
    · split
      · rename_i hphase
        rw [if_pos ((isWriting_iff s).mpr hphase)] at hcalls hcalls'
        refine ⟨hcalls, hcalls', ?_⟩
        intro hnow
        rw [hcalls, hcalls', written_apart flow d s.headerOwed hevents hnow, captureCalls,
          written_append]
        simp [written, SinkCall.bytes, captureCalls]
      · rename_i hphase
        rw [if_neg (mt (isWriting_iff s).mp hphase)] at hcalls hcalls'
        exact ⟨List.reverse_eq_nil_iff.mp hcalls, List.reverse_eq_nil_iff.mp hcalls'⟩
  · intro now events a b hevents
    rw [run_recording, run_recording, hevents]
    exact planAll_split hchannel hactive d a b

/-- Ten bytes more than one segment can hold. -/
def longPayload : ByteArray := ⟨Array.replicate (maxTcpPayload + 10) 7⟩

theorem payload_like_pieces_long :
    let s := ((create servingOptions).plan (.active none)).session
    let flow := servingFlow.handshake.2
    let apart := (pieces longPayload).map fun p => (Timestamp.epoch, Event.payload .inbound p)
    s.channel = some (.tcp flow) ∧ (s.phase = .writing ∨ s.phase = .paused) ∧ s.holdsSink = true ∧
      longPayload.size ≠ 0 ∧
      (∃ init last, pieces longPayload = init ++ [last] ∧ (∀ p ∈ init, p.size = maxTcpPayload) ∧
        1 ≤ last.size ∧ last.size ≤ maxTcpPayload) ∧
      written (s.run Sink.recording [(.epoch, .payload .inbound longPayload)] []).sink.reverse =
        written (s.run Sink.recording apart []).sink.reverse ∧
      (s.run Sink.recording [(.epoch, .payload .inbound longPayload),
          (.epoch, .payload .inbound longPayload)] []).session.channel =
        some (.tcp (flow.past .inbound (longPayload ++ longPayload).size)) := by
  intro s flow apart
  have hchannel : s.channel = some (.tcp flow) := rfl
  have hphase : s.phase = .writing := rfl
  have hholds : s.holdsSink = true := rfl
  have hsize : longPayload.size ≠ 0 := by
    rw [← toList_length, longPayload, Array.toList_replicate, List.length_replicate]
    exact Nat.succ_ne_zero _
  obtain ⟨hruns, hsplit⟩ := payload_like_pieces hchannel (.inl hphase) hholds .inbound
  obtain ⟨hsizes, -, hlike⟩ := hruns longPayload hsize
  have happart : apart.map Prod.snd = (pieces longPayload).map (.payload .inbound) := by
    rw [List.map_map]
    rfl
  obtain ⟨-, -, -, hcalls⟩ := hlike .epoch apart happart
  rw [if_pos hphase] at hcalls
  refine ⟨hchannel, .inl hphase, hholds, hsize, hsizes, hcalls.2.2 ?_, (hsplit .epoch _ _ _ rfl).1⟩
  intro x hx
  obtain ⟨p, -, rfl⟩ := List.mem_map.mp hx
  rfl

end Session

end Wiretap
