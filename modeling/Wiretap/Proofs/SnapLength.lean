import Wiretap.Proofs.Lifecycle

/-! The snap length. The header of a capture file says how long a captured frame can be: as long as the
longest IPv4 packet. Frames are that and an Ethernet header, so the longest segments and datagrams exceed
it, by fourteen bytes at most. It is said here which records do, and which events of a session bring them
about; every other run stays within the snap length. -/

namespace Wiretap

/-- The longest payload of a segment in a frame within the snap length. -/
def snapTcpPayload : Nat := 65481

/-- The longest payload of a datagram in a frame within the snap length. -/
def snapUdpPayload : Nat := 65493

/-- A file whose header has this snap length can hold a record of the frame. -/
def WithinSnap (frame : Bytes) : Prop := frame.length ≤ CaptureFile.snapLength.toNat

namespace Packet

theorem tcp_withinSnap_iff (src dst : Endpoint) (seq ack : UInt32) (flags : TcpFlags) (payload : Bytes) :
    WithinSnap (tcp src dst seq ack flags payload).frame ↔ payload.length ≤ snapTcpPayload := by
  have hsnap : CaptureFile.snapLength.toNat = 54 + snapTcpPayload := rfl
  rw [WithinSnap, tcp_frame_length, hsnap]
  omega

theorem udp_withinSnap_iff (src dst : Endpoint) (payload : Bytes) :
    WithinSnap (udp src dst payload).frame ↔ payload.length ≤ snapUdpPayload := by
  have hsnap : CaptureFile.snapLength.toNat = 42 + snapUdpPayload := rfl
  rw [WithinSnap, udp_frame_length, hsnap]
  omega

end Packet

/-! ### Pieces -/

theorem cut_size_le_data {size : Nat} {data p : ByteArray} (hp : p ∈ cut size data) :
    p.size ≤ data.size := by
  unfold cut at hp
  split at hp
  · exact Nat.le_of_eq (congrArg ByteArray.size (List.mem_singleton.mp hp))
  · obtain ⟨i, -, rfl⟩ := List.mem_map.mp hp
    rw [ByteArray.size_extract]
    omega

/-- The first part is all that a part can hold. -/
theorem exists_cut_size {size : Nat} (hsize : 0 < size) (data : ByteArray) :
    ∃ p ∈ cut size data, p.size = min size data.size := by
  unfold cut
  split
  · rename_i hempty
    have hnone : data.size = 0 := (isEmpty_iff_size data).mp hempty
    exact ⟨data, List.mem_singleton_self data, by omega⟩
  · rename_i hempty
    have hsome : data.size ≠ 0 := fun h => hempty ((isEmpty_iff_size data).mpr h)
    refine ⟨data.extract (0 * size) ((0 + 1) * size), List.mem_map.mpr ⟨0, ?_, rfl⟩, ?_⟩
    · rw [List.mem_range]
      exact Nat.div_pos (by omega) hsize
    · rw [ByteArray.size_extract]
      omega

theorem pieces_within_iff {limit : Nat} (hlimit : limit < maxTcpPayload) (data : ByteArray) :
    (∀ p ∈ pieces data, p.size ≤ limit) ↔ data.size ≤ limit := by
  constructor
  · intro h
    obtain ⟨p, hp, hsize⟩ := exists_cut_size maxTcpPayload_pos data
    have hfirst := h p hp
    omega
  · intro h p hp
    exact Nat.le_trans (cut_size_le_data hp) h

theorem barePackets_within (segments : List Segment) :
    ∀ p ∈ barePackets segments, WithinSnap p.frame := by
  intro p hp
  obtain ⟨segment, -, rfl⟩ := List.mem_map.mp hp
  exact (Packet.tcp_withinSnap_iff _ _ _ _ _ _).mpr (Nat.zero_le _)

theorem sendAll_within_iff (d : Direction) (parts : List ByteArray) (flow : Flow) :
    (∀ p ∈ (flow.sendAll d parts).1.flatMap SentPiece.packets, WithinSnap p.frame) ↔
      ∀ part ∈ parts, part.size ≤ snapTcpPayload := by
  induction parts generalizing flow with
  | nil => simp [Flow.sendAll]
  | cons part parts ih =>
      have hpart : ∀ segment : Segment,
          WithinSnap (segment.packet part.data.toList).frame ↔ part.size ≤ snapTcpPayload := by
        intro segment
        rw [← toList_length part]
        exact Packet.tcp_withinSnap_iff _ _ _ _ _ _
      have hack : ∀ segment : Segment, WithinSnap (segment.packet []).frame := by
        intro segment
        exact (Packet.tcp_withinSnap_iff _ _ _ _ _ _).mpr (Nat.zero_le _)
      simp only [Flow.sendAll, List.flatMap_cons, List.forall_mem_append, ih, SentPiece.packets,
        List.forall_mem_cons, hpart, hack, List.not_mem_nil, false_implies, implies_true, and_true]

/-! ### Plans -/

/-- All that is appended by the plan is within the snap length. -/
def Plan.WithinSnap (p : Plan) : Prop := ∀ packet ∈ p.acts.flatMap Act.packets, Wiretap.WithinSnap packet.frame

theorem Plan.withinSnap_andThen (p : Plan) (next : Session → Plan) :
    (p.andThen next).WithinSnap ↔ p.WithinSnap ∧ (next p.session).WithinSnap := by
  simp only [WithinSnap, andThen, List.flatMap_append, List.forall_mem_append]

namespace Session

/-- A payload of so many bytes has a session that had the chance to become active write a record that is
longer than the snap length. -/
def OverrunBy (s : Session) (length : Nat) : Prop :=
  s.isWriting = true ∧
    match s.channel with
    | some (.tcp _) => snapTcpPayload < length
    | some (.udp _ (some _)) => snapUdpPayload < length ∧ length ≤ maxUdpPayload
    | _ => False

/-- The same of a datagram whose peer is told. -/
def OverrunByDatagram (s : Session) (length : Nat) : Prop :=
  s.isWriting = true ∧
    match s.channel with
    | some (.udp _ _) => snapUdpPayload < length ∧ length ≤ maxUdpPayload
    | _ => False

/-- The event has the session write a record that is longer than the snap length. -/
def Overruns (s : Session) : Event → Prop
  | .payload _ data => s.planEnsureActive.session.OverrunBy data.size
  | .datagram _ data _ =>
    if s.flow?.isSome then s.planEnsureActive.session.OverrunBy data.size
    else s.planEnsureActive.session.OverrunByDatagram data.size
  | _ => False

theorem planNothing_withinSnap (s : Session) : s.planNothing.WithinSnap := by
  intro packet hpacket
  cases hpacket

theorem planBatch_withinSnap_iff (packets : List Packet) {s : Session} (hholds : s.holdsSink = true) :
    (s.planBatch packets).WithinSnap ↔ ∀ packet ∈ packets, WithinSnap packet.frame := by
  rw [Plan.WithinSnap, planBatch_acts, if_pos hholds]
  simp only [List.flatMap_cons, List.flatMap_nil, List.append_nil, Act.packets]

theorem planBatch_bare_withinSnap (segments : List Segment) (s : Session) :
    (s.planBatch (barePackets segments)).WithinSnap := by
  cases hholds : s.holdsSink with
  | true => exact (planBatch_withinSnap_iff _ hholds).mpr (barePackets_within segments)
  | false =>
      rw [planBatch, if_neg (by simp [hholds])]
      exact s.planNothing_withinSnap

theorem planFinish_withinSnap (s : Session) : s.planFinish.WithinSnap := by
  have hnone : s.planFinish.acts.flatMap Act.packets = [] := by
    unfold planFinish lastActs
    cases s.headerOwed <;> split <;> rfl
  intro packet hpacket
  rw [hnone] at hpacket
  cases hpacket

theorem planActivate_withinSnap (connection : Option Connection) (s : Session) :
    (s.planActivate connection).WithinSnap := by
  unfold planActivate
  split
  · cases s.options.channel? connection with
    | none => exact s.planNothing_withinSnap
    | some channel =>
        cases channel with
        | tcp flow => exact planBatch_bare_withinSnap _ _
        | udp near far => exact planNothing_withinSnap _
  · exact s.planNothing_withinSnap

theorem planEnsureActive_withinSnap (s : Session) : s.planEnsureActive.WithinSnap := by
  unfold planEnsureActive
  split
  · exact s.planActivate_withinSnap none
  · exact s.planNothing_withinSnap

theorem Holds.of_isWriting {s : Session} (h : s.Holds) (hwriting : s.isWriting = true) :
    s.holdsSink = true := by
  rw [isWriting_iff] at hwriting
  exact h.mpr (by rw [hwriting]; exact Phase.noConfusion)

theorem planTcp_withinSnap_iff (d : Direction) (data : ByteArray) (flow : Flow) {s : Session}
    (hs : s.Holds) :
    (s.planTcp d data flow).WithinSnap ↔ ¬(s.isWriting = true ∧ snapTcpPayload < data.size) := by
  unfold planTcp
  dsimp only
  split
  · rename_i hwriting
    have hnow : s.isWriting = true := hwriting
    refine Iff.trans (planBatch_withinSnap_iff _ ?_) ?_
    · exact hs.of_isWriting hnow
    · rw [sendAll_within_iff, pieces_within_iff (by decide), hnow]
      simp only [true_and, Nat.not_lt]
  · rename_i hwriting
    exact iff_of_true (planNothing_withinSnap _) fun h => hwriting h.1

theorem planUdp_withinSnap_iff (d : Direction) (data : ByteArray) (near far : Endpoint) {s : Session}
    (hs : s.Holds) :
    (s.planUdp d data near (some far)).WithinSnap ↔
      ¬(s.isWriting = true ∧ snapUdpPayload < data.size ∧ data.size ≤ maxUdpPayload) := by
  unfold planUdp
  split
  · rename_i hrecorded
    have hholds := hs.of_isWriting hrecorded.1
    rw [planBatch_withinSnap_iff _ hholds, List.forall_mem_singleton, Packet.udp_withinSnap_iff,
      toList_length]
    simp only [hrecorded, true_and, and_true, Nat.not_lt]
  · rename_i hrecorded
    refine iff_of_true s.planNothing_withinSnap ?_
    rintro ⟨hwriting, -, hfits⟩
    exact hrecorded ⟨hwriting, hfits⟩

theorem planUdp_alone_withinSnap (d : Direction) (data : ByteArray) (near : Endpoint) (s : Session) :
    (s.planUdp d data near none).WithinSnap := by
  unfold planUdp
  split <;> exact s.planNothing_withinSnap

/-- A payload that a session does not look at is empty, or the session is not writing. -/
theorem unheard_cases {s : Session} {data : ByteArray}
    (h : (s.phase = .init ∨ s.phase = .closed) ∨ s.skips data = true) :
    ¬s.isWriting = true ∨ data.size = 0 := by
  rw [isWriting_iff]
  rcases h with (hphase | hphase) | hskips
  · exact .inl (by rw [hphase]; exact Phase.noConfusion)
  · exact .inl (by rw [hphase]; exact Phase.noConfusion)
  · exact .inr ((isEmpty_iff_size data).mp (Bool.and_eq_true_iff.mp hskips).1)

theorem not_overrunBy_of_unheard {s : Session} {data : ByteArray}
    (h : (s.phase = .init ∨ s.phase = .closed) ∨ s.skips data = true) : ¬s.OverrunBy data.size := by
  rintro ⟨hwriting, hlong⟩
  have hempty := (unheard_cases h).resolve_left (not_not_intro hwriting)
  rw [hempty] at hlong
  split at hlong
  · cases hlong
  · cases hlong.1
  · exact hlong

theorem not_overrunByDatagram_of_unheard {s : Session} {data : ByteArray}
    (h : (s.phase = .init ∨ s.phase = .closed) ∨ s.skips data = true) :
    ¬s.OverrunByDatagram data.size := by
  rintro ⟨hwriting, hlong⟩
  have hempty := (unheard_cases h).resolve_left (not_not_intro hwriting)
  rw [hempty] at hlong
  split at hlong
  · cases hlong.1
  · exact hlong

theorem planHeard_withinSnap_iff (d : Direction) (data : ByteArray) {s : Session} (hs : s.Holds) :
    (s.planHeard d data).WithinSnap ↔ ¬s.OverrunBy data.size := by
  unfold planHeard
  by_cases hunheard : (s.phase = .init ∨ s.phase = .closed) ∨ s.skips data = true
  · rw [if_pos hunheard]
    exact iff_of_true s.planNothing_withinSnap (not_overrunBy_of_unheard hunheard)
  · rw [if_neg hunheard, OverrunBy]
    cases s.channel with
    | none => exact iff_of_true s.planNothing_withinSnap fun h => h.2
    | some channel =>
        cases channel with
        | tcp flow => exact planTcp_withinSnap_iff d data flow hs
        | udp near far =>
            cases far with
            | none => exact iff_of_true (s.planUdp_alone_withinSnap d data near) fun h => h.2
            | some far => exact planUdp_withinSnap_iff d data near far hs

theorem planEnsureActive_holds {s : Session} (hs : s.Holds) : s.planEnsureActive.session.Holds :=
  s.ensureActive_path.holds hs

theorem planPayload_withinSnap_iff (d : Direction) (data : ByteArray) {s : Session} (hs : s.Holds) :
    (s.planPayload d data).WithinSnap ↔ ¬s.planEnsureActive.session.OverrunBy data.size := by
  rw [planPayload, Plan.withinSnap_andThen, and_iff_right s.planEnsureActive_withinSnap]
  exact planHeard_withinSnap_iff d data (planEnsureActive_holds hs)

theorem planDatagram_withinSnap_iff (d : Direction) (data : ByteArray) (peer : SocketAddress)
    {s : Session} (hs : s.Holds) :
    (s.planDatagram d data peer).WithinSnap ↔ ¬s.Overruns (.datagram d data peer) := by
  rw [planDatagram, Overruns]
  split
  · exact planPayload_withinSnap_iff d data hs
  · rw [Plan.withinSnap_andThen, and_iff_right s.planEnsureActive_withinSnap]
    have hawake := planEnsureActive_holds hs
    generalize s.planEnsureActive.session = awake at hawake
    by_cases hunheard : (awake.phase = .init ∨ awake.phase = .closed) ∨ awake.skips data = true
    · rw [if_pos hunheard]
      exact iff_of_true awake.planNothing_withinSnap (not_overrunByDatagram_of_unheard hunheard)
    · rw [if_neg hunheard, OverrunByDatagram]
      cases awake.channel with
      | none => exact iff_of_true awake.planNothing_withinSnap fun h => h.2
      | some channel =>
          cases channel with
          | tcp flow => exact iff_of_true awake.planNothing_withinSnap fun h => h.2
          | udp near far => exact planUdp_withinSnap_iff d data near _ hawake

theorem planShutdown_withinSnap (d : Direction) (s : Session) : (s.planShutdown d).WithinSnap := by
  unfold planShutdown
  split <;> exact planNothing_withinSnap _

theorem planPause_withinSnap (s : Session) : s.planPause.WithinSnap := by
  unfold planPause
  split <;> exact planNothing_withinSnap _

theorem planResume_withinSnap (s : Session) : s.planResume.WithinSnap := by
  unfold planResume
  split <;> exact planNothing_withinSnap _

theorem planBatch_finish_withinSnap (segments : List Segment) (s : Session) :
    ((s.planBatch (barePackets segments)).andThen planFinish).WithinSnap :=
  (Plan.withinSnap_andThen _ _).mpr ⟨planBatch_bare_withinSnap segments s, planFinish_withinSnap _⟩

theorem planError_withinSnap (s : Session) : s.planError.WithinSnap := by
  unfold planError
  split
  · exact s.planNothing_withinSnap
  · split
    · exact planBatch_finish_withinSnap _ s
    · exact s.planFinish_withinSnap

theorem planClose_withinSnap (s : Session) : s.planClose.WithinSnap := by
  unfold planClose
  split
  · exact s.planNothing_withinSnap
  · split
    · exact planBatch_finish_withinSnap _ _
    · exact s.planFinish_withinSnap

/-- A plan keeps within the snap length unless the event overruns it. -/
theorem plan_withinSnap_iff (e : Event) {s : Session} (hs : s.Holds) :
    (s.plan e).WithinSnap ↔ ¬s.Overruns e := by
  cases e with
  | active connection => exact iff_of_true (s.planActivate_withinSnap connection) id
  | payload d data => exact planPayload_withinSnap_iff d data hs
  | datagram d data peer => exact planDatagram_withinSnap_iff d data peer hs
  | shutdown d => exact iff_of_true (planShutdown_withinSnap d s) id
  | error => exact iff_of_true s.planError_withinSnap id
  | pause => exact iff_of_true s.planPause_withinSnap id
  | resume => exact iff_of_true s.planResume_withinSnap id
  | close => exact iff_of_true s.planClose_withinSnap id

/-! ### Runs -/

/-- The events up to one of them and that one, at every place of a list. -/
theorem forall_split_cons {P : List TimedEvent → TimedEvent → Prop} (x : TimedEvent)
    (events : List TimedEvent) :
    (∀ xs y ys, x :: events = xs ++ y :: ys → P xs y) ↔
      P [] x ∧ ∀ xs y ys, events = xs ++ y :: ys → P (x :: xs) y := by
  constructor
  · intro h
    refine ⟨h [] x events rfl, ?_⟩
    rintro xs y ys rfl
    exact h (x :: xs) y ys rfl
  · rintro ⟨hfirst, hrest⟩ xs y ys hsplit
    cases xs with
    | nil =>
        injection hsplit with hx
        rw [← hx]
        exact hfirst
    | cons x' xs =>
        injection hsplit with hx hevents
        rw [← hx]
        exact hrest xs y ys hevents

theorem planAll_withinSnap_iff (events : List TimedEvent) {s : Session} (hs : s.Holds) :
    (s.planAll (events.map Prod.snd)).WithinSnap ↔
      ∀ xs x ys, events = xs ++ x :: ys → ¬(s.planAll (xs.map Prod.snd)).session.Overruns x.2 := by
  induction events generalizing s with
  | nil => exact iff_of_true s.planNothing_withinSnap (by simp)
  | cons x events ih =>
      rw [List.map_cons, planAll, Plan.withinSnap_andThen, plan_withinSnap_iff x.2 hs,
        ih ((s.plan_path x.2).holds hs), forall_split_cons]
      rfl

/-- The captured length of an exact record and the snap length, as the file has them. -/
theorem captured_le_snap_iff {r : Record} (h : r.Exact) :
    field32 r.bytes 8 ≤ field32 CaptureFile.header 16 ↔ WithinSnap r.frame := by
  have hheader : field32 CaptureFile.header 16 = CaptureFile.snapLength := rfl
  rw [hheader, UInt32.le_iff_toNat_le, h.captured, WithinSnap]

theorem timedRecords_withinSnap_iff (events : List TimedEvent) (s : Session) :
    (∀ r ∈ timedRecords (s.timedActs events), field32 r.bytes 8 ≤ field32 CaptureFile.header 16) ↔
      (s.planAll (events.map Prod.snd)).WithinSnap := by
  have hexact := timedRecords_exact events s
  rw [Plan.WithinSnap, ← timedActs_acts, List.flatMap_map]
  constructor
  · intro h packet hpacket
    obtain ⟨x, hx, hpacket⟩ := List.mem_flatMap.mp hpacket
    have hr : packet.record x.1 ∈ timedRecords (s.timedActs events) :=
      List.mem_flatMap.mpr ⟨x, hx, List.mem_map_of_mem hpacket⟩
    exact (captured_le_snap_iff (hexact _ hr)).mp (h _ hr)
  · intro h r hr
    refine (captured_le_snap_iff (hexact r hr)).mpr ?_
    obtain ⟨x, hx, hr⟩ := List.mem_flatMap.mp hr
    obtain ⟨packet, hpacket, rfl⟩ := List.mem_map.mp hr
    exact h packet (List.mem_flatMap.mpr ⟨x, hx, hpacket⟩)

/-- No record of a run is longer than an Ethernet header and the longest IPv4 packet. -/
theorem timedRecords_length_le (events : List TimedEvent) {s : Session} {r : Record}
    (hr : r ∈ timedRecords (s.timedActs events)) :
    (field32 r.bytes 8).toNat ≤ (field32 CaptureFile.header 16).toNat + ethernetHeader.length := by
  have hexact := timedRecords_exact events s r hr
  obtain ⟨⟨now, a⟩, ha, hr⟩ := List.mem_flatMap.mp hr
  obtain ⟨packet, hpacket, rfl⟩ := List.mem_map.mp hr
  rw [hexact.captured]
  cases a with
  | append header packets => exact ((timedActs_sound events s ha).2 packet hpacket).frame_length_le
  | close => cases hpacket

/-- The bytes of a run are the records of its acts, after the file header if that was written. -/
theorem written_records (options : Options) (events : List TimedEvent) :
    let calls := ((create options).run Sink.recording events []).sink.reverse
    let records := timedRecords ((create options).timedActs events)
    written calls = [] ∧ records = [] ∨ written calls = options.front ++ CaptureFile.encode records := by
  dsimp only
  rw [run_recording_calls]
  cases howed : ((create options).planAll (events.map Prod.snd)).session.headerOwed with
  | true =>
      have hheader := timedActs_headerFirst events (create options)
      rw [howed] at hheader
      have hnone := List.map_eq_nil_iff.mp hheader.nil_of_owed
      left
      rw [intended, hnone]
      exact ⟨rfl, rfl⟩
  | false => exact .inr (written_intended events options howed)

/-- **The snap length is kept by the runs that no event overruns, and by no others.** What a run writes are
records of at most fourteen bytes more than the snap length that the file header gives; all of them are
within it exactly if the session was told, while writing, of no payload longer than 65481 bytes on a TCP
channel and of no datagram of 65494 to 65507 bytes, the longest that a packet can hold. -/
theorem snap_length_kept_iff (options : Options) (events : List TimedEvent) :
    let calls := ((create options).run Sink.recording events []).sink.reverse
    ∃ records : List Record,
      (written calls = [] ∧ records = [] ∨
        written calls = options.front ++ CaptureFile.encode records) ∧
      (∀ r ∈ records, (field32 r.bytes 8).toNat = r.frame.length ∧
        (field32 r.bytes 8).toNat ≤ (field32 CaptureFile.header 16).toNat + ethernetHeader.length) ∧
      ((∀ r ∈ records, field32 r.bytes 8 ≤ field32 CaptureFile.header 16) ↔
        ∀ xs x ys, events = xs ++ x :: ys →
          ¬((create options).run Sink.recording xs []).session.Overruns x.2) := by
  refine ⟨timedRecords ((create options).timedActs events), written_records options events, ?_, ?_⟩
  · intro r hr
    exact ⟨(timedRecords_exact events _ r hr).captured, timedRecords_length_le events hr⟩
  · rw [timedRecords_withinSnap_iff, planAll_withinSnap_iff events (create_holds options)]
    simp only [run_recording]

/-- So many zero bytes. -/
def blank (n : Nat) : ByteArray := ⟨Array.replicate n 0⟩

theorem blank_size (n : Nat) : (blank n).size = n := Array.size_replicate

/-- A session with a sink of its own whose ends are given up front. -/
def snappingOptions : Options :=
  { id := "snapping", forced := some (.tcp (.v4 ⟨10, 0, 0, 2⟩ 80) (.v4 ⟨10, 0, 0, 1⟩ 4000) true) }

/-- One byte more than the snap length has room for. -/
def snappingEvents : List TimedEvent :=
  [(.epoch, .active none), (.epoch, .payload .inbound (blank 65482))]

/-- A capture whose header gives a snap length that one of its records exceeds. -/
theorem snap_length_exceeded :
    ∃ records : List Record,
      written ((create snappingOptions).run Sink.recording snappingEvents []).sink.reverse =
        CaptureFile.header ++ CaptureFile.encode records ∧
      ∃ r ∈ records, field32 CaptureFile.header 16 < field32 r.bytes 8 := by
  have hoverruns : ((create snappingOptions).planAll [.active none]).session.Overruns
      (.payload .inbound (blank 65482)) := by
    refine ⟨rfl, ?_⟩
    change snapTcpPayload < (blank 65482).size
    rw [blank_size]
    decide
  have hrecords : ¬∀ r ∈ timedRecords ((create snappingOptions).timedActs snappingEvents),
      field32 r.bytes 8 ≤ field32 CaptureFile.header 16 := by
    rw [timedRecords_withinSnap_iff, planAll_withinSnap_iff _ (create_holds snappingOptions)]
    intro h
    exact h [(.epoch, .active none)] _ [] rfl hoverruns
  obtain ⟨r, hr, hlong⟩ : ∃ r ∈ timedRecords ((create snappingOptions).timedActs snappingEvents),
      field32 CaptureFile.header 16 < field32 r.bytes 8 := by
    simpa using hrecords
  refine ⟨_, (written_records snappingOptions snappingEvents).resolve_left ?_, r, hr, hlong⟩
  rintro ⟨-, hnone⟩
  rw [hnone] at hr
  cases hr

end Session

end Wiretap
