import Wiretap.Proofs.Course
import Wiretap.Proofs.Frames

/-! What a session makes of its sink. Over a run against a sink that never fails the bytes written are
whole records after at most one file header, every write is worth making and flushed at once, and a sink
of the session's own is closed once, by the last call, when the session closes. All of it comes from what
one step asks of the sink: an automaton follows the owed header through the acts of a path, and a close
is the last act of a path or none of them. -/

namespace Wiretap

namespace Act

def packets : Act → List Packet
  | append _ packets => packets
  | close => []

/-- An append has something to write, and nothing that no packet can hold. -/
def Sound : Act → Prop
  | append header packets => (header = true ∨ packets ≠ []) ∧ ∀ p ∈ packets, p.Fits
  | close => True

/-- The file header goes before the first append if it is owed, and before no other; it is not owed any
more when the sink is closed. -/
def HeaderFirst : Bool → List Act → Bool → Prop
  | owed, [], owed' => owed' = owed
  | owed, append header _ :: rest, owed' => header = owed ∧ HeaderFirst false rest owed'
  | owed, close :: rest, owed' => owed = false ∧ HeaderFirst false rest owed'

theorem HeaderFirst.append {owed mid owed' : Bool} {acts rest : List Act}
    (h : HeaderFirst owed acts mid) (h' : HeaderFirst mid rest owed') :
    HeaderFirst owed (acts ++ rest) owed' := by
  induction acts generalizing owed with
  | nil =>
      rw [HeaderFirst] at h
      rwa [h] at h'
  | cons a acts ih =>
      cases a with
      | append header packets => exact ⟨h.1, ih h.2⟩
      | close => exact ⟨h.1, ih h.2⟩

theorem HeaderFirst.settled {owed' : Bool} {acts : List Act} (h : HeaderFirst false acts owed') :
    owed' = false := by
  induction acts with
  | nil => exact h
  | cons a acts ih => cases a <;> exact ih h.2

theorem HeaderFirst.nil_of_owed {owed : Bool} {acts : List Act} (h : HeaderFirst owed acts true) :
    acts = [] := by
  cases acts with
  | nil => rfl
  | cons a acts => cases a <;> exact absurd h.2.settled (by decide)

end Act

/-- What the acts of a plan are to its session. -/
structure Lawful (s : Session) (p : Plan) : Prop where
  sound : ∀ a ∈ p.acts, a.Sound
  header : Act.HeaderFirst s.headerOwed p.acts p.session.headerOwed
  /-- Closing is the last thing asked of a sink of the session's own. -/
  last : .close ∈ p.acts → s.options.shared = false ∧ p.session.holdsSink = false ∧
    ∃ before, p.acts = before ++ [.close] ∧ .close ∉ before
  /-- A sink of the session's own is not let go without being closed, and not without a header. -/
  settled : s.holdsSink = true → p.session.holdsSink = false → s.options.shared = false →
    .close ∈ p.acts ∧ p.session.headerOwed = false

namespace Lawful

variable {s : Session} {p : Plan}

theorem nothing {after : Session} (howed : after.headerOwed = s.headerOwed)
    (hholds : after.holdsSink = s.holdsSink) : Lawful s after.planNothing where
  sound a ha := by cases ha
  header := howed
  last h := by cases h
  settled h h' := by
    rw [← hholds] at h
    exact absurd (h.symm.trans h') (by decide)

/-- A batch is lawful for every session that differs in nothing but its channel, its phase and who
stopped first. -/
theorem batch {before : Session} {packets : List Packet} (howed : s.headerOwed = before.headerOwed)
    (hholds : s.holdsSink = before.holdsSink) (hnonempty : packets ≠ [])
    (hfits : ∀ p ∈ packets, p.Fits) : Lawful before (s.planBatch packets) where
  sound a ha := by
    rw [Session.planBatch_acts] at ha
    split at ha
    · rw [List.mem_singleton.mp ha]
      exact ⟨.inr hnonempty, hfits⟩
    · cases ha
  header := by
    rw [Session.planBatch_acts, Session.planBatch_headerOwed, ← howed]
    cases s.holdsSink with
    | true => exact ⟨rfl, Bool.and_false s.headerOwed⟩
    | false => exact Bool.and_true s.headerOwed
  last h := by
    rw [Session.planBatch_acts] at h
    split at h <;> simp at h
  settled h h' := by
    rw [Session.planBatch_holdsSink, hholds] at h'
    exact absurd (h.symm.trans h') (by decide)

end Lawful

theorem barePackets_fit (segments : List Segment) : ∀ p ∈ barePackets segments, p.Fits := by
  intro p hp
  obtain ⟨segment, -, rfl⟩ := List.mem_map.mp hp
  exact Nat.zero_le maxTcpPayload

theorem sendAll_fit (d : Direction) {parts : List ByteArray}
    (hparts : ∀ p ∈ parts, p.data.toList.length ≤ maxTcpPayload) (flow : Flow) :
    ∀ p ∈ (flow.sendAll d parts).1.flatMap SentPiece.packets, p.Fits := by
  induction parts generalizing flow with
  | nil =>
      intro p hp
      cases hp
  | cons part parts ih =>
      intro p hp
      rw [Flow.sendAll, List.flatMap_cons, List.mem_append] at hp
      rcases hp with hp | hp
      · simp only [SentPiece.packets, List.mem_cons, List.not_mem_nil, or_false] at hp
        rcases hp with rfl | rfl
        · exact hparts part List.mem_cons_self
        · exact Nat.zero_le maxTcpPayload
      · exact ih (fun q hq => hparts q (List.mem_cons_of_mem _ hq)) _ p hp

theorem sendAll_packets_ne_nil (d : Direction) {parts : List ByteArray} (hparts : parts ≠ [])
    (flow : Flow) : (flow.sendAll d parts).1.flatMap SentPiece.packets ≠ [] := by
  cases parts with
  | nil => exact absurd rfl hparts
  | cons part parts => exact List.cons_ne_nil _ _

open Session

theorem planStart_lawful (channel : Channel) (s : Session) : Lawful s (s.planStart channel) := by
  cases channel with
  | udp near far => exact .nothing rfl rfl
  | tcp flow => exact .batch rfl rfl (List.cons_ne_nil _ _) (barePackets_fit _)

theorem planTcp_lawful (d : Direction) (data : ByteArray) (flow : Flow) (s : Session) :
    Lawful s (s.planTcp d data flow) := by
  unfold planTcp
  dsimp only
  split
  · exact .batch rfl rfl (sendAll_packets_ne_nil d (pieces_ne_nil data) flow)
      (sendAll_fit d (fun p hp => pieces_length_le hp) flow)
  · exact .nothing rfl rfl

theorem planUdp_lawful (d : Direction) (data : ByteArray) (near : Endpoint) (far : Option Endpoint)
    (s : Session) : Lawful s (s.planUdp d data near far) := by
  unfold planUdp
  split
  · rename_i hguard
    cases far with
    | none => exact .nothing rfl rfl
    | some far =>
        refine .batch rfl rfl (List.cons_ne_nil _ _) ?_
        intro p hp
        rw [List.mem_singleton.mp hp]
        exact hguard.2
  · exact .nothing rfl rfl

/-- A session that closes a sink of its own asks for the header if it is owed, then for the close. -/
theorem planFinish_lawful (s : Session) : Lawful s s.planFinish := by
  unfold planFinish
  by_cases hown : s.holdsSink = true ∧ s.options.shared = false
  · rw [if_pos hown]
    refine ⟨?_, ?_, fun _ => ⟨hown.2, rfl, ?_⟩, fun _ _ _ => ⟨by simp [lastActs], rfl⟩⟩
    · intro a ha
      cases howed : s.headerOwed <;> simp [lastActs, howed] at ha <;> rcases ha with rfl | rfl <;>
        simp [Act.Sound]
    · cases howed : s.headerOwed <;> simp [lastActs, howed, Act.HeaderFirst]
    · refine ⟨_, rfl, ?_⟩
      split <;> simp
  · rw [if_neg hown]
    refine ⟨?_, rfl, ?_, fun hholds _ hshared => absurd ⟨hholds, hshared⟩ hown⟩
    · intro a ha
      cases ha
    · intro hclose
      cases hclose

theorem SessionStep.lawful {s : Session} {p : Plan} (h : SessionStep s p) : Lawful s p := by
  cases h with
  | starts connection channel => exact planStart_lawful channel s
  | sends d data flow => exact planTcp_lawful d data flow s
  | reports d data near known far => exact planUdp_lawful d data near far s
  | marks => exact .nothing rfl rfl
  | pauses => exact .nothing rfl rfl
  | resumes => exact .nothing rfl rfl
  | resets => exact .batch rfl rfl (List.cons_ne_nil _ _) (barePackets_fit _)
  | closes => exact .batch rfl rfl (List.cons_ne_nil _ _) (barePackets_fit _)
  | finishes => exact planFinish_lawful s

theorem SessionPath.lawful {s : Session} {p : Plan} (h : SessionPath s p) : Lawful s p := by
  induction h with
  | nil s => exact .nothing rfl rfl
  | @cons s p q hstep hpath ih =>
      have hfirst := hstep.lawful
      have hshared : p.session.options.shared = s.options.shared := by rw [hstep.options]
      refine ⟨?_, hfirst.header.append ih.header, ?_, ?_⟩
      · intro a ha
        rcases List.mem_append.mp ha with ha | ha
        · exact hfirst.sound a ha
        · exact ih.sound a ha
      · intro hclose
        by_cases hp : Act.close ∈ p.acts
        · -- the sink is let go with the close, so nothing can follow it
          obtain ⟨hown, hreleased, hbefore⟩ := hfirst.last hp
          obtain ⟨hnone, hreleased'⟩ := hpath.released hreleased
          exact ⟨hown, hreleased', by rwa [hnone, List.append_nil]⟩
        · have hq : Act.close ∈ q.acts := (List.mem_append.mp hclose).resolve_left hp
          obtain ⟨hown, hreleased, before, hsplit, hbefore⟩ := ih.last hq
          refine ⟨hshared ▸ hown, hreleased, p.acts ++ before, ?_, ?_⟩
          · rw [hsplit, List.append_assoc]
          · exact fun h => (List.mem_append.mp h).elim hp hbefore
      · intro hholds hends hown
        cases hmid : p.session.holdsSink with
        | true =>
            obtain ⟨hclose, howed⟩ := ih.settled hmid hends (hshared.trans hown)
            exact ⟨List.mem_append_right _ hclose, howed⟩
        | false =>
            obtain ⟨hclose, howed⟩ := hfirst.settled hholds hmid hown
            have hheader := ih.header
            rw [howed] at hheader
            exact ⟨List.mem_append_left _ hclose, hheader.settled⟩

/-! ### Holding the sink -/

/-- The session holds its sink as long as it is not closed. -/
def Session.Holds (s : Session) : Prop := s.holdsSink = true ↔ s.phase ≠ .closed

theorem SessionStep.holds {s : Session} {p : Plan} (h : SessionStep s p) (hs : s.Holds) :
    p.session.Holds := by
  cases h with
  | starts connection channel hphase =>
      have htrue := hs.mpr (by rw [hphase]; decide)
      cases channel <;> simp [Session.Holds, planStart, planNothing, htrue]
  | sends d data flow =>
      unfold planTcp
      dsimp only
      split
      · rwa [Session.Holds, planBatch_holdsSink, planBatch_phase]
      · exact hs
  | reports d data near known far =>
      unfold planUdp
      split
      · cases far with
        | none => exact hs
        | some far => rwa [Session.Holds, planBatch_holdsSink, planBatch_phase]
      · exact hs
  | marks => exact hs
  | pauses hphase =>
      have htrue := hs.mpr (by rw [hphase]; decide)
      simp [Session.Holds, planNothing, htrue]
  | resumes hphase =>
      have htrue := hs.mpr (by rw [hphase]; decide)
      simp [Session.Holds, planNothing, htrue]
  | resets => rwa [Session.Holds, planBatch_holdsSink, planBatch_phase]
  | closes => rwa [Session.Holds, planBatch_holdsSink, planBatch_phase]
  | finishes =>
      unfold planFinish
      split <;> simp [Session.Holds, ended]

theorem SessionPath.holds {s : Session} {p : Plan} (h : SessionPath s p) (hs : s.Holds) :
    p.session.Holds := by
  induction h with
  | nil s => exact hs
  | cons hstep _ ih => exact ih (hstep.holds hs)

/-! ### The bytes of a run -/

def SinkCall.bytes : SinkCall → Bytes
  | write bytes => bytes
  | _ => []

/-- What the calls write, all together. -/
def written (calls : List SinkCall) : Bytes := calls.flatMap SinkCall.bytes

@[simp] theorem written_append (calls more : List SinkCall) :
    written (calls ++ more) = written calls ++ written more := by
  simp [written]

/-- The records of the acts, each stamped with the time of its act. -/
def timedRecords (acts : List (Timestamp × Act)) : List Record :=
  acts.flatMap fun x => x.2.packets.map (Packet.record x.1)

def timedCalls (acts : List (Timestamp × Act)) : List SinkCall := acts.flatMap fun x => x.2.calls x.1

/-- Acts write whole records, after the file header if it was owed and has been settled. -/
theorem written_timedCalls {owed owed' : Bool} {acts : List (Timestamp × Act)}
    (h : Act.HeaderFirst owed (acts.map Prod.snd) owed') :
    written (timedCalls acts) =
      (if owed = true ∧ owed' = false then CaptureFile.header else []) ++
        CaptureFile.encode (timedRecords acts) := by
  induction acts generalizing owed with
  | nil =>
      have howed : owed' = owed := h
      rw [howed, if_neg (by simp)]
      rfl
  | cons x acts ih =>
      obtain ⟨now, a⟩ := x
      have hrest : written (timedCalls acts) = CaptureFile.encode (timedRecords acts) := by
        cases a <;> simpa using ih h.2
      cases a with
      | append header packets =>
          obtain ⟨rfl, hsettled⟩ := h
          have hnow : written (timedCalls ((now, .append header packets) :: acts)) =
              Act.content now header packets ++ written (timedCalls acts) := by
            simp [timedCalls, Act.calls, SinkCall.bytes, written]
          have hrecords : timedRecords ((now, .append header packets) :: acts) =
              packets.map (Packet.record now) ++ timedRecords acts := rfl
          calc
            _ = Act.content now header packets ++ CaptureFile.encode (timedRecords acts) := by
              rw [hnow, hrest]
            _ = _ := by
              rw [Act.content, hrecords, CaptureFile.encode_append, List.append_assoc]
              simp only [hsettled.settled, and_true]
      | close =>
          have hheader : owed = false := h.1
          rw [if_neg (by simp [hheader])]
          exact hrest

/-- Each write among the calls of some acts is one append, and the flush follows it. -/
theorem timedCalls_split {acts : List (Timestamp × Act)} {before after : List SinkCall}
    {bytes : Bytes} (h : timedCalls acts = before ++ .write bytes :: after) :
    ∃ first now header packets last, acts = first ++ (now, .append header packets) :: last ∧
      before = timedCalls first ∧ bytes = Act.content now header packets ∧
      after = .flush :: timedCalls last := by
  induction acts generalizing before with
  | nil => simp [timedCalls] at h
  | cons x acts ih =>
      obtain ⟨now, a⟩ := x
      have hcons : timedCalls ((now, a) :: acts) = a.calls now ++ timedCalls acts := rfl
      rw [hcons] at h
      cases a with
      | append header packets =>
          rw [Act.calls, List.cons_append, List.cons_append, List.nil_append] at h
          rcases before with _ | ⟨c, _ | ⟨c', before⟩⟩
          · injection h with hwrite hafter
            injection hwrite with hbytes
            exact ⟨[], now, header, packets, acts, rfl, rfl, hbytes.symm, hafter.symm⟩
          · injection h with _ hflush
            injection hflush with hflush
            cases hflush
          · injection h with hc h
            injection h with hc' h
            obtain ⟨first, t, header', packets', last, hacts, hbefore, hrest⟩ := ih h
            refine ⟨(now, .append header packets) :: first, t, header', packets', last, ?_, ?_, hrest⟩
            · rw [hacts]
              rfl
            · rw [← hc, ← hc', hbefore]
              rfl
      | close =>
          rw [Act.calls, List.cons_append, List.nil_append] at h
          rcases before with _ | ⟨c, before⟩
          · injection h with hclose
            cases hclose
          · injection h with hc h
            obtain ⟨first, t, header', packets', last, hacts, hbefore, hrest⟩ := ih h
            refine ⟨(now, .close) :: first, t, header', packets', last, ?_, ?_, hrest⟩
            · rw [hacts]
              rfl
            · rw [← hc, hbefore]
              rfl

theorem close_mem_timedCalls {acts : List (Timestamp × Act)} :
    SinkCall.close ∈ timedCalls acts ↔ Act.close ∈ acts.map Prod.snd := by
  simp only [timedCalls, List.mem_flatMap, List.mem_map]
  constructor
  · rintro ⟨⟨now, a⟩, hmem, hclose⟩
    cases a with
    | append header packets => simp [Act.calls] at hclose
    | close => exact ⟨(now, .close), hmem, rfl⟩
  · rintro ⟨⟨now, a⟩, hmem, rfl⟩
    exact ⟨(now, .close), hmem, List.mem_singleton.mpr rfl⟩

/-- The header of an append in the midst of acts that follow an owed header. -/
theorem Act.HeaderFirst.header_of_split {owed owed' : Bool} {first last : List Act} {header : Bool}
    {packets : List Packet} (h : HeaderFirst owed (first ++ .append header packets :: last) owed') :
    header = (owed && first.isEmpty) := by
  cases first with
  | nil => simpa using h.1
  | cons a first =>
      have hrest : HeaderFirst false (first ++ .append header packets :: last) owed' := by
        cases a <;> exact h.2
      clear h
      induction first with
      | nil => simpa using hrest.1
      | cons b first ih => exact ih (by cases b <;> exact hrest.2)

/-! ### Runs -/

/-- The file header of a session that writes one. -/
def Options.front (o : Options) : Bytes :=
  if o.shared = false ∧ o.fileHeader = true then CaptureFile.header else []

/-- Whole records, all of them exact, after some bytes. -/
def WholeRecords (front bytes : Bytes) : Prop :=
  ∃ records, bytes = front ++ CaptureFile.encode records ∧ ∀ r ∈ records, r.Exact

/-- What a session with the given options has made of its sink, the first call first, when it is in a
phase. -/
structure SinkUse (o : Options) (phase : Phase) (calls : List SinkCall) : Prop where
  /-- Nothing is written, or the header and whole records. -/
  contents : written calls = [] ∨ WholeRecords o.front (written calls)
  /-- A write has something in it, begins with the header if it is the first call, holds whole records
  otherwise, and is flushed. -/
  writes : ∀ before bytes after, calls = before ++ .write bytes :: after →
    bytes ≠ [] ∧ WholeRecords (if before = [] then o.front else []) bytes ∧
      ∃ rest, after = .flush :: rest
  /-- A session that closed a sink of its own left a readable capture, and closed it last. -/
  closed : o.shared = false → phase = .closed → WholeRecords o.front (written calls) ∧
    ∃ before, calls = before ++ [.close] ∧ .close ∉ before
  /-- A sink is not closed before the session, and a shared one not at all. -/
  unclosed : o.shared = true ∨ phase ≠ .closed → .close ∉ calls

namespace Session

variable (options : Options)

theorem create_holds : (create options).Holds := by simp [Holds, create]

theorem front_eq (options : Options) : options.front =
    if (create options).headerOwed = true then CaptureFile.header else [] := by
  simp [create, Options.front]

variable (events : List TimedEvent) (s : Session)

theorem timedActs_sound {now : Timestamp} {a : Act} (ha : (now, a) ∈ s.timedActs events) :
    a.Sound := by
  have hlawful := (planAll_path (events.map Prod.snd) s).lawful
  apply hlawful.sound
  rw [← timedActs_acts]
  exact List.mem_map_of_mem (f := Prod.snd) ha

theorem timedActs_headerFirst :
    Act.HeaderFirst s.headerOwed ((s.timedActs events).map Prod.snd)
      (s.planAll (events.map Prod.snd)).session.headerOwed := by
  rw [timedActs_acts]
  exact (planAll_path (events.map Prod.snd) s).lawful.header

/-- What an act of a run appends is exact as records. -/
theorem append_exact {now : Timestamp} {header : Bool} {packets : List Packet}
    (ha : (now, Act.append header packets) ∈ s.timedActs events) :
    ∀ r ∈ packets.map (Packet.record now), r.Exact := by
  intro r hr
  obtain ⟨p, hp, rfl⟩ := List.mem_map.mp hr
  exact ((timedActs_sound events s ha).2 p hp).record_exact now

theorem timedRecords_exact : ∀ r ∈ timedRecords (s.timedActs events), r.Exact := by
  intro r hr
  obtain ⟨⟨now, a⟩, ha, hr⟩ := List.mem_flatMap.mp hr
  cases a with
  | append header packets => exact append_exact events s ha r hr
  | close => cases hr

/-- The bytes of a run, once its session does not owe a header any more. -/
theorem written_intended (options : Options)
    (hsettled : ((create options).planAll (events.map Prod.snd)).session.headerOwed = false) :
    written ((create options).intended events) = options.front ++
      CaptureFile.encode (timedRecords ((create options).timedActs events)) := by
  have hheader := timedActs_headerFirst events (create options)
  rw [hsettled] at hheader
  rw [front_eq]
  refine (written_timedCalls hheader).trans ?_
  simp only [and_true]

theorem intended_contents (options : Options) :
    written ((create options).intended events) = [] ∨
      WholeRecords options.front (written ((create options).intended events)) := by
  cases howed : ((create options).planAll (events.map Prod.snd)).session.headerOwed with
  | true =>
      have hheader := timedActs_headerFirst events (create options)
      rw [howed] at hheader
      have hnone := List.map_eq_nil_iff.mp hheader.nil_of_owed
      left
      rw [intended, hnone]
      rfl
  | false =>
      right
      exact ⟨_, written_intended events options howed, timedRecords_exact events _⟩

theorem intended_writes (options : Options) {before after : List SinkCall} {bytes : Bytes}
    (h : (create options).intended events = before ++ .write bytes :: after) :
    bytes ≠ [] ∧ WholeRecords (if before = [] then options.front else []) bytes ∧
      ∃ rest, after = .flush :: rest := by
  have hheader := timedActs_headerFirst events (create options)
  obtain ⟨first, now, header, packets, last, hacts, hbefore, hbytes, hafter⟩ := timedCalls_split h
  have hmem : (now, Act.append header packets) ∈ (create options).timedActs events := by
    rw [hacts]
    exact List.mem_append_right first List.mem_cons_self
  rw [hacts, List.map_append, List.map_cons] at hheader
  have howed := hheader.header_of_split
  refine ⟨?_, ⟨packets.map (Packet.record now), ?_, append_exact events _ hmem⟩, _, hafter⟩
  · rcases (timedActs_sound events _ hmem).1 with hfront | hpackets
    · rw [hbytes, Act.content, hfront]
      exact List.cons_ne_nil _ _
    · obtain ⟨p, packets, rfl⟩ := List.exists_cons_of_ne_nil hpackets
      rw [hbytes, Act.content]
      intro hnil
      exact List.cons_ne_nil _ _ (List.append_eq_nil_iff.mp hnil).2
  · rw [hbytes, Act.content, howed, hbefore, front_eq]
    congr 1
    cases first with
    | nil => simp [timedCalls]
    | cons x first =>
        obtain ⟨t, a⟩ := x
        cases a <;> simp [timedCalls, Act.calls]

theorem intended_closed (options : Options) (hown : options.shared = false)
    (hphase : ((create options).planAll (events.map Prod.snd)).session.phase = .closed) :
    WholeRecords options.front (written ((create options).intended events)) ∧
      ∃ before, (create options).intended events = before ++ [.close] ∧ .close ∉ before := by
  have hpath := planAll_path (events.map Prod.snd) (create options)
  have hlawful := hpath.lawful
  have hreleased : ((create options).planAll (events.map Prod.snd)).session.holdsSink = false := by
    rw [← Bool.not_eq_true]
    exact fun hheld => (hpath.holds (create_holds options)).mp hheld hphase
  obtain ⟨hclose, hsettled⟩ := hlawful.settled rfl hreleased hown
  refine ⟨⟨_, written_intended events options hsettled, timedRecords_exact events _⟩, ?_⟩
  obtain ⟨-, -, before, hsplit, hbefore⟩ := hlawful.last hclose
  rw [← timedActs_acts] at hsplit
  obtain ⟨first, last, hacts, hfirst, hlast⟩ := List.map_eq_append_iff.mp hsplit
  obtain ⟨⟨now, a⟩, rest, rfl, rfl, hrest⟩ := List.map_eq_cons_iff.mp hlast
  rw [List.map_eq_nil_iff.mp hrest] at hacts
  refine ⟨timedCalls first, ?_, ?_⟩
  · rw [intended, hacts, List.flatMap_append]
    rfl
  · rwa [close_mem_timedCalls, hfirst]

theorem intended_unclosed (options : Options)
    (h : options.shared = true ∨
      ((create options).planAll (events.map Prod.snd)).session.phase ≠ .closed) :
    .close ∉ (create options).intended events := by
  have hpath := planAll_path (events.map Prod.snd) (create options)
  intro hmem
  have hclose := close_mem_timedCalls.mp hmem
  rw [timedActs_acts] at hclose
  obtain ⟨hown, hreleased, -⟩ := hpath.lawful.last hclose
  rcases h with hshared | hphase
  · exact absurd (hshared.symm.trans hown) (by decide)
  · have hheld := (hpath.holds (create_holds options)).mpr hphase
    exact absurd (hheld.symm.trans hreleased) (by decide)

/-- **A run against a sink that never fails uses the sink well.** Every prefix of a run is a run, so this
holds after each of its calls. -/
theorem run_uses_sink_well (options : Options) (events : List TimedEvent) :
    let course := (create options).run Sink.recording events []
    course.results = List.replicate events.length .done ∧
      SinkUse options course.session.phase course.sink.reverse := by
  dsimp only
  rw [run_recording_calls, run_recording]
  refine ⟨rfl, ?_⟩
  exact {
    contents := intended_contents events options
    writes := fun before bytes after h => intended_writes events options h
    closed := fun hown hphase => intended_closed events options hown hphase
    unclosed := fun h => intended_unclosed events options h }

end Session

end Wiretap
