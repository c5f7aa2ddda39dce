import Wiretap.Proofs.Conversation
import Wiretap.Proofs.Schedule

/-! Delivery. The books of a pump balance: what it has read is what the other stream has accepted and
what the pump still has to send, in this order, until a failure makes it keep bytes back. Bytes are
accepted out of what was read by earlier moves only, and the session was told of these when they were
read; so the capture of a TCP connection holds every byte before the peer gets it. -/

namespace Wiretap

namespace Direction

/-- The bytes that were read in a direction. -/
def received (d : Direction) (reads : List (Stream × ByteArray)) : Bytes :=
  reads.flatMap fun x => if x.1 = d.source then x.2.data.toList else []

/-- The end of the stream that a direction is read from was read. -/
def ended (d : Direction) (reads : List (Stream × ByteArray)) : Bool :=
  reads.any fun x => x.1 = d.source && x.2.isEmpty

/-- The bytes that the other stream accepted. -/
def accepted (d : Direction) (traffic : List Traffic) : Bytes :=
  traffic.flatMap fun x =>
    match x with
    | .sent s bytes => if s = d.target then bytes.data.toList else []
    | _ => []

/-- The bytes of the payloads that a session was told of. -/
def offered (d : Direction) (events : List Event) : Bytes :=
  events.flatMap fun e =>
    match e with
    | .payload d' data => if d' = d then data.data.toList else []
    | _ => []

section

variable (d : Direction)

@[simp] theorem received_append (reads more : List (Stream × ByteArray)) :
    d.received (reads ++ more) = d.received reads ++ d.received more :=
  List.flatMap_append

@[simp] theorem ended_append (reads more : List (Stream × ByteArray)) :
    d.ended (reads ++ more) = (d.ended reads || d.ended more) :=
  List.any_append

@[simp] theorem accepted_append (traffic more : List Traffic) :
    d.accepted (traffic ++ more) = d.accepted traffic ++ d.accepted more :=
  List.flatMap_append

@[simp] theorem offered_append (events more : List Event) :
    d.offered (events ++ more) = d.offered events ++ d.offered more :=
  List.flatMap_append

@[simp] theorem received_singleton (data : ByteArray) :
    d.received [(d.source, data)] = data.data.toList := by
  simp [received]

@[simp] theorem ended_singleton (data : ByteArray) : d.ended [(d.source, data)] = data.isEmpty := by
  simp [ended]

@[simp] theorem accepted_singleton (bytes : ByteArray) :
    d.accepted [.sent d.target bytes] = bytes.data.toList := by
  simp [accepted]

end

end Direction

theorem toList_eq_nil {data : ByteArray} (h : data.isEmpty = true) : data.data.toList = [] := by
  apply List.eq_nil_of_length_eq_zero
  rw [toList_length]
  exact (isEmpty_iff_size data).mp h

theorem extract_toList_append (data : ByteArray) (n : Nat) :
    (data.extract 0 n).data.toList ++ (data.extract n data.size).data.toList = data.data.toList := by
  have hlength : (data.data.toList.drop n).length = data.size - n := by
    rw [List.length_drop, toList_length]
  rw [extract_toList, extract_toList, List.take_of_length_le (Nat.le_of_eq hlength), List.drop_zero, Nat.sub_zero,
    List.take_append_drop]

/-! ### The books of a pump -/

/-- How what a pump was given stands to what it passed on. A pump that reads or is done owes nothing; one
that has failed, or was stopped for a failure, may have kept bytes back. -/
def Pump.Balances (accepted received : Bytes) (ended failure : Bool) : Pump → Prop
  | reading => ended = false ∧ accepted = received
  | sending rest => ended = false ∧ accepted ++ rest.data.toList = received
  | .ended => ended = true ∧ accepted = received
  | failed _ => ended = false ∧ accepted <+: received
  | gone => (ended = true ∧ accepted = received) ∨
      (ended = false ∧ failure = true ∧ accepted <+: received)

namespace Pump

variable {panics : Prop} {d : Direction} {p q : Pump} {reads : List (Stream × ByteArray)}
  {traffic : List Traffic} {accepted received : Bytes} {ended failure : Bool}

theorem Balances.begins (h : p.Balances accepted received ended failure) : accepted <+: received := by
  cases p with
  | reading => exact ⟨[], by rw [List.append_nil, h.2]⟩
  | sending rest => exact ⟨_, h.2⟩
  | ended => exact ⟨[], by rw [List.append_nil, h.2]⟩
  | failed e => exact h.2
  | gone =>
      rcases h with ⟨-, hall⟩ | ⟨-, -, hpart⟩
      · exact ⟨[], by rw [List.append_nil, hall]⟩
      · exact hpart

/-- A pump that has read the end of its stream has passed on all that it was given. -/
theorem Balances.all_of_ended (h : p.Balances accepted received true failure) :
    accepted = received := by
  cases p with
  | reading => cases h.1
  | sending rest => cases h.1
  | ended => exact h.2
  | failed e => cases h.1
  | gone =>
      rcases h with ⟨-, hall⟩ | ⟨hended, -⟩
      · exact hall
      · cases hended

/-- A pump that has failed is noticed to be gone. -/
theorem Balances.gone {e : IoError} (h : (Pump.failed e).Balances accepted received ended failure) :
    Pump.gone.Balances accepted received ended true :=
  .inr ⟨h.1, rfl, h.2⟩

/-- A running pump is stopped for a failure. -/
theorem Balances.stop (h : p.Balances accepted received ended failure) (hrunning : p.isRunning = true) :
    Pump.gone.Balances accepted received ended true := by
  have hbegins := h.begins
  cases p with
  | reading => exact .inr ⟨h.1, rfl, hbegins⟩
  | sending rest => exact .inr ⟨h.1, rfl, hbegins⟩
  | _ => cases hrunning

/-- The first failure is known from now on. -/
theorem Balances.of_failure (h : p.Balances accepted received ended failure) :
    p.Balances accepted received ended true := by
  cases p with
  | gone => exact h.imp id fun hpart => ⟨hpart.1, rfl, hpart.2.2⟩
  | _ => exact h

/-- **A step of a pump keeps its books.** -/
theorem Step.balances (h : Step panics d p reads traffic q)
    (hp : p.Balances accepted received ended failure) :
    q.Balances (accepted ++ d.accepted traffic) (received ++ d.received reads)
      (ended || d.ended reads) failure := by
  have hquiet : ∀ s n, d.accepted [.read s n] = [] := fun s n => rfl
  cases h with
  | takes data hsome =>
      obtain ⟨hended, hall⟩ := hp
      refine ⟨by simp [hended, hsome], ?_⟩
      rw [hquiet, List.append_nil, Direction.received_singleton, hall]
  | breaks data hsome hpanic =>
      obtain ⟨hended, hall⟩ := hp
      refine ⟨by simp [hended, hsome], ?_⟩
      rw [hquiet, List.append_nil, hall]
      exact List.prefix_append received _
  | ends data hnone =>
      obtain ⟨hended, hall⟩ := hp
      have hbytes : d.received [(d.source, data)] = [] := by
        rw [Direction.received_singleton, toList_eq_nil hnone]
      refine ⟨by simp [hnone], ?_⟩
      rw [hbytes, List.append_nil, ← hall]
      exact List.append_nil accepted
  | readFails e =>
      obtain ⟨hended, hall⟩ := hp
      refine ⟨by rw [hended]; rfl, [], ?_⟩
      simp [Direction.accepted, Direction.received, hall]
  | sends rest n hsome =>
      obtain ⟨hended, hall⟩ := hp
      -- what is accepted now and what is left are the rest as it was
      have hsplit : accepted ++ (rest.extract 0 n).data.toList ++
          (rest.extract n rest.size).data.toList = received := by
        rw [List.append_assoc, extract_toList_append, hall]
      rw [Direction.accepted_singleton]
      split
      · rename_i hnone
        rw [toList_eq_nil hnone, List.append_nil] at hsplit
        exact ⟨by rw [hended]; rfl, by rw [hsplit]; exact (List.append_nil received).symm⟩
      · exact ⟨by rw [hended]; rfl, by rw [hsplit]; exact (List.append_nil received).symm⟩
  | stalls rest n hnone =>
      obtain ⟨hended, hall⟩ := hp
      refine ⟨by rw [hended]; rfl, rest.data.toList, ?_⟩
      rw [Direction.accepted_singleton, toList_eq_nil hnone, List.append_nil, hall]
      exact (List.append_nil received).symm
  | sendFails rest e =>
      obtain ⟨hended, hall⟩ := hp
      refine ⟨by rw [hended]; rfl, rest.data.toList, ?_⟩
      simp [Direction.accepted, Direction.received, hall]

/-- A pump does not read and send in one step. -/
theorem Step.reads_or_sends (h : Step panics d p reads traffic q) :
    reads = [] ∨ d.accepted traffic = [] := by
  cases h with
  | takes => exact .inr rfl
  | breaks => exact .inr rfl
  | ends => exact .inr rfl
  | _ => exact .inl rfl

theorem Step.counted (h : Step panics d p reads traffic q) :
    readLength reads = (d.received reads).length := by
  cases h with
  | takes data | breaks data | ends data =>
      rw [Direction.received_singleton, toList_length]
      rfl
  | _ => rfl

/-- A step of a pump is nothing to the other direction. -/
theorem Step.other (h : Step panics d p reads traffic q) {d' : Direction} (hd : d' ≠ d) :
    d'.received reads = [] ∧ d'.ended reads = false ∧ d'.accepted traffic = [] := by
  cases h <;> simp [Direction.received, Direction.ended, Direction.accepted, Direction.source_eq_iff,
    Direction.target_eq_iff, hd.symm]

end Pump

/-! ### The books of a relay -/

/-- What a relay has done in a direction, by what the streams saw. -/
structure Wire.Accounts (x : Wire) (d : Direction) (reads : List (Stream × ByteArray))
    (traffic : List Traffic) : Prop where
  counted : x.forwarded.of d = .ofNat (d.received reads).length
  balances : (x.pump d).Balances (d.accepted traffic) (d.received reads) (d.ended reads)
    x.failure.isSome

namespace Wire

variable {panics : Prop} {x y : Wire} {d : Direction} {reads taken : List (Stream × ByteArray)}
  {traffic seen : List Traffic}

/-- The end of a pump is noticed. -/
theorem Accounts.noticed (h : x.Accounts d reads traffic) (hforwarded : y.forwarded = x.forwarded)
    (hbalances : (y.pump d).Balances (d.accepted traffic) (d.received reads) (d.ended reads)
      y.failure.isSome) : y.Accounts d reads traffic :=
  ⟨by rw [hforwarded, h.counted], hbalances⟩

/-- **A move keeps the books of both directions.** -/
theorem Turn.accounts (h : x.Turn panics taken seen y) (hx : x.Accounts d reads traffic) :
    y.Accounts d (reads ++ taken) (traffic ++ seen) := by
  have hbalances := hx.balances
  cases h with
  | stays =>
      rw [List.append_nil, List.append_nil]
      exact hx
  | pumps d' hstep =>
      by_cases hd : d = d'
      · subst hd
        refine ⟨?_, ?_⟩
        · rw [forwarded_setPump, Tally.of_add_same, hx.counted, Direction.received_append,
            List.length_append, hstep.counted, UInt64.ofNat_add]
        · rw [pump_setPump, failure_setPump, Direction.accepted_append, Direction.received_append,
            Direction.ended_append]
          exact hstep.balances hbalances
      · obtain ⟨hreceived, hended, haccepted⟩ := hstep.other hd
        refine ⟨?_, ?_⟩
        · rw [forwarded_setPump, Tally.of_add_other _ _ hd, hx.counted, Direction.received_append,
            hreceived, List.append_nil]
        · rw [pump_setPump_other _ _ hd, failure_setPump, Direction.accepted_append,
            Direction.received_append, Direction.ended_append, hreceived, hended, haccepted,
            List.append_nil, List.append_nil, Bool.or_false]
          exact hbalances
  | joins d' hpump =>
      rw [List.append_nil, List.append_nil]
      refine hx.noticed (x.forwarded_setPump .gone d') ?_
      rw [failure_setPump]
      by_cases hd : d = d'
      · rw [hd, hpump] at hbalances
        rw [hd, pump_setPump]
        exact .inl hbalances
      · rwa [pump_setPump_other _ _ hd]
  | fails d' e hpump hfirst =>
      rw [List.append_nil, List.append_nil]
      refine hx.noticed ?_ ?_
      · rw [forwarded_stop]
        exact x.forwarded_setPump .gone d'
      · rw [failure_stop]
        -- the pump that failed, the other one that is done, the other one that still waits
        rcases x.pump_fails e d' d with ⟨hd, hgone⟩ | ⟨-, hsame | ⟨hrunning, hgone⟩⟩
        · rw [hd, hpump] at hbalances
          rw [hgone, hd]
          exact hbalances.gone
        · rw [hsame]
          exact hbalances.of_failure
        · rw [hgone]
          exact hbalances.stop hrunning
  | failsLater d' e hpump hlater =>
      rw [List.append_nil, List.append_nil]
      refine hx.noticed (x.forwarded_setPump .gone d') ?_
      rw [failure_setPump, hlater]
      rw [hlater] at hbalances
      by_cases hd : d = d'
      · rw [hd, hpump] at hbalances
        rw [hd, pump_setPump]
        exact hbalances.gone
      · rwa [pump_setPump_other _ _ hd]

/-- A move does not read and send in one direction. -/
theorem Turn.reads_or_sends (h : x.Turn panics taken seen y) (d : Direction) :
    d.received taken = [] ∨ d.accepted seen = [] := by
  cases h with
  | pumps d' hstep =>
      by_cases hd : d = d'
      · subst hd
        exact hstep.reads_or_sends.imp (fun hnone => by rw [hnone]; rfl) id
      · exact .inl (hstep.other hd).1
  | _ => exact .inl rfl

/-- What has been accepted after a move had been read before it. -/
theorem Turn.accepted_begins (h : x.Turn panics taken seen y) (hx : x.Accounts d reads traffic) :
    d.accepted (traffic ++ seen) <+: d.received reads := by
  have hafter := (h.accounts hx).balances.begins
  rcases h.reads_or_sends d with hnone | hnone
  · rwa [Direction.received_append, hnone, List.append_nil] at hafter
  · rw [Direction.accepted_append, hnone, List.append_nil]
    exact hx.balances.begins

end Wire

/-! ### What the session is offered -/

theorem Stream.direction_eq_iff (s : Stream) (d : Direction) : s.direction = d ↔ s = d.source := by
  cases s <;> cases d <;> simp [Stream.direction, Direction.source]

/-- The payloads that a session is told of when bytes are read are these bytes. -/
theorem Direction.offered_ofRead (d : Direction) (reads : List (Stream × ByteArray)) :
    d.offered (reads.map Event.ofRead) = d.received reads := by
  induction reads with
  | nil => rfl
  | cons x reads ih =>
      obtain ⟨s, data⟩ := x
      have hread : d.offered [Event.ofRead (s, data)] = d.received [(s, data)] := by
        unfold Event.ofRead
        split
        · rename_i hnone
          have hbytes : data.data.toList = [] := toList_eq_nil hnone
          simp [offered, received, hbytes]
        · simp [offered, received, Stream.direction_eq_iff]
      calc
        d.offered (Event.ofRead (s, data) :: reads.map Event.ofRead) =
            d.offered [Event.ofRead (s, data)] ++ d.offered (reads.map Event.ofRead) :=
          d.offered_append [_] _
        _ = d.received [(s, data)] ++ d.received reads := by rw [hread, ih]
        _ = d.received ((s, data) :: reads) := (d.received_append [_] _).symm

theorem Relay.offered_tells {σ : Type} (r : Relay σ) (m : Move) (d : Direction) :
    d.offered (r.tells m) = d.received (r.bytesTaken m) := by
  have hrequests : d.offered m.requests = [] := by cases m <;> rfl
  rw [tells, Direction.offered_append, Direction.offered_ofRead, hrequests, List.append_nil]

namespace Passage

variable {σ : Type} {sink : Sink σ}

/-- The books of a direction, with what the session was told. -/
structure Ledger (p : Passage σ) (d : Direction) : Prop where
  offered : d.offered (p.told.map Prod.snd) = d.received p.reads
  accounts : p.relay.wire.Accounts d p.reads p.traffic

theorem step_ledger {p : Passage σ} {d : Direction} (x : TimedMove) (h : p.Ledger d) :
    (p.step sink x).Ledger d := by
  refine ⟨?_, (p.relay.step_turn x.1 x.2).accounts h.accounts⟩
  rw [step_told, Direction.offered_append, h.offered, Relay.offered_tells]
  exact (d.received_append _ _).symm

theorem follow_ledger (now : Timestamp) (connection : Connection) (session : Session) (w : σ)
    (moves : List TimedMove) (d : Direction) :
    ((start sink now connection session w).follow sink moves).Ledger d := by
  refine follow_keeps (P := fun p => p.Ledger d) (fun p x _ hp => step_ledger x hp) ?_
  refine ⟨rfl, ?_, ?_⟩
  · cases d <;> rfl
  · cases d <;> exact ⟨rfl, rfl⟩

/-- What the peer has accepted after a move had been read before it. -/
theorem Ledger.accepted_begins {p : Passage σ} {d : Direction} (h : p.Ledger d) (x : TimedMove) :
    d.accepted (p.step sink x).traffic <+: d.received p.reads :=
  (p.relay.step_turn x.1 x.2).accepted_begins h.accounts

/-- What a relay does in a direction, whatever its session and its sink do. -/
structure Delivers (p : Passage σ) (d : Direction) : Prop where
  /-- The payloads that the session was told of are the bytes that were read. -/
  offered : d.offered (p.told.map Prod.snd) = d.received p.reads
  /-- All of them are counted, in 64 bits. -/
  counted : (p.relay.forwarded.of d).toNat = (d.received p.reads).length % UInt64.size
  /-- The peer has accepted a beginning of them. -/
  begins : d.accepted p.traffic <+: d.offered (p.told.map Prod.snd)
  /-- It has accepted them all when the end of the stream is read. -/
  completes : d.ended p.reads = true → d.accepted p.traffic = d.received p.reads
  /-- A relay that is over without a failure has read the end. -/
  finishes : p.relay.isOver = true → p.relay.failure = none → d.ended p.reads = true

theorem Ledger.delivers {p : Passage σ} {d : Direction} (h : p.Ledger d) : p.Delivers d where
  offered := h.offered
  counted := by
    have hcounted : p.relay.forwarded.of d = .ofNat (d.received p.reads).length := h.accounts.counted
    rw [hcounted]
    exact UInt64.toNat_ofNat'
  begins := by
    rw [h.offered]
    exact h.accounts.balances.begins
  completes hended := by
    have hbalances := h.accounts.balances
    rw [hended] at hbalances
    exact hbalances.all_of_ended
  finishes hover hfailure := by
    have hbalances := h.accounts.balances
    rw [Relay.wire_pump, Relay.pump_of_isOver hover] at hbalances
    rcases hbalances with ⟨hended, -⟩ | ⟨-, hfailed, -⟩
    · exact hended
    · rw [Relay.wire, hfailure] at hfailed
      cases hfailed

end Passage

/-! ### The capture of a TCP connection -/

/-- What a side sent in some transfers. -/
def sentBy (side : Side) (sent : List Transfer) : Bytes :=
  (sent.filter fun t => t.sender = side).flatMap Transfer.payload

/-- Each transfer stands where the ones before it leave off, when so many bytes of a side went before
all of them. -/
def Transfer.InOrder : (Side → Nat) → List Transfer → Prop
  | _, [] => True
  | count, t :: rest => t.before = count t.sender ∧ t.received = count t.sender.opposite ∧
      InOrder (fun side => count side + (sentBy side [t]).length) rest

section

theorem sentBy_append (side : Side) (sent more : List Transfer) :
    sentBy side (sent ++ more) = sentBy side sent ++ sentBy side more := by
  simp [sentBy]

theorem Transfer.InOrder.append {count : Side → Nat} {sent more : List Transfer}
    (h : InOrder count sent)
    (hmore : InOrder (fun side => count side + (sentBy side sent).length) more) :
    InOrder count (sent ++ more) := by
  induction sent generalizing count with
  | nil => exact hmore
  | cons t sent ih =>
      refine ⟨h.1, h.2.1, ih h.2.2 ?_⟩
      have hcount : (fun side => count side + (sentBy side [t]).length + (sentBy side sent).length) =
          fun side => count side + (sentBy side (t :: sent)).length := by
        funext side
        have hsplit := sentBy_append side [t] sent
        rw [List.singleton_append] at hsplit
        rw [hsplit, List.length_append, Nat.add_assoc]
      rw [hcount]
      exact hmore

variable (flow : Flow)

theorem Transfer.series_inOrder (sender : Side) (parts : List Bytes) (count : Side → Nat) :
    InOrder count (series sender (count sender) (count sender.opposite) parts) := by
  induction parts generalizing count with
  | nil => trivial
  | cons part parts ih =>
      refine ⟨rfl, rfl, ?_⟩
      have hnext := ih fun side => count side + (sentBy side
        [⟨sender, count sender, count sender.opposite, part⟩]).length
      have hsender : (sentBy sender [⟨sender, count sender, count sender.opposite, part⟩]).length =
          part.length := by
        simp [sentBy]
      have hopposite : (sentBy sender.opposite
          [⟨sender, count sender, count sender.opposite, part⟩]).length = 0 := by
        simp [sentBy, (Side.opposite_ne sender).symm]
      rwa [hsender, hopposite] at hnext

/-- A session that is not told to pause is not paused. -/
theorem paused_concat_of_ne {before : List Event} {e : Event} (hbefore : paused before = false)
    (he : e ≠ .pause) : paused (before ++ [e]) = false := by
  rw [paused_concat]
  cases e with
  | pause => exact absurd rfl he
  | resume => rfl
  | _ => exact hbefore

theorem sentBy_transfersOf_length (zeroBytes : Bool) (side : Side) {before : List Event}
    (hbefore : paused before = false) (e : Event) :
    (sentBy side (transfersOf flow zeroBytes before e)).length = observed flow side [e] := by
  cases e with
  | payload d data =>
      rw [sentBy, transfersOf_payloads, observed, observed, Nat.add_zero]
      by_cases hside : flow.sender d = side
      · rw [if_pos ⟨hside, hbefore⟩, if_pos hside, toList_length]
      · rw [if_neg fun h => hside h.1, if_neg hside]
        rfl
  | _ => rfl

theorem transfersOf_inOrder (zeroBytes : Bool) (before : List Event) (e : Event) :
    Transfer.InOrder (fun side => observed flow side before) (transfersOf flow zeroBytes before e) := by
  cases e with
  | payload d data =>
      rw [transfersOf]
      split
      · trivial
      · exact Transfer.series_inOrder _ _ fun side => observed flow side before
  | _ => trivial

/-- While a session is not paused, each transfer stands where the ones before it leave off. -/
theorem transfers_inOrder (zeroBytes : Bool) {before events : List Event}
    (hbefore : paused before = false) (hnever : ∀ e ∈ events, e ≠ .pause) :
    Transfer.InOrder (fun side => observed flow side before)
      (transfers flow zeroBytes before events) := by
  induction events generalizing before with
  | nil => trivial
  | cons e events ih =>
      refine (transfersOf_inOrder flow zeroBytes before e).append ?_
      have hrest := ih (paused_concat_of_ne hbefore (hnever e List.mem_cons_self))
        fun e he => hnever e (List.mem_cons_of_mem _ he)
      have hcount : (fun side => observed flow side before +
          (sentBy side (transfersOf flow zeroBytes before e)).length) =
            fun side => observed flow side (before ++ [e]) := by
        funext side
        rw [observed_append, sentBy_transfersOf_length flow zeroBytes side hbefore]
      rwa [hcount]

theorem Flow.sender_eq_iff (d d' : Direction) : flow.sender d = flow.sender d' ↔ d = d' := by
  cases d <;> cases d' <;> cases h : flow.localIsServer <;> simp [Flow.sender, h]

/-- While a session is not paused, a side sends what the session is offered in its direction. -/
theorem spoken_sender (d : Direction) {before events : List Event} (hbefore : paused before = false)
    (hnever : ∀ e ∈ events, e ≠ .pause) :
    spoken flow (flow.sender d) before events = d.offered events := by
  induction events generalizing before with
  | nil => rfl
  | cons e events ih =>
      have hrest := ih (paused_concat_of_ne hbefore (hnever e List.mem_cons_self))
        fun e he => hnever e (List.mem_cons_of_mem _ he)
      have hsplit : d.offered (e :: events) = d.offered [e] ++ d.offered events :=
        d.offered_append [e] events
      rw [hsplit]
      cases e with
      | payload d' data =>
          rw [spoken, hrest]
          congr 1
          simp [Direction.offered, Flow.sender_eq_iff, hbefore]
      | _ => exact hrest

theorem transfers_append (zeroBytes : Bool) (before events more : List Event) :
    transfers flow zeroBytes before (events ++ more) =
      transfers flow zeroBytes before events ++ transfers flow zeroBytes (before ++ events) more := by
  induction events generalizing before with
  | nil => rw [List.append_nil]; rfl
  | cons e events ih =>
      rw [List.cons_append, transfers, ih, transfers, List.append_assoc, List.append_assoc]
      rfl

end

/-- A sink that never fails is given what the session means to write. -/
theorem Session.written_never_fails {σ : Type} {sink : Sink σ} (hok : ∀ c w, (sink.call c w).1 = .ok)
    (events : List TimedEvent) (s : Session) (w : σ) :
    written ((s.run sink.traced events (w, [])).sink.2.reverse.map Prod.fst) =
      written (s.intended events) := by
  obtain ⟨-, -, htrace⟩ := run_never_fails hok events s w
  rw [htrace, ← List.map_reverse, run_recording_calls, List.map_map]
  exact congrArg written (List.map_id _)

/-- A move that neither pauses the session nor closes it. -/
def Move.leavesOpen : Move → Bool
  | .pause => false
  | .close => false
  | _ => true

/-- What the sink of a relay was given to write. -/
def Relay.file {σ : Type} (r : Relay (σ × List Answer)) : Bytes :=
  written (r.sink.2.reverse.map Prod.fst)

theorem Event.isTalk_ofRead (x : Stream × ByteArray) :
    (Event.ofRead x).isTalk = true ∧ Event.ofRead x ≠ .pause := by
  unfold Event.ofRead
  split <;> exact ⟨rfl, Event.noConfusion⟩

/-- The session is told of a read or passed a request. -/
theorem Relay.tells_cases {σ : Type} (r : Relay σ) {m : Move} {e : Event} (he : e ∈ r.tells m) :
    (∃ x, e = .ofRead x) ∨ (m = .pause ∧ e = .pause) ∨ (m = .resume ∧ e = .resume) ∨
      (m = .close ∧ e = .close) := by
  rcases List.mem_append.mp he with hread | hrequest
  · obtain ⟨x, -, rfl⟩ := List.mem_map.mp hread
    exact .inl ⟨x, rfl⟩
  · right
    cases m with
    | pause => exact .inl ⟨rfl, List.mem_singleton.mp hrequest⟩
    | resume => exact .inr (.inl ⟨rfl, List.mem_singleton.mp hrequest⟩)
    | close => exact .inr (.inr ⟨rfl, List.mem_singleton.mp hrequest⟩)
    | _ => cases hrequest

theorem Relay.tells_open {σ : Type} (r : Relay σ) {m : Move} (hm : m.leavesOpen = true) :
    ∀ e ∈ r.tells m, e.isTalk = true ∧ e ≠ .pause := by
  intro e he
  rcases r.tells_cases he with ⟨x, rfl⟩ | ⟨rfl, -⟩ | ⟨-, rfl⟩ | ⟨rfl, -⟩
  · exact Event.isTalk_ofRead x
  · cases hm
  · exact ⟨rfl, Event.noConfusion⟩
  · cases hm

namespace Passage

variable {σ : Type} {sink : Sink σ}

/-- The file of a relay whose sink never fails is what its session meant to write. -/
theorem file_eq (hok : ∀ c w, (sink.call c w).1 = .ok) (now : Timestamp) (connection : Connection)
    (session : Session) (w : σ) (moves : List TimedMove) :
    let p := (start sink.traced now connection session (w, [])).follow sink.traced moves
    p.relay.file = written (session.intended ((now, .active (some connection)) :: p.told)) := by
  obtain ⟨-, hsink⟩ := @follow_capture _ sink.traced now connection session (w, []) moves
  dsimp only at hsink ⊢
  rw [Relay.file, hsink, Session.written_never_fails hok]

/-- The file of a relay on a TCP connection is the header, the handshake, and the transfers with their
acknowledgments; put together in order, those of a side are the bytes that were read from it. -/
structure Captures (options : Options) (flow : Flow) (p : Passage (σ × List Answer))
    (records : List Record) (sent : List Transfer) : Prop where
  file : p.relay.file = options.front ++ CaptureFile.encode records
  frames : records.map Record.frame =
    (barePackets flow.handshake.1 ++ sent.flatMap (Transfer.packets flow)).map Packet.frame
  inOrder : Transfer.InOrder (fun _ => 0) sent
  whole : ∀ d, sentBy (flow.sender d) sent = d.received p.reads

section

variable {options : Options} {flow : Flow} {connection : Connection} {moves : List TimedMove}
  (now : Timestamp) (w : σ)

theorem follow_captures (hok : ∀ c w, (sink.call c w).1 = .ok)
    (hchannel : options.channel? (some connection) = some (.tcp flow))
    (hmoves : ∀ x ∈ moves, x.2.leavesOpen = true) :
    let p := (start sink.traced now connection (.create options) (w, [])).follow sink.traced moves
    p.Captures options flow
      (timedRecords ((Session.create options).timedActs ((now, .active (some connection)) :: p.told)))
      (transfers flow options.zeroBytes [] (p.told.map Prod.snd)) := by
  intro p
  have htold : ∀ e ∈ p.told.map Prod.snd, e.isTalk = true ∧ e ≠ .pause := by
    refine follow_told (fun x hx r => r.tells_open (hmoves x hx)) ?_
    intro e he
    cases he
  -- without a pause the account of the conversation has all that was offered
  have hnever : ∀ e ∈ p.told.map Prod.snd, e ≠ .pause := fun e he => (htold e he).2
  have hopens : Opens options flow [(now, .active (some connection))] p.told :=
    .reported [] now (some connection) p.told rfl hchannel
  obtain ⟨hpackets, hsettled, -⟩ :=
    Session.planAll_conversation hopens fun x hx => (htold x.2 (List.mem_map_of_mem hx)).1
  refine ⟨?_, ?_, @transfers_inOrder flow options.zeroBytes [] _ rfl hnever, ?_⟩
  · rw [file_eq hok]
    exact Session.written_intended _ options hsettled
  · rw [Session.timedRecords_frames]
    exact congrArg _ hpackets
  · intro d
    rw [sentBy, transfers_payloads, spoken_sender flow d rfl hnever]
    exact (follow_ledger now connection _ _ moves d).offered

/-- A file only grows, by whole records. -/
theorem captures_grow (hok : ∀ c w, (sink.call c w).1 = .ok)
    (hchannel : options.channel? (some connection) = some (.tcp flow))
    (hmoves : ∀ x ∈ moves, x.2.leavesOpen = true) {more : List TimedMove}
    (hmore : ∀ x ∈ more, x.2.leavesOpen = true) :
    let p := (start sink.traced now connection (.create options) (w, [])).follow sink.traced moves
    ∃ later sent, (p.follow sink.traced more).Captures options flow
      (timedRecords ((Session.create options).timedActs
        ((now, .active (some connection)) :: p.told)) ++ later)
      (transfers flow options.zeroBytes [] (p.told.map Prod.snd) ++ sent) := by
  intro p
  have hboth : ∀ x ∈ moves ++ more, x.2.leavesOpen = true := by
    simpa only [List.forall_mem_append] using ⟨hmoves, hmore⟩
  have hcaptures := follow_captures now w hok hchannel hboth
  obtain ⟨extra, hextra⟩ := @follow_told_grows _ sink.traced more p
  dsimp only at hcaptures
  rw [follow_append] at hcaptures
  change (p.follow sink.traced more).Captures _ _ _ _ at hcaptures
  rw [hextra, List.map_append, transfers_append, ← List.cons_append, Session.timedActs_append,
    timedRecords, List.flatMap_append] at hcaptures
  exact ⟨_, _, hcaptures⟩

end

/-- **Bytes are recorded before they are delivered, and all of them are.** Whatever the session and the
sink of a relay are, and whatever comes about in which order: in each direction the peer has accepted a
beginning of what the session was told of, which is what was read, and by any further move no more than
what the session has been told of before it; at the end of a stream the peer has it all. The file of a
TCP connection that nobody pauses holds these bytes by then, in whole records to which later ones are
added. -/
theorem recorded_before_delivered (sink : Sink σ) (w : σ) (now : Timestamp) (connection : Connection)
    (session : Session) (moves : List TimedMove) :
    let p := (start sink now connection session w).follow sink moves
    let course := session.run sink ((now, .active (some connection)) :: p.told) w
    (p.relay.session = course.session ∧ p.relay.sink = course.sink) ∧
      (∀ d, p.Delivers d ∧
        ∀ x, d.accepted (p.step sink x).traffic <+: d.offered (p.told.map Prod.snd)) ∧
      ∀ options flow, (∀ c w, (sink.call c w).1 = .ok) →
        options.channel? (some connection) = some (.tcp flow) →
        (∀ x ∈ moves, x.2.leavesOpen = true) →
        let q := (start sink.traced now connection (.create options) (w, [])).follow sink.traced moves
        ∃ records sent, q.Captures options flow records sent ∧
          (∀ d x, d.accepted (q.step sink.traced x).traffic <+: sentBy (flow.sender d) sent) ∧
          ∀ more, (∀ x ∈ more, x.2.leavesOpen = true) → ∃ later sent',
            (q.follow sink.traced more).Captures options flow (records ++ later) (sent ++ sent') := by
  intro p course
  refine ⟨follow_capture now connection session w moves, ?_, ?_⟩
  · intro d
    have hledger : p.Ledger d := follow_ledger now connection session w moves d
    refine ⟨hledger.delivers, fun x => ?_⟩
    rw [hledger.offered]
    exact hledger.accepted_begins x
  · intro options flow hok hchannel hmoves q
    have hcaptures := follow_captures now w hok hchannel hmoves
    refine ⟨_, _, hcaptures, ?_, fun more hmore => captures_grow now w hok hchannel hmoves hmore⟩
    intro d x
    rw [hcaptures.whole]
    exact (follow_ledger now connection _ _ moves d).accepted_begins x

/-- A client sends two bytes, which the service accepts one at a time, and gets one byte back. -/
def exchangeMoves : List TimedMove :=
  [.read .inbound (.ok ⟨#[97, 98]⟩), .write .inbound (.ok 1), .write .inbound (.ok 1),
    .read .outbound (.ok ⟨#[99]⟩), .write .outbound (.ok 1), .read .inbound (.ok .empty),
    .read .outbound (.ok .empty), .join .outbound, .join .inbound].map fun m => (.epoch, m)

def exchangeConnection : Connection :=
  ⟨.v4 ⟨10, 0, 0, 2⟩ 80, some (.v4 ⟨10, 0, 0, 1⟩ 4000), .tcp true⟩

theorem recorded_before_delivered_exchange :
    let session := Session.create { id := "exchange" }
    let p := (start Sink.recording .epoch exchangeConnection session []).follow Sink.recording
      exchangeMoves
    let q := (start Sink.recording.traced .epoch exchangeConnection session ([], [])).follow
      Sink.recording.traced exchangeMoves
    p.relay.isOver = true ∧ p.relay.forwarded = ⟨2, 1⟩ ∧
      Direction.inbound.accepted p.traffic = [97, 98] ∧ Direction.outbound.accepted p.traffic = [99] ∧
      ∃ records sent, q.Captures { id := "exchange" } Session.servingFlow records sent ∧
        sentBy .client sent = [97, 98] ∧ sentBy .server sent = [99] := by
  intro session p q
  obtain ⟨-, hdelivers, hrecorded⟩ := recorded_before_delivered Sink.recording [] .epoch
    exchangeConnection session exchangeMoves
  have hover : p.relay.isOver = true := by decide
  have hall : ∀ d : Direction, d.accepted p.traffic = d.received p.reads := by
    intro d
    exact (hdelivers d).1.completes ((hdelivers d).1.finishes hover (by decide))
  obtain ⟨records, sent, hcaptures, -⟩ := hrecorded { id := "exchange" } Session.servingFlow
    (fun _ _ => rfl) rfl (by decide)
  refine ⟨hover, by decide, ?_, ?_, records, sent, hcaptures, ?_, ?_⟩
  · rw [hall]
    decide
  · rw [hall]
    decide
  · exact (hcaptures.whole .inbound).trans (by decide)
  · exact (hcaptures.whole .outbound).trans (by decide)

end Passage

end Wiretap
