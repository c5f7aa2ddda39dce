import Wiretap.Destination
import Wiretap.Session
import Wiretap.SharedSink

/-! Capture sites: sinks and the sessions that record to them. A sink belongs to one session or its
maker alone, or is shared; then each session on it holds a handle of its own and the maker keeps one.
A step of a site is an operation on one session or on one sink through the maker's handle. -/

namespace Wiretap

inductive Slot
  | own (w : Device)
  | shared (w : Shared Device)
deriving DecidableEq, Repr

namespace Slot

def device : Slot → Device
  | own w => w
  | shared w => w.inner

def call (c : SinkCall) : Slot → Outcome × Slot
  | own w => match Sink.device.call c w with | (o, w) => (o, own w)
  | shared w => match (Sink.shared Sink.device).call c w with | (o, w) => (o, shared w)

def release : Slot → Slot
  | own w => own w
  | shared w => shared w.release

/-- One more handle, where there are handles. -/
def share : Slot → Slot
  | own w => own w
  | shared w => shared w.share

def clearJournal : Slot → Slot
  | own w => own w.clearJournal
  | shared w => shared { w with inner := w.inner.clearJournal }

end Slot

def Sink.slot : Sink Slot where
  call := Slot.call
  release := Slot.release

/-- The `i`-th of a list of states as a sink; past the end of the list every call succeeds and changes
nothing. -/
def Sink.at {σ : Type} (sink : Sink σ) (i : Nat) : Sink (List σ) where
  call c ws :=
    match ws[i]? with
    | none => (.ok, ws)
    | some w => match sink.call c w with | (o, w) => (o, ws.set i w)
  release ws := ws.modify i sink.release

/-- A session and the number of its sink. The owner may have let the session go. -/
structure Seat where
  sink : Nat
  session : Session
  present : Bool := true
deriving DecidableEq, Repr

structure Site where
  slots : List Slot
  seats : List Seat := []
deriving DecidableEq, Repr

/-- What the maker of a sink does with its handle. -/
inductive Handling
  | call (c : SinkCall)
  | header
  | drop
deriving DecidableEq, Repr

inductive SiteStep
  | session (i : Nat) (e : Event)
  | letGo (i : Nat)
  | sink (i : Nat) (h : Handling)

/-- What a step came to. A call on a sink has an outcome of its own. -/
inductive SiteResult
  | session (r : Result)
  | sink (o : Outcome)
  | absent
deriving DecidableEq, Repr

structure SiteReply where
  result : SiteResult
  site : Site
  notes : List Note := []

namespace Site

/-- A new session on a sink. -/
def seat (site : Site) (sink : Nat) (options : Options) : Site :=
  { slots := site.slots.modify sink Slot.share,
    seats := site.seats ++ [⟨sink, Session.create options, true⟩] }

def step (now : Timestamp) (site : Site) : SiteStep → SiteReply
  | .session i e =>
    match site.seats[i]? with
    | none => ⟨.absent, site, []⟩
    | some seat =>
      if seat.present then
        let r := seat.session.handle (Sink.slot.at seat.sink) now e site.slots
        ⟨.session r.result, ⟨r.sink, site.seats.set i { seat with session := r.session }⟩, r.notes⟩
      else ⟨.absent, site, []⟩
  | .letGo i =>
    match site.seats[i]? with
    | none => ⟨.absent, site, []⟩
    | some seat =>
      if seat.present then
        ⟨.session .done,
          ⟨seat.session.drop (Sink.slot.at seat.sink) site.slots,
            site.seats.set i { seat with present := false }⟩, []⟩
      else ⟨.absent, site, []⟩
  | .sink i h =>
    match h with
    | .call c =>
      match (Sink.slot.at i).call c site.slots with
      | (o, slots) => ⟨.sink o, { site with slots }, []⟩
    | .header =>
      match (Sink.slot.at i).writeHeader site.slots with
      | (o, slots) => ⟨.sink o, { site with slots }, []⟩
    | .drop => ⟨.sink .ok, { site with slots := (Sink.slot.at i).release site.slots }, []⟩

/-- What the destinations saw since their journals were last put away, oldest first, each with the
number of its sink; and the site with the journals put away. -/
def takeJournals (site : Site) : List (Nat × Mark) × Site :=
  (site.slots.zipIdx.flatMap fun (slot, i) =>
      slot.device.destination.journal.reverse.map fun m => (i, m),
    { site with slots := site.slots.map Slot.clearJournal })

/-- Live handles of a shared sink. -/
def handles? (site : Site) (i : Nat) : Option Nat :=
  match site.slots[i]? with
  | some (.shared w) => some w.handles
  | _ => none

/-- The writer sink that is nobody's but its maker's. -/
def writer? (site : Site) (i : Nat) : Option WriterSink :=
  match site.slots[i]? with
  | some (.own (.writer w)) => some w
  | _ => none

end Site

end Wiretap
