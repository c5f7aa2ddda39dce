import Wiretap.Bytes

/-! Times of capture. A timestamp counts Unix seconds and nanoseconds within the second; a leap second
is the second before it running on, with up to two thousand million nanoseconds. Any second may run on,
but one that is given by its numbers only does at the end of a minute. A record has 32 bits for the
seconds and holds fewer than a million microseconds: seconds outside the field are written as zero, and
a leap second stands still at its last microsecond. -/

namespace Wiretap

structure Timestamp where
  seconds : Int
  nanos : Nat
  seconds_inRange : -8334601228800 ≤ seconds ∧ seconds ≤ 8210266876799
  nanos_inRange : nanos < 2000000000
deriving DecidableEq, Repr

namespace Timestamp

def ofUnix? (seconds : Int) (nanos : Nat) : Option Timestamp :=
  if h : (-8334601228800 ≤ seconds ∧ seconds ≤ 8210266876799) ∧
      (nanos < 1000000000 ∨ (nanos < 2000000000 ∧ seconds % 60 = 59)) then
    some ⟨seconds, nanos, h.1, by omega⟩
  else none

/-- The start of 1970. -/
def epoch : Timestamp := ⟨0, 0, by decide, by decide⟩

/-- The second runs on past its end. -/
def isLeap (t : Timestamp) : Prop := 1000000000 ≤ t.nanos

instance (t : Timestamp) : Decidable t.isLeap := inferInstanceAs (Decidable (_ ≤ _))

/-- Earlier second first, then fewer nanoseconds. -/
instance : LE Timestamp :=
  ⟨fun a b => a.seconds < b.seconds ∨ (a.seconds = b.seconds ∧ a.nanos ≤ b.nanos)⟩

/-- The seconds as a record holds them. -/
def recordSeconds (t : Timestamp) : UInt32 :=
  if 0 ≤ t.seconds ∧ t.seconds ≤ 4294967295 then UInt32.ofNat t.seconds.toNat else 0

/-- The microseconds as a record holds them. -/
def recordMicros (t : Timestamp) : UInt32 := UInt32.ofNat (min (t.nanos / 1000) 999999)

end Timestamp

end Wiretap
