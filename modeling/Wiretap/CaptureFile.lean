import Wiretap.Timestamp

/-! The capture file: a header of 24 bytes, then records of a 16-byte header and a frame each. All
fields are big-endian. Frames are never cut short, so the captured and the actual length of a record
are one number. The reader takes records off the front as long as whole ones are there and gives back
what it could not read. -/

namespace Wiretap

namespace CaptureFile

/-- The longest frame that the file says it may hold. -/
def snapLength : UInt32 := 0xffff

/-- Magic number, version 2.4, no time zone, no accuracy, snap length, link type Ethernet. -/
def header : Bytes :=
  be32 0xa1b2c3d4 ++ be16 2 ++ be16 4 ++ be32 0 ++ be32 0 ++ be32 snapLength ++ be32 1

theorem header_length : header.length = 24 := rfl

end CaptureFile

/-- The sixteen bytes before a frame. -/
def recordHeader (seconds micros captured actual : UInt32) : Bytes :=
  be32 seconds ++ be32 micros ++ be32 captured ++ be32 actual

/-- One captured packet: when it was seen and its Ethernet frame. -/
structure Record where
  seconds : UInt32
  micros : UInt32
  frame : Bytes
deriving DecidableEq, Repr

namespace Record

def stamped (t : Timestamp) (frame : Bytes) : Record := ⟨t.recordSeconds, t.recordMicros, frame⟩

/-- Captured and actual length. -/
def length (r : Record) : UInt32 := length32 r.frame.length

def bytes (r : Record) : Bytes := recordHeader r.seconds r.micros r.length r.length ++ r.frame

theorem bytes_length (r : Record) : r.bytes.length = 16 + r.frame.length := by
  simp only [bytes, recordHeader, List.length_append, be32_length]

/-- The record at the front, if it is there in full, and what follows it. -/
def read? : Bytes → Option (Record × Bytes)
  | s0 :: s1 :: s2 :: s3 :: u0 :: u1 :: u2 :: u3 :: c0 :: c1 :: c2 :: c3 ::
      _ :: _ :: _ :: _ :: rest =>
    let captured := (word32 c0 c1 c2 c3).toNat
    if captured ≤ rest.length then
      some (⟨word32 s0 s1 s2 s3, word32 u0 u1 u2 u3, rest.take captured⟩, rest.drop captured)
    else none
  | _ => none

theorem read?_lt {bs rest : Bytes} {r : Record} (h : read? bs = some (r, rest)) :
    rest.length < bs.length := by
  unfold read? at h
  split at h
  · simp only [Option.ite_none_right_eq_some, Option.some.injEq, Prod.mk.injEq] at h
    obtain ⟨-, -, rfl⟩ := h
    simp only [List.length_drop, List.length_cons]
    omega
  · cases h

end Record

namespace CaptureFile

/-- Records one after another. -/
def encode (rs : List Record) : Bytes := rs.flatMap Record.bytes

theorem encode_append (rs ss : List Record) : encode (rs ++ ss) = encode rs ++ encode ss := by
  simp [encode]

/-- The whole records at the front and the bytes after the last of them. -/
def decode (bs : Bytes) : List Record × Bytes :=
  match h : Record.read? bs with
  | none => ([], bs)
  | some (r, rest) =>
    have := Record.read?_lt h
    let more := decode rest
    (r :: more.1, more.2)
termination_by bs.length

end CaptureFile

end Wiretap
