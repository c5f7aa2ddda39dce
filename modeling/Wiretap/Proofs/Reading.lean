import Wiretap.CaptureFile

/-! Capture files read back. A record in front of any bytes is what the reader takes off them, and a
record that is cut short is nothing to it. So a file gives back the records it was written from, whatever
their frames look like, and a file that is cut off gives back the records that were written whole. -/

namespace Wiretap

namespace Record

/-- The buffer with the record after what it held. -/
def appendTo (buffer : Bytes) (r : Record) : Bytes := buffer ++ r.bytes

variable {r : Record}

theorem length_toNat (h : r.frame.length < UInt32.size) : r.length.toNat = r.frame.length :=
  length32_toNat (Nat.le_of_lt_succ h)

/-- The reader finds a record at the front and leaves what follows it alone. -/
theorem read?_bytes_append (h : r.frame.length < UInt32.size) (rest : Bytes) :
    read? (r.bytes ++ rest) = some (r, rest) := by
  have hlength := length_toNat h
  simp only [read?, bytes, recordHeader, be32, List.cons_append, List.nil_append, word32_be32]
  rw [hlength, if_pos (by simp), List.take_left, List.drop_left]

/-- A record that is not there in full is none. -/
theorem read?_cut (h : r.frame.length < UInt32.size) {cut : Bytes} (hcut : cut <+: r.bytes)
    (hshort : cut ≠ r.bytes) : read? cut = none := by
  obtain ⟨more, hmore⟩ := hcut
  have hmissing : 0 < more.length := by
    rw [List.length_pos_iff]
    rintro rfl
    exact hshort ((List.append_nil cut).symm.trans hmore)
  have hlength := length_toNat h
  unfold read?
  split
  · -- the header is there, so it says how long the frame should be
    rename_i rest
    simp only [bytes, recordHeader, be32, List.cons_append, List.nil_append, List.cons.injEq] at hmore
    obtain ⟨-, -, -, -, -, -, -, -, rfl, rfl, rfl, rfl, -, -, -, -, hframe⟩ := hmore
    have htotal : rest.length + more.length = r.frame.length := by rw [← hframe, List.length_append]
    dsimp only
    rw [word32_be32, hlength, if_neg (by omega)]
  · rfl

end Record

namespace CaptureFile

/-- What a capture begins with: the file header, or nothing where somebody else writes that. -/
def opening (headed : Bool) : Bytes := if headed then header else []

/-- The records of a capture and the bytes after the last whole one, if it begins as it should. -/
def read? (headed : Bool) (capture : Bytes) : Option (List Record × Bytes) :=
  if opening headed <+: capture then some (decode (capture.drop (opening headed).length)) else none

theorem foldl_appendTo (rs : List Record) (buffer : Bytes) :
    rs.foldl Record.appendTo buffer = buffer ++ encode rs := by
  induction rs generalizing buffer with
  | nil => exact (List.append_nil buffer).symm
  | cons r rs ih => rw [List.foldl_cons, ih, Record.appendTo, List.append_assoc]; rfl

theorem decode_of_read? {bs rest : Bytes} {r : Record} (h : Record.read? bs = some (r, rest)) :
    decode bs = (r :: (decode rest).1, (decode rest).2) := by
  rw [decode]
  split
  · rename_i hnone
    rw [hnone] at h
    cases h
  · rename_i hsome
    rw [hsome] at h
    obtain ⟨rfl, rfl⟩ := Prod.mk.inj (Option.some.inj h)
    rfl

theorem decode_of_read?_none {bs : Bytes} (h : Record.read? bs = none) : decode bs = ([], bs) := by
  rw [decode]
  split
  · rfl
  · rename_i hsome
    rw [hsome] at h
    cases h

/-- Records in front of other bytes are decoded as they are, and then the bytes. -/
theorem decode_encode_append {rs : List Record} (hrs : ∀ r ∈ rs, r.frame.length < UInt32.size)
    (rest : Bytes) : decode (encode rs ++ rest) = (rs ++ (decode rest).1, (decode rest).2) := by
  induction rs with
  | nil => rfl
  | cons r rs ih =>
      have hfirst : Record.read? (encode (r :: rs) ++ rest) = some (r, encode rs ++ rest) := by
        rw [encode, List.flatMap_cons, List.append_assoc]
        exact Record.read?_bytes_append (hrs r List.mem_cons_self) _
      rw [decode_of_read? hfirst, ih fun q hq => hrs q (List.mem_cons_of_mem r hq)]
      rfl

/-- A beginning of some records is all of them, or whole records and one that is cut short. -/
theorem encode_prefix {rs : List Record} {part : Bytes} (h : part <+: encode rs) :
    part = encode rs ∨ ∃ before r after cut, rs = before ++ r :: after ∧ cut <+: r.bytes ∧
      cut ≠ r.bytes ∧ part = encode before ++ cut := by
  induction rs generalizing part with
  | nil => exact .inl (List.prefix_nil.mp h)
  | cons r rs ih =>
      change part <+: r.bytes ++ encode rs at h
      by_cases hcut : part <+: r.bytes ∧ part ≠ r.bytes
      · exact .inr ⟨[], r, rs, part, rfl, hcut.1, hcut.2, rfl⟩
      · have hwhole : r.bytes <+: part := by
          rcases List.prefix_or_prefix_of_prefix h (List.prefix_append r.bytes (encode rs)) with
            hpart | hwhole
          · rw [not_and, Classical.not_not] at hcut
            exact ⟨[], by rw [List.append_nil, hcut hpart]⟩
          · exact hwhole
        obtain ⟨rest, rfl⟩ := hwhole
        rcases ih ((List.prefix_append_right_inj r.bytes).mp h) with rfl | hlater
        · exact .inl rfl
        · obtain ⟨before, q, after, cut, rfl, hq, hshort, rfl⟩ := hlater
          refine .inr ⟨r :: before, q, after, cut, rfl, hq, hshort, ?_⟩
          rw [← List.append_assoc]
          rfl

theorem read?_opening_append (headed : Bool) (rest : Bytes) :
    read? headed (opening headed ++ rest) = some (decode rest) := by
  rw [read?, if_pos (List.prefix_append _ _), List.drop_left]

/-- **A capture gives back its records, and one that is cut off those that are whole.** The capture is what
comes of appending the records one after another, each of which adds its sixteen bytes and its frame to a
buffer and leaves what is there alone. Whatever the frames are, reading finds the records and nothing after
them. A capture that is cut off ends in its file header, or else is a capture of some first records with
none or a part of the next one after it, and reading finds just these. -/
theorem capture_read_back (headed : Bool) {rs : List Record}
    (hrs : ∀ r ∈ rs, r.frame.length < UInt32.size) :
    let capture := rs.foldl Record.appendTo (opening headed)
    capture = opening headed ++ encode rs ∧ read? headed capture = some (rs, []) ∧
      (∀ (buffer : Bytes) (r : Record), buffer <+: Record.appendTo buffer r ∧
        (Record.appendTo buffer r).length = buffer.length + (16 + r.frame.length)) ∧
      ∀ part, part <+: capture → part ≠ capture →
        (part.length < (opening headed).length ∧ read? headed part = none) ∨
        ∃ before r after cut, rs = before ++ r :: after ∧ cut <+: r.bytes ∧ cut ≠ r.bytes ∧
          part = before.foldl Record.appendTo (opening headed) ++ cut ∧
          read? headed part = some (before, cut) := by
  rw [foldl_appendTo]
  refine ⟨rfl, ?_, ?_, ?_⟩
  · have hend : decode [] = ([], []) := decode_of_read?_none rfl
    have hall := decode_encode_append hrs []
    rw [hend, List.append_nil, List.append_nil] at hall
    rw [read?_opening_append, hall]
  · intro buffer r
    refine ⟨List.prefix_append buffer r.bytes, ?_⟩
    rw [Record.appendTo, List.length_append, Record.bytes_length]
  · intro part hpart hproper
    by_cases hbegun : opening headed <+: part
    · right
      obtain ⟨rest, rfl⟩ := hbegun
      rcases encode_prefix ((List.prefix_append_right_inj _).mp hpart) with rfl | hcut
      · exact absurd rfl hproper
      · obtain ⟨before, r, after, cut, rfl, hcut, hshort, rfl⟩ := hcut
        have hbefore : ∀ q ∈ before, q.frame.length < UInt32.size :=
          fun q hq => hrs q (List.mem_append_left _ hq)
        have hr : r.frame.length < UInt32.size := hrs r (List.mem_append_right _ List.mem_cons_self)
        have hnone := decode_of_read?_none (Record.read?_cut hr hcut hshort)
        refine ⟨before, r, after, cut, rfl, hcut, hshort, ?_, ?_⟩
        · rw [foldl_appendTo, List.append_assoc]
        · rw [read?_opening_append, decode_encode_append hbefore, hnone, List.append_nil]
    · left
      refine ⟨?_, if_neg hbegun⟩
      apply Nat.lt_of_not_le
      intro hlong
      exact hbegun (List.prefix_of_prefix_length_le (List.prefix_append _ _) hpart hlong)

/-- A record whose frame is a capture itself, and one without a frame. -/
def nested : List Record := [⟨1, 2, header ++ encode [⟨3, 4, [5, 6]⟩]⟩, ⟨7, 8, []⟩]

/-- The last byte of the capture is missing. -/
theorem capture_read_back_nested :
    let capture := nested.foldl Record.appendTo header
    (∀ r ∈ nested, r.frame.length < UInt32.size) ∧ read? true capture = some (nested, []) ∧
      ∃ before r after cut, nested = before ++ r :: after ∧ cut <+: r.bytes ∧ cut ≠ r.bytes ∧
        read? true (capture.take 97) = some (before, cut) := by
  have hnested : ∀ r ∈ nested, r.frame.length < UInt32.size := by decide
  obtain ⟨-, hread, -, hparts⟩ := capture_read_back true hnested
  refine ⟨hnested, hread, ?_⟩
  rcases hparts _ (List.take_prefix 97 _) (by decide) with hheader | hcut
  · exact absurd hheader.1 (by decide)
  · obtain ⟨before, r, after, cut, hsplit, hcut, hshort, -, hread⟩ := hcut
    exact ⟨before, r, after, cut, hsplit, hcut, hshort, hread⟩

end CaptureFile

end Wiretap
