import Wiretap.Proofs.Plan

/-! Pieces, frames and their length fields. A payload is cut into pieces that a segment can hold, and the
pieces in order are the payload. A packet that fits has a frame whose length fields are the lengths
themselves: none of them is the largest value of its field standing for a longer length. -/

namespace Wiretap

/-! ### Cutting -/

theorem toList_length (data : ByteArray) : data.data.toList.length = data.size := by
  rw [← Array.size_eq_length_toList, ByteArray.size_data]

theorem extract_toList (data : ByteArray) (i j : Nat) :
    (data.extract i j).data.toList = (data.data.toList.drop i).take (j - i) := by
  rw [ByteArray.data_extract, Array.toList_extract, List.extract_eq_take_drop]

theorem flatMap_range_take (size : Nat) (bs : Bytes) (n : Nat) :
    ((List.range n).flatMap fun i => (bs.drop (i * size)).take size) = bs.take (n * size) := by
  induction n with
  | zero => simp
  | succ n ih =>
      rw [List.range_succ, List.flatMap_append, ih, Nat.succ_mul, List.take_add]
      simp

/-- The parts in order are the data. -/
theorem cut_flatMap {size : Nat} (hsize : 0 < size) (data : ByteArray) :
    ((cut size data).flatMap fun p => p.data.toList) = data.data.toList := by
  unfold cut
  split
  · simp
  · have hparts : ∀ i, (data.extract (i * size) ((i + 1) * size)).data.toList =
        (data.data.toList.drop (i * size)).take size := by
      intro i
      rw [extract_toList, Nat.succ_mul, Nat.add_sub_cancel_left]
    simp only [List.flatMap_map, hparts]
    rw [flatMap_range_take]
    apply List.take_of_length_le
    rw [toList_length]
    have hceil := Nat.lt_div_mul_add (a := data.size + size - 1) hsize
    omega

theorem isEmpty_iff_size (data : ByteArray) : data.isEmpty = true ↔ data.size = 0 := by
  simp [ByteArray.isEmpty]

theorem cut_size_le {size : Nat} {data p : ByteArray} (hp : p ∈ cut size data) :
    p.size ≤ size := by
  unfold cut at hp
  split at hp
  · rename_i hempty
    rw [List.mem_singleton.mp hp, (isEmpty_iff_size data).mp hempty]
    exact Nat.zero_le size
  · obtain ⟨i, -, rfl⟩ := List.mem_map.mp hp
    rw [ByteArray.size_extract, Nat.succ_mul]
    omega

theorem cut_ne_nil {size : Nat} (hsize : 0 < size) (data : ByteArray) : cut size data ≠ [] := by
  unfold cut
  split
  · exact List.cons_ne_nil data []
  · rename_i hempty
    intro hnil
    have hcount : (data.size + size - 1) / size = 0 := by simpa using hnil
    have hfull : 0 < data.size := by
      rw [isEmpty_iff_size] at hempty
      omega
    rw [Nat.div_eq_zero_iff] at hcount
    omega

theorem maxTcpPayload_pos : 0 < maxTcpPayload := by decide

theorem pieces_flatMap (data : ByteArray) :
    ((pieces data).flatMap fun p => p.data.toList) = data.data.toList :=
  cut_flatMap maxTcpPayload_pos data

theorem pieces_ne_nil (data : ByteArray) : pieces data ≠ [] := cut_ne_nil maxTcpPayload_pos data

theorem pieces_length_le {data p : ByteArray} (hp : p ∈ pieces data) :
    p.data.toList.length ≤ maxTcpPayload := by
  rw [toList_length]
  exact cut_size_le hp

/-! ### Length fields -/

/-- The word at a place in some bytes. -/
def field16 (bs : Bytes) (place : Nat) : UInt16 :=
  word16 (bs.getD place 0) (bs.getD (place + 1) 0)

/-- The double word at a place in some bytes. -/
def field32 (bs : Bytes) (place : Nat) : UInt32 :=
  word32 (bs.getD place 0) (bs.getD (place + 1) 0) (bs.getD (place + 2) 0) (bs.getD (place + 3) 0)

/-- Every length field of a record, and of the frame in it, is the length that it stands for. The frame is
an Ethernet header of fourteen bytes, an IPv4 header of twenty and, for UDP, one more of eight. -/
structure Record.Exact (r : Record) : Prop where
  captured : (field32 r.bytes 8).toNat = r.frame.length
  original : (field32 r.bytes 12).toNat = r.frame.length
  total : (field16 r.frame 16).toNat + 14 = r.frame.length
  datagram : r.frame.getD 23 0 = Protocol.udp.number → (field16 r.frame 38).toNat + 34 = r.frame.length

namespace Packet

/-- One packet can hold the payload. -/
def Fits : Packet → Prop
  | tcp _ _ _ _ _ payload => payload.length ≤ maxTcpPayload
  | udp _ _ payload => payload.length ≤ maxUdpPayload

theorem tcp_frame_length (src dst : Endpoint) (seq ack : UInt32) (flags : TcpFlags)
    (payload : Bytes) : (tcp src dst seq ack flags payload).frame.length = 54 + payload.length := by
  simp only [frame, ethernetFrame, ethernetHeader, ipv4Header, tcpHeader, Ipv4.octets,
    List.length_append, List.length_cons, List.length_nil, be16_length, be32_length]
  omega

theorem udp_frame_length (src dst : Endpoint) (payload : Bytes) :
    (udp src dst payload).frame.length = 42 + payload.length := by
  simp only [frame, ethernetFrame, ethernetHeader, ipv4Header, udpHeader, Ipv4.octets,
    List.length_append, List.length_cons, List.length_nil, be16_length]
  omega

theorem Fits.frame_length_le {p : Packet} (h : p.Fits) : p.frame.length ≤ 65549 := by
  cases p with
  | tcp src dst seq ack flags payload =>
      rw [tcp_frame_length]
      have hlength : payload.length ≤ 65495 := h
      omega
  | udp src dst payload =>
      rw [udp_frame_length]
      have hlength : payload.length ≤ 65507 := h
      omega

theorem tcp_total (src dst : Endpoint) (seq ack : UInt32) (flags : TcpFlags) (payload : Bytes) :
    field16 (tcp src dst seq ack flags payload).frame 16 =
      length16 (ipv4HeaderLength + (tcpHeaderLength + payload.length)) := by
  rw [← word16_be16 (length16 _)]
  rfl

theorem udp_total (src dst : Endpoint) (payload : Bytes) :
    field16 (udp src dst payload).frame 16 =
      length16 (ipv4HeaderLength + (udpHeaderLength + payload.length)) := by
  rw [← word16_be16 (length16 _)]
  rfl

theorem udp_own_length (src dst : Endpoint) (payload : Bytes) :
    field16 (udp src dst payload).frame 38 = length16 (udpHeaderLength + payload.length) := by
  rw [← word16_be16 (length16 _)]
  rfl

theorem Fits.frame_total {p : Packet} (h : p.Fits) :
    (field16 p.frame 16).toNat + 14 = p.frame.length := by
  cases p with
  | tcp src dst seq ack flags payload =>
      have hlength : payload.length ≤ 65495 := h
      rw [tcp_total, tcp_frame_length, length16_toNat]
      all_goals simp only [ipv4HeaderLength, tcpHeaderLength]; omega
  | udp src dst payload =>
      have hlength : payload.length ≤ 65507 := h
      rw [udp_total, udp_frame_length, length16_toNat]
      all_goals simp only [ipv4HeaderLength, udpHeaderLength]; omega

theorem Fits.frame_datagram {p : Packet} (h : p.Fits)
    (hudp : p.frame.getD 23 0 = Protocol.udp.number) :
    (field16 p.frame 38).toNat + 34 = p.frame.length := by
  cases p with
  | tcp => cases hudp
  | udp src dst payload =>
      have hlength : payload.length ≤ 65507 := h
      rw [udp_own_length, udp_frame_length, length16_toNat]
      all_goals simp only [udpHeaderLength]; omega

end Packet

namespace Record

theorem captured_field (r : Record) : field32 r.bytes 8 = r.length := by
  rw [← word32_be32 r.length]
  rfl

theorem original_field (r : Record) : field32 r.bytes 12 = r.length := by
  rw [← word32_be32 r.length]
  rfl

end Record

/-- **The record of a packet that fits is exact.** -/
theorem Packet.Fits.record_exact {p : Packet} (h : p.Fits) (now : Timestamp) :
    (p.record now).Exact := by
  have hbound : p.frame.length ≤ 4294967295 := Nat.le_trans h.frame_length_le (by decide)
  have hlength : (p.record now).length.toNat = p.frame.length := length32_toNat hbound
  exact ⟨by rw [Record.captured_field, hlength]; rfl, by rw [Record.original_field, hlength]; rfl,
    h.frame_total, h.frame_datagram⟩

end Wiretap
