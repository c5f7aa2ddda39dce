import Wiretap.Proofs.Frames

/-! Frames read back. The decoder finds the packet in the frame of every packet that fits, whatever bytes
come after it: the total length of the IPv4 header, and the length of a UDP datagram, say where the
payload ends. Frames of different packets are different at any length. The length fields of a packet that
does not fit are never wrapped: each is exact as long as it can be and the largest value beyond, and the
total length is exact for the packets that fit and for no others. -/

namespace Wiretap

theorem Protocol.number_injective {x y : Protocol} (h : x.number = y.number) : x = y := by
  cases x with
  | tcp =>
      cases y with
      | tcp => rfl
      | udp => exact absurd h (by decide)
  | udp =>
      cases y with
      | tcp => exact absurd h (by decide)
      | udp => rfl

theorem Endpoint.eq_of_parts {x y : Endpoint} (hip : x.ip = y.ip) (hport : x.port = y.port) : x = y := by
  cases x
  cases y
  cases hip
  cases hport
  rfl

namespace Packet

/-! ### Reading a frame -/

theorem ofFrame?_ethernetFrame (packet trailer : Bytes) :
    ofFrame? (ethernetFrame packet ++ trailer) = ofIpv4? (packet ++ trailer) := rfl

/-- An IPv4 header hands what follows it to the reader of its protocol, with the length that is left. -/
theorem ofIpv4?_ipv4Header (src dst : Ipv4) (protocol : Protocol) {length : Nat} (rest : Bytes)
    (hlength : ipv4HeaderLength + length ≤ 65535) :
    ofIpv4? (ipv4Header src dst protocol length ++ rest) =
      match protocol with
      | .tcp => ofSegment? src dst length rest
      | .udp => ofDatagram? src dst length rest := by
  have htotal := length16_toNat hlength
  simp only [ofIpv4?, ipv4Header, be16, Ipv4.octets, List.cons_append, List.nil_append, word16_be16]
  rw [htotal, if_neg (Nat.not_lt.mpr (Nat.le_add_right _ _)), Nat.add_sub_cancel_left]
  cases protocol with
  | tcp => rw [if_pos rfl]
  | udp =>
      rw [if_neg (by decide), if_pos rfl]

theorem ofSegment?_tcpHeader (src dst : Endpoint) (seq ack : UInt32) (flags : TcpFlags)
    (payload trailer : Bytes) :
    ofSegment? src.ip dst.ip (tcpHeaderLength + payload.length)
        (tcpHeader src.port dst.port seq ack flags ++ (payload ++ trailer)) =
      some (tcp src dst seq ack flags payload) := by
  simp only [ofSegment?, tcpHeader, be16, be32, List.cons_append, List.nil_append, word16_be16,
    word32_be32]
  rw [Nat.add_sub_cancel_left, if_pos ⟨Nat.le_add_right _ _, by simp⟩, List.take_left]

theorem ofDatagram?_udpHeader (src dst : Endpoint) (payload trailer : Bytes)
    (hlength : udpHeaderLength + payload.length ≤ 65535) :
    ofDatagram? src.ip dst.ip (udpHeaderLength + payload.length)
        (udpHeader src.port dst.port payload.length ++ (payload ++ trailer)) =
      some (udp src dst payload) := by
  have hown := length16_toNat hlength
  simp only [ofDatagram?, udpHeader, be16, List.cons_append, List.nil_append, word16_be16]
  rw [hown, Nat.add_sub_cancel_left, if_pos ⟨Nat.le_add_right _ _, Nat.le_refl _, by simp⟩, List.take_left]

/-- The decoder finds a packet that fits, and leaves what follows its frame alone. -/
theorem Fits.ofFrame?_frame {p : Packet} (h : p.Fits) (trailer : Bytes) :
    ofFrame? (p.frame ++ trailer) = some p := by
  cases p with
  | tcp src dst seq ack flags payload =>
      have hfits : payload.length ≤ 65495 := h
      have hlength : ipv4HeaderLength + (tcpHeaderLength + payload.length) ≤ 65535 := by
        simp only [ipv4HeaderLength, tcpHeaderLength]
        omega
      rw [frame, ofFrame?_ethernetFrame, List.append_assoc, ofIpv4?_ipv4Header _ _ _ _ hlength,
        List.append_assoc]
      exact ofSegment?_tcpHeader src dst seq ack flags payload trailer
  | udp src dst payload =>
      have hfits : payload.length ≤ 65507 := h
      have hlength : ipv4HeaderLength + (udpHeaderLength + payload.length) ≤ 65535 := by
        simp only [ipv4HeaderLength, udpHeaderLength]
        omega
      rw [frame, ofFrame?_ethernetFrame, List.append_assoc, ofIpv4?_ipv4Header _ _ _ _ hlength,
        List.append_assoc]
      exact ofDatagram?_udpHeader src dst payload trailer (Nat.le_trans (Nat.le_add_left _ _) hlength)

/-! ### Telling frames apart -/

theorem ipv4Header_injective {src dst src' dst' : Ipv4} {protocol protocol' : Protocol}
    {length length' : Nat}
    (h : ipv4Header src dst protocol length = ipv4Header src' dst' protocol' length') :
    src = src' ∧ dst = dst' ∧ protocol = protocol' := by
  obtain ⟨h, hdst⟩ := List.append_inj' h rfl
  obtain ⟨h, hsrc⟩ := List.append_inj' h rfl
  obtain ⟨h, -⟩ := List.append_inj' h rfl
  obtain ⟨-, hnumber⟩ := List.append_inj' h rfl
  have hnumbers : [protocol.number] = [protocol'.number] := (List.cons.inj hnumber).2
  exact ⟨Ipv4.octets_injective hsrc, Ipv4.octets_injective hdst,
    Protocol.number_injective (List.cons.inj hnumbers).1⟩

theorem tcpHeader_injective {srcPort dstPort srcPort' dstPort' : UInt16} {seq ack seq' ack' : UInt32}
    {flags flags' : TcpFlags}
    (h : tcpHeader srcPort dstPort seq ack flags = tcpHeader srcPort' dstPort' seq' ack' flags') :
    srcPort = srcPort' ∧ dstPort = dstPort' ∧ seq = seq' ∧ ack = ack' ∧ flags = flags' := by
  obtain ⟨h, -⟩ := List.append_inj' h rfl
  obtain ⟨h, -⟩ := List.append_inj' h rfl
  obtain ⟨h, -⟩ := List.append_inj' h rfl
  obtain ⟨h, hflags⟩ := List.append_inj' h rfl
  obtain ⟨h, hack⟩ := List.append_inj' h rfl
  obtain ⟨h, hseq⟩ := List.append_inj' h rfl
  obtain ⟨hsrc, hdst⟩ := List.append_inj' h rfl
  refine ⟨be16_injective hsrc, be16_injective hdst, be32_injective hseq, be32_injective hack, ?_⟩
  cases flags
  cases flags'
  simpa using hflags

theorem udpHeader_injective {srcPort dstPort srcPort' dstPort' : UInt16} {length length' : Nat}
    (h : udpHeader srcPort dstPort length = udpHeader srcPort' dstPort' length') :
    srcPort = srcPort' ∧ dstPort = dstPort' := by
  obtain ⟨h, -⟩ := List.append_inj' h rfl
  obtain ⟨h, -⟩ := List.append_inj' h rfl
  obtain ⟨hsrc, hdst⟩ := List.append_inj' h rfl
  exact ⟨be16_injective hsrc, be16_injective hdst⟩

/-- The protocol number tells a segment from a datagram, and the headers of each tell the rest. -/
theorem frame_injective {p q : Packet} (h : p.frame = q.frame) : p = q := by
  cases p with
  | tcp src dst seq ack flags payload =>
      cases q with
      | tcp src' dst' seq' ack' flags' payload' =>
          obtain ⟨hip, h⟩ := List.append_inj (List.append_cancel_left h) rfl
          obtain ⟨htcp, rfl⟩ := List.append_inj h rfl
          obtain ⟨hsrc, hdst, -⟩ := ipv4Header_injective hip
          obtain ⟨hsrcPort, hdstPort, rfl, rfl, rfl⟩ := tcpHeader_injective htcp
          rw [Endpoint.eq_of_parts hsrc hsrcPort, Endpoint.eq_of_parts hdst hdstPort]
      | udp src' dst' payload' =>
          obtain ⟨hip, -⟩ := List.append_inj (List.append_cancel_left h) rfl
          cases (ipv4Header_injective hip).2.2
  | udp src dst payload =>
      cases q with
      | tcp src' dst' seq' ack' flags' payload' =>
          obtain ⟨hip, -⟩ := List.append_inj (List.append_cancel_left h) rfl
          cases (ipv4Header_injective hip).2.2
      | udp src' dst' payload' =>
          obtain ⟨hip, h⟩ := List.append_inj (List.append_cancel_left h) rfl
          obtain ⟨hudp, rfl⟩ := List.append_inj h rfl
          obtain ⟨hsrc, hdst, -⟩ := ipv4Header_injective hip
          obtain ⟨hsrcPort, hdstPort⟩ := udpHeader_injective hudp
          rw [Endpoint.eq_of_parts hsrc hsrcPort, Endpoint.eq_of_parts hdst hdstPort]

/-! ### Length fields -/

/-- The bytes of the IPv4 packet in a frame: all of the frame but the Ethernet header. -/
def ipv4Length (p : Packet) : Nat := p.frame.length - ethernetHeader.length

theorem ipv4Length_tcp (src dst : Endpoint) (seq ack : UInt32) (flags : TcpFlags) (payload : Bytes) :
    (tcp src dst seq ack flags payload).ipv4Length =
      ipv4HeaderLength + (tcpHeaderLength + payload.length) := by
  rw [ipv4Length, tcp_frame_length]
  simp only [ethernetHeader, List.length_cons, List.length_nil, ipv4HeaderLength, tcpHeaderLength]
  omega

theorem ipv4Length_udp (src dst : Endpoint) (payload : Bytes) :
    (udp src dst payload).ipv4Length = ipv4HeaderLength + (udpHeaderLength + payload.length) := by
  rw [ipv4Length, udp_frame_length]
  simp only [ethernetHeader, List.length_cons, List.length_nil, ipv4HeaderLength, udpHeaderLength]
  omega

/-- A length is written exactly or, beyond its field, as the largest value of it. -/
theorem length16_toNat_eq_min (n : Nat) : (length16 n).toNat = min n 65535 := by
  simp only [length16, UInt16.toNat_ofNat']
  omega

theorem frame_total (p : Packet) : field16 p.frame 16 = length16 p.ipv4Length := by
  cases p with
  | tcp src dst seq ack flags payload => rw [tcp_total, ipv4Length_tcp]
  | udp src dst payload => rw [udp_total, ipv4Length_udp]

theorem fits_iff (p : Packet) : p.Fits ↔ p.ipv4Length ≤ 65535 := by
  cases p with
  | tcp src dst seq ack flags payload =>
      rw [ipv4Length_tcp]
      simp only [Fits, maxTcpPayload, ipv4HeaderLength, tcpHeaderLength]
      omega
  | udp src dst payload =>
      rw [ipv4Length_udp]
      simp only [Fits, maxUdpPayload, ipv4HeaderLength, udpHeaderLength]
      omega

/-- **Frames read back, and their length fields never wrap.** Whatever follows its frame, a packet that fits
is what the decoder finds, and no other packet of any length has the same frame. The total length is that of
the IPv4 packet exactly if the packet fits, and the largest value of its field otherwise; a datagram's own
length is right as long as its field can hold it, and the largest value beyond that. -/
theorem frame_read_back (p : Packet) :
    (p.Fits → ∀ trailer, ofFrame? (p.frame ++ trailer) = some p) ∧
      (∀ q : Packet, p.frame = q.frame → p = q) ∧
      ((field16 p.frame 16).toNat = p.ipv4Length ↔ p.Fits) ∧
      (¬p.Fits → (field16 p.frame 16).toNat = 65535) ∧
      ∀ src dst payload, p = udp src dst payload →
        (field16 p.frame 38).toNat = min (udpHeaderLength + payload.length) 65535 := by
  rw [frame_total, fits_iff, length16_toNat_eq_min]
  refine ⟨fun h => (p.fits_iff.mpr h).ofFrame?_frame, fun q => frame_injective, ?_, ?_, ?_⟩
  · omega
  · intro hlong
    exact Nat.min_eq_right (Nat.le_of_not_le hlong)
  · rintro src dst payload rfl
    rw [udp_own_length, length16_toNat_eq_min]

/-- So many zero bytes. -/
def zeros (n : Nat) : Bytes := List.replicate n 0

theorem zeros_length (n : Nat) : (zeros n).length = n := List.length_replicate

/-- A segment as long as a packet can hold it, and a datagram one byte longer than that. -/
theorem frame_read_back_longest :
    let near : Endpoint := ⟨⟨10, 0, 0, 2⟩, 80⟩
    let far : Endpoint := ⟨⟨10, 0, 0, 1⟩, 4000⟩
    let segment := tcp far near 4294967295 7 .finAck (zeros 65495)
    let datagram := udp far near (zeros 65508)
    segment.Fits ∧ ofFrame? (segment.frame ++ [0, 0]) = some segment ∧
      ¬datagram.Fits ∧ (field16 datagram.frame 16).toNat = 65535 ∧
      (field16 datagram.frame 38).toNat = 65516 := by
  intro near far segment datagram
  have hsegment : segment.Fits := Nat.le_of_eq (zeros_length 65495)
  have hdatagram : ¬datagram.Fits := by
    simp only [datagram, Fits, zeros_length]
    decide
  obtain ⟨hdecodes, -⟩ := frame_read_back segment
  obtain ⟨-, -, -, htotal, hown⟩ := frame_read_back datagram
  have hexact := hown far near (zeros 65508) rfl
  rw [zeros_length] at hexact
  exact ⟨hsegment, hdecodes hsegment [0, 0], hdatagram, htotal hdatagram, hexact⟩

/-- The length field of a datagram that no IPv4 packet can hold need not be the largest value. -/
theorem overlong_datagram_own_length :
    let datagram := udp ⟨⟨10, 0, 0, 1⟩, 53⟩ ⟨⟨10, 0, 0, 2⟩, 4000⟩ (zeros 65508)
    ¬datagram.Fits ∧ field16 datagram.frame 38 = 65516 ∧ field16 datagram.frame 38 ≠ 0xffff := by
  dsimp only
  rw [Fits, udp_own_length, zeros_length]
  decide

end Packet

end Wiretap
