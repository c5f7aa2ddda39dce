import Wiretap.Address
import Wiretap.Flags

/-! Packets as Ethernet frames. A frame holds an IPv4 packet without options, and that a TCP segment
without options or a UDP datagram. The hardware addresses are two fixed ones of the documentation
range, and checksums are placeholders: zero in the IPv4 header, one in the others so that it is not
taken for a checksum that was left out. The decoder reads a frame back by its own length fields. -/

namespace Wiretap

inductive Protocol
  | tcp
  | udp
deriving DecidableEq, Repr

/-- The number of the protocol in an IPv4 header. -/
def Protocol.number : Protocol → UInt8
  | .tcp => 6
  | .udp => 17

def ipv4HeaderLength : Nat := 20
def tcpHeaderLength : Nat := 20
def udpHeaderLength : Nat := 8

/-- The longest payload of a segment in one IPv4 packet. -/
def maxTcpPayload : Nat := 65535 - (ipv4HeaderLength + tcpHeaderLength)

/-- The longest payload of a datagram in one IPv4 packet. -/
def maxUdpPayload : Nat := 65535 - (ipv4HeaderLength + udpHeaderLength)

/-- Destination and source hardware address, and the type of an IPv4 frame. -/
def ethernetHeader : Bytes :=
  [0x00, 0x00, 0x5e, 0x00, 0x53, 0xff, 0x00, 0x00, 0x5e, 0x00, 0x53, 0x00, 0x08, 0x00]

def ethernetFrame (packet : Bytes) : Bytes := ethernetHeader ++ packet

/-- The header of an IPv4 packet with so many bytes after it: version 4 and five words, total length,
no identification or fragments, the longest time to live. -/
def ipv4Header (src dst : Ipv4) (protocol : Protocol) (payloadLength : Nat) : Bytes :=
  [0x45, 0x00] ++ be16 (length16 (ipv4HeaderLength + payloadLength)) ++ be16 0 ++ be16 0 ++
    [0xff, protocol.number] ++ be16 0 ++ src.octets ++ dst.octets

def udpHeader (srcPort dstPort : UInt16) (payloadLength : Nat) : Bytes :=
  be16 srcPort ++ be16 dstPort ++ be16 (length16 (udpHeaderLength + payloadLength)) ++ be16 1

/-- The header of a segment: five words, the widest window, no urgent data. -/
def tcpHeader (srcPort dstPort : UInt16) (seq ack : UInt32) (flags : TcpFlags) : Bytes :=
  be16 srcPort ++ be16 dstPort ++ be32 seq ++ be32 ack ++ [0x50, flags.bits] ++ be16 0xffff ++
    be16 1 ++ be16 0

/-- What one frame carries. -/
inductive Packet
  | tcp (src dst : Endpoint) (seq ack : UInt32) (flags : TcpFlags) (payload : Bytes)
  | udp (src dst : Endpoint) (payload : Bytes)
deriving DecidableEq, Repr

namespace Packet

def frame : Packet → Bytes
  | tcp src dst seq ack flags payload =>
    ethernetFrame (ipv4Header src.ip dst.ip .tcp (tcpHeaderLength + payload.length) ++
      (tcpHeader src.port dst.port seq ack flags ++ payload))
  | udp src dst payload =>
    ethernetFrame (ipv4Header src.ip dst.ip .udp (udpHeaderLength + payload.length) ++
      (udpHeader src.port dst.port payload.length ++ payload))

/-- The segment after an IPv4 header, in so many bytes. -/
def ofSegment? (src dst : Ipv4) (length : Nat) : Bytes → Option Packet
  | p0 :: p1 :: q0 :: q1 :: s0 :: s1 :: s2 :: s3 :: a0 :: a1 :: a2 :: a3 :: 0x50 :: flags ::
      _ :: _ :: _ :: _ :: _ :: _ :: rest =>
    if tcpHeaderLength ≤ length ∧ length - tcpHeaderLength ≤ rest.length then
      some (tcp ⟨src, word16 p0 p1⟩ ⟨dst, word16 q0 q1⟩ (word32 s0 s1 s2 s3) (word32 a0 a1 a2 a3)
        ⟨flags⟩ (rest.take (length - tcpHeaderLength)))
    else none
  | _ => none

/-- The datagram after an IPv4 header, in so many bytes, by its own length field. -/
def ofDatagram? (src dst : Ipv4) (length : Nat) : Bytes → Option Packet
  | p0 :: p1 :: q0 :: q1 :: l0 :: l1 :: _ :: _ :: rest =>
    let own := (word16 l0 l1).toNat
    if udpHeaderLength ≤ own ∧ own ≤ length ∧ own - udpHeaderLength ≤ rest.length then
      some (udp ⟨src, word16 p0 p1⟩ ⟨dst, word16 q0 q1⟩ (rest.take (own - udpHeaderLength)))
    else none
  | _ => none

/-- The packet that an IPv4 packet is, by its total length and protocol number. -/
def ofIpv4? : Bytes → Option Packet
  | 0x45 :: _ :: l0 :: l1 :: _ :: _ :: _ :: _ :: _ :: protocol :: _ :: _ ::
      s0 :: s1 :: s2 :: s3 :: d0 :: d1 :: d2 :: d3 :: rest =>
    let total := (word16 l0 l1).toNat
    if total < ipv4HeaderLength then none
    else if protocol = Protocol.tcp.number then
      ofSegment? ⟨s0, s1, s2, s3⟩ ⟨d0, d1, d2, d3⟩ (total - ipv4HeaderLength) rest
    else if protocol = Protocol.udp.number then
      ofDatagram? ⟨s0, s1, s2, s3⟩ ⟨d0, d1, d2, d3⟩ (total - ipv4HeaderLength) rest
    else none
  | _ => none

/-- The packet that a frame carries, if it is an IPv4 frame. -/
def ofFrame? : Bytes → Option Packet
  | _ :: _ :: _ :: _ :: _ :: _ :: _ :: _ :: _ :: _ :: _ :: _ :: 0x08 :: 0x00 :: rest => ofIpv4? rest
  | _ => none

end Packet

end Wiretap
