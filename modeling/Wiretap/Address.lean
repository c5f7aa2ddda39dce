import Wiretap.Bytes

/-! Network addresses. A socket address is of either family; a capture frames packets as IPv4 only,
so every socket address has an endpoint that stands for it there: an IPv4 address stands for itself,
an IPv6 address that maps an IPv4 one is unwrapped, and any other becomes `0.0.0.0`. The port is kept
in every case. -/

namespace Wiretap

structure Ipv4 where
  a : UInt8
  b : UInt8
  c : UInt8
  d : UInt8
deriving DecidableEq, Repr

structure Ipv6 where
  a : UInt16
  b : UInt16
  c : UInt16
  d : UInt16
  e : UInt16
  f : UInt16
  g : UInt16
  h : UInt16
deriving DecidableEq, Repr

/-- An IPv4 address and port. Nothing else is representable in a capture. -/
structure Endpoint where
  ip : Ipv4
  port : UInt16
deriving DecidableEq, Repr

inductive SocketAddress
  | v4 (ip : Ipv4) (port : UInt16)
  | v6 (ip : Ipv6) (port : UInt16) (scope : UInt32)
deriving DecidableEq, Repr

namespace Ipv4

/-- The address `0.0.0.0`. -/
def unspecified : Ipv4 := ⟨0, 0, 0, 0⟩

def octets (x : Ipv4) : Bytes := [x.a, x.b, x.c, x.d]

theorem octets_injective {x y : Ipv4} (h : x.octets = y.octets) : x = y := by
  cases x
  cases y
  simpa [octets] using h

end Ipv4

namespace Ipv6

def groups (x : Ipv6) : List UInt16 := [x.a, x.b, x.c, x.d, x.e, x.f, x.g, x.h]

/-- The address with the given groups, of which there have to be eight. -/
def ofGroups? : List UInt16 → Option Ipv6
  | [a, b, c, d, e, f, g, h] => some ⟨a, b, c, d, e, f, g, h⟩
  | _ => none

def octets (x : Ipv6) : Bytes := x.groups.flatMap be16

/-- The IPv4 address that an address of the form `::ffff:a.b.c.d` maps. -/
def mapped? (x : Ipv6) : Option Ipv4 :=
  if x.a = 0 ∧ x.b = 0 ∧ x.c = 0 ∧ x.d = 0 ∧ x.e = 0 ∧ x.f = 0xffff then
    some ⟨UInt8.ofNat (x.g.toNat / 256), UInt8.ofNat x.g.toNat,
      UInt8.ofNat (x.h.toNat / 256), UInt8.ofNat x.h.toNat⟩
  else none

end Ipv6

namespace SocketAddress

def port : SocketAddress → UInt16
  | v4 _ p => p
  | v6 _ p _ => p

/-- The same address with another port. -/
def withPort : SocketAddress → UInt16 → SocketAddress
  | v4 ip _, p => v4 ip p
  | v6 ip _ s, p => v6 ip p s

/-- The endpoint that stands for an address in a capture. -/
def endpoint : SocketAddress → Endpoint
  | v4 ip p => ⟨ip, p⟩
  | v6 ip p _ => ⟨ip.mapped?.getD Ipv4.unspecified, p⟩

/-- The IPv6 address that a capture cannot show, if this is one. -/
def uncapturable? : SocketAddress → Option Ipv6
  | v4 _ _ => none
  | v6 ip _ _ => if ip.mapped?.isSome then none else some ip

theorem endpoint_port (x : SocketAddress) : x.endpoint.port = x.port := by cases x <;> rfl

end SocketAddress

/-- An endpoint as an address of the IPv4 family. -/
def Endpoint.address (x : Endpoint) : SocketAddress := .v4 x.ip x.port

theorem Endpoint.endpoint_address (x : Endpoint) : x.address.endpoint = x := rfl

end Wiretap
