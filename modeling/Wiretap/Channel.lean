import Wiretap.Flow

/-! What a session captures. The ends of a connection are given up front or reported when the
connection becomes active; either way they become a channel, which for TCP carries the counters of the
flow and for UDP the two ends. Addresses are kept as they were given until then and enter the channel
as the endpoints that stand for them. -/

namespace Wiretap

/-- Ends given up front. -/
inductive ForcedChannel
  | tcp (server client : SocketAddress) (localIsServer : Bool)
  | udp (near far : SocketAddress)
deriving DecidableEq, Repr

inductive Transport
  | tcp (localIsServer : Bool)
  | udp
deriving DecidableEq, Repr

/-- What is known of a connection when it becomes active; a UDP socket may have no far end. -/
structure Connection where
  near : SocketAddress
  far : Option SocketAddress
  transport : Transport
deriving DecidableEq, Repr

inductive Channel
  | tcp (flow : Flow)
  | udp (near : Endpoint) (far : Option Endpoint)
deriving DecidableEq, Repr

namespace Channel

def protocol : Channel → Protocol
  | tcp _ => .tcp
  | udp _ _ => .udp

def flow? : Channel → Option Flow
  | tcp f => some f
  | udp _ _ => none

end Channel

namespace ForcedChannel

def channel : ForcedChannel → Channel
  | tcp server client localIsServer => .tcp ⟨client.endpoint, server.endpoint, localIsServer, 0, 0⟩
  | udp near far => .udp near.endpoint (some far.endpoint)

/-- The addresses in the order in which they enter the channel. -/
def addresses : ForcedChannel → List SocketAddress
  | tcp server client _ => [client, server]
  | udp near far => [near, far]

end ForcedChannel

namespace Connection

/-- The far end of a TCP connection that reports none is `0.0.0.0:0`. -/
def channel (c : Connection) : Channel :=
  let far := c.far.map SocketAddress.endpoint
  match c.transport with
  | .udp => .udp c.near.endpoint far
  | .tcp localIsServer =>
    let far := far.getD ⟨.unspecified, 0⟩
    if localIsServer then .tcp ⟨far, c.near.endpoint, true, 0, 0⟩
    else .tcp ⟨c.near.endpoint, far, false, 0, 0⟩

/-- The addresses in the order in which they enter the channel. -/
def addresses (c : Connection) : List SocketAddress := c.near :: c.far.toList

end Connection

/-- How a session captures: its name, whether the sink belongs to somebody else, whether payloads of
no bytes are recorded, whether a sink of its own gets a file header, and the ends if they are forced. -/
structure Options where
  id : String
  shared : Bool := false
  zeroBytes : Bool := false
  fileHeader : Bool := true
  forced : Option ForcedChannel := none
deriving DecidableEq, Repr

end Wiretap
