import Wiretap.AddressText
import Wiretap.Channel
import Wiretap.IoError
import Wiretap.Log

/-! The states of a session and what it tells the log. -/

namespace Wiretap

/-- A session begins in `init`, writes records while it is `writing`, only counts while it is
`paused`, and ends in `closed`. -/
inductive Phase
  | init
  | writing
  | paused
  | closed
deriving DecidableEq, Repr

namespace Phase

def name : Phase → String
  | init => "Init"
  | writing => "Writing"
  | paused => "Paused"
  | closed => "Closed"

end Phase

def Side.name : Side → String
  | client => "Client"
  | server => "Server"

def Direction.name : Direction → String
  | outbound => "Outbound"
  | inbound => "Inbound"

/-- Who opens and closes the sink: a session does so with a sink of its own. -/
def ownershipName (shared : Bool) : String := if shared then "Shared" else "Owned"

inductive Note
  | created (shared forced : Bool)
  | uncapturable (ip : Ipv6)
  | activationIgnored (p : Phase)
  | noEndpoints
  | capturingTcp (client server : Endpoint) (localIsServer : Bool)
  | capturingUdp
  | payloadIgnored (p : Phase)
  | datagramIgnored (p : Phase)
  | segment (sender : Side) (length : Nat) (seq ack : UInt32)
  | noPeer
  | datagramTooLong (length : Nat)
  | datagram (src dst : Endpoint) (length : Nat)
  | firstShutdown (s : Side)
  | paused
  | pauseIgnored (p : Phase)
  | resumed
  | resumeIgnored (p : Phase)
  | closeIgnored
  | closingSink
  | closed
  | writeFailed (e : IoError)
  | closeFailed (e : IoError)
deriving DecidableEq, Repr

namespace Note

/-- The line of the log, for the session with the given name. An address that cannot be captured is
reported without one. -/
def line (id : String) : Note → LogLine
  | created shared forced =>
    .about .debug id ("CaptureSession created (" ++ ownershipName shared ++
      " sink, forced endpoints: " ++ (if forced then "true" else "false") ++ ")")
  | uncapturable ip => ⟨.debug, "IPv6 address " ++ ip.text ++ " is not capturable, using 0.0.0.0"⟩
  | activationIgnored p => .about .trace id ("on_active ignored in state " ++ p.name)
  | noEndpoints => .about .warn id "activated without endpoints; capture stays idle"
  | capturingTcp client server localIsServer =>
    .about .info id ("capturing TCP " ++ client.text ++ " -> " ++ server.text ++ " (local is " ++
      (if localIsServer then "server" else "client") ++ ")")
  | capturingUdp => .about .info id "capturing UDP"
  | payloadIgnored p => .about .trace id ("payload ignored in state " ++ p.name)
  | datagramIgnored p => .about .trace id ("datagram ignored in state " ++ p.name)
  | segment sender length seq ack =>
    .about .trace id (sender.name ++ " " ++ decimal length ++ " bytes seq=" ++ decimal seq.toNat ++
      " ack=" ++ decimal ack.toNat)
  | noPeer => .about .debug id "UDP datagram without a peer address, not recorded"
  | datagramTooLong length =>
    .about .warn id ("UDP datagram of " ++ decimal length ++ " bytes exceeds " ++
      decimal maxUdpPayload ++ " and cannot be framed")
  | datagram src dst length =>
    .about .trace id ("UDP " ++ src.text ++ " -> " ++ dst.text ++ " " ++ decimal length ++ " bytes")
  | firstShutdown s => .about .debug id (s.name ++ " shut down first")
  | paused => .about .debug id "capture paused"
  | pauseIgnored p => .about .trace id ("pause ignored in state " ++ p.name)
  | resumed => .about .debug id "capture resumed"
  | resumeIgnored p => .about .trace id ("resume ignored in state " ++ p.name)
  | closeIgnored => .about .trace id "close ignored, already closed"
  | closingSink => .about .info id "capture closed, closing sink"
  | closed => .about .info id "capture closed"
  | writeFailed e => .about .warn id ("sink write failed, closing capture: " ++ e.message)
  | closeFailed e => .about .warn id ("closing failed sink: " ++ e.message)

/-- Of the given addresses, the ones that a capture cannot show. -/
def ofAddresses (xs : List SocketAddress) : List Note :=
  (xs.filterMap SocketAddress.uncapturable?).map uncapturable

end Note

end Wiretap
