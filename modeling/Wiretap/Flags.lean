import Wiretap.Digits

/-! The control bits of a TCP header: one byte, of which captures use SYN, FIN, RST and ACK. -/

namespace Wiretap

structure TcpFlags where
  bits : UInt8
deriving DecidableEq, Repr

namespace TcpFlags

def fin : TcpFlags := ⟨0x01⟩
def syn : TcpFlags := ⟨0x02⟩
def rst : TcpFlags := ⟨0x04⟩
def ack : TcpFlags := ⟨0x10⟩
def synAck : TcpFlags := ⟨0x12⟩
def finAck : TcpFlags := ⟨0x11⟩
def rstAck : TcpFlags := ⟨0x14⟩

/-- The flags set on either side. -/
def union (a b : TcpFlags) : TcpFlags := ⟨a.bits ||| b.bits⟩

/-- Every bit of `b` is set in `a`. -/
def contains (a b : TcpFlags) : Bool := a.bits &&& b.bits == b.bits

/-- The four flags with a name, in the order they are listed. -/
def named : List (TcpFlags × String) := [(syn, "SYN"), (fin, "FIN"), (rst, "RST"), (ack, "ACK")]

/-- The names of the set flags joined by a plus sign; a byte with none of them in hexadecimal. -/
def text (a : TcpFlags) : String :=
  match named.filter (fun f => a.contains f.1) with
  | [] => "TcpFlags(0x" ++ hexByte a.bits ++ ")"
  | set => "+".intercalate (set.map Prod.snd)

end TcpFlags

end Wiretap
