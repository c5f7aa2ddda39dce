import Wiretap.Address
import Wiretap.Digits

/-! The text of addresses. An IPv4 address is four decimal octets without leading zeros. An IPv6
address is eight groups of up to four hexadecimal digits, of which one run of zero groups may be
written `::` and the last two may be written as an IPv4 address. A socket address ends in a colon and
a decimal port; an IPv6 address stands in brackets there and may name a numeric scope after a percent
sign. Reading takes a part off the front of the characters and gives the rest; a whole text is an
address only if nothing is left. -/

namespace Wiretap

namespace Ipv4

def text (x : Ipv4) : String :=
  ".".intercalate [decimal x.a.toNat, decimal x.b.toNat, decimal x.c.toNat, decimal x.d.toNat]

end Ipv4

namespace Ipv6

/-- The longest run of zero groups as its start and length; of runs of one length the first. The
groups still to see begin at index `i`. -/
def longestZeroRun (i : Nat) : List UInt16 → Nat × Nat → Nat × Nat
  | [], best => best
  | g :: gs, best =>
    let length := ((g :: gs).takeWhile (· == 0)).length
    longestZeroRun (i + 1) gs (if length > best.2 then (i, length) else best)

def groupsText (gs : List UInt16) : String :=
  ":".intercalate (gs.map (fun g => hexadecimal g.toNat))

/-- A mapped IPv4 address is shown in its own form; otherwise the first longest run of two or more
zero groups is left out. -/
def text (x : Ipv6) : String :=
  match x.mapped? with
  | some ip => "::ffff:" ++ ip.text
  | none =>
    let run := longestZeroRun 0 x.groups (0, 0)
    if run.2 > 1 then
      groupsText (x.groups.take run.1) ++ "::" ++ groupsText (x.groups.drop (run.1 + run.2))
    else groupsText x.groups

end Ipv6

def Endpoint.text (x : Endpoint) : String := x.ip.text ++ ":" ++ decimal x.port.toNat

namespace SocketAddress

/-- The text up to the colon before the port. -/
def host : SocketAddress → String
  | v4 ip _ => ip.text
  | v6 ip _ scope =>
    if scope = 0 then "[" ++ ip.text ++ "]"
    else "[" ++ ip.text ++ "%" ++ decimal scope.toNat ++ "]"

def text (x : SocketAddress) : String := x.host ++ ":" ++ decimal x.port.toNat

end SocketAddress

/-! Reading. -/

/-- The character `c` off the front. -/
def readChar (c : Char) : List Char → Option (List Char)
  | x :: rest => if x = c then some rest else none
  | [] => none

/-- A number of at least one digit that is no greater than `bound`. -/
def readNumber (base bound : Nat) (cs : List Char) : Option (Nat × List Char) :=
  let digits := cs.takeWhile (isDigit base)
  if digits = [] ∨ numeral base digits > bound then none
  else some (numeral base digits, cs.drop digits.length)

/-- An octet: at most three digits, the first of which is zero only if it stands alone. -/
def readOctet (cs : List Char) : Option (UInt8 × List Char) :=
  let digits := cs.takeWhile (isDigit 10)
  if digits.length > 3 ∨ (digits.length > 1 ∧ digits.head? = some '0') then none
  else (readNumber 10 255 cs).map fun (n, rest) => (UInt8.ofNat n, rest)

/-- A group: at most four hexadecimal digits. -/
def readGroup (cs : List Char) : Option (UInt16 × List Char) :=
  if (cs.takeWhile (isDigit 16)).length > 4 then none
  else (readNumber 16 65535 cs).map fun (n, rest) => (UInt16.ofNat n, rest)

def readIpv4 (cs : List Char) : Option (Ipv4 × List Char) := do
  let (a, cs) ← readOctet cs
  let (b, cs) ← readOctet (← readChar '.' cs)
  let (c, cs) ← readOctet (← readChar '.' cs)
  let (d, cs) ← readOctet (← readChar '.' cs)
  some (⟨a, b, c, d⟩, cs)

/-- The groups that could be read, whether the last two of them were written as an IPv4 address, and
the characters after them. -/
structure GroupRun where
  groups : List UInt16
  endsInIpv4 : Bool
  rest : List Char

/-- As many groups as there are, up to a limit, a colon before each but the first. Two of them may be
an IPv4 address, which ends the run. -/
def readGroups : (limit : Nat) → (first : Bool) → List Char → GroupRun
  | 0, _, cs => ⟨[], false, cs⟩
  | limit + 1, first, cs =>
    let start? := if first then some cs else readChar ':' cs
    match if limit = 0 then none else start?.bind readIpv4 with
    | some (ip, rest) => ⟨[word16 ip.a ip.b, word16 ip.c ip.d], true, rest⟩
    | none =>
      match start?.bind readGroup with
      | none => ⟨[], false, cs⟩
      | some (g, rest) =>
        let more := readGroups limit false rest
        { more with groups := g :: more.groups }

/-- Eight groups, or fewer before and after `::`, which stands for at least one zero group. -/
def readIpv6 (cs : List Char) : Option (Ipv6 × List Char) := do
  let front := readGroups 8 true cs
  if front.groups.length = 8 then
    some (← Ipv6.ofGroups? front.groups, front.rest)
  else if front.endsInIpv4 then
    none
  else
    let rest ← readChar ':' (← readChar ':' front.rest)
    let back := readGroups (7 - front.groups.length) true rest
    let zeros := List.replicate (8 - front.groups.length - back.groups.length) 0
    some (← Ipv6.ofGroups? (front.groups ++ zeros ++ back.groups), back.rest)

/-- A colon and a port, which may have any number of leading zeros. -/
def readPort (cs : List Char) : Option (UInt16 × List Char) := do
  let (n, cs) ← readNumber 10 65535 (← readChar ':' cs)
  some (UInt16.ofNat n, cs)

/-- A percent sign and a scope; no scope is scope zero. -/
def readScope (cs : List Char) : Option (UInt32 × List Char) :=
  match cs with
  | '%' :: rest => (readNumber 10 4294967295 rest).map fun (n, rest) => (UInt32.ofNat n, rest)
  | _ => some (0, cs)

def readSocketV4 (cs : List Char) : Option (SocketAddress × List Char) := do
  let (ip, cs) ← readIpv4 cs
  let (port, cs) ← readPort cs
  some (.v4 ip port, cs)

def readSocketV6 (cs : List Char) : Option (SocketAddress × List Char) := do
  let (ip, cs) ← readIpv6 (← readChar '[' cs)
  let (scope, cs) ← readScope cs
  let (port, cs) ← readPort (← readChar ']' cs)
  some (.v6 ip port scope, cs)

/-- What was read, if nothing was left. -/
def whole? {α : Type} : Option (α × List Char) → Option α
  | some (x, []) => some x
  | _ => none

namespace Ipv4

def ofText? (s : String) : Option Ipv4 := whole? (readIpv4 s.toList)

end Ipv4

namespace SocketAddress

def ofText? (s : String) : Option SocketAddress :=
  whole? ((readSocketV4 s.toList).orElse fun _ => readSocketV6 s.toList)

/-- What is said of a text that is no socket address. -/
def malformed : String := "invalid socket address syntax"

end SocketAddress

/-- An endpoint is written as a socket address of the IPv4 family. -/
def Endpoint.ofText? (s : String) : Option Endpoint :=
  match SocketAddress.ofText? s with
  | some (.v4 ip port) => some ⟨ip, port⟩
  | _ => none

end Wiretap
