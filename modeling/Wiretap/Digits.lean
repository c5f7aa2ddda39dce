/-! Numbers in text: digit characters of a base up to sixteen, and the unsigned numbers they spell. -/

namespace Wiretap

/-- The value of a digit of the base; letters count from ten in either case. -/
def digit? (base : Nat) (c : Char) : Option Nat :=
  let value? :=
    if '0' ≤ c ∧ c ≤ '9' then some (c.toNat - '0'.toNat)
    else if 'a' ≤ c ∧ c ≤ 'f' then some (c.toNat - 'a'.toNat + 10)
    else if 'A' ≤ c ∧ c ≤ 'F' then some (c.toNat - 'A'.toNat + 10)
    else none
  value?.filter (· < base)

def isDigit (base : Nat) (c : Char) : Bool := (digit? base c).isSome

/-- The number that digits spell, most significant first. -/
def numeral (base : Nat) (digits : List Char) : Nat :=
  digits.foldl (fun n c => n * base + (digit? base c).getD 0) 0

def decimal (n : Nat) : String := String.ofList (Nat.toDigits 10 n)

def hexadecimal (n : Nat) : String := String.ofList (Nat.toDigits 16 n)

/-- At least so many digits, with zeros in front. -/
def padded (width : Nat) (digits : String) : String :=
  String.ofList (List.replicate (width - digits.length) '0') ++ digits

/-- A byte as two hexadecimal digits. -/
def hexByte (b : UInt8) : String := padded 2 (hexadecimal b.toNat)

end Wiretap
