import Wiretap.Bytes

/-! Text in bytes. Where bytes are shown to a reader they are taken as UTF-8, and what is not becomes
the replacement character: one for each longest start of a character that breaks off, and one for each
byte that no character starts with. -/

namespace Wiretap

namespace Utf8

def replacement : Char := '\ufffd'

/-- What the first byte of a character asks for: how many bytes go on from it, and in which range the
first of them lies. -/
def lead (b : UInt8) : Option (Nat × UInt8 × UInt8) :=
  if 0xc2 ≤ b ∧ b ≤ 0xdf then some (1, 0x80, 0xbf)
  else if b = 0xe0 then some (2, 0xa0, 0xbf)
  else if b = 0xed then some (2, 0x80, 0x9f)
  else if 0xe1 ≤ b ∧ b ≤ 0xef then some (2, 0x80, 0xbf)
  else if b = 0xf0 then some (3, 0x90, 0xbf)
  else if 0xf1 ≤ b ∧ b ≤ 0xf3 then some (3, 0x80, 0xbf)
  else if b = 0xf4 then some (3, 0x80, 0x8f)
  else none

/-- A character of which a part was read: its bits so far, how many bytes are owed, and the range of
the next of them. -/
structure Unfinished where
  bits : Nat
  owed : Nat
  low : UInt8
  high : UInt8

/-- The text read so far, last character first, and the character being read. -/
structure Reader where
  text : List Char := []
  current : Option Unfinished := none

namespace Reader

/-- A byte that starts a character, or nothing. -/
def begin (text : List Char) (b : UInt8) : Reader :=
  if b < 0x80 then ⟨Char.ofNat b.toNat :: text, none⟩
  else
    match lead b with
    | none => ⟨replacement :: text, none⟩
    | some (owed, low, high) => ⟨text, some ⟨b.toNat % (64 >>> owed), owed, low, high⟩⟩

def next (r : Reader) (b : UInt8) : Reader :=
  match r.current with
  | none => begin r.text b
  | some p =>
    if p.low ≤ b ∧ b ≤ p.high then
      let bits := p.bits * 64 + b.toNat % 64
      if p.owed = 1 then ⟨Char.ofNat bits :: r.text, none⟩
      else ⟨r.text, some ⟨bits, p.owed - 1, 0x80, 0xbf⟩⟩
    else begin (replacement :: r.text) b

def finish (r : Reader) : List Char :=
  match r.current with
  | none => r.text.reverse
  | some _ => (replacement :: r.text).reverse

end Reader

/-- Bytes as text in which nothing is refused. -/
def lossy (bs : Bytes) : String := String.ofList (bs.foldl Reader.next {}).finish

end Utf8

end Wiretap
