/-! Big-endian fields: words as lists of bytes, most significant byte first, and the words read back
from their bytes. Lengths that outgrow their field are written as the largest value the field holds,
never as a wrapped one. -/

namespace Wiretap

abbrev Bytes := List UInt8

def be16 (x : UInt16) : Bytes := [UInt8.ofNat (x.toNat / 256), UInt8.ofNat x.toNat]

def be32 (x : UInt32) : Bytes :=
  [UInt8.ofNat (x.toNat / 16777216), UInt8.ofNat (x.toNat / 65536), UInt8.ofNat (x.toNat / 256),
    UInt8.ofNat x.toNat]

def word16 (a b : UInt8) : UInt16 := UInt16.ofNat (a.toNat * 256 + b.toNat)

def word32 (a b c d : UInt8) : UInt32 :=
  UInt32.ofNat (a.toNat * 16777216 + b.toNat * 65536 + c.toNat * 256 + d.toNat)

/-- A length in a 16-bit field. -/
def length16 (n : Nat) : UInt16 := UInt16.ofNat (min n 65535)

/-- A length in a 32-bit field. -/
def length32 (n : Nat) : UInt32 := UInt32.ofNat (min n 4294967295)

/-- Data cut into parts of the given size; the last may be shorter. No data are one empty part. -/
def cut (size : Nat) (data : ByteArray) : List ByteArray :=
  if data.isEmpty then [data]
  else
    (List.range ((data.size + size - 1) / size)).map fun i =>
      data.extract (i * size) ((i + 1) * size)

@[simp] theorem be16_length (x : UInt16) : (be16 x).length = 2 := rfl

@[simp] theorem be32_length (x : UInt32) : (be32 x).length = 4 := rfl

theorem word16_be16 (x : UInt16) :
    word16 (UInt8.ofNat (x.toNat / 256)) (UInt8.ofNat x.toNat) = x := by
  have hx := x.toNat_lt
  apply UInt16.toNat_inj.mp
  simp only [word16, UInt8.toNat_ofNat', UInt16.toNat_ofNat']
  omega

theorem word32_be32 (x : UInt32) :
    word32 (UInt8.ofNat (x.toNat / 16777216)) (UInt8.ofNat (x.toNat / 65536))
      (UInt8.ofNat (x.toNat / 256)) (UInt8.ofNat x.toNat) = x := by
  have hx := x.toNat_lt
  apply UInt32.toNat_inj.mp
  simp only [word32, UInt8.toNat_ofNat', UInt32.toNat_ofNat']
  omega

theorem be16_injective {x y : UInt16} (h : be16 x = be16 y) : x = y := by
  simp only [be16, List.cons.injEq, and_true] at h
  rw [← word16_be16 x, ← word16_be16 y, h.1, h.2]

theorem be32_injective {x y : UInt32} (h : be32 x = be32 y) : x = y := by
  simp only [be32, List.cons.injEq, and_true] at h
  rw [← word32_be32 x, ← word32_be32 y, h.1, h.2.1, h.2.2.1, h.2.2.2]

/-- Within the field a length is written exactly. -/
theorem length16_toNat {n : Nat} (h : n ≤ 65535) : (length16 n).toNat = n := by
  simp only [length16, UInt16.toNat_ofNat']
  omega

theorem length32_toNat {n : Nat} (h : n ≤ 4294967295) : (length32 n).toNat = n := by
  simp only [length32, UInt32.toNat_ofNat']
  omega

end Wiretap
