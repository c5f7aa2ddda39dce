import Wiretap.Bytes
import Wiretap.Digits

/-! The names of sessions: identifiers of 128 bits of which 122 are random. The other six say so: the
version, four, and the variant. A name is written in hexadecimal, in five groups. -/

namespace Wiretap

namespace SessionName

/-- The lower half of a byte, with the version in the upper one. -/
def versioned (b : UInt8) : UInt8 := 0x40 ||| (b &&& 0x0f)

/-- The lower six bits of a byte, with the variant above them. -/
def varied (b : UInt8) : UInt8 := 0x80 ||| (b &&& 0x3f)

def groupText (bs : Bytes) : String := String.join (bs.map hexByte)

/-- The name made from sixteen random bytes; fewer are taken as they are. -/
def ofRandom (bs : Bytes) : String :=
  let marked := (bs.modify 6 versioned).modify 8 varied
  "-".intercalate
    [groupText (marked.take 4), groupText ((marked.drop 4).take 2),
      groupText ((marked.drop 6).take 2), groupText ((marked.drop 8).take 2),
      groupText ((marked.drop 10).take 6)]

end SessionName

end Wiretap
