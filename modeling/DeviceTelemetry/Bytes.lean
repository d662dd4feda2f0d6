/-!
# Bytes

Strings of bytes, the two-byte numbers that head a record, and the hexadecimal text of a payload.
-/

set_option autoImplicit false

namespace DeviceTelemetry

abbrev Bytes := List UInt8

namespace Bytes

/-- The two bytes of a number below `2 ^ 16`, low byte first. -/
def ofWord (n : Nat) : Bytes :=
  [UInt8.ofNat n, UInt8.ofNat (n / 256)]

/-- The number that two bytes hold, low byte first. -/
def toWord (lo hi : UInt8) : Nat :=
  lo.toNat + 256 * hi.toNat

theorem toWord_ofNat {n : Nat} (h : n < 65536) :
    toWord (UInt8.ofNat n) (UInt8.ofNat (n / 256)) = n := by
  simp only [toWord, UInt8.toNat_ofNat']
  omega

def hexDigit (n : Nat) : Char :=
  if n < 10 then Char.ofNat (48 + n) else Char.ofNat (87 + n)

/-- Two hexadecimal digits for each byte, high digit first. -/
def hex (bs : Bytes) : String :=
  String.ofList (bs.flatMap fun b => [hexDigit (b.toNat / 16), hexDigit (b.toNat % 16)])

end Bytes

end DeviceTelemetry
