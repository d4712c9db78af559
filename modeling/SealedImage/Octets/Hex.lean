import SealedImage.Octets.Basic

/-!
# Hexadecimal text

Octet strings are shown as two lower-case hexadecimal digits per octet.
-/

namespace SealedImage

/-- Two lower-case hexadecimal digits, the high half first. -/
def Octets.hexDigits (x : UInt8) : List Char :=
  [Nat.digitChar (x.toNat / 16), Nat.digitChar (x.toNat % 16)]

def Octets.hex (xs : Octets) : String :=
  String.ofList (xs.flatMap hexDigits)

def Block.hex {n : Nat} (a : Block n) : String :=
  Octets.hex a.octets

/-- A 32-bit word as `0x` and eight lower-case hexadecimal digits. -/
def wordText (w : UInt32) : String :=
  "0x" ++ String.ofList ((List.range 8).map fun i => Nat.digitChar (w.toNat >>> (4 * (7 - i)) % 16))

end SealedImage
