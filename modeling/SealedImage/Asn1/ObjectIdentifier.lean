import SealedImage.Octets.Basic

/-!
# Object identifiers

An object identifier names an algorithm or a curve by a list of numbers, its arcs. It is kept as the
octets that write it, and two identifiers are the same if their octets are. `ofOctets?` says which
octet strings are admitted, `text` is the usual form with dots.
-/

namespace SealedImage

structure ObjectIdentifier where
  octets : Octets
deriving DecidableEq

namespace ObjectIdentifier

/-- The arcs behind the first octet: digits in base 128, with the high bit set on all but the last
digit of an arc. `count` digits of the current arc are read and have the given value. An arc has at most
five digits, the fifth below 16, and is a number of 32 bits. -/
def laterArcs : Octets → (count value : Nat) → Option (List Nat)
  | [], 0, _ => some []
  | [], _ + 1, _ => none
  | x :: xs, count, value =>
    let digit := x.toNat % 128
    if 4 ≤ count ∧ 16 ≤ x.toNat then none
    else
      let arc := (value * 128 + digit) % UInt32.size
      if x.toNat < 128 then (laterArcs xs 0 0).map (arc :: ·) else laterArcs xs (count + 1) arc

/-- All arcs; the first octet holds two of them. -/
def arcs? : Octets → Option (List Nat)
  | [] => none
  | x :: xs =>
    if x.toNat < 120 then
      (laterArcs xs 0 0).map fun later => x.toNat / 40 :: x.toNat % 40 :: later
    else none

/-- The identifier that 3 to 39 octets write, if they do. -/
def ofOctets? (xs : Octets) : Option ObjectIdentifier :=
  if 3 ≤ xs.length ∧ xs.length ≤ 39 ∧ (arcs? xs).isSome then some ⟨xs⟩ else none

/-- The arcs in decimal, separated by dots. -/
def text (o : ObjectIdentifier) : String :=
  ".".intercalate (((arcs? o.octets).getD []).map fun arc => toString arc)

def rsaEncryption : ObjectIdentifier :=
  ⟨[0x2a, 0x86, 0x48, 0x86, 0xf7, 0x0d, 0x01, 0x01, 0x01]⟩

def ecPublicKey : ObjectIdentifier :=
  ⟨[0x2a, 0x86, 0x48, 0xce, 0x3d, 0x02, 0x01]⟩

/-- The curve P-256. -/
def p256 : ObjectIdentifier :=
  ⟨[0x2a, 0x86, 0x48, 0xce, 0x3d, 0x03, 0x01, 0x07]⟩

end ObjectIdentifier

end SealedImage
