import SealedImage.Octets.Basic

/-!
# Octet strings as numbers

`Octets.toNat` reads an octet string as an unsigned number with the most significant octet first,
`Octets.ofNat` writes a number with a fixed count of octets, and `Octets.minimal` with as few as
possible. Words of 32 bits are also written least significant octet first.
-/

namespace SealedImage

namespace Octets

/-- The number that the octets write in base 256, most significant octet first. -/
def toNat (xs : Octets) : Nat :=
  xs.foldl (fun n x => n * 256 + x.toNat) 0

/-- The last `count` base 256 digits of `n`, most significant first. -/
def ofNat : (count n : Nat) → Octets
  | 0, _ => []
  | count + 1, n => ofNat count (n / 256) ++ [UInt8.ofNat (n % 256)]

/-- The number of bits of `n`: the least `b` with `n < 2 ^ b`. -/
def bitLength (n : Nat) : Nat :=
  if n = 0 then 0 else n.log2 + 1

/-- The number of octets that the bits of `n` fill. -/
def octetLength (n : Nat) : Nat :=
  (bitLength n + 7) / 8

/-- The shortest octet string that writes `n`; zero takes one octet. -/
def minimal (n : Nat) : Octets :=
  if n = 0 then [0] else ofNat (octetLength n) n

@[simp]
theorem length_ofNat (count n : Nat) : (ofNat count n).length = count := by
  induction count generalizing n with
  | zero => rfl
  | succ count ih => simp [ofNat, ih]

theorem toNat_append_singleton (xs : Octets) (x : UInt8) :
    toNat (xs ++ [x]) = toNat xs * 256 + x.toNat := by
  simp [toNat]

/-- A word, least significant octet first. -/
def ofWordLE (w : UInt32) : Octets :=
  [w.toUInt8, (w >>> 8).toUInt8, (w >>> 16).toUInt8, (w >>> 24).toUInt8]

/-- The word whose digits in base 256 are the octets, least significant first. -/
def toWordLE (xs : Octets) : UInt32 :=
  xs.foldr (fun x w => (w <<< 8) ||| x.toUInt32) 0

/-- A word, most significant octet first. -/
def ofWordBE (w : UInt32) : Octets :=
  [(w >>> 24).toUInt8, (w >>> 16).toUInt8, (w >>> 8).toUInt8, w.toUInt8]

/-- The word whose digits in base 256 are the octets, most significant first. -/
def toWordBE (xs : Octets) : UInt32 :=
  xs.foldl (fun w x => (w <<< 8) ||| x.toUInt32) 0

end Octets

namespace Block

/-- The number that the block writes, most significant octet first. -/
def toNat {n : Nat} (a : Block n) : Nat :=
  Octets.toNat a.octets

/-- The block of `n` octets that writes the number modulo `256 ^ n`. -/
def ofNat (n value : Nat) : Block n :=
  ⟨Octets.ofNat n value, Octets.length_ofNat n value⟩

end Block

end SealedImage
