/-!
# Octet strings

An octet string is a list of octets. `Block n` is an octet string of exactly `n` octets: keys,
initialization vectors, tags and key slots are blocks, so that no function has to ask for their
length again. `Block.cut` takes a block out of a longer string at a given offset.
-/

namespace SealedImage

abbrev Octets := List UInt8

/-- A string of exactly `size` octets. -/
structure Block (size : Nat) where
  octets : Octets
  length_octets : octets.length = size
deriving DecidableEq

namespace Octets

/-- The first `count` pieces of `size` octets each; where the string ends, pieces are short. -/
def piecesOf (size : Nat) : (count : Nat) → Octets → List Octets
  | 0, _ => []
  | count + 1, xs => xs.take size :: piecesOf size count (xs.drop size)

/-- The string cut into pieces of `size` octets, of which only the last may be shorter. -/
def pieces (size : Nat) (xs : Octets) : List Octets :=
  piecesOf size ((xs.length + size - 1) / size) xs

end Octets

namespace Block

variable {n : Nat}

@[ext]
theorem ext {a b : Block n} (h : a.octets = b.octets) : a = b := by
  cases a; cases b; simp_all

attribute [simp] Block.length_octets

/-- The octet string as a block, if it has the right length. -/
def ofOctets? (n : Nat) (xs : Octets) : Option (Block n) :=
  if h : xs.length = n then some ⟨xs, h⟩ else none

def replicate (n : Nat) (x : UInt8) : Block n :=
  ⟨List.replicate n x, List.length_replicate⟩

/-- The `n` octets of `xs` that start at `offset`. -/
def cut (xs : Octets) (offset n : Nat) (h : offset + n ≤ xs.length) : Block n :=
  ⟨(xs.drop offset).take n, by simp; omega⟩

@[simp]
theorem octets_cut (xs : Octets) (offset n : Nat) (h : offset + n ≤ xs.length) :
    (cut xs offset n h).octets = (xs.drop offset).take n := rfl

def append {m : Nat} (a : Block m) (b : Block n) : Block (m + n) :=
  ⟨a.octets ++ b.octets, by simp⟩

@[simp]
theorem ofOctets?_octets (a : Block n) : ofOctets? n a.octets = some a := by
  simp [ofOctets?]

end Block

end SealedImage
