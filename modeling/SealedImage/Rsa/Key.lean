import SealedImage.Number.Power

/-!
# RSA keys

A public key is a modulus and an exponent; a private key adds the private exponent and the two factors of
the modulus. `PublicKey.check` tells whether a public key is fit for use, and `PrivateKey.ofNumbers?`
accepts the numbers of a private key if they fit each other. Whether the factors are prime is not tested.
-/

namespace SealedImage.Rsa

/-- A modulus and a public exponent, not necessarily fit for use. -/
structure PublicKey where
  modulus : Nat
  exponent : Nat
deriving DecidableEq

/-- A public key with its private exponent and the factors of its modulus. -/
structure PrivateKey where
  publicKey : PublicKey
  exponent : Nat
  factor₁ : Nat
  factor₂ : Nat
deriving DecidableEq

inductive Defect
  | exponentTooLarge
  | invalidModulus
  | invalidExponent
  | exponentTooSmall
deriving DecidableEq

def Defect.text : Defect → String
  | exponentTooLarge => "public exponent too large"
  | invalidModulus => "invalid modulus"
  | invalidExponent => "invalid exponent"
  | exponentTooSmall => "public exponent too small"

namespace PublicKey

def bits (k : PublicKey) : Nat :=
  Octets.bitLength k.modulus

def size (k : PublicKey) : Nat :=
  Octets.octetLength k.modulus

/-- The first defect of a key, in the order in which defects are looked for. -/
def defect? (k : PublicKey) : Option Defect :=
  if UInt64.size ≤ k.exponent then some .exponentTooLarge
  else if k.modulus ≤ k.exponent ∨ k.modulus % 2 = 0 then some .invalidModulus
  else if k.exponent % 2 = 0 then some .invalidExponent
  else if k.exponent < 2 then some .exponentTooSmall
  else if 0x200000000 ≤ k.exponent then some .exponentTooLarge
  else none

/-- The most bits that the modulus of a stored public key may have. -/
def maxStoredBits : Nat := 4096

/-- The stored public key with given numbers, if it has no defect and is not too large. -/
def ofNumbers? (modulus exponent : Nat) : Option PublicKey :=
  let k : PublicKey := ⟨modulus, exponent⟩
  if k.bits ≤ maxStoredBits ∧ k.defect? = none then some k else none

def apply (k : PublicKey) (m : Nat) : Nat :=
  Number.powMod m k.exponent k.modulus

end PublicKey

namespace PrivateKey

/-- The factors give the modulus, and the exponents undo each other modulo either factor less one. -/
def Consistent (k : PrivateKey) : Prop :=
  1 < k.factor₁ ∧ 1 < k.factor₂ ∧ k.factor₁ * k.factor₂ = k.publicKey.modulus ∧
    k.publicKey.exponent * k.exponent % (k.factor₁ - 1) = 1 ∧
    k.publicKey.exponent * k.exponent % (k.factor₂ - 1) = 1

instance (k : PrivateKey) : Decidable k.Consistent :=
  inferInstanceAs (Decidable (_ ∧ _))

/-- The private key with given numbers, if the public key has no defect and the numbers are consistent. -/
def ofNumbers? (modulus publicExponent exponent factor₁ factor₂ : Nat) : Option PrivateKey :=
  let k : PrivateKey := ⟨⟨modulus, publicExponent⟩, exponent, factor₁, factor₂⟩
  if k.publicKey.defect? = none ∧ k.Consistent then some k else none

def apply (k : PrivateKey) (c : Nat) : Nat :=
  Number.powMod c k.exponent k.publicKey.modulus

end PrivateKey

end SealedImage.Rsa
