import Mathlib.FieldTheory.Finite.Basic
import SealedImage.Proofs.Codec
import SealedImage.Proofs.Draws
import SealedImage.Proofs.Powers

/-!
# Key transport undoes itself

The private operation of a sound RSA key undoes the public one (`PrivateKey.apply_apply`), by Fermat's
theorem modulo either factor. A padded message is found again behind the first zero octet, because the filler
has none. Together, an unwrapped content key is the wrapped one (`unwrap_of_wraps`).
-/

namespace SealedImage

namespace Octets

lemma lt_pow_octetLength (n : Nat) : n < 256 ^ octetLength n := by
  calc n < 2 ^ bitLength n := Number.lt_two_pow_bitLength n
    _ ≤ 2 ^ (8 * octetLength n) := Nat.pow_le_pow_right (by decide) (by unfold octetLength; omega)
    _ = 256 ^ octetLength n := by rw [Nat.pow_mul]

/-- A number with its count of octets has a non-zero first one. -/
lemma pow_octetLength_le {n : Nat} (h : n ≠ 0) : 256 ^ (octetLength n - 1) ≤ n := by
  calc 256 ^ (octetLength n - 1) = 2 ^ (8 * (octetLength n - 1)) := by rw [Nat.pow_mul]
    _ ≤ 2 ^ n.log2 := by
      apply Nat.pow_le_pow_right (by decide)
      unfold octetLength bitLength
      rw [if_neg h]
      omega
    _ ≤ n := Nat.log2_self_le h

end Octets

namespace Rsa

/-- The factors are distinct primes, the modulus is their product, and the exponents undo each other. -/
structure PrivateKey.Sound (k : PrivateKey) : Prop where
  prime₁ : k.factor₁.Prime
  prime₂ : k.factor₂.Prime
  distinct : k.factor₁ ≠ k.factor₂
  modulus : k.publicKey.modulus = k.factor₁ * k.factor₂
  exponents : k.publicKey.exponent * k.exponent ≡ 1 [MOD Nat.lcm (k.factor₁ - 1) (k.factor₂ - 1)]

/-- Fermat's theorem for exponents that are one modulo the prime less one. -/
lemma pow_modEq_self {p e : Nat} (hp : p.Prime) (he : e ≡ 1 [MOD p - 1]) (hpos : e ≠ 0) (m : Nat) :
    m ^ e ≡ m [MOD p] := by
  by_cases hm : p ∣ m
  · have hzero : m ≡ 0 [MOD p] := (Nat.modEq_zero_iff_dvd).mpr hm
    have hpow : m ^ e ≡ 0 [MOD p] := (Nat.modEq_zero_iff_dvd).mpr (dvd_pow hm hpos)
    exact hpow.trans hzero.symm
  · have hcop : Nat.Coprime m p := ((Nat.Prime.coprime_iff_not_dvd hp).mpr hm).symm
    have hfermat : m ^ (p - 1) ≡ 1 [MOD p] := by
      rw [← Nat.totient_prime hp]
      exact Nat.ModEq.pow_totient hcop
    have hone : 1 ≤ e := Nat.one_le_iff_ne_zero.mpr hpos
    obtain ⟨k, hk⟩ := (Nat.modEq_iff_dvd' hone).mp he.symm
    have hsplit : m ^ e = m * (m ^ (p - 1)) ^ k := by
      rw [← Nat.pow_mul, ← hk, ← Nat.pow_succ', Nat.succ_eq_add_one, Nat.sub_add_cancel hone]
    rw [hsplit]
    simpa using (hfermat.pow k).mul_left m

/-- The exponents undo each other modulo either factor, and so modulo the product of both. -/
theorem PrivateKey.Sound.pow_modEq {k : PrivateKey} (h : k.Sound) (m : Nat) :
    m ^ (k.publicKey.exponent * k.exponent) ≡ m [MOD k.publicKey.modulus] := by
  let p := k.factor₁
  let q := k.factor₂
  have hcop : Nat.Coprime p q := (Nat.coprime_primes h.prime₁ h.prime₂).mpr h.distinct
  have hpos : k.publicKey.exponent * k.exponent ≠ 0 := by
    intro hzero
    have hlcm : Nat.lcm (p - 1) (q - 1) ∣ 1 := by
      have hmod := h.exponents
      rw [hzero] at hmod
      exact (Nat.modEq_zero_iff_dvd).mp hmod.symm
    have hp : p - 1 = 1 := Nat.dvd_one.mp ((Nat.dvd_lcm_left _ _).trans hlcm)
    have hq : q - 1 = 1 := Nat.dvd_one.mp ((Nat.dvd_lcm_right _ _).trans hlcm)
    exact h.distinct (show p = q by omega)
  have hp : m ^ (k.publicKey.exponent * k.exponent) ≡ m [MOD p] :=
    pow_modEq_self h.prime₁ (h.exponents.of_dvd (Nat.dvd_lcm_left _ _)) hpos m
  have hq : m ^ (k.publicKey.exponent * k.exponent) ≡ m [MOD q] :=
    pow_modEq_self h.prime₂ (h.exponents.of_dvd (Nat.dvd_lcm_right _ _)) hpos m
  rw [h.modulus]
  exact (Nat.modEq_and_modEq_iff_modEq_mul hcop).mp ⟨hp, hq⟩

theorem PrivateKey.apply_apply {k : PrivateKey} (h : k.Sound) {m : Nat} (hm : m < k.publicKey.modulus) :
    k.apply (k.publicKey.apply m) = m := by
  unfold PrivateKey.apply PublicKey.apply
  rw [Number.powMod_eq, Number.powMod_eq, ← Nat.pow_mod, ← Nat.pow_mul, h.pow_modEq m, Nat.mod_eq_of_lt hm]

/-- The filler ends where the message begins. -/
lemma unpad?_pad {filler message : Octets} (hne : ∀ x ∈ filler, x ≠ 0) (hlen : 8 ≤ filler.length) :
    unpad? (pad filler message) = some message := by
  have hall : ∀ x ∈ filler, (x != 0) = true := fun x hx => by simpa using hne x hx
  have hdrop : (filler ++ 0x00 :: message).dropWhile (· != 0) = 0x00 :: message := by
    rw [List.dropWhile_append_of_pos hall]
    rfl
  have htake : (filler ++ 0x00 :: message).takeWhile (· != 0) = filler := by
    rw [List.takeWhile_append_of_pos hall]
    simp
  simp only [pad, unpad?, hdrop, htake]
  exact if_pos hlen

lemma toNat_pad_lt {filler message : Octets} {n : Nat} (hn : n ≠ 0)
    (hlen : (pad filler message).length = Octets.octetLength n) :
    Octets.toNat (pad filler message) < n := by
  have hhead : Octets.toNat (pad filler message) = Octets.toNat (pad filler message).tail := by
    rw [show pad filler message = [0] ++ (pad filler message).tail from rfl, Octets.toNat_append]
    simp [Octets.toNat]
  calc Octets.toNat (pad filler message) = Octets.toNat (pad filler message).tail := hhead
    _ < 256 ^ (pad filler message).tail.length := Octets.toNat_lt _
    _ = 256 ^ (Octets.octetLength n - 1) := by rw [List.length_tail, hlen]
    _ ≤ n := Octets.pow_octetLength_le hn

lemma PublicKey.apply_lt_modulus {k : PublicKey} (hn : k.modulus ≠ 0) (m : Nat) : k.apply m < k.modulus := by
  unfold PublicKey.apply
  rw [Number.powMod_eq]
  exact Nat.mod_lt _ (Nat.pos_of_ne_zero hn)

/-- The ciphertext is the number that the public operation gives. -/
lemma PublicKey.toNat_encrypt {k : PublicKey} (hn : k.modulus ≠ 0) (filler message : Octets) :
    Octets.toNat (k.encrypt filler message) = k.apply (Octets.toNat (pad filler message)) := by
  apply Octets.toNat_ofNat_of_lt
  calc k.apply _ < k.modulus := PublicKey.apply_lt_modulus hn _
    _ < 256 ^ k.size := Octets.lt_pow_octetLength k.modulus

/-- The private operation gives back a padded message of the size of the modulus. -/
lemma PrivateKey.apply_encrypt {k : PrivateKey} (h : k.Sound) (hn : k.publicKey.modulus ≠ 0)
    {filler message : Octets} (hlen : (pad filler message).length = k.publicKey.size) :
    k.apply (Octets.toNat (k.publicKey.encrypt filler message)) = Octets.toNat (pad filler message) := by
  rw [PublicKey.toNat_encrypt hn, PrivateKey.apply_apply h (toNat_pad_lt hn hlen)]

/-- An unwrapped content key is the one that was wrapped. -/
theorem unwrap_of_wraps {k : PrivateKey} (hk : k.Sound) {key : Block 32} {wrapped : Block 384}
    {trace : Trace} (h : Wraps k.publicKey key trace (.ok wrapped)) : unwrap k wrapped = .ok key := by
  obtain ⟨hsize, hdefect, filler, hlen, hne, hwrapped⟩ := h.spec
  have hn : k.publicKey.modulus ≠ 0 := fun hzero => by
    rw [PublicKey.size, hzero] at hsize
    cases hsize
  have hpad : (pad filler key.octets).length = k.publicKey.size := by
    have hkey := key.length_octets
    unfold rsaModulusSize at hsize
    simp only [pad, List.length_cons, List.length_append]
    omega
  have hc : k.publicKey.apply (Octets.toNat (pad filler key.octets)) = Octets.toNat wrapped.octets := by
    rw [hwrapped, PublicKey.toNat_encrypt hn]
  have hlt : Octets.toNat wrapped.octets < k.publicKey.modulus := hc ▸ PublicKey.apply_lt_modulus hn _
  have happly : k.apply (Octets.toNat wrapped.octets) = Octets.toNat (pad filler key.octets) := by
    rw [hwrapped, PrivateKey.apply_encrypt hk hn hpad]
  have hdecrypt : k.decrypt? wrapped.octets = some key.octets := by
    have hlong : 8 ≤ filler.length := by omega
    unfold PrivateKey.decrypt?
    dsimp only
    rw [if_pos ⟨hdefect, hlt⟩, happly, if_pos hc, ← hpad, Octets.ofNat_toNat, unpad?_pad hne hlong]
  unfold unwrap
  rw [hdecrypt, PublicKey.checkSize, if_pos hsize]
  simp [bind, Except.bind, pure, Except.pure]

end Rsa

end SealedImage
