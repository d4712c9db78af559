import Mathlib.Data.Int.GCD
import Mathlib.Data.Int.ModEq
import Mathlib.Tactic.Linarith
import SealedImage.Proofs.KeyTransport
import SealedImage.Rsa.Generation

/-!
# New RSA keys

Whatever the tape holds, a drawn key has two different odd factors with their two top bits set, their product
as its modulus, and exponents that undo each other (`PrivateKey.Fresh`, `drawKey_fresh`). From these facts
alone the key fits the size that is asked for (`PrivateKey.Fresh.size_eq`) and is consistent.
-/

namespace SealedImage

namespace Number

/-- An inverse is below the modulus and undoes the number. -/
theorem inverse?_spec {a m d : Nat} (hm : 1 < m) (h : inverse? a m = some d) :
    d < m ∧ a * d % m = 1 := by
  unfold inverse? at h
  split_ifs at h with hgcd
  obtain rfl := Option.some.inj h
  have hpos : (0 : Int) < m := by omega
  have hcast : (((bezout a m).1 % (m : Int)).toNat : Int) = (bezout a m).1 % m :=
    Int.toNat_of_nonneg (Int.emod_nonneg _ hpos.ne')
  have hmod : ((a * ((bezout a m).1 % (m : Int)).toNat : Nat) : Int) ≡ ((1 : Nat) : Int) [ZMOD m] := by
    have hbezout := bezout_eq a m
    rw [hgcd] at hbezout
    rw [Nat.cast_mul, hcast, ← hbezout]
    calc (a : Int) * ((bezout a m).1 % m) ≡ a * (bezout a m).1 [ZMOD m] := (Int.mod_modEq _ _).mul_left _
      _ ≡ a * (bezout a m).1 + m * (bezout a m).2 [ZMOD m] :=
        (Int.modEq_iff_dvd.mpr ⟨(bezout a m).2, by ring⟩)
  refine ⟨?_, ?_⟩
  · have hlt := Int.emod_lt_of_pos (bezout a m).1 hpos
    omega
  · have hnat := (Int.natCast_modEq_iff).mp hmod
    rw [Nat.ModEq, Nat.mod_eq_of_lt hm] at hnat
    exact hnat

end Number

namespace Octets

lemma bitLength_eq_iff {n bits : Nat} : bitLength n = bits + 1 ↔ 2 ^ bits ≤ n ∧ n < 2 ^ (bits + 1) := by
  by_cases hn : n = 0
  · simp [bitLength, hn]
  · rw [bitLength, if_neg hn, ← Nat.log2_eq_iff hn]
    omega

lemma bitLength_le_of_lt {n bits : Nat} (h : n < 2 ^ bits) : bitLength n ≤ bits := by
  unfold bitLength
  split_ifs with hn
  · exact Nat.zero_le bits
  · exact (Nat.log2_lt hn).mpr h

end Octets

namespace Rsa

/-- A number of 1536 bits with its two top bits set that is odd. -/
structure IsFactor (n : Nat) : Prop where
  odd : n % 2 = 1
  top : 3 * 2 ^ 1534 ≤ n
  bounded : n < 2 ^ 1536

/-- What holds of every key that is drawn. -/
structure PrivateKey.Fresh (k : PrivateKey) : Prop where
  factor₁ : IsFactor k.factor₁
  factor₂ : IsFactor k.factor₂
  distinct : k.factor₁ ≠ k.factor₂
  modulus : k.publicKey.modulus = k.factor₁ * k.factor₂
  standard : k.publicKey.exponent = standardExponent
  inverse : k.publicKey.exponent * k.exponent % ((k.factor₁ - 1) * (k.factor₂ - 1)) = 1
  reduced : k.exponent < (k.factor₁ - 1) * (k.factor₂ - 1)

/-- A candidate is moved by an even distance. -/
lemma clearDelta?_even {n count delta moved : Nat} (h : clearDelta? n count delta = some moved)
    (hdelta : delta % 2 = 0) : moved % 2 = 0 := by
  induction count generalizing delta with
  | zero => cases h
  | succ count ih =>
    rw [clearDelta?] at h
    split_ifs at h
    · rw [← Option.some.inj h]
      exact hdelta
    · exact ih h (by omega)

lemma candidate_spec (xs : Octets) : candidate xs % 2 = 1 ∧ 3 * 2 ^ 1534 ≤ candidate xs := by
  let bits := 8 * primeSize
  let n := Octets.toNat xs ||| 1 <<< (bits - 1) ||| 1 <<< (bits - 2) ||| 1
  let delta := (clearDelta? (n % smallPrimes.foldl (· * ·) 1) 0x80000 0).getD 0
  have heven : delta % 2 = 0 := by
    cases h : clearDelta? (n % smallPrimes.foldl (· * ·) 1) 0x80000 0 with
    | none => simp [delta, h]
    | some moved => simpa [delta, h] using clearDelta?_even h rfl
  have hodd : n % 2 = 1 := by
    rw [Nat.or_mod_two_eq_one]
    exact Or.inr rfl
  have htop : 3 * 2 ^ 1534 ≤ n := by
    calc 3 * 2 ^ 1534 = 1 <<< (bits - 1) ||| 1 <<< (bits - 2) := by decide +kernel
      _ ≤ Octets.toNat xs ||| (1 <<< (bits - 1) ||| 1 <<< (bits - 2)) := Nat.right_le_or
      _ ≤ Octets.toNat xs ||| (1 <<< (bits - 1) ||| 1 <<< (bits - 2)) ||| 1 := Nat.left_le_or
      _ = n := by rw [← Nat.or_assoc]
  have hcandidate : candidate xs = n + delta := rfl
  omega

lemma isFactor_of_prime? {xs : Block primeSize} {n : Nat} (h : prime? xs = some n) : IsFactor n := by
  unfold prime? at h
  dsimp only at h
  split_ifs at h with hprime
  obtain rfl := Option.some.inj h
  obtain ⟨hodd, htop⟩ := candidate_spec xs.octets
  have hbits : Octets.bitLength (candidate xs.octets) = 1536 := hprime.1
  exact ⟨hodd, htop, hbits ▸ Number.lt_two_pow_bitLength _⟩

lemma drawFactors_spec {tape rest : Octets} {p q : Nat} (h : drawFactors tape = some ((p, q), rest)) :
    IsFactor p ∧ IsFactor q := by
  obtain ⟨⟨p', tape'⟩, hp, hrest⟩ := Option.bind_eq_some_iff.mp h
  obtain ⟨⟨q', tape''⟩, hq, hpair⟩ := Option.bind_eq_some_iff.mp hrest
  obtain ⟨hfactors, -⟩ := Prod.mk.inj (Option.some.inj hpair)
  obtain ⟨rfl, rfl⟩ := Prod.mk.inj hfactors
  obtain ⟨xs, -, -, hxs⟩ := Draw.retry_accepts hp
  obtain ⟨ys, -, -, hys⟩ := Draw.retry_accepts hq
  exact ⟨isFactor_of_prime? hxs, isFactor_of_prime? hys⟩

/-- Every drawn key is fresh. -/
theorem drawKey_fresh {tape rest : Octets} {k : PrivateKey} (h : drawKey tape = some (k, rest)) : k.Fresh := by
  obtain ⟨⟨p, q⟩, before, hdraw, haccept⟩ := Draw.retry_accepts h
  obtain ⟨hp, hq⟩ := drawFactors_spec hdraw
  simp only [ofFactors?] at haccept
  split_ifs at haccept with hne
  obtain ⟨d, hd, rfl⟩ := Option.map_eq_some_iff.mp haccept
  have hlarge : 1 < (p - 1) * (q - 1) := by
    have := hp.top
    have := hq.top
    calc 1 < (3 * 2 ^ 1534 - 1) * (3 * 2 ^ 1534 - 1) := by decide +kernel
      _ ≤ (p - 1) * (q - 1) := Nat.mul_le_mul (by omega) (by omega)
  obtain ⟨hlt, hone⟩ := Number.inverse?_spec hlarge hd
  exact ⟨hp, hq, hne, rfl, rfl, hone, hlt⟩

namespace PrivateKey.Fresh

variable {k : PrivateKey}

/-- The modulus of a fresh key has as many bits as its factors together. -/
theorem bits_eq (h : k.Fresh) : k.publicKey.bits = 3072 := by
  have hlow : 2 ^ 3071 ≤ k.factor₁ * k.factor₂ := by
    calc 2 ^ 3071 ≤ 3 * 2 ^ 1534 * (3 * 2 ^ 1534) := by decide +kernel
      _ ≤ k.factor₁ * k.factor₂ := Nat.mul_le_mul h.factor₁.top h.factor₂.top
  have hhigh : k.factor₁ * k.factor₂ < 2 ^ (3071 + 1) := by
    calc k.factor₁ * k.factor₂ < 2 ^ 1536 * 2 ^ 1536 :=
          Nat.mul_lt_mul'' h.factor₁.bounded h.factor₂.bounded
      _ = 2 ^ (3071 + 1) := by decide +kernel
  unfold PublicKey.bits
  rw [h.modulus]
  exact Octets.bitLength_eq_iff.mpr ⟨hlow, hhigh⟩

theorem size_eq (h : k.Fresh) : k.publicKey.size = rsaModulusSize := by
  unfold PublicKey.size Octets.octetLength
  rw [show Octets.bitLength k.publicKey.modulus = 3072 from h.bits_eq]
  rfl

theorem checkSize (h : k.Fresh) : k.publicKey.checkSize = .ok () := by
  rw [PublicKey.checkSize, if_pos h.size_eq]
  rfl

theorem defect?_eq (h : k.Fresh) : k.publicKey.defect? = none := by
  have hodd : k.publicKey.modulus % 2 = 1 := by
    rw [h.modulus, Nat.mul_mod, h.factor₁.odd, h.factor₂.odd]
  have hlarge : standardExponent < k.publicKey.modulus := by
    rw [h.modulus]
    calc standardExponent < 3 * 2 ^ 1534 * (3 * 2 ^ 1534) := by decide +kernel
      _ ≤ k.factor₁ * k.factor₂ := Nat.mul_le_mul h.factor₁.top h.factor₂.top
  unfold PublicKey.defect?
  rw [h.standard, if_neg (by decide), if_neg (by omega)]
  decide

lemma inverse_of_dvd (h : k.Fresh) {m : Nat} (hm : 1 < m)
    (hdvd : m ∣ (k.factor₁ - 1) * (k.factor₂ - 1)) : k.publicKey.exponent * k.exponent % m = 1 := by
  rw [← Nat.mod_mod_of_dvd _ hdvd, h.inverse, Nat.mod_eq_of_lt hm]

theorem consistent (h : k.Fresh) : k.Consistent := by
  have hlarge : 2 < 3 * 2 ^ 1534 := by decide +kernel
  have hp := h.factor₁.top
  have hq := h.factor₂.top
  exact ⟨by omega, by omega, h.modulus.symm, h.inverse_of_dvd (by omega) (Nat.dvd_mul_right _ _),
    h.inverse_of_dvd (by omega) (Nat.dvd_mul_left _ _)⟩

end PrivateKey.Fresh

section Sample

/-- A number of 1536 bits with its two top bits set and two octets at its end. -/
def sampleBlock (high low : UInt8) : Block primeSize :=
  ⟨0xc0 :: (List.replicate 189 0 ++ [high, low]), by
    rw [List.length_cons, List.length_append, List.length_replicate]
    rfl⟩

def sampleTape : Octets :=
  (sampleBlock 0x07 0x2d).octets ++ (sampleBlock 0x0a 0x39).octets

/-- A key is made of the primes that a tape holds, if it can be. -/
lemma drawKey_of_prime? {x y : Block primeSize} {p q : Nat} (hx : prime? x = some p) (hy : prime? y = some q)
    (hkey : (ofFactors? (p, q)).isSome = true) : ∃ k, drawKey (x.octets ++ y.octets) = some (k, []) := by
  have hfirst : drawPrime (x.octets ++ y.octets) = some (p, y.octets) :=
    Draw.retry_of_accepted (Draw.block_eq_some_iff.mpr rfl) hx
  have hsecond : drawPrime y.octets = some (q, []) :=
    Draw.retry_of_accepted (Draw.block_eq_some_iff.mpr (List.append_nil _).symm) hy
  have hfactors : drawFactors (x.octets ++ y.octets) = some ((p, q), []) := by
    unfold drawFactors
    rw [hfirst]
    simp only [bind, Option.bind, hsecond]
  obtain ⟨k, hk⟩ := Option.isSome_iff_exists.mp hkey
  exact ⟨k, Draw.retry_of_accepted hfactors hk⟩

lemma prime?_sampleBlock : prime? (sampleBlock 0x07 0x2d) = some (3 * 2 ^ 1534 + 1837) := by
  decide +kernel

lemma sampleTape_drawn : ∃ k, drawKey sampleTape = some (k, []) :=
  drawKey_of_prime? (q := 3 * 2 ^ 1534 + 2617) prime?_sampleBlock (by decide +kernel) (by decide +kernel)

end Sample

end Rsa

end SealedImage
