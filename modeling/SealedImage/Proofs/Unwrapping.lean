import Mathlib.Algebra.Ring.Parity
import Mathlib.Data.List.TakeWhile
import SealedImage.Proofs.KeySizes

/-!
# What is unwrapped

The private operation of a key in use undoes the public one and is undone by it, so a slot below the modulus is judged
by the padding alone (`decrypt?_eq`). The padding is read up to its first zero (`unpad?_eq_some_iff`), which settles
both whether there is a message and how long it is, zeros in the message or not. So unwrapping accepts exactly the
content keys of 32 octets behind a filler of 349 (`unwrap_accepts_padded`).
-/

namespace SealedImage.Rsa

/-- A sound key with odd factors, a modulus of the right size and a public exponent that is in use. -/
structure PrivateKey.Admissible (k : PrivateKey) : Prop extends k.Sound where
  odd₁ : Odd k.factor₁
  odd₂ : Odd k.factor₂
  size : k.publicKey.size = rsaModulusSize
  two_le_exponent : 2 ≤ k.publicKey.exponent
  exponent_lt : k.publicKey.exponent < 2 ^ 33

/-- The number in a slot is below the modulus, and the private operation makes of it a message behind a filler. -/
structure Carries (k : PrivateKey) (wrapped : Block 384) (filler message : Octets) : Prop where
  lt_modulus : wrapped.toNat < k.publicKey.modulus
  filler_ne_zero : ∀ x ∈ filler, x ≠ 0
  padded : Octets.ofNat 384 (wrapped.toNat ^ k.exponent % k.publicKey.modulus) =
    [0x00, 0x02] ++ filler ++ [0x00] ++ message

section Numbers

variable {k : PrivateKey}

/-- A number that is inverted modulo an even one is odd. -/
lemma PrivateKey.Admissible.odd_exponent (h : k.Admissible) : Odd k.publicKey.exponent := by
  have heven : 2 ∣ k.factor₁ - 1 := h.odd₁.tsub_odd odd_one |>.two_dvd
  have hmod : k.publicKey.exponent * k.exponent ≡ 1 [MOD 2] :=
    h.exponents.of_dvd (heven.trans (Nat.dvd_lcm_left _ _))
  have hodd : Odd (k.publicKey.exponent * k.exponent) := Nat.odd_iff.mpr hmod
  exact (Nat.odd_mul.mp hodd).1

lemma PrivateKey.Admissible.exponent_lt_modulus (h : k.Admissible) : k.publicKey.exponent < k.publicKey.modulus := by
  have hne : k.publicKey.modulus ≠ 0 := by
    rw [h.modulus]
    exact Nat.mul_ne_zero h.prime₁.ne_zero h.prime₂.ne_zero
  calc k.publicKey.exponent < 2 ^ 33 := h.exponent_lt
    _ ≤ 256 ^ (rsaModulusSize - 1) := by decide +kernel
    _ = 256 ^ (Octets.octetLength k.publicKey.modulus - 1) := by rw [← h.size]; rfl
    _ ≤ k.publicKey.modulus := Octets.pow_octetLength_le hne

lemma PrivateKey.Admissible.defect?_eq_none (h : k.Admissible) : k.publicKey.defect? = none := by
  have hexponent := Nat.odd_iff.mp h.odd_exponent
  have hmodulus : k.publicKey.modulus % 2 = 1 := by
    rw [h.modulus]
    exact Nat.odd_iff.mp (h.odd₁.mul h.odd₂)
  have hlt := h.exponent_lt_modulus
  have hrange := h.exponent_lt
  have htwo := h.two_le_exponent
  unfold PublicKey.defect?
  -- the five defects in the order in which they are looked for
  rw [if_neg (by simp only [UInt64.size]; omega), if_neg (by omega), if_neg (by omega), if_neg (by omega),
    if_neg (by omega)]

/-- The public operation undoes the private one. -/
lemma PublicKey.apply_apply (h : k.Sound) {c : Nat} (hc : c < k.publicKey.modulus) :
    k.publicKey.apply (k.apply c) = c := by
  unfold PrivateKey.apply PublicKey.apply
  rw [Number.powMod_eq, Number.powMod_eq, ← Nat.pow_mod, ← Nat.pow_mul, Nat.mul_comm, h.pow_modEq c,
    Nat.mod_eq_of_lt hc]

end Numbers

section Padding

/-- The filler is what comes before the first zero. -/
lemma filler_split {xs message : Octets} {separator : UInt8} (h : xs.dropWhile (· != 0) = separator :: message) :
    (∀ x ∈ xs.takeWhile (· != 0), x ≠ 0) ∧ xs = xs.takeWhile (· != 0) ++ 0x00 :: message := by
  have hzero : separator = 0 := by
    have hhead := List.head?_dropWhile_not (· != 0) xs
    rw [h] at hhead
    simpa using hhead
  constructor
  · intro x hx
    simpa using List.mem_takeWhile_imp hx
  · subst hzero
    rw [← h, List.takeWhile_append_dropWhile]

/-- A message is taken out of a padding exactly if it stands behind a filler of eight octets or more. -/
theorem unpad?_eq_some_iff {xs message : Octets} : unpad? xs = some message ↔
    ∃ filler, (∀ x ∈ filler, x ≠ 0) ∧ 8 ≤ filler.length ∧ xs = [0x00, 0x02] ++ filler ++ [0x00] ++ message := by
  constructor
  · intro h
    unfold unpad? at h
    split at h
    · rename_i rest
      cases hdrop : rest.dropWhile (· != 0) with
      | nil =>
        rw [hdrop] at h
        cases h
      | cons separator tail =>
        rw [hdrop] at h
        obtain ⟨hlength, htail⟩ := Option.ite_none_right_eq_some.mp h
        obtain ⟨hne, hsplit⟩ := filler_split hdrop
        rw [← Option.some.inj htail]
        exact ⟨rest.takeWhile (· != 0), hne, hlength, by simpa using hsplit⟩
    · cases h
  · rintro ⟨filler, hne, hlength, rfl⟩
    have hpad : [0x00, 0x02] ++ filler ++ [0x00] ++ message = pad filler message := by simp [pad]
    rw [hpad]
    exact unpad?_pad hne hlength

end Padding

section Unwrapping

variable {k : PrivateKey} {wrapped : Block 384} {filler message : Octets}

lemma Carries.length (h : Carries k wrapped filler message) : filler.length + message.length = 381 := by
  have hlength := congrArg List.length h.padded
  simp only [Octets.length_ofNat, List.length_append, List.length_cons, List.length_nil] at hlength
  omega

lemma decrypt?_eq (h : k.Admissible) (wrapped : Block 384) : k.decrypt? wrapped.octets =
    if wrapped.toNat < k.publicKey.modulus then
      unpad? (Octets.ofNat 384 (wrapped.toNat ^ k.exponent % k.publicKey.modulus))
    else none := by
  unfold PrivateKey.decrypt?
  by_cases hlt : Octets.toNat wrapped.octets < k.publicKey.modulus
  · dsimp only
    rw [if_pos ⟨h.defect?_eq_none, hlt⟩, if_pos (PublicKey.apply_apply h.toSound hlt), PrivateKey.apply,
      Number.powMod_eq, h.size]
    exact (if_pos hlt).symm
  · rw [if_neg fun hboth => hlt hboth.2]
    exact (if_neg hlt).symm

lemma decrypt?_eq_some_iff (h : k.Admissible) :
    k.decrypt? wrapped.octets = some message ↔ ∃ filler, 8 ≤ filler.length ∧ Carries k wrapped filler message := by
  rw [decrypt?_eq h, Option.ite_none_right_eq_some, unpad?_eq_some_iff]
  constructor
  · rintro ⟨hlt, filler, hne, hlength, hpadded⟩
    exact ⟨filler, hlength, hlt, hne, hpadded⟩
  · rintro ⟨filler, hlength, hlt, hne, hpadded⟩
    exact ⟨hlt, filler, hne, hlength, hpadded⟩

/-- With a key of the right size, a slot is judged by whether the private operation gives a message, and by its
length. -/
lemma unwrap_eq (hsize : k.publicKey.checkSize = .ok ()) (wrapped : Block 384) :
    unwrap k wrapped = (k.decrypt? wrapped.octets).elim (.error (.keyMaterial .unwrapFailed)) fun message =>
      if h : message.length = 32 then .ok ⟨message, h⟩
      else .error (.keyMaterial (.contentKeyLength message.length)) := by
  unfold unwrap
  rw [hsize]
  cases k.decrypt? wrapped.octets with
  | none => rfl
  | some message =>
    simp only [bind, Except.bind, Block.ofOctets?, Option.elim_some]
    split_ifs <;> rfl

lemma unwrap_eq_ok_iff (hsize : k.publicKey.checkSize = .ok ()) {contentKey : Block 32} :
    unwrap k wrapped = .ok contentKey ↔ k.decrypt? wrapped.octets = some contentKey.octets := by
  rw [unwrap_eq hsize]
  cases k.decrypt? wrapped.octets with
  | none => simp
  | some message =>
    rw [Option.elim_some, Option.some.injEq]
    by_cases hlength : message.length = 32
    · rw [dif_pos hlength, Except.ok.injEq, Block.ext_iff]
    · rw [dif_neg hlength]
      simp only [reduceCtorEq, false_iff]
      rintro rfl
      exact hlength contentKey.length_octets

/-- Every message that fills the padding is carried by the slot that it is encrypted to. -/
lemma carries_encrypt (h : k.Admissible) (hne : ∀ x ∈ filler, x ≠ 0) (hlength : filler.length + message.length = 381)
    (hwrapped : wrapped.octets = k.publicKey.encrypt filler message) : Carries k wrapped filler message := by
  have hpad : (pad filler message).length = k.publicKey.size := by
    rw [h.size]
    simp only [pad, List.length_cons, List.length_append, rsaModulusSize]
    omega
  have hn : k.publicKey.modulus ≠ 0 := Nat.ne_zero_of_lt h.exponent_lt_modulus
  refine ⟨?_, hne, ?_⟩
  · rw [Block.toNat, hwrapped, PublicKey.toNat_encrypt hn]
    exact PublicKey.apply_lt_modulus hn _
  · have happly := PrivateKey.apply_encrypt h.toSound hn hpad
    rw [PrivateKey.apply, Number.powMod_eq] at happly
    rw [Block.toNat, hwrapped, happly, show (384 : Nat) = k.publicKey.size from h.size.symm, ← hpad, Octets.ofNat_toNat]
    simp [pad]

/-- A slot carries one message. -/
lemma Carries.message_eq (hk : k.Admissible) {filler' message' : Octets} (h : Carries k wrapped filler message)
    (hlong : 8 ≤ filler.length) (h' : Carries k wrapped filler' message') (hlong' : 8 ≤ filler'.length) :
    message = message' := by
  have hfirst := (decrypt?_eq_some_iff hk).mpr ⟨filler, hlong, h⟩
  rw [(decrypt?_eq_some_iff hk).mpr ⟨filler', hlong', h'⟩] at hfirst
  exact (Option.some.inj hfirst).symm

end Unwrapping

/-- Unwrapping accepts exactly the padded content keys. A slot is unwrapped to a content key if and only if its number
is below the modulus and the private operation makes of it that key behind a filler of 349 octets without a zero. Every
other slot is a fault of the key: it carries a message of another length behind a filler that is long enough, and this
length is told, or it carries none. -/
theorem unwrap_accepts_padded {k : PrivateKey} (hk : k.Admissible) (wrapped : Block 384) :
    (∀ contentKey : Block 32, unwrap k wrapped = .ok contentKey ↔
      ∃ filler : Block 349, Carries k wrapped filler.octets contentKey.octets) ∧
    ∀ e, unwrap k wrapped = .error e →
      (e = .keyMaterial .unwrapFailed ∧ ¬∃ filler message, 8 ≤ filler.length ∧ Carries k wrapped filler message) ∨
        ∃ filler message, 8 ≤ filler.length ∧ message.length ≠ 32 ∧ Carries k wrapped filler message ∧
          e = .keyMaterial (.contentKeyLength message.length) := by
  have hsize : k.publicKey.checkSize = .ok () := PublicKey.checkSize_eq_ok_iff.mpr hk.size
  constructor
  · intro contentKey
    rw [unwrap_eq_ok_iff hsize, decrypt?_eq_some_iff hk]
    constructor
    · rintro ⟨filler, -, hcarries⟩
      have hlength := hcarries.length
      rw [contentKey.length_octets] at hlength
      exact ⟨⟨filler, by omega⟩, hcarries⟩
    · rintro ⟨filler, hcarries⟩
      exact ⟨filler.octets, by rw [filler.length_octets]; decide, hcarries⟩
  · intro e he
    rcases decrypt?_of_unwrap_error (PublicKey.fits_iff_size.mpr hk.size) he with ⟨hnone, rfl⟩ |
      ⟨message, hmessage, hlength, rfl⟩
    · refine Or.inl ⟨rfl, ?_⟩
      rintro ⟨filler, message, hlong, hcarries⟩
      rw [(decrypt?_eq_some_iff hk).mpr ⟨filler, hlong, hcarries⟩] at hnone
      cases hnone
    · obtain ⟨filler, hlong, hcarries⟩ := (decrypt?_eq_some_iff hk).mp hmessage
      exact Or.inr ⟨filler, message, hlong, hlength, hcarries, rfl⟩

lemma sampleKey_admissible : sampleKey.Admissible where
  toSound := sampleKey_sound
  odd₁ := Nat.odd_iff.mpr (by decide +kernel)
  odd₂ := Nat.odd_iff.mpr (by decide +kernel)
  size := by decide +kernel
  two_le_exponent := by decide
  exponent_lt := by decide

/-- The filler for a message of a given length. -/
def sampleFiller (length : Nat) : Octets :=
  List.replicate (381 - length) 7

def sampleSlot (message : Octets) : Block 384 where
  octets := sampleKey.publicKey.encrypt (sampleFiller message.length) message
  length_octets := PublicKey.length_encrypt (PublicKey.checkSize_eq_ok_iff.mpr sampleKey_admissible.size) _ _

lemma sampleSlot_carries {message : Octets} (h : message.length ≤ 381) :
    Carries sampleKey (sampleSlot message) (sampleFiller message.length) message := by
  apply carries_encrypt sampleKey_admissible
  · intro x hx
    rw [List.eq_of_mem_replicate hx]
    decide
  · rw [sampleFiller, List.length_replicate]
    omega
  · rw [sampleSlot]

/-- A content key of zeros is unwrapped. A message of 33 octets is not, and neither is a number above the modulus. -/
theorem unwrap_accepts_padded_sample :
    unwrap sampleKey (sampleSlot (List.replicate 32 0)) = .ok (Block.replicate 32 0) ∧
    unwrap sampleKey (sampleSlot (List.replicate 33 0)) = .error (.keyMaterial (.contentKeyLength 33)) ∧
    unwrap sampleKey (Block.replicate 384 255) = .error (.keyMaterial .unwrapFailed) := by
  refine ⟨?_, ?_, ?_⟩
  · obtain ⟨hok, -⟩ := unwrap_accepts_padded sampleKey_admissible (sampleSlot (List.replicate 32 0))
    exact (hok _).mpr ⟨Block.replicate 349 7, sampleSlot_carries (by simp)⟩
  · obtain ⟨hok, herror⟩ := unwrap_accepts_padded sampleKey_admissible (sampleSlot (List.replicate 33 0))
    have hlonger := @sampleSlot_carries (List.replicate 33 0) (by simp)
    have hfiller : 8 ≤ (sampleFiller (List.replicate 33 0).length).length := by decide +kernel
    have honly {filler message : Octets} (hlong : 8 ≤ filler.length)
        (h : Carries sampleKey (sampleSlot (List.replicate 33 0)) filler message) : message.length = 33 := by
      rw [h.message_eq sampleKey_admissible hlong hlonger hfiller, List.length_replicate]
    cases hresult : unwrap sampleKey (sampleSlot (List.replicate 33 0)) with
    | ok contentKey =>
      obtain ⟨filler, hcarries⟩ := (hok contentKey).mp hresult
      have hlength := honly (by simp) hcarries
      rw [contentKey.length_octets] at hlength
      cases hlength
    | error e =>
      rcases herror e hresult with ⟨-, hnone⟩ | ⟨filler, message, hlong, -, hcarries, rfl⟩
      · exact absurd ⟨_, _, hfiller, hlonger⟩ hnone
      · rw [honly hlong hcarries]
  · obtain ⟨hok, herror⟩ := unwrap_accepts_padded sampleKey_admissible (Block.replicate 384 255)
    have hlarge : ¬(Block.replicate 384 255).toNat < sampleKey.publicKey.modulus := by decide +kernel
    cases hresult : unwrap sampleKey (Block.replicate 384 255) with
    | ok contentKey =>
      obtain ⟨filler, hcarries⟩ := (hok contentKey).mp hresult
      exact absurd hcarries.lt_modulus hlarge
    | error e =>
      rcases herror e hresult with ⟨rfl, -⟩ | ⟨filler, message, -, -, hcarries, -⟩
      · rfl
      · exact absurd hcarries.lt_modulus hlarge

end SealedImage.Rsa
