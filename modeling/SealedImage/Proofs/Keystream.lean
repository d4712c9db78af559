import Mathlib.Data.FinEnum
import Mathlib.Data.List.Iterate
import Mathlib.Tactic.Common
import SealedImage.Proofs.Tampering

/-!
# No counter comes back

In counter mode a text is added to the images of consecutive counters (`Gcm.crypt_eq`). Only the last 32 bits
count, and they wrap, so a counter comes back after `UInt32.size` steps and no sooner
(`Gcm.nodup_iterate_next_iff`). Every block is the start counter of some initialization vector
(`Gcm.startCounter_bijective`), but a payload whose length fits the field for it takes fewer steps than that
(`Aes.counters_never_return`).
-/

namespace SealedImage

namespace Gcm

/-- The counters that the blocks of a text of `length` octets meet, in order. -/
def counters (f : BlockFunction) (iv : Block 16) (length : Nat) : List (BitVec 128) :=
  List.iterate next (next (startCounter f iv)) ((length + 15) / 16)

/-- What is added to a text of `length` octets, a block for each counter. -/
def keystream (f : BlockFunction) (iv : Block 16) (length : Nat) : List Octets :=
  (counters f iv length).map fun c => ofBlock (f c)

section Counting

variable (c : BitVec 128)

lemma toNat_next :
    (next c).toNat = c.toNat / UInt32.size * UInt32.size + (c.toNat + 1) % UInt32.size := by
  have hc := c.isLt
  unfold next
  rw [BitVec.toNat_ofNat, Nat.mod_eq_of_lt]
  simp only [UInt32.size]
  omega

/-- The last 32 bits count on and wrap, and the others stay. -/
lemma toNat_iterate_next (i : Nat) :
    (next^[i] c).toNat = c.toNat / UInt32.size * UInt32.size + (c.toNat + i) % UInt32.size := by
  induction i with
  | zero =>
    rw [Function.iterate_zero_apply, Nat.add_zero]
    exact (Nat.div_add_mod' _ _).symm
  | succ i ih =>
    rw [Function.iterate_succ_apply', toNat_next, ih]
    simp only [UInt32.size]
    omega

lemma iterate_next_eq_iff {i j : Nat} : next^[i] c = next^[j] c ↔ i % UInt32.size = j % UInt32.size := by
  rw [← BitVec.toNat_inj, toNat_iterate_next, toNat_iterate_next]
  simp only [UInt32.size]
  omega

/-- The period of the counter is `UInt32.size`, wherever it starts. -/
theorem nodup_iterate_next_iff (count : Nat) : (List.iterate next c count).Nodup ↔ count ≤ UInt32.size := by
  rw [← List.range_map_iterate, List.nodup_map_iff_inj_on List.nodup_range]
  constructor
  · intro h
    by_contra hlt
    have hsize : UInt32.size ∈ List.range count := List.mem_range.mpr (by omega)
    have hzero : 0 ∈ List.range count := List.mem_range.mpr (by omega)
    have heq : UInt32.size = 0 := h _ hsize _ hzero ((iterate_next_eq_iff c).mpr (by decide))
    exact absurd heq (by decide)
  · intro hle i hi j hj heq
    rw [List.mem_range] at hi hj
    rw [iterate_next_eq_iff, Nat.mod_eq_of_lt (by omega), Nat.mod_eq_of_lt (by omega)] at heq
    exact heq

end Counting

section Keystream

variable (f : BlockFunction)

/-- The start counter is met again by the first text of this length, and by no shorter one. -/
lemma nodup_counters_iff (iv : Block 16) (length : Nat) :
    (startCounter f iv :: counters f iv length).Nodup ↔ length ≤ 16 * (UInt32.size - 1) := by
  have hcount : startCounter f iv :: counters f iv length =
      List.iterate next (startCounter f iv) ((length + 15) / 16 + 1) := rfl
  rw [hcount, nodup_iterate_next_iff]
  simp only [UInt32.size]
  omega

/-- The first octets of a string meet a block that comes first, and the others what comes behind it. -/
lemma zipWith_xor_append (xs block rest : Octets) :
    List.zipWith (· ^^^ ·) xs (block ++ rest) =
      List.zipWith (· ^^^ ·) (xs.take block.length) block ++
        List.zipWith (· ^^^ ·) (xs.drop block.length) rest := by
  induction block generalizing xs with
  | nil => simp
  | cons b block ih =>
    cases xs with
    | nil => simp
    | cons x xs => simp [ih]

lemma cryptFrom_eq (count : Nat) (c : BitVec 128) (xs : Octets) :
    cryptFrom f count c xs =
      List.zipWith (· ^^^ ·) xs ((List.iterate next c count).map fun c => ofBlock (f c)).flatten := by
  induction count generalizing c xs with
  | zero => simp [cryptFrom]
  | succ count ih =>
    rw [cryptFrom, ih, List.iterate, List.map_cons, List.flatten_cons, zipWith_xor_append, length_ofBlock]

/-- Counter mode adds the keystream. -/
theorem crypt_eq (iv : Block 16) (text : Octets) :
    crypt f iv text = List.zipWith (· ^^^ ·) text (keystream f iv text.length).flatten :=
  cryptFrom_eq f _ _ _

variable {f}

/-- A block function that loses nothing has different images of different counters. -/
lemma nodup_keystream (hf : Function.Injective f) {iv : Block 16} {length : Nat}
    (h : (startCounter f iv :: counters f iv length).Nodup) :
    (ofBlock (f (startCounter f iv)) :: keystream f iv length).Nodup := by
  have himage : Function.Injective fun c => ofBlock (f c) := fun c c' heq => hf (ofBlock_injective heq)
  exact h.map himage

end Keystream

section Start

lemma toBlock_surjective (b : BitVec 128) : ∃ iv : Block 16, toBlock iv.octets = b := by
  refine ⟨⟨ofBlock b, length_ofBlock b⟩, ?_⟩
  have hnat : Octets.toNat (ofBlock b) = b.toNat := Octets.toNat_ofNat_of_lt b.isLt
  unfold toBlock
  rw [length_ofBlock, Nat.sub_self, List.replicate_zero, List.append_nil, hnat, BitVec.ofNat_toNat,
    BitVec.setWidth_eq]

lemma mul_right_surjective {h : BitVec 128} (hne : h ≠ 0) : Function.Surjective fun a => mul a h :=
  Finite.injective_iff_surjective.mp fun _ _ heq => mul_right_injective hne heq

lemma startCounter_eq (f : BlockFunction) (iv : Block 16) :
    startCounter f iv = mul (mul (toBlock iv.octets) (f 0) ^^^ lengthBlock 16) (f 0) := by
  have hzero : 0 ^^^ toBlock iv.octets = toBlock iv.octets := BitVec.zero_xor
  unfold startCounter hash
  rw [List.foldl_cons, List.foldl_cons, List.foldl_nil, hzero]

/-- Every block is the start counter of one initialization vector. -/
theorem startCounter_bijective {f : BlockFunction} (hne : f 0 ≠ 0) : Function.Bijective (startCounter f) := by
  constructor
  · intro iv iv' heq
    by_contra hiv
    exact startCounter_ne hne hiv heq
  · intro b
    obtain ⟨y, hy⟩ := mul_right_surjective hne b
    obtain ⟨x, hx⟩ := mul_right_surjective hne (y ^^^ lengthBlock 16)
    obtain ⟨iv, hiv⟩ := toBlock_surjective x
    refine ⟨iv, ?_⟩
    dsimp only at hx hy
    rw [startCounter_eq, hiv, hx, BitVec.xor_assoc, BitVec.xor_self, BitVec.xor_zero, hy]

end Start

/-- A sealed text under counters none of which comes back. -/
structure SealsFresh (f : BlockFunction) (iv : Block 16) (text ciphertext : Octets) (t : Block 16) : Prop where
  /-- The text is added to the images of the counters, and to nothing else. -/
  ciphertext_eq : ciphertext = List.zipWith (· ^^^ ·) text (keystream f iv text.length).flatten
  /-- The image of the start counter masks the tag. -/
  tag_eq : t.octets = ofBlock (f (startCounter f iv) ^^^
    hash (f 0) ((Octets.pieces 16 ciphertext).map toBlock ++ [lengthBlock ciphertext.length]))
  /-- There is a counter for each block; its last 32 bits count on from the start counter and wrap. -/
  counter_eq : ∀ i < (text.length + 15) / 16, ∃ c, (counters f iv text.length)[i]? = some c ∧
    c.toNat = (startCounter f iv).toNat / UInt32.size * UInt32.size +
      ((startCounter f iv).toNat + (i + 1)) % UInt32.size
  counters_nodup : (startCounter f iv :: counters f iv text.length).Nodup
  keystream_nodup : (ofBlock (f (startCounter f iv)) :: keystream f iv text.length).Nodup

lemma getElem?_counters (f : BlockFunction) (iv : Block 16) {length i : Nat} (h : i < (length + 15) / 16) :
    (counters f iv length)[i]? = some (next^[i + 1] (startCounter f iv)) := by
  unfold counters
  rw [List.getElem?_iterate _ _ _ _ h, Function.iterate_succ_apply]

/-- A text that fits a container is sealed under counters that do not come back. -/
theorem sealsFresh_of_encrypt {f : BlockFunction} (hf : Function.Injective f) {iv t : Block 16}
    {text ciphertext : Octets} (h : encrypt f iv text = some (ciphertext, t))
    (hfits : text.length < UInt32.size) : SealsFresh f iv text ciphertext t := by
  have hlimit : text.length ≤ plaintextLimit := hfits.le.trans (by decide)
  rw [encrypt_of_le f iv hlimit] at h
  obtain ⟨rfl, rfl⟩ := Prod.mk.inj (Option.some.inj h)
  have hnodup : (startCounter f iv :: counters f iv text.length).Nodup := by
    rw [nodup_counters_iff]
    simp only [UInt32.size] at hfits ⊢
    omega
  refine ⟨crypt_eq f iv text, rfl, fun i hi => ?_, hnodup, nodup_keystream hf hnodup⟩
  exact ⟨_, getElem?_counters f iv hi, toNat_iterate_next _ _⟩

end Gcm

section Sealing

variable {σ : Type} {payload : Octets} {key : Option KeyMaterial} {options : SealOptions} {s t : Session σ}

lemma length_lt_of_payloadLengthField {n : Nat} {field : UInt32} (h : payloadLengthField n = .ok field) :
    n < UInt32.size := by
  by_contra hlong
  rw [payloadLengthField_of_le (Nat.le_of_not_lt hlong)] at h
  cases h

/-- Only the content key can fail, for a payload that fits. -/
lemma outcome_sealPayload_eq_error_iff (hfits : payload.length < UInt32.size) {e : Failure} :
    (sealPayload payload key options).outcome s = some (.error e, t) ↔
      (establish key options).outcome s = some (.error e, t) := by
  constructor
  · intro h
    obtain ⟨trace, hseals, hpasses⟩ := (sealPayload_behaves payload key options s _ t).mp h
    cases hseals with
    | tooLong hlong => exact absurd hfits (Nat.not_lt.mpr hlong)
    | refused hfits prepares =>
      cases prepares with
      | refused hest => exact (establish_behaves key options s _ t).mpr ⟨_, ⟨_, hest, rfl⟩, hpasses⟩
  · intro h
    rw [sealPayload_of_lt hfits]
    exact Action.outcome_bind_of_error _ (prepare_of_establish h)

lemma sealsFresh_of_sealPayload {container : Container} {scheme : Scheme} {device : Option DeviceKey}
    (h : (sealPayload payload key options).outcome s = some (.ok (container, scheme, device), t)) :
    ∃ contentKey, Gcm.SealsFresh (Aes.blockFunction contentKey) container.header.iv payload
      container.ciphertext container.header.authTag := by
  obtain ⟨trace, hseals, -⟩ := (sealPayload_behaves payload key options s _ t).mp h
  cases hseals with
  | sealed hfits prepares hsealed =>
    exact ⟨_, Gcm.sealsFresh_of_encrypt (Aes.blockFunction_injective _) hsealed hfits⟩

end Sealing

/-- A payload whose length fits the field for it is sealed under every content key and initialization vector: the
counters of its blocks and the start counter, which masks the tag, are pairwise different, and so are their
images, although the start counter may be any block and the counters may wrap. So an image of the payload never
fails for the limit of the cipher, and no block of keystream repeats in it. -/
theorem Aes.counters_never_return {payload : Octets} {field : UInt32}
    (haccepted : payloadLengthField payload.length = .ok field) :
    (∀ key iv, ∃ tag ciphertext, (sealInPlace key iv).outcome payload = (.ok tag, ciphertext) ∧
      Gcm.SealsFresh (blockFunction key) iv payload ciphertext tag) ∧
    (∀ key, blockFunction key 0 ≠ 0 → Function.Bijective (Gcm.startCounter (blockFunction key))) ∧
    ∀ (σ : Type) (key : Option KeyMaterial) (options : SealOptions) (s t : Session σ),
      (∀ e, (sealPayload payload key options).outcome s = some (.error e, t) ↔
        (establish key options).outcome s = some (.error e, t)) ∧
      ∀ container scheme device,
        (sealPayload payload key options).outcome s = some (.ok (container, scheme, device), t) →
          ∃ contentKey, Gcm.SealsFresh (blockFunction contentKey) container.header.iv payload
            container.ciphertext container.header.authTag := by
  have hfits := length_lt_of_payloadLengthField haccepted
  refine ⟨fun key iv => ?_, fun key hne => Gcm.startCounter_bijective hne, fun σ key options s t => ?_⟩
  · obtain ⟨ciphertext, tag, hsealed⟩ := Aes.encrypt_of_lt hfits key iv
    refine ⟨tag, ciphertext, Gcm.outcome_sealInPlace_eq_ok_iff.mpr hsealed, ?_⟩
    exact Gcm.sealsFresh_of_encrypt (blockFunction_injective key) hsealed hfits
  · exact ⟨fun e => outcome_sealPayload_eq_error_iff hfits, fun container scheme device =>
      sealsFresh_of_sealPayload⟩

/-- The start counter of this vector, under the key of sevens, is two steps before its last 32 bits wrap. -/
def wrappingIv : Block 16 :=
  ⟨[0x59, 0x5a, 0xe1, 0xc5, 0x45, 0x94, 0xc7, 0x5c, 0x53, 0xf2, 0x33, 0x65, 0xb6, 0x00, 0xa4, 0x04], rfl⟩

theorem Aes.counters_never_return_wrapping :
    let f := blockFunction (Block.replicate 32 7)
    Gcm.startCounter f wrappingIv = 0x000102030405060708090a0bfffffffe#128 ∧
    Gcm.counters f wrappingIv samplePayload.length =
      [0x000102030405060708090a0bffffffff#128, 0x000102030405060708090a0b00000000#128] ∧
    (∃ tag ciphertext,
      (sealInPlace (Block.replicate 32 7) wrappingIv).outcome samplePayload = (.ok tag, ciphertext) ∧
        Gcm.SealsFresh f wrappingIv samplePayload ciphertext tag) ∧
    Function.Bijective (Gcm.startCounter f) ∧
    ∃ container scheme device u contentKey,
      (sealPayload samplePayload (some (.rsaPublic sampleKey.publicKey)) .standard : Action Unit _).outcome
        ⟨List.replicate 397 7, [], ()⟩ = some (.ok (container, scheme, device), u) ∧
      Gcm.SealsFresh (blockFunction contentKey) container.header.iv samplePayload container.ciphertext
        container.header.authTag := by
  intro f
  have haccepted : payloadLengthField samplePayload.length = .ok 17 := by decide +kernel
  have hstart : Gcm.startCounter f wrappingIv = 0x000102030405060708090a0bfffffffe#128 := by decide +kernel
  have hcounters : Gcm.counters f wrappingIv samplePayload.length =
      [0x000102030405060708090a0bffffffff#128, 0x000102030405060708090a0b00000000#128] := by
    rw [Gcm.counters, hstart]
    decide +kernel
  obtain ⟨hseals, hbijective, himage⟩ := counters_never_return haccepted
  refine ⟨hstart, hcounters, hseals _ wrappingIv, hbijective _ sampleSubkey_ne, ?_⟩
  obtain ⟨draws, container, scheme, device, rest, hsealed, htape, -⟩ := sampleImage_sealed
  have hrun := (sealPayload_behaves _ _ _ ⟨List.replicate 397 7, [], ()⟩ _ ⟨rest, draws.events, ()⟩).mpr
    ⟨draws, hsealed, htape, rfl, rfl⟩
  obtain ⟨contentKey, hfresh⟩ := (himage Unit _ _ _ _).2 container scheme device hrun
  exact ⟨container, scheme, device, _, contentKey, hrun, hfresh⟩

end SealedImage
