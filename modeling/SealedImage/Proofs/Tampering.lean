import Mathlib.Tactic.Common
import SealedImage.Proofs.RoundTrip
import SealedImage.Proofs.Tags

/-!
# Changes to an image are noticed

An image that a key opens is changed in one place. In the tag, the initialization vector or one block of the
ciphertext, the change breaks the tag; in the length of the ciphertext or the count of octets, it breaks the
structure; in the magic number, it is no image any more. What `decrypt` refuses it for is told for each.
-/

namespace SealedImage

/-- The octets in an image that hold a block of the ciphertext; the last block may be shorter. -/
def Layout.ciphertextBlock (i : Nat) : Span := ⟨headerSize + 16 * i, 16⟩

/-- A key is refused a string of octets for a failure, and the sink is left alone. -/
def Rejects (octets : Octets) (key : KeyMaterial) (failure : Failure) : Prop :=
  ∀ (source : Source) (s : Session Sink), source.readAll = .ok octets →
    ∃ t, (decrypt source key).outcome s = some (.error failure, t) ∧ t.store = s.store

lemma rejects_of_openOctets {octets : Octets} {key : KeyMaterial} {failure : Failure}
    (h : openOctets octets key = .error failure) : Rejects octets key failure :=
  fun _ s hread => decrypt_outcome_of_refused hread h s

/-- What is no image is refused whatever the key is. -/
lemma rejects_of_ofOctets {octets : Octets} {failure : Failure} (key : KeyMaterial)
    (h : Container.ofOctets octets = .error failure) : Rejects octets key failure := by
  apply rejects_of_openOctets
  unfold openOctets
  rw [h]
  rfl

namespace Container

/-- A container stands in a string of octets, field by field. -/
structure StandsIn (xs : Octets) (container : Container) : Prop where
  long : Layout.headerSize ≤ xs.length
  magic : Octets.toWordLE (xs.slice Layout.magic) = magicNumber
  keySlot : container.header.keySlot.octets = xs.slice Layout.keySlot
  iv : container.header.iv.octets = xs.slice Layout.iv
  ciphertextLength : container.header.ciphertextLength = Octets.toWordLE (xs.slice Layout.ciphertextLength)
  authTag : container.header.authTag.octets = xs.slice Layout.authTag
  ciphertext : container.ciphertext = xs.drop Layout.headerSize
  told : container.header.ciphertextLength.toNat = xs.length - Layout.headerSize

variable {xs ys : Octets} {container : Container} {span : Span}

lemma StandsIn.of_ofOctets (h : ofOctets xs = .ok container) : StandsIn xs container := by
  obtain ⟨header, hparse, htold, rfl⟩ := ofOctets_eq_ok_iff.mp h
  obtain ⟨hlong, hmagic, rfl⟩ := Header.parse_eq_ok_iff.mp hparse
  exact ⟨hlong, hmagic, rfl, rfl, rfl, rfl, rfl, htold⟩

/-- A string with the magic number and the length that it tells is an image. -/
lemma exists_of_told (hlong : Layout.headerSize ≤ xs.length)
    (hmagic : Octets.toWordLE (xs.slice Layout.magic) = magicNumber)
    (htold : (Octets.toWordLE (xs.slice Layout.ciphertextLength)).toNat = xs.length - Layout.headerSize) :
    ∃ container, ofOctets xs = .ok container :=
  ⟨_, ofOctets_eq_ok_iff.mpr ⟨_, Header.parse_eq_ok_iff.mpr ⟨hlong, hmagic, rfl⟩, htold, rfl⟩⟩

/-- A string with the magic number that tells another length than it has. -/
lemma ofOctets_of_not_told (hlong : Layout.headerSize ≤ xs.length)
    (hmagic : Octets.toWordLE (xs.slice Layout.magic) = magicNumber)
    (hne : (Octets.toWordLE (xs.slice Layout.ciphertextLength)).toNat ≠ xs.length - Layout.headerSize) :
    ofOctets xs = .error (.header (.lengthMismatch
      (Octets.toWordLE (xs.slice Layout.ciphertextLength)).toNat (xs.length - Layout.headerSize))) :=
  ofOctets_of_length (Header.parse_eq_ok_iff.mpr ⟨hlong, hmagic, rfl⟩) hne

/-- What stands apart from a change is as it was. -/
lemma StandsIn.fields_eq {changed : Container} (hold : StandsIn xs container) (hnew : StandsIn ys changed)
    (hd : DiffersWithin span xs ys) :
    (Layout.keySlot.Apart span → changed.header.keySlot = container.header.keySlot) ∧
    (Layout.iv.Apart span → changed.header.iv = container.header.iv) ∧
    (Layout.authTag.Apart span → changed.header.authTag = container.header.authTag) ∧
    (span.stop ≤ Layout.headerSize → changed.ciphertext = container.ciphertext) := by
  refine ⟨fun h => ?_, fun h => ?_, fun h => ?_, fun h => ?_⟩
  · apply Block.ext
    rw [hnew.keySlot, hd.slice_eq h, hold.keySlot]
  · apply Block.ext
    rw [hnew.iv, hd.slice_eq h, hold.iv]
  · apply Block.ext
    rw [hnew.authTag, hd.slice_eq h, hold.authTag]
  · rw [hnew.ciphertext, hd.drop_eq h, hold.ciphertext]

end Container

lemma recoverContentKey_congr {header changed : Header} (key : KeyMaterial)
    (h : changed.keySlot = header.keySlot) : recoverContentKey changed key = recoverContentKey header key := by
  unfold recoverContentKey Header.keyBlob
  rw [h]

section Fields

variable {image other : Octets} {key : KeyMaterial} {container : Container} {contentKey : Block 32}
  {span : Span}

/-- An image whose tag is not the tag of its ciphertext. -/
lemma rejects_of_tag_ne (hc : Container.ofOctets image = .ok container)
    (hk : recoverContentKey container.header key = .ok contentKey)
    (hne : Gcm.tag (Aes.blockFunction contentKey) container.header.iv container.ciphertext ≠
      container.header.authTag) : Rejects image key .authentication := by
  apply rejects_of_openOctets
  rw [openOctets_of_container key hc, openContainer_of_contentKey hk, if_neg fun h => hne h.2]

lemma rejects_of_magic (hold : container.StandsIn image) (hd : DiffersWithin Layout.magic image other) :
    Octets.toWordLE (other.slice Layout.magic) ≠ magicNumber ∧
      Rejects other key (.invalidMagic (Octets.toWordLE (other.slice Layout.magic))) := by
  have hlong : Layout.headerSize ≤ other.length := hd.length ▸ hold.long
  have hsize : Layout.magic.stop ≤ Layout.headerSize := by decide
  have hne : Octets.toWordLE (other.slice Layout.magic) ≠ magicNumber := by
    intro heq
    refine hd.slice_ne (Octets.toWordLE_injective ?_ ?_ (heq.trans hold.magic.symm))
    · exact Octets.length_slice (hsize.trans hlong)
    · exact Octets.length_slice (hsize.trans hold.long)
  refine ⟨hne, rejects_of_ofOctets key ?_⟩
  unfold Container.ofOctets
  rw [Header.parse_of_magic (hsize.trans hlong) hne]
  rfl

lemma rejects_of_ciphertextLength (hold : container.StandsIn image)
    (hd : DiffersWithin Layout.ciphertextLength image other) :
    Rejects other key (.header (.lengthMismatch
      (Octets.toWordLE (other.slice Layout.ciphertextLength)).toNat (other.length - Layout.headerSize))) := by
  have hlong : Layout.headerSize ≤ other.length := hd.length ▸ hold.long
  have hsize : Layout.ciphertextLength.stop ≤ Layout.headerSize := by decide
  refine rejects_of_ofOctets key (Container.ofOctets_of_not_told hlong ?_ fun heq => ?_)
  · rw [hd.slice_eq (by decide)]
    exact hold.magic
  · have hword : Octets.toWordLE (other.slice Layout.ciphertextLength) =
        Octets.toWordLE (image.slice Layout.ciphertextLength) := by
      apply UInt32.toNat.inj
      rw [heq, hd.length, ← hold.told, hold.ciphertextLength]
    refine hd.slice_ne (Octets.toWordLE_injective ?_ ?_ hword)
    · exact Octets.length_slice (hsize.trans hlong)
    · exact Octets.length_slice (hsize.trans hold.long)

/-- Octets that are added or missing behind the header. -/
lemma rejects_of_length (hold : container.StandsIn image)
    (htake : other.take Layout.headerSize = image.take Layout.headerSize)
    (hlong : Layout.headerSize ≤ other.length) (hne : other.length ≠ image.length) :
    Rejects other key (.header (.lengthMismatch
      (Octets.toWordLE (other.slice Layout.ciphertextLength)).toNat (other.length - Layout.headerSize))) := by
  have hslice : ∀ field : Span, field.stop ≤ Layout.headerSize → other.slice field = image.slice field :=
    fun field hfield => Octets.slice_congr htake hfield
  refine rejects_of_ofOctets key (Container.ofOctets_of_not_told hlong ?_ fun heq => hne ?_)
  · rw [hslice _ (by decide)]
    exact hold.magic
  · rw [hslice _ (by decide), ← hold.ciphertextLength, hold.told] at heq
    have hlong' := hold.long
    omega

/-- A change apart from the magic number, the slot and the length: the image that it gives has the same
content key. -/
lemma exists_changed (hold : container.StandsIn image)
    (hk : recoverContentKey container.header key = .ok contentKey) (hd : DiffersWithin span image other)
    (hmagic : Layout.magic.Apart span) (hslot : Layout.keySlot.Apart span)
    (hlength : Layout.ciphertextLength.Apart span) :
    ∃ changed, Container.ofOctets other = .ok changed ∧ changed.StandsIn other ∧
      recoverContentKey changed.header key = .ok contentKey := by
  obtain ⟨changed, hchanged⟩ : ∃ changed, Container.ofOctets other = .ok changed := by
    apply Container.exists_of_told
    · rw [hd.length]
      exact hold.long
    · rw [hd.slice_eq hmagic]
      exact hold.magic
    · rw [hd.slice_eq hlength, hd.length, ← hold.ciphertextLength]
      exact hold.told
  have hnew := Container.StandsIn.of_ofOctets hchanged
  obtain ⟨hkeep, -⟩ := hold.fields_eq hnew hd
  exact ⟨changed, hchanged, hnew, (recoverContentKey_congr key (hkeep hslot)).trans hk⟩

variable (hold : container.StandsIn image)
  (hk : recoverContentKey container.header key = .ok contentKey)
  (htag : Gcm.tag (Aes.blockFunction contentKey) container.header.iv container.ciphertext =
    container.header.authTag)
include hold hk htag

lemma rejects_of_authTag (hd : DiffersWithin Layout.authTag image other) :
    Rejects other key .authentication := by
  obtain ⟨changed, hchanged, hnew, hkey⟩ := exists_changed hold hk hd (by decide) (by decide) (by decide)
  obtain ⟨-, hiv, -, hciphertext⟩ := hold.fields_eq hnew hd
  refine rejects_of_tag_ne hchanged hkey fun heq => hd.slice_ne ?_
  rw [← hnew.authTag, ← hold.authTag, ← heq, hiv (by decide), hciphertext (by decide), htag]

/-- A change of the initialization vector: the tag has another mask. -/
lemma rejects_of_iv (hsubkey : Aes.blockFunction contentKey 0 ≠ 0)
    (hd : DiffersWithin Layout.iv image other) : Rejects other key .authentication := by
  obtain ⟨changed, hchanged, hnew, hkey⟩ := exists_changed hold hk hd (by decide) (by decide) (by decide)
  obtain ⟨-, -, hsame, hciphertext⟩ := hold.fields_eq hnew hd
  have hiv : changed.header.iv ≠ container.header.iv := by
    intro heq
    refine hd.slice_ne ?_
    rw [← hnew.iv, ← hold.iv, heq]
  refine rejects_of_tag_ne hchanged hkey ?_
  rw [hciphertext (by decide), hsame (by decide), ← htag]
  exact Gcm.tag_ne_of_iv (Aes.blockFunction_injective contentKey) hsubkey hiv

/-- A change of one block of the ciphertext: the tag is that of another text. -/
lemma rejects_of_ciphertext (hsubkey : Aes.blockFunction contentKey 0 ≠ 0) {i : Nat}
    (hd : DiffersWithin (Layout.ciphertextBlock i) image other) : Rejects other key .authentication := by
  have hapart : ∀ field : Span, field.stop ≤ Layout.headerSize → field.Apart (Layout.ciphertextBlock i) :=
    fun field hfield => Or.inl (Nat.le_trans hfield (Nat.le_add_right _ _))
  obtain ⟨changed, hchanged, hnew, hkey⟩ := exists_changed hold hk hd (hapart _ (by decide))
    (hapart _ (by decide)) (hapart _ (by decide))
  obtain ⟨-, hiv, hsame, -⟩ := hold.fields_eq hnew hd
  have hciphertext : DiffersWithin ⟨16 * i, 16⟩ container.ciphertext changed.ciphertext := by
    rw [hnew.ciphertext, hold.ciphertext]
    exact hd.drop
  refine rejects_of_tag_ne hchanged hkey ?_
  rw [hiv (hapart _ (by decide)), hsame (hapart _ (by decide)), ← htag]
  exact (Gcm.tag_ne_of_ciphertext hsubkey hciphertext).symm

end Fields

lemma sampleSubkey_ne : Aes.blockFunction (Block.replicate 32 7) 0 ≠ 0 := by
  decide +kernel

/-- A key that opens an image notices every change to one place of it. A change of the tag, of the
initialization vector or of one block of the ciphertext, a flipped bit of them in particular, fails to
authenticate; a change of the length field, or of the count of octets behind the header, is a fault of the
header; a change of the magic number is told with what stands there. The sink is left alone each time. -/
theorem decrypt_detects_tampering {source : Source} {key : KeyMaterial} {image : Octets}
    {summary : OpenSummary} {s t : Session Sink} (hread : source.readAll = .ok image)
    (hopen : (decrypt source key).outcome s = some (.ok summary, t))
    (hsubkey : ∀ container contentKey, Container.ofOctets image = .ok container →
      recoverContentKey container.header key = .ok contentKey → Aes.blockFunction contentKey 0 ≠ 0) :
    (∀ other, DiffersWithin Layout.authTag image other → Rejects other key .authentication) ∧
    (∀ other, DiffersWithin Layout.iv image other → Rejects other key .authentication) ∧
    (∀ other i, DiffersWithin (Layout.ciphertextBlock i) image other →
      Rejects other key .authentication) ∧
    (∀ i bit, i < image.length →
      (Layout.iv.offset ≤ i ∧ i < Layout.iv.stop ∨ Layout.authTag.offset ≤ i ∧ i < Layout.authTag.stop ∨
        Layout.headerSize ≤ i) → Rejects (image.flipBit i bit) key .authentication) ∧
    (∀ other, DiffersWithin Layout.ciphertextLength image other ∨
        other.take Layout.headerSize = image.take Layout.headerSize ∧
          Layout.headerSize ≤ other.length ∧ other.length ≠ image.length →
      Rejects other key (.header (.lengthMismatch
        (Octets.toWordLE (other.slice Layout.ciphertextLength)).toNat
        (other.length - Layout.headerSize)))) ∧
    ∀ other, DiffersWithin Layout.magic image other →
      Octets.toWordLE (other.slice Layout.magic) ≠ magicNumber ∧
        Rejects other key (.invalidMagic (Octets.toWordLE (other.slice Layout.magic))) := by
  obtain ⟨payload, container, contentKey, hc, hk, -, htag, -⟩ := authentic_of_decrypt hread hopen
  have hold := Container.StandsIn.of_ofOctets hc
  have hne := hsubkey container contentKey hc hk
  have hblock : ∀ other i, DiffersWithin (Layout.ciphertextBlock i) image other →
      Rejects other key .authentication := fun other i hd => rejects_of_ciphertext hold hk htag hne hd
  refine ⟨fun other hd => rejects_of_authTag hold hk htag hd,
    fun other hd => rejects_of_iv hold hk htag hne hd, hblock, fun i bit hi hplace => ?_,
    fun other hchange => ?_, fun other hd => rejects_of_magic hold hd⟩
  · rcases hplace with ⟨hoffset, hstop⟩ | ⟨hoffset, hstop⟩ | hbehind
    · exact rejects_of_iv hold hk htag hne (differsWithin_flipBit bit hi hoffset hstop)
    · exact rejects_of_authTag hold hk htag (differsWithin_flipBit bit hi hoffset hstop)
    · -- The block that holds the octet.
      apply hblock _ ((i - Layout.headerSize) / 16)
      apply differsWithin_flipBit bit hi
      · unfold Layout.ciphertextBlock
        dsimp only
        omega
      · unfold Layout.ciphertextBlock Span.stop
        dsimp only
        omega
  · rcases hchange with hd | ⟨htake, hlong, hlength⟩
    · exact rejects_of_ciphertextLength hold hd
    · exact rejects_of_length hold htake hlong hlength

theorem decrypt_detects_tampering_sample :
    Rejects (sampleImage.flipBit 420 7) (.rsaPrivate sampleKey) .authentication ∧
    Rejects (sampleImage.flipBit 388 0) (.rsaPrivate sampleKey) .authentication ∧
    Rejects (sampleImage.flipBit 528 3) (.rsaPrivate sampleKey) .authentication ∧
    Rejects (sampleImage.flipBit 512 6) (.rsaPrivate sampleKey) .authentication ∧
    (∃ declared actual, Rejects (sampleImage.flipBit 404 1) (.rsaPrivate sampleKey)
      (.header (.lengthMismatch declared actual))) ∧
    (∃ declared actual, Rejects (sampleImage ++ [0]) (.rsaPrivate sampleKey)
      (.header (.lengthMismatch declared actual))) ∧
    ∃ found, found ≠ magicNumber ∧
      Rejects (sampleImage.flipBit 0 2) (.rsaPrivate sampleKey) (.invalidMagic found) := by
  obtain ⟨container, hc, hk, hlen⟩ := sampleImage_contentKey
  obtain ⟨summary, t, hopen⟩ := sampleImage_decrypts
  have hsubkey : ∀ other contentKey, Container.ofOctets sampleImage = .ok other →
      recoverContentKey other.header (.rsaPrivate sampleKey) = .ok contentKey →
      Aes.blockFunction contentKey 0 ≠ 0 := by
    intro other contentKey hother hkey
    rw [hc] at hother
    obtain rfl := Except.ok.inj hother
    rw [hk] at hkey
    rw [← Except.ok.inj hkey]
    exact sampleSubkey_ne
  have hold := Container.StandsIn.of_ofOctets hc
  have hlength : sampleImage.length = 529 := by
    have hpayload : samplePayload.length = 17 := by decide +kernel
    have hlong : 512 ≤ sampleImage.length := hold.long
    have hbehind : sampleImage.length - 512 = 17 := by
      rw [← hpayload, ← hlen, hold.ciphertext, List.length_drop]
      rfl
    exact Nat.eq_add_of_sub_eq hlong hbehind
  have hflip : ∀ (span : Span) (i : Nat) (bit : Fin 8), i < 529 → span.offset ≤ i → i < span.stop →
      DiffersWithin span sampleImage (sampleImage.flipBit i bit) :=
    fun span i bit hi hoffset hstop => differsWithin_flipBit bit (hlength ▸ hi) hoffset hstop
  obtain ⟨htag, hiv, hblock, hbit, hcount, hmagic⟩ :=
    decrypt_detects_tampering (Source.readAll_ofOctets sampleImage) hopen hsubkey
  refine ⟨htag _ (hflip _ 420 7 (by decide) (by decide) (by decide)),
    hiv _ (hflip _ 388 0 (by decide) (by decide) (by decide)),
    hblock _ 1 (hflip _ 528 3 (by decide) (by decide) (by decide)),
    hbit 512 6 (by rw [hlength]; decide) (Or.inr (Or.inr (by decide))),
    ⟨_, _, hcount _ (Or.inl (hflip _ 404 1 (by decide) (by decide) (by decide)))⟩,
    ⟨_, _, hcount _ (Or.inr ⟨?_, ?_, ?_⟩)⟩,
    ⟨_, hmagic _ (hflip _ 0 2 (by decide) (by decide) (by decide))⟩⟩
  · rw [List.take_append_of_le_length hold.long]
  · rw [List.length_append, hlength]
    decide
  · rw [List.length_append]
    simp

end SealedImage
