import Mathlib.Tactic.Common
import SealedImage.Proofs.Fields

/-!
# Slots and what they mean

`KeyBlob.rewritten` reads a slot under a scheme and writes what was read. Under the RSA scheme this is the slot
itself, under the ECC scheme the tail behind the salt becomes zeros. So a second time changes nothing, and slots have
one meaning exactly if they are rewritten to one slot. What the slot is cut into stands in the header where the layout
says.
-/

namespace SealedImage

namespace KeyBlob

/-- A slot as it is written after it was read under a scheme. -/
def rewritten (scheme : Scheme) (slot : Block 384) : Block 384 :=
  (ofSlot scheme slot).toSlot

section Slot

variable {scheme : Scheme} {slot other : Block 384}

lemma padding_toSlot {blob : KeyBlob} (h : blob.scheme = .ecc256) :
    blob.toSlot.octets.drop 96 = List.replicate 288 0 := by
  cases blob with
  | rsa wrapped => cases h
  | ecc point salt =>
    have hlength : (point.octets ++ salt.octets).length = 96 := by simp
    exact List.drop_left' hlength

@[simp] lemma scheme_ofSlot : (ofSlot scheme slot).scheme = scheme := by
  cases scheme <;> rfl

lemma rewritten_rsa : rewritten .rsa3072 slot = slot := rfl

/-- The point and the salt are the first octets of the slot, in this order and with nothing between them. -/
lemma octets_rewritten_ecc : (rewritten .ecc256 slot).octets = slot.octets.take 96 ++ List.replicate 288 0 := by
  have hcut : (rewritten .ecc256 slot).octets =
      (slot.octets.drop 0).take 64 ++ (slot.octets.drop 64).take 32 ++ List.replicate 288 0 := rfl
  rw [hcut, List.drop_zero, ← List.take_add]

lemma ofSlot_rewritten : ofSlot scheme (rewritten scheme slot) = ofSlot scheme slot := by
  have hread := ofSlot_toSlot (ofSlot scheme slot)
  rwa [scheme_ofSlot] at hread

lemma rewritten_rewritten : rewritten scheme (rewritten scheme slot) = rewritten scheme slot :=
  congrArg toSlot ofSlot_rewritten

lemma ofSlot_eq_iff_rewritten : ofSlot scheme slot = ofSlot scheme other ↔
    rewritten scheme slot = rewritten scheme other := by
  refine ⟨congrArg toSlot, fun h => ?_⟩
  rw [← ofSlot_rewritten, h, ofSlot_rewritten]

lemma ofSlot_ecc_eq_iff : ofSlot .ecc256 slot = ofSlot .ecc256 other ↔
    slot.octets.take 96 = other.octets.take 96 := by
  rw [ofSlot_eq_iff_rewritten, Block.ext_iff, octets_rewritten_ecc, octets_rewritten_ecc, List.append_left_inj]

end Slot

end KeyBlob

namespace Header

variable {header : Header} {scheme : Scheme} {point : Block 64} {salt : Block 32}

lemma slice_keySlot (header : Header) : header.toOctets.slice Layout.keySlot = header.keySlot.octets := by
  have hstored : (Layout.keySlot, header.keySlot.octets) ∈ header.stored := by simp [stored]
  exact slice_of_stored hstored

/-- A field of the slot stands in the header where the layout says. -/
lemma slice_of_keySlot {field : Span} (hfrom : Layout.keySlot.offset ≤ field.offset)
    (hto : field.stop ≤ Layout.keySlot.stop) :
    header.toOctets.slice field = header.keySlot.octets.slice (field.inside Layout.keySlot) := by
  rw [← Octets.slice_slice header.toOctets hfrom hto, slice_keySlot]

lemma slices_of_keyBlob (h : header.keyBlob .ecc256 = .ecc point salt) :
    header.toOctets.slice Layout.eccPoint = point.octets ∧ header.toOctets.slice Layout.eccSalt = salt.octets := by
  obtain ⟨rfl, rfl⟩ := KeyBlob.ecc.inj h
  exact ⟨slice_of_keySlot (by decide) (by decide), slice_of_keySlot (by decide) (by decide)⟩

lemma slice_eccReserved (h : header.keySlot = (KeyBlob.ecc point salt).toSlot) :
    header.toOctets.slice Layout.eccReserved = List.replicate Layout.eccReserved.size 0 := by
  rw [slice_of_keySlot (by decide) (by decide), h]
  change ((KeyBlob.ecc point salt).toSlot.octets.drop 96).take 288 = List.replicate 288 0
  rw [KeyBlob.padding_toSlot rfl, List.take_of_length_le List.length_replicate.le]

end Header

namespace KeyBlob

/-- Reading and writing a slot undo each other but for the octets without meaning. A key blob is read back from its
slot, an RSA slot is written as it was read, and an ECC slot with zeros behind its first 96 octets, which alone decide
what it means. To read a slot, to write it and to read it again is to read it once. A header hands any slot over
through its octets, so that it means under either scheme what it meant before, and what a slot is written from is what
the header gives back, with the point, the salt and the zeros where the layout of the header says. -/
theorem slot_codec :
    (∀ blob : KeyBlob, ofSlot blob.scheme blob.toSlot = blob) ∧
    (∀ slot, (ofSlot .rsa3072 slot).toSlot = slot) ∧
    (∀ slot, (ofSlot .ecc256 slot).toSlot.octets = slot.octets.take 96 ++ List.replicate 288 0) ∧
    (∀ slot other, ofSlot .ecc256 slot = ofSlot .ecc256 other ↔ slot.octets.take 96 = other.octets.take 96) ∧
    (∀ scheme slot, ofSlot scheme (rewritten scheme slot) = ofSlot scheme slot ∧
      rewritten scheme (rewritten scheme slot) = rewritten scheme slot) ∧
    (∀ (header : Header) (rest : Octets), ∃ read, Header.parse (header.toOctets ++ rest) = .ok read ∧
      ∀ scheme, read.keyBlob scheme = ofSlot scheme header.keySlot ∧
        ∃ again, Header.parse ({ read with keySlot := (read.keyBlob scheme).toSlot }.toOctets ++ rest) = .ok again ∧
          again.keyBlob scheme = ofSlot scheme header.keySlot) ∧
    (∀ (header : Header) (blob : KeyBlob) (rest : Octets), ∃ read,
      Header.parse ({ header with keySlot := blob.toSlot }.toOctets ++ rest) = .ok read ∧
        read.keyBlob blob.scheme = blob) ∧
    ∀ (header : Header) point salt,
      let octets := { header with keySlot := (ecc point salt).toSlot }.toOctets
      octets.slice Layout.eccPoint = point.octets ∧ octets.slice Layout.eccSalt = salt.octets ∧
        octets.slice Layout.eccReserved = List.replicate Layout.eccReserved.size 0 := by
  refine ⟨ofSlot_toSlot, fun _ => rewritten_rsa, fun _ => octets_rewritten_ecc, fun _ _ => ofSlot_ecc_eq_iff,
    fun _ _ => ⟨ofSlot_rewritten, rewritten_rewritten⟩, fun header rest => ?_, fun header blob rest => ?_,
    fun header point salt => ?_⟩
  · refine ⟨header, Header.parse_toOctets header rest, fun scheme => ⟨rfl, ?_⟩⟩
    exact ⟨_, Header.parse_toOctets _ rest, ofSlot_rewritten⟩
  · exact ⟨_, Header.parse_toOctets _ rest, ofSlot_toSlot blob⟩
  · have hblob : Header.keyBlob { header with keySlot := (ecc point salt).toSlot } .ecc256 = ecc point salt :=
      ofSlot_toSlot (ecc point salt)
    obtain ⟨hpoint, hsalt⟩ := Header.slices_of_keyBlob hblob
    exact ⟨hpoint, hsalt, Header.slice_eccReserved rfl⟩

end KeyBlob

end SealedImage
