import Mathlib.Tactic.Common
import SealedImage.Proofs.Codec
import SealedImage.Proofs.Spans

/-!
# The grammar of images

`IsImage` says of an octet string alone what an image is: a header's worth of octets at least, the magic
number in front, and the count of octets behind the header in its place. `Container.ofOctets` accepts these
strings and no others. What it makes of one writes it again, but for the reserved octets
(`Container.toOctets_of_ofOctets`), and what it says of the others depends on the magic number alone.
-/

namespace SealedImage

namespace Octets

/-- The number that the octets write in base 256, least significant octet first. -/
def toNatLE (xs : Octets) : Nat :=
  xs.foldr (fun x n => n * 256 + x.toNat) 0

lemma toNat_toWordLE_eq {xs : Octets} (h : xs.length ≤ 4) : (toWordLE xs).toNat = toNatLE xs := by
  rw [toNat_toWordLE h, toNat, List.foldl_reverse]
  rfl

lemma ofWordLE_toWordLE {xs : Octets} (h : xs.length = 4) : ofWordLE (toWordLE xs) = xs :=
  toWordLE_injective (length_ofWordLE _) h (toWordLE_ofWordLE _)

lemma take_stop (xs : Octets) (span : Span) : xs.take span.stop = xs.take span.offset ++ xs.slice span := by
  rw [Span.stop, List.take_add]
  rfl

end Octets

/-- The octets that an image starts with. -/
def magicOctets : Octets := [0xcf, 0xb6, 0x88, 0x07]

/-- A string of octets that is an image. -/
structure IsImage (xs : Octets) : Prop where
  long : 512 ≤ xs.length
  magic : xs.take 4 = magicOctets
  told : Octets.toNatLE ((xs.drop 404).take 4) = xs.length - 512

/-- An image tells where it ends, so it is no start of a longer one. -/
lemma IsImage.eq_of_isPrefix {xs ys : Octets} (hx : IsImage xs) (hy : IsImage ys) (h : xs <+: ys) : xs = ys := by
  refine h.eq_of_length_le ?_
  obtain ⟨rest, rfl⟩ := h
  have hfield : ((xs ++ rest).drop 404).take 4 = (xs.drop 404).take 4 := by
    have hlong := hx.long
    rw [List.drop_append_of_le_length (by omega), List.take_append_of_le_length (by simp; omega)]
  have htold := hy.told
  rw [hfield, hx.told] at htold
  have hlong := hx.long
  have hlong' := hy.long
  omega

namespace Header

variable {xs : Octets}

lemma magic_iff (h : xs.length = 4) : Octets.toWordLE xs = magicNumber ↔ xs = magicOctets := by
  constructor
  · intro heq
    rw [← Octets.ofWordLE_toWordLE h, heq]
    rfl
  · rintro rfl
    rfl

/-- Every field that a header is read from lies inside the string. -/
lemma stop_le_of_parse {header : Header} (h : parse xs = .ok header) :
    ∀ field ∈ Layout.fields, field.2.stop ≤ xs.length := by
  obtain ⟨hlong, -⟩ := parse_eq_ok_iff.mp h
  intro field hfield
  have hstop : ∀ field ∈ Layout.fields, field.2.stop ≤ Layout.headerSize := by decide
  exact (hstop field hfield).trans hlong

/-- A header that was read writes the octets that it was read from, with zeros for those without meaning. -/
theorem toOctets_of_parse {header : Header} (h : parse xs = .ok header) :
    header.toOctets = xs.take 424 ++ List.replicate 88 0 := by
  obtain ⟨hlong, hmagic, rfl⟩ := parse_eq_ok_iff.mp h
  have hlength : (xs.take Layout.magic.size).length = 4 := by
    rw [List.length_take]
    exact Nat.min_eq_left (Nat.le_trans (by decide) hlong)
  have htold : Octets.ofWordLE (Octets.toWordLE (xs.slice Layout.ciphertextLength)) =
      xs.slice Layout.ciphertextLength :=
    Octets.ofWordLE_toWordLE (Octets.length_slice (Nat.le_trans (by decide) hlong))
  -- the fields up to the tag follow one another from the start of the string
  have hfields : xs.take 424 = xs.take Layout.magic.size ++ xs.slice Layout.keySlot ++ xs.slice Layout.iv ++
      xs.slice Layout.ciphertextLength ++ xs.slice Layout.authTag := by
    rw [show 424 = Layout.authTag.stop from rfl, Octets.take_stop,
      show Layout.authTag.offset = Layout.ciphertextLength.stop from rfl, Octets.take_stop,
      show Layout.ciphertextLength.offset = Layout.iv.stop from rfl, Octets.take_stop,
      show Layout.iv.offset = Layout.keySlot.stop from rfl, Octets.take_stop]
    rfl
  rw [hfields, ← Octets.ofWordLE_toWordLE hlength, hmagic, ← htold]
  rfl

lemma parse_of_truncated (hmagic : Octets.toWordLE (xs.take Layout.magic.size) = magicNumber)
    (hlong : Layout.magic.size ≤ xs.length) (hshort : xs.length < Layout.headerSize) :
    parse xs = .error (.header (.truncated xs.length)) := by
  unfold parse checkMagic
  dsimp only
  rw [if_neg (Nat.not_lt.mpr hlong), if_pos hmagic]
  exact dif_neg (Nat.not_le.mpr hshort)

/-- Without the magic number there is no header, and with it only the length can be at fault. -/
lemma parse_eq_error {e : Failure} (h : parse xs = .error e) :
    4 ≤ xs.length ∧ xs.take 4 ≠ magicOctets ∧ e = .invalidMagic (Octets.toWordLE (xs.take 4)) ∨
      ¬(4 ≤ xs.length ∧ xs.take 4 ≠ magicOctets) ∧ xs.length < 512 ∧ ∃ fault, e = .header fault := by
  by_cases hshort : xs.length < 4
  · have hparse : parse xs = .error (.header (.tooShort xs.length)) := if_pos hshort
    rw [hparse] at h
    exact Or.inr ⟨by omega, by omega, _, (Except.error.inj h).symm⟩
  · have htake : (xs.take 4).length = 4 := by
      rw [List.length_take]
      omega
    by_cases hmagic : xs.take 4 = magicOctets
    · by_cases hlong : 512 ≤ xs.length
      · have hok := parse_eq_ok_iff.mpr ⟨hlong, (magic_iff htake).mpr hmagic, rfl⟩
        rw [hok] at h
        cases h
      · rw [parse_of_truncated ((magic_iff htake).mpr hmagic) (Nat.le_of_not_lt hshort)
          (Nat.lt_of_not_le hlong)] at h
        exact Or.inr ⟨fun hne => hne.2 hmagic, by omega, _, (Except.error.inj h).symm⟩
    · rw [parse_of_magic (Nat.le_of_not_lt hshort) fun heq => hmagic ((magic_iff htake).mp heq)] at h
      exact Or.inl ⟨by omega, hmagic, (Except.error.inj h).symm⟩

end Header

namespace Container

variable {xs : Octets} {container : Container}

theorem exists_ofOctets_iff : (∃ container, ofOctets xs = .ok container) ↔ IsImage xs := by
  have hword (hlong : 512 ≤ xs.length) :
      (Octets.toWordLE (xs.slice Layout.ciphertextLength)).toNat = Octets.toNatLE ((xs.drop 404).take 4) :=
    Octets.toNat_toWordLE_eq (List.length_take_le _ _)
  have hmagic (hlong : 512 ≤ xs.length) :
      Octets.toWordLE (xs.take Layout.magic.size) = magicNumber ↔ xs.take 4 = magicOctets :=
    Header.magic_iff (by rw [List.length_take]; exact Nat.min_eq_left (Nat.le_trans (by decide) hlong))
  constructor
  · rintro ⟨container, h⟩
    obtain ⟨header, hparse, htold, -⟩ := ofOctets_eq_ok_iff.mp h
    obtain ⟨hlong, hfound, rfl⟩ := Header.parse_eq_ok_iff.mp hparse
    exact ⟨hlong, (hmagic hlong).mp hfound, (hword hlong).symm.trans htold⟩
  · intro h
    refine ⟨_, ofOctets_eq_ok_iff.mpr ⟨_, Header.parse_eq_ok_iff.mpr ⟨h.long, (hmagic h.long).mpr h.magic, rfl⟩,
      ?_, rfl⟩⟩
    exact (hword h.long).trans h.told

/-- An image that was read writes the octets that it was read from, with zeros for those without meaning. -/
theorem toOctets_of_ofOctets (h : ofOctets xs = .ok container) :
    container.ciphertext.length = container.header.ciphertextLength.toNat ∧
      container.toOctets = xs.take 424 ++ List.replicate 88 0 ++ xs.drop 512 := by
  obtain ⟨header, hparse, htold, rfl⟩ := ofOctets_eq_ok_iff.mp h
  refine ⟨?_, ?_⟩
  · rw [htold, List.length_drop]
  · rw [toOctets, Header.toOctets_of_parse hparse]
    rfl

/-- What is no image is refused for its magic number, if it holds another one, and else for its header. -/
lemma ofOctets_eq_error {e : Failure} (h : ofOctets xs = .error e) :
    4 ≤ xs.length ∧ xs.take 4 ≠ magicOctets ∧ e = .invalidMagic (Octets.toWordLE (xs.take 4)) ∨
      ¬(4 ≤ xs.length ∧ xs.take 4 ≠ magicOctets) ∧ ∃ fault, e = .header fault := by
  cases hparse : Header.parse xs with
  | error e' =>
    have he : e' = e := by simpa [ofOctets, hparse, bind, Except.bind] using h
    rcases Header.parse_eq_error (he ▸ hparse) with hmagic | ⟨hnot, -, hfault⟩
    · exact Or.inl hmagic
    · exact Or.inr ⟨hnot, hfault⟩
  | ok header =>
    obtain ⟨hlong, hmagic, -⟩ := Header.parse_eq_ok_iff.mp hparse
    have hlong : 512 ≤ xs.length := hlong
    have htake : xs.take 4 = magicOctets :=
      (Header.magic_iff (by rw [List.length_take]; omega)).mp hmagic
    by_cases htold : header.ciphertextLength.toNat = xs.length - Layout.headerSize
    · rw [ofOctets_eq_ok_iff.mpr ⟨header, hparse, htold, rfl⟩] at h
      cases h
    · rw [ofOctets_of_length hparse htold] at h
      exact Or.inr ⟨fun hne => hne.2 htake, _, (Except.error.inj h).symm⟩

/-- The octet strings that are read as images are those of the grammar, and none of them is a start of
another. An image holds as many octets of ciphertext as it tells, and writes the string again with zeros for
the reserved octets; no field is looked for outside of the string. Any other string is refused with what
stands in place of the magic number, if it is long enough to hold a wrong one, and as a fault of the header
otherwise. -/
theorem ofOctets_accepts_grammar (xs : Octets) :
    ((∃ container, ofOctets xs = .ok container) ↔ IsImage xs) ∧
    (∀ container, ofOctets xs = .ok container →
      container.ciphertext.length = container.header.ciphertextLength.toNat ∧
        container.toOctets = xs.take 424 ++ List.replicate 88 0 ++ xs.drop 512) ∧
    (¬IsImage xs → ∃ e, ofOctets xs = .error e ∧
      (4 ≤ xs.length ∧ xs.take 4 ≠ magicOctets →
        e = .invalidMagic (Octets.toWordLE (xs.take 4))) ∧
      (¬(4 ≤ xs.length ∧ xs.take 4 ≠ magicOctets) → ∃ fault, e = .header fault)) ∧
    (∀ header, Header.parse xs = .ok header →
      Layout.headerSize ≤ xs.length ∧ ∀ field ∈ Layout.fields, field.2.stop ≤ xs.length) ∧
    ∀ container ys other, ofOctets xs = .ok container → ofOctets ys = .ok other → xs <+: ys → xs = ys := by
  refine ⟨exists_ofOctets_iff, fun container h => toOctets_of_ofOctets h, fun hnot => ?_,
    fun header h => ⟨(Header.parse_eq_ok_iff.mp h).1, Header.stop_le_of_parse h⟩,
    fun container ys other hx hy hstart => ?_⟩
  · cases h : ofOctets xs with
    | ok container => exact absurd (exists_ofOctets_iff.mp ⟨container, h⟩) hnot
    | error e =>
      rcases ofOctets_eq_error h with ⟨hlong, hne, he⟩ | ⟨hkept, hfault⟩
      · exact ⟨e, rfl, fun _ => he, fun hkept => absurd ⟨hlong, hne⟩ hkept⟩
      · exact ⟨e, rfl, fun hne => absurd hne hkept, fun _ => hfault⟩
  · exact (exists_ofOctets_iff.mp ⟨container, hx⟩).eq_of_isPrefix (exists_ofOctets_iff.mp ⟨other, hy⟩) hstart

/-- An image of nothing. -/
def emptyImage : Octets :=
  magicOctets ++ List.replicate 508 0

lemma emptyImage_isImage : IsImage emptyImage :=
  ⟨by decide +kernel, by decide +kernel, by decide +kernel⟩

theorem ofOctets_accepts_grammar_sample :
    (∃ container, ofOctets emptyImage = .ok container ∧
      container.ciphertext.length = container.header.ciphertextLength.toNat) ∧
    (∃ fault, ofOctets (emptyImage ++ [0]) = .error (.header fault)) ∧
    (∃ fault, ofOctets (emptyImage.take 511) = .error (.header fault)) ∧
    ofOctets [1, 0, 0, 0] = .error (.invalidMagic 1) := by
  have hlonger : ¬IsImage (emptyImage ++ [0]) := fun h => absurd h.told (by decide +kernel)
  have hshorter : ¬IsImage (emptyImage.take 511) := fun h => absurd h.long (by decide +kernel)
  have hother : ¬IsImage [1, 0, 0, 0] := fun h => absurd h.long (by decide)
  refine ⟨?_, ?_, ?_, ?_⟩
  · obtain ⟨hiff, hwritten, -⟩ := ofOctets_accepts_grammar emptyImage
    obtain ⟨container, hok⟩ := hiff.mpr emptyImage_isImage
    exact ⟨container, hok, (hwritten container hok).1⟩
  · obtain ⟨-, -, hrefused, -⟩ := ofOctets_accepts_grammar (emptyImage ++ [0])
    obtain ⟨e, he, -, hheader⟩ := hrefused hlonger
    obtain ⟨fault, rfl⟩ := hheader (by decide +kernel)
    exact ⟨fault, he⟩
  · obtain ⟨-, -, hrefused, -⟩ := ofOctets_accepts_grammar (emptyImage.take 511)
    obtain ⟨e, he, -, hheader⟩ := hrefused hshorter
    obtain ⟨fault, rfl⟩ := hheader (by decide +kernel)
    exact ⟨fault, he⟩
  · obtain ⟨-, -, hrefused, -⟩ := ofOctets_accepts_grammar [1, 0, 0, 0]
    obtain ⟨e, he, hmagic, -⟩ := hrefused hother
    rw [he, hmagic (by decide)]
    rfl

end Container

end SealedImage
