import Mathlib.Logic.Function.Basic
import Mathlib.Tactic.Common
import SealedImage.Proofs.Grammar

/-!
# The fields of a header

Writing and reading a header undo each other, but for the octets without meaning: they are written as zeros
whatever they were read as. What `Header.stored` lists stands in the header at the span that it names, and no
two of these spans share an octet.
-/

namespace SealedImage

/-- The octets with zeros in place of a span. -/
def Octets.blank (xs : Octets) (span : Span) : Octets :=
  xs.take span.offset ++ List.replicate span.size 0 ++ xs.drop span.stop

namespace Header

variable {xs ys : Octets} {header : Header}

/-- What a header stores, with the span that it is stored at. -/
def stored (header : Header) : List (Span × Octets) :=
  [(Layout.magic, Octets.ofWordLE magicNumber), (Layout.keySlot, header.keySlot.octets),
    (Layout.iv, header.iv.octets), (Layout.ciphertextLength, Octets.ofWordLE header.ciphertextLength),
    (Layout.authTag, header.authTag.octets)]

lemma stored_apart (header : Header) : (header.stored.map Prod.fst).Pairwise Span.Apart := by
  change [Layout.magic, Layout.keySlot, Layout.iv, Layout.ciphertextLength, Layout.authTag].Pairwise Span.Apart
  decide

lemma slice_of_stored {field : Span × Octets} (h : field ∈ header.stored) :
    header.toOctets.slice field.1 = field.2 := by
  have hparse := parse_toOctets header []
  rw [List.append_nil] at hparse
  obtain ⟨hlong, hmagic, hfields⟩ := parse_eq_ok_iff.mp hparse
  -- a word stands where the octets that it is read from do
  have hword (span : Span) {w : UInt32} (hsize : span.size = 4) (hstop : span.stop ≤ Layout.headerSize)
      (hread : Octets.toWordLE (header.toOctets.slice span) = w) :
      header.toOctets.slice span = Octets.ofWordLE w := by
    rw [← hread, Octets.ofWordLE_toWordLE]
    rw [Octets.length_slice (hstop.trans hlong), hsize]
  simp only [stored, List.mem_cons, List.not_mem_nil, or_false] at h
  rcases h with rfl | rfl | rfl | rfl | rfl
  · exact hword Layout.magic rfl (by decide) hmagic
  · exact congrArg (fun h => h.keySlot.octets) hfields
  · exact congrArg (fun h => h.iv.octets) hfields
  · exact hword Layout.ciphertextLength rfl (by decide) (congrArg ciphertextLength hfields)
  · exact congrArg (fun h => h.authTag.octets) hfields

/-- The octets behind the tag are not looked at. -/
lemma parse_of_take (h : ys.take 424 = xs.take 424) (hparse : parse xs = .ok header)
    (hlong : Layout.headerSize ≤ ys.length) : parse ys = .ok header := by
  obtain ⟨hlong', hmagic, rfl⟩ := parse_eq_ok_iff.mp hparse
  have hslice (span : Span) (hstop : span.stop ≤ 424) : ys.slice span = xs.slice span :=
    Octets.slice_congr h hstop
  refine parse_eq_ok_iff.mpr ⟨hlong, ?_, ?_⟩
  · exact (congrArg Octets.toWordLE (hslice Layout.magic (by decide))).trans hmagic
  · unfold ofOctets
    congr 1
    · exact Block.ext (hslice Layout.keySlot (by decide))
    · exact Block.ext (hslice Layout.iv (by decide))
    · exact congrArg Octets.toWordLE (hslice Layout.ciphertextLength (by decide))
    · exact Block.ext (hslice Layout.authTag (by decide))

lemma blank_reserved (xs : Octets) :
    Octets.blank (xs.take Layout.headerSize) Layout.reserved = xs.take 424 ++ List.replicate 88 0 := by
  have htake : (xs.take Layout.headerSize).take Layout.reserved.offset = xs.take 424 := by
    rw [List.take_take]
    rfl
  have hdrop : (xs.take Layout.headerSize).drop Layout.reserved.stop = [] :=
    List.drop_eq_nil_of_le (by rw [List.length_take]; exact Nat.min_le_left _ _)
  rw [Octets.blank, htake, hdrop, List.append_nil]
  rfl

theorem parse_eq_ok_iff_toOctets : parse xs = .ok header ↔
    Layout.headerSize ≤ xs.length ∧
      header.toOctets = Octets.blank (xs.take Layout.headerSize) Layout.reserved := by
  constructor
  · intro h
    obtain ⟨hlong, -⟩ := parse_eq_ok_iff.mp h
    exact ⟨hlong, by rw [blank_reserved xs, toOctets_of_parse h]⟩
  · rintro ⟨hlong, h⟩
    refine parse_of_take ?_ (parse_toOctets header []) hlong
    have hlength : (xs.take 424).length = 424 := by
      have hsize : Layout.headerSize = 512 := rfl
      rw [List.length_take]
      omega
    rw [List.append_nil, h, blank_reserved xs, List.take_left' hlength]

lemma slice_reserved (header : Header) (rest : Octets) :
    (header.toOctets ++ rest).slice Layout.reserved = List.replicate Layout.reserved.size 0 := by
  have hparse := parse_toOctets header []
  rw [List.append_nil] at hparse
  have hlength : (header.toOctets.take 424).length = Layout.reserved.offset := by
    rw [List.length_take, length_toOctets]
    rfl
  rw [toOctets_of_parse hparse, List.append_assoc]
  exact Octets.take_drop_middle hlength List.length_replicate

theorem toOctets_injective : Function.Injective toOctets := by
  intro h h' heq
  have hparse := parse_toOctets h []
  rw [heq, parse_toOctets h' []] at hparse
  exact (Except.ok.inj hparse).symm

/-- A header is read back from the octets that it writes, whatever stands behind them. The strings that a
header is read from are those that are long enough and start with the octets that it writes, but for the
reserved ones, which are written as zeros. So the octets determine the header, each field stands in its own
span, and these spans are pairwise apart. -/
theorem header_codec :
    (∀ (header : Header) (rest : Octets), parse (header.toOctets ++ rest) = .ok header) ∧
    (∀ (xs : Octets) (header : Header), parse xs = .ok header ↔
      Layout.headerSize ≤ xs.length ∧
        header.toOctets = Octets.blank (xs.take Layout.headerSize) Layout.reserved) ∧
    (∀ (header : Header), ∀ field ∈ header.stored, header.toOctets.slice field.1 = field.2) ∧
    (∀ header : Header, (header.stored.map Prod.fst).Pairwise Span.Apart) ∧
    Function.Injective toOctets :=
  ⟨parse_toOctets, fun _ _ => parse_eq_ok_iff_toOctets, fun _ _ => slice_of_stored, stored_apart,
    toOctets_injective⟩

def sampleHeader : Header :=
  ⟨Block.replicate 384 1, Block.replicate 16 2, 3, Block.replicate 16 4⟩

theorem header_codec_sample :
    parse (sampleHeader.toOctets ++ [5]) = .ok sampleHeader ∧
      sampleHeader.toOctets = Octets.blank ((sampleHeader.toOctets ++ [5]).take Layout.headerSize) Layout.reserved ∧
      sampleHeader.toOctets.slice Layout.iv = List.replicate 16 2 := by
  obtain ⟨hread, hwritten, hfields, -⟩ := header_codec
  have hparse := hread sampleHeader [5]
  have hiv : (Layout.iv, sampleHeader.iv.octets) ∈ sampleHeader.stored := by simp [stored]
  exact ⟨hparse, ((hwritten _ _).mp hparse).2, hfields sampleHeader _ hiv⟩

end Header

end SealedImage
