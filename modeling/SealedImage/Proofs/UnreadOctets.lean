import Mathlib.Tactic.Common
import SealedImage.Proofs.Grammar
import SealedImage.Proofs.Tampering

/-!
# Octets without meaning

Under each scheme some octets of the header have no meaning (`Scheme.unread`). Two strings that agree
everywhere else are refused for the same failure, or they are images of two containers that no key of the
scheme tells apart, and so a decryption goes the same way on both.
-/

namespace SealedImage

/-- The octets of an image that no key of a scheme looks at. -/
def Scheme.unread : Scheme → List Span
  | rsa3072 => [Layout.reserved]
  | ecc256 => [Layout.reserved, Layout.eccReserved]

example : Scheme.ecc256.unread.map (fun span => (span.offset, span.stop)) = [(424, 512), (100, 388)] := by
  decide

/-- Two strings of one length hold the same octets at every place that is in none of the spans. -/
structure AgreesOutside (spans : List Span) (xs ys : Octets) : Prop where
  length : ys.length = xs.length
  getElem? : ∀ i, (∀ span ∈ spans, i < span.offset ∨ span.stop ≤ i) → ys[i]? = xs[i]?

namespace AgreesOutside

variable {spans : List Span} {field : Span} {xs ys : Octets}

/-- A run of octets apart from the spans is the same in both. -/
lemma slice_eq (h : AgreesOutside spans xs ys) (hapart : ∀ span ∈ spans, field.Apart span) :
    ys.slice field = xs.slice field := by
  apply List.ext_getElem?
  intro i
  unfold Octets.slice
  rw [List.getElem?_take, List.getElem?_take]
  split_ifs with hi
  · rw [List.getElem?_drop, List.getElem?_drop]
    refine h.getElem? _ fun span hspan => ?_
    rcases hapart span hspan with hbefore | hbehind
    · exact Or.inl (Nat.lt_of_lt_of_le (Nat.add_lt_add_left hi _) hbefore)
    · exact Or.inr (hbehind.trans (Nat.le_add_right _ _))
  · rfl

/-- What stands behind the spans is the same in both. -/
lemma drop_eq (h : AgreesOutside spans xs ys) {n : Nat} (hn : ∀ span ∈ spans, span.stop ≤ n) :
    ys.drop n = xs.drop n := by
  apply List.ext_getElem?
  intro i
  rw [List.getElem?_drop, List.getElem?_drop]
  exact h.getElem? _ fun span hspan => Or.inr ((hn span hspan).trans (Nat.le_add_right _ _))

/-- A bit is flipped inside one of the spans. -/
lemma of_flipBit {span : Span} (hspan : span ∈ spans) {i : Nat} (bit : Fin 8) (hoffset : span.offset ≤ i)
    (hstop : i < span.stop) : AgreesOutside spans xs (xs.flipBit i bit) := by
  refine ⟨List.length_modify _ _ _, fun j hj => ?_⟩
  have hne : i ≠ j := by
    rcases hj span hspan with hbefore | hbehind <;> omega
  exact List.getElem?_modify_ne _ _ hne

end AgreesOutside

variable {scheme : Scheme} {container other : Container} {xs ys : Octets}

/-- Both strings start with the magic number and are long enough for a header, or both are refused for the
same failure. -/
lemma Header.parse_of_agreesOutside (h : AgreesOutside scheme.unread xs ys) :
    (∃ e, parse xs = .error e ∧ parse ys = .error e) ∨
      Layout.headerSize ≤ xs.length ∧ Octets.toWordLE (xs.slice Layout.magic) = magicNumber := by
  have hslice : ys.slice Layout.magic = xs.slice Layout.magic :=
    h.slice_eq (by cases scheme <;> decide)
  have hmagic : ys.take Layout.magic.size = xs.take Layout.magic.size := hslice
  by_cases hroom : Layout.magic.size ≤ xs.length
  · have hroom' : Layout.magic.size ≤ ys.length := h.length ▸ hroom
    by_cases hfound : Octets.toWordLE (xs.take Layout.magic.size) = magicNumber
    · have hfound' : Octets.toWordLE (ys.take Layout.magic.size) = magicNumber := hmagic ▸ hfound
      by_cases hlong : Layout.headerSize ≤ xs.length
      · exact Or.inr ⟨hlong, hfound⟩
      · have hshort := Nat.lt_of_not_le hlong
        refine Or.inl ⟨_, parse_of_truncated hfound hroom hshort, ?_⟩
        rw [parse_of_truncated hfound' hroom' (h.length ▸ hshort), h.length]
    · refine Or.inl ⟨_, parse_of_magic hroom hfound, ?_⟩
      rw [parse_of_magic hroom' (hmagic ▸ hfound), hmagic]
  · have hshort := Nat.lt_of_not_le hroom
    have hparse : parse xs = .error (.header (.tooShort xs.length)) := if_pos hshort
    have hparse' : parse ys = .error (.header (.tooShort ys.length)) := if_pos (h.length ▸ hshort)
    exact Or.inl ⟨_, hparse, by rw [hparse', h.length]⟩

namespace Container

/-- Two containers that no key of a scheme tells apart: their slots mean the same under the scheme, and all
else is the same in both. -/
structure SameUnder (scheme : Scheme) (container other : Container) : Prop where
  keyBlob : other.header.keyBlob scheme = container.header.keyBlob scheme
  iv : other.header.iv = container.header.iv
  ciphertextLength : other.header.ciphertextLength = container.header.ciphertextLength
  authTag : other.header.authTag = container.header.authTag
  ciphertext : other.ciphertext = container.ciphertext

/-- What a slot means is read from octets with a meaning alone. -/
lemma keyBlob_of_standsIn (h : AgreesOutside scheme.unread xs ys) (hold : container.StandsIn xs)
    (hnew : other.StandsIn ys) : other.header.keyBlob scheme = container.header.keyBlob scheme := by
  cases scheme with
  | rsa3072 =>
    have hslot : other.header.keySlot = container.header.keySlot := by
      apply Block.ext
      rw [hnew.keySlot, hold.keySlot]
      exact h.slice_eq (by decide)
    rw [Header.keyBlob, hslot, Header.keyBlob]
  | ecc256 =>
    have hpart : ∀ field ∈ [Layout.eccPoint, Layout.eccSalt],
        other.header.keySlot.octets.slice (field.inside Layout.keySlot) =
          container.header.keySlot.octets.slice (field.inside Layout.keySlot) := by
      intro field hfield
      have hinside : ∀ field ∈ [Layout.eccPoint, Layout.eccSalt],
          Layout.keySlot.offset ≤ field.offset ∧ field.stop ≤ Layout.keySlot.stop := by decide
      have hapart : ∀ field ∈ [Layout.eccPoint, Layout.eccSalt], ∀ span ∈ Scheme.ecc256.unread,
          field.Apart span := by decide
      obtain ⟨hoffset, hstop⟩ := hinside field hfield
      rw [hnew.keySlot, hold.keySlot, Octets.slice_slice _ hoffset hstop, Octets.slice_slice _ hoffset hstop]
      exact h.slice_eq (hapart field hfield)
    unfold Header.keyBlob KeyBlob.ofSlot
    rw [KeyBlob.ecc.injEq]
    exact ⟨Block.ext (hpart Layout.eccPoint (by decide)), Block.ext (hpart Layout.eccSalt (by decide))⟩

lemma SameUnder.of_standsIn (h : AgreesOutside scheme.unread xs ys) (hold : container.StandsIn xs)
    (hnew : other.StandsIn ys) : SameUnder scheme container other := by
  have hslice : ∀ field ∈ [Layout.iv, Layout.ciphertextLength, Layout.authTag],
      ys.slice field = xs.slice field := by
    have hapart : ∀ field ∈ [Layout.iv, Layout.ciphertextLength, Layout.authTag],
        ∀ span ∈ scheme.unread, field.Apart span := by
      cases scheme <;> decide
    exact fun field hfield => h.slice_eq (hapart field hfield)
  have hbehind : ys.drop Layout.headerSize = xs.drop Layout.headerSize :=
    h.drop_eq (by cases scheme <;> decide)
  refine ⟨keyBlob_of_standsIn h hold hnew, Block.ext ?_, ?_, Block.ext ?_, ?_⟩
  · rw [hnew.iv, hold.iv, hslice _ (by decide)]
  · rw [hnew.ciphertextLength, hold.ciphertextLength, hslice _ (by decide)]
  · rw [hnew.authTag, hold.authTag, hslice _ (by decide)]
  · rw [hnew.ciphertext, hold.ciphertext, hbehind]

/-- Octets without meaning decide neither whether a string is an image nor what it is refused for. -/
lemma ofOctets_of_agreesOutside (h : AgreesOutside scheme.unread xs ys) :
    (∃ e, ofOctets xs = .error e ∧ ofOctets ys = .error e) ∨
      ∃ container other, ofOctets xs = .ok container ∧ ofOctets ys = .ok other ∧
        SameUnder scheme container other := by
  have hmagic : ys.slice Layout.magic = xs.slice Layout.magic :=
    h.slice_eq (by cases scheme <;> decide)
  have hlength : ys.slice Layout.ciphertextLength = xs.slice Layout.ciphertextLength :=
    h.slice_eq (by cases scheme <;> decide)
  rcases Header.parse_of_agreesOutside h with ⟨e, hparse, hparse'⟩ | ⟨hlong, hfound⟩
  · exact Or.inl ⟨e, ofOctets_of_parse hparse, ofOctets_of_parse hparse'⟩
  · have hlong' : Layout.headerSize ≤ ys.length := h.length ▸ hlong
    have hfound' : Octets.toWordLE (ys.slice Layout.magic) = magicNumber := hmagic ▸ hfound
    by_cases htold : (Octets.toWordLE (xs.slice Layout.ciphertextLength)).toNat = xs.length - Layout.headerSize
    · obtain ⟨container, hc⟩ := exists_of_told hlong hfound htold
      obtain ⟨other, ho⟩ := exists_of_told hlong' hfound' (by rwa [hlength, h.length])
      exact Or.inr ⟨container, other, hc, ho, .of_standsIn h (.of_ofOctets hc) (.of_ofOctets ho)⟩
    · refine Or.inl ⟨_, ofOctets_of_not_told hlong hfound htold, ?_⟩
      rw [ofOctets_of_not_told hlong' hfound' (by rwa [hlength, h.length]), hlength, h.length]

namespace SameUnder

variable {key : KeyMaterial}

lemma recoverContentKey_eq (h : SameUnder key.scheme container other) :
    recoverContentKey other.header key = recoverContentKey container.header key := by
  unfold recoverContentKey
  rw [h.keyBlob]

lemma openContainer_eq (h : SameUnder key.scheme container other) :
    openContainer other key = openContainer container key := by
  unfold openContainer
  rw [h.recoverContentKey_eq, h.iv, h.ciphertext, h.authTag]

end SameUnder

end Container

/-- Octets without meaning never matter. Two inputs that end in the same fault, or none, and agree but for the
octets that no key of the scheme looks at, are opened to the same payload or refused for the same failure, and
the decryption of both has the same outcome in every session: the same summary or failure, the same reports,
and the same octets in the sink. -/
theorem decrypt_ignores_unread_octets {source other : Source} {key : KeyMaterial}
    (hfault : other.fault? = source.fault?)
    (h : AgreesOutside key.scheme.unread source.delivered other.delivered) :
    openOctets other.delivered key = openOctets source.delivered key ∧
      ∀ s, (decrypt other key).outcome s = (decrypt source key).outcome s := by
  have hjudged := Container.ofOctets_of_agreesOutside h
  constructor
  · rcases hjudged with ⟨e, hx, hy⟩ | ⟨container, changed, hx, hy, hsame⟩
    · unfold openOctets
      rw [hx, hy]
    · rw [openOctets_of_container key hx, openOctets_of_container key hy, hsame.openContainer_eq]
  · intro s
    cases hf : source.fault? with
    | some fault => rw [decrypt_outcome_of_fault hf, decrypt_outcome_of_fault (hfault.trans hf)]
    | none =>
      have hread := readContainer_outcome (Source.readAll_eq_ok_iff.mpr ⟨hf, rfl⟩) s
      have hread' := readContainer_outcome (Source.readAll_eq_ok_iff.mpr ⟨hfault.trans hf, rfl⟩) s
      rcases hjudged with ⟨e, hx, hy⟩ | ⟨container, changed, hx, hy, hsame⟩
      · rw [hx] at hread
        rw [hy] at hread'
        unfold decrypt
        rw [Action.outcome_bind_of_error _ hread, Action.outcome_bind_of_error _ hread']
      · rw [hx] at hread
        rw [hy] at hread'
        have hjournal : parsedJournal s changed = parsedJournal s container := by
          rw [parsedJournal, hsame.ciphertextLength, parsedJournal]
        unfold decrypt
        rw [Action.outcome_bind_of_ok _ hread, Action.outcome_bind_of_ok _ hread', hjournal,
          hsame.openContainer_eq]

/-- A bit behind the tag of the sample, and one behind the salt of an image of nothing. -/
theorem decrypt_ignores_unread_octets_sample :
    openOctets (sampleImage.flipBit 430 0) (.rsaPrivate sampleKey) = .ok samplePayload ∧
    ∀ (k : P256.SecretKey) (s : Session Sink),
      (decrypt (Source.ofOctets (Container.emptyImage.flipBit 100 7)) (.eccPrivate k)).outcome s =
        (decrypt (Source.ofOctets Container.emptyImage) (.eccPrivate k)).outcome s := by
  have hknown : ∀ xs : Octets, (Source.ofOctets xs).fault? = none ∧ (Source.ofOctets xs).delivered = xs :=
    fun xs => Source.readAll_eq_ok_iff.mp (Source.readAll_ofOctets xs)
  have hfault : ∀ xs ys : Octets, (Source.ofOctets ys).fault? = (Source.ofOctets xs).fault? :=
    fun xs ys => (hknown ys).1.trans (hknown xs).1.symm
  constructor
  · have hagree : AgreesOutside (KeyMaterial.rsaPrivate sampleKey).scheme.unread
        (Source.ofOctets sampleImage).delivered (Source.ofOctets (sampleImage.flipBit 430 0)).delivered := by
      rw [(hknown _).2, (hknown _).2]
      exact .of_flipBit (List.mem_cons_self (a := Layout.reserved)) 0 (by decide) (by decide)
    obtain ⟨hopen, -⟩ := decrypt_ignores_unread_octets (hfault _ _) hagree
    rwa [(hknown _).2, (hknown _).2, sampleImage_opens] at hopen
  · intro k s
    have hagree : AgreesOutside (KeyMaterial.eccPrivate k).scheme.unread
        (Source.ofOctets Container.emptyImage).delivered
        (Source.ofOctets (Container.emptyImage.flipBit 100 7)).delivered := by
      rw [(hknown _).2, (hknown _).2]
      exact .of_flipBit (List.mem_cons_of_mem Layout.reserved List.mem_cons_self) 7 (by decide) (by decide)
    obtain ⟨-, hrun⟩ := decrypt_ignores_unread_octets (hfault _ _) hagree
    exact hrun s

end SealedImage
