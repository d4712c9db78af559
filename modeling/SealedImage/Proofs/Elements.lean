import Mathlib.Tactic.Common
import SealedImage.Asn1.KeyInfo
import SealedImage.Proofs.KeyTransport

/-!
# Elements are read back

An element with a known identifier that is not too long is read from the front of its encoding
(`Element.read_write`), and elements one after the other are read as they were (`Element.readAll_writeAll`).
The key structures are sequences of such elements, so what was written of a key is read of it.
-/

namespace SealedImage

namespace Octets

lemma octetLength_le {n count : Nat} (h : n < 256 ^ count) : octetLength n ≤ count := by
  by_cases hn : n = 0
  · rw [hn]
    exact Nat.zero_le count
  · have hpow : 256 ^ (octetLength n - 1) < 256 ^ count := (pow_octetLength_le hn).trans_lt h
    have hlt := (Nat.pow_lt_pow_iff_right (by decide)).mp hpow
    omega

lemma toNat_minimal (n : Nat) : toNat (minimal n) = n := by
  unfold minimal
  split_ifs with hn
  · rw [hn]
    rfl
  · exact toNat_ofNat_of_lt (lt_pow_octetLength n)

lemma length_minimal_le {n count : Nat} (h : n < 256 ^ count) (hcount : 0 < count) :
    (minimal n).length ≤ count := by
  unfold minimal
  split_ifs
  · exact hcount
  · rw [length_ofNat]
    exact octetLength_le h

end Octets

namespace Asn1

lemma length_writeLength {n : Nat} (h : n < 256 ^ 4) : (writeLength n).length ≤ 5 := by
  unfold writeLength
  split_ifs
  · exact Nat.le_of_ble_eq_true rfl
  · exact Nat.succ_le_succ (Octets.length_minimal_le h (by decide))

/-- A length below the limit is read from the front of its encoding. -/
theorem readLength_writeLength {n : Nat} (h : n < 0x10000000) (rest : Octets) :
    readLength (writeLength n ++ rest) = some (n, rest) := by
  by_cases hshort : n < 128
  · have hx : (UInt8.ofNat n).toNat = n := by
      rw [UInt8.toNat_ofNat']
      omega
    have hlt : UInt8.ofNat n < 0x80 := by
      rw [UInt8.lt_iff_toNat_lt, hx]
      exact hshort
    rw [writeLength, if_pos hshort, List.singleton_append, readLength, if_pos hlt, hx]
  · have hsize : (Octets.minimal n).length ≤ 4 := Octets.length_minimal_le (by omega) (by decide)
    have hx : (UInt8.ofNat (0x80 + (Octets.minimal n).length)).toNat = 0x80 + (Octets.minimal n).length := by
      rw [UInt8.toNat_ofNat']
      omega
    have hge : ¬UInt8.ofNat (0x80 + (Octets.minimal n).length) < 0x80 := by
      rw [UInt8.lt_iff_toNat_lt, hx]
      exact Nat.not_lt.mpr (Nat.le_add_right _ _)
    have hwrite : writeLength n = UInt8.ofNat (0x80 + (Octets.minimal n).length) :: Octets.minimal n := by
      rw [writeLength, if_neg hshort]
    rw [hwrite, List.cons_append, readLength, if_neg hge]
    simp only [hx, Nat.add_sub_cancel_left, List.take_left, List.drop_left, Octets.toNat_minimal]
    rw [if_pos ⟨hsize, h, hwrite⟩]

namespace Element

/-- An element that can be read back. -/
structure Readable (e : Element) : Prop where
  known : isKnownTag e.identifier = true
  short : e.contents.length < 0x10000000

/-- An element is read from the front of its encoding. -/
theorem read_write {e : Element} (h : e.Readable) (rest : Octets) : read (e.write ++ rest) = some (e, rest) := by
  rw [write, List.cons_append, read, if_pos h.known, List.append_assoc, readLength_writeLength h.short]
  dsimp only
  rw [if_pos (by simp), List.take_left, List.drop_left]

lemma write_ne_nil (e : Element) : e.write ≠ [] := List.cons_ne_nil _ _

lemma length_write_le {e : Element} (h : e.Readable) : e.write.length ≤ e.contents.length + 6 := by
  have hlength := length_writeLength (n := e.contents.length) (Nat.lt_trans h.short (by decide))
  rw [write, List.length_cons, List.length_append]
  omega

lemma writeAll_cons (e : Element) (es : List Element) : writeAll (e :: es) = e.write ++ writeAll es := rfl

lemma readUpTo_writeAll {es : List Element} (h : ∀ e ∈ es, e.Readable) {count : Nat}
    (hcount : es.length ≤ count) : readUpTo count (writeAll es) = some es := by
  induction es generalizing count with
  | nil =>
    cases count <;> rfl
  | cons e es ih =>
    obtain ⟨count, rfl⟩ := Nat.exists_eq_add_of_le' (Nat.le_trans (Nat.le_add_left 1 es.length) hcount)
    have hread := read_write (h e List.mem_cons_self) (writeAll es)
    have hrest := ih (fun e' he' => h e' (List.mem_cons_of_mem _ he')) (Nat.le_of_succ_le_succ hcount)
    rw [writeAll_cons]
    unfold write at hread ⊢
    rw [List.cons_append] at hread ⊢
    rw [readUpTo, hread]
    dsimp only
    rw [hrest]
    rfl

lemma length_le_length_writeAll (es : List Element) : es.length ≤ (writeAll es).length := by
  induction es with
  | nil => exact Nat.zero_le _
  | cons e es ih =>
    have hpos := List.length_pos_iff.mpr e.write_ne_nil
    rw [writeAll_cons, List.length_append, List.length_cons]
    omega

/-- Elements one after the other are read as they were written. -/
theorem readAll_writeAll {es : List Element} (h : ∀ e ∈ es, e.Readable) : readAll (writeAll es) = some es :=
  readUpTo_writeAll h (length_le_length_writeAll es)

lemma readAll_write {e : Element} (h : e.Readable) : readAll e.write = some [e] := by
  have hall : readAll (writeAll [e]) = some [e] :=
    readAll_writeAll fun e' he' => List.mem_singleton.mp he' ▸ h
  rwa [writeAll, List.flatMap_singleton] at hall

lemma sequence?_sequence {es : List Element} (h : ∀ e ∈ es, e.Readable) : (sequence es).sequence? = some es := by
  unfold sequence? sequence
  rw [if_pos rfl, readAll_writeAll h]

lemma length_writeAll_le {es : List Element} {size : Nat} (h : ∀ e ∈ es, e.Readable ∧ e.contents.length ≤ size) :
    (writeAll es).length ≤ es.length * (size + 6) := by
  induction es with
  | nil => exact Nat.zero_le _
  | cons e es ih =>
    obtain ⟨hreadable, hsize⟩ := h e List.mem_cons_self
    have hfirst := length_write_le hreadable
    have hrest := ih fun e' he' => h e' (List.mem_cons_of_mem _ he')
    rw [writeAll_cons, List.length_append, List.length_cons, Nat.succ_mul]
    omega

/-- A sequence of a few elements of moderate size is readable. -/
lemma readable_sequence {es : List Element} {size : Nat} (h : ∀ e ∈ es, e.Readable ∧ e.contents.length ≤ size)
    (hsize : es.length * (size + 6) < 0x10000000) : (sequence es).Readable :=
  ⟨show isKnownTag sequenceTag = true by decide, Nat.lt_of_le_of_lt (length_writeAll_le h) hsize⟩

/-- A document that is a sequence is read as the sequence, and this as its elements. -/
lemma document?_sequence {es : List Element} {size : Nat} (h : ∀ e ∈ es, e.Readable ∧ e.contents.length ≤ size)
    (hsize : es.length * (size + 6) < 0x10000000) :
    document? (sequence es).write = some (sequence es) ∧ (sequence es).sequence? = some es := by
  refine ⟨?_, sequence?_sequence fun e he => (h e he).1⟩
  unfold document?
  rw [readAll_write (readable_sequence h hsize)]
  exact if_pos rfl

lemma length_write_sequence_le {es : List Element} {size : Nat}
    (h : ∀ e ∈ es, e.Readable ∧ e.contents.length ≤ size) (hsize : es.length * (size + 6) < 0x10000000) :
    (sequence es).write.length ≤ es.length * (size + 6) + 6 :=
  (length_write_le (readable_sequence h hsize)).trans (Nat.add_le_add_right (length_writeAll_le h) 6)

section Types

lemma toNat_naturalContents (n : Nat) : Octets.toNat (naturalContents n) = n := by
  unfold naturalContents
  dsimp only
  split_ifs
  · exact Octets.toNat_minimal n
  · exact Octets.toNat_minimal n

lemma natural?_natural (n : Nat) : (natural n).natural? = some n := by
  unfold natural? natural
  dsimp only
  rw [toNat_naturalContents, if_pos ⟨rfl, rfl⟩]

lemma length_naturalContents_le {n count : Nat} (h : n < 256 ^ count) (hcount : 0 < count) :
    (naturalContents n).length ≤ count + 1 := by
  have hminimal := Octets.length_minimal_le h hcount
  unfold naturalContents
  dsimp only
  split_ifs
  · omega
  · rw [List.length_cons]
    omega

lemma bits?_bitContents (xs : Octets) : bits? (bitContents xs) = some (0, xs) := by
  simp [bits?, bitContents]

lemma wholeOctets?_bitContents (xs : Octets) : wholeOctets? (bitContents xs) = some xs := by
  rw [wholeOctets?, bits?_bitContents]
  rfl

lemma octetString?_octetString (xs : Octets) : (octetString xs).octetString? = some xs := if_pos rfl

lemma readable_natural {n count : Nat} (h : n < 256 ^ count) (hcount : 0 < count) (hlimit : count ≤ 0xffffff) :
    (natural n).Readable :=
  ⟨show isKnownTag integerTag = true by decide,
    Nat.lt_of_le_of_lt (length_naturalContents_le h hcount) (by omega)⟩

lemma readable_octetString {xs : Octets} (h : xs.length < 0x10000000) : (octetString xs).Readable :=
  ⟨show isKnownTag octetStringTag = true by decide, h⟩

lemma readable_bitString {xs : Octets} (h : xs.length < 0xfffffff) : (bitString xs).Readable :=
  ⟨show isKnownTag bitStringTag = true by decide, Nat.succ_lt_succ h⟩

lemma identifier_field (e : Element) : (field 1 e).identifier = 0xa1 :=
  show (0xa0 ||| 1 : UInt8) = 0xa1 by decide

lemma fieldNumber?_field (e : Element) : (field 1 e).fieldNumber? = some 1 := by
  unfold fieldNumber?
  rw [identifier_field]
  decide

lemma fieldElement?_field {e : Element} (h : e.Readable) : (field 1 e).fieldElement? = some e := by
  unfold fieldElement?
  rw [identifier_field, if_pos (by decide), show (field 1 e).contents = e.write from rfl, readAll_write h]

end Types

end Element

open Element

section Numbers

variable {ns : List Nat}

lemma readable_numbers (hsize : ∀ n ∈ ns, n < 256 ^ 384) :
    ∀ e ∈ ns.map natural, e.Readable ∧ e.contents.length ≤ 385 := by
  intro e he
  obtain ⟨n, hn, rfl⟩ := List.mem_map.mp he
  exact ⟨readable_natural (hsize n hn) (by decide) (by decide),
    length_naturalContents_le (hsize n hn) (by decide)⟩

lemma length_writeNumbers_lt (hsize : ∀ n ∈ ns, n < 256 ^ 384) (hcount : ns.length ≤ 16) :
    (writeNumbers ns).length < 0x10000 := by
  refine Nat.lt_of_le_of_lt (length_write_sequence_le (readable_numbers hsize) ?_) ?_
  · rw [List.length_map]
    omega
  · rw [List.length_map]
    omega

/-- The numbers of a sequence are read as they were written, if they are not too large. -/
theorem readNumbers?_writeNumbers (hsize : ∀ n ∈ ns, n < 256 ^ 384) (hcount : ns.length ≤ 16) :
    readNumbers? (writeNumbers ns) = some ns := by
  have hlimit : (ns.map natural).length * (385 + 6) < 0x10000000 := by
    rw [List.length_map]
    omega
  obtain ⟨hdocument, hsequence⟩ := document?_sequence (readable_numbers hsize) hlimit
  have hnumbers : ∀ ms : List Nat, (ms.map natural).mapM natural? = some ms := by
    intro ms
    induction ms with
    | nil => rfl
    | cons m ms ih => simp [natural?_natural, ih]
  unfold readNumbers? writeNumbers
  rw [hdocument]
  simp only [Option.bind_eq_bind, Option.bind_some, hsequence, hnumbers]

end Numbers

namespace Algorithm

/-- An algorithm that is small and read back. -/
structure Standard (a : Algorithm) : Prop where
  readable : a.element.Readable
  small : a.element.contents.length ≤ 64
  read : ofElement? a.element = some a

lemma rsa_standard : rsa.Standard :=
  ⟨⟨by decide, by decide⟩, by decide, by decide⟩

lemma p256_standard : p256.Standard :=
  ⟨⟨by decide, by decide⟩, by decide, by decide⟩

end Algorithm

section KeyStructures

variable {algorithm : Algorithm} {key : Octets}

theorem PublicKeyInfo.read?_write (ha : algorithm.Standard) (hkey : key.length < 0x10000) :
    PublicKeyInfo.read? (PublicKeyInfo.write algorithm key) = some ⟨algorithm, 0, key⟩ := by
  have hreadable : ∀ e ∈ [algorithm.element, bitString key], e.Readable ∧ e.contents.length ≤ 0x10000 := by
    intro e he
    simp only [List.mem_cons, List.not_mem_nil, or_false] at he
    rcases he with rfl | rfl
    · exact ⟨ha.readable, ha.small.trans (by decide)⟩
    · exact ⟨readable_bitString (by omega), hkey⟩
  obtain ⟨hdocument, hsequence⟩ := document?_sequence hreadable (by simp)
  unfold PublicKeyInfo.read? PublicKeyInfo.write
  rw [hdocument]
  simp only [Option.bind_eq_bind, Option.bind_some, hsequence, ha.read]
  rw [if_pos (show (bitString key).identifier = bitStringTag from rfl), show (bitString key).contents =
    bitContents key from rfl, bits?_bitContents]
  rfl

theorem PrivateKeyInfo.read?_write (ha : algorithm.Standard) (hkey : key.length < 0x10000) :
    PrivateKeyInfo.read? (PrivateKeyInfo.write algorithm key) = some ⟨algorithm, key, none⟩ := by
  have hzero : (0 : Nat) < 256 ^ 1 := by decide
  have hreadable : ∀ e ∈ [natural 0, algorithm.element, octetString key],
      e.Readable ∧ e.contents.length ≤ 0x10000 := by
    intro e he
    simp only [List.mem_cons, List.not_mem_nil, or_false] at he
    rcases he with rfl | rfl | rfl
    · exact ⟨readable_natural hzero (by decide) (by decide), by decide⟩
    · exact ⟨ha.readable, ha.small.trans (by decide)⟩
    · exact ⟨readable_octetString (by omega), Nat.le_of_lt hkey⟩
  obtain ⟨hdocument, hsequence⟩ := document?_sequence hreadable (by simp)
  unfold PrivateKeyInfo.read? PrivateKeyInfo.write
  rw [hdocument]
  simp only [Option.bind_eq_bind, Option.bind_some, hsequence, natural?_natural, ha.read, octetString?_octetString]
  rfl

section EcPrivateKey

variable {secret publicKey : Octets}

lemma EcPrivateKey.readable_elements (hsecret : secret.length < 0x1000) (hpublic : publicKey.length < 0x1000) :
    ∀ e ∈ [natural 1, octetString secret, field 1 (bitString publicKey)],
      e.Readable ∧ e.contents.length ≤ 0x1000 + 7 := by
  have hone : (1 : Nat) < 256 ^ 1 := by decide
  have hinner : (bitString publicKey).Readable := readable_bitString (by omega)
  have hlength : (bitString publicKey).write.length ≤ 0x1000 + 7 := by
    have hle := length_write_le hinner
    have hcontents : (bitString publicKey).contents.length = publicKey.length + 1 := rfl
    omega
  intro e he
  simp only [List.mem_cons, List.not_mem_nil, or_false] at he
  rcases he with rfl | rfl | rfl
  · exact ⟨readable_natural hone (by decide) (by decide), by decide⟩
  · exact ⟨readable_octetString (by omega), Nat.le_trans (Nat.le_of_lt hsecret) (by decide)⟩
  · exact ⟨⟨show isKnownTag (0xa0 ||| 1) = true by decide, Nat.lt_of_le_of_lt hlength (by decide)⟩, hlength⟩

lemma EcPrivateKey.length_write_lt (hsecret : secret.length < 0x1000) (hpublic : publicKey.length < 0x1000) :
    (EcPrivateKey.write secret publicKey).length < 0x10000 := by
  have hle := length_write_sequence_le (EcPrivateKey.readable_elements hsecret hpublic) (by simp)
  simp only [List.length_cons, List.length_nil] at hle
  unfold EcPrivateKey.write
  omega

/-- The one field behind the secret is the public key. -/
lemma EcPrivateKey.readPublicKey?_field (hpublic : publicKey.length < 0x1000) :
    EcPrivateKey.readPublicKey? [field 1 (bitString publicKey)] = some (some publicKey, []) := by
  have htake : takeField 1 [field 1 (bitString publicKey)] = (some (field 1 (bitString publicKey)), []) := by
    simp [takeField, dropLowerFields, fieldNumber?_field]
  have hbits : (bitString publicKey).Readable := readable_bitString (by omega)
  have hinner := fieldElement?_field hbits
  unfold EcPrivateKey.readPublicKey?
  rw [htake]
  simp only [hinner, Option.bind_eq_bind, Option.bind_some]
  rw [if_pos (show (bitString publicKey).identifier = bitStringTag from rfl),
    show (bitString publicKey).contents = bitContents publicKey from rfl, wholeOctets?_bitContents]
  rfl

lemma EcPrivateKey.readCurve?_field (e : Element) :
    EcPrivateKey.readCurve? [field 1 e] = some (none, [field 1 e]) := by
  have htake : takeField 0 [field 1 e] = (none, [field 1 e]) := by
    simp [takeField, dropLowerFields, fieldNumber?_field]
  unfold EcPrivateKey.readCurve?
  rw [htake]

theorem EcPrivateKey.read?_write (hsecret : secret.length < 0x1000) (hpublic : publicKey.length < 0x1000) :
    EcPrivateKey.read? (EcPrivateKey.write secret publicKey) = some ⟨secret, none, some publicKey⟩ := by
  have hreadable := EcPrivateKey.readable_elements hsecret hpublic
  obtain ⟨hdocument, hsequence⟩ := document?_sequence hreadable (by simp)
  unfold EcPrivateKey.read? EcPrivateKey.write
  rw [hdocument]
  simp only [Option.bind_eq_bind, Option.bind_some, hsequence, natural?_natural, octetString?_octetString,
    readCurve?_field, readPublicKey?_field hpublic]
  rfl

end EcPrivateKey

end KeyStructures

end Asn1

end SealedImage
