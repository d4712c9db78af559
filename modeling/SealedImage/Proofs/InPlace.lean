import Mathlib.Tactic.Common
import SealedImage.Proofs.CounterMode

/-!
# Sealing and opening in place

A buffer is opened if and only if it is what sealing leaves of some text with the tag at hand, and then it
holds that text, which is the only one (`Gcm.openInPlace_accepts_sealed`). Counter mode undoes itself, so the
text can only be what the same mode makes of the buffer; the tag decides whether it was sealed.
-/

namespace SealedImage

lemma InPlace.outcome_get_bind {α : Type} (next : Octets → InPlace α) (buffer : Octets) :
    InPlace.outcome (get >>= next) buffer = (next buffer).outcome buffer := rfl

namespace Gcm

variable {f : BlockFunction} {iv t : Block 16} {buffer text : Octets}

lemma outcome_sealInPlace (f : BlockFunction) (iv : Block 16) (buffer : Octets) :
    (sealInPlace f iv).outcome buffer =
      (encrypt f iv buffer).elim (.error (.crypto .payloadLimit), buffer) fun r => (.ok r.2, r.1) := by
  rw [sealInPlace, InPlace.outcome_get_bind]
  cases encrypt f iv buffer <;> rfl

lemma outcome_openInPlace (f : BlockFunction) (iv t : Block 16) (buffer : Octets) :
    (openInPlace f iv t).outcome buffer =
      (decrypt? f iv buffer t).elim (.error .authentication, buffer) fun text => (.ok (), text) := by
  rw [openInPlace, InPlace.outcome_get_bind]
  cases decrypt? f iv buffer t <;> rfl

/-- A text that fits is sealed, whatever it is. -/
lemma encrypt_of_le (f : BlockFunction) (iv : Block 16) (h : text.length ≤ plaintextLimit) :
    encrypt f iv text = some (crypt f iv text, tag f iv (crypt f iv text)) :=
  if_pos h

/-- What is opened to a text is what the text is sealed to. -/
lemma decrypt?_eq_some_iff (h : buffer.length ≤ plaintextLimit) :
    decrypt? f iv buffer t = some text ↔ encrypt f iv text = some (buffer, t) := by
  constructor
  · intro hopen
    unfold decrypt? at hopen
    split_ifs at hopen with htag
    obtain rfl := Option.some.inj hopen
    rw [encrypt_of_le f iv (by rwa [length_crypt]), crypt_crypt, htag.2]
  · exact fun hseal => (decrypt?_of_encrypt hseal).1

lemma outcome_sealInPlace_eq_ok_iff {ciphertext : Octets} :
    (sealInPlace f iv).outcome text = (.ok t, ciphertext) ↔ encrypt f iv text = some (ciphertext, t) := by
  rw [outcome_sealInPlace]
  cases encrypt f iv text with
  | none => simp
  | some r => simp [Prod.ext_iff, and_comm]

lemma outcome_openInPlace_eq_ok_iff :
    (openInPlace f iv t).outcome buffer = (.ok (), text) ↔ decrypt? f iv buffer t = some text := by
  rw [outcome_openInPlace]
  cases decrypt? f iv buffer t <;> simp

/-- Opening accepts exactly what sealing leaves, under every block function. A buffer that a container can
carry is opened to a text if and only if the text is as long and is sealed to the buffer with this tag; there
is at most one such text, and without one the tag is refused and the buffer is as it was. A text that a
container can carry is always sealed, in as many octets, and what a text of any length was sealed to is always
opened to it. -/
theorem openInPlace_accepts_sealed (f : BlockFunction) (iv t : Block 16) {buffer : Octets}
    (hfits : buffer.length < UInt32.size) :
    (∀ text, (openInPlace f iv t).outcome buffer = (.ok (), text) ↔
      text.length = buffer.length ∧ (sealInPlace f iv).outcome text = (.ok t, buffer)) ∧
    (∀ text other, (sealInPlace f iv).outcome text = (.ok t, buffer) →
      (sealInPlace f iv).outcome other = (.ok t, buffer) → other = text) ∧
    ((¬∃ text, text.length = buffer.length ∧ (sealInPlace f iv).outcome text = (.ok t, buffer)) →
      (openInPlace f iv t).outcome buffer = (.error .authentication, buffer)) ∧
    (∃ own sealed, (sealInPlace f iv).outcome buffer = (.ok own, sealed) ∧ sealed.length = buffer.length) ∧
    ∀ text own sealed, (sealInPlace f iv).outcome text = (.ok own, sealed) →
      (openInPlace f iv own).outcome sealed = (.ok (), text) := by
  have hlimit : buffer.length ≤ plaintextLimit := Nat.le_trans (Nat.le_of_lt hfits) (by decide)
  have hiff : ∀ text, (openInPlace f iv t).outcome buffer = (.ok (), text) ↔
      (sealInPlace f iv).outcome text = (.ok t, buffer) := fun text => by
    rw [outcome_openInPlace_eq_ok_iff, decrypt?_eq_some_iff hlimit, outcome_sealInPlace_eq_ok_iff]
  have hlength : ∀ text, (sealInPlace f iv).outcome text = (.ok t, buffer) → text.length = buffer.length :=
    fun text hseal => (decrypt?_of_encrypt (outcome_sealInPlace_eq_ok_iff.mp hseal)).2.symm
  refine ⟨fun text => ?_, fun text other hseal hother => ?_, fun hnone => ?_, ?_,
    fun text own sealed hseal => ?_⟩
  · rw [hiff]
    exact ⟨fun hseal => ⟨hlength text hseal, hseal⟩, And.right⟩
  · have hopen := (hiff text).mpr hseal
    rw [(hiff other).mpr hother] at hopen
    exact (Prod.mk.inj hopen).2
  · have hclosed : decrypt? f iv buffer t = none := by
      rw [Option.eq_none_iff_forall_ne_some]
      intro text hopen
      have hseal := (hiff text).mp (outcome_openInPlace_eq_ok_iff.mpr hopen)
      exact hnone ⟨text, hlength text hseal, hseal⟩
    rw [outcome_openInPlace, hclosed]
    rfl
  · exact ⟨_, _, outcome_sealInPlace_eq_ok_iff.mpr (encrypt_of_le f iv hlimit), length_crypt f iv buffer⟩
  · rw [outcome_openInPlace_eq_ok_iff]
    exact (decrypt?_of_encrypt (outcome_sealInPlace_eq_ok_iff.mp hseal)).1

/-- A text of one whole block and one octet, and an octet with a tag that is not its own. -/
theorem openInPlace_accepts_sealed_sample :
    let key := Block.replicate 32 7
    let iv := Block.replicate 16 1
    (∃ own sealed, (Aes.sealInPlace key iv).outcome (List.replicate 17 3) = (.ok own, sealed) ∧
      (Aes.openInPlace key iv own).outcome sealed = (.ok (), List.replicate 17 3)) ∧
    (Aes.openInPlace key iv (Block.replicate 16 0)).outcome [5] = (.error .authentication, [5]) := by
  intro key iv
  constructor
  · have hfits : (List.replicate 17 (3 : UInt8)).length < UInt32.size := by decide
    obtain ⟨-, -, -, ⟨own, sealed, hseal, -⟩, hrestored⟩ :=
      openInPlace_accepts_sealed (Aes.blockFunction key) iv (Block.replicate 16 0) hfits
    exact ⟨own, sealed, hseal, hrestored _ own sealed hseal⟩
  · have hfits : ([5] : Octets).length < UInt32.size := by decide
    obtain ⟨-, -, hrefused, -⟩ :=
      openInPlace_accepts_sealed (Aes.blockFunction key) iv (Block.replicate 16 0) hfits
    apply hrefused
    rintro ⟨text, hlength, hseal⟩
    have hencrypt := outcome_sealInPlace_eq_ok_iff.mp hseal
    rw [encrypt_of_le _ iv (by rw [hlength]; decide)] at hencrypt
    obtain ⟨hcrypt, htag⟩ := Prod.mk.inj (Option.some.inj hencrypt)
    rw [hcrypt] at htag
    exact absurd htag (by decide +kernel)

end Gcm

end SealedImage
