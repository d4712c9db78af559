import Mathlib.Tactic.Common
import SealedImage.Proofs.KeyText
import SealedImage.Proofs.RoundTrip

/-!
# Sizes of RSA keys

The size of an RSA key is judged in whole octets, wherever it is judged: when a key is loaded, before a content
key is wrapped, and before one is unwrapped. So the keys in use are those whose modulus has 3065 to 3072 bits
(`Rsa.PublicKey.size_judged_in_octets`), and the sample key, a sound one of 3070 bits, is among them.
-/

namespace SealedImage

/-- The bits of a number fill so many octets if the last octet is begun by them and they end in it. -/
lemma Octets.octetLength_eq_succ_iff {n count : Nat} :
    octetLength n = count + 1 ↔ 8 * count < bitLength n ∧ bitLength n ≤ 8 * (count + 1) := by
  unfold octetLength
  omega

namespace Rsa

namespace PublicKey

/-- The modulus fills 384 octets, which takes 3072 bits or up to seven fewer. -/
def Fits (k : PublicKey) : Prop :=
  3065 ≤ k.bits ∧ k.bits ≤ 3072

instance (k : PublicKey) : Decidable k.Fits :=
  inferInstanceAs (Decidable (_ ∧ _))

variable {k : PublicKey}

lemma fits_iff_size : k.Fits ↔ k.size = rsaModulusSize := by
  rw [size, show rsaModulusSize = 383 + 1 from rfl, Octets.octetLength_eq_succ_iff]
  rfl

lemma checkSize_of_fits (h : k.Fits) : k.checkSize = .ok () :=
  checkSize_eq_ok_iff.mpr (fits_iff_size.mp h)

lemma checkSize_of_not_fits (h : ¬k.Fits) : k.checkSize = .error (.keyMaterial (.rsaSize k.bits)) :=
  if_neg fun hsize => h (fits_iff_size.mpr hsize)

end PublicKey

end Rsa

namespace KeyMaterial

variable {text : List Char} {key : KeyMaterial} {k : Rsa.PublicKey}

/-- The size of an RSA key is that of its public half. -/
lemma checkSize_of_rsaRecipient? (h : key.rsaRecipient? = some k) : key.checkSize = k.checkSize := by
  cases key with
  | rsaPrivate secret =>
    rw [← Option.some.inj h]
    rfl
  | rsaPublic half =>
    rw [← Option.some.inj h]
    rfl
  | eccPrivate _ | eccPublic _ => cases h

/-- Whether a key that a text holds is loaded depends on its size alone. -/
lemma ofText_of_load? (h : load? ((ecBlock? text).getD text) = some key) :
    ofText text = key.checkSize.map fun _ => key := by
  unfold ofText
  simp only [h, pure, Except.pure, bind, Except.bind]
  cases key.checkSize <;> rfl

/-- The text of a public RSA key without a defect is judged by the size of the key. -/
lemma ofText_rsaPublic_eq (hlt : ∀ n ∈ [k.modulus, k.exponent], n < 256 ^ 384) (hdefect : k.defect? = none) :
    ofText k.armored.toList = k.checkSize.map fun _ => .rsaPublic k := by
  obtain ⟨hblock, hload⟩ := load?_rsaPublic hlt hdefect
  exact ofText_of_load? (by rwa [hblock, Option.getD_none])

end KeyMaterial

/-- A filler without zeros is kept as it was drawn. -/
lemma Refilled.of_ne_zero {xs : Octets} (h : ∀ x ∈ xs, x ≠ 0) : Refilled xs [] xs := by
  induction xs with
  | nil => exact .nil
  | cons x xs ih => exact .kept (h x List.mem_cons_self) (ih fun y hy => h y (List.mem_cons_of_mem _ hy))

namespace Rsa

variable {σ : Type} {k : PublicKey} {contentKey : Block 32} {s t : Session σ} {e : Failure}

/-- A key of another size is refused before anything is drawn. -/
lemma wrap_of_not_fits (h : ¬k.Fits) (contentKey : Block 32) (s : Session σ) :
    (wrap k contentKey).outcome s = some (.error (.keyMaterial (.rsaSize k.bits)), s) := by
  refine (wrap_behaves k contentKey s _ s).mpr ⟨[], .missized (PublicKey.checkSize_of_not_fits h), ?_⟩
  exact Session.passes_nil_iff.mpr rfl

/-- A key of the right size is refused for a defect of its numbers alone. -/
lemma defect_of_wrap_error (hfits : k.Fits) (h : (wrap k contentKey).outcome s = some (.error e, t)) :
    ∃ defect, k.defect? = some defect ∧ e = .crypto (.wrap defect) := by
  obtain ⟨trace, hwraps, -⟩ := (wrap_behaves k contentKey s _ t).mp h
  cases hwraps with
  | missized hsize =>
    rw [PublicKey.checkSize_of_fits hfits] at hsize
    cases hsize
  | unfit hsize hdefect => exact ⟨_, hdefect, rfl⟩

/-- A content key is wrapped for every key of the right size whose numbers have no defect. -/
lemma exists_wraps_of_refilled (hsize : k.checkSize = .ok ()) (hdefect : k.defect? = none) (contentKey : Block 32)
    {first : Block 349} {filler : Octets} {later : Trace} (h : Refilled first.octets later filler) :
    ∃ wrapped, Wraps k contentKey (.drawn .filler first :: later) (.ok wrapped) :=
  ⟨⟨_, PublicKey.length_encrypt hsize _ _⟩, .wrapped hsize hdefect h rfl⟩

lemma exists_wraps (hfits : k.Fits) (hdefect : k.defect? = none) (contentKey : Block 32) {filler : Block 349}
    (hfiller : ∀ x ∈ filler.octets, x ≠ 0) :
    ∃ wrapped, Wraps k contentKey [.drawn .filler filler] (.ok wrapped) :=
  exists_wraps_of_refilled (PublicKey.checkSize_of_fits hfits) hdefect contentKey (.of_ne_zero hfiller)

variable {secret : PrivateKey} {wrapped : Block 384}

lemma unwrap_of_not_fits (h : ¬secret.publicKey.Fits) (wrapped : Block 384) :
    unwrap secret wrapped = .error (.keyMaterial (.rsaSize secret.publicKey.bits)) := by
  unfold unwrap
  rw [PublicKey.checkSize_of_not_fits h]
  rfl

/-- With a key of the right size the private operation decides. -/
lemma decrypt?_of_unwrap_error (hfits : secret.publicKey.Fits) (h : unwrap secret wrapped = .error e) :
    secret.decrypt? wrapped.octets = none ∧ e = .keyMaterial .unwrapFailed ∨
      ∃ message, secret.decrypt? wrapped.octets = some message ∧ message.length ≠ 32 ∧
        e = .keyMaterial (.contentKeyLength message.length) := by
  unfold unwrap at h
  rw [PublicKey.checkSize_of_fits hfits] at h
  cases hmessage : secret.decrypt? wrapped.octets with
  | none =>
    rw [hmessage] at h
    exact Or.inl ⟨rfl, (Except.error.inj h).symm⟩
  | some message =>
    simp only [hmessage, bind, Except.bind] at h
    by_cases hlength : message.length = 32
    · rw [Block.ofOctets?, dif_pos hlength] at h
      cases h
    · rw [Block.ofOctets?, dif_neg hlength] at h
      exact Or.inr ⟨message, rfl, hlength, (Except.error.inj h).symm⟩

namespace PublicKey

/-- The size of an RSA key is judged in octets. A key whose modulus has 3065 to 3072 bits passes: a text that
holds it, or its private half, loads as the key, wrapping fails only for a defect of its numbers, and unwrapping
fails only for what the private operation gives. A key of any other size is told as such, and then loading
gives no key, and wrapping and unwrapping leave the session with the tape and all else as it was. -/
theorem size_judged_in_octets (k : PublicKey) :
    (∀ text key, KeyMaterial.load? ((KeyMaterial.ecBlock? text).getD text) = some key →
      key.rsaRecipient? = some k →
      (k.Fits → KeyMaterial.ofText text = .ok key) ∧
        (¬k.Fits → KeyMaterial.ofText text = .error (.keyMaterial (.rsaSize k.bits)))) ∧
    (∀ (σ : Type) (contentKey : Block 32) (s : Session σ),
      (k.Fits → ∀ e t, (wrap k contentKey).outcome s = some (.error e, t) →
        ∃ defect, k.defect? = some defect ∧ e = .crypto (.wrap defect)) ∧
        (¬k.Fits → (wrap k contentKey).outcome s = some (.error (.keyMaterial (.rsaSize k.bits)), s))) ∧
    ∀ secret wrapped, secret.publicKey = k →
      (k.Fits → ∀ e, unwrap secret wrapped = .error e →
        secret.decrypt? wrapped.octets = none ∧ e = .keyMaterial .unwrapFailed ∨
          ∃ message, secret.decrypt? wrapped.octets = some message ∧ message.length ≠ 32 ∧
            e = .keyMaterial (.contentKeyLength message.length)) ∧
        (¬k.Fits → unwrap secret wrapped = .error (.keyMaterial (.rsaSize k.bits))) := by
  refine ⟨fun text key hload hkey => ?_, fun σ contentKey s => ?_, ?_⟩
  · rw [KeyMaterial.ofText_of_load? hload, KeyMaterial.checkSize_of_rsaRecipient? hkey]
    refine ⟨fun hfits => ?_, fun hnot => ?_⟩
    · rw [checkSize_of_fits hfits]
      rfl
    · rw [checkSize_of_not_fits hnot]
      rfl
  · exact ⟨fun hfits e t h => defect_of_wrap_error hfits h, fun hnot => wrap_of_not_fits hnot contentKey s⟩
  · rintro secret wrapped rfl
    exact ⟨fun hfits e h => decrypt?_of_unwrap_error hfits h, fun hnot => unwrap_of_not_fits hnot wrapped⟩

/-- A key of 3070 bits passes, and one of 2048 bits does not. -/
theorem size_judged_in_octets_sample :
    KeyMaterial.ofText sampleKey.publicKey.armored.toList = .ok (.rsaPublic sampleKey.publicKey) ∧
    ∃ k : PublicKey, k.bits = 2048 ∧ KeyMaterial.ofText k.armored.toList = .error (.keyMaterial (.rsaSize 2048)) ∧
      (∀ (contentKey : Block 32) (s : Session Unit),
        (wrap k contentKey).outcome s = some (.error (.keyMaterial (.rsaSize 2048)), s)) ∧
      ∀ wrapped, unwrap ⟨k, 1, 1, 1⟩ wrapped = .error (.keyMaterial (.rsaSize 2048)) := by
  constructor
  · obtain ⟨hblock, hload⟩ := KeyMaterial.load?_rsaPublic
      (show ∀ n ∈ [sampleKey.publicKey.modulus, 3], n < 256 ^ 384 by decide +kernel)
      (show sampleKey.publicKey.defect? = none by decide +kernel)
    obtain ⟨htext, -⟩ := size_judged_in_octets sampleKey.publicKey
    exact (htext _ _ (by rwa [hblock, Option.getD_none]) rfl).1 (by decide +kernel)
  · let k : PublicKey := ⟨2 ^ 2047 + 1, 65537⟩
    have hbits : k.bits = 2048 := by decide +kernel
    have hnot : ¬k.Fits := by decide +kernel
    obtain ⟨hblock, hload⟩ := KeyMaterial.load?_rsaPublic
      (show ∀ n ∈ [k.modulus, k.exponent], n < 256 ^ 384 by decide +kernel) (by decide +kernel)
    obtain ⟨htext, hwrap, hunwrap⟩ := size_judged_in_octets k
    refine ⟨k, hbits, ?_, fun contentKey s => ?_, fun wrapped => ?_⟩
    · exact hbits ▸ (htext k.armored.toList (.rsaPublic k) (by rwa [hblock, Option.getD_none]) rfl).2 hnot
    · exact hbits ▸ (hwrap Unit contentKey s).2 hnot
    · exact hbits ▸ (hunwrap ⟨k, 1, 1, 1⟩ wrapped rfl).2 hnot

/-- The sample key has fewer than 3072 bits. Its public half is loaded from its text all the same, and a content
key is wrapped for it and unwrapped again. -/
theorem shorter_key_passes :
    sampleKey.publicKey.bits = 3070 ∧
    KeyMaterial.ofText sampleKey.publicKey.armored.toList = .ok (.rsaPublic sampleKey.publicKey) ∧
    ∃ wrapped t, (wrap sampleKey.publicKey (Block.replicate 32 7)).outcome ⟨List.replicate 349 7, [], ()⟩ =
        some (.ok wrapped, t) ∧
      unwrap sampleKey wrapped = .ok (Block.replicate 32 7) := by
  have hfits : sampleKey.publicKey.Fits := by decide +kernel
  have hdefect : sampleKey.publicKey.defect? = none := by decide +kernel
  refine ⟨by decide +kernel, ?_, ?_⟩
  · rw [KeyMaterial.ofText_rsaPublic_eq (by decide +kernel) hdefect, checkSize_of_fits hfits]
    rfl
  · let filler : Block 349 := Block.replicate 349 7
    obtain ⟨wrapped, hwraps⟩ := exists_wraps hfits hdefect (Block.replicate 32 7) (show ∀ x ∈ filler.octets, x ≠ 0
      from fun x hx => by rw [List.eq_of_mem_replicate hx]; decide)
    have hpasses : Session.Passes ⟨List.replicate 349 7, [], ()⟩ [.drawn .filler filler] ⟨[], [], ()⟩ :=
      ⟨by rw [Trace.octets_drawn, Trace.octets_nil, List.append_nil, List.append_nil]; rfl, rfl, rfl⟩
    exact ⟨wrapped, _, (wrap_behaves _ _ _ _ _).mpr ⟨_, hwraps, hpasses⟩, unwrap_of_wraps sampleKey_sound hwraps⟩

end PublicKey

end Rsa

end SealedImage
