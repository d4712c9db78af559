import Mathlib.Tactic.Common
import SealedImage.Proofs.Authenticity
import SealedImage.Proofs.Calls
import SealedImage.Proofs.CounterMode
import SealedImage.Proofs.KeyAgreement
import SealedImage.Proofs.KeyTransport

/-!
# Decryption undoes encryption

`PrivateHalf` says which key opens what was sealed for a key. The content key that was established is
recovered by it (`Establishes.recovers`), the image is read back field by field, and the counter
mode undoes itself, so the payload comes out as it went in.
-/

namespace SealedImage

/-- The key opens what is sealed for another key, or for a new device if there is none: it is the private
half of the key, whichever half that is, or the secret of the device. -/
inductive PrivateHalf : Option KeyMaterial → Option DeviceKey → KeyMaterial → Prop
  | rsaPrivate {k : Rsa.PrivateKey} (sound : k.Sound) :
    PrivateHalf (some (.rsaPrivate k)) none (.rsaPrivate k)
  | rsaPublic {k : Rsa.PrivateKey} (sound : k.Sound) :
    PrivateHalf (some (.rsaPublic k.publicKey)) none (.rsaPrivate k)
  | eccPrivate (k : P256.SecretKey) : PrivateHalf (some (.eccPrivate k)) none (.eccPrivate k)
  | eccPublic {k : P256.SecretKey} {pub : P256.PublicKey} (half : k.publicKey? = some pub) :
    PrivateHalf (some (.eccPublic pub)) none (.eccPrivate k)
  | device (d : DeviceKey) : PrivateHalf none (some d) (.eccPrivate d.secret)

section Recovery

variable {header : Header} {trace : Trace}

/-- The content key of an image for an RSA key is the wrapped one. -/
lemma Wraps.recovers {k : Rsa.PrivateKey} (sound : k.Sound) {contentKey : Block 32} {wrapped : Block 384}
    (h : Wraps k.publicKey contentKey trace (.ok wrapped))
    (hslot : header.keySlot = (KeyBlob.rsa wrapped).toSlot) :
    recoverContentKey header (.rsaPrivate k) = .ok contentKey := by
  have hread : header.keyBlob .rsa3072 = .rsa wrapped := by
    rw [Header.keyBlob, hslot]
    rfl
  unfold recoverContentKey
  rw [show (KeyMaterial.rsaPrivate k).scheme = .rsa3072 from rfl, hread]
  exact Rsa.unwrap_of_wraps sound h

/-- The content key of an image for a point is derived from a secret that the sender agrees on. -/
lemma Agrees.recovers {k : P256.SecretKey} {recipient : P256.PublicKey} {device : Option DeviceKey}
    {est : Established} (half : k.publicKey? = some recipient) (h : Agrees recipient device trace (.ok est))
    (hslot : header.keySlot = est.keyBlob.toSlot) :
    recoverContentKey header (.eccPrivate k) = .ok est.contentKey := by
  cases h with
  | @agreed trace sender pub salt h hpub =>
    have hread : header.keyBlob .ecc256 = .ecc pub.raw salt := by
      rw [Header.keyBlob, hslot]
      exact KeyBlob.ofSlot_toSlot (.ecc pub.raw salt)
    unfold recoverContentKey
    rw [show (KeyMaterial.eccPrivate k).scheme = .ecc256 from rfl, hread]
    simp only [P256.decodePoint_raw, bind, Except.bind]
    rw [P256.SecretKey.agree_comm half hpub]
    rfl

/-- The private half recovers the content key that was established. -/
theorem Establishes.recovers {key : Option KeyMaterial} {options : SealOptions} {est : Established}
    {opener : KeyMaterial} (h : Establishes options key trace (.ok est))
    (hhalf : PrivateHalf key est.device opener) (hslot : header.keySlot = est.keyBlob.toSlot) :
    est.keyBlob.scheme = opener.scheme ∧ recoverContentKey header opener = .ok est.contentKey := by
  rcases h.cases_ok with ⟨k, recipient, contentKey, later, wrapped, rfl, hkey, wraps, -, rfl⟩ |
    ⟨k, recipient, rfl, hkey, agrees⟩ | ⟨first, second, device, recipient, rfl, -, -, hkey, agrees, -⟩
  · cases hhalf with
    | rsaPrivate sound | rsaPublic sound =>
      obtain rfl := Option.some.inj hkey
      exact ⟨rfl, wraps.recovers sound hslot⟩
    | eccPrivate k | eccPublic half => cases hkey
  · obtain ⟨hscheme, hdevice⟩ := agrees.spec
    rw [hdevice] at hhalf
    cases hhalf with
    | rsaPrivate sound | rsaPublic sound => cases hkey
    | eccPrivate k => exact ⟨hscheme, agrees.recovers hkey hslot⟩
    | eccPublic half =>
      obtain rfl := Option.some.inj hkey
      exact ⟨hscheme, agrees.recovers half hslot⟩
  · obtain ⟨hscheme, hdevice⟩ := agrees.spec
    rw [hdevice] at hhalf
    cases hhalf with
    | device d => exact ⟨hscheme, agrees.recovers hkey hslot⟩

/-- Under the RSA scheme the content key is what is drawn first. -/
lemma Establishes.starts_with_contentKey {key : KeyMaterial} {options : SealOptions} {est : Established}
    (h : Establishes options (some key) trace (.ok est)) (hscheme : key.scheme = .rsa3072) :
    ∃ behind, trace.octets = est.contentKey.octets ++ behind := by
  rcases h.cases_ok with ⟨k, recipient, contentKey, later, wrapped, -, -, -, rfl, rfl⟩ |
    ⟨k, recipient, hk, hkey, -⟩ | ⟨first, second, device, recipient, hnone, -⟩
  · exact ⟨_, rfl⟩
  · obtain rfl := Option.some.inj hk
    cases (KeyMaterial.scheme_of_eccRecipient? hkey).symm.trans hscheme
  · cases hnone

end Recovery

section RoundTrip

variable {payload : Octets} {key : Option KeyMaterial} {options : SealOptions} {container : Container}
  {scheme : Scheme} {device : Option DeviceKey} {trace : Trace}

/-- A sealed payload stands in an image for a content key that was established. -/
lemma Seals.spec (h : Seals payload key options trace (.ok (container, scheme, device))) :
    ∃ before est, Establishes options key before (.ok est) ∧
      trace.octets = before.octets ++ container.header.iv.octets ∧
      scheme = est.keyBlob.scheme ∧ device = est.device ∧ container.header.keySlot = est.keyBlob.toSlot ∧
      container.header.ciphertextLength.toNat = payload.length ∧
      container.ciphertext.length = payload.length ∧
      Aes.decrypt? est.contentKey container.header.iv container.ciphertext container.header.authTag =
        some payload := by
  cases h with
  | @sealed draws est iv tag ciphertext hfits prepares hsealed =>
    cases prepares with
    | @ready before _ _ h =>
      obtain ⟨hopen, hlen⟩ := Gcm.decrypt?_of_encrypt hsealed
      refine ⟨before, est, h, ?_, rfl, rfl, rfl, UInt32.toNat_ofNat_of_lt hfits, hlen, hopen⟩
      rw [Trace.octets_reported, Trace.octets_append, Trace.octets_drawn, Trace.octets_nil, List.append_nil,
        Established.image]

lemma Seals.opens (h : Seals payload key options trace (.ok (container, scheme, device))) :
    device.isSome = key.isNone ∧ ∀ opener, PrivateHalf key device opener →
      opener.scheme = scheme ∧ openOctets container.toOctets opener = .ok payload := by
  obtain ⟨before, est, hest, -, rfl, rfl, hslot, htold, hlen, hopen⟩ := h.spec
  refine ⟨hest.spec.2, fun opener hhalf => ?_⟩
  obtain ⟨hscheme, hrecover⟩ := hest.recovers hhalf hslot
  refine ⟨hscheme.symm, ?_⟩
  rw [openOctets_of_container opener (Container.ofOctets_toOctets container (htold.trans hlen.symm))]
  rw [openContainer_eq_decrypt? hrecover, hopen]
  rfl

/-- A successful encryption has read its payload and written one whole image of it. -/
lemma Encrypts.spec {source : Source} {summary : SealSummary} {sink sink' : Sink}
    (h : Encrypts source key options sink trace (.ok summary) sink') :
    ∃ payload draws container scheme device, source.readAll = .ok payload ∧
      Seals payload key options draws (.ok (container, scheme, device)) ∧ trace.octets = draws.octets ∧
      sink'.written = sink.written ++ container.toOctets ∧
      summary = ⟨scheme, payload.length, Layout.headerSize + payload.length, device⟩ := by
  cases h with
  | written hread seals hdone =>
    refine ⟨_, _, _, _, _, hread, seals, ?_, ((Sink.release_eq_none_iff _ _).mp hdone).1, rfl⟩
    rw [Trace.octets_append]
    exact List.append_nil _

end RoundTrip

/-- Decryption undoes encryption. Whenever an encryption for a key, or for a new device, succeeds, it has
written one image of the payload that it read, and the private half opens that image: decryption succeeds,
writes the payload, and reports the same scheme and the length of the payload. -/
theorem decrypt_encrypt {source : Source} {key : Option KeyMaterial} {options : SealOptions}
    {summary : SealSummary} {s s' : Session Sink}
    (h : (encrypt source key options).outcome s = some (.ok summary, s')) :
    summary.device.isSome = key.isNone ∧ ∃ payload image,
      source.readAll = .ok payload ∧ s'.store.written = s.store.written ++ image ∧
      ∀ opener, PrivateHalf key summary.device opener →
        ∀ (reader : Source) (t : Session Sink), reader.readAll = .ok image → t.store.Open →
          ∃ t', (decrypt reader opener).outcome t = some (.ok ⟨summary.scheme, payload.length⟩, t') ∧
            t'.store.written = t.store.written ++ payload := by
  obtain ⟨trace, hencrypts, -⟩ := encrypt_outcome_iff.mp h
  obtain ⟨payload, draws, container, scheme, device, hread, hseals, -, hwritten, rfl⟩ := hencrypts.spec
  obtain ⟨hdevice, hopens⟩ := hseals.opens
  refine ⟨hdevice, payload, container.toOctets, hread, hwritten, fun opener hhalf reader t hreader hopen => ?_⟩
  obtain ⟨rfl, hopened⟩ := hopens opener hhalf
  obtain ⟨t', hrun, hstore⟩ := decrypt_outcome_of_opened hreader hopened t
  obtain ⟨hnone, hreleased⟩ := Sink.release_of_open payload hopen
  rw [hnone] at hrun
  exact ⟨t', hrun, by rw [hstore, hreleased]⟩

section Sample

/-- A key with two primes that are easily certified. -/
def sampleKey : Rsa.PrivateKey where
  publicKey := ⟨(47 * 2 ^ 1483 + 1) * (109 * 2 ^ 1574 + 1), 3⟩
  exponent := (47 * 109 * 2 ^ 1574 + 1) / 3
  factor₁ := 47 * 2 ^ 1483 + 1
  factor₂ := 109 * 2 ^ 1574 + 1

def sampleCertificate : List Number.LucasRow :=
  [⟨sampleKey.factor₁, 3, [(2, 1483), (47, 1)]⟩, ⟨sampleKey.factor₂, 3, [(2, 1574), (109, 1)]⟩,
    ⟨109, 6, [(2, 2), (3, 3)]⟩, ⟨47, 5, [(2, 1), (23, 1)]⟩, ⟨23, 5, [(2, 1), (11, 1)]⟩,
    ⟨11, 2, [(2, 1), (5, 1)]⟩, ⟨5, 2, [(2, 2)]⟩, ⟨3, 2, [(2, 1)]⟩]

lemma sampleKey_sound : sampleKey.Sound := by
  have hprime := Number.prime_of_certifies sampleCertificate (by decide +kernel)
  refine ⟨hprime _ List.mem_cons_self, hprime _ (List.mem_cons_of_mem _ List.mem_cons_self), ?_, ?_, ?_⟩
  · decide +kernel
  · decide +kernel
  · unfold Nat.ModEq
    decide +kernel

lemma sampleKey_opens {device : Option DeviceKey} (h : device.isSome = false) :
    PrivateHalf (some (.rsaPublic sampleKey.publicKey)) device (.rsaPrivate sampleKey) := by
  rw [Option.isSome_eq_false_iff, Option.isNone_iff_eq_none] at h
  rw [h]
  exact .rsaPublic sampleKey_sound

def samplePayload : Octets :=
  "seventeen octets!".toUTF8.toList

/-- The encryption of the sample payload for the public half of the sample key, on an even tape. -/
def sampleOutcome : Option (Except Failure SealSummary × Session Sink) :=
  (encrypt (Source.ofOctets samplePayload) (some (.rsaPublic sampleKey.publicKey)) .standard).outcome
    ⟨List.replicate 397 7, [], Sink.perfect⟩

lemma sampleOutcome_ok : ∃ summary t, sampleOutcome = some (.ok summary, t) := by
  have hok : (sampleOutcome.any fun r => r.1.isOk) = true := by decide +kernel
  cases h : sampleOutcome with
  | none => simp [h] at hok
  | some r =>
    obtain ⟨result, t⟩ := r
    cases result with
    | error e => simp [h, Except.isOk, Except.toBool] at hok
    | ok summary => exact ⟨summary, t, rfl⟩

def sampleImage : Octets :=
  sampleOutcome.elim [] fun r => r.2.store.written

lemma sampleImage_sealed : ∃ draws container scheme device rest,
    Seals samplePayload (some (.rsaPublic sampleKey.publicKey)) .standard draws
        (.ok (container, scheme, device)) ∧
      List.replicate 397 7 = draws.octets ++ rest ∧ sampleImage = container.toOctets := by
  obtain ⟨summary, t, hok⟩ := sampleOutcome_ok
  obtain ⟨trace, hencrypts, htape, -⟩ := encrypt_outcome_iff.mp hok
  obtain ⟨payload, draws, container, scheme, device, hread, hseals, hdraws, hwritten, -⟩ := hencrypts.spec
  rw [Source.readAll_ofOctets] at hread
  obtain rfl := Except.ok.inj hread
  refine ⟨draws, container, scheme, device, t.tape, hseals, hdraws ▸ htape, ?_⟩
  rw [sampleImage, hok]
  exact hwritten

lemma sampleImage_opens : openOctets sampleImage (.rsaPrivate sampleKey) = .ok samplePayload := by
  obtain ⟨draws, container, scheme, device, rest, hseals, -, himage⟩ := sampleImage_sealed
  obtain ⟨hdevice, hopens⟩ := hseals.opens
  rw [himage]
  exact (hopens _ (sampleKey_opens hdevice)).2

/-- The content key of the sample is what the tape starts with. -/
lemma sampleImage_contentKey : ∃ container, Container.ofOctets sampleImage = .ok container ∧
    recoverContentKey container.header (.rsaPrivate sampleKey) = .ok (Block.replicate 32 7) ∧
    container.ciphertext.length = samplePayload.length := by
  obtain ⟨draws, container, scheme, device, rest, hseals, htape, himage⟩ := sampleImage_sealed
  obtain ⟨before, est, hest, hdraws, rfl, rfl, hslot, htold, hlen, -⟩ := hseals.spec
  refine ⟨container, ?_, ?_, hlen⟩
  · rw [himage]
    exact Container.ofOctets_toOctets container (htold.trans hlen.symm)
  · rw [(hest.recovers (sampleKey_opens hest.spec.2) hslot).2]
    rw [hdraws, List.append_assoc] at htape
    obtain ⟨behind, hkey⟩ := hest.starts_with_contentKey rfl
    rw [hkey, List.append_assoc] at htape
    have htake := congrArg (List.take 32) htape
    rw [List.take_left' est.contentKey.length_octets, List.take_replicate] at htake
    exact congrArg Except.ok (Block.ext htake.symm)

lemma sampleImage_decrypts : ∃ summary t,
    (decrypt (Source.ofOctets sampleImage) (.rsaPrivate sampleKey)).outcome ⟨[], [], Sink.perfect⟩ =
      some (.ok summary, t) := by
  obtain ⟨t, hrun, -⟩ := decrypt_outcome_of_opened (Source.readAll_ofOctets sampleImage) sampleImage_opens
    ⟨[], [], Sink.perfect⟩
  obtain ⟨hnone, -⟩ := Sink.release_of_open samplePayload Sink.perfect_open
  rw [hnone] at hrun
  exact ⟨_, t, hrun⟩

theorem decrypt_encrypt_sample :
    ∃ image summary t, (decrypt (Source.ofOctets image) (.rsaPrivate sampleKey)).outcome
        ⟨[], [], Sink.perfect⟩ = some (.ok summary, t) ∧ t.store.written = samplePayload := by
  obtain ⟨summary, s', hok⟩ := sampleOutcome_ok
  obtain ⟨hdevice, payload, image, hread, -, hopens⟩ := decrypt_encrypt hok
  obtain rfl : samplePayload = payload := by
    rw [Source.readAll_ofOctets] at hread
    exact Except.ok.inj hread
  obtain ⟨t', hrun, hwritten⟩ := hopens _ (sampleKey_opens hdevice) (Source.ofOctets image) ⟨[], [], Sink.perfect⟩
    (Source.readAll_ofOctets image) Sink.perfect_open
  exact ⟨image, _, t', hrun, hwritten⟩

end Sample

end SealedImage
