import Mathlib.Tactic.Common
import SealedImage.Proofs.RoundTrip
import SealedImage.Proofs.Slots

/-!
# Every image is canonical

An encryption that succeeds has written one image, in the one form in which its fields can be written: the
octets without meaning are zeros, in the header as well as behind a point and a salt. The summary of the
encryption, which is put together apart from the image, says the same as the image and as the key.
-/

namespace SealedImage

/-- The secret of a device is the one of its seed, and the seed is the given one if there is one. -/
structure DeviceKey.MadeFor (device : DeviceKey) (options : SealOptions) : Prop where
  ofSeed : DeviceKey.ofSeed device.seed = .ok device
  given : ∀ seed, options.deviceSeed = some seed → device.seed = seed

/-- A summary agrees with the key and the options that an image was made with. -/
structure SealSummary.SuitsKey (summary : SealSummary) (key : Option KeyMaterial) (options : SealOptions) :
    Prop where
  resolved : summary.scheme = Scheme.resolve key options.fallback
  ofKey : ∀ k, key = some k → summary.scheme = k.scheme
  device_iff : summary.device.isSome ↔ key = none
  device : ∀ device, summary.device = some device → device.MadeFor options

/-- An image is written in its one form, and a summary agrees with it and with the payload. -/
structure SealSummary.SuitsImage (summary : SealSummary) (payload image : Octets) (container : Container) :
    Prop where
  read : Container.ofOctets image = .ok container
  header : container.header.toOctets = image.take Layout.headerSize
  reserved : image.slice Layout.reserved = List.replicate Layout.reserved.size 0
  slot : (container.header.keyBlob summary.scheme).toSlot = container.header.keySlot
  padding : summary.scheme = .ecc256 → container.header.keySlot.octets.drop 96 = List.replicate 288 0
  told : container.header.ciphertextLength.toNat = payload.length
  ciphertext : container.ciphertext.length = payload.length
  payloadLength : summary.payloadLength = payload.length
  containerLength : summary.containerLength = image.length

section Canonical

variable {trace : Trace} {options : SealOptions} {key : Option KeyMaterial} {device : DeviceKey}
  {est : Established}

lemma MakesDevice.madeFor (h : MakesDevice options trace (.ok device)) : device.MadeFor options := by
  generalize hr : Except.ok device = r at h
  cases h with
  | given h =>
    have hseed := DeviceKey.seed_of_ofSeedWith hr.symm
    refine ⟨by rw [hseed, hr], fun seed hgiven => ?_⟩
    rw [h] at hgiven
    rw [hseed, Option.some.inj hgiven]
  | drawn h attempts =>
    subst hr
    exact ⟨attempts.ofSeedWith, fun seed hseed => by simp [h] at hseed⟩

lemma Establishes.madeFor (h : Establishes options key trace (.ok est)) (hdevice : est.device = some device) :
    device.MadeFor options := by
  rcases h.cases_ok with ⟨k, recipient, contentKey, later, wrapped, -, -, -, -, rfl⟩ |
    ⟨k, recipient, -, -, agrees⟩ | ⟨first, second, made, recipient, -, -, makes, -, agrees, -⟩
  · cases hdevice
  · rw [agrees.spec.2] at hdevice
    cases hdevice
  · rw [agrees.spec.2] at hdevice
    obtain rfl := Option.some.inj hdevice
    exact makes.madeFor

/-- An image that is sealed suits its summary. -/
lemma Seals.suits {payload : Octets} {container : Container} {scheme : Scheme} {made : Option DeviceKey}
    (h : Seals payload key options trace (.ok (container, scheme, made))) :
    SealSummary.SuitsImage ⟨scheme, payload.length, Layout.headerSize + payload.length, made⟩ payload
        container.toOctets container ∧
      SealSummary.SuitsKey ⟨scheme, payload.length, Layout.headerSize + payload.length, made⟩ key options := by
  obtain ⟨before, est, hest, -, rfl, rfl, hslot, htold, hlen, -⟩ := h.spec
  obtain ⟨hscheme, hdevice⟩ := hest.spec
  refine ⟨⟨?_, ?_, ?_, ?_, ?_, htold, hlen, rfl, ?_⟩, ⟨hscheme, ?_, ?_, fun device hmade => hest.madeFor hmade⟩⟩
  · exact Container.ofOctets_toOctets container (htold.trans hlen.symm)
  · exact (List.take_left' (Header.length_toOctets _)).symm
  · exact Header.slice_reserved _ _
  · rw [Header.keyBlob, hslot, KeyBlob.ofSlot_toSlot]
  · intro hecc
    rw [hslot]
    exact KeyBlob.padding_toSlot hecc
  · rw [Container.toOctets, List.length_append, Header.length_toOctets, hlen]
  · rintro k rfl
    exact hscheme
  · rw [hdevice, Option.isNone_iff_eq_none]

/-- Every encryption that succeeds has written one image in its canonical form, and its summary agrees with
the payload, the image, the key and the options. -/
theorem encrypt_canonical {source : Source} {summary : SealSummary} {s t : Session Sink}
    (h : (encrypt source key options).outcome s = some (.ok summary, t)) :
    ∃ payload image container, source.readAll = .ok payload ∧ t.store.written = s.store.written ++ image ∧
      summary.SuitsImage payload image container ∧ summary.SuitsKey key options := by
  obtain ⟨trace, hencrypts, -⟩ := encrypt_outcome_iff.mp h
  obtain ⟨payload, draws, container, scheme, device, hread, hseals, -, hwritten, rfl⟩ := hencrypts.spec
  exact ⟨payload, container.toOctets, container, hread, hwritten, hseals.suits⟩

end Canonical

theorem encrypt_canonical_sample : ∃ summary t container, sampleOutcome = some (.ok summary, t) ∧
    summary.SuitsImage samplePayload t.store.written container ∧ summary.scheme = .rsa3072 := by
  obtain ⟨summary, t, hok⟩ := sampleOutcome_ok
  obtain ⟨payload, image, container, hread, hwritten, himage, hkey⟩ := encrypt_canonical hok
  rw [Source.readAll_ofOctets] at hread
  obtain rfl := Except.ok.inj hread
  refine ⟨summary, t, container, hok, ?_, hkey.resolved⟩
  rw [show t.store.written = image from hwritten]
  exact himage

end SealedImage
