import Mathlib.Order.Bounds.Basic
import Mathlib.Tactic.Common
import SealedImage.Files.KeyPair
import SealedImage.Proofs.Calls

/-!
# The first seed in range

A new seed is the first of sixteen blocks of the tape whose scalar is in range. What stands before it is reported
and dropped (`DeviceKey.outcome_generateWith_of_refused`), and what stands behind it is not read. A given seed is
the only one that is tried. All of that holds for every derivation of scalars, so the actions that need a device
key are stated here with the derivation as a parameter; `DeviceKey.scalar` makes them those that run.
-/

namespace SealedImage

namespace DeviceKey

section Seeds

variable {σ : Type} (derive : Block 32 → Block 32)

/-- The scalar of a seed is that of a secret key. -/
def InRange (seed : Block 32) : Prop :=
  0 < (derive seed).toNat ∧ (derive seed).toNat < P256.order

instance (seed : Block 32) : Decidable (InRange derive seed) :=
  inferInstanceAs (Decidable (_ ∧ _))

variable {derive}

def ofInRange {seed : Block 32} (h : InRange derive seed) : DeviceKey :=
  ⟨seed, ⟨(derive seed).toNat, h.1, h.2⟩⟩

lemma ofSeedWith_of_inRange {seed : Block 32} (h : InRange derive seed) :
    ofSeedWith derive seed = .ok (ofInRange h) := by
  have hsecret : P256.SecretKey.ofNat? (derive seed).toNat = some ⟨(derive seed).toNat, h.1, h.2⟩ := dif_pos h
  rw [ofSeedWith, hsecret]
  rfl

lemma ofSeedWith_of_not_inRange {seed : Block 32} (h : ¬InRange derive seed) :
    ofSeedWith derive seed = .error (.keyMaterial .seedOutOfRange) := by
  have hsecret : P256.SecretKey.ofNat? (derive seed).toNat = none := dif_neg h
  rw [ofSeedWith, hsecret]

/-- One attempt: the next block of the tape is the seed, and its scalar settles what comes of it. -/
lemma outcome_generateFrom_succ (left : Nat) {s : Session σ} {seed : Block 32} {rest : Octets}
    (hdraw : Draw.block 32 s.tape = some (seed, rest)) :
    (generateFrom derive (left + 1)).outcome s = if h : InRange derive seed
      then some (.ok (ofInRange h), { s with tape := rest })
      else (generateFrom derive left).outcome
        ⟨rest, s.journal ++ [.seedRejected (maxAttempts - left)], s.store⟩ := by
  have hseed : (Action.draw (Draw.block 32)).outcome s = some (.ok seed, { s with tape := rest }) := by
    rw [Action.outcome_draw, hdraw, Option.map_some]
  rw [generateFrom, Action.outcome_bind_of_ok _ hseed]
  by_cases h : InRange derive seed
  · rw [dif_pos h, ofSeedWith_of_inRange h]
    rfl
  · rw [dif_neg h, ofSeedWith_of_not_inRange h]
    exact Action.outcome_report_bind _ _ _

/-- The next blocks of a tape, one for each attempt. -/
def Offers (tape : Octets) (seeds : Fin maxAttempts → Block 32) : Prop :=
  ∀ i : Fin maxAttempts, tape.slice ⟨32 * i, 32⟩ = (seeds i).octets

lemma Offers.block {tape : Octets} {seeds : Fin maxAttempts → Block 32} (h : Offers tape seeds)
    (i : Fin maxAttempts) :
    Draw.block 32 (tape.drop (32 * i)) = some (seeds i, tape.drop (32 * (i + 1))) := by
  rw [Draw.block_eq_some_iff, ← h i, Octets.slice, Nat.mul_succ, ← List.drop_drop]
  exact (List.take_append_drop 32 _).symm

variable {s : Session σ} {seeds : Fin maxAttempts → Block 32}

/-- The loop behind the seeds that are refused: their octets are read, and each of them has its report. The induction
is on how many there are, and the attempts that are left go down with it. -/
lemma outcome_generateWith_of_refused (h : Offers s.tape seeds) {count : Nat} (hcount : count ≤ maxAttempts)
    (hrefused : ∀ i : Fin maxAttempts, i < count → ¬InRange derive (seeds i)) :
    (generateWith derive).outcome s = (generateFrom derive (maxAttempts - count)).outcome
      ⟨s.tape.drop (32 * count), s.journal ++ (List.range' 1 count).map .seedRejected, s.store⟩ := by
  induction count with
  | zero =>
    rw [Nat.mul_zero, List.drop_zero, List.range'_zero, List.map_nil, List.append_nil]
    rfl
  | succ count ih =>
    have hlast : ¬InRange derive (seeds ⟨count, hcount⟩) := hrefused ⟨count, hcount⟩ (Nat.lt_succ_self count)
    have hleft : maxAttempts - count = maxAttempts - (count + 1) + 1 := by omega
    have hnumber : maxAttempts - (maxAttempts - (count + 1)) = 1 + count := by omega
    rw [ih (by omega) fun i hi => hrefused i (by omega), hleft,
      outcome_generateFrom_succ _ (h.block ⟨count, hcount⟩), dif_neg hlast, hnumber, List.range'_1_concat,
      List.map_append, List.append_assoc]
    rfl

/-- The loop ends at the first seed in range. -/
lemma outcome_generateWith_of_isLeast (h : Offers s.tape seeds) {i : Fin maxAttempts}
    (hi : IsLeast {j | InRange derive (seeds j)} i) :
    (generateWith derive).outcome s = some (.ok (ofInRange hi.1),
      ⟨s.tape.drop (32 * (i + 1)), s.journal ++ (List.range' 1 i).map .seedRejected, s.store⟩) := by
  have hrefused : ∀ j : Fin maxAttempts, j < i.val → ¬InRange derive (seeds j) := by
    intro j hj hrange
    exact absurd (hi.2 hrange) (Fin.not_le.mpr hj)
  have hrange : InRange derive (seeds i) := hi.1
  have hleft : maxAttempts - i = maxAttempts - (i + 1) + 1 := by omega
  rw [outcome_generateWith_of_refused h i.isLt.le hrefused, hleft, outcome_generateFrom_succ _ (h.block i),
    dif_pos hrange]

lemma outcome_generateWith_of_none (h : Offers s.tape seeds) (hnone : ∀ i, ¬InRange derive (seeds i)) :
    (generateWith derive).outcome s = some (.error (.crypto .noDeviceSeed),
      ⟨s.tape.drop (32 * maxAttempts), s.journal ++ (List.range' 1 maxAttempts).map .seedRejected, s.store⟩) := by
  rw [outcome_generateWith_of_refused h (Nat.le_refl _) fun i _ => hnone i, Nat.sub_self]
  rfl

end Seeds

/-- The device key of the given seed, or of a new one if none is given. -/
def makeWith {σ : Type} (derive : Block 32 → Block 32) (seed : Option (Block 32)) : Action σ DeviceKey :=
  match seed with
  | some seed => Action.ofExcept (ofSeedWith derive seed)
  | none => generateWith derive

end DeviceKey

section Derivation

variable {σ : Type} (derive : Block 32 → Block 32)

/-- A content key for a device that an action makes. -/
def establishDevice (fallback : Scheme) (make : Action σ DeviceKey) : Action σ Established := do
  Action.report (.establishing fallback false)
  match fallback with
  | .rsa3072 => throw (.keyMaterial .recipientRequired)
  | .ecc256 =>
    let device ← make
    Action.report .deviceGenerated
    Established.forEcc (← Established.recipient device.publicKey?) (some device)

/-- Encryption with the content key that an action establishes. -/
def encryptFrom (source : Source) (content : Action Sink Established) : Action Sink SealSummary := do
  let payload ← Action.ofIo source.readAll
  let length ← Action.ofExcept (payloadLengthField payload.length)
  let established ← content
  let iv ← Action.draw (Draw.block 16)
  let (tag, ciphertext) := (Aes.sealInPlace established.contentKey iv).outcome payload
  let authTag ← Action.ofExcept tag
  writeHeader ⟨established.keyBlob.toSlot, iv, length, authTag⟩
  Action.onStore (Sink.writeAll ciphertext)
  Action.onStore Sink.flush
  Action.report (.payloadEncrypted established.keyBlob.scheme payload.length)
  pure ⟨established.keyBlob.scheme, payload.length, Layout.headerSize + payload.length, established.device⟩

/-- Encryption without a key, for a given derivation of scalars. -/
def encryptDeviceWith (source : Source) (options : SealOptions) : Action Sink SealSummary :=
  encryptFrom source (establishDevice options.fallback (DeviceKey.makeWith derive options.deviceSeed))

/-- A key pair in files, for a given derivation of scalars. -/
def generateEccPairWith (media : Media) (directory : String) (seed : Option (Block 32)) :
    Action FileSystem KeyFiles :=
  DeviceKey.makeWith derive seed >>= Action.writeDeviceKeyOn media directory

lemma makeWith_scalar (options : SealOptions) :
    (DeviceKey.makeWith DeviceKey.scalar options.deviceSeed : Action σ DeviceKey) = Established.deviceKey options := by
  unfold Established.deviceKey
  cases options.deviceSeed <;> rfl

lemma establishDevice_scalar (options : SealOptions) :
    (establishDevice options.fallback (DeviceKey.makeWith DeviceKey.scalar options.deviceSeed) :
      Action σ Established) = establish none options := by
  rw [makeWith_scalar]
  unfold establish establishDevice
  simp only [Scheme.resolve]
  cases options.fallback <;> rfl

lemma encryptFrom_establish (source : Source) (key : Option KeyMaterial) (options : SealOptions) :
    encryptFrom source (establish key options) = encrypt source key options := by
  unfold encryptFrom encrypt sealPayload
  simp only [bind_assoc, pure_bind]

lemma encryptDeviceWith_scalar (source : Source) (options : SealOptions) :
    encryptDeviceWith DeviceKey.scalar source options = encrypt source none options := by
  rw [encryptDeviceWith, establishDevice_scalar, encryptFrom_establish]

lemma generateEccPairWith_scalar (media : Media) (directory : String) (seed : Option (Block 32)) :
    generateEccPairWith DeviceKey.scalar media directory seed = Action.generateEccPairOn media directory seed := by
  cases seed <;> rfl

end Derivation

section Refused

variable {σ : Type} {derive : Block 32 → Block 32} {seed : Block 32}

/-- What is said of a seed out of range: that there is no recipient, under a scheme that has no devices. -/
def KeyFault.ofUnfitSeed : Scheme → KeyFault
  | .rsa3072 => .recipientRequired
  | .ecc256 => .seedOutOfRange

lemma outcome_makeWith_of_refused (h : ¬DeviceKey.InRange derive seed) (s : Session σ) :
    (DeviceKey.makeWith derive (some seed)).outcome s = some (.error (.keyMaterial .seedOutOfRange), s) := by
  rw [DeviceKey.makeWith, DeviceKey.ofSeedWith_of_not_inRange h]
  rfl

lemma outcome_establishDevice_of_refused (h : ¬DeviceKey.InRange derive seed) (fallback : Scheme) (s : Session σ) :
    (establishDevice fallback (DeviceKey.makeWith derive (some seed))).outcome s =
      some (.error (.keyMaterial (KeyFault.ofUnfitSeed fallback)),
        { s with journal := s.journal ++ [.establishing fallback false] }) := by
  unfold establishDevice
  rw [Action.outcome_report_bind]
  cases fallback with
  | rsa3072 => rfl
  | ecc256 => exact Action.outcome_bind_of_error _ (outcome_makeWith_of_refused h _)

section EncryptFrom

variable {source : Source} {content : Action Sink Established} {s t : Session Sink}

lemma outcome_encryptFrom_of_fault {fault : IoFault} (hread : source.readAll = .error fault) :
    (encryptFrom source content).outcome s = some (.error (.io fault), s) := by
  unfold encryptFrom
  rw [hread]
  exact Action.outcome_bind_of_error _ rfl

lemma outcome_encryptFrom_of_long {payload : Octets} (hread : source.readAll = .ok payload)
    (hlong : UInt32.size ≤ payload.length) :
    (encryptFrom source content).outcome s = some (.error (.header (.payloadTooLong payload.length)), s) := by
  unfold encryptFrom
  rw [hread, Action.outcome_bind_of_ok _ rfl, payloadLengthField_of_le hlong]
  exact Action.outcome_bind_of_error _ rfl

/-- A content key that cannot be established ends the encryption. -/
lemma outcome_encryptFrom_of_content {payload : Octets} (hread : source.readAll = .ok payload)
    (hfits : payload.length < UInt32.size) {e : Failure} (hcontent : content.outcome s = some (.error e, t)) :
    (encryptFrom source content).outcome s = some (.error e, t) := by
  unfold encryptFrom
  rw [hread, Action.outcome_bind_of_ok _ rfl, payloadLengthField_of_lt hfits, Action.outcome_bind_of_ok _ rfl]
  exact Action.outcome_bind_of_error _ hcontent

end EncryptFrom

/-- An encryption without a key ends before it draws or writes anything, for the seed that it is given unless for
its payload. -/
structure RefusesSeed (derive : Block 32 → Block 32) (source : Source) (options : SealOptions) (s : Session Sink) :
    Prop where
  unread : ∀ fault, source.readAll = .error fault →
    (encryptDeviceWith derive source options).outcome s = some (.error (.io fault), s)
  tooLong : ∀ payload, source.readAll = .ok payload → UInt32.size ≤ payload.length →
    (encryptDeviceWith derive source options).outcome s =
      some (.error (.header (.payloadTooLong payload.length)), s)
  refused : ∀ payload, source.readAll = .ok payload → payload.length < UInt32.size →
    (encryptDeviceWith derive source options).outcome s =
      some (.error (.keyMaterial (KeyFault.ofUnfitSeed options.fallback)),
        { s with journal := s.journal ++ [.establishing options.fallback false] })

lemma refusesSeed {options : SealOptions} (h : ¬DeviceKey.InRange derive seed)
    (hseed : options.deviceSeed = some seed) (source : Source) (s : Session Sink) :
    RefusesSeed derive source options s := by
  have hdevice := outcome_establishDevice_of_refused h options.fallback s
  rw [← hseed] at hdevice
  exact ⟨fun fault hread => outcome_encryptFrom_of_fault hread, fun payload hread hlong =>
    outcome_encryptFrom_of_long hread hlong, fun payload hread hfits =>
    outcome_encryptFrom_of_content hread hfits hdevice⟩

end Refused

/-- A new device key has the first seed in range among the next sixteen blocks of the tape, together with the scalar
of that seed. The blocks before it are read and reported under their numbers, and what stands behind it is left
unread; without a seed in range there is no key, and all sixteen are read. A given seed is not redrawn: out of
range, it is a fault of the key wherever it is given, and nothing is drawn or written. This holds for every
derivation of scalars, and the actions that run are those of `scalar`. -/
theorem DeviceKey.first_seed_in_range (derive : Block 32 → Block 32) :
    (∀ (σ : Type) (s : Session σ) (seeds : Fin 16 → Block 32), Offers s.tape seeds →
      (∀ i, IsLeast {j | InRange derive (seeds j)} i → ∃ device : DeviceKey, device.seed = seeds i ∧
        device.secret.scalar = (derive (seeds i)).toNat ∧
        (generateWith derive).outcome s = some (.ok device,
          ⟨s.tape.drop (32 * (i + 1)), s.journal ++ (List.range' 1 i).map .seedRejected, s.store⟩)) ∧
      ((∀ i, ¬InRange derive (seeds i)) → (generateWith derive).outcome s = some (.error (.crypto .noDeviceSeed),
        ⟨s.tape.drop 512, s.journal ++ (List.range' 1 16).map .seedRejected, s.store⟩))) ∧
    (∀ seed, ¬InRange derive seed → ofSeedWith derive seed = .error (.keyMaterial .seedOutOfRange) ∧
      (∀ media directory s, (generateEccPairWith derive media directory (some seed)).outcome s =
        some (.error (.keyMaterial .seedOutOfRange), s)) ∧
      ∀ source options s, options.deviceSeed = some seed → RefusesSeed derive source options s) ∧
    (∀ σ : Type, (generateWith scalar : Action σ DeviceKey) = generate) ∧
    (∀ seed, ofSeedWith scalar seed = ofSeed seed) ∧
    (∀ media directory seed,
      generateEccPairWith scalar media directory seed = Action.generateEccPairOn media directory seed) ∧
    ∀ source options, encryptDeviceWith scalar source options = encrypt source none options := by
  refine ⟨fun σ s seeds hoffers => ?_, fun seed hseed => ?_, fun σ => rfl, fun seed => rfl,
    generateEccPairWith_scalar, encryptDeviceWith_scalar⟩
  · constructor
    · intro i hi
      exact ⟨ofInRange hi.1, rfl, rfl, outcome_generateWith_of_isLeast hoffers hi⟩
    · intro hnone
      exact outcome_generateWith_of_none hoffers hnone
  · refine ⟨ofSeedWith_of_not_inRange hseed, fun media directory s => ?_, fun source options s hgiven => ?_⟩
    · exact Action.outcome_bind_of_error _ (outcome_makeWith_of_refused hseed s)
    · exact refusesSeed hseed hgiven source s

/-- Zero, what is far beyond the order, and the order itself are refused before the largest scalar is accepted. -/
def sampleSeeds (i : Fin 16) : Block 32 :=
  if i = 1 then Block.replicate 32 255
  else if i = 2 then Block.ofNat 32 P256.order
  else if i = 3 then Block.ofNat 32 (P256.order - 1)
  else Block.replicate 32 0

def sampleSeedTape : Octets :=
  (List.ofFn sampleSeeds).flatMap (·.octets) ++ [1, 2, 3]

lemma sampleSeeds_isLeast : IsLeast {j | DeviceKey.InRange id (sampleSeeds j)} 3 := by
  have hlow : ∀ j : Fin 16, DeviceKey.InRange id (sampleSeeds j) → 3 ≤ j := by decide +kernel
  exact ⟨by decide +kernel, hlow⟩

theorem DeviceKey.first_seed_in_range_sample :
    (∃ device : DeviceKey, device.seed = Block.ofNat 32 (P256.order - 1) ∧
      device.secret.scalar = P256.order - 1 ∧
      (generateWith id).outcome ⟨sampleSeedTape, [], ()⟩ = some (.ok device, ⟨sampleSeedTape.drop 128,
        [.seedRejected 1, .seedRejected 2, .seedRejected 3], ()⟩)) ∧
    (generateWith id).outcome ⟨List.replicate 515 255, [], ()⟩ = some (.error (.crypto .noDeviceSeed),
      ⟨[255, 255, 255], (List.range' 1 16).map .seedRejected, ()⟩) ∧
    (generateEccPairWith id .perfect "keys" (some (Block.replicate 32 0))).outcome ⟨[1], [], FileSystem.empty⟩ =
      some (.error (.keyMaterial .seedOutOfRange), ⟨[1], [], FileSystem.empty⟩) ∧
    (encryptDeviceWith id (Source.ofOctets [1, 2, 3]) ⟨.ecc256, some (Block.replicate 32 0)⟩).outcome
      ⟨[1], [], Sink.perfect⟩ = some (.error (.keyMaterial .seedOutOfRange),
        ⟨[1], [.establishing .ecc256 false], Sink.perfect⟩) := by
  obtain ⟨hdraws, hgiven, -⟩ := first_seed_in_range id
  have hzero : ¬InRange id (Block.replicate 32 0) := by decide +kernel
  obtain ⟨-, hpair, hencrypt⟩ := hgiven _ hzero
  refine ⟨?_, ?_, hpair _ _ _, ?_⟩
  · have hoffers : ∀ i : Fin 16, sampleSeedTape.slice ⟨32 * i, 32⟩ = (sampleSeeds i).octets := by decide +kernel
    obtain ⟨device, hseed, hscalar, hrun⟩ := (hdraws Unit ⟨sampleSeedTape, [], ()⟩ sampleSeeds hoffers).1 3
      sampleSeeds_isLeast
    exact ⟨device, hseed, hscalar.trans (by decide +kernel), hrun⟩
  · have hoffers : ∀ i : Fin 16, Octets.slice (List.replicate 515 255) ⟨32 * i, 32⟩ =
        (Block.replicate 32 255).octets := by decide +kernel
    have hnone : ¬InRange id (Block.replicate 32 255) := by decide +kernel
    have hrest : (List.replicate 515 (255 : UInt8)).drop 512 = [255, 255, 255] := List.drop_replicate
    have hrun := (hdraws Unit ⟨List.replicate 515 255, [], ()⟩ _ hoffers).2 fun _ => hnone
    rwa [hrest] at hrun
  · exact (hencrypt (Source.ofOctets [1, 2, 3]) _ ⟨[1], [], Sink.perfect⟩ rfl).refused _ rfl (by decide)

end SealedImage
