import Mathlib.Tactic.Common
import SealedImage.Proofs.Draws
import SealedImage.Proofs.InPlace
import SealedImage.Sealing.Encrypt

/-!
# What sealing draws and reports

Before a payload is sealed, a content key is established and an initialization vector drawn. The relations of
this module say what each of these steps reads from the tape, what it reports and what it makes of that, and
the specifications say that this is all that the step does. None of it asks for the payload.
-/

namespace SealedImage

/-- Seeds that are refused, each with a report, until one is accepted or no attempts are left. -/
inductive SeedAttempts (derive : Block 32 → Block 32) : Nat → Trace → Except Failure DeviceKey → Prop
  | exhausted : SeedAttempts derive 0 [] (.error (.crypto .noDeviceSeed))
  | accepted {left : Nat} {seed : Block 32} {key : DeviceKey} (h : DeviceKey.ofSeedWith derive seed = .ok key) :
    SeedAttempts derive (left + 1) [.drawn .deviceSeed seed] (.ok key)
  | refused {left : Nat} {seed : Block 32} {e : Failure} {trace : Trace} {r : Except Failure DeviceKey}
      (h : DeviceKey.ofSeedWith derive seed = .error e) (later : SeedAttempts derive left trace r) :
    SeedAttempts derive (left + 1)
      (.drawn .deviceSeed seed :: .reported (.seedRejected (DeviceKey.maxAttempts - left)) :: trace) r

/-- The device key of the given seed, for which nothing is drawn, or of a new one. -/
inductive MakesDevice (options : SealOptions) : Trace → Except Failure DeviceKey → Prop
  | given {seed : Block 32} (h : options.deviceSeed = some seed) : MakesDevice options [] (DeviceKey.ofSeed seed)
  | drawn {trace : Trace} {r : Except Failure DeviceKey} (h : options.deviceSeed = none)
      (attempts : SeedAttempts DeviceKey.scalar DeviceKey.maxAttempts trace r) : MakesDevice options trace r

/-- The scalar of a sender, and a salt behind it. -/
inductive Agrees (recipient : P256.PublicKey) (device : Option DeviceKey) :
    Trace → Except Failure Established → Prop
  | infinite {trace : Trace} {sender : P256.SecretKey}
      (h : Attempts .scalar (fun b : Block 32 => P256.SecretKey.ofNat? b.toNat) trace sender)
      (hpoint : sender.publicKey? = none) : Agrees recipient device trace (.error (.crypto .pointEncoding))
  | agreed {trace : Trace} {sender : P256.SecretKey} {pub : P256.PublicKey} {salt : Block 32}
      (h : Attempts .scalar (fun b : Block 32 => P256.SecretKey.ofNat? b.toNat) trace sender)
      (hpub : sender.publicKey? = some pub) :
    Agrees recipient device (trace ++ [.drawn .salt salt])
      (.ok ⟨contentKey (sender.agree recipient) salt, .ecc pub.raw salt, device⟩)

/-- A content key for the owner of a key, or for a device if there is none. -/
inductive Establishes (options : SealOptions) : Option KeyMaterial → Trace → Except Failure Established → Prop
  | rsa {key : KeyMaterial} {recipient : Rsa.PublicKey} {contentKey : Block 32} {trace : Trace}
      {r : Except Failure (Block 384)} (hkey : key.rsaRecipient? = some recipient)
      (wraps : Wraps recipient contentKey trace r) :
    Establishes options (some key) (.drawn .contentKey contentKey :: trace)
      (r.map fun wrapped => ⟨contentKey, .rsa wrapped, none⟩)
  | ecc {key : KeyMaterial} {recipient : P256.PublicKey} {trace : Trace} {r : Except Failure Established}
      (hkey : key.eccRecipient? = some recipient) (agrees : Agrees recipient none trace r) :
    Establishes options (some key) trace r
  | infinite {key : KeyMaterial} (hscheme : key.scheme = .ecc256) (hkey : key.eccRecipient? = none) :
    Establishes options (some key) [] (.error (.keyMaterial .p256KeyRequired))
  | noRecipient (hfallback : options.fallback = .rsa3072) :
    Establishes options none [] (.error (.keyMaterial .recipientRequired))
  | noDevice {trace : Trace} {e : Failure} (hfallback : options.fallback = .ecc256)
      (makes : MakesDevice options trace (.error e)) : Establishes options none trace (.error e)
  | infiniteDevice {trace : Trace} {device : DeviceKey} (hfallback : options.fallback = .ecc256)
      (makes : MakesDevice options trace (.ok device)) (hkey : device.publicKey? = none) :
    Establishes options none (trace ++ [.reported .deviceGenerated]) (.error (.keyMaterial .p256KeyRequired))
  | device {first second : Trace} {device : DeviceKey} {recipient : P256.PublicKey}
      {r : Except Failure Established} (hfallback : options.fallback = .ecc256)
      (makes : MakesDevice options first (.ok device)) (hkey : device.publicKey? = some recipient)
      (agrees : Agrees recipient (some device) second r) :
    Establishes options none (first ++ .reported .deviceGenerated :: second) r

/-- A content key, and an initialization vector that is drawn last. -/
inductive Prepares (key : Option KeyMaterial) (options : SealOptions) :
    Trace → Except Failure (Established × Block 16) → Prop
  | refused {trace : Trace} {e : Failure} (h : Establishes options key trace (.error e)) :
    Prepares key options (.reported (.establishing (Scheme.resolve key options.fallback) key.isSome) :: trace)
      (.error e)
  | ready {trace : Trace} {est : Established} {iv : Block 16} (h : Establishes options key trace (.ok est)) :
    Prepares key options (.reported (.establishing (Scheme.resolve key options.fallback) key.isSome) ::
      (trace ++ [.drawn .iv iv])) (.ok (est, iv))

/-- The image of a payload whose ciphertext and tag are given. -/
def Established.image (est : Established) (iv : Block 16) (payload ciphertext : Octets) (tag : Block 16) :
    Container :=
  ⟨⟨est.keyBlob.toSlot, iv, UInt32.ofNat payload.length, tag⟩, ciphertext⟩

/-- The image of a payload that is not too long, for what was prepared. -/
inductive Seals (payload : Octets) (key : Option KeyMaterial) (options : SealOptions) :
    Trace → Except Failure (Container × Scheme × Option DeviceKey) → Prop
  | tooLong (h : UInt32.size ≤ payload.length) :
    Seals payload key options [] (.error (.header (.payloadTooLong payload.length)))
  | refused {trace : Trace} {e : Failure} (h : payload.length < UInt32.size)
      (prepares : Prepares key options trace (.error e)) : Seals payload key options trace (.error e)
  | sealed {trace : Trace} {est : Established} {iv tag : Block 16} {ciphertext : Octets}
      (h : payload.length < UInt32.size) (prepares : Prepares key options trace (.ok (est, iv)))
      (hsealed : Aes.encrypt est.contentKey iv payload = some (ciphertext, tag)) :
    Seals payload key options trace
      (.ok (est.image iv payload ciphertext tag, est.keyBlob.scheme, est.device))

variable {σ : Type}

namespace DeviceKey

lemma seed_of_ofSeedWith {derive : Block 32 → Block 32} {seed : Block 32} {device : DeviceKey}
    (h : ofSeedWith derive seed = .ok device) : device.seed = seed := by
  unfold ofSeedWith at h
  split at h
  · rw [← Except.ok.inj h]
  · cases h

lemma error_of_ofSeedWith {derive : Block 32 → Block 32} {seed : Block 32} {e : Failure}
    (h : ofSeedWith derive seed = .error e) : e = .keyMaterial .seedOutOfRange := by
  unfold ofSeedWith at h
  split at h
  · cases h
  · exact (Except.error.inj h).symm

/-- A drawn seed is accepted, or it is refused and the attempts that are left go on. -/
lemma attempt_behaves {derive : Block 32 → Block 32} {left : Nat}
    (hleft : (generateFrom derive left : Action σ DeviceKey).Behaves (SeedAttempts derive left)) (seed : Block 32) :
    (match ofSeedWith derive seed with
      | .ok key => pure key
      | .error (.keyMaterial _) => do
        Action.report (.seedRejected (maxAttempts - left))
        generateFrom derive left
      | .error e => throw e : Action σ DeviceKey).Behaves fun trace r =>
      (∃ key, ofSeedWith derive seed = .ok key ∧ trace = [] ∧ r = .ok key) ∨
        ∃ e later, ofSeedWith derive seed = .error e ∧ SeedAttempts derive left later r ∧
          trace = .reported (.seedRejected (maxAttempts - left)) :: later := by
  cases hseed : ofSeedWith derive seed with
  | ok key =>
    refine (Action.behaves_pure key).congr fun trace r => ?_
    simp
  | error e =>
    -- there is no other failure, so no attempt ends the loop early
    obtain rfl := error_of_ofSeedWith hseed
    refine (Action.behaves_report_bind _ hleft).congr fun trace r => ?_
    simp

theorem generateFrom_behaves (derive : Block 32 → Block 32) (left : Nat) :
    (generateFrom derive left : Action σ DeviceKey).Behaves (SeedAttempts derive left) := by
  induction left with
  | zero =>
    refine (Action.behaves_throw _).congr fun trace r => ⟨?_, fun h => ?_⟩
    · rintro ⟨rfl, rfl⟩
      exact .exhausted
    · cases h
      exact ⟨rfl, rfl⟩
  | succ left ih =>
    refine (Action.behaves_draw_bind (Draw.block_reads .deviceSeed) (attempt_behaves ih)).congr
      fun trace r => ⟨?_, fun h => ?_⟩
    · rintro ⟨seed, first, second, rfl, ⟨key, hseed, rfl, rfl⟩ | ⟨e, later, hseed, hlater, rfl⟩, rfl⟩
      · exact .accepted hseed
      · exact .refused hseed hlater
    · cases h with
      | accepted h => exact ⟨_, _, _, rfl, Or.inl ⟨_, h, rfl, rfl⟩, rfl⟩
      | refused h later => exact ⟨_, _, _, rfl, Or.inr ⟨_, _, h, later, rfl⟩, rfl⟩

end DeviceKey

namespace Established

lemma deviceKey_behaves (options : SealOptions) :
    (deviceKey options : Action σ DeviceKey).Behaves (MakesDevice options) := by
  cases hseed : options.deviceSeed with
  | some seed =>
    have heq : (deviceKey options : Action σ DeviceKey) = Action.ofExcept (DeviceKey.ofSeed seed) := by
      rw [deviceKey, hseed]
    rw [heq]
    refine (Action.behaves_ofExcept _).congr fun trace r => ⟨?_, fun h => ?_⟩
    · rintro ⟨rfl, hr⟩
      rw [hr]
      exact .given hseed
    · cases h with
      | given h =>
        rw [hseed] at h
        rw [Option.some.inj h]
        exact ⟨rfl, rfl⟩
      | drawn h attempts => simp [hseed] at h
  | none =>
    have heq : (deviceKey options : Action σ DeviceKey) =
        DeviceKey.generateFrom DeviceKey.scalar DeviceKey.maxAttempts := by
      rw [deviceKey, hseed]
      rfl
    rw [heq]
    refine (DeviceKey.generateFrom_behaves _ _).congr fun trace r => ⟨.drawn hseed, fun h => ?_⟩
    cases h with
    | given h => simp [hseed] at h
    | drawn h attempts => exact attempts

theorem forEcc_behaves (recipient : P256.PublicKey) (device : Option DeviceKey) :
    (forEcc recipient device : Action σ Established).Behaves (Agrees recipient device) := by
  have hsalt (pair : Block 64 × Block 32) : (do
      let salt ← Action.draw (Draw.block 32)
      pure ⟨SealedImage.contentKey pair.2 salt, .ecc pair.1 salt, device⟩ : Action σ Established).Behaves _ :=
    Action.behaves_draw_bind (Draw.block_reads .salt) fun salt => Action.behaves_pure _
  refine ((P256.agreeEphemeral_behaves recipient).bind hsalt).congr fun trace r => ⟨fun h => ?_, fun h => ?_⟩
  · cases h with
    | failed h =>
      obtain ⟨sender, hsender, he⟩ := h
      cases hpub : sender.publicKey? with
      | none =>
        rw [hpub] at he
        obtain rfl := Except.error.inj he
        exact .infinite hsender hpub
      | some pub => simp [hpub] at he
    | passed first second =>
      obtain ⟨sender, hsender, hpair⟩ := first
      obtain ⟨salt, _, _, rfl, ⟨rfl, rfl⟩, rfl⟩ := second
      cases hpub : sender.publicKey? with
      | none => simp [hpub] at hpair
      | some pub =>
        rw [hpub] at hpair
        obtain rfl := Except.ok.inj hpair
        exact .agreed hsender hpub
  · cases h with
    | infinite h hpoint => exact .failed ⟨_, h, by rw [hpoint]; rfl⟩
    | @agreed trace sender pub salt h hpub =>
      exact Action.Then.passed (a := (pub.raw, sender.agree recipient)) ⟨sender, h, by rw [hpub]; rfl⟩
        ⟨salt, _, [], rfl, ⟨rfl, rfl⟩, rfl⟩

theorem forRsa_behaves (recipient : Rsa.PublicKey) :
    (forRsa recipient : Action σ Established).Behaves fun trace r => ∃ contentKey later r',
      Wraps recipient contentKey later r' ∧ trace = .drawn .contentKey contentKey :: later ∧
        r = r'.map fun wrapped => ⟨contentKey, .rsa wrapped, none⟩ := by
  have hwrap (key : Block 32) : (do
      let wrapped ← Rsa.wrap recipient key
      pure ⟨key, .rsa wrapped, none⟩ : Action σ Established).Behaves _ :=
    (Rsa.wrap_behaves recipient key).map fun wrapped => Established.mk key (.rsa wrapped) none
  refine (Action.behaves_draw_bind (Draw.block_reads .contentKey) hwrap).congr fun trace r => ?_
  constructor
  · rintro ⟨key, first, second, rfl, ⟨r', hr', rfl⟩, rfl⟩
    exact ⟨key, second, r', hr', rfl, rfl⟩
  · rintro ⟨key, later, r', hr', rfl, rfl⟩
    exact ⟨key, _, later, rfl, ⟨r', hr', rfl⟩, rfl⟩

/-- A recipient without a public key is no recipient. -/
lemma recipient_forEcc_behaves (key : Option P256.PublicKey) (device : Option DeviceKey) :
    (do forEcc (← recipient key) device : Action σ Established).Behaves fun trace r =>
      (∃ recipient, key = some recipient ∧ Agrees recipient device trace r) ∨
        key = none ∧ trace = [] ∧ r = .error (.keyMaterial .p256KeyRequired) := by
  cases key with
  | none => exact (Action.behaves_throw_bind _ _).congr fun trace r => by simp
  | some key => exact (Action.behaves_pure_bind key (forEcc_behaves key device)).congr fun trace r => by simp

variable {options : SealOptions} {key : KeyMaterial}

lemma forRsa_establishes {recipient : Rsa.PublicKey} (hkey : key.rsaRecipient? = some recipient) :
    (forRsa recipient : Action σ Established).Behaves (Establishes options (some key)) := by
  refine (forRsa_behaves recipient).congr fun trace r => ⟨?_, fun h => ?_⟩
  · rintro ⟨contentKey, later, r', hwraps, rfl, rfl⟩
    exact .rsa hkey hwraps
  · cases h with
    | rsa hkey' wraps =>
      rw [hkey] at hkey'
      obtain rfl := Option.some.inj hkey'
      exact ⟨_, _, _, wraps, rfl, rfl⟩
    | ecc hkey' agrees => cases key <;> simp_all [KeyMaterial.rsaRecipient?, KeyMaterial.eccRecipient?]
    | infinite hscheme hkey' => cases key <;> cases hscheme <;> cases hkey

lemma forEcc_establishes (hscheme : key.scheme = .ecc256) :
    (do forEcc (← recipient key.eccRecipient?) none : Action σ Established).Behaves
      (Establishes options (some key)) := by
  refine (recipient_forEcc_behaves key.eccRecipient? none).congr fun trace r => ⟨?_, fun h => ?_⟩
  · rintro (⟨recipient, hkey, hagrees⟩ | ⟨hkey, rfl, rfl⟩)
    · exact .ecc hkey hagrees
    · exact .infinite hscheme hkey
  · cases h with
    | rsa hkey' wraps => cases key <;> cases hscheme <;> cases hkey'
    | ecc hkey' agrees => exact Or.inl ⟨_, hkey', agrees⟩
    | infinite hscheme hkey' => exact Or.inr ⟨hkey', rfl, rfl⟩

lemma forDevice_establishes (hfallback : options.fallback = .ecc256) :
    (do
      let device ← deviceKey options
      Action.report .deviceGenerated
      forEcc (← recipient device.publicKey?) (some device) : Action σ Established).Behaves
        (Establishes options none) := by
  have hrest (device : DeviceKey) : (do
      Action.report .deviceGenerated
      forEcc (← recipient device.publicKey?) (some device) : Action σ Established).Behaves _ :=
    Action.behaves_report_bind .deviceGenerated (recipient_forEcc_behaves device.publicKey? (some device))
  refine ((deviceKey_behaves options).bind hrest).congr fun trace r => ⟨fun h => ?_, fun h => ?_⟩
  · cases h with
    | failed h => exact .noDevice hfallback h
    | passed first second =>
      obtain ⟨later, ⟨recipient, hkey, hagrees⟩ | ⟨hkey, rfl, rfl⟩, rfl⟩ := second
      · exact .device hfallback first hkey hagrees
      · exact .infiniteDevice hfallback first hkey
  · cases h with
    | noRecipient hfallback' => simp [hfallback] at hfallback'
    | noDevice hfallback makes => exact .failed makes
    | infiniteDevice hfallback makes hkey => exact .passed makes ⟨_, Or.inr ⟨hkey, rfl, rfl⟩, rfl⟩
    | device hfallback makes hkey agrees => exact .passed makes ⟨_, Or.inl ⟨_, hkey, agrees⟩, rfl⟩

lemma noRecipient_establishes (hfallback : options.fallback = .rsa3072) :
    (throw (.keyMaterial .recipientRequired) : Action σ Established).Behaves (Establishes options none) := by
  refine (Action.behaves_throw _).congr fun trace r => ⟨?_, fun h => ?_⟩
  · rintro ⟨rfl, rfl⟩
    exact .noRecipient hfallback
  · cases h <;> simp_all

end Established

/-- Establishing a content key is reported first. -/
theorem establish_behaves (key : Option KeyMaterial) (options : SealOptions) :
    (establish key options : Action σ Established).Behaves fun trace r =>
      ∃ later, Establishes options key later r ∧
        trace = .reported (.establishing (Scheme.resolve key options.fallback) key.isSome) :: later := by
  refine Action.behaves_report_bind _ ?_
  cases key with
  | none =>
    simp only [Scheme.resolve]
    cases hfallback : options.fallback with
    | rsa3072 => exact Established.noRecipient_establishes hfallback
    | ecc256 => exact Established.forDevice_establishes hfallback
  | some key =>
    cases key with
    | rsaPrivate k => exact Established.forRsa_establishes rfl
    | rsaPublic k => exact Established.forRsa_establishes rfl
    | eccPrivate k => exact Established.forEcc_establishes rfl
    | eccPublic k => exact Established.forEcc_establishes rfl

/-- A payload whose length fits the field for it is not beyond the limit of the cipher. -/
lemma Aes.encrypt_of_lt {payload : Octets} (h : payload.length < UInt32.size) (key : Block 32) (iv : Block 16) :
    ∃ ciphertext tag, Aes.encrypt key iv payload = some (ciphertext, tag) := by
  have hlimit : payload.length ≤ Gcm.plaintextLimit := h.le.trans (by decide)
  exact ⟨_, _, if_pos hlimit⟩

/-- What is drawn before a payload is sealed. -/
def prepare (key : Option KeyMaterial) (options : SealOptions) : Action σ (Established × Block 16) := do
  let est ← establish key options
  let iv ← Action.draw (Draw.block 16)
  pure (est, iv)

/-- A content key that cannot be established ends the preparation. -/
lemma prepare_of_establish {key : Option KeyMaterial} {options : SealOptions} {s t : Session σ} {e : Failure}
    (h : (establish key options).outcome s = some (.error e, t)) :
    (prepare key options).outcome s = some (.error e, t) :=
  Action.outcome_bind_of_error _ h

/-- The initialization vector is drawn behind all else. -/
lemma prepare_behaves (key : Option KeyMaterial) (options : SealOptions) :
    (prepare key options : Action σ (Established × Block 16)).Behaves (Prepares key options) := by
  have hiv (est : Established) : (do
      let iv ← Action.draw (Draw.block 16)
      pure (est, iv) : Action σ (Established × Block 16)).Behaves _ :=
    Action.behaves_draw_bind (Draw.block_reads .iv) fun iv => Action.behaves_pure (est, iv)
  refine ((establish_behaves key options).bind hiv).congr fun trace r => ⟨fun h => ?_, fun h => ?_⟩
  · cases h with
    | failed h =>
      obtain ⟨later, hlater, rfl⟩ := h
      exact .refused hlater
    | passed first second =>
      obtain ⟨later, hlater, rfl⟩ := first
      obtain ⟨iv, _, _, rfl, ⟨rfl, rfl⟩, rfl⟩ := second
      exact .ready hlater
  · cases h with
    | refused h => exact .failed ⟨_, h, rfl⟩
    | ready h =>
      rw [← List.cons_append]
      exact .passed ⟨_, h, rfl⟩ ⟨_, _, [], rfl, ⟨rfl, rfl⟩, rfl⟩

/-- The last step of sealing, which draws nothing. -/
def sealPrepared (payload : Octets) (prepared : Established × Block 16) :
    Action σ (Container × Scheme × Option DeviceKey) := do
  let (tag, ciphertext) := (Aes.sealInPlace prepared.1.contentKey prepared.2).outcome payload
  let tag ← Action.ofExcept tag
  pure (prepared.1.image prepared.2 payload ciphertext tag, prepared.1.keyBlob.scheme, prepared.1.device)

lemma sealPrepared_behaves {payload : Octets} (h : payload.length < UInt32.size)
    (prepared : Established × Block 16) :
    (sealPrepared payload prepared : Action σ _).Behaves fun trace r => trace = [] ∧ ∃ ciphertext tag,
      Aes.encrypt prepared.1.contentKey prepared.2 payload = some (ciphertext, tag) ∧
        r = .ok (prepared.1.image prepared.2 payload ciphertext tag, prepared.1.keyBlob.scheme,
          prepared.1.device) := by
  obtain ⟨ciphertext, tag, hsome⟩ := Aes.encrypt_of_lt h prepared.1.contentKey prepared.2
  have hsealed : (Aes.sealInPlace prepared.1.contentKey prepared.2).outcome payload = (.ok tag, ciphertext) :=
    Gcm.outcome_sealInPlace_eq_ok_iff.mpr hsome
  rw [sealPrepared, hsealed, hsome]
  exact (Action.behaves_pure _).congr fun trace r => by simp

lemma payloadLengthField_of_lt {n : Nat} (h : n < UInt32.size) : payloadLengthField n = .ok (UInt32.ofNat n) :=
  if_pos h

lemma payloadLengthField_of_le {n : Nat} (h : UInt32.size ≤ n) :
    payloadLengthField n = .error (.header (.payloadTooLong n)) :=
  if_neg (Nat.not_lt.mpr h)

lemma sealPayload_of_lt {payload : Octets} (h : payload.length < UInt32.size) (key : Option KeyMaterial)
    (options : SealOptions) :
    (sealPayload payload key options : Action σ _) = prepare key options >>= sealPrepared payload := by
  rw [sealPayload, payloadLengthField_of_lt h, prepare]
  simp only [bind_assoc, pure_bind]
  rfl

lemma sealPayload_of_le {payload : Octets} (h : UInt32.size ≤ payload.length) (key : Option KeyMaterial)
    (options : SealOptions) :
    (sealPayload payload key options : Action σ _) = throw (.header (.payloadTooLong payload.length)) := by
  rw [sealPayload, payloadLengthField_of_le h]
  rfl

/-- Whether a payload is too long is settled before anything is drawn, and nothing else about it matters to
what is drawn. -/
theorem sealPayload_behaves (payload : Octets) (key : Option KeyMaterial) (options : SealOptions) :
    (sealPayload payload key options : Action σ _).Behaves (Seals payload key options) := by
  rcases Nat.lt_or_ge payload.length UInt32.size with hfits | hlong
  · rw [sealPayload_of_lt hfits]
    refine ((prepare_behaves key options).bind (sealPrepared_behaves hfits)).congr fun trace r =>
      ⟨fun h => ?_, fun h => ?_⟩
    · cases h with
      | failed h => exact .refused hfits h
      | passed first second =>
        obtain ⟨rfl, ciphertext, tag, hsealed, rfl⟩ := second
        rw [List.append_nil]
        exact .sealed hfits first hsealed
    · cases h with
      | tooLong h => exact absurd hfits (Nat.not_lt.mpr h)
      | refused h prepares => exact .failed prepares
      | sealed h prepares hsealed =>
        rw [← List.append_nil trace]
        exact .passed prepares ⟨rfl, _, _, hsealed, rfl⟩
  · rw [sealPayload_of_le hlong]
    refine (Action.behaves_throw _).congr fun trace r => ⟨?_, fun h => ?_⟩
    · rintro ⟨rfl, rfl⟩
      exact .tooLong hlong
    · cases h with
      | tooLong h => exact ⟨rfl, rfl⟩
      | refused h prepares => exact absurd h (Nat.not_lt.mpr hlong)
      | sealed h prepares hsealed => exact absurd h (Nat.not_lt.mpr hlong)

section Results

variable {trace : Trace} {options : SealOptions} {key : Option KeyMaterial} {device : DeviceKey}
  {est : Established}

lemma KeyMaterial.scheme_of_rsaRecipient? {key : KeyMaterial} {recipient : Rsa.PublicKey}
    (h : key.rsaRecipient? = some recipient) : key.scheme = .rsa3072 := by
  cases key with
  | rsaPrivate k | rsaPublic k => rfl
  | eccPrivate k | eccPublic k => cases h

lemma KeyMaterial.scheme_of_eccRecipient? {key : KeyMaterial} {recipient : P256.PublicKey}
    (h : key.eccRecipient? = some recipient) : key.scheme = .ecc256 := by
  cases key with
  | rsaPrivate k | rsaPublic k => cases h
  | eccPrivate k | eccPublic k => rfl

/-- A device has the key of its seed. -/
lemma SeedAttempts.ofSeedWith {derive : Block 32 → Block 32} {left : Nat}
    (h : SeedAttempts derive left trace (.ok device)) :
    DeviceKey.ofSeedWith derive device.seed = .ok device := by
  generalize hr : Except.ok device = r at h
  induction h with
  | exhausted => cases hr
  | accepted h =>
    cases hr
    rwa [DeviceKey.seed_of_ofSeedWith h]
  | refused h later ih => exact ih hr

lemma SeedAttempts.error {derive : Block 32 → Block 32} {left : Nat} {e : Failure}
    (h : SeedAttempts derive left trace (.error e)) : e = .crypto .noDeviceSeed := by
  generalize hr : Except.error e = r at h
  induction h with
  | exhausted => exact Except.error.inj hr
  | accepted h => cases hr
  | refused h later ih => exact ih hr

lemma Agrees.spec {recipient : P256.PublicKey} {made : Option DeviceKey}
    (h : Agrees recipient made trace (.ok est)) : est.keyBlob.scheme = .ecc256 ∧ est.device = made := by
  cases h with
  | agreed h hpub => exact ⟨rfl, rfl⟩

/-- A content key is established for an RSA key, for a point, or for a device that was made without a key. -/
theorem Establishes.cases_ok (h : Establishes options key trace (.ok est)) :
    (∃ k recipient contentKey later wrapped, key = some k ∧ k.rsaRecipient? = some recipient ∧
      Wraps recipient contentKey later (.ok wrapped) ∧ trace = .drawn .contentKey contentKey :: later ∧
      est = ⟨contentKey, .rsa wrapped, none⟩) ∨
    (∃ k recipient, key = some k ∧ k.eccRecipient? = some recipient ∧ Agrees recipient none trace (.ok est)) ∨
    ∃ first second device recipient, key = none ∧ options.fallback = .ecc256 ∧
      MakesDevice options first (.ok device) ∧ device.publicKey? = some recipient ∧
      Agrees recipient (some device) second (.ok est) ∧
      trace = first ++ .reported .deviceGenerated :: second := by
  generalize hest : Except.ok est = r at h
  cases h with
  | @rsa k recipient contentKey later r hkey wraps =>
    cases r with
    | error e => cases hest
    | ok wrapped =>
      exact Or.inl ⟨k, recipient, contentKey, later, wrapped, rfl, hkey, wraps, rfl, Except.ok.inj hest⟩
  | ecc hkey agrees => exact Or.inr (Or.inl ⟨_, _, rfl, hkey, hest ▸ agrees⟩)
  | infinite hscheme hkey => cases hest
  | noRecipient hfallback => cases hest
  | noDevice hfallback makes => cases hest
  | infiniteDevice hfallback makes hkey => cases hest
  | device hfallback makes hkey agrees =>
    exact Or.inr (Or.inr ⟨_, _, _, _, rfl, hfallback, makes, hkey, hest ▸ agrees, rfl⟩)

/-- What is established has the resolved scheme, and a device if and only if there was no key. -/
lemma Establishes.spec (h : Establishes options key trace (.ok est)) :
    est.keyBlob.scheme = Scheme.resolve key options.fallback ∧ est.device.isSome = key.isNone := by
  rcases h.cases_ok with ⟨k, recipient, contentKey, later, wrapped, rfl, hkey, -, -, rfl⟩ |
    ⟨k, recipient, rfl, hkey, agrees⟩ | ⟨first, second, device, recipient, rfl, hfallback, -, -, agrees, -⟩
  · exact ⟨(KeyMaterial.scheme_of_rsaRecipient? hkey).symm, rfl⟩
  · obtain ⟨hscheme, hdevice⟩ := agrees.spec
    rw [hscheme, hdevice]
    exact ⟨(KeyMaterial.scheme_of_eccRecipient? hkey).symm, rfl⟩
  · obtain ⟨hscheme, hdevice⟩ := agrees.spec
    rw [hscheme, hdevice]
    exact ⟨hfallback.symm, rfl⟩

end Results

end SealedImage
