import Mathlib.Tactic.Common
import SealedImage.Proofs.Calls
import SealedImage.Proofs.GroupOrder
import SealedImage.Proofs.Journals

/-!
# What an image is addressed to

A private key, its public half and, for a device, the seed of its key name one recipient. An encryption for a
key asks for nothing but the public half of it, and not for the options. An encryption for a device of a given
seed goes the way of an encryption for the public key of the device (`Action.Follows`), and only its journal
and the device key in its summary are different.
-/

namespace SealedImage

/-- The public half of a key, which is a public key itself. -/
def KeyMaterial.publicHalf : KeyMaterial → KeyMaterial
  | rsaPrivate key => rsaPublic key.publicKey
  | rsaPublic key => rsaPublic key
  | eccPrivate key => eccPublic key.publicKey
  | eccPublic key => eccPublic key

def DeviceKey.publicKey (device : DeviceKey) : P256.PublicKey :=
  device.secret.publicKey

namespace Action

variable {σ α β α' β' : Type}

/-- All of the outcome of an action but the journal: its result, the tape that it leaves unread, and the store. -/
def effect (x : Action σ α) (s : Session σ) : Option (Except Failure α × Octets × σ) :=
  (x.outcome s).map fun r => (r.1, r.2.tape, r.2.store)

/-- Whatever is in the journals, the second action has the effect of the first, but for a change of the result. -/
def Follows (change : α → β) (x : Action σ α) (y : Action σ β) : Prop :=
  ∀ s t : Session σ, t.tape = s.tape → t.store = s.store →
    y.effect t = (x.effect s).map fun r => (r.1.map change, r.2)

lemma effect_bind (x : Action σ α) (f : α → Action σ β) (s : Session σ) :
    (x >>= f).effect s = (x.outcome s).bind fun
      | (.ok a, t) => (f a).effect t
      | (.error e, t) => some (.error e, t.tape, t.store) := by
  rw [effect, outcome_bind]
  rcases x.outcome s with _ | ⟨_ | _, t⟩ <;> rfl

lemma Follows.bind {change : α → α'} {change' : β → β'} {x : Action σ α} {y : Action σ α'} {f : α → Action σ β}
    {f' : α' → Action σ β'} (hx : x.Follows change y) (hf : ∀ a, (f a).Follows change' (f' (change a))) :
    (x >>= f).Follows change' (y >>= f') := by
  intro s t htape hstore
  have hxy := hx s t htape hstore
  rw [effect_bind, effect_bind]
  unfold effect at hxy
  cases hs : x.outcome s with
  | none =>
    rw [hs] at hxy
    rw [Option.map_eq_none_iff.mp hxy]
    rfl
  | some first =>
    rw [hs] at hxy
    obtain ⟨second, ht, hpair⟩ := Option.map_eq_some_iff.mp hxy
    obtain ⟨r, u⟩ := first
    obtain ⟨r', u'⟩ := second
    simp only [Prod.mk.injEq] at hpair
    obtain ⟨rfl, htape', hstore'⟩ := hpair
    rw [ht]
    cases r with
    | error e => exact congrArg some (Prod.ext rfl (Prod.ext htape' hstore'))
    | ok a => exact hf a u u' htape' hstore'

lemma follows_pure (change : α → β) (a : α) : (pure a : Action σ α).Follows change (pure (change a)) := by
  rintro s t htape hstore
  exact congrArg some (Prod.ext rfl (Prod.ext htape hstore))

lemma JournalBlind.effect_eq {x : Action σ α} (hx : x.JournalBlind) (s : Session σ) :
    x.effect s = x.effect ⟨s.tape, [], s.store⟩ := by
  have h := hx ⟨s.tape, [], s.store⟩ s.journal
  rw [Session.behind, List.append_nil] at h
  rw [effect, h, Option.map_map]
  rfl

lemma JournalBlind.follows {x : Action σ α} (hx : x.JournalBlind) : x.Follows id x := by
  intro s t htape hstore
  rw [hx.effect_eq t, hx.effect_eq s, htape, hstore]
  rcases x.effect ⟨s.tape, [], s.store⟩ with _ | ⟨_ | _, _⟩ <;> rfl

/-- A report has no effect. -/
lemma Follows.report_left {change : α → β} {x : Action σ α} {y : Action σ β} (h : x.Follows change y) (e : Event) :
    (report e >>= fun _ => x).Follows change y :=
  fun s t htape hstore => h { s with journal := s.journal ++ [e] } t htape hstore

lemma Follows.report_right {change : α → β} {x : Action σ α} {y : Action σ β} (h : x.Follows change y) (e : Event) :
    x.Follows change (report e >>= fun _ => y) :=
  fun s t htape hstore => h s { t with journal := t.journal ++ [e] } htape hstore

end Action

section Establishing

variable {σ : Type}

/-- A key matters by its public half, and beside a key the options do not matter. -/
lemma establish_publicHalf (key : KeyMaterial) (o₁ o₂ : SealOptions) :
    (establish (some key) o₁ : Action σ Established) = establish (some key.publicHalf) o₂ := by
  cases key with
  | rsaPrivate key | rsaPublic key | eccPublic key => rfl
  | eccPrivate key =>
    have hkey : (KeyMaterial.eccPrivate key).eccRecipient? = (KeyMaterial.eccPublic key.publicKey).eccRecipient? :=
      key.publicKey?_eq
    unfold establish
    simp only [Scheme.resolve, KeyMaterial.publicHalf, KeyMaterial.scheme, KeyMaterial.kind, KeyKind.scheme, hkey]
    rfl

/-- What is established for a device of a given seed, once the device is known. -/
lemma establish_device {seed : Block 32} {device : DeviceKey} (h : DeviceKey.ofSeed seed = .ok device) :
    (establish none ⟨.ecc256, some seed⟩ : Action σ Established) =
      Action.report (.establishing .ecc256 false) >>= fun _ => Action.report .deviceGenerated >>= fun _ =>
        Established.forEcc device.publicKey (some device) := by
  have hdevice : (Established.deviceKey ⟨.ecc256, some seed⟩ : Action σ DeviceKey) = pure device :=
    congrArg Action.ofExcept h
  have hkey : device.publicKey? = some device.publicKey := device.secret.publicKey?_eq
  unfold establish
  simp only [Scheme.resolve, hdevice, pure_bind, hkey, Established.recipient]
  rfl

lemma outcome_establish_of_refused {seed : Block 32} {e : Failure} (h : DeviceKey.ofSeed seed = .error e)
    (s : Session σ) : (establish none ⟨.ecc256, some seed⟩).outcome s =
      some (.error e, { s with journal := s.journal ++ [.establishing .ecc256 false] }) := by
  have hdevice : (Established.deviceKey ⟨.ecc256, some seed⟩ : Action σ DeviceKey) = throw e :=
    congrArg Action.ofExcept h
  unfold establish
  simp only [Scheme.resolve, hdevice]
  rfl

def Established.withDevice (device : DeviceKey) (est : Established) : Established :=
  { est with device := some device }

lemma Established.forEcc_follows (recipient : P256.PublicKey) (device : DeviceKey) :
    (forEcc recipient none : Action σ Established).Follows (withDevice device) (forEcc recipient (some device)) := by
  refine (P256.agreeEphemeral_behaves recipient).journalBlind.follows.bind fun pair => ?_
  refine (Action.behaves_draw (Draw.block_reads .salt)).journalBlind.follows.bind fun salt => ?_
  exact Action.follows_pure (withDevice device) _

lemma establish_follows {seed : Block 32} {device : DeviceKey} (h : DeviceKey.ofSeed seed = .ok device)
    (options : SealOptions) :
    (establish (some (.eccPublic device.publicKey)) options : Action σ Established).Follows
      (Established.withDevice device) (establish none ⟨.ecc256, some seed⟩) := by
  rw [establish_device h]
  refine .report_right (.report_right (.report_left ?_ _) _) _
  exact Established.forEcc_follows device.publicKey device

lemma sealPayload_follows {seed : Block 32} {device : DeviceKey} (h : DeviceKey.ofSeed seed = .ok device)
    (payload : Octets) (options : SealOptions) :
    (sealPayload payload (some (.eccPublic device.publicKey)) options : Action σ _).Follows
      (fun image => (image.1, image.2.1, some device)) (sealPayload payload none ⟨.ecc256, some seed⟩) := by
  refine (Action.journalBlind_ofExcept _).follows.bind fun length => ?_
  refine (establish_follows h options).bind fun est => ?_
  refine (Action.behaves_draw (Draw.block_reads .iv)).journalBlind.follows.bind fun iv => ?_
  refine (Action.journalBlind_ofExcept _).follows.bind fun tag => ?_
  exact Action.follows_pure _ _

end Establishing

def SealSummary.withDevice (device : DeviceKey) (summary : SealSummary) : SealSummary :=
  { summary with device := some device }

lemma encrypt_follows {seed : Block 32} {device : DeviceKey} (h : DeviceKey.ofSeed seed = .ok device)
    (source : Source) (options : SealOptions) :
    (encrypt source (some (.eccPublic device.publicKey)) options).Follows (SealSummary.withDevice device)
      (encrypt source none ⟨.ecc256, some seed⟩) := by
  refine (Action.journalBlind_ofExcept _).follows.bind fun payload => ?_
  refine (sealPayload_follows h payload options).bind fun image => ?_
  refine (Action.journalBlind_onStore _).follows.bind fun _ => ?_
  refine (Action.journalBlind_onStore _).follows.bind fun _ => ?_
  refine (Action.journalBlind_onStore _).follows.bind fun _ => ?_
  refine (Action.journalBlind_report _).follows.bind fun _ => ?_
  exact Action.follows_pure (SealSummary.withDevice device) _

/-- A given seed that is refused is not replaced: nothing is drawn and nothing is written. -/
lemma effect_encrypt_of_refused {seed : Block 32} {e : Failure} (h : DeviceKey.ofSeed seed = .error e)
    (source : Source) (s : Session Sink) : ∃ failure,
    (encrypt source none ⟨.ecc256, some seed⟩).effect s = some (.error failure, s.tape, s.store) := by
  cases hread : source.readAll with
  | error fault =>
    rw [Action.effect, outcome_encrypt_of_fault hread]
    exact ⟨_, rfl⟩
  | ok payload =>
    rw [Action.effect, outcome_encrypt_of_readAll hread]
    rcases Nat.lt_or_ge payload.length UInt32.size with hfits | hlong
    · have hprepare := prepare_of_establish (outcome_establish_of_refused h s)
      rw [sealPayload_of_lt hfits, Action.outcome_bind_of_error _ hprepare]
      exact ⟨_, rfl⟩
    · rw [sealPayload_of_le hlong]
      exact ⟨_, rfl⟩

/-- Encryption sees the public half of a key and nothing else of it, and the options only without a key. A
private key is as good as its public half, with whatever options. Without a key, a seed that makes a device key
is as good as the public key of the device: the same is drawn and written, and the summaries differ in the device
key only. A seed that makes none is refused, and then nothing is drawn or written. -/
theorem encrypt_sees_public_half (source : Source) (s : Session Sink) :
    (∀ key o₁ o₂, (encrypt source (some key) o₁).outcome s =
      (encrypt source (some key.publicHalf) o₂).outcome s) ∧
    ∀ seed options, match DeviceKey.ofSeed seed with
      | .ok device => (encrypt source none ⟨.ecc256, some seed⟩).effect s =
          ((encrypt source (some (.eccPublic device.publicKey)) options).effect s).map fun r =>
            (r.1.map (SealSummary.withDevice device), r.2)
      | .error _ => ∃ failure,
          (encrypt source none ⟨.ecc256, some seed⟩).effect s = some (.error failure, s.tape, s.store) := by
  refine ⟨fun key o₁ o₂ => ?_, fun seed options => ?_⟩
  · unfold encrypt sealPayload
    rw [establish_publicHalf key o₁ o₂]
  · cases hseed : DeviceKey.ofSeed seed with
    | ok device => exact encrypt_follows hseed source options s s rfl rfl
    | error e => exact effect_encrypt_of_refused hseed source s

end SealedImage
