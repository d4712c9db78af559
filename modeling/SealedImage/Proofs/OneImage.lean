import Mathlib.Tactic.Common
import SealedImage.Proofs.RoundTrip

/-!
# One image is written

An encryption leaves its sink alone until the whole image is there. What the image is follows from the payload,
the key, the options and the tape (`prepare`), so the same octets are released to every sink: it takes a start of
them, and the encryption succeeds exactly when it takes all of them and can be flushed (`Emits`). How reads and writes
are split and how often they are interrupted has no part in any of it (`encrypt_congr`).
-/

namespace SealedImage

/-- What becomes of an image at a sink. It is released to the sink, which takes a start of the image and is flushed once
if that is the whole image. The summary is given exactly when the flush has succeeded, as it does at an open sink, and
the failure is one of writing in every other case. -/
structure Emits (image : Octets) (summary : SealSummary) (before after : Sink)
    (result : Except Failure SealSummary) : Prop where
  released : after = (before.release image).2
  accepted : ∃ accepted, accepted <+: image ∧ after.written = before.written ++ accepted
  flushes : after.flushes = before.flushes + if after.written = before.written ++ image then 1 else 0
  ok_iff : ∀ m, result = .ok m ↔
    m = summary ∧ after.written = before.written ++ image ∧ before.flushFault = none
  io : ∀ e, result = .error e → ∃ fault, e = .io fault
  ok_of_open : before.Open → result = .ok summary

lemma emits_release (image : Octets) (summary : SealSummary) (sink : Sink) :
    Emits image summary sink (sink.release image).2
      ((sink.release image).1.elim (.ok summary) fun fault => .error (.io fault)) := by
  have hflushes := Sink.release_flushes image sink
  have hiff := Sink.release_eq_none_iff image sink
  refine ⟨rfl, Sink.release_written image sink, hflushes, fun m => ?_, fun e he => ?_, fun hopen => ?_⟩
  · cases hfault : (sink.release image).1 with
    | none =>
      obtain ⟨hwritten, -, hflush⟩ := hiff.mp hfault
      rw [Option.elim_none, Except.ok.injEq]
      exact ⟨fun h => ⟨h.symm, hwritten, hflush⟩, fun h => h.1.symm⟩
    | some fault =>
      simp only [Option.elim_some, reduceCtorEq, false_iff]
      rintro ⟨-, hwritten, hflush⟩
      rw [if_pos hwritten] at hflushes
      rw [hiff.mpr ⟨hwritten, hflushes, hflush⟩] at hfault
      cases hfault
  · cases hfault : (sink.release image).1 with
    | none =>
      rw [hfault] at he
      cases he
    | some fault =>
      rw [hfault] at he
      exact ⟨fault, (Except.error.inj he).symm⟩
  · rw [(Sink.release_of_open image hopen).1, Option.elim_none]

section Prepared

variable {σ : Type} {key : Option KeyMaterial} {options : SealOptions} {payload tape : Octets} {est : Established}
  {iv : Block 16} {e : Failure} {u : Session Unit}

/-- A tape that is too short for the preparation is too short for sealing. -/
lemma sealPayload_of_unprepared (hfits : payload.length < UInt32.size)
    (h : (prepare key options : Action Unit _).outcome ⟨tape, [], ()⟩ = none) {s : Session σ} (hs : s.tape = tape) :
    (sealPayload payload key options).outcome s = none := by
  rw [sealPayload_of_lt hfits, Action.outcome_bind]
  cases hp : (prepare key options).outcome s with
  | none => rfl
  | some r =>
    obtain ⟨events, -, -, helse⟩ := (prepare_behaves key options).outcome_elsewhere (prepare_behaves key options) hp
    rw [helse ⟨tape, [], ()⟩ hs.symm] at h
    cases h

lemma sealPayload_of_refused (hfits : payload.length < UInt32.size)
    (h : (prepare key options : Action Unit _).outcome ⟨tape, [], ()⟩ = some (.error e, u)) :
    ∃ events, ∀ s : Session σ, s.tape = tape → (sealPayload payload key options).outcome s =
      some (.error e, ⟨u.tape, s.journal ++ events, s.store⟩) := by
  obtain ⟨events, -, -, helse⟩ := (prepare_behaves key options).outcome_elsewhere (prepare_behaves key options) h
  refine ⟨events, fun s hs => ?_⟩
  rw [sealPayload_of_lt hfits]
  exact Action.outcome_bind_of_error _ (helse s hs)

lemma sealPayload_of_prepared (hfits : payload.length < UInt32.size)
    (h : (prepare key options : Action Unit _).outcome ⟨tape, [], ()⟩ = some (.ok (est, iv), u))
    {ciphertext : Octets} {tag : Block 16} (hsealed : Aes.encrypt est.contentKey iv payload = some (ciphertext, tag)) :
    ∃ events, ∀ s : Session σ, s.tape = tape → (sealPayload payload key options).outcome s =
      some (.ok (est.image iv payload ciphertext tag, est.keyBlob.scheme, est.device),
        ⟨u.tape, s.journal ++ events, s.store⟩) := by
  obtain ⟨events, -, -, helse⟩ := (prepare_behaves key options).outcome_elsewhere (prepare_behaves key options) h
  refine ⟨events, fun s hs => ?_⟩
  rw [sealPayload_of_lt hfits, Action.outcome_bind_of_ok _ (helse s hs)]
  refine (sealPrepared_behaves hfits (est, iv) _ _ _).mpr ⟨[], ⟨rfl, ciphertext, tag, hsealed, rfl⟩, ?_⟩
  exact Session.passes_nil_iff.mpr rfl

end Prepared

section Emission

variable {source other : Source} {key : Option KeyMaterial} {options : SealOptions} {s t s' : Session Sink}
  {result : Except Failure SealSummary}

/-- The source matters by the octets that it delivers and the fault that it ends in, and the sink by what it
takes. -/
lemma encrypt_congr (hd : other.delivered = source.delivered) (hf : other.fault? = source.fault?)
    (htape : s'.tape = s.tape) (hjournal : s'.journal = s.journal) (halike : s.store.Alike s'.store)
    (h : (encrypt source key options).outcome s = some (result, t)) :
    ∃ t', (encrypt other key options).outcome s' = some (result, t') ∧ t'.tape = t.tape ∧
      t'.journal = t.journal ∧ t.store.Alike t'.store := by
  have hread : other.readAll = source.readAll := by
    rw [Source.readAll_eq, Source.readAll_eq, hd, hf]
  cases hsource : source.readAll with
  | error fault =>
    obtain ⟨rfl, rfl⟩ := Action.outcome_unique (outcome_encrypt_of_fault hsource) h
    exact ⟨s', outcome_encrypt_of_fault (hread.trans hsource), htape, hjournal, halike⟩
  | ok payload =>
    rw [outcome_encrypt_of_readAll hsource] at h
    obtain ⟨⟨sealed, u⟩, hseal, hrest⟩ := Option.bind_eq_some_iff.mp h
    have hbehaves := sealPayload_behaves (σ := Sink) payload key options
    obtain ⟨events, hevents, hstore, helse⟩ := hbehaves.outcome_elsewhere hbehaves hseal
    rw [outcome_encrypt_of_readAll (hread.trans hsource), helse s' htape, Option.bind_some]
    cases sealed with
    | error e =>
      obtain ⟨rfl, rfl⟩ := Prod.mk.inj (Option.some.inj hrest)
      exact ⟨_, rfl, rfl, by rw [hevents, hjournal], hstore ▸ halike⟩
    | ok image =>
      obtain ⟨rfl, rfl⟩ := Prod.mk.inj (Option.some.inj hrest)
      obtain ⟨hfault, hafter⟩ := (hstore ▸ halike : u.store.Alike s'.store).release image.1.toOctets
      refine ⟨_, congrArg some (Prod.ext ?_ rfl), rfl, ?_, hafter⟩
      · rw [hfault]
      · dsimp only
        rw [hfault, hevents, hjournal]

end Emission

/-- An encryption gives its sink nothing before it has the whole image, and then that image. If the source fails,
the payload is too long or no content key is established, the sink is left alone. Otherwise what was prepared on
the tape and the payload make one image, which is released to every sink alike. The sink takes a start of it: the
encryption succeeds exactly when the sink takes the whole image and the one flush succeeds, as at every open sink,
and fails with a fault of writing in every other case. Sources that deliver the same and sinks that take the same
are not told apart. -/
theorem encrypt_writes_one_image (source : Source) (key : Option KeyMaterial) (options : SealOptions) :
    (∀ fault, source.fault? = some fault →
      ∀ s, (encrypt source key options).outcome s = some (.error (.io fault), s)) ∧
    (∀ payload, source.readAll = .ok payload → UInt32.size ≤ payload.length →
      ∀ s, (encrypt source key options).outcome s = some (.error (.header (.payloadTooLong payload.length)), s)) ∧
    (∀ payload tape, source.readAll = .ok payload → payload.length < UInt32.size →
      ((prepare key options : Action Unit _).outcome ⟨tape, [], ()⟩ = none →
        ∀ s, s.tape = tape → (encrypt source key options).outcome s = none) ∧
      (∀ e u, (establish key options : Action Unit _).outcome ⟨tape, [], ()⟩ = some (.error e, u) →
        ∀ s, s.tape = tape → ∃ t, (encrypt source key options).outcome s = some (.error e, t) ∧
          t.tape = u.tape ∧ t.store = s.store) ∧
      ∀ est iv u, (prepare key options : Action Unit _).outcome ⟨tape, [], ()⟩ = some (.ok (est, iv), u) →
        ∃ ciphertext tag, Aes.encrypt est.contentKey iv payload = some (ciphertext, tag) ∧
          ∀ s, s.tape = tape → ∃ result t, (encrypt source key options).outcome s = some (result, t) ∧
            t.tape = u.tape ∧ Emits (est.image iv payload ciphertext tag).toOctets
              ⟨est.keyBlob.scheme, payload.length, Layout.headerSize + payload.length, est.device⟩
              s.store t.store result) ∧
    ∀ other s s', other.delivered = source.delivered → other.fault? = source.fault? → s'.tape = s.tape →
      s'.journal = s.journal → s.store.Alike s'.store →
      ∀ result t, (encrypt source key options).outcome s = some (result, t) →
        ∃ t', (encrypt other key options).outcome s' = some (result, t') ∧ t'.tape = t.tape ∧
          t'.journal = t.journal ∧ t.store.Alike t'.store := by
  refine ⟨fun fault hfault s => ?_, fun payload hread hlong s => ?_, fun payload tape hread hfits =>
    ⟨fun hnone s hs => ?_, fun e u he s hs => ?_, fun est iv u hready => ?_⟩, ?_⟩
  · exact outcome_encrypt_of_fault (Source.readAll_of_fault hfault)
  · rw [outcome_encrypt_of_readAll hread, sealPayload_of_le hlong]
    rfl
  · rw [outcome_encrypt_of_readAll hread, sealPayload_of_unprepared hfits hnone hs]
    rfl
  · obtain ⟨events, hseal⟩ := sealPayload_of_refused hfits (prepare_of_establish he)
    rw [outcome_encrypt_of_readAll hread, hseal s hs]
    exact ⟨_, rfl, rfl, rfl⟩
  · obtain ⟨ciphertext, tag, hsealed⟩ := Aes.encrypt_of_lt hfits est.contentKey iv
    obtain ⟨events, hseal⟩ := sealPayload_of_prepared hfits hready hsealed
    refine ⟨ciphertext, tag, hsealed, fun s hs => ?_⟩
    rw [outcome_encrypt_of_readAll hread, hseal s hs]
    exact ⟨_, _, rfl, rfl, emits_release _ _ _⟩
  · intro other s s' hd hf htape hjournal halike result t h
    exact encrypt_congr hd hf htape hjournal halike h

lemma samplePreparation : ∃ est iv u,
    (prepare (some (.rsaPublic sampleKey.publicKey)) .standard : Action Unit _).outcome ⟨List.replicate 397 7, [], ()⟩ =
      some (.ok (est, iv), u) := by
  obtain ⟨draws, container, scheme, device, rest, hseals, htape, -⟩ := sampleImage_sealed
  cases hseals with
  | @sealed _ est iv _ _ _ prepares _ =>
    exact ⟨est, iv, ⟨rest, draws.events, ()⟩, (prepare_behaves _ _ _ _ _).mpr ⟨draws, prepares, htape, rfl, rfl⟩⟩

theorem encrypt_writes_one_image_sample :
    (∀ s, (encrypt [.octets 1 [2], .failed .busy] none .standard).outcome s = some (.error (.io .busy), s)) ∧
      ∃ image summary, (∀ sink, ∃ result t, (encrypt (Source.ofOctets samplePayload)
        (some (.rsaPublic sampleKey.publicKey)) .standard).outcome ⟨List.replicate 397 7, [], sink⟩ = some (result, t) ∧
          Emits image summary sink t.store result) ∧
        ∃ t, (encrypt (Source.ofOctets samplePayload) (some (.rsaPublic sampleKey.publicKey)) .standard).outcome
          ⟨List.replicate 397 7, [], Sink.perfect⟩ = some (.ok summary, t) ∧ t.store.written = image := by
  refine ⟨(encrypt_writes_one_image [.octets 1 [2], .failed .busy] none .standard).1 .busy rfl, ?_⟩
  obtain ⟨est, iv, u, hready⟩ := samplePreparation
  obtain ⟨-, -, hwrites, -⟩ := encrypt_writes_one_image (Source.ofOctets samplePayload)
    (some (.rsaPublic sampleKey.publicKey)) .standard
  obtain ⟨-, -, hemits⟩ := hwrites samplePayload _ (Source.readAll_ofOctets _) (by decide +kernel)
  obtain ⟨ciphertext, tag, -, hrun⟩ := hemits est iv u hready
  refine ⟨(est.image iv samplePayload ciphertext tag).toOctets,
    ⟨est.keyBlob.scheme, samplePayload.length, Layout.headerSize + samplePayload.length, est.device⟩,
    fun sink => ?_, ?_⟩
  · obtain ⟨result, t, hresult, -, h⟩ := hrun ⟨List.replicate 397 7, [], sink⟩ rfl
    exact ⟨result, t, hresult, h⟩
  · obtain ⟨result, t, hresult, -, h⟩ := hrun ⟨List.replicate 397 7, [], Sink.perfect⟩ rfl
    obtain rfl := h.ok_of_open Sink.perfect_open
    exact ⟨t, hresult, ((h.ok_iff _).mp rfl).2.1⟩

end SealedImage
