import Mathlib.Tactic.Common
import SealedImage.Proofs.RoundTrip

/-!
# Only authentic octets are released

A sink is touched by a decryption only after the whole source was read and its octets proved authentic, and
then by octets of the one plaintext alone.
-/

namespace SealedImage

/-- The source matters by the octets it delivers and the fault it ends in. -/
lemma decrypt_congr {source other : Source} {key : KeyMaterial} (hd : other.delivered = source.delivered)
    (hf : other.fault? = source.fault?) : decrypt other key = decrypt source key := by
  have hread : other.readAll = source.readAll := by
    rw [Source.readAll_eq, Source.readAll_eq, hd, hf]
  unfold decrypt readContainer
  rw [hread]

/-- Decryption releases nothing but authentic octets. If the source fails, or what it delivers is not
authentic, the failure is the same for every sink and the sink is left alone. If it is authentic, there is one
plaintext, and that is released to the sink: it takes a start of it, and the run succeeds exactly when all of it was
taken and the one flush succeeded, as they are at an open sink. How the source splits its octets never matters. -/
theorem decrypt_releases_only_authentic (source : Source) (key : KeyMaterial) :
    ((¬∃ payload, source.fault? = none ∧ Authentic source.delivered key payload) →
      ∃ e, (∀ fault, source.fault? = some fault → e = .io fault) ∧
        ∀ s, ∃ t, (decrypt source key).outcome s = some (.error e, t) ∧ t.store = s.store) ∧
    (∀ payload, source.fault? = none → Authentic source.delivered key payload →
      (∀ other, Authentic source.delivered key other → other = payload) ∧
      ∀ s, ∃ result t, (decrypt source key).outcome s = some (result, t) ∧
        t.store = (s.store.release payload).2 ∧
        (s.store.Open → result = .ok ⟨key.scheme, payload.length⟩) ∧
        (∃ accepted, accepted <+: payload ∧ t.store.written = s.store.written ++ accepted) ∧
        (∀ e, result = .error e → ∃ fault, e = .io fault) ∧
        ∀ summary, result = .ok summary ↔
          summary = ⟨key.scheme, payload.length⟩ ∧ s.store.flushFault = none ∧
            t.store.written = s.store.written ++ payload ∧ t.store.flushes = s.store.flushes + 1) ∧
    ∀ other : Source, other.delivered = source.delivered → other.fault? = source.fault? →
      ∀ s, (decrypt other key).outcome s = (decrypt source key).outcome s := by
  refine ⟨fun hnone => ?_, fun payload hf ha => ⟨fun other hother => hother.unique ha, fun s => ?_⟩,
    fun other hd hf s => ?_⟩
  · cases hf : source.fault? with
    | some fault =>
      refine ⟨.io fault, fun fault' h => by rw [Option.some.inj h], fun s => ?_⟩
      exact ⟨s, decrypt_outcome_of_fault hf s, rfl⟩
    | none =>
      have hread := Source.readAll_eq_ok_iff.mpr ⟨hf, rfl⟩
      cases ho : openOctets source.delivered key with
      | error e => exact ⟨e, fun fault h => by simp at h, decrypt_outcome_of_refused hread ho⟩
      | ok payload => exact absurd ⟨payload, hf, openOctets_eq_ok_iff.mp ho⟩ hnone
  · have hread := Source.readAll_eq_ok_iff.mpr ⟨hf, rfl⟩
    obtain ⟨t, hrun, ht⟩ := decrypt_outcome_of_opened hread (openOctets_eq_ok_iff.mpr ha) s
    refine ⟨_, t, hrun, ht, fun hopen => ?_, ?_, fun e he => ?_, fun summary => ?_⟩
    · rw [(Sink.release_of_open payload hopen).1, Option.elim_none]
    · rw [ht]
      exact Sink.release_written payload s.store
    · cases hr : (s.store.release payload).1 with
      | some fault =>
        rw [hr] at he
        exact ⟨fault, (Except.error.inj he).symm⟩
      | none =>
        rw [hr] at he
        simp at he
    · rw [ht]
      have hiff := Sink.release_eq_none_iff payload s.store
      cases hr : (s.store.release payload).1 with
      | some fault =>
        simp only [Option.elim_some, reduceCtorEq, false_iff]
        rintro ⟨-, hflush, hw, hn⟩
        rw [hiff.mpr ⟨hw, hn, hflush⟩] at hr
        simp at hr
      | none =>
        obtain ⟨hw, hn, hflush⟩ := hiff.mp hr
        simp only [Option.elim_none, Except.ok.injEq]
        exact ⟨fun h => ⟨h.symm, hflush, hw, hn⟩, fun h => h.1.symm⟩
  · rw [decrypt_congr hd hf]

theorem decrypt_releases_only_authentic_sample :
    (∃ t, (decrypt [.failed .busy] (.rsaPrivate sampleKey)).outcome ⟨[], [], Sink.perfect⟩ =
        some (.error (.io .busy), t) ∧ t.store = Sink.perfect) ∧
    ∃ t, (decrypt (.interrupted :: Source.ofOctets sampleImage) (.rsaPrivate sampleKey)).outcome
        ⟨[], [], Sink.perfect⟩ = some (.ok ⟨.rsa3072, samplePayload.length⟩, t) ∧
      t.store.written = samplePayload := by
  constructor
  · obtain ⟨hnone, -, -⟩ := decrypt_releases_only_authentic [.failed .busy] (.rsaPrivate sampleKey)
    obtain ⟨e, hfault, hrun⟩ := hnone fun ⟨_, hf, _⟩ => by cases hf
    obtain ⟨t, ht, hstore⟩ := hrun ⟨[], [], Sink.perfect⟩
    rw [hfault .busy rfl] at ht
    exact ⟨t, ht, hstore⟩
  · obtain ⟨-, hopened, hsplit⟩ :=
      decrypt_releases_only_authentic (Source.ofOctets sampleImage) (.rsaPrivate sampleKey)
    obtain ⟨hf, hd⟩ := Source.readAll_eq_ok_iff.mp (Source.readAll_ofOctets sampleImage)
    have ha : Authentic (Source.ofOctets sampleImage).delivered (.rsaPrivate sampleKey) samplePayload := by
      rw [hd]
      exact openOctets_eq_ok_iff.mp sampleImage_opens
    obtain ⟨result, t, hrun, -, hok, -, -, hiff⟩ :=
      (hopened samplePayload hf ha).2 ⟨[], [], Sink.perfect⟩
    rw [← hsplit _ (Source.delivered_interrupted _) (Source.fault?_interrupted _)] at hrun
    obtain rfl := hok Sink.perfect_open
    exact ⟨t, hrun, ((hiff _).mp rfl).2.2.1⟩

end SealedImage
