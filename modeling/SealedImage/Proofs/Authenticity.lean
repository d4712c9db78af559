import Mathlib.Tactic.Common
import SealedImage.Opening.Decrypt
import SealedImage.Proofs.InPlace
import SealedImage.Proofs.Outcome
import SealedImage.Proofs.Streams

/-!
# Authentic octets

`Authentic octets key payload` says that the octets are an image whose tag verifies under the content key
that `key` recovers, and that `payload` is its plaintext. The outcome of `decrypt` is computed for the three
ways it can go: the source fails, the octets are refused, or the payload is released to the sink.
-/

namespace SealedImage

/-- The payload of the image that a string of octets is. -/
def openOctets (octets : Octets) (key : KeyMaterial) : Except Failure Octets := do
  openContainer (← Container.ofOctets octets) key

/-- The octets are an image, the key recovers its content key, the tag verifies, and this is the
plaintext. -/
def Authentic (octets : Octets) (key : KeyMaterial) (payload : Octets) : Prop :=
  ∃ container contentKey,
    Container.ofOctets octets = .ok container ∧
    recoverContentKey container.header key = .ok contentKey ∧
    container.ciphertext.length ≤ Gcm.ciphertextLimit ∧
    Gcm.tag (Aes.blockFunction contentKey) container.header.iv container.ciphertext =
      container.header.authTag ∧
    Gcm.crypt (Aes.blockFunction contentKey) container.header.iv container.ciphertext = payload

/-- An image is opened in place under the content key that was recovered. -/
lemma openContainer_eq_decrypt? {container : Container} {key : KeyMaterial} {contentKey : Block 32}
    (h : recoverContentKey container.header key = .ok contentKey) :
    openContainer container key = (Aes.decrypt? contentKey container.header.iv container.ciphertext
      container.header.authTag).elim (.error .authentication) .ok := by
  unfold openContainer Aes.openInPlace
  rw [h]
  simp only [bind, Except.bind, Gcm.outcome_openInPlace, Aes.decrypt?]
  cases Gcm.decrypt? _ _ _ _ <;> rfl

lemma openContainer_of_contentKey {container : Container} {key : KeyMaterial} {contentKey : Block 32}
    (h : recoverContentKey container.header key = .ok contentKey) :
    openContainer container key =
      if container.ciphertext.length ≤ Gcm.ciphertextLimit ∧
          Gcm.tag (Aes.blockFunction contentKey) container.header.iv container.ciphertext =
            container.header.authTag then
        .ok (Gcm.crypt (Aes.blockFunction contentKey) container.header.iv container.ciphertext)
      else .error .authentication := by
  rw [openContainer_eq_decrypt? h]
  unfold Aes.decrypt? Gcm.decrypt?
  split_ifs with htag
  · rfl
  · rfl

lemma openContainer_of_error {container : Container} {key : KeyMaterial} {e : Failure}
    (h : recoverContentKey container.header key = .error e) :
    openContainer container key = .error e := by
  unfold openContainer
  rw [h]
  rfl

lemma openOctets_of_container {octets : Octets} {container : Container} (key : KeyMaterial)
    (h : Container.ofOctets octets = .ok container) :
    openOctets octets key = openContainer container key := by
  unfold openOctets
  rw [h]
  rfl

/-- What is opened is what is authentic. -/
theorem openOctets_eq_ok_iff {octets payload : Octets} {key : KeyMaterial} :
    openOctets octets key = .ok payload ↔ Authentic octets key payload := by
  constructor
  · intro h
    cases hc : Container.ofOctets octets with
    | error e => simp [openOctets, hc, bind, Except.bind] at h
    | ok container =>
      rw [openOctets_of_container key hc] at h
      cases hk : recoverContentKey container.header key with
      | error e => simp [openContainer_of_error hk] at h
      | ok contentKey =>
        rw [openContainer_of_contentKey hk] at h
        split_ifs at h with htag
        exact ⟨container, contentKey, hc, hk, htag.1, htag.2, Except.ok.inj h⟩
  · rintro ⟨container, contentKey, hc, hk, hlen, htag, rfl⟩
    rw [openOctets_of_container key hc, openContainer_of_contentKey hk, if_pos ⟨hlen, htag⟩]

lemma Authentic.unique {octets payload payload' : Octets} {key : KeyMaterial}
    (h : Authentic octets key payload) (h' : Authentic octets key payload') : payload = payload' := by
  have he := openOctets_eq_ok_iff.mpr h
  rw [openOctets_eq_ok_iff.mpr h'] at he
  exact (Except.ok.inj he).symm

section Decrypt

variable {source : Source} {key : KeyMaterial} {octets payload : Octets}

lemma decrypt_outcome_of_fault {fault : IoFault} (h : source.fault? = some fault) (s : Session Sink) :
    (decrypt source key).outcome s = some (.error (.io fault), s) := by
  unfold decrypt readContainer
  apply Action.outcome_bind_of_error
  apply Action.outcome_bind_of_error
  rw [Action.outcome_ofIo, Source.readAll_of_fault h]
  rfl

def parsedJournal {σ : Type} (s : Session σ) (container : Container) : Session σ :=
  { s with journal := s.journal ++ [.containerParsed container.header.ciphertextLength.toNat] }

lemma readContainer_outcome {σ : Type} (h : source.readAll = .ok octets) (s : Session σ) :
    (readContainer source).outcome s = some (match Container.ofOctets octets with
      | .ok container => (.ok container, parsedJournal s container)
      | .error e => (.error e, s)) := by
  unfold readContainer
  rw [Action.outcome_bind_of_ok (a := octets) (t := s) _ (by rw [Action.outcome_ofIo, h]; rfl)]
  cases hc : Container.ofOctets octets with
  | error e => exact Action.outcome_ofExcept_bind_of_error rfl _ s
  | ok container =>
    rw [Action.outcome_ofExcept_bind_of_ok rfl, Action.outcome_report_bind]
    rfl

lemma ofOctets_of_readContainer {σ : Type} {container : Container} {s t : Session σ}
    (h : (readContainer source).outcome s = some (.ok container, t)) :
    ∃ octets, source.readAll = .ok octets ∧ Container.ofOctets octets = .ok container := by
  obtain ⟨octets, t₁, hread, hrest⟩ := Action.outcome_bind_eq_ok.mp h
  obtain ⟨container', t₂, hparse, hreport⟩ := Action.outcome_bind_eq_ok.mp hrest
  rw [Action.outcome_report_bind] at hreport
  obtain ⟨rfl, -⟩ := Action.outcome_pure_eq_ok hreport
  exact ⟨octets, (Action.outcome_ofIo_eq_ok hread).1, (Action.outcome_ofExcept_eq_ok hparse).1⟩

/-- A refused string of octets leaves the sink alone. -/
lemma decrypt_outcome_of_refused {e : Failure} (h : source.readAll = .ok octets)
    (hr : openOctets octets key = .error e) (s : Session Sink) :
    ∃ t, (decrypt source key).outcome s = some (.error e, t) ∧ t.store = s.store := by
  have hread := readContainer_outcome h s
  unfold decrypt
  cases hc : Container.ofOctets octets with
  | error e' =>
    have he : e' = e := by simpa [openOctets, hc, bind, Except.bind] using hr
    rw [hc, he] at hread
    exact ⟨s, Action.outcome_bind_of_error _ hread, rfl⟩
  | ok container =>
    rw [hc] at hread
    rw [openOctets_of_container key hc] at hr
    refine ⟨parsedJournal s container, ?_, rfl⟩
    rw [Action.outcome_bind_of_ok _ hread, Action.outcome_ofExcept_bind_of_error hr]

/-- Writing and flushing is releasing; what follows runs if both succeed. -/
lemma outcome_release {α : Type} (xs : Octets) (next : Unit → Action Sink α) (s : Session Sink) :
    Action.outcome (do Action.onStore (Sink.writeAll xs); next (← Action.onStore Sink.flush)) s =
      (s.store.release xs).1.elim ((next ()).outcome { s with store := (s.store.release xs).2 })
        fun fault => some (.error (.io fault), { s with store := (s.store.release xs).2 }) := by
  rw [Action.outcome_bind, Action.outcome_onStore]
  cases hw : (s.store.writeAll xs).1 with
  | some fault =>
    rw [Sink.release_of_fault hw, hw]
    rfl
  | none =>
    rw [Sink.release_of_written hw]
    change Action.outcome (Action.onStore Sink.flush >>= next) _ = _
    rw [Action.outcome_bind, Action.outcome_onStore]
    cases hf : s.store.flushFault with
    | some fault => simp [Sink.flush, hf]
    | none => simp [Sink.flush, hf]

/-- An authentic payload is released to the sink, and the sink decides the result. -/
lemma decrypt_outcome_of_opened (h : source.readAll = .ok octets)
    (ha : openOctets octets key = .ok payload) (s : Session Sink) :
    ∃ t, (decrypt source key).outcome s =
        some ((s.store.release payload).1.elim (.ok ⟨key.scheme, payload.length⟩)
          fun fault => .error (.io fault), t) ∧
      t.store = (s.store.release payload).2 := by
  obtain ⟨container, contentKey, hc, -⟩ := openOctets_eq_ok_iff.mp ha
  have hread := readContainer_outcome h s
  rw [hc] at hread
  rw [openOctets_of_container key hc] at ha
  unfold decrypt
  rw [Action.outcome_bind_of_ok _ hread, Action.outcome_ofExcept_bind_of_ok ha, outcome_release payload (fun _ => _)]
  cases hr : (s.store.release payload).1 with
  | some fault =>
    rw [show ((parsedJournal s container).store.release payload).1 = some fault from hr]
    exact ⟨_, rfl, rfl⟩
  | none =>
    rw [show ((parsedJournal s container).store.release payload).1 = none from hr]
    exact ⟨_, Action.outcome_report_bind _ _ _, rfl⟩

lemma authentic_of_decrypt {summary : OpenSummary} {s t : Session Sink} (h : source.readAll = .ok octets)
    (hopen : (decrypt source key).outcome s = some (.ok summary, t)) :
    ∃ payload, Authentic octets key payload := by
  cases ho : openOctets octets key with
  | ok payload => exact ⟨payload, openOctets_eq_ok_iff.mp ho⟩
  | error e =>
    obtain ⟨u, hrun, -⟩ := decrypt_outcome_of_refused h ho s
    rw [hopen] at hrun
    cases hrun

end Decrypt

end SealedImage
