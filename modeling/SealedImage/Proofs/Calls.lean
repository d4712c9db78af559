import Mathlib.Tactic.Common
import SealedImage.Proofs.Preparation
import SealedImage.Proofs.Streams

/-!
# Calls of encryption

An encryption reads its source, seals the payload and releases the image. `Encrypts` has one constructor for
each way in which that can end, with the trace of what is drawn and reported up to there, and
`encrypt_outcome_iff` says that an encryption does nothing else. Proofs about encryption go by cases on
`Encrypts` and never run it.
-/

namespace SealedImage

/-- What an encryption does with the tape, the journal and the sink. -/
inductive Encrypts (source : Source) (key : Option KeyMaterial) (options : SealOptions) (sink : Sink) :
    Trace → Except Failure SealSummary → Sink → Prop
  | unread {fault : IoFault} (hread : source.readAll = .error fault) :
    Encrypts source key options sink [] (.error (.io fault)) sink
  | unsealed {payload : Octets} {trace : Trace} {e : Failure} (hread : source.readAll = .ok payload)
      (seals : Seals payload key options trace (.error e)) : Encrypts source key options sink trace (.error e) sink
  | unwritten {payload : Octets} {trace : Trace} {container : Container} {scheme : Scheme}
      {device : Option DeviceKey} {fault : IoFault} (hread : source.readAll = .ok payload)
      (seals : Seals payload key options trace (.ok (container, scheme, device)))
      (hfault : (sink.release container.toOctets).1 = some fault) :
    Encrypts source key options sink trace (.error (.io fault)) (sink.release container.toOctets).2
  | written {payload : Octets} {trace : Trace} {container : Container} {scheme : Scheme}
      {device : Option DeviceKey} (hread : source.readAll = .ok payload)
      (seals : Seals payload key options trace (.ok (container, scheme, device)))
      (hdone : (sink.release container.toOctets).1 = none) :
    Encrypts source key options sink (trace ++ [.reported (.payloadEncrypted scheme payload.length)])
      (.ok ⟨scheme, payload.length, Layout.headerSize + payload.length, device⟩)
      (sink.release container.toOctets).2

section Outcome

/-- The image is released whole, although its header and its ciphertext are written apart. -/
lemma outcome_writing (container : Container) (e : Event) (summary : SealSummary) (s : Session Sink) :
    (do
      writeHeader container.header
      Action.onStore (Sink.writeAll container.ciphertext)
      Action.onStore Sink.flush
      Action.report e
      pure summary : Action Sink SealSummary).outcome s =
        some ((s.store.release container.toOctets).1.elim (.ok summary) fun fault => .error (.io fault),
          ⟨s.tape, s.journal ++ (s.store.release container.toOctets).1.elim [e] fun _ => [],
            (s.store.release container.toOctets).2⟩) := by
  obtain ⟨tape, journal, sink⟩ := s
  unfold writeHeader Sink.release Container.toOctets
  rw [Sink.writeAll_append]
  simp only [Action.outcome_bind, Action.outcome_onStore]
  rcases sink.writeAll container.header.toOctets with ⟨_ | fault, afterHeader⟩
  · simp only [Option.bind_some, Option.elim_none]
    rcases afterHeader.writeAll container.ciphertext with ⟨_ | fault, afterAll⟩
    · cases hflush : afterAll.flush with
      | mk fault flushed => cases fault <;> simp [hflush]
    · simp
  · simp

variable {source : Source} {key : Option KeyMaterial} {options : SealOptions} {s t : Session Sink}
  {r : Except Failure SealSummary}

lemma outcome_encrypt_of_readAll {payload : Octets} (hread : source.readAll = .ok payload) :
    (encrypt source key options).outcome s = ((sealPayload payload key options).outcome s).bind fun
      | (.error e, u) => some (.error e, u)
      | (.ok (container, scheme, device), u) =>
        some ((u.store.release container.toOctets).1.elim
            (.ok ⟨scheme, payload.length, Layout.headerSize + payload.length, device⟩) fun fault =>
              .error (.io fault),
          ⟨u.tape, u.journal ++ (u.store.release container.toOctets).1.elim
            [.payloadEncrypted scheme payload.length] fun _ => [], (u.store.release container.toOctets).2⟩) := by
  have hsource : (Action.ofIo source.readAll : Action Sink Octets).outcome s = some (.ok payload, s) := by
    rw [hread]
    rfl
  rw [encrypt, Action.outcome_bind_of_ok _ hsource, Action.outcome_bind]
  congr 1
  funext ⟨r', u⟩
  cases r' with
  | error e => rfl
  | ok image => exact outcome_writing image.1 _ _ u

lemma outcome_encrypt_of_fault {fault : IoFault} (hread : source.readAll = .error fault) :
    (encrypt source key options).outcome s = some (.error (.io fault), s) := by
  have hsource : (Action.ofIo source.readAll : Action Sink Octets).outcome s = some (.error (.io fault), s) := by
    rw [hread]
    rfl
  exact Action.outcome_bind_of_error _ hsource

lemma encrypts_of_outcome (h : (encrypt source key options).outcome s = some (r, t)) : ∃ trace,
    Encrypts source key options s.store trace r t.store ∧ s.Passes trace { t with store := s.store } := by
  obtain ⟨tape, journal, sink⟩ := s
  cases hread : source.readAll with
  | error fault =>
    obtain ⟨rfl, rfl⟩ := Action.outcome_unique (outcome_encrypt_of_fault hread) h
    exact ⟨[], .unread hread, Session.passes_nil_iff.mpr rfl⟩
  | ok payload =>
    rw [outcome_encrypt_of_readAll hread] at h
    obtain ⟨⟨result, u⟩, hseal, hrest⟩ := Option.bind_eq_some_iff.mp h
    obtain ⟨trace, hseals, hpasses⟩ := (sealPayload_behaves payload key options _ result u).mp hseal
    obtain ⟨tape', journal', sink'⟩ := u
    obtain rfl : sink' = sink := hpasses.store
    cases result with
    | error e =>
      cases hrest
      exact ⟨trace, .unsealed hread hseals, hpasses⟩
    | ok image =>
      cases hfault : (sink'.release image.1.toOctets).1 with
      | some fault =>
        simp only [hfault, Option.elim_some, List.append_nil, Option.some.injEq, Prod.mk.injEq] at hrest
        obtain ⟨rfl, rfl⟩ := hrest
        exact ⟨trace, .unwritten hread hseals hfault, hpasses⟩
      | none =>
        simp only [hfault, Option.elim_none, Option.some.injEq, Prod.mk.injEq] at hrest
        obtain ⟨rfl, rfl⟩ := hrest
        refine ⟨_, .written hread hseals hfault, Session.passes_append_iff.mpr ⟨_, hpasses, ?_⟩⟩
        exact ⟨rfl, rfl, rfl⟩

lemma outcome_of_encrypts {trace : Trace} (h : Encrypts source key options s.store trace r t.store)
    (hpasses : s.Passes trace { t with store := s.store }) :
    (encrypt source key options).outcome s = some (r, t) := by
  obtain ⟨tape, journal, sink⟩ := s
  obtain ⟨tape', journal', sink'⟩ := t
  dsimp only at h hpasses
  cases h with
  | unread hread =>
    rw [outcome_encrypt_of_fault hread, ← Session.passes_nil_iff.mp hpasses]
  | unsealed hread seals =>
    rw [outcome_encrypt_of_readAll hread, (sealPayload_behaves _ key options _ _ _).mpr ⟨trace, seals, hpasses⟩]
    rfl
  | unwritten hread seals hfault =>
    rw [outcome_encrypt_of_readAll hread, (sealPayload_behaves _ key options _ _ _).mpr ⟨trace, seals, hpasses⟩]
    simp [hfault]
  | written hread seals hdone =>
    obtain ⟨u, hseals, hreport⟩ := Session.passes_append_iff.mp hpasses
    rw [outcome_encrypt_of_readAll hread, (sealPayload_behaves _ key options _ _ _).mpr ⟨_, seals, hseals⟩]
    obtain ⟨htape, hjournal, hstore⟩ := hreport
    simp_all

/-- What an encryption does is what `Encrypts` says, on every tape that starts with what it reads. -/
theorem encrypt_outcome_iff : (encrypt source key options).outcome s = some (r, t) ↔
    ∃ trace, Encrypts source key options s.store trace r t.store ∧ s.Passes trace { t with store := s.store } :=
  ⟨encrypts_of_outcome, fun ⟨_, h, hpasses⟩ => outcome_of_encrypts h hpasses⟩

end Outcome

end SealedImage
