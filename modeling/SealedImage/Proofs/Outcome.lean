import Mathlib.Tactic.Common
import SealedImage.Action

/-!
# Outcomes of actions

How the outcome of a composed action follows from the outcomes of its parts. Proofs about an operation
take it apart with `outcome_bind` and its two inversions, and never unfold the layers of the monad.
-/

namespace SealedImage.Action

variable {σ α β : Type}

@[simp] lemma outcome_pure (a : α) (s : Session σ) :
    (pure a : Action σ α).outcome s = some (.ok a, s) := rfl

@[simp] lemma outcome_throw (e : Failure) (s : Session σ) :
    (throw e : Action σ α).outcome s = some (.error e, s) := rfl

@[simp] lemma outcome_report (e : Event) (s : Session σ) :
    (report e).outcome s = some (.ok (), { s with journal := s.journal ++ [e] }) := rfl

lemma outcome_draw (d : Draw α) (s : Session σ) :
    (draw d).outcome s = (d s.tape).map fun r => (.ok r.1, { s with tape := r.2 }) := rfl

@[simp] lemma outcome_ofExcept (r : Except Failure α) (s : Session σ) :
    (ofExcept r).outcome s = some (r, s) := rfl

@[simp] lemma outcome_ofIo (r : Except IoFault α) (s : Session σ) :
    (ofIo r).outcome s = some (r.mapError .io, s) := rfl

lemma outcome_onStore (f : σ → Option IoFault × σ) (s : Session σ) :
    (onStore f).outcome s = some (((f s.store).1.elim (.ok ()) fun fault => .error (.io fault)),
      { s with store := (f s.store).2 }) := by
  unfold onStore outcome
  rcases h : f s.store with ⟨_ | fault, store⟩ <;> simp [ExceptT.run, StateT.run, ExceptT.mk, h]

lemma outcome_onOwnStore {τ : Type} (store : τ) (a : Action τ α) (s : Session σ) :
    (onOwnStore store a).outcome s = (a.outcome ⟨s.tape, s.journal, store⟩).map fun r =>
      (.ok (r.1, r.2.store), ⟨r.2.tape, r.2.journal, s.store⟩) := rfl

/-- An action has one outcome in a session. -/
lemma outcome_unique {x : Action σ α} {s t u : Session σ} {r q : Except Failure α}
    (h : x.outcome s = some (r, t)) (h' : x.outcome s = some (q, u)) : r = q ∧ t = u :=
  Prod.mk.inj (Option.some.inj (h.symm.trans h'))

/-- An action goes on from where the one before it ended, and a failure ends it. -/
lemma outcome_bind (x : Action σ α) (f : α → Action σ β) (s : Session σ) :
    outcome (x >>= f) s = (x.outcome s).bind fun r =>
      match r with
      | (.ok a, t) => (f a).outcome t
      | (.error e, t) => some (.error e, t) := by
  unfold outcome
  rw [ExceptT.run_bind]
  change (x.run.run s).bind _ = _
  congr 1
  funext ⟨r, t⟩
  cases r <;> rfl

lemma outcome_bind_of_ok {x : Action σ α} {s t : Session σ} {a : α} (f : α → Action σ β)
    (h : x.outcome s = some (.ok a, t)) : outcome (x >>= f) s = (f a).outcome t := by
  rw [outcome_bind, h]
  rfl

lemma outcome_bind_of_error {x : Action σ α} {s t : Session σ} {e : Failure} (f : α → Action σ β)
    (h : x.outcome s = some (.error e, t)) : outcome (x >>= f) s = some (.error e, t) := by
  rw [outcome_bind, h]
  rfl

/-- A composed action succeeds by way of an intermediate result. -/
lemma outcome_bind_eq_ok {x : Action σ α} {f : α → Action σ β} {s u : Session σ} {b : β} :
    outcome (x >>= f) s = some (.ok b, u) ↔
      ∃ a t, x.outcome s = some (.ok a, t) ∧ (f a).outcome t = some (.ok b, u) := by
  rw [outcome_bind]
  constructor
  · intro h
    obtain ⟨⟨r, t⟩, hx, hf⟩ := Option.bind_eq_some_iff.mp h
    cases r with
    | ok a => exact ⟨a, t, hx, hf⟩
    | error e => simp at hf
  · rintro ⟨a, t, hx, hf⟩
    rw [hx]
    exact hf

/-- A composed action fails in its first part or, behind an intermediate result, in its second. -/
lemma outcome_bind_eq_error {x : Action σ α} {f : α → Action σ β} {s u : Session σ} {e : Failure} :
    outcome (x >>= f) s = some (.error e, u) ↔
      x.outcome s = some (.error e, u) ∨
        ∃ a t, x.outcome s = some (.ok a, t) ∧ (f a).outcome t = some (.error e, u) := by
  rw [outcome_bind]
  constructor
  · intro h
    obtain ⟨⟨r, t⟩, hx, hf⟩ := Option.bind_eq_some_iff.mp h
    cases r with
    | ok a => exact Or.inr ⟨a, t, hx, hf⟩
    | error e' =>
      simp only [Option.some.injEq, Prod.mk.injEq, Except.error.injEq] at hf
      obtain ⟨rfl, rfl⟩ := hf
      exact Or.inl hx
  · rintro (hx | ⟨a, t, hx, hf⟩)
    · rw [hx]
      rfl
    · rw [hx]
      exact hf

lemma outcome_bind_pure (x : Action σ α) (f : α → β) (s : Session σ) :
    outcome (do pure (f (← x))) s = (x.outcome s).map fun r => (r.1.map f, r.2) := by
  rw [outcome_bind]
  rcases x.outcome s with _ | ⟨e | a, t⟩ <;> rfl

lemma outcome_report_bind (e : Event) (f : Unit → Action σ β) (s : Session σ) :
    outcome (report e >>= f) s = (f ()).outcome { s with journal := s.journal ++ [e] } :=
  outcome_bind_of_ok f (outcome_report e s)

lemma outcome_ofExcept_bind_of_ok {r : Except Failure α} {a : α} (h : r = .ok a) (f : α → Action σ β)
    (s : Session σ) : outcome (ofExcept r >>= f) s = (f a).outcome s := by
  rw [h]
  exact outcome_bind_of_ok f (outcome_ofExcept (.ok a) s)

lemma outcome_ofExcept_bind_of_error {r : Except Failure α} {e : Failure} (h : r = .error e) (f : α → Action σ β)
    (s : Session σ) : outcome (ofExcept r >>= f) s = some (.error e, s) := by
  rw [h]
  exact outcome_bind_of_error f (outcome_ofExcept (.error e) s)

lemma outcome_pure_eq_ok {a b : α} {s t : Session σ}
    (h : (pure a : Action σ α).outcome s = some (.ok b, t)) : b = a ∧ t = s := by
  obtain ⟨hresult, rfl⟩ := Prod.mk.inj (Option.some.inj h)
  exact ⟨(Except.ok.inj hresult).symm, rfl⟩

lemma outcome_ofExcept_eq_ok {r : Except Failure α} {s t : Session σ} {a : α}
    (h : (ofExcept r).outcome s = some (.ok a, t)) : r = .ok a ∧ t = s := by
  obtain ⟨hr, rfl⟩ := Prod.mk.inj (Option.some.inj h)
  exact ⟨hr, rfl⟩

lemma outcome_ofIo_eq_ok {r : Except IoFault α} {s t : Session σ} {a : α}
    (h : (ofIo r).outcome s = some (.ok a, t)) : r = .ok a ∧ t = s := by
  obtain ⟨hr, rfl⟩ := outcome_ofExcept_eq_ok h
  cases r with
  | error fault => cases hr
  | ok b => exact ⟨congrArg Except.ok (Except.ok.inj hr), rfl⟩

lemma outcome_onStore_eq_ok {f : σ → Option IoFault × σ} {s t : Session σ}
    (h : (onStore f).outcome s = some (.ok (), t)) : (f s.store).1 = none ∧ t.store = (f s.store).2 := by
  rw [outcome_onStore] at h
  cases hfault : (f s.store).1 with
  | none =>
    rw [hfault] at h
    obtain ⟨-, rfl⟩ := Prod.mk.inj (Option.some.inj h)
    exact ⟨rfl, rfl⟩
  | some fault =>
    rw [hfault] at h
    cases (Prod.mk.inj (Option.some.inj h)).1

/-- The action leaves alone what a view shows of a session. -/
def Preserves {τ : Type} (view : Session σ → τ) (x : Action σ α) : Prop :=
  ∀ s r t, x.outcome s = some (r, t) → view t = view s

section Preserves

variable {τ : Type} {view : Session σ → τ}

lemma Preserves.bind {x : Action σ α} {f : α → Action σ β} (hx : x.Preserves view)
    (hf : ∀ a, (f a).Preserves view) : Preserves view (x >>= f) := by
  intro s r u h
  rw [outcome_bind] at h
  obtain ⟨⟨r', t⟩, hxo, hrest⟩ := Option.bind_eq_some_iff.mp h
  cases r' with
  | error e =>
    simp only [Option.some.injEq, Prod.mk.injEq] at hrest
    rw [← hrest.2]
    exact hx s _ t hxo
  | ok a => exact (hf a t r u hrest).trans (hx s _ t hxo)

lemma preserves_ofExcept (r : Except Failure α) : Preserves view (ofExcept r : Action σ α) := by
  intro s r' t h
  rw [← (Prod.mk.inj (Option.some.inj h)).2]

lemma preserves_pure (a : α) : Preserves view (pure a : Action σ α) :=
  preserves_ofExcept (.ok a)

lemma preserves_throw (e : Failure) : Preserves view (throw e : Action σ α) :=
  preserves_ofExcept (.error e)

lemma preserves_report (hview : ∀ s journal, view { s with journal := journal } = view s) (e : Event) :
    Preserves view (report e) := by
  intro s r t h
  rw [← (Prod.mk.inj (Option.some.inj h)).2]
  exact hview s _

end Preserves

/-- The action ends in every session, and takes nothing from the tape. -/
def Ends (x : Action σ α) : Prop :=
  ∀ s : Session σ, ∃ result t, x.outcome s = some (result, t) ∧ t.tape = s.tape

section Ends

lemma Ends.bind {x : Action σ α} {f : α → Action σ β} (hx : x.Ends) (hf : ∀ a, (f a).Ends) :
    Ends (x >>= f) := by
  intro s
  obtain ⟨result, t, hrun, htape⟩ := hx s
  cases result with
  | error e => exact ⟨.error e, t, outcome_bind_of_error f hrun, htape⟩
  | ok a =>
    obtain ⟨result, u, hrest, htape'⟩ := hf a t
    exact ⟨result, u, (outcome_bind_of_ok f hrun).trans hrest, htape'.trans htape⟩

lemma ends_ofExcept (r : Except Failure α) : Ends (ofExcept r : Action σ α) :=
  fun s => ⟨r, s, rfl, rfl⟩

lemma ends_pure (a : α) : Ends (pure a : Action σ α) :=
  ends_ofExcept (.ok a)

lemma ends_throw (e : Failure) : Ends (throw e : Action σ α) :=
  ends_ofExcept (.error e)

lemma ends_report (e : Event) : Ends (report e : Action σ Unit) :=
  fun s => ⟨_, _, outcome_report e s, rfl⟩

end Ends

end SealedImage.Action
