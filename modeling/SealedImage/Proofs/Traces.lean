import Mathlib.Data.List.Chain
import Mathlib.Tactic.Common
import SealedImage.Proofs.Codec
import SealedImage.Proofs.Outcome
import SealedImage.Proofs.Spans

/-!
# Traces

A trace is what an action reads from the tape and what it reports, in order. `Action.Behaves x R` says that
the traces and results that `R` relates are all that `x` does: it ends in a result exactly if the tape starts
with the octets of a trace for it, leaves the rest of the tape unread whatever that is, and adds the events of
the trace to the journal. The store has no part in it. The spans of what a trace reads follow one another.
-/

namespace SealedImage

/-- What a value that is read from the tape is for. -/
inductive Use
  | deviceSeed
  | scalar
  | salt
  | contentKey
  | filler
  /-- An octet in place of a zero in a filler. -/
  | redraw
  | iv
deriving DecidableEq

/-- How many octets are read at once. -/
abbrev Use.size : Use → Nat
  | deviceSeed | scalar | salt | contentKey => 32
  | filler => 349
  | redraw => 1
  | iv => 16

lemma Use.size_pos (use : Use) : 0 < use.size := by
  cases use <;> decide

inductive Step
  | drawn (use : Use) (block : Block use.size)
  | reported (event : Event)

abbrev Trace := List Step

/-- A value that was read, and where it stands on the tape. -/
structure Reading where
  use : Use
  offset : Nat
  block : Block use.size

def Reading.span (reading : Reading) : Span :=
  ⟨reading.offset, reading.use.size⟩

namespace Trace

def octets : Trace → Octets
  | [] => []
  | .drawn _ block :: trace => block.octets ++ octets trace
  | .reported _ :: trace => octets trace

def events : Trace → List Event
  | [] => []
  | .drawn _ _ :: trace => events trace
  | .reported e :: trace => e :: events trace

/-- What a trace reads from a tape of which `offset` octets are read already. -/
def readings (offset : Nat) : Trace → List Reading
  | [] => []
  | .drawn use block :: trace => ⟨use, offset, block⟩ :: readings (offset + use.size) trace
  | .reported _ :: trace => readings offset trace

def uses : Trace → List Use
  | [] => []
  | .drawn use _ :: trace => use :: uses trace
  | .reported _ :: trace => uses trace

variable (trace trace' : Trace)

@[simp] lemma octets_nil : octets [] = [] := rfl

@[simp] lemma octets_drawn (use : Use) (block : Block use.size) :
    octets (.drawn use block :: trace) = block.octets ++ octets trace := rfl

@[simp] lemma octets_reported (e : Event) : octets (.reported e :: trace) = octets trace := rfl

@[simp] lemma events_nil : events [] = [] := rfl

@[simp] lemma events_drawn (use : Use) (block : Block use.size) :
    events (.drawn use block :: trace) = events trace := rfl

@[simp] lemma events_reported (e : Event) : events (.reported e :: trace) = e :: events trace := rfl

@[simp] lemma uses_nil : uses [] = [] := rfl

@[simp] lemma uses_drawn (use : Use) (block : Block use.size) :
    uses (.drawn use block :: trace) = use :: uses trace := rfl

@[simp] lemma uses_reported (e : Event) : uses (.reported e :: trace) = uses trace := rfl

@[simp] lemma octets_append : octets (trace ++ trace') = octets trace ++ octets trace' := by
  induction trace with
  | nil => rfl
  | cons step trace ih => cases step <;> simp [ih]

@[simp] lemma events_append : events (trace ++ trace') = events trace ++ events trace' := by
  induction trace with
  | nil => rfl
  | cons step trace ih => cases step <;> simp [ih]

@[simp] lemma uses_append : uses (trace ++ trace') = uses trace ++ uses trace' := by
  induction trace with
  | nil => rfl
  | cons step trace ih => cases step <;> simp [ih]

lemma readings_append (offset : Nat) :
    readings offset (trace ++ trace') =
      readings offset trace ++ readings (offset + (octets trace).length) trace' := by
  induction trace generalizing offset with
  | nil => rfl
  | cons step trace ih => cases step <;> simp [readings, ih, Nat.add_assoc]

lemma readings_uses (offset : Nat) : (readings offset trace).map Reading.use = uses trace := by
  induction trace generalizing offset with
  | nil => rfl
  | cons step trace ih => cases step <;> simp [readings, ih]

lemma le_offset_of_mem_readings {offset : Nat} {reading : Reading} (h : reading ∈ readings offset trace) :
    offset ≤ reading.offset := by
  induction trace generalizing offset with
  | nil => cases h
  | cons step trace ih =>
    cases step with
    | drawn use block =>
      rcases List.mem_cons.mp h with rfl | h
      · exact Nat.le_refl _
      · exact (Nat.le_add_right _ _).trans (ih h)
    | reported e => exact ih h

/-- What is read stands apart from all that is read later. -/
theorem readings_apart (offset : Nat) :
    (readings offset trace).Pairwise fun a b => a.span.Apart b.span := by
  induction trace generalizing offset with
  | nil => exact .nil
  | cons step trace ih =>
    cases step with
    | drawn use block => exact .cons (fun reading h => Or.inl (le_offset_of_mem_readings trace h)) (ih _)
    | reported e => exact ih offset

lemma offset_of_head_readings {offset : Nat} {reading : Reading} (h : reading ∈ (readings offset trace).head?) :
    reading.offset = offset := by
  induction trace with
  | nil => cases h
  | cons step trace ih =>
    cases step with
    | drawn use block =>
      obtain rfl := Option.some.inj h
      rfl
    | reported e => exact ih h

/-- What is read follows on what was read before it. -/
theorem readings_consecutive (offset : Nat) :
    (readings offset trace).IsChain fun a b => b.offset = a.span.stop := by
  induction trace generalizing offset with
  | nil => exact .nil
  | cons step trace ih =>
    cases step with
    | drawn use block => exact List.isChain_cons.mpr ⟨fun _ h => offset_of_head_readings trace h, ih _⟩
    | reported e => exact ih offset

lemma readings_octets (offset : Nat) : (readings offset trace).flatMap (·.block.octets) = octets trace := by
  induction trace generalizing offset with
  | nil => rfl
  | cons step trace ih => cases step <;> simp [readings, ih]

lemma slice_of_mem_readings {reading : Reading} (before rest : Octets)
    (h : reading ∈ readings before.length trace) :
    (before ++ octets trace ++ rest).slice reading.span = reading.block.octets := by
  induction trace generalizing before with
  | nil => cases h
  | cons step trace ih =>
    cases step with
    | drawn use block =>
      rcases List.mem_cons.mp h with rfl | h
      · rw [octets_drawn, List.append_assoc, List.append_assoc]
        exact Octets.take_drop_middle rfl block.length_octets
      · have hoffset : before.length + use.size = (before ++ block.octets).length := by
          rw [List.length_append, block.length_octets]
        rw [hoffset] at h
        rw [octets_drawn, ← List.append_assoc before]
        exact ih _ h
    | reported e => exact ih before h

end Trace

/-- A session becomes another one by what a trace reads and reports. -/
structure Session.Passes {σ : Type} (s : Session σ) (trace : Trace) (t : Session σ) : Prop where
  tape : s.tape = trace.octets ++ t.tape
  journal : t.journal = s.journal ++ trace.events
  store : t.store = s.store

section Passes

variable {σ : Type} {s t u : Session σ} {trace trace' : Trace}

lemma Session.passes_nil_iff : s.Passes [] t ↔ t = s := by
  constructor
  · rintro ⟨htape, hjournal, hstore⟩
    rw [Trace.events_nil, List.append_nil] at hjournal
    cases s
    cases t
    simp_all
  · rintro rfl
    exact ⟨rfl, (List.append_nil _).symm, rfl⟩

lemma Session.passes_append_iff : s.Passes (trace ++ trace') u ↔ ∃ t, s.Passes trace t ∧ t.Passes trace' u := by
  constructor
  · rintro ⟨htape, hjournal, hstore⟩
    refine ⟨⟨trace'.octets ++ u.tape, s.journal ++ trace.events, s.store⟩, ⟨?_, rfl, rfl⟩, ⟨rfl, ?_, hstore⟩⟩
    · rw [htape, Trace.octets_append, List.append_assoc]
    · rw [hjournal, Trace.events_append, List.append_assoc]
  · rintro ⟨t, ⟨htape, hjournal, hstore⟩, ⟨htape', hjournal', hstore'⟩⟩
    refine ⟨?_, ?_, hstore'.trans hstore⟩
    · rw [htape, htape', Trace.octets_append, List.append_assoc]
    · rw [hjournal', hjournal, Trace.events_append, List.append_assoc]

end Passes

/-- A draw takes what the traces of a relation read, and nothing else. -/
structure Draw.Reads {α : Type} (d : Draw α) (R : Trace → α → Prop) : Prop where
  quiet : ∀ trace a, R trace a → trace.events = []
  outcome : ∀ tape a rest, d tape = some (a, rest) ↔ ∃ trace, R trace a ∧ tape = trace.octets ++ rest

lemma Draw.Reads.congr {α : Type} {d : Draw α} {R R' : Trace → α → Prop} (hd : d.Reads R)
    (h : ∀ trace a, R trace a ↔ R' trace a) : d.Reads R' :=
  ⟨fun trace a ha => hd.quiet trace a ((h trace a).mpr ha), fun tape a rest => by
    simp only [hd.outcome tape a rest, h]⟩

namespace Action

variable {σ α β : Type}

/-- The traces and results of a relation are all that an action does. -/
def Behaves (x : Action σ α) (R : Trace → Except Failure α → Prop) : Prop :=
  ∀ s r t, x.outcome s = some (r, t) ↔ ∃ trace, R trace r ∧ s.Passes trace t

/-- What an action does that goes on from the result of another one. -/
inductive Then (R : Trace → Except Failure α → Prop) (R' : α → Trace → Except Failure β → Prop) :
    Trace → Except Failure β → Prop
  | failed {trace : Trace} {e : Failure} (fails : R trace (.error e)) : Then R R' trace (.error e)
  | passed {trace trace' : Trace} {a : α} {r : Except Failure β} (first : R trace (.ok a))
      (second : R' a trace' r) : Then R R' (trace ++ trace') r

lemma Behaves.congr {x : Action σ α} {R R' : Trace → Except Failure α → Prop} (hx : x.Behaves R)
    (h : ∀ trace r, R trace r ↔ R' trace r) : x.Behaves R' := by
  intro s r t
  simp only [hx s r t, h]

/-- What only draws and reports does the same in every session with the same tape, whatever its store is. -/
lemma Behaves.outcome_elsewhere {τ : Type} {x : Action σ α} {y : Action τ α}
    {R : Trace → Except Failure α → Prop} (hx : x.Behaves R) (hy : y.Behaves R) {s t : Session σ}
    {r : Except Failure α} (h : x.outcome s = some (r, t)) :
    ∃ events, t.journal = s.journal ++ events ∧ t.store = s.store ∧ ∀ s' : Session τ, s'.tape = s.tape →
      y.outcome s' = some (r, ⟨t.tape, s'.journal ++ events, s'.store⟩) := by
  obtain ⟨trace, hR, htape, hjournal, hstore⟩ := (hx s r t).mp h
  refine ⟨trace.events, hjournal, hstore, fun s' htape' => ?_⟩
  exact (hy s' r _).mpr ⟨trace, hR, ⟨htape'.trans htape, rfl, rfl⟩⟩

lemma behaves_ofExcept (r : Except Failure α) :
    (ofExcept r : Action σ α).Behaves fun trace r' => trace = [] ∧ r' = r := by
  intro s r' t
  rw [outcome_ofExcept]
  constructor
  · intro h
    obtain ⟨rfl, rfl⟩ := Prod.mk.inj (Option.some.inj h)
    exact ⟨[], ⟨rfl, rfl⟩, Session.passes_nil_iff.mpr rfl⟩
  · rintro ⟨trace, ⟨rfl, rfl⟩, hpasses⟩
    rw [Session.passes_nil_iff.mp hpasses]

lemma behaves_pure (a : α) : (pure a : Action σ α).Behaves fun trace r => trace = [] ∧ r = .ok a :=
  behaves_ofExcept (.ok a)

lemma behaves_throw (e : Failure) :
    (throw e : Action σ α).Behaves fun trace r => trace = [] ∧ r = .error e :=
  behaves_ofExcept (.error e)

lemma behaves_report (e : Event) :
    (report e : Action σ Unit).Behaves fun trace r => trace = [.reported e] ∧ r = .ok () := by
  intro s r t
  rw [outcome_report]
  constructor
  · intro h
    obtain ⟨rfl, rfl⟩ := Prod.mk.inj (Option.some.inj h)
    exact ⟨_, ⟨rfl, rfl⟩, ⟨rfl, rfl, rfl⟩⟩
  · rintro ⟨trace, ⟨rfl, rfl⟩, ⟨htape, hjournal, hstore⟩⟩
    obtain ⟨tape, journal, store⟩ := t
    simp_all

lemma behaves_draw {d : Draw α} {R : Trace → α → Prop} (h : d.Reads R) :
    (draw d : Action σ α).Behaves fun trace r => ∃ a, R trace a ∧ r = .ok a := by
  intro s r t
  rw [outcome_draw]
  constructor
  · intro hd
    obtain ⟨⟨a, rest⟩, hread, hpair⟩ := Option.map_eq_some_iff.mp hd
    obtain ⟨rfl, rfl⟩ := Prod.mk.inj hpair
    obtain ⟨trace, hR, htape⟩ := (h.outcome s.tape a rest).mp hread
    refine ⟨trace, ⟨a, hR, rfl⟩, ⟨htape, ?_, rfl⟩⟩
    rw [h.quiet trace a hR, List.append_nil]
  · rintro ⟨trace, ⟨a, hR, rfl⟩, ⟨htape, hjournal, hstore⟩⟩
    rw [(h.outcome s.tape a t.tape).mpr ⟨trace, hR, htape⟩]
    rw [h.quiet trace a hR, List.append_nil] at hjournal
    rw [Option.map_some, ← hjournal, ← hstore]

/-- An action that goes on from another one does what both do, in order. -/
theorem Behaves.bind {x : Action σ α} {f : α → Action σ β} {R : Trace → Except Failure α → Prop}
    {R' : α → Trace → Except Failure β → Prop} (hx : x.Behaves R) (hf : ∀ a, (f a).Behaves (R' a)) :
    (x >>= f : Action σ β).Behaves (Then R R') := by
  intro s r u
  constructor
  · intro h
    rw [outcome_bind] at h
    obtain ⟨⟨r', t⟩, hfirst, hrest⟩ := Option.bind_eq_some_iff.mp h
    obtain ⟨trace, hR, hpasses⟩ := (hx s r' t).mp hfirst
    cases r' with
    | error e =>
      obtain ⟨rfl, rfl⟩ := Prod.mk.inj (Option.some.inj hrest)
      exact ⟨trace, .failed hR, hpasses⟩
    | ok a =>
      obtain ⟨trace', hR', hpasses'⟩ := (hf a t r u).mp hrest
      exact ⟨trace ++ trace', .passed hR hR', Session.passes_append_iff.mpr ⟨t, hpasses, hpasses'⟩⟩
  · rintro ⟨trace, hthen, hpasses⟩
    cases hthen with
    | failed hR => exact outcome_bind_of_error f ((hx s _ u).mpr ⟨trace, hR, hpasses⟩)
    | passed hR hR' =>
      obtain ⟨t, hfirst, hsecond⟩ := Session.passes_append_iff.mp hpasses
      rw [outcome_bind_of_ok f ((hx s _ t).mpr ⟨_, hR, hfirst⟩)]
      exact (hf _ t r u).mpr ⟨_, hR', hsecond⟩

lemma Behaves.map {x : Action σ α} {R : Trace → Except Failure α → Prop} (hx : x.Behaves R) (f : α → β) :
    (x >>= fun a => pure (f a) : Action σ β).Behaves fun trace r => ∃ r', R trace r' ∧ r = r'.map f := by
  refine (hx.bind fun a => behaves_pure (f a)).congr fun trace r => ⟨fun h => ?_, ?_⟩
  · cases h with
    | failed h => exact ⟨_, h, rfl⟩
    | passed first second =>
      obtain ⟨rfl, rfl⟩ := second
      exact ⟨_, by rwa [List.append_nil], rfl⟩
  · rintro ⟨r', hR, rfl⟩
    cases r' with
    | error e => exact .failed hR
    | ok a =>
      rw [← List.append_nil trace]
      exact .passed hR ⟨rfl, rfl⟩

lemma behaves_draw_bind {d : Draw α} {f : α → Action σ β} {R : Trace → α → Prop}
    {R' : α → Trace → Except Failure β → Prop} (hd : d.Reads R) (hf : ∀ a, (f a).Behaves (R' a)) :
    (draw d >>= f : Action σ β).Behaves fun trace r =>
      ∃ a first second, R first a ∧ R' a second r ∧ trace = first ++ second := by
  refine ((behaves_draw hd).bind hf).congr fun trace r => ⟨fun h => ?_, ?_⟩
  · cases h with
    | failed h =>
      obtain ⟨a, -, he⟩ := h
      cases he
    | passed first second =>
      obtain ⟨a, hR, ha⟩ := first
      obtain rfl := Except.ok.inj ha
      exact ⟨_, _, _, hR, second, rfl⟩
  · rintro ⟨a, first, second, hR, hR', rfl⟩
    exact .passed ⟨a, hR, rfl⟩ hR'

lemma behaves_report_bind (e : Event) {f : Unit → Action σ β} {R : Trace → Except Failure β → Prop}
    (hf : (f ()).Behaves R) :
    (report e >>= f : Action σ β).Behaves fun trace r => ∃ later, R later r ∧ trace = .reported e :: later := by
  refine ((behaves_report e).bind fun _ => hf).congr fun trace r => ⟨fun h => ?_, ?_⟩
  · cases h with
    | failed h => cases h.2
    | passed first second =>
      obtain ⟨rfl, -⟩ := first
      exact ⟨_, second, rfl⟩
  · rintro ⟨later, hR, rfl⟩
    exact @Then.passed _ _ _ _ [.reported e] later () r ⟨rfl, rfl⟩ hR

lemma behaves_throw_bind (e : Failure) (f : α → Action σ β) :
    (throw e >>= f : Action σ β).Behaves fun trace r => trace = [] ∧ r = .error e :=
  behaves_throw e

lemma behaves_pure_bind (a : α) {f : α → Action σ β} {R : Trace → Except Failure β → Prop}
    (hf : (f a).Behaves R) : (pure a >>= f : Action σ β).Behaves R :=
  hf

end Action

end SealedImage
