import Mathlib.Tactic.Common
import SealedImage.Proofs.AtomicFiles
import SealedImage.Proofs.Preparation

/-!
# The journal is written and never read

Events that were reported before an action are carried along by it and have no other part in it
(`Action.JournalBlind`). This holds of every step that encryption and decryption of files are composed of, and
goes over to what is composed of such steps.
-/

namespace SealedImage

/-- The session with other events in front of its journal. -/
def Session.behind {σ : Type} (s : Session σ) (before : List Event) : Session σ :=
  { s with journal := before ++ s.journal }

namespace Action

variable {σ τ α β : Type}

/-- Whatever was reported before, the action goes the same way and leaves the same behind it. -/
def JournalBlind (x : Action σ α) : Prop :=
  ∀ (s : Session σ) (before : List Event),
    x.outcome (s.behind before) = (x.outcome s).map fun r => (r.1, r.2.behind before)

lemma JournalBlind.bind {x : Action σ α} {f : α → Action σ β} (hx : x.JournalBlind)
    (hf : ∀ a, (f a).JournalBlind) : JournalBlind (x >>= f) := by
  intro s before
  rw [outcome_bind, outcome_bind, hx s before]
  cases x.outcome s with
  | none => rfl
  | some r =>
    obtain ⟨result, t⟩ := r
    cases result with
    | error e => rfl
    | ok a => exact hf a t before

lemma journalBlind_ofExcept (r : Except Failure α) : JournalBlind (ofExcept r : Action σ α) :=
  fun _ _ => rfl

lemma journalBlind_pure (a : α) : JournalBlind (pure a : Action σ α) :=
  journalBlind_ofExcept (.ok a)

lemma journalBlind_throw (e : Failure) : JournalBlind (throw e : Action σ α) :=
  journalBlind_ofExcept (.error e)

lemma journalBlind_report (e : Event) : JournalBlind (report e : Action σ Unit) := by
  intro s before
  rw [outcome_report, outcome_report]
  simp [Session.behind]

lemma journalBlind_onStore (f : σ → Option IoFault × σ) : JournalBlind (onStore f) := by
  intro s before
  rw [outcome_onStore, outcome_onStore]
  rfl

lemma journalBlind_files : JournalBlind files :=
  fun _ _ => rfl

/-- What only draws and reports adds its events behind those before. -/
lemma Behaves.journalBlind {x : Action σ α} {R : Trace → Except Failure α → Prop} (hx : x.Behaves R) :
    x.JournalBlind := by
  intro s before
  apply Option.ext
  rintro ⟨r, u⟩
  rw [Option.map_eq_some_iff]
  constructor
  · intro h
    obtain ⟨trace, hr, htape, hjournal, hstore⟩ := (hx _ r u).mp h
    have hbehind : before ++ (s.journal ++ trace.events) = u.journal := by
      rw [hjournal, ← List.append_assoc]
      rfl
    refine ⟨(r, ⟨u.tape, s.journal ++ trace.events, u.store⟩), (hx _ _ _).mpr ⟨trace, hr, htape, rfl, hstore⟩, ?_⟩
    rw [Session.behind, hbehind]
  · rintro ⟨⟨r', t⟩, h, hpair⟩
    obtain ⟨rfl, rfl⟩ := Prod.mk.inj hpair
    obtain ⟨trace, hr, htape, hjournal, hstore⟩ := (hx _ r' t).mp h
    refine (hx _ _ _).mpr ⟨trace, hr, htape, ?_, hstore⟩
    rw [Session.behind, hjournal, ← List.append_assoc]
    rfl

/-- A file is written whole whatever was reported before, if its contents are produced so. -/
lemma JournalBlind.writeAtomicallyOn {produce : Action Sink α} (h : produce.JournalBlind) (medium : Medium)
    (path : String) : (writeAtomicallyOn medium path produce).JournalBlind := by
  intro s before
  have hproduce : produce.outcome ⟨s.tape, before ++ s.journal, medium.newFile⟩ = _ :=
    h ⟨s.tape, s.journal, medium.newFile⟩ before
  have hstore : (s.behind before).store = s.store := rfl
  rw [outcome_writeAtomicallyOn, outcome_writeAtomicallyOn, hstore]
  cases s.store.stage path with
  | error fault => rfl
  | ok staged =>
    dsimp only [Session.behind]
    rw [hproduce, Option.map_map, Option.map_map]
    congr 1
    funext r
    obtain ⟨result, t⟩ := r
    cases result with
    | error failure => rfl
    | ok a =>
      dsimp only [Function.comp_apply, Session.behind]
      cases (do medium.sync; s.store.replaceFile path t.store.written : Except IoFault FileSystem) <;> rfl

lemma journalBlind_loadKey (path : String) : (loadKey path).JournalBlind := by
  unfold loadKey
  refine journalBlind_files.bind fun fs => ?_
  cases readText fs path with
  | error fault => exact journalBlind_throw _
  | ok text =>
    exact (journalBlind_ofExcept _).bind fun key => (journalBlind_report _).bind fun _ => journalBlind_pure key

lemma journalBlind_loadKeyOption (path : Option String) : (loadKeyOption path).JournalBlind := by
  cases path with
  | none => exact journalBlind_pure none
  | some path => exact (journalBlind_loadKey path).bind fun key => journalBlind_pure (some key)

lemma journalBlind_openSource (path : String) : (openSource path).JournalBlind := by
  unfold openSource
  refine journalBlind_files.bind fun fs => (journalBlind_ofExcept _).bind fun entry => ?_
  cases entry <;> exact journalBlind_pure _

lemma journalBlind_readContainer (source : Source) :
    (readContainer source : Action σ Container).JournalBlind :=
  (journalBlind_ofExcept _).bind fun _ => (journalBlind_ofExcept _).bind fun container =>
    (journalBlind_report _).bind fun _ => journalBlind_pure container

end Action

lemma journalBlind_encrypt (source : Source) (key : Option KeyMaterial) (options : SealOptions) :
    (encrypt source key options).JournalBlind := by
  refine (Action.journalBlind_ofExcept _).bind fun payload => ?_
  refine (sealPayload_behaves payload key options).journalBlind.bind fun image => ?_
  refine (Action.journalBlind_onStore _).bind fun _ => (Action.journalBlind_onStore _).bind fun _ => ?_
  refine (Action.journalBlind_onStore _).bind fun _ => (Action.journalBlind_report _).bind fun _ => ?_
  exact Action.journalBlind_pure _

namespace Action

lemma journalBlind_encryptFileOn (medium : Medium) (input : String) (key : Option String) (output : String)
    (options : SealOptions) : (encryptFileOn medium input key output options).JournalBlind := by
  rw [encryptFileOn_eq]
  refine (journalBlind_loadKeyOption key).bind fun key => (journalBlind_openSource input).bind fun source => ?_
  exact (journalBlind_encrypt source key options).writeAtomicallyOn medium output

lemma journalBlind_decryptFileOn (medium : Medium) (input key output : String) :
    (decryptFileOn medium input key output).JournalBlind := by
  unfold decryptFileOn
  refine (journalBlind_openSource input).bind fun source => (journalBlind_readContainer source).bind fun container => ?_
  refine (journalBlind_loadKey key).bind fun key => (journalBlind_ofExcept _).bind fun payload => ?_
  refine ((journalBlind_onStore _).writeAtomicallyOn medium output).bind fun _ => ?_
  refine (journalBlind_report _).bind fun _ => ?_
  exact journalBlind_pure _

end Action

end SealedImage
