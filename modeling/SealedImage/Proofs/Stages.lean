import Mathlib.Tactic.Common
import SealedImage.Proofs.KeyText
import SealedImage.Proofs.OneImage
import SealedImage.Proofs.Precedence

/-!
# The stages of an encryption

The encryption of a file goes through the stages of `Stage.order`. `EncryptCall.FailsAt` says of each stage what it
fails with, whether or not those before it fail, so that several may fail at once; `FirstOf` picks the first one that
does. The failure of an encryption is that one, and an encryption without one succeeds unless the tape ends.
-/

namespace SealedImage

/-- The failure of the first in a list that fails. -/
inductive FirstOf {ι ε : Type} (fails : ι → ε → Prop) : List ι → ε → Prop
  | here {i : ι} {later : List ι} {e : ε} (h : fails i e) : FirstOf fails (i :: later) e
  | later {i : ι} {later : List ι} {e : ε} (passes : ∀ e', ¬fails i e') (h : FirstOf fails later e) :
    FirstOf fails (i :: later) e

namespace FirstOf

variable {ι ε : Type} {fails : ι → ε → Prop} {l : List ι} {i : ι} {e : ε}

lemma cons_iff : FirstOf fails (i :: l) e ↔ fails i e ∨ (∀ e', ¬fails i e') ∧ FirstOf fails l e := by
  constructor
  · intro h
    cases h with
    | here h => exact Or.inl h
    | later passes h => exact Or.inr ⟨passes, h⟩
  · rintro (h | ⟨passes, h⟩)
    · exact .here h
    · exact .later passes h

lemma of_passes {done : List ι} (passes : ∀ i ∈ done, ∀ e, ¬fails i e) (h : FirstOf fails l e) :
    FirstOf fails (done ++ l) e := by
  induction done with
  | nil => exact h
  | cons i done ih =>
    obtain ⟨hi, hdone⟩ := List.forall_mem_cons.mp passes
    exact .later hi (ih hdone)

lemma exists_mem (h : FirstOf fails l e) : ∃ i ∈ l, fails i e := by
  induction h with
  | here h => exact ⟨_, List.mem_cons_self, h⟩
  | later passes h ih =>
    obtain ⟨i, hi, hfails⟩ := ih
    exact ⟨i, List.mem_cons_of_mem _ hi, hfails⟩

lemma total (fails : ι → ε → Prop) (l : List ι) : (∃ e, FirstOf fails l e) ∨ ∀ i ∈ l, ∀ e, ¬fails i e := by
  induction l with
  | nil => exact Or.inr (by simp)
  | cons i l ih =>
    by_cases h : ∃ e, fails i e
    · exact Or.inl (h.imp fun e h => .here h)
    · have passes : ∀ e, ¬fails i e := not_exists.mp h
      rcases ih with hlater | hnone
      · exact Or.inl (hlater.imp fun e h => .later passes h)
      · exact Or.inr (List.forall_mem_cons.mpr ⟨passes, hnone⟩)

end FirstOf

lemma exists_eq_ok {ε α : Type} {x : Except ε α} (h : ∀ e, x ≠ .error e) : ∃ a, x = .ok a := by
  cases x with
  | error e => exact absurd rfl (h e)
  | ok a => exact ⟨a, rfl⟩

/-- What an encryption of a file goes through. -/
inductive Stage
  | key
  | input
  | staging
  | reading
  | length
  | establishing
  | writing
  | replacing
deriving DecidableEq

namespace Stage

def order : List Stage :=
  [key, input, staging, reading, length, establishing, writing, replacing]

lemma mem_order (stage : Stage) : stage ∈ order := by
  cases stage <;> decide

/-- The categories of what a stage can fail with. -/
def categories : Stage → List Category
  | key => [.keyMaterial, .unsupportedScheme]
  | length => [.header]
  | establishing => [.keyMaterial, .crypto]
  | input | staging | reading | writing | replacing => [.io]

lemma notMem_categories (stage : Stage) :
    .invalidMagic ∉ stage.categories ∧ .authentication ∉ stage.categories := by
  cases stage <;> decide

end Stage

/-- The key in the file that a path names, if there is a path. -/
def FileSystem.keyFor (fs : FileSystem) : Option String → Except Failure (Option KeyMaterial)
  | none => .ok none
  | some path => (fs.keyAt path).map some

/-- What stops an image on its way to the disk. -/
def Medium.fault? (medium : Medium) (image : Octets) : Option IoFault :=
  (medium.newFile.release image).1.or medium.syncFault

/-- An encryption of a file, with the medium of its output. -/
structure EncryptCall where
  medium : Medium
  input : String
  key : Option String
  output : String
  options : SealOptions

namespace EncryptCall

def action (call : EncryptCall) : Action FileSystem SealSummary :=
  Action.encryptFileOn call.medium call.input call.key call.output call.options

/-- The image of the contents of the input, as the key and the tape make it. -/
def Makes (call : EncryptCall) (s : Session FileSystem) (image : Octets) : Prop :=
  ∃ key payload container scheme device, s.store.keyFor call.key = .ok key ∧
    s.store.contentsOf call.input = .ok payload ∧
    (sealPayload payload key call.options).Gives (⟨s.tape, [], ()⟩ : Session Unit) (container, scheme, device) ∧
    image = container.toOctets

/-- The failures of the stages. Whether a stage fails is settled by what it needs from the ones before it, and not by
whether they fail. -/
inductive FailsAt (call : EncryptCall) (s : Session FileSystem) : Stage → Failure → Prop
  | key {e : Failure} (h : s.store.keyFor call.key = .error e) : FailsAt call s .key e
  | input {fault : IoFault} (h : s.store.openEntry call.input = .error fault) : FailsAt call s .input (.io fault)
  | staging {fault : IoFault} (h : s.store.stage call.output = .error fault) : FailsAt call s .staging (.io fault)
  | reading {fault : IoFault} (h : s.store.contentsOf call.input = .error fault) :
    FailsAt call s .reading (.io fault)
  | length {payload : Octets} (h : s.store.contentsOf call.input = .ok payload)
      (hlong : UInt32.size ≤ payload.length) : FailsAt call s .length (.header (.payloadTooLong payload.length))
  | establishing {key : Option KeyMaterial} {e : Failure} (hkey : s.store.keyFor call.key = .ok key)
      (h : (establish key call.options).Fails (⟨s.tape, [], ()⟩ : Session Unit) e) : FailsAt call s .establishing e
  | writing {image : Octets} {fault : IoFault} (himage : call.Makes s image)
      (h : call.medium.fault? image = some fault) : FailsAt call s .writing (.io fault)
  | replacing {image : Octets} {fault : IoFault} (himage : call.Makes s image)
      (h : s.store.replaceFile call.output image = .error fault) : FailsAt call s .replacing (.io fault)

end EncryptCall

section Categories

variable {options : SealOptions} {key : Option KeyMaterial} {trace : Trace} {e : Failure}

/-- A failure of the key or of the computations with it, which is never the lack of a summary. -/
def Failure.OfEstablishing (e : Failure) : Prop :=
  e.category ∈ Stage.establishing.categories ∧ e ≠ .crypto .noSummary

lemma Rsa.PublicKey.checkSize_ofEstablishing {k : Rsa.PublicKey} (h : k.checkSize = .error e) : e.OfEstablishing := by
  have hcategory := Rsa.PublicKey.checkSize_category h
  refine ⟨by simp [hcategory, Stage.categories], ?_⟩
  rintro rfl
  cases hcategory

lemma MakesDevice.ofEstablishing (h : MakesDevice options trace (.error e)) : e.OfEstablishing := by
  generalize hr : Except.error e = r at h
  cases h with
  | given h =>
    rw [DeviceKey.error_of_ofSeedWith hr.symm]
    exact ⟨by decide, by simp⟩
  | drawn h attempts =>
    subst hr
    rw [attempts.error]
    exact ⟨by decide, by simp⟩

lemma Agrees.ofEstablishing {recipient : P256.PublicKey} {device : Option DeviceKey}
    (h : Agrees recipient device trace (.error e)) : e.OfEstablishing := by
  cases h with
  | infinite h hpoint => exact ⟨by simp [Stage.categories, Failure.category], by simp⟩

lemma Wraps.ofEstablishing {recipient : Rsa.PublicKey} {contentKey : Block 32}
    (h : Wraps recipient contentKey trace (.error e)) : e.OfEstablishing := by
  cases h with
  | missized h => exact Rsa.PublicKey.checkSize_ofEstablishing h
  | unfit hsize h => exact ⟨by simp [Stage.categories, Failure.category], by simp⟩

lemma Establishes.ofEstablishing (h : Establishes options key trace (.error e)) : e.OfEstablishing := by
  generalize hr : Except.error e = r at h
  cases h with
  | @rsa k recipient contentKey later r hkey wraps =>
    cases r with
    | ok wrapped => cases hr
    | error e' =>
      obtain rfl := Except.error.inj hr
      exact wraps.ofEstablishing
  | ecc hkey agrees => exact (hr ▸ agrees).ofEstablishing
  | noDevice hfallback makes =>
    obtain rfl := Except.error.inj hr
    exact makes.ofEstablishing
  | device hfallback makes hkey agrees => exact (hr ▸ agrees).ofEstablishing
  | infinite hscheme hkey | noRecipient hfallback | infiniteDevice hfallback makes hkey =>
    obtain rfl := Except.error.inj hr
    exact ⟨by simp [Stage.categories, Failure.category], by simp⟩

end Categories

/-- What is read from an opened file or directory. -/
def Entry.source : Entry → Source
  | .file contents => Source.ofOctets contents
  | .directory => [.failed .isADirectory]

lemma FileSystem.contentsOf_of_openEntry {fs : FileSystem} {path : String} {entry : Entry}
    (h : fs.openEntry path = .ok entry) : fs.contentsOf path = entry.source.readAll := by
  unfold contentsOf
  rw [h]
  cases entry with
  | file contents => exact (Source.readAll_ofOctets contents).symm
  | directory => rfl

namespace Action

/-- Loading a key if there is a path looks at the files alone, and changes none. -/
lemma outcome_loadKeyOption (keyPath : Option String) (s : Session FileSystem) :
    (loadKeyOption keyPath).outcome s = some (s.store.keyFor keyPath,
      { s with
        journal := s.journal ++
          (s.store.keyFor keyPath).toOption.join.toList.map fun key => .keyLoaded key.kind }) := by
  cases keyPath with
  | none => simp [loadKeyOption, FileSystem.keyFor, Except.toOption]
  | some path =>
    rw [loadKeyOption, outcome_bind_pure, outcome_loadKey, FileSystem.keyFor]
    cases s.store.keyAt path <;> rfl

lemma outcome_openSource (path : String) (s : Session FileSystem) : (openSource path).outcome s =
    some (((s.store.openEntry path).mapError .io).map Entry.source, s) := by
  unfold openSource
  rw [outcome_bind_of_ok _ (outcome_files s), outcome_bind, outcome_ofIo]
  rcases s.store.openEntry path with fault | contents | _ <;> rfl

lemma fails_iff_result {σ α : Type} {x : Action σ α} {s : Session σ} {e : Failure} :
    x.Fails s e ↔ (x.outcome s).map Prod.fst = some (.error e) := by
  simp [Fails, Option.map_eq_some_iff]

lemma gives_iff_result {σ α : Type} {x : Action σ α} {s : Session σ} {a : α} :
    x.Gives s a ↔ (x.outcome s).map Prod.fst = some (.ok a) := by
  simp [Gives, Option.map_eq_some_iff]

end Action

namespace EncryptCall

variable {call : EncryptCall} {s : Session FileSystem} {key : Option KeyMaterial} {entry : Entry} {staged : Place}
  {payload : Octets} {e : Failure} {fault : IoFault}

def result (call : EncryptCall) (s : Session FileSystem) : Option (Except Failure SealSummary) :=
  (call.action.outcome s).map Prod.fst

/-- Nothing is done under a key that cannot be loaded. -/
lemma outcome_of_key (h : s.store.keyFor call.key = .error e) : call.action.outcome s = some (.error e, s) := by
  have hload := Action.outcome_loadKeyOption call.key s
  rw [h] at hload
  rw [action, Action.encryptFileOn_eq, Action.outcome_bind_of_error _ hload]
  simp [Except.toOption]

lemma result_of_key (hkey : s.store.keyFor call.key = .ok key) : ∃ journal, call.result s =
    (Action.outcome (do
      let source ← Action.openSource call.input
      Action.writeAtomicallyOn call.medium call.output (encrypt source key call.options))
        ⟨s.tape, journal, s.store⟩).map Prod.fst := by
  have hload := Action.outcome_loadKeyOption call.key s
  rw [hkey] at hload
  rw [result, action, Action.encryptFileOn_eq, Action.outcome_bind_of_ok _ hload]
  exact ⟨_, rfl⟩

lemma result_of_input (hkey : s.store.keyFor call.key = .ok key) (h : s.store.openEntry call.input = .error fault) :
    call.result s = some (.error (.io fault)) := by
  obtain ⟨journal, hresult⟩ := result_of_key hkey
  have hopen := Action.outcome_openSource call.input ⟨s.tape, journal, s.store⟩
  rw [h] at hopen
  rw [hresult, Action.outcome_bind_of_error _ hopen]
  rfl

/-- The image that was written is brought to the disk and takes the place of the output. -/
def settle (call : EncryptCall) (s : Session FileSystem) :
    Except Failure SealSummary × Session Sink → Except Failure SealSummary
  | (.error e, _) => .error e
  | (.ok summary, t) =>
    match (do call.medium.sync; s.store.replaceFile call.output t.store.written : Except IoFault FileSystem) with
    | .error fault => .error (.io fault)
    | .ok _ => .ok summary

lemma result_of_opened (hkey : s.store.keyFor call.key = .ok key) (hopen : s.store.openEntry call.input = .ok entry) :
    ∃ journal, call.result s = match s.store.stage call.output with
      | .error fault => some (.error (.io fault))
      | .ok _ => ((encrypt entry.source key call.options).outcome ⟨s.tape, journal, call.medium.newFile⟩).map
          (call.settle s) := by
  obtain ⟨journal, hresult⟩ := result_of_key hkey
  have hsource := Action.outcome_openSource call.input ⟨s.tape, journal, s.store⟩
  rw [hopen] at hsource
  refine ⟨journal, ?_⟩
  rw [hresult, Action.outcome_bind_of_ok _ hsource, Action.outcome_writeAtomicallyOn]
  dsimp only
  cases s.store.stage call.output with
  | error fault => rfl
  | ok staged =>
    dsimp only
    rw [Option.map_map]
    congr 1
    funext ⟨r, t⟩
    cases r with
    | error e => rfl
    | ok summary =>
      dsimp only [Function.comp_apply, settle]
      cases (do call.medium.sync; s.store.replaceFile call.output t.store.written : Except IoFault FileSystem) <;> rfl

end EncryptCall

section Sealed

variable {source : Source} {key : Option KeyMaterial} {options : SealOptions} {payload tape : Octets}
  {container : Container} {scheme : Scheme} {device : Option DeviceKey} {e : Failure} {s : Session Sink}

/-- What is sealed on a tape is released to every sink. -/
lemma outcome_encrypt_of_sealed (hread : source.readAll = .ok payload)
    (h : (sealPayload payload key options).Gives (⟨tape, [], ()⟩ : Session Unit) (container, scheme, device))
    (hs : s.tape = tape) : ∃ t, (encrypt source key options).outcome s =
      some ((s.store.release container.toOctets).1.elim
        (.ok ⟨scheme, payload.length, Layout.headerSize + payload.length, device⟩)
        fun fault => .error (.io fault), t) ∧
      t.store = (s.store.release container.toOctets).2 := by
  obtain ⟨u, hseal⟩ := h
  obtain ⟨events, -, -, helse⟩ := (sealPayload_behaves payload key options).outcome_elsewhere
    (sealPayload_behaves payload key options) hseal
  rw [outcome_encrypt_of_readAll hread, helse s hs]
  exact ⟨_, rfl, rfl⟩

lemma outcome_encrypt_of_unprepared (hread : source.readAll = .ok payload) (hfits : payload.length < UInt32.size)
    (h : (prepare key options : Action Unit _).outcome ⟨tape, [], ()⟩ = none) (hs : s.tape = tape) :
    (encrypt source key options).outcome s = none := by
  rw [outcome_encrypt_of_readAll hread, sealPayload_of_unprepared hfits h hs]
  rfl

lemma outcome_encrypt_of_refused (hread : source.readAll = .ok payload) (hfits : payload.length < UInt32.size)
    (h : (establish key options).Fails (⟨tape, [], ()⟩ : Session Unit) e) (hs : s.tape = tape) :
    ∃ t, (encrypt source key options).outcome s = some (.error e, t) := by
  obtain ⟨u, he⟩ := h
  obtain ⟨events, hseal⟩ := sealPayload_of_refused (σ := Sink) hfits (prepare_of_establish he)
  rw [outcome_encrypt_of_readAll hread, hseal s hs]
  exact ⟨_, rfl⟩

lemma exists_gives_of_prepare {est : Established} {iv : Block 16} {u : Session Unit}
    (hfits : payload.length < UInt32.size)
    (h : (prepare key options : Action Unit _).outcome ⟨tape, [], ()⟩ = some (.ok (est, iv), u)) :
    ∃ container scheme device,
      (sealPayload payload key options).Gives (⟨tape, [], ()⟩ : Session Unit) (container, scheme, device) := by
  obtain ⟨ciphertext, tag, hsealed⟩ := Aes.encrypt_of_lt hfits est.contentKey iv
  obtain ⟨events, hseal⟩ := sealPayload_of_prepared (σ := Unit) hfits h hsealed
  exact ⟨_, _, _, _, hseal ⟨tape, [], ()⟩ rfl⟩

/-- The one draw behind a content key does not fail. -/
lemma fails_establish_of_prepare {t u : Session Unit} (h : (prepare key options).outcome t = some (.error e, u)) :
    (establish key options).Fails t e := by
  obtain ⟨trace, hprepares, hpasses⟩ := (prepare_behaves key options _ _ _).mp h
  cases hprepares with
  | refused h => exact ⟨u, (establish_behaves key options _ _ _).mpr ⟨_, ⟨_, h, rfl⟩, hpasses⟩⟩

end Sealed

namespace EncryptCall

/-- The stages before the first octet of the input is read have not failed. -/
structure Ready (call : EncryptCall) (s : Session FileSystem) (key : Option KeyMaterial) (source : Source) :
    Prop where
  loaded : s.store.keyFor call.key = .ok key
  opened : ∃ entry, s.store.openEntry call.input = .ok entry ∧ entry.source = source
  staged : ∃ staged, s.store.stage call.output = .ok staged

section Ready

variable {call : EncryptCall} {s : Session FileSystem} {key : Option KeyMaterial} {source : Source}
  {payload : Octets} {container : Container} {scheme : Scheme} {device : Option DeviceKey} {e : Failure}
  {fault : IoFault}

lemma Ready.contentsOf (h : call.Ready s key source) : s.store.contentsOf call.input = source.readAll := by
  obtain ⟨entry, hopen, rfl⟩ := h.opened
  exact FileSystem.contentsOf_of_openEntry hopen

lemma Ready.result (h : call.Ready s key source) : ∃ journal, call.result s =
    ((encrypt source key call.options).outcome ⟨s.tape, journal, call.medium.newFile⟩).map (call.settle s) := by
  obtain ⟨entry, hopen, rfl⟩ := h.opened
  obtain ⟨staged, hstage⟩ := h.staged
  obtain ⟨journal, hresult⟩ := result_of_opened h.loaded hopen
  rw [hstage] at hresult
  exact ⟨journal, hresult⟩

lemma Ready.result_of_error (h : call.Ready s key source)
    (hfails : ∀ t : Session Sink, t.tape = s.tape →
      ∃ u, (encrypt source key call.options).outcome t = some (.error e, u)) :
    call.result s = some (.error e) := by
  obtain ⟨journal, hresult⟩ := h.result
  obtain ⟨u, hrun⟩ := hfails ⟨s.tape, journal, call.medium.newFile⟩ rfl
  rw [hresult, hrun]
  rfl

lemma Ready.result_of_reading (h : call.Ready s key source) (hread : source.readAll = .error fault) :
    call.result s = some (.error (.io fault)) :=
  h.result_of_error fun t _ => ⟨t, outcome_encrypt_of_fault hread⟩

lemma Ready.result_of_length (h : call.Ready s key source) (hread : source.readAll = .ok payload)
    (hlong : UInt32.size ≤ payload.length) :
    call.result s = some (.error (.header (.payloadTooLong payload.length))) := by
  refine h.result_of_error fun t _ => ⟨t, ?_⟩
  rw [outcome_encrypt_of_readAll hread, sealPayload_of_le hlong]
  rfl

lemma Ready.result_of_establishing (h : call.Ready s key source) (hread : source.readAll = .ok payload)
    (hfits : payload.length < UInt32.size)
    (hfails : (establish key call.options).Fails (⟨s.tape, [], ()⟩ : Session Unit) e) :
    call.result s = some (.error e) :=
  h.result_of_error fun _ ht => outcome_encrypt_of_refused hread hfits hfails ht

lemma Ready.result_of_unprepared (h : call.Ready s key source) (hread : source.readAll = .ok payload)
    (hfits : payload.length < UInt32.size)
    (hnone : (prepare key call.options : Action Unit _).outcome ⟨s.tape, [], ()⟩ = none) :
    call.result s = none := by
  obtain ⟨journal, hresult⟩ := h.result
  rw [hresult, outcome_encrypt_of_unprepared hread hfits hnone rfl]
  rfl

/-- A sealed image is written, brought to the disk and renamed, and nothing else is left to fail. -/
lemma Ready.result_of_sealed (h : call.Ready s key source) (hread : source.readAll = .ok payload)
    (hseal : (sealPayload payload key call.options).Gives (⟨s.tape, [], ()⟩ : Session Unit)
      (container, scheme, device)) :
    call.result s = some (match call.medium.fault? container.toOctets with
      | some fault => .error (.io fault)
      | none => match s.store.replaceFile call.output container.toOctets with
        | .error fault => .error (.io fault)
        | .ok _ => .ok ⟨scheme, payload.length, Layout.headerSize + payload.length, device⟩) := by
  obtain ⟨journal, hresult⟩ := h.result
  obtain ⟨t, hrun, hstore⟩ := outcome_encrypt_of_sealed (s := ⟨s.tape, journal, call.medium.newFile⟩) hread hseal rfl
  rw [hresult, hrun, Option.map_some, Medium.fault?]
  dsimp only at hstore ⊢
  cases hrelease : (call.medium.newFile.release container.toOctets).1 with
  | some fault => rfl
  | none =>
    have hwritten : t.store.written = container.toOctets :=
      hstore ▸ ((Sink.release_eq_none_iff _ _).mp hrelease).1
    rw [Option.elim_none, settle, hwritten, Medium.sync]
    cases call.medium.syncFault with
    | some fault => rfl
    | none =>
      cases hreplace : s.store.replaceFile call.output container.toOctets <;> simp [bind, Except.bind]

/-- An image that gets to the disk and to its place gives the summary of its encryption. -/
lemma Ready.result_of_done (h : call.Ready s key source) (hread : source.readAll = .ok payload)
    (hseal : (sealPayload payload key call.options).Gives (⟨s.tape, [], ()⟩ : Session Unit)
      (container, scheme, device)) {after : FileSystem} (hwrite : call.medium.fault? container.toOctets = none)
    (hreplace : s.store.replaceFile call.output container.toOctets = .ok after) :
    ∃ summary, call.result s = some (.ok summary) ∧ (encrypt (.ofOctets payload) key call.options).Gives
      ⟨s.tape, s.journal, call.medium.newFile⟩ summary := by
  refine ⟨_, by rw [h.result_of_sealed hread hseal, hwrite, hreplace], ?_⟩
  obtain ⟨t, hrun, -⟩ := outcome_encrypt_of_sealed (s := ⟨s.tape, s.journal, call.medium.newFile⟩)
    (Source.readAll_ofOctets payload) hseal rfl
  have hrelease : (call.medium.newFile.release container.toOctets).1 = none := (Option.or_eq_none_iff.mp hwrite).1
  rw [hrelease] at hrun
  exact ⟨t, hrun⟩

end Ready

section Stages

variable {call : EncryptCall} {s : Session FileSystem} {stage : Stage} {image other : Octets} {e e' : Failure}
  {summary : SealSummary}

lemma FailsAt.category (h : call.FailsAt s stage e) : e.category ∈ stage.categories ∧ e ≠ .crypto .noSummary := by
  cases h with
  | key h =>
    cases hkey : call.key with
    | none =>
      rw [hkey] at h
      cases h
    | some path =>
      rw [hkey, FileSystem.keyFor] at h
      cases hat : s.store.keyAt path with
      | ok key =>
        rw [hat] at h
        cases h
      | error e' =>
        rw [hat] at h
        obtain rfl := Except.error.inj h
        rcases Action.keyAt_ofKeyFile hat with hcategory | hcategory
        · exact ⟨by simp [hcategory, Stage.categories], by rintro rfl; cases hcategory⟩
        · exact ⟨by simp [hcategory, Stage.categories], by rintro rfl; cases hcategory⟩
  | establishing hkey h =>
    obtain ⟨t, h⟩ := h
    obtain ⟨trace, ⟨later, hestablishes, -⟩, -⟩ := (establish_behaves _ _ _ _ _).mp h
    exact hestablishes.ofEstablishing
  | input h | staging h | reading h | length h hlong | writing himage h | replacing himage h =>
    exact ⟨by simp [Stage.categories, Failure.category], by simp⟩

lemma Ready.result_of_makes {key : Option KeyMaterial} {source : Source} (h : call.Ready s key source)
    (himage : call.Makes s image) : ∃ summary, call.result s = some (match call.medium.fault? image with
      | some fault => .error (.io fault)
      | none => match s.store.replaceFile call.output image with
        | .error fault => .error (.io fault)
        | .ok _ => .ok summary) := by
  obtain ⟨key', payload, container, scheme, device, hkey, hcontents, hseal, rfl⟩ := himage
  obtain rfl := Except.ok.inj (hkey.symm.trans h.loaded)
  exact ⟨_, h.result_of_sealed (h.contentsOf.symm.trans hcontents) hseal⟩

/-- An encryption fails with the first of its stages that does. -/
lemma result_of_firstOf (h : FirstOf (call.FailsAt s) Stage.order e) : call.result s = some (.error e) := by
  rcases FirstOf.cons_iff.mp h with hfails | ⟨passes, h⟩
  · cases hfails with
    | key hkey =>
      rw [result, outcome_of_key hkey]
      rfl
  obtain ⟨key, hkey⟩ := exists_eq_ok fun e h => passes e (.key h)
  rcases FirstOf.cons_iff.mp h with hfails | ⟨passes, h⟩
  · cases hfails with
    | input hopen => exact result_of_input hkey hopen
  obtain ⟨entry, hopen⟩ := exists_eq_ok fun fault h => passes (.io fault) (.input h)
  rcases FirstOf.cons_iff.mp h with hfails | ⟨passes, h⟩
  · cases hfails with
    | staging hstage =>
      obtain ⟨journal, hresult⟩ := result_of_opened hkey hopen
      rw [hresult, hstage]
  have hready : call.Ready s key entry.source :=
    ⟨hkey, ⟨entry, hopen, rfl⟩, exists_eq_ok fun fault h => passes (.io fault) (.staging h)⟩
  rcases FirstOf.cons_iff.mp h with hfails | ⟨passes, h⟩
  · cases hfails with
    | reading hcontents => exact hready.result_of_reading (hready.contentsOf.symm.trans hcontents)
  obtain ⟨payload, hcontents⟩ := exists_eq_ok fun fault h => passes (.io fault) (.reading h)
  have hread : entry.source.readAll = .ok payload := hready.contentsOf.symm.trans hcontents
  rcases FirstOf.cons_iff.mp h with hfails | ⟨passes, h⟩
  · cases hfails with
    | length hcontents' hlong =>
      obtain rfl := Except.ok.inj (hcontents.symm.trans hcontents')
      exact hready.result_of_length hread hlong
  have hfits : payload.length < UInt32.size := Nat.lt_of_not_le fun hlong => passes _ (.length hcontents hlong)
  rcases FirstOf.cons_iff.mp h with hfails | ⟨-, h⟩
  · cases hfails with
    | establishing hkey' hestablish =>
      obtain rfl := Except.ok.inj (hkey.symm.trans hkey')
      exact hready.result_of_establishing hread hfits hestablish
  rcases FirstOf.cons_iff.mp h with hfails | ⟨passes, h⟩
  · cases hfails with
    | writing himage hwrite =>
      obtain ⟨summary, hresult⟩ := hready.result_of_makes himage
      rw [hresult, hwrite]
  rcases FirstOf.cons_iff.mp h with hfails | ⟨-, h⟩
  · cases hfails with
    | @replacing image fault himage hreplace =>
      have hwrite : call.medium.fault? image = none :=
        Option.eq_none_iff_forall_ne_some.mpr fun fault h => passes (.io fault) (.writing himage h)
      obtain ⟨summary, hresult⟩ := hready.result_of_makes himage
      rw [hresult, hwrite, hreplace]
  cases h

/-- Without a stage that fails, an encryption of a file ends as the encryption of its contents does: in a summary, or
not at all if the tape is too short. -/
lemma result_of_passes (h : ∀ stage e, ¬call.FailsAt s stage e) :
    ∃ key payload, s.store.keyFor call.key = .ok key ∧ s.store.contentsOf call.input = .ok payload ∧
      (((prepare key call.options : Action Unit _).outcome ⟨s.tape, [], ()⟩ = none ∧ call.result s = none ∧
          (encrypt (.ofOctets payload) key call.options).outcome ⟨s.tape, s.journal, call.medium.newFile⟩ = none) ∨
        ((prepare key call.options : Action Unit _).outcome ⟨s.tape, [], ()⟩ ≠ none ∧
          ∃ summary, call.result s = some (.ok summary) ∧ (encrypt (.ofOctets payload) key call.options).Gives
            ⟨s.tape, s.journal, call.medium.newFile⟩ summary)) := by
  obtain ⟨key, hkey⟩ := exists_eq_ok fun e he => h _ e (.key he)
  obtain ⟨entry, hopen⟩ := exists_eq_ok fun fault he => h _ (.io fault) (.input he)
  obtain ⟨payload, hcontents⟩ := exists_eq_ok fun fault he => h _ (.io fault) (.reading he)
  have hready : call.Ready s key entry.source :=
    ⟨hkey, ⟨entry, hopen, rfl⟩, exists_eq_ok fun fault he => h _ (.io fault) (.staging he)⟩
  have hread : entry.source.readAll = .ok payload := hready.contentsOf.symm.trans hcontents
  have hfits : payload.length < UInt32.size := Nat.lt_of_not_le fun hlong => h _ _ (.length hcontents hlong)
  refine ⟨key, payload, hkey, hcontents, ?_⟩
  cases hprepare : (prepare key call.options : Action Unit _).outcome ⟨s.tape, [], ()⟩ with
  | none =>
    refine Or.inl ⟨rfl, hready.result_of_unprepared hread hfits hprepare, ?_⟩
    exact outcome_encrypt_of_unprepared (Source.readAll_ofOctets payload) hfits hprepare rfl
  | some r =>
    obtain ⟨e | ⟨est, iv⟩, u⟩ := r
    · exact absurd (.establishing hkey (fails_establish_of_prepare hprepare)) (h .establishing e)
    · obtain ⟨container, scheme, device, hseal⟩ := exists_gives_of_prepare hfits hprepare
      have himage : call.Makes s container.toOctets :=
        ⟨key, payload, container, scheme, device, hkey, hcontents, hseal, rfl⟩
      have hwrite : call.medium.fault? container.toOctets = none :=
        Option.eq_none_iff_forall_ne_some.mpr fun fault he => h _ (.io fault) (.writing himage he)
      obtain ⟨after, hreplace⟩ := exists_eq_ok fun fault he => h _ (.io fault) (.replacing himage he)
      exact Or.inr ⟨by simp, hready.result_of_done hread hseal hwrite hreplace⟩

lemma fails_iff : call.action.Fails s e ↔ FirstOf (call.FailsAt s) Stage.order e := by
  refine ⟨fun h => ?_, fun h => Action.fails_iff_result.mpr (result_of_firstOf h)⟩
  have hresult : call.result s = some (.error e) := Action.fails_iff_result.mp h
  rcases FirstOf.total (call.FailsAt s) Stage.order with ⟨e', hfirst⟩ | hpasses
  · rw [result_of_firstOf hfirst] at hresult
    obtain rfl := Except.error.inj (Option.some.inj hresult)
    exact hfirst
  · obtain ⟨key, payload, -, -, ⟨-, hnone, -⟩ | ⟨-, summary, hok, -⟩⟩ :=
      result_of_passes fun stage => hpasses stage stage.mem_order
    · rw [hnone] at hresult
      cases hresult
    · rw [hok] at hresult
      cases hresult

/-- Nothing fails in an encryption that does not. -/
lemma passes_of_result (h : ∀ e, call.result s ≠ some (.error e)) (stage : Stage) (e : Failure) :
    ¬call.FailsAt s stage e := by
  rcases FirstOf.total (call.FailsAt s) Stage.order with ⟨e', hfirst⟩ | hpasses
  · exact absurd (result_of_firstOf hfirst) (h e')
  · exact hpasses stage stage.mem_order e

lemma gives_iff : call.action.Gives s summary ↔ (∀ stage e, ¬call.FailsAt s stage e) ∧
    ∃ key payload, s.store.keyFor call.key = .ok key ∧ s.store.contentsOf call.input = .ok payload ∧
      (encrypt (.ofOctets payload) key call.options).Gives ⟨s.tape, s.journal, call.medium.newFile⟩ summary := by
  constructor
  · intro h
    have hresult : call.result s = some (.ok summary) := Action.gives_iff_result.mp h
    have hpasses : ∀ stage e, ¬call.FailsAt s stage e := passes_of_result (by simp [hresult])
    obtain ⟨key, payload, hkey, hcontents, ⟨-, hnone, -⟩ | ⟨-, summary', hok, hencrypt⟩⟩ := result_of_passes hpasses
    · rw [hnone] at hresult
      cases hresult
    · rw [hok] at hresult
      obtain rfl := Except.ok.inj (Option.some.inj hresult)
      exact ⟨hpasses, key, payload, hkey, hcontents, hencrypt⟩
  · rintro ⟨hpasses, key, payload, hkey, hcontents, t, hrun⟩
    obtain ⟨key', payload', hkey', hcontents', hcases⟩ := result_of_passes hpasses
    obtain rfl := Except.ok.inj (hkey.symm.trans hkey')
    obtain rfl := Except.ok.inj (hcontents.symm.trans hcontents')
    rcases hcases with ⟨-, -, hnone⟩ | ⟨-, summary', hok, t', hrun'⟩
    · rw [hnone] at hrun
      cases hrun
    · obtain rfl := Except.ok.inj (Action.outcome_unique hrun hrun').1
      exact Action.gives_iff_result.mpr hok

/-- An encryption of a file has no outcome if the tape ends before the last draw, and only then. -/
lemma outcome_eq_none_iff : call.action.outcome s = none ↔ (∀ stage e, ¬call.FailsAt s stage e) ∧
    ∃ key, s.store.keyFor call.key = .ok key ∧
      (prepare key call.options : Action Unit _).outcome ⟨s.tape, [], ()⟩ = none := by
  rw [← Option.map_eq_none_iff (f := Prod.fst)]
  constructor
  · intro h
    have hresult : call.result s = none := h
    have hpasses : ∀ stage e, ¬call.FailsAt s stage e := passes_of_result (by simp [hresult])
    obtain ⟨key, payload, hkey, -, ⟨hnone, -⟩ | ⟨-, summary, hok, -⟩⟩ := result_of_passes hpasses
    · exact ⟨hpasses, key, hkey, hnone⟩
    · rw [hok] at hresult
      cases hresult
  · rintro ⟨hpasses, key, hkey, hnone⟩
    obtain ⟨key', payload, hkey', -, ⟨-, hresult, -⟩ | ⟨hsome, -⟩⟩ := result_of_passes hpasses
    · exact hresult
    · obtain rfl := Except.ok.inj (hkey.symm.trans hkey')
      exact absurd hnone hsome

end Stages

/-- The encryption of a file fails with what the first of its stages that fails says: the key file, the input, the
staged file beside the output, the contents of the input, their length, the content key, the medium, the output. This
holds however many of them would fail, on every medium and tape. It gives the summary of the encryption of the
contents when no stage fails, and has no outcome only where the tape is too short for the draws. Each stage has its
categories. So it is no failure of an image that is opened, and never one without a summary, and under a key that
cannot be loaded nothing else is looked at. -/
theorem encryptFile_reports_first_failure (call : EncryptCall) (s : Session FileSystem) :
    (∀ e, call.action.Fails s e ↔ FirstOf (call.FailsAt s) Stage.order e) ∧
    (∀ summary, call.action.Gives s summary ↔ (∀ stage e, ¬call.FailsAt s stage e) ∧
      ∃ key payload, s.store.keyFor call.key = .ok key ∧ s.store.contentsOf call.input = .ok payload ∧
        (encrypt (.ofOctets payload) key call.options).Gives ⟨s.tape, s.journal, call.medium.newFile⟩ summary) ∧
    (call.action.outcome s = none ↔ (∀ stage e, ¬call.FailsAt s stage e) ∧
      ∃ key, s.store.keyFor call.key = .ok key ∧
        (prepare key call.options : Action Unit _).outcome ⟨s.tape, [], ()⟩ = none) ∧
    (∀ stage e, call.FailsAt s stage e → e.category ∈ stage.categories) ∧
    (∀ e, call.action.Fails s e →
      e.category ≠ .invalidMagic ∧ e.category ≠ .authentication ∧ e ≠ .crypto .noSummary) ∧
    ∀ path e, call.key = some path → s.store.keyAt path = .error e → call.action.outcome s = some (.error e, s) := by
  refine ⟨fun e => fails_iff, fun summary => gives_iff, outcome_eq_none_iff, fun stage e h => h.category.1,
    fun e h => ?_, fun path e hpath h => outcome_of_key ?_⟩
  · obtain ⟨stage, -, hstage⟩ := (fails_iff.mp h).exists_mem
    obtain ⟨hcategory, hsummary⟩ := hstage.category
    obtain ⟨hmagic, hauthentication⟩ := stage.notMem_categories
    exact ⟨fun heq => hmagic (heq ▸ hcategory), fun heq => hauthentication (heq ▸ hcategory), hsummary⟩
  · rw [hpath, FileSystem.keyFor, h]
    rfl

section Sample

/-- A payload, the text of a key, and a directory. -/
def sampleStore (payload text : Octets) : FileSystem :=
  ⟨[(["in"], .file payload), (["key"], .file text), (["d"], .directory)], []⟩

section Store

variable (payload text image : Octets)

lemma sampleStore_openEntry : (sampleStore payload text).openEntry "in" = .ok (.file payload) := by
  cbv

lemma sampleStore_contentsOf : (sampleStore payload text).contentsOf "key" = .ok text := by
  cbv

lemma sampleStore_stage : ∃ place, (sampleStore payload text).stage "d" = .ok place ∧
    (sampleStore payload text).stage "out" = .ok place :=
  ⟨[".tmpxxx"], by cbv, by cbv⟩

lemma sampleStore_replaceFile : ∃ after, (sampleStore payload text).replaceFile "out" image = .ok after := by
  refine ⟨(sampleStore payload text).put ["out"] (.file image), ?_⟩
  cbv

end Store

def sampleRun : Session FileSystem :=
  ⟨List.replicate 397 7, [], sampleStore samplePayload sampleKey.publicKey.armored.toUTF8.toList⟩

lemma sampleRun_keyFor : sampleRun.store.keyFor (some "key") = .ok (some (.rsaPublic sampleKey.publicKey)) := by
  obtain ⟨-, hload⟩ := KeyMaterial.load?_rsaPublic (k := sampleKey.publicKey) (by decide +kernel) (by decide +kernel)
  have htext := KeyMaterial.ofText_armored KeyMaterial.publicLabel_plain (Asn1.Element.write_ne_nil _) hload
    (Rsa.PublicKey.checkSize_eq_ok_iff.mpr (by decide +kernel))
  have hread : Action.readText sampleRun.store "key" = .ok sampleKey.publicKey.armored :=
    Action.readText_of_contentsOf (sampleStore_contentsOf _ _)
  rw [FileSystem.keyFor, FileSystem.keyAt, hread]
  exact congrArg (Except.map some) htext

def sampleCall (medium : Medium) (output : String) : EncryptCall :=
  ⟨medium, "in", some "key", output, .standard⟩

/-- The key, the payload and the tape are as they have to be. -/
lemma sampleRun_passes {medium : Medium} {output : String} {stage : Stage} {e : Failure}
    (hstage : ∃ place, sampleRun.store.stage output = .ok place)
    (h : (sampleCall medium output).FailsAt sampleRun stage e) : stage = .writing ∨ stage = .replacing := by
  have hread : sampleRun.store.contentsOf "in" = .ok samplePayload :=
    FileSystem.contentsOf_eq_ok_iff.mpr (sampleStore_openEntry _ _)
  cases h with
  | key h => cases sampleRun_keyFor.symm.trans h
  | input h => cases (sampleStore_openEntry _ _).symm.trans h
  | staging h =>
    obtain ⟨place, hplace⟩ := hstage
    cases hplace.symm.trans h
  | reading h => cases hread.symm.trans h
  | length h hlong =>
    obtain rfl := Except.ok.inj (hread.symm.trans h)
    exact absurd hlong (by decide +kernel)
  | establishing hkey h =>
    obtain rfl := Except.ok.inj (sampleRun_keyFor.symm.trans hkey)
    obtain ⟨est, iv, u, hprepare⟩ := samplePreparation
    obtain ⟨t, hestablish⟩ := h
    cases (Action.outcome_unique (prepare_of_establish hestablish) hprepare).1
  | writing himage h => exact Or.inl rfl
  | replacing himage h => exact Or.inr rfl

lemma sampleRun_makes (medium : Medium) (output : String) :
    ∃ image, (sampleCall medium output).Makes sampleRun image := by
  obtain ⟨est, iv, u, hprepare⟩ := samplePreparation
  have hfits : samplePayload.length < UInt32.size := by decide +kernel
  obtain ⟨container, scheme, device, hseal⟩ := exists_gives_of_prepare hfits hprepare
  exact ⟨_, _, _, container, scheme, device, sampleRun_keyFor,
    FileSystem.contentsOf_eq_ok_iff.mpr (sampleStore_openEntry _ _), hseal, rfl⟩

lemma fault?_of_accepting (syncFault : Option IoFault) (image : Octets) :
    Medium.fault? ⟨[], none, syncFault⟩ image = syncFault := by
  have hrelease : (Medium.newFile ⟨[], none, syncFault⟩ |>.release image).1 = none :=
    (Sink.release_of_open image Sink.perfect_open).1
  rw [Medium.fault?, hrelease, Option.none_or]

end Sample

theorem encryptFile_reports_first_failure_sample :
    (Action.encryptFileOn .perfect "absent" (some "d") "absent/out" .standard).outcome sampleRun =
        some (.error (.keyMaterial (.unreadableKey "d" .isADirectory)), sampleRun) ∧
      (Action.encryptFileOn .perfect "d" none "absent/out" .standard).Fails sampleRun (.io .notFound) ∧
      (sampleCall ⟨[], none, some .busy⟩ "d").action.Fails sampleRun (.io .busy) ∧
      ∃ summary, (Action.encryptFileOn .perfect "in" (some "key") "out" .standard).Gives sampleRun summary := by
  refine ⟨?_, ?_, ?_, ?_⟩
  · have hkey : ∀ payload text, (sampleStore payload text).keyAt "d" =
        .error (.keyMaterial (.unreadableKey "d" .isADirectory)) := by
      intro payload text
      cbv
    exact (encryptFile_reports_first_failure ⟨.perfect, "absent", some "d", "absent/out", .standard⟩
      sampleRun).2.2.2.2.2 "d" _ rfl (hkey _ _)
  · have hopen : ∀ payload text, (sampleStore payload text).openEntry "d" = .ok .directory := by
      intro payload text
      cbv
    have hstage : ∀ payload text, (sampleStore payload text).stage "absent/out" = .error .notFound := by
      intro payload text
      cbv
    refine ((encryptFile_reports_first_failure ⟨.perfect, "d", none, "absent/out", .standard⟩ sampleRun).1 _).mpr
      (.later ?_ (.later ?_ (.here (.staging (hstage _ _)))))
    · intro e h
      cases h with
      | key h => cases h
    · intro e h
      cases h with
      | input h => cases (hopen _ _).symm.trans h
  · obtain ⟨place, hstage, -⟩ := sampleStore_stage samplePayload sampleKey.publicKey.armored.toUTF8.toList
    obtain ⟨image, himage⟩ := sampleRun_makes ⟨[], none, some .busy⟩ "d"
    have hpasses : ∀ stage ∈ [.key, .input, .staging, .reading, .length, .establishing],
        ∀ e, ¬(sampleCall ⟨[], none, some .busy⟩ "d").FailsAt sampleRun stage e := by
      intro stage hmem e h
      rcases sampleRun_passes ⟨place, hstage⟩ h with rfl | rfl <;> simp at hmem
    have hfirst : FirstOf _ Stage.order _ :=
      .of_passes hpasses (.here (.writing himage (fault?_of_accepting (some .busy) image)))
    exact ((encryptFile_reports_first_failure (sampleCall ⟨[], none, some .busy⟩ "d") sampleRun).1 _).mpr hfirst
  · obtain ⟨place, -, hstage⟩ := sampleStore_stage samplePayload sampleKey.publicKey.armored.toUTF8.toList
    have hpasses : ∀ stage e, ¬(sampleCall .perfect "out").FailsAt sampleRun stage e := by
      intro stage e h
      rcases sampleRun_passes ⟨place, hstage⟩ h with rfl | rfl
      · cases h with
        | writing himage h => cases (fault?_of_accepting none _).symm.trans h
      · cases h with
        | @replacing image fault himage h =>
          obtain ⟨after, hreplace⟩ := sampleStore_replaceFile samplePayload
            sampleKey.publicKey.armored.toUTF8.toList image
          cases hreplace.symm.trans h
    obtain ⟨key, payload, hkey, hread, ⟨hnone, -⟩ | ⟨-, summary, -, hencrypt⟩⟩ := result_of_passes hpasses
    · obtain rfl := Except.ok.inj (sampleRun_keyFor.symm.trans hkey)
      obtain ⟨est, iv, u, hprepare⟩ := samplePreparation
      cases hnone.symm.trans hprepare
    · exact ⟨summary, ((encryptFile_reports_first_failure (sampleCall .perfect "out") sampleRun).2.1 summary).mpr
        ⟨hpasses, key, payload, hkey, hread, hencrypt⟩⟩

end EncryptCall

end SealedImage
