import Mathlib
import SealedImage.Files.Image
import SealedImage.Proofs.Authenticity
import SealedImage.Proofs.Places

/-!
# File operations touch only their output

`outcome_writeAtomicallyOn` is all that an atomic write can do, whatever its medium does to the writes, the flush
and the way to the disk: the staged file is gone from every outcome, and the file system is either the one before or
the one in which the output alone was replaced. Encryptions and decryptions of files read before they write, so they
inherit this (`FileCall.outcome_ok`, `FileCall.failsClean_action`), and so does a sequence of calls
(`FileCall.run_frame`), each of them on its own medium.
-/

namespace SealedImage

/-- What follows the way to the disk is only done behind it. -/
lemma Medium.of_sync_bind {β : Type} {medium : Medium} {x : Except IoFault β} {b : β}
    (h : (do medium.sync; x : Except IoFault β) = .ok b) : medium.syncFault = none ∧ x = .ok b := by
  unfold sync at h
  cases hfault : medium.syncFault with
  | none =>
    rw [hfault] at h
    exact ⟨rfl, h⟩
  | some fault =>
    rw [hfault] at h
    cases h

namespace Action

variable {α β : Type}

@[simp] lemma outcome_files (s : Session FileSystem) : files.outcome s = some (.ok s.store, s) := rfl

@[simp] lemma outcome_setFiles (fs : FileSystem) (s : Session FileSystem) :
    (setFiles fs).outcome s = some (.ok (), { s with store := fs }) := rfl

lemma outcome_writeAtomicallyOn (medium : Medium) (path : String) (produce : Action Sink α) (s : Session FileSystem) :
    (writeAtomicallyOn medium path produce).outcome s =
      match s.store.stage path with
      | .error fault => some (.error (.io fault), s)
      | .ok _ => (produce.outcome ⟨s.tape, s.journal, medium.newFile⟩).map fun r =>
          match r.1 with
          | .error failure => (.error failure, ⟨r.2.tape, r.2.journal, s.store⟩)
          | .ok a =>
            match (do medium.sync; s.store.replaceFile path r.2.store.written : Except IoFault FileSystem) with
            | .error fault => (.error (.io fault), ⟨r.2.tape, r.2.journal, s.store⟩)
            | .ok after => (.ok a, ⟨r.2.tape, r.2.journal, after⟩) := by
  unfold writeAtomicallyOn
  rw [outcome_bind_of_ok _ (outcome_files s)]
  cases hstage : s.store.stage path with
  | error fault =>
    apply outcome_bind_of_error
    rw [outcome_ofIo]
    rfl
  | ok staged =>
    rw [outcome_bind_of_ok (a := staged) (t := s) _ (by rw [outcome_ofIo]; rfl),
      outcome_bind_of_ok _ (outcome_setFiles _ s), outcome_bind, outcome_onOwnStore]
    dsimp only
    cases hrun : produce.outcome ⟨s.tape, s.journal, medium.newFile⟩ with
    | none => rfl
    | some r =>
      obtain ⟨result, t⟩ := r
      -- whatever was written to the staged file, its removal gives back the file system before
      have hclean : ((s.store.put staged (.file [])).put staged (.file t.store.written)).remove staged =
          s.store := by
        rw [FileSystem.put_put, FileSystem.remove_put_stage hstage]
      simp only [Option.map_some, Option.bind_some]
      rw [outcome_bind_of_ok _ (outcome_files _), outcome_bind_of_ok _ (outcome_setFiles _ _)]
      cases result with
      | error failure =>
        dsimp only
        rw [hclean, outcome_bind_of_ok _ (outcome_setFiles _ _)]
        rfl
      | ok a =>
        dsimp only
        rw [hclean]
        cases (do medium.sync; s.store.replaceFile path t.store.written : Except IoFault FileSystem) with
        | error fault =>
          dsimp only
          rw [outcome_bind_of_ok _ (outcome_setFiles _ _)]
          rfl
        | ok after => rfl

/-- What is made of a result can be made of it before or behind an atomic write. -/
lemma writeAtomicallyOn_map (medium : Medium) (path : String) (f : α → β) (produce : Action Sink α) :
    writeAtomicallyOn medium path (f <$> produce) = f <$> writeAtomicallyOn medium path produce := by
  funext s
  change (writeAtomicallyOn medium path (f <$> produce)).outcome s =
    (f <$> writeAtomicallyOn medium path produce).outcome s
  rw [map_eq_pure_bind, map_eq_pure_bind, outcome_bind_pure, outcome_writeAtomicallyOn, outcome_writeAtomicallyOn]
  cases s.store.stage path with
  | error fault => rfl
  | ok staged =>
    dsimp only
    rw [outcome_bind_pure, Option.map_map, Option.map_map]
    congr 1
    funext ⟨result, t⟩
    cases result with
    | error failure => rfl
    | ok a =>
      dsimp only [Function.comp_apply, Except.map]
      cases (do medium.sync; s.store.replaceFile path t.store.written : Except IoFault FileSystem) <;> rfl

/-- The action leaves the tape and the store alone. -/
abbrev OnlyReads {σ : Type} (x : Action σ α) : Prop :=
  x.Preserves fun s => (s.tape, s.store)

lemma OnlyReads.tape {σ : Type} {x : Action σ α} (hx : x.OnlyReads) {s t : Session σ}
    {r : Except Failure α} (h : x.outcome s = some (r, t)) : t.tape = s.tape :=
  congrArg Prod.fst (hx s r t h)

lemma OnlyReads.store {σ : Type} {x : Action σ α} (hx : x.OnlyReads) {s t : Session σ}
    {r : Except Failure α} (h : x.outcome s = some (r, t)) : t.store = s.store :=
  congrArg Prod.snd (hx s r t h)

lemma onlyReads_report {σ : Type} (e : Event) : OnlyReads (report e : Action σ Unit) :=
  preserves_report (fun _ _ => rfl) e

lemma onlyReads_files : OnlyReads files := by
  intro s r t h
  rw [← (Prod.mk.inj (Option.some.inj h)).2]

end Action

/-- The file that a path names holds the text of a key. -/
def KeyMaterial.InFile (fs : FileSystem) (path : String) (key : KeyMaterial) : Prop :=
  ∃ text, Action.readText fs path = .ok text ∧ KeyMaterial.ofText text.toList = .ok key

namespace Action

lemma onlyReads_loadKey (path : String) : OnlyReads (loadKey path) := by
  unfold loadKey
  refine onlyReads_files.bind fun fs => ?_
  cases readText fs path with
  | error fault => exact preserves_throw _
  | ok text =>
    exact (preserves_ofExcept _).bind fun key => (onlyReads_report _).bind fun _ => preserves_pure key

lemma inFile_of_loadKey {path : String} {key : KeyMaterial} {s t : Session FileSystem}
    (h : (loadKey path).outcome s = some (.ok key, t)) : KeyMaterial.InFile s.store path key := by
  unfold loadKey at h
  rw [outcome_bind_of_ok _ (outcome_files s)] at h
  cases hread : readText s.store path with
  | error fault => simp [hread] at h
  | ok text =>
    simp only [hread, KeyMaterial.loadText] at h
    obtain ⟨key', t', hkey, hrest⟩ := outcome_bind_eq_ok.mp h
    obtain ⟨hof, rfl⟩ := outcome_ofExcept_eq_ok hkey
    rw [outcome_report_bind] at hrest
    obtain ⟨hsame, -⟩ := Prod.mk.inj (Option.some.inj hrest)
    exact ⟨text, hread, hof.trans hsame⟩

/-- The key in the file that a path names, if there is a path. -/
def loadKeyOption : Option String → Action FileSystem (Option KeyMaterial)
  | none => pure none
  | some path => do pure (some (← loadKey path))

/-- An image that was written has left its summary behind. -/
lemma encryptFileOn_eq (medium : Medium) (input : String) (keyPath : Option String) (output : String)
    (options : SealOptions) : encryptFileOn medium input keyPath output options = (do
      let key ← loadKeyOption keyPath
      let source ← openSource input
      writeAtomicallyOn medium output (encrypt source key options)) := by
  unfold encryptFileOn loadKeyOption
  simp only [writeAtomicallyOn_map, bind_map_left, bind_pure]
  cases keyPath with
  | none => rfl
  | some path => simp only [bind_assoc, pure_bind]

lemma onlyReads_loadKeyOption (keyPath : Option String) : OnlyReads (loadKeyOption keyPath) := by
  cases keyPath with
  | none => exact preserves_pure none
  | some path => exact (onlyReads_loadKey path).bind fun key => preserves_pure (some key)

lemma onlyReads_openSource (path : String) : OnlyReads (openSource path) := by
  unfold openSource
  refine onlyReads_files.bind fun fs => ?_
  refine (preserves_ofExcept _).bind fun entry => ?_
  cases entry <;> exact preserves_pure _

/-- An opened source that can be read to the end delivers the contents of a file. -/
lemma contentsOf_of_openSource {path : String} {source : Source} {s t : Session FileSystem}
    {octets : Octets} (h : (openSource path).outcome s = some (.ok source, t))
    (hread : source.readAll = .ok octets) :
    s.store.contentsOf path = .ok octets ∧ source = Source.ofOctets octets := by
  unfold openSource at h
  rw [outcome_bind_of_ok _ (outcome_files s)] at h
  obtain ⟨entry, t', hentry, hrest⟩ := outcome_bind_eq_ok.mp h
  obtain ⟨hopen, rfl⟩ := outcome_ofIo_eq_ok hentry
  cases entry with
  | directory =>
    obtain ⟨hs, -⟩ := Prod.mk.inj (Option.some.inj hrest)
    rw [← Except.ok.inj hs] at hread
    cases hread
  | file contents =>
    obtain ⟨hs, -⟩ := Prod.mk.inj (Option.some.inj hrest)
    obtain rfl := Except.ok.inj hs
    rw [Source.readAll_ofOctets] at hread
    obtain rfl := Except.ok.inj hread
    exact ⟨FileSystem.contentsOf_eq_ok_iff.mpr hopen, rfl⟩

lemma onlyReads_readContainer (source : Source) :
    OnlyReads (readContainer source : Action FileSystem Container) := by
  unfold readContainer
  refine (preserves_ofExcept _).bind fun octets => ?_
  refine (preserves_ofExcept _).bind fun container => ?_
  exact (onlyReads_report _).bind fun _ => preserves_pure container

/-- A failure of the action leaves the store as it was. -/
def FailsClean {σ : Type} (x : Action σ α) : Prop :=
  ∀ s e t, x.outcome s = some (.error e, t) → t.store = s.store

lemma OnlyReads.failsClean_bind {σ : Type} {x : Action σ α} {f : α → Action σ β} (hx : x.OnlyReads)
    (hf : ∀ a, (f a).FailsClean) : FailsClean (x >>= f) := by
  intro s e u h
  rcases outcome_bind_eq_error.mp h with hfail | ⟨a, t, hok, hfail⟩
  · exact hx.store hfail
  · exact (hf a t e u hfail).trans (hx.store hok)

lemma FailsClean.bind {σ : Type} {x : Action σ α} {f : α → Action σ β} (hx : x.FailsClean)
    (hf : ∀ a s e t, (f a).outcome s ≠ some (.error e, t)) : FailsClean (x >>= f) := by
  intro s e u h
  rcases outcome_bind_eq_error.mp h with hfail | ⟨a, t, -, hfail⟩
  · exact hx s e u hfail
  · exact absurd hfail (hf a t e u)

section AtomicWrite

variable {medium : Medium} {path : String} {produce : Action Sink α} {s t : Session FileSystem}

/-- An atomic write that fails has left the file system as it was. One that succeeds has produced all it had to, has
brought it to the disk and has replaced the file by it. -/
lemma writeAtomicallyOn_cases {result : Except Failure α}
    (h : (writeAtomicallyOn medium path produce).outcome s = some (result, t)) :
    (∃ e, result = .error e ∧ t.store = s.store) ∨
      ∃ a u, result = .ok a ∧ medium.syncFault = none ∧
        produce.outcome ⟨s.tape, s.journal, medium.newFile⟩ = some (.ok a, u) ∧
        s.store.replaceFile path u.store.written = .ok t.store ∧ t.journal = u.journal := by
  rw [outcome_writeAtomicallyOn] at h
  cases hstage : s.store.stage path with
  | error fault =>
    simp only [hstage] at h
    obtain ⟨rfl, rfl⟩ := Prod.mk.inj (Option.some.inj h)
    exact Or.inl ⟨_, rfl, rfl⟩
  | ok staged =>
    simp only [hstage] at h
    obtain ⟨⟨made, u⟩, hrun, hr⟩ := Option.map_eq_some_iff.mp h
    cases made with
    | error failure =>
      obtain ⟨rfl, rfl⟩ := Prod.mk.inj hr
      exact Or.inl ⟨_, rfl, rfl⟩
    | ok a =>
      dsimp only at hr
      cases hsettle : (do medium.sync; s.store.replaceFile path u.store.written : Except IoFault FileSystem) with
      | error fault =>
        rw [hsettle] at hr
        obtain ⟨rfl, rfl⟩ := Prod.mk.inj hr
        exact Or.inl ⟨_, rfl, rfl⟩
      | ok after =>
        rw [hsettle] at hr
        obtain ⟨rfl, rfl⟩ := Prod.mk.inj hr
        obtain ⟨hsync, hreplace⟩ := Medium.of_sync_bind hsettle
        exact Or.inr ⟨a, u, rfl, hsync, hrun, hreplace, rfl⟩

lemma failsClean_writeAtomicallyOn (medium : Medium) (path : String) (produce : Action Sink α) :
    (writeAtomicallyOn medium path produce).FailsClean := by
  intro s e t h
  rcases writeAtomicallyOn_cases h with ⟨-, -, hsame⟩ | ⟨a, u, hok, -⟩
  · exact hsame
  · cases hok

lemma replaceFile_of_writeAtomicallyOn {a : α}
    (h : (writeAtomicallyOn medium path produce).outcome s = some (.ok a, t)) :
    ∃ u, produce.outcome ⟨s.tape, s.journal, medium.newFile⟩ = some (.ok a, u) ∧
      s.store.replaceFile path u.store.written = .ok t.store ∧ t.journal = u.journal := by
  rcases writeAtomicallyOn_cases h with ⟨e, hfail, -⟩ | ⟨b, u, hok, -, hspec⟩
  · cases hfail
  · obtain rfl := Except.ok.inj hok
    exact ⟨u, hspec⟩

end AtomicWrite

end Action

/-- A call of a file operation, with the medium of the file that it writes. -/
inductive FileCall : Type 1
  | write {α : Type} (medium : Medium) (output : String) (produce : Action Sink α)
  | encrypt (medium : Medium) (input : String) (key : Option String) (output : String) (options : SealOptions)
  | decrypt (medium : Medium) (input key output : String)

namespace FileCall

def output : FileCall → String
  | write _ output _ => output
  | encrypt _ _ _ output _ => output
  | decrypt _ _ _ output => output

/-- What a call does, apart from its result. -/
def action : FileCall → Action FileSystem Unit
  | write medium output produce => do let _ ← Action.writeAtomicallyOn medium output produce
  | encrypt medium input key output options => do
    let _ ← Action.encryptFileOn medium input key output options
  | decrypt medium input key output => do let _ ← Action.decryptFileOn medium input key output

/-- The contents are what the call makes, on its medium, of the files as they are in a session: what the closure
writes, or what encryption or decryption makes of the contents of the input and the key in its file. A decrypted
file is not flushed. -/
def Produces (s : Session FileSystem) (contents : Octets) : FileCall → Prop
  | write medium _ produce => ∃ a t, produce.outcome ⟨s.tape, s.journal, medium.newFile⟩ = some (.ok a, t) ∧
      t.store.written = contents
  | encrypt medium input keyPath _ options => ∃ payload key journal summary t,
      s.store.contentsOf input = .ok payload ∧
      (∀ path, keyPath = some path → ∃ k, key = some k ∧ KeyMaterial.InFile s.store path k) ∧
      (keyPath = none → key = none) ∧
      (SealedImage.encrypt (Source.ofOctets payload) key options).outcome
        ⟨s.tape, journal, medium.newFile⟩ = some (.ok summary, t) ∧
      t.store.written = contents
  | decrypt medium input keyPath _ => ∃ image key summary t,
      s.store.contentsOf input = .ok image ∧ KeyMaterial.InFile s.store keyPath key ∧
      (SealedImage.decrypt (Source.ofOctets image) key).outcome
        ⟨s.tape, s.journal, { medium.newFile with flushFault := none }⟩ = some (.ok summary, t) ∧
      t.store.written = contents

section Call

variable {call : FileCall} {medium : Medium} {s t : Session FileSystem}

lemma produces_of_encryptFileOn {input output : String} {keyPath : Option String} {options : SealOptions}
    {summary : SealSummary}
    (h : (Action.encryptFileOn medium input keyPath output options).outcome s = some (.ok summary, t)) :
    ∃ contents, (encrypt medium input keyPath output options).Produces s contents ∧
      s.store.replaceFile output contents = .ok t.store := by
  rw [Action.encryptFileOn_eq] at h
  obtain ⟨key, t₁, hkey, hrest⟩ := Action.outcome_bind_eq_ok.mp h
  obtain ⟨source, t₂, hsource, hwrite⟩ := Action.outcome_bind_eq_ok.mp hrest
  have htape : t₂.tape = s.tape :=
    ((Action.onlyReads_openSource input).tape hsource).trans
      ((Action.onlyReads_loadKeyOption keyPath).tape hkey)
  have hstore₁ : t₁.store = s.store := (Action.onlyReads_loadKeyOption keyPath).store hkey
  have hstore₂ : t₂.store = t₁.store := (Action.onlyReads_openSource input).store hsource
  obtain ⟨u, hrun, hreplace, -⟩ := Action.replaceFile_of_writeAtomicallyOn hwrite
  -- an encryption that succeeds has read its source to the end
  obtain ⟨payload, t₃, hread, -⟩ := Action.outcome_bind_eq_ok.mp hrun
  obtain ⟨hdelivered, -⟩ := Action.outcome_ofIo_eq_ok hread
  obtain ⟨hcontents, rfl⟩ := Action.contentsOf_of_openSource hsource hdelivered
  rw [hstore₁] at hcontents
  rw [htape] at hrun
  rw [hstore₂, hstore₁] at hreplace
  refine ⟨u.store.written, ⟨payload, key, t₂.journal, summary, u, hcontents, ?_, ?_, hrun, rfl⟩, hreplace⟩
  · rintro path rfl
    obtain ⟨k, t₄, hload, hpure⟩ := Action.outcome_bind_eq_ok.mp hkey
    obtain ⟨hk, -⟩ := Prod.mk.inj (Option.some.inj hpure)
    exact ⟨k, (Except.ok.inj hk).symm, Action.inFile_of_loadKey hload⟩
  · rintro rfl
    exact (Except.ok.inj (Prod.mk.inj (Option.some.inj hkey)).1).symm

/-- Octets that a medium has taken are released to its file, if that need not be flushed. -/
lemma release_of_written {payload : Octets} (h : (medium.newFile.writeAll payload).1 = none) :
    (({ medium.newFile with flushFault := none } : Sink).release payload).1 = none ∧
      (({ medium.newFile with flushFault := none } : Sink).release payload).2.written = payload := by
  have hwrite : (({ medium.newFile with flushFault := none } : Sink).writeAll payload).1 = none := h
  rw [Sink.release_of_written hwrite]
  exact ⟨rfl, Sink.written_of_writeAll hwrite⟩

lemma produces_of_decryptFileOn {input keyPath output : String} {summary : OpenSummary}
    (h : (Action.decryptFileOn medium input keyPath output).outcome s = some (.ok summary, t)) :
    ∃ contents, (decrypt medium input keyPath output).Produces s contents ∧
      s.store.replaceFile output contents = .ok t.store := by
  unfold Action.decryptFileOn at h
  obtain ⟨source, t₁, hsource, hrest⟩ := Action.outcome_bind_eq_ok.mp h
  obtain ⟨container, t₂, hcontainer, hrest⟩ := Action.outcome_bind_eq_ok.mp hrest
  obtain ⟨key, t₃, hkey, hrest⟩ := Action.outcome_bind_eq_ok.mp hrest
  obtain ⟨payload, t₄, hopen, hrest⟩ := Action.outcome_bind_eq_ok.mp hrest
  obtain ⟨_, t₅, hwrite, hreport⟩ := Action.outcome_bind_eq_ok.mp hrest
  have hstore₁ : t₁.store = s.store := (Action.onlyReads_openSource input).store hsource
  have hstore₂ : t₂.store = t₁.store := (Action.onlyReads_readContainer source).store hcontainer
  have hstore₃ : t₃.store = t₂.store := (Action.onlyReads_loadKey keyPath).store hkey
  obtain ⟨hopened, rfl⟩ := Action.outcome_ofExcept_eq_ok hopen
  obtain ⟨u, hrun, hreplace, -⟩ := Action.replaceFile_of_writeAtomicallyOn hwrite
  have hstore₆ : t.store = t₅.store := by
    rw [Action.outcome_report_bind] at hreport
    rw [← (Prod.mk.inj (Option.some.inj hreport)).2]
  rw [hstore₃, hstore₂, hstore₁, ← hstore₆] at hreplace
  -- the octets read are an image, and the payload is what it opens to
  obtain ⟨image, hread, hparsed⟩ := ofOctets_of_readContainer hcontainer
  obtain ⟨hcontents, rfl⟩ := Action.contentsOf_of_openSource hsource hread
  have hopened : openOctets image key = .ok payload := by
    rw [openOctets_of_container key hparsed, hopened]
  obtain ⟨htaken, hu⟩ := Action.outcome_onStore_eq_ok hrun
  have hwritten : u.store.written = payload := by
    rw [hu]
    exact Sink.written_of_writeAll htaken
  obtain ⟨v, hdecrypt, hv⟩ := decrypt_outcome_of_opened hread hopened
    ⟨s.tape, s.journal, { medium.newFile with flushFault := none }⟩
  obtain ⟨hnone, hreleased⟩ := release_of_written htaken
  rw [hnone] at hdecrypt
  have hinFile := Action.inFile_of_loadKey hkey
  rw [hstore₂, hstore₁] at hinFile
  refine ⟨payload, ⟨image, key, _, v, hcontents, hinFile, hdecrypt, ?_⟩, hwritten ▸ hreplace⟩
  rw [hv]
  exact hreleased

/-- A call that succeeds replaces its output by what it produces. -/
lemma outcome_ok (h : call.action.outcome s = some (.ok (), t)) :
    ∃ contents, call.Produces s contents ∧ s.store.replaceFile call.output contents = .ok t.store := by
  cases call with
  | write medium output produce =>
    obtain ⟨a, t', hwrite, hpure⟩ := Action.outcome_bind_eq_ok.mp h
    obtain ⟨-, rfl⟩ := Prod.mk.inj (Option.some.inj hpure)
    obtain ⟨u, hrun, hreplace, -⟩ := Action.replaceFile_of_writeAtomicallyOn hwrite
    exact ⟨u.store.written, ⟨a, u, hrun, rfl⟩, hreplace⟩
  | encrypt medium input keyPath output options =>
    obtain ⟨summary, t', hcall, hpure⟩ := Action.outcome_bind_eq_ok.mp h
    obtain ⟨-, rfl⟩ := Prod.mk.inj (Option.some.inj hpure)
    exact produces_of_encryptFileOn hcall
  | decrypt medium input keyPath output =>
    obtain ⟨summary, t', hcall, hpure⟩ := Action.outcome_bind_eq_ok.mp h
    obtain ⟨-, rfl⟩ := Prod.mk.inj (Option.some.inj hpure)
    exact produces_of_decryptFileOn hcall

/-- A call that fails leaves the file system as it was. -/
lemma failsClean_action (call : FileCall) : call.action.FailsClean := by
  cases call with
  | write medium output produce =>
    exact (Action.failsClean_writeAtomicallyOn _ _ _).bind fun a s e t => by simp
  | encrypt medium input keyPath output options =>
    refine Action.FailsClean.bind ?_ fun a s e t => by simp
    rw [Action.encryptFileOn_eq]
    refine (Action.onlyReads_loadKeyOption keyPath).failsClean_bind fun key => ?_
    refine (Action.onlyReads_openSource input).failsClean_bind fun source => ?_
    exact Action.failsClean_writeAtomicallyOn _ _ _
  | decrypt medium input keyPath output =>
    refine Action.FailsClean.bind ?_ fun a s e t => by simp
    refine (Action.onlyReads_openSource input).failsClean_bind fun source => ?_
    refine (Action.onlyReads_readContainer source).failsClean_bind fun container => ?_
    refine (Action.onlyReads_loadKey keyPath).failsClean_bind fun key => ?_
    refine Action.OnlyReads.failsClean_bind (Action.preserves_ofExcept _) fun payload => ?_
    refine (Action.failsClean_writeAtomicallyOn _ _ _).bind fun _ s e t => ?_
    rw [Action.outcome_report_bind]
    simp

end Call

/-- A call leaves every place alone that its output does not name, and its output too if it fails. -/
lemma action_frame {call : FileCall} {s t : Session FileSystem} {result : Except Failure Unit}
    (h : call.action.outcome s = some (result, t)) :
    s.store.SameDirectories t.store ∧
      ∀ place, (result = .ok () → s.store.placeOf? call.output ≠ some place) →
        t.store.entryAt? place = s.store.entryAt? place := by
  cases result with
  | error e =>
    rw [failsClean_action call s e t h]
    exact ⟨FileSystem.SameDirectories.refl _, fun _ _ => rfl⟩
  | ok u =>
    obtain ⟨contents, -, hreplace⟩ := outcome_ok h
    refine ⟨FileSystem.sameDirectories_of_replaceFile hreplace, fun place hplace => ?_⟩
    exact (FileSystem.replaced_of_replaceFile hreplace).elsewhere place (hplace rfl)

/-- The results of calls made one after the other, and the session behind the last. -/
def run : List FileCall → Session FileSystem → Option (List (Except Failure Unit) × Session FileSystem)
  | [], s => some ([], s)
  | call :: calls, s => do
    let (result, t) ← call.action.outcome s
    let (results, u) ← run calls t
    some (result :: results, u)

/-- Calls leave every place alone that is not named by the output of a successful one. -/
lemma run_frame {calls : List FileCall} {s t : Session FileSystem} {results : List (Except Failure Unit)}
    (h : run calls s = some (results, t)) :
    s.store.SameDirectories t.store ∧
      ∀ place, (∀ call, (call, Except.ok ()) ∈ calls.zip results →
          s.store.placeOf? call.output ≠ some place) →
        t.store.entryAt? place = s.store.entryAt? place := by
  induction calls generalizing s results with
  | nil =>
    obtain ⟨-, rfl⟩ := Prod.mk.inj (Option.some.inj h)
    exact ⟨FileSystem.SameDirectories.refl _, fun _ _ => rfl⟩
  | cons call calls ih =>
    obtain ⟨⟨result, u⟩, hcall, hrest⟩ := Option.bind_eq_some_iff.mp h
    obtain ⟨⟨results', t'⟩, hrun, hpair⟩ := Option.bind_eq_some_iff.mp hrest
    obtain ⟨rfl, rfl⟩ := Prod.mk.inj (Option.some.inj hpair)
    obtain ⟨hdirs, hfirst⟩ := action_frame hcall
    obtain ⟨hdirs', hothers⟩ := ih hrun
    refine ⟨hdirs.trans hdirs', fun place hplace => ?_⟩
    rw [hothers place, hfirst place]
    · rintro rfl
      exact hplace call (by simp)
    · intro later hlater
      -- the output of a later call names the same place before the first call
      rw [hdirs.placeOf?]
      exact hplace later (by simp [hlater])

/-- File operations are atomic and touch only their output, whatever their media do. A call that fails leaves the
file system as it was, wherever it fails: before the staged file is there, in what writes to it, at its flush, on its
way to the disk or in its renaming. One that succeeds leaves at its output what it makes of the files as they were when
it began, and all else as it was. Over a sequence of calls, what no successful one names as its output stays. -/
theorem calls_touch_only_outputs :
    (∀ (call : FileCall) s e t, call.action.outcome s = some (.error e, t) → t.store = s.store) ∧
    (∀ (call : FileCall) s t, call.action.outcome s = some (.ok (), t) →
      ∃ contents, call.Produces s contents ∧ s.store.Replaced call.output contents t.store) ∧
    ∀ calls s results t, run calls s = some (results, t) →
      t.store.workingDirectory = s.store.workingDirectory ∧
      (∀ place, (∀ call, (call, Except.ok ()) ∈ calls.zip results →
          s.store.placeOf? call.output ≠ some place) →
        t.store.entryAt? place = s.store.entryAt? place) ∧
      ∀ path, (∀ call, (call, Except.ok ()) ∈ calls.zip results →
          s.store.placeOf? call.output ≠ s.store.placeOf? path) →
        ∀ entry, t.store.openEntry path = .ok entry ↔ s.store.openEntry path = .ok entry := by
  refine ⟨failsClean_action, fun call s t h => ?_, fun calls s results t h => ?_⟩
  · obtain ⟨contents, hproduces, hreplace⟩ := outcome_ok h
    exact ⟨contents, hproduces, FileSystem.replaced_of_replaceFile hreplace⟩
  · obtain ⟨hdirs, hplaces⟩ := run_frame h
    refine ⟨hdirs.1, hplaces, fun path hpath entry => ?_⟩
    apply hdirs.openEntry
    intro place hplace
    apply hplaces
    rw [← hplace]
    exact hpath

/-- A file and a directory. -/
def sampleSession : Session FileSystem :=
  ⟨[], [], ⟨[(["in"], .file [1, 2, 3]), (["d"], .directory)], []⟩⟩

/-- A disk that takes every write, but cannot keep what it took. -/
def volatile : Medium :=
  ⟨[], none, some (.reported false "Input/output error (os error 5)")⟩

/-- A write over the file, a write over the directory, a write that does not reach the disk, and a decryption of what
is no image. -/
def sampleCalls : List FileCall :=
  [write .perfect "./in" (Action.onStore (Sink.writeAll [7])),
    write .perfect "d" (Action.onStore (Sink.writeAll [8])),
    write volatile "new" (Action.onStore (Sink.writeAll [9])), decrypt .perfect "in" "d" "out"]

def sampleResults : List (Except Failure Unit) :=
  [.ok (), .error (.io .isADirectory), .error (.io (.reported false "Input/output error (os error 5)")),
    .error (.header (.tooShort 1))]

theorem calls_touch_only_outputs_sample :
    (∃ e t, (write volatile "in" (Action.onStore (Sink.writeAll [8]))).action.outcome sampleSession =
        some (.error e, t) ∧ t.store = sampleSession.store) ∧
    (∃ t contents, (write .perfect "./in" (Action.onStore (Sink.writeAll [7]))).action.outcome sampleSession =
        some (.ok (), t) ∧ sampleSession.store.Replaced "./in" contents t.store) ∧
    ∃ results t, run sampleCalls sampleSession = some (results, t) ∧
      t.store.entryAt? ["d"] = some .directory ∧ t.store.entryAt? ["new"] = none := by
  obtain ⟨hfail, hok, hrun⟩ := calls_touch_only_outputs
  have h₁ : (write volatile "in" (Action.onStore (Sink.writeAll [8]))).action.outcome sampleSession =
      some (.error (.io (.reported false "Input/output error (os error 5)")), sampleSession) := by cbv
  have h₂ : (write .perfect "./in" (Action.onStore (Sink.writeAll [7]))).action.outcome sampleSession =
      some (.ok (), ⟨[], [], sampleSession.store.put ["in"] (.file [7])⟩) := by cbv
  have h₃ : run sampleCalls sampleSession =
      some (sampleResults, ⟨[], [], sampleSession.store.put ["in"] (.file [7])⟩) := by cbv
  have houtput : sampleSession.store.placeOf? "./in" = some ["in"] := by cbv
  have hplaces : ∀ place, place ≠ ["in"] → ∀ call, (call, Except.ok ()) ∈ sampleCalls.zip sampleResults →
      sampleSession.store.placeOf? call.output ≠ some place := by
    intro place hne call hcall
    simp only [sampleCalls, sampleResults, List.zip_cons_cons, List.mem_cons, Prod.mk.injEq, reduceCtorEq, and_false,
      and_true, List.zip_nil_left, List.not_mem_nil, or_false] at hcall
    rw [hcall, output, houtput]
    exact fun h => hne (Option.some.inj h).symm
  obtain ⟨contents, -, hreplaced⟩ := hok _ _ _ h₂
  obtain ⟨-, hframe, -⟩ := hrun _ _ _ _ h₃
  refine ⟨⟨_, _, h₁, hfail _ _ _ _ h₁⟩, ⟨_, contents, h₂, hreplaced⟩, _, _, h₃, ?_, ?_⟩
  · rw [hframe ["d"] (hplaces _ (by decide))]
    rfl
  · rw [hframe ["new"] (hplaces _ (by decide))]
    rfl

end FileCall

end SealedImage
