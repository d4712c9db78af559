import Mathlib.Tactic.Common
import SealedImage.Proofs.Discretion
import SealedImage.Proofs.Journals

/-!
# What the tool reports

Behind each command stands one operation on files, and the tool adds nothing to it but text: a run ends where its
operation ends, with the same tape and the same files (`Command.run_of_operation`). What a command that succeeds
has done to the files, and which text belongs to that, is `Command.Achieves`, with one constructor for each command.
-/

namespace SealedImage

lemma Category.exitCode_injective : Function.Injective Category.exitCode := by
  intro category other h
  cases category <;> cases other <;> first | rfl | cases h

lemma Category.exitCode_notMem (category : Category) : category.exitCode ∉ [0, 1, 2] := by
  cases category <;> decide

namespace KeyCall

/-- The paths of the files that a call writes. -/
def filesIn (directory : String) : KeyCall → KeyFiles
  | ecc _ | device _ => KeyFiles.deviceIn directory
  | rsa => KeyFiles.rsaIn directory

variable {media : Media} {directory : String} {files : List (String × Octets)} {made : KeyFiles}
  {s t : Session FileSystem}

lemma Makes.paths {call : KeyCall} (h : call.Makes directory s files) :
    files.map Prod.fst = (call.filesIn directory).paths := by
  cases h <;> rfl

/-- The files hold a key that the call has in the session, and nothing else has changed. -/
structure Leaves (directory : String) (s : Session FileSystem) (call : KeyCall) (files : List (String × Octets))
    (after : FileSystem) : Prop where
  made : call.Makes directory s files
  held : ∀ file ∈ files, after.contentsOf file.1 = .ok file.2
  elsewhere : s.store.ChangesOnly (files.map Prod.fst) after

lemma leaves_of_ok (call : KeyCall) (h : (call.action media directory).outcome s = some (.ok made, t)) :
    ∃ files, call.Leaves directory s files t.store := by
  rcases outcome_spec h with ⟨-, e, hfail, -⟩ | ⟨files, paths, hmakes, hstores⟩
  · cases hfail
  · obtain ⟨-, hwrite⟩ := hstores.ok
    exact ⟨files, hmakes, FileSystem.contentsOf_of_writeEach hwrite hmakes.separate,
      FileSystem.changesOnly_of_writeEach hwrite⟩

end KeyCall

namespace Action

lemma ends_openSource (path : String) : (openSource path).Ends := by
  unfold openSource
  have hfiles : files.Ends := fun s => ⟨_, s, outcome_files s, rfl⟩
  refine hfiles.bind fun fs => (ends_ofExcept _).bind fun entry => ?_
  cases entry <;> exact ends_pure _

lemma ends_readImage (path : String) : (readImage path).Ends :=
  (ends_openSource path).bind fun _ => (ends_ofExcept _).bind fun _ => (ends_ofExcept _).bind fun container =>
    (ends_report _).bind fun _ => ends_pure container

lemma ends_writeWholeOn (medium : Medium) (path : String) (contents : Octets) :
    (writeWholeOn medium path contents).Ends := by
  intro s
  refine ⟨_, _, outcome_writeWholeOn medium path contents s, ?_⟩
  cases s.store.writeWholeOn medium path contents <;> rfl

lemma ends_decryptFileOn (medium : Medium) (input key output : String) :
    (decryptFileOn medium input key output).Ends := by
  rw [decryptFileOn_eq]
  have hload : (loadKey key).Ends := fun s => ⟨_, _, outcome_loadKey key s, rfl⟩
  refine (ends_readImage input).bind fun container => hload.bind fun key => (ends_ofExcept _).bind fun payload => ?_
  exact (ends_writeWholeOn medium output payload).bind fun _ => (ends_report _).bind fun _ => ends_pure _

lemma ends_writeDeviceKeyOn (media : Media) (directory : String) (device : DeviceKey) :
    (writeDeviceKeyOn media directory device).Ends := by
  cases hhalf : device.publicKey? with
  | none =>
    unfold writeDeviceKeyOn
    rw [hhalf]
    exact ends_throw _
  | some publicKey =>
    rw [writeDeviceKeyOn_eq hhalf]
    exact fun s => ⟨_, _, outcome_writeEach_report _ _ _ _ s, rfl⟩

end Action

namespace Command

/-- What the operation behind a command gives. -/
abbrev Result : Command → Type
  | encrypt .. => SealSummary
  | decrypt .. => OpenSummary
  | generateEccKey .. | generateRsaKey .. => KeyFiles
  | inspect .. => Header

/-- The operation behind a command. -/
def operation (media : Media) : (command : Command) → Action FileSystem command.Result
  | encrypt input key output => Action.encryptFileOn (media output) input (some key) output .standard
  | decrypt input key output => Action.decryptFileOn (media output) input key output
  | generateEccKey directory seed => do
    let seed ← Action.loadSeedOption seed
    Action.generateEccPairOn media directory seed
  | generateRsaKey directory => Action.generateRsaPairOn media directory
  | inspect input => Action.inspectFile input

/-- The command takes nothing from the tape. -/
def drawsNothing : Command → Bool
  | encrypt .. | generateRsaKey .. | generateEccKey _ none => false
  | decrypt .. | generateEccKey _ (some _) | inspect .. => true

lemma ends_operation {command : Command} (h : command.drawsNothing = true) (media : Media) :
    (command.operation media).Ends := by
  cases command with
  | encrypt | generateRsaKey => cases h
  | decrypt input key output => exact Action.ends_decryptFileOn (media output) input key output
  | generateEccKey directory path =>
    cases path with
    | none => cases h
    | some path =>
      have hload : (Action.loadSeed path).Ends := fun s => ⟨_, s, FileSystem.outcome_loadSeed path s, rfl⟩
      simp only [operation, Action.loadSeedOption, bind_assoc, pure_bind]
      refine hload.bind fun seed => ?_
      exact (Action.ends_ofExcept (DeviceKey.ofSeed seed)).bind (Action.ends_writeDeviceKeyOn media directory)
  | inspect input =>
    rw [operation, Action.inspectFile_eq]
    exact (Action.ends_readImage input).bind fun container => Action.ends_pure container.header

def textOf : (command : Command) → command.Result → String
  | encrypt .., _ => "Done\n"
  | decrypt .., summary => "Binary size: " ++ toString summary.plaintextLength ++ "\nDone\n"
  | generateEccKey .., files | generateRsaKey .., files => keyFilesText files
  | inspect .., header => header.text ++ "\n"

/-- What there is of an outcome besides the journal. -/
def seen {σ α : Type} (r : Except Failure α × Session σ) : Except Failure α × Octets × σ :=
  (r.1, r.2.tape, r.2.store)

/-- A command is its operation between reports, with a text for its result. -/
lemma outcome_action (command : Command) (media : Media) (tape : Octets) (fs : FileSystem) :
    ((command.action media).outcome ⟨tape, [], fs⟩).map seen =
      ((command.operation media).outcome ⟨tape, [], fs⟩).map fun r => seen (r.1.map command.textOf, r.2) := by
  -- the first report is behind the operation when it starts, and makes no difference to it
  have hreported (e : Event) : (⟨tape, [] ++ [e], fs⟩ : Session FileSystem) = Session.behind ⟨tape, [], fs⟩ [e] := rfl
  cases command with
  | encrypt input key output =>
    have hblind := Action.journalBlind_encryptFileOn (media output) input (some key) output .standard
    rw [action, Action.outcome_report_bind, hreported, Action.outcome_bind, hblind]
    change _ = Option.map _ ((Action.encryptFileOn (media output) input (some key) output .standard).outcome
      ⟨tape, [], fs⟩)
    rcases (Action.encryptFileOn (media output) input (some key) output .standard).outcome ⟨tape, [], fs⟩ with
      _ | ⟨e | summary, t⟩ <;> rfl
  | decrypt input key output =>
    rw [action, Action.outcome_report_bind, hreported]
    change Option.map _ (Action.outcome (do pure (textOf (.decrypt input key output) (← _))) _) = _
    rw [Action.outcome_bind_pure, Action.journalBlind_decryptFileOn (media output) input key output, Option.map_map,
      Option.map_map]
    rfl
  | generateEccKey directory seed =>
    rw [action_generateEccKey, ← bind_assoc]
    change Option.map _ (Action.outcome (do pure (keyFilesText (← _))) _) = _
    rw [Action.outcome_bind_pure, Option.map_map]
    rfl
  | generateRsaKey directory =>
    rw [action, Action.outcome_bind_pure, Option.map_map]
    rfl
  | inspect input =>
    change Option.map _ (Action.outcome (do pure (textOf (.inspect input) (← _))) _) = _
    rw [Action.outcome_bind_pure, Option.map_map]
    rfl

section Run

variable {wording : Wording} {media : Media} {arguments : List String} {command : Command} {filter : Filter}
  {tape : Octets} {fs : FileSystem}

lemma run_of_parse? (h : parse? arguments = some command) : run wording media arguments filter tape fs =
    ((command.action media).outcome ⟨tape, [], fs⟩).map fun r =>
      (report wording filter r.1 r.2.journal, r.2.tape, r.2.store) := by
  unfold run
  rw [h]

lemma run_eq_none_iff (h : parse? arguments = some command) :
    run wording media arguments filter tape fs = none ↔ (command.operation media).outcome ⟨tape, [], fs⟩ = none := by
  rw [run_of_parse? h, Option.map_eq_none_iff, ← Option.map_eq_none_iff (f := seen), outcome_action,
    Option.map_eq_none_iff]

/-- A run ends where the operation ends, and reports its result. -/
lemma run_of_operation {result : Except Failure command.Result} {t : Session FileSystem}
    (h : parse? arguments = some command) (hrun : (command.operation media).outcome ⟨tape, [], fs⟩ = some (result, t)) :
    ∃ journal, run wording media arguments filter tape fs =
      some (report wording filter (result.map command.textOf) journal, t.tape, t.store) := by
  have hseen := outcome_action command media tape fs
  rw [hrun] at hseen
  obtain ⟨⟨text, u⟩, haction, hsame⟩ := Option.map_eq_some_iff.mp hseen
  obtain ⟨htext, hsession⟩ := Prod.mk.inj hsame
  obtain ⟨htape, hstore⟩ := Prod.mk.inj hsession
  dsimp only at htext htape hstore
  refine ⟨u.journal, ?_⟩
  rw [run_of_parse? h, haction, ← htape, ← hstore, ← htext]
  rfl

end Run

/-- The paths of the files of a set, one on each line, and a closing line. -/
def linesOf (files : List (String × Octets)) : String :=
  String.join (files.map fun file => file.1 ++ "\n") ++ "Key generation completed successfully\n"

lemma keyFilesText_of_paths {made : KeyFiles} {files : List (String × Octets)}
    (h : files.map Prod.fst = made.paths) : keyFilesText made = linesOf files := by
  unfold linesOf
  rw [show (fun file : String × Octets => file.1 ++ "\n") = (· ++ "\n") ∘ Prod.fst from rfl, ← List.map_map, h]
  rfl

/-- What a command that succeeds has done to the files it found, with the text that tells it. -/
inductive Achieves (media : Media) (tape : Octets) (fs : FileSystem) : Command → String → FileSystem → Prop
  | encrypt {input key output : String} {image : Octets} {after : FileSystem}
      (produced : (FileCall.encrypt (media output) input (some key) output .standard).Produces ⟨tape, [], fs⟩ image)
      (replaced : fs.Replaced output image after) :
    Achieves media tape fs (.encrypt input key output) "Done\n" after
  | decrypt {input key output : String} {image payload : Octets} {k : KeyMaterial} {after : FileSystem}
      (read : fs.contentsOf input = .ok image) (loaded : fs.keyAt key = .ok k)
      (opened : openOctets image k = .ok payload) (replaced : fs.Replaced output payload after) :
    Achieves media tape fs (.decrypt input key output) ("Binary size: " ++ toString payload.length ++ "\nDone\n") after
  | generateEccKey {directory : String} {path : Option String} {seed : Option (Block 32)}
      {files : List (String × Octets)} {after : FileSystem}
      (read : path.map fs.contentsOf = seed.map fun seed => .ok seed.octets)
      (leaves : (KeyCall.ecc seed).Leaves directory ⟨tape, [], fs⟩ files after) :
    Achieves media tape fs (.generateEccKey directory path) (linesOf files) after
  | generateRsaKey {directory : String} {files : List (String × Octets)} {after : FileSystem}
      (leaves : KeyCall.rsa.Leaves directory ⟨tape, [], fs⟩ files after) :
    Achieves media tape fs (.generateRsaKey directory) (linesOf files) after
  | inspect {input : String} {image : Octets} {container : Container}
      (read : fs.contentsOf input = .ok image) (parsed : Container.ofOctets image = .ok container) :
    Achieves media tape fs (.inspect input) (container.header.text ++ "\n") fs

lemma achieves_of_ok {command : Command} {media : Media} {tape : Octets} {fs : FileSystem} {made : command.Result}
    {t : Session FileSystem} (h : (command.operation media).outcome ⟨tape, [], fs⟩ = some (.ok made, t)) :
    Achieves media tape fs command (command.textOf made) t.store := by
  cases command with
  | encrypt input key output =>
    have hfile : (Action.encryptFileOn (media output) input (some key) output .standard).outcome ⟨tape, [], fs⟩ =
      some (.ok made, t) := h
    obtain ⟨image, hproduces, hreplace⟩ := FileCall.produces_of_encryptFileOn hfile
    exact .encrypt hproduces (FileSystem.replaced_of_replaceFile hreplace)
  | decrypt input key output =>
    obtain ⟨image, k, payload, hread, hkey, hopened, hwrite, rfl, -⟩ := Action.spec_of_decryptFileOn h
    have hreplace := FileSystem.replaceFile_of_writeWhole hwrite
    exact .decrypt hread hkey hopened (FileSystem.replaced_of_replaceFile hreplace)
  | generateEccKey directory path =>
    obtain ⟨seed, u, hseed, hpair⟩ := Action.outcome_bind_eq_ok.mp h
    obtain ⟨rfl, hread⟩ := Action.contents_of_loadSeedOption hseed
    obtain ⟨rfl, -⟩ := Action.journal_of_generateEccPairOn hpair
    obtain ⟨files, hleaves⟩ := KeyCall.leaves_of_ok (.ecc seed) hpair
    have htext : keyFilesText (KeyFiles.deviceIn directory) = linesOf files :=
      keyFilesText_of_paths hleaves.made.paths
    rw [textOf, htext]
    exact .generateEccKey hread hleaves
  | generateRsaKey directory =>
    obtain ⟨rfl, -⟩ := Action.journal_of_generateRsaPairOn h
    obtain ⟨files, hleaves⟩ := KeyCall.leaves_of_ok .rsa h
    have htext : keyFilesText (KeyFiles.rsaIn directory) = linesOf files :=
      keyFilesText_of_paths hleaves.made.paths
    rw [textOf, htext]
    exact .generateRsaKey hleaves
  | inspect input =>
    rw [operation, Action.inspectFile_eq] at h
    obtain ⟨container, u, hread, hrest⟩ := Action.outcome_bind_eq_ok.mp h
    obtain ⟨image, hcontents, hparsed, rfl⟩ := Action.journal_of_readImage hread
    obtain ⟨rfl, rfl⟩ := Action.outcome_pure_eq_ok hrest
    exact .inspect hcontents hparsed

/-- A seed file that holds no seed ends the operation before it has done anything. -/
lemma operation_of_unfit_seed {directory path : String} {fs : FileSystem}
    (h : ∀ contents, fs.contentsOf path = .ok contents → contents.length ≠ 32) (media : Media) (tape : Octets) :
    ∃ fault, ((generateEccKey directory (some path)).operation media).outcome ⟨tape, [], fs⟩ =
      some (.error (.keyMaterial fault), ⟨tape, [], fs⟩) := by
  obtain ⟨fault, hseed⟩ := FileSystem.seedAt_of_unfit h
  have hload := FileSystem.outcome_loadSeed path ⟨tape, [], fs⟩
  rw [hseed] at hload
  exact ⟨fault, Action.outcome_bind_of_error _ (Action.outcome_bind_of_error _ hload)⟩

/-- The tool reports its operation and does nothing else, whatever the media of its files do. A run ends where the
operation behind its command ends, with the same tape and the same files, and that is the case on every tape if
nothing is drawn. Its exit code is zero exactly if the operation succeeded. A success prints the text of its result,
which tells what was done to the files. A failure prints nothing but its message to the error output, and its exit
code is that of its category, of no other category, and none of zero, one and two. A seed file without 32 octets is a
fault of the key, and then the files and the tape are as they were. -/
theorem run_reports_operation {arguments : List String} {command : Command}
    (h : parse? arguments = some command) (wording : Wording) (media : Media) (filter : Filter) (tape : Octets)
    (fs : FileSystem) :
    (run wording media arguments filter tape fs = none ↔ (command.operation media).outcome ⟨tape, [], fs⟩ = none) ∧
    (command.drawsNothing = true →
      ∃ report after, run wording media arguments filter tape fs = some (report, tape, after)) ∧
    (∀ result t, (command.operation media).outcome ⟨tape, [], fs⟩ = some (result, t) →
      ∃ report, run wording media arguments filter tape fs = some (report, t.tape, t.store) ∧
        (report.exitCode = 0 ↔ ∃ made, result = .ok made) ∧
        (∀ made, result = .ok made → report.output = command.textOf made ∧ report.errorOutput = some "" ∧
          Achieves media tape fs command report.output t.store) ∧
        ∀ e, result = .error e → report.output = "" ∧
          report.errorOutput = some ("Error: " ++ e.message wording ++ "\n") ∧
          report.exitCode = e.category.exitCode ∧ report.exitCode ∉ [0, 1, 2] ∧
          ∀ category : Category, report.exitCode = category.exitCode → category = e.category) ∧
    ∀ directory path, command = .generateEccKey directory (some path) →
      (∀ contents, fs.contentsOf path = .ok contents → contents.length ≠ 32) →
      ∃ report fault, run wording media arguments filter tape fs = some (report, tape, fs) ∧
        report.exitCode = Category.keyMaterial.exitCode ∧ report.output = "" ∧
        report.errorOutput = some ("Error: " ++ (Failure.keyMaterial fault).message wording ++ "\n") := by
  refine ⟨run_eq_none_iff h, fun hnothing => ?_, fun result t hrun => ?_, ?_⟩
  · obtain ⟨result, t, hrun, htape⟩ := ends_operation hnothing media ⟨tape, [], fs⟩
    obtain ⟨journal, hreport⟩ := run_of_operation h hrun
    exact ⟨_, t.store, htape ▸ hreport⟩
  · obtain ⟨journal, hreport⟩ := run_of_operation h hrun
    refine ⟨_, hreport, ?_, ?_, ?_⟩
    · cases result with
      | ok made => exact ⟨fun _ => ⟨made, rfl⟩, fun _ => rfl⟩
      | error e =>
        constructor
        · exact fun hzero => absurd hzero e.exitCode_ne_zero
        · rintro ⟨made, hmade⟩
          cases hmade
    · rintro made rfl
      exact ⟨rfl, rfl, achieves_of_ok hrun⟩
    · rintro e rfl
      exact ⟨rfl, rfl, rfl, e.category.exitCode_notMem, fun category hsame =>
        (Category.exitCode_injective hsame).symm⟩
  · rintro directory path rfl hunfit
    obtain ⟨fault, hrun⟩ := operation_of_unfit_seed hunfit media tape
    obtain ⟨journal, hreport⟩ := run_of_operation h hrun
    exact ⟨_, fault, hreport, rfl, rfl, rfl⟩

theorem run_reports_operation_sample :
    (∃ report container, Container.ofOctets Container.emptyImage = .ok container ∧
      run silent .perfect ["inspect", "img"] [] [] (Action.sampleFiles Container.emptyImage) =
        some (report, [], Action.sampleFiles Container.emptyImage) ∧
      report.exitCode = 0 ∧ report.output = container.header.text ++ "\n") ∧
    (∃ report, run silent .perfect ["decrypt", "bad", "key", "out"] [] [] (Action.sampleFiles Container.emptyImage) =
        some (report, [], Action.sampleFiles Container.emptyImage) ∧
      report.exitCode = 5 ∧ report.errorOutput = some "Error: Magic verification failed: found 0x00000001\n") ∧
    ∃ report, run silent .perfect ["generate-ecc-key", "--seed-file", "bad"] [] []
        (Action.sampleFiles Container.emptyImage) = some (report, [], Action.sampleFiles Container.emptyImage) ∧
      report.exitCode = 6 := by
  obtain ⟨container, hparsed⟩ := Container.exists_ofOctets_iff.mpr Container.emptyImage_isImage
  generalize hfiles : Action.sampleFiles Container.emptyImage = files
  have himg : files.contentsOf "img" = .ok Container.emptyImage := hfiles ▸ Action.contentsOf_img _
  have hbad : files.contentsOf "bad" = .ok [1, 0, 0, 0] := hfiles ▸ Action.contentsOf_bad _
  refine ⟨?_, ?_, ?_⟩
  · have hread := Action.readImage_of_contentsOf (s := ⟨[], [], files⟩) himg
    rw [hparsed] at hread
    have hinspect := Action.outcome_bind_of_ok (fun container => pure container.header) hread
    rw [← Action.inspectFile_eq] at hinspect
    have hcommand : parse? ["inspect", "img"] = some (.inspect "img") := by cbv
    obtain ⟨-, -, hreports, -⟩ := run_reports_operation hcommand silent .perfect [] [] files
    obtain ⟨report, hrun, hzero, hok, -⟩ := hreports _ _ hinspect
    exact ⟨report, container, hparsed, hrun, hzero.mpr ⟨_, rfl⟩, (hok _ rfl).1⟩
  · have hread := Action.readImage_of_contentsOf (s := ⟨[], [], files⟩) hbad
    rw [Action.ofOctets_bad] at hread
    have hdecrypt : (Action.decryptFileOn (Media.perfect "out") "bad" "key" "out").outcome ⟨[], [], files⟩ =
        some (.error (.invalidMagic 1), ⟨[], [], files⟩) := by
      rw [Action.decryptFileOn_eq]
      exact Action.outcome_bind_of_error _ hread
    have hcommand : parse? ["decrypt", "bad", "key", "out"] = some (.decrypt "bad" "key" "out") := by cbv
    obtain ⟨-, -, hreports, -⟩ := run_reports_operation hcommand silent .perfect [] [] files
    obtain ⟨report, hrun, -, -, herror⟩ := hreports _ _ hdecrypt
    obtain ⟨-, htext, hcode, -⟩ := herror _ rfl
    exact ⟨report, hrun, hcode, htext⟩
  · have hcommand : parse? ["generate-ecc-key", "--seed-file", "bad"] = some (.generateEccKey "." (some "bad")) := by
      cbv
    obtain ⟨-, -, -, hseed⟩ := run_reports_operation hcommand silent .perfect [] [] files
    obtain ⟨report, fault, hrun, hcode, -⟩ := hseed "." "bad" rfl fun contents hcontents => by
      rw [← Except.ok.inj (hbad.symm.trans hcontents)]
      decide
    exact ⟨report, hrun, hcode⟩

end Command

end SealedImage
