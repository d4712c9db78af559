import Mathlib.Tactic.Common
import SealedImage.Command.Run
import SealedImage.Proofs.Fields
import SealedImage.Proofs.Precedence
import SealedImage.Proofs.RoundTrip
import SealedImage.Proofs.StoredKeys
import SealedImage.Redacted

/-!
# What the outputs tell

A command that succeeds prints a text and leaves a journal. Both are given by its arguments and by a view of
the run (`Command.view?`), which holds the length of the input, the kind of the key and the number of seeds
that were refused, but no octet of a payload, a key, a seed or the tape. So the outputs of two runs with the
same view are the same. Descriptions of values likewise depend on kinds, schemes and lengths alone.
-/

namespace SealedImage

/-- How many seeds are refused at the start of a tape, with `left` attempts to go. -/
def DeviceKey.refusals (derive : Block 32 → Block 32) : (left : Nat) → Octets → Nat
  | 0, _ => 0
  | left + 1, tape =>
    match Draw.block 32 tape with
    | none => 0
    | some (seed, rest) =>
      match ofSeedWith derive seed with
      | .ok _ => 0
      | .error _ => refusals derive left rest + 1

/-- What the outputs of a command may depend on, its arguments apart. -/
inductive View
  /-- The length of the input and the kind of the key. -/
  | image (length : Nat) (kind : KeyKind)
  /-- The number of new seeds that were refused. -/
  | device (refusals : Nat)
  | header (header : Header)
  | nothing
deriving DecidableEq

namespace Command

def view? (tape : Octets) (fs : FileSystem) : Command → Option View
  | encrypt input key _ | decrypt input key _ => do
    let contents ← (fs.contentsOf input).toOption
    let key ← (fs.keyAt key).toOption
    some (.image contents.length key.kind)
  | generateEccKey _ seed => some (.device (if seed.isSome then 0 else
      DeviceKey.refusals DeviceKey.scalar DeviceKey.maxAttempts tape))
  | inspect input => do
    let contents ← (fs.contentsOf input).toOption
    let container ← (Container.ofOctets contents).toOption
    some (.header container.header)
  | generateRsaKey _ => some .nothing

/-- The text and the journal of a command that succeeds. -/
def shown : Command → View → String × List Event
  | encrypt input _ output, .image length kind =>
    ("Done\n", [.encrypting input, .keyLoaded kind, .establishing kind.scheme true,
      .payloadEncrypted kind.scheme length, .wrote output kind.scheme (Layout.headerSize + length)])
  | decrypt input _ output, .image length kind =>
    ("Binary size: " ++ toString (length - Layout.headerSize) ++ "\nDone\n",
      [.decrypting input, .containerParsed (length - Layout.headerSize), .keyLoaded kind,
        .fileDecrypted kind.scheme (length - Layout.headerSize) output])
  | generateEccKey directory _, .device refusals =>
    (keyFilesText (KeyFiles.deviceIn directory),
      (List.range' 1 refusals).map .seedRejected ++ [.deviceKeysWritten directory])
  | generateRsaKey directory, .nothing =>
    (keyFilesText (KeyFiles.rsaIn directory), [.rsaKeysWritten directory])
  | inspect _, .header header => (header.text ++ "\n", [.containerParsed header.ciphertextLength.toNat])
  | _, _ => ("", [])

end Command

section Journals

variable {trace : Trace} {options : SealOptions} {key : KeyMaterial} {payload : Octets}

/-- The journal of a redraw loop counts the seeds that were refused. -/
lemma SeedAttempts.events {derive : Block 32 → Block 32} {left : Nat} {device : DeviceKey}
    (h : SeedAttempts derive left trace (.ok device)) (hleft : left ≤ DeviceKey.maxAttempts) (rest : Octets) :
    trace.events = (List.range' (DeviceKey.maxAttempts - left + 1)
      (DeviceKey.refusals derive left (trace.octets ++ rest))).map .seedRejected := by
  generalize hr : Except.ok device = r at h
  induction h with
  | exhausted => cases hr
  | @accepted left seed key h =>
    have hdraw : Draw.block 32 (seed.octets ++ ([] ++ rest)) = some (seed, rest) :=
      Draw.block_eq_some_iff.mpr rfl
    rw [Trace.octets_drawn, Trace.octets_nil, List.append_assoc, DeviceKey.refusals]
    simp only [hdraw, h]
    rfl
  | @refused left seed e trace r h later ih =>
    have hdraw : Draw.block 32 (seed.octets ++ (trace.octets ++ rest)) = some (seed, trace.octets ++ rest) :=
      Draw.block_eq_some_iff.mpr rfl
    have hnext : DeviceKey.maxAttempts - (left + 1) + 1 = DeviceKey.maxAttempts - left := by omega
    rw [Trace.octets_drawn, Trace.octets_reported, List.append_assoc, DeviceKey.refusals]
    simp only [hdraw, h]
    rw [Trace.events_drawn, Trace.events_reported, ih (by omega) hr, List.range'_succ, List.map_cons, hnext]

lemma Agrees.events {recipient : P256.PublicKey} {device : Option DeviceKey} {r : Except Failure Established}
    (h : Agrees recipient device trace r) : trace.events = [] := by
  cases h with
  | infinite h hpoint => exact h.events
  | agreed h hpub =>
    rw [Trace.events_append, h.events]
    rfl

lemma Wraps.events {recipient : Rsa.PublicKey} {contentKey : Block 32} {r : Except Failure (Block 384)}
    (h : Wraps recipient contentKey trace r) : trace.events = [] := by
  cases h with
  | missized h => rfl
  | unfit hsize h => rfl
  | wrapped hsize hfit hfiller hwrapped => exact hfiller.events

/-- Nothing is reported while a content key is established for a given key. -/
lemma Establishes.events {r : Except Failure Established} (h : Establishes options (some key) trace r) :
    trace.events = [] := by
  cases h with
  | rsa hkey wraps => exact wraps.events
  | ecc hkey agrees => exact agrees.events
  | infinite hscheme hkey => rfl

lemma Encrypts.events {source : Source} {summary : SealSummary} {sink sink' : Sink}
    (h : Encrypts source (some key) options sink trace (.ok summary) sink')
    (hread : source.readAll = .ok payload) :
    trace.events = [.establishing key.scheme true, .payloadEncrypted key.scheme payload.length] ∧
      summary.scheme = key.scheme ∧ summary.containerLength = Layout.headerSize + payload.length := by
  cases h with
  | written hread' seals hdone =>
    obtain rfl := Except.ok.inj (hread.symm.trans hread')
    cases seals with
    | sealed hfits prepares hsealed =>
      cases prepares with
      | ready hest =>
        have hscheme : _ = key.scheme := hest.spec.1
        rw [hscheme]
        exact ⟨by simp [hest.events, Scheme.resolve], rfl, rfl⟩

end Journals

lemma Container.lengths_of_ofOctets {image : Octets} {container : Container}
    (h : Container.ofOctets image = .ok container) :
    container.header.ciphertextLength.toNat = image.length - Layout.headerSize ∧
      container.ciphertext.length = image.length - Layout.headerSize := by
  obtain ⟨header, hparse, htold, rfl⟩ := Container.ofOctets_eq_ok_iff.mp h
  exact ⟨htold, List.length_drop⟩

lemma length_of_openContainer {container : Container} {key : KeyMaterial} {payload : Octets}
    (h : openContainer container key = .ok payload) : payload.length = container.ciphertext.length := by
  cases hkey : recoverContentKey container.header key with
  | error e =>
    rw [openContainer_of_error hkey] at h
    cases h
  | ok contentKey =>
    rw [openContainer_of_contentKey hkey] at h
    split_ifs at h with hopens
    rw [← Except.ok.inj h, Gcm.length_crypt]

namespace Action

variable {medium : Medium} {media : Media} {directory input output keyPath : String} {s t : Session FileSystem}

lemma session_of_openSource {source : Source} (h : (openSource input).outcome s = some (.ok source, t)) :
    t = s := by
  obtain ⟨fs, u, hfiles, hrest⟩ := outcome_bind_eq_ok.mp h
  obtain ⟨-, rfl⟩ := Prod.mk.inj (Option.some.inj hfiles)
  obtain ⟨entry, v, hentry, hsource⟩ := outcome_bind_eq_ok.mp hrest
  obtain ⟨-, rfl⟩ := outcome_ofIo_eq_ok hentry
  cases entry with
  | file contents | directory => exact (Prod.mk.inj (Option.some.inj hsource)).2.symm

lemma keyAt_of_loadKey {key : KeyMaterial} (h : (loadKey keyPath).outcome s = some (.ok key, t)) :
    s.store.keyAt keyPath = .ok key ∧ t = { s with journal := s.journal ++ [.keyLoaded key.kind] } := by
  rw [outcome_loadKey] at h
  obtain ⟨hkey, rfl⟩ := Prod.mk.inj (Option.some.inj h)
  rw [hkey]
  exact ⟨rfl, rfl⟩

/-- An encryption reports the key, its scheme and the length of the payload. -/
lemma journal_of_encryptFileOn {options : SealOptions} {summary : SealSummary}
    (h : (encryptFileOn medium input (some keyPath) output options).outcome s = some (.ok summary, t)) :
    ∃ payload key, s.store.contentsOf input = .ok payload ∧ s.store.keyAt keyPath = .ok key ∧
      summary.scheme = key.scheme ∧ summary.containerLength = Layout.headerSize + payload.length ∧
      t.journal = s.journal ++ [.keyLoaded key.kind, .establishing key.scheme true,
        .payloadEncrypted key.scheme payload.length] := by
  rw [encryptFileOn_eq] at h
  obtain ⟨key?, t₁, hload, hrest⟩ := outcome_bind_eq_ok.mp h
  obtain ⟨key, t₂, hloaded, hsome⟩ := outcome_bind_eq_ok.mp hload
  obtain ⟨hkey, rfl⟩ := keyAt_of_loadKey hloaded
  obtain ⟨rfl, rfl⟩ := outcome_pure_eq_ok hsome
  obtain ⟨source, t₃, hsource, hwrite⟩ := outcome_bind_eq_ok.mp hrest
  obtain rfl := session_of_openSource hsource
  obtain ⟨u, hrun, -, hjournal⟩ := replaceFile_of_writeAtomicallyOn hwrite
  obtain ⟨trace, hencrypts, -, hevents, -⟩ := encrypt_outcome_iff.mp hrun
  obtain ⟨payload, draws, container, scheme, device, hread, -⟩ := hencrypts.spec
  obtain ⟨hcontents, -⟩ := contentsOf_of_openSource hsource hread
  obtain ⟨htrace, hscheme, hlength⟩ := hencrypts.events hread
  refine ⟨payload, key, hcontents, hkey, hscheme, hlength, ?_⟩
  rw [hjournal, show u.journal = _ from hevents, htrace, List.append_assoc]
  rfl

lemma journal_of_readImage {container : Container} (h : (readImage input).outcome s = some (.ok container, t)) :
    ∃ image, s.store.contentsOf input = .ok image ∧ Container.ofOctets image = .ok container ∧
      t = parsedJournal s container := by
  obtain ⟨-, image, hcontents, hparsed⟩ := readImage_spec h
  rw [readImage_of_contentsOf hcontents, hparsed] at h
  exact ⟨image, hcontents, hparsed, (Prod.mk.inj (Option.some.inj h)).2.symm⟩

lemma spec_of_writeWholeOn {path : String} {contents : Octets}
    (h : (writeWholeOn medium path contents).outcome s = some (.ok (), t)) :
    s.store.writeWhole path contents = .ok t.store ∧ t.journal = s.journal := by
  rw [outcome_writeWholeOn] at h
  cases hwrite : s.store.writeWholeOn medium path contents with
  | error fault => simp [hwrite] at h
  | ok after =>
    rw [hwrite] at h
    obtain ⟨-, rfl⟩ := Prod.mk.inj (Option.some.inj h)
    exact ⟨FileSystem.writeWhole_of_writeWholeOn hwrite, rfl⟩

/-- A decryption writes what the image opens to, and reports the key, its scheme and the lengths. -/
lemma spec_of_decryptFileOn {summary : OpenSummary}
    (h : (decryptFileOn medium input keyPath output).outcome s = some (.ok summary, t)) :
    ∃ image key payload, s.store.contentsOf input = .ok image ∧ s.store.keyAt keyPath = .ok key ∧
      openOctets image key = .ok payload ∧ s.store.writeWhole output payload = .ok t.store ∧
      summary = ⟨key.scheme, payload.length⟩ ∧ payload.length = image.length - Layout.headerSize ∧
      t.journal = s.journal ++ [.containerParsed (image.length - Layout.headerSize), .keyLoaded key.kind,
        .fileDecrypted key.scheme (image.length - Layout.headerSize) output] := by
  rw [decryptFileOn_eq] at h
  obtain ⟨container, t₁, hread, hrest⟩ := outcome_bind_eq_ok.mp h
  obtain ⟨image, hcontents, hparsed, rfl⟩ := journal_of_readImage hread
  obtain ⟨key, t₂, hloaded, hrest⟩ := outcome_bind_eq_ok.mp hrest
  obtain ⟨hkey, rfl⟩ := keyAt_of_loadKey hloaded
  obtain ⟨payload, t₃, hopen, hrest⟩ := outcome_bind_eq_ok.mp hrest
  obtain ⟨hopened, rfl⟩ := outcome_ofExcept_eq_ok hopen
  obtain ⟨u, t₄, hwrite, hrest⟩ := outcome_bind_eq_ok.mp hrest
  obtain ⟨hstore, hjournal⟩ := spec_of_writeWholeOn hwrite
  rw [outcome_report_bind] at hrest
  obtain ⟨rfl, rfl⟩ := outcome_pure_eq_ok hrest
  obtain ⟨htold, hciphertext⟩ := Container.lengths_of_ofOctets hparsed
  have hlength : payload.length = image.length - Layout.headerSize :=
    (length_of_openContainer hopened).trans hciphertext
  refine ⟨image, key, payload, hcontents, hkey, (openOctets_of_container key hparsed).trans hopened, hstore, rfl,
    hlength, ?_⟩
  simp only [hjournal, parsedJournal, htold, hlength, List.append_assoc]
  rfl

lemma journal_of_inspectFile {header : Header} (h : (inspectFile input).outcome s = some (.ok header, t)) :
    ∃ image container, s.store.contentsOf input = .ok image ∧ Container.ofOctets image = .ok container ∧
      header = container.header ∧ t.journal = s.journal ++ [.containerParsed header.ciphertextLength.toNat] := by
  rw [inspectFile_eq] at h
  obtain ⟨container, t₁, hread, hrest⟩ := outcome_bind_eq_ok.mp h
  obtain ⟨image, hcontents, hparsed, rfl⟩ := journal_of_readImage hread
  obtain ⟨rfl, rfl⟩ := outcome_pure_eq_ok hrest
  exact ⟨image, container, hcontents, hparsed, rfl, rfl⟩

/-- A set of key files is reported behind the last of them. -/
lemma journal_of_writeEach {α : Type} {files : List (String × Octets)} {e : Event} {a b : α}
    (h : outcome (do writeEach media files; report e; pure a) s = some (.ok b, t)) :
    b = a ∧ t.journal = s.journal ++ [e] := by
  rw [outcome_writeEach_report] at h
  cases hfault : (s.store.writeEach media files).1 with
  | some fault => simp [hfault] at h
  | none =>
    rw [hfault] at h
    obtain ⟨hresult, rfl⟩ := Prod.mk.inj (Option.some.inj h)
    exact ⟨(Except.ok.inj hresult).symm, rfl⟩

lemma journal_of_writeDeviceKeyOn {device : DeviceKey} {files : KeyFiles}
    (h : (writeDeviceKeyOn media directory device).outcome s = some (.ok files, t)) :
    files = KeyFiles.deviceIn directory ∧ t.journal = s.journal ++ [.deviceKeysWritten directory] := by
  cases hpublic : device.publicKey? with
  | none =>
    unfold writeDeviceKeyOn at h
    simp [hpublic] at h
  | some publicKey =>
    rw [writeDeviceKeyOn_eq hpublic] at h
    exact journal_of_writeEach h

/-- The generation of a device key reports the seeds that were refused. -/
lemma journal_of_generateEccPairOn {seed : Option (Block 32)} {files : KeyFiles}
    (h : (generateEccPairOn media directory seed).outcome s = some (.ok files, t)) :
    files = KeyFiles.deviceIn directory ∧ t.journal = s.journal ++
      ((List.range' 1 (if seed.isSome then 0 else
        DeviceKey.refusals DeviceKey.scalar DeviceKey.maxAttempts s.tape)).map .seedRejected ++
        [.deviceKeysWritten directory]) := by
  cases seed with
  | some seed =>
    obtain ⟨device, t₁, hdevice, hwrite⟩ := outcome_bind_eq_ok.mp h
    obtain ⟨-, rfl⟩ := outcome_ofExcept_eq_ok hdevice
    exact journal_of_writeDeviceKeyOn hwrite
  | none =>
    obtain ⟨device, t₁, hdevice, hwrite⟩ := outcome_bind_eq_ok.mp h
    obtain ⟨trace, hattempts, htape, hjournal, -⟩ := (DeviceKey.generateFrom_behaves _ _ _ _ _).mp hdevice
    obtain ⟨hfiles, hwritten⟩ := journal_of_writeDeviceKeyOn hwrite
    refine ⟨hfiles, ?_⟩
    rw [hwritten, hjournal, hattempts.events (Nat.le_refl _) t₁.tape, ← htape, List.append_assoc]
    rfl

lemma journal_of_generateRsaPairOn {files : KeyFiles}
    (h : (generateRsaPairOn media directory).outcome s = some (.ok files, t)) :
    files = KeyFiles.rsaIn directory ∧ t.journal = s.journal ++ [.rsaKeysWritten directory] := by
  rw [outcome_generateRsaPairOn] at h
  obtain ⟨⟨key, rest⟩, -, hwrite⟩ := Option.bind_eq_some_iff.mp h
  rw [writeRsaKeyOn_eq] at hwrite
  obtain ⟨hfiles, hjournal⟩ := journal_of_writeEach hwrite
  exact ⟨hfiles, hjournal⟩

/-- The seed in the file that a path names, if there is a path. -/
def loadSeedOption : Option String → Action FileSystem (Option (Block 32))
  | none => pure none
  | some path => do pure (some (← loadSeed path))

lemma seedAt_of_loadSeed {seed : Block 32} (h : (loadSeed input).outcome s = some (.ok seed, t)) :
    s.store.seedAt input = .ok seed ∧ t = s := by
  obtain ⟨hseed, rfl⟩ := outcome_unique (FileSystem.outcome_loadSeed input s) h
  exact ⟨hseed, rfl⟩

/-- A seed is loaded from its file if there is a path, and that changes nothing. -/
lemma contents_of_loadSeedOption {path : Option String} {seed : Option (Block 32)}
    (h : (loadSeedOption path).outcome s = some (.ok seed, t)) :
    t = s ∧ path.map s.store.contentsOf = seed.map fun seed => .ok seed.octets := by
  cases path with
  | none =>
    obtain ⟨rfl, rfl⟩ := outcome_pure_eq_ok h
    exact ⟨rfl, rfl⟩
  | some path =>
    obtain ⟨seed', t₁, hload, hsome⟩ := outcome_bind_eq_ok.mp h
    obtain ⟨rfl, rfl⟩ := outcome_pure_eq_ok hsome
    obtain ⟨hseed, rfl⟩ := seedAt_of_loadSeed hload
    exact ⟨rfl, congrArg some (FileSystem.seedAt_eq_ok_iff.mp hseed)⟩

end Action

lemma Command.action_generateEccKey (media : Media) (directory : String) (seed : Option String) :
    (generateEccKey directory seed).action media = (do
      let seed ← Action.loadSeedOption seed
      let files ← Action.generateEccPairOn media directory seed
      pure (keyFilesText files)) := by
  cases seed with
  | none => rfl
  | some path => simp only [action, Action.loadSeedOption, map_eq_pure_bind, bind_assoc]

/-- A command that succeeds shows what its view says. -/
theorem Command.shown_of_ok {command : Command} {media : Media} {tape : Octets} {fs : FileSystem} {text : String}
    {t : Session FileSystem} (h : (command.action media).outcome ⟨tape, [], fs⟩ = some (.ok text, t)) :
    ∃ view, command.view? tape fs = some view ∧ command.shown view = (text, t.journal) := by
  cases command with
  | encrypt input keyPath output =>
    rw [action, Action.outcome_report_bind] at h
    obtain ⟨summary, t₁, hfile, hrest⟩ := Action.outcome_bind_eq_ok.mp h
    obtain ⟨payload, key, hcontents, hkey, hscheme, hlength, hjournal⟩ := Action.journal_of_encryptFileOn hfile
    rw [Action.outcome_report_bind] at hrest
    obtain ⟨rfl, rfl⟩ := Action.outcome_pure_eq_ok hrest
    refine ⟨.image payload.length key.kind, ?_, ?_⟩
    · simp [view?, hcontents, hkey, Except.toOption]
    · simp only [hjournal, hscheme, hlength]
      rfl
  | decrypt input keyPath output =>
    rw [action, Action.outcome_report_bind] at h
    obtain ⟨summary, t₁, hfile, hrest⟩ := Action.outcome_bind_eq_ok.mp h
    obtain ⟨image, key, payload, hcontents, hkey, -, -, rfl, hlength, hjournal⟩ := Action.spec_of_decryptFileOn hfile
    obtain ⟨rfl, rfl⟩ := Action.outcome_pure_eq_ok hrest
    refine ⟨.image image.length key.kind, ?_, ?_⟩
    · simp [view?, hcontents, hkey, Except.toOption]
    · rw [hlength, hjournal]
      rfl
  | generateEccKey directory seedPath =>
    rw [action_generateEccKey] at h
    obtain ⟨seed, t₁, hseed, hrest⟩ := Action.outcome_bind_eq_ok.mp h
    obtain ⟨rfl, hcontents⟩ := Action.contents_of_loadSeedOption hseed
    have hseeded : seed.isSome = seedPath.isSome := by
      simpa using (congrArg Option.isSome hcontents).symm
    obtain ⟨files, t₂, hpair, hrest⟩ := Action.outcome_bind_eq_ok.mp hrest
    obtain ⟨rfl, rfl⟩ := Action.outcome_pure_eq_ok hrest
    obtain ⟨rfl, hjournal⟩ := Action.journal_of_generateEccPairOn hpair
    refine ⟨_, rfl, ?_⟩
    rw [hjournal, hseeded]
    rfl
  | generateRsaKey directory =>
    obtain ⟨files, t₁, hpair, hrest⟩ := Action.outcome_bind_eq_ok.mp h
    obtain ⟨rfl, rfl⟩ := Action.outcome_pure_eq_ok hrest
    obtain ⟨rfl, hjournal⟩ := Action.journal_of_generateRsaPairOn hpair
    refine ⟨.nothing, rfl, ?_⟩
    rw [hjournal]
    rfl
  | inspect input =>
    obtain ⟨header, t₁, hfile, hrest⟩ := Action.outcome_bind_eq_ok.mp h
    obtain ⟨image, container, hcontents, hparsed, rfl, hjournal⟩ := Action.journal_of_inspectFile hfile
    obtain ⟨rfl, rfl⟩ := Action.outcome_pure_eq_ok hrest
    refine ⟨.header container.header, ?_, ?_⟩
    · simp [view?, hcontents, hparsed, Except.toOption]
    · rw [hjournal]
      rfl

/-- Whether there is a value is all that its description tells, if all values are described alike. -/
lemma describeOption_eq {α : Type} {describe : α → String} (halike : ∀ a b, describe a = describe b)
    {a b : Option α} (h : b.isSome = a.isSome) : describeOption describe b = describeOption describe a := by
  cases a with
  | none =>
    rw [Option.isSome_none, Option.isSome_eq_false_iff, Option.isNone_iff_eq_none] at h
    rw [h]
  | some a =>
    obtain ⟨b, rfl⟩ := Option.isSome_iff_exists.mp h
    rw [describeOption, describeOption, halike b a]

lemma Failure.exitCode_ne_zero (e : Failure) : e.exitCode ≠ 0 := by
  unfold Failure.exitCode Category.exitCode
  cases e.category <;> simp

namespace Command

/-- The view of a run on some arguments. -/
def viewOf? (arguments : List String) (tape : Octets) (fs : FileSystem) : Option View :=
  (parse? arguments).bind (view? tape fs)

/-- What a successful run of a command reports is given by its arguments, the filter and its view. -/
lemma report_of_run {wording : Wording} {media : Media} {arguments : List String} {command : Command}
    {filter : Filter} {tape rest : Octets} {fs after : FileSystem} {report : Report}
    (hcommand : parse? arguments = some command)
    (h : run wording media arguments filter tape fs = some (report, rest, after)) (hok : report.exitCode = 0) :
    ∃ view, viewOf? arguments tape fs = some view ∧
      report = ⟨0, (command.shown view).1, some "", filter.lines (command.shown view).2⟩ := by
  unfold run at h
  rw [hcommand] at h
  obtain ⟨⟨result, t⟩, hrun, hpair⟩ := Option.map_eq_some_iff.mp h
  obtain ⟨rfl, -⟩ := Prod.mk.inj hpair
  cases result with
  | error e => exact absurd hok e.exitCode_ne_zero
  | ok text =>
    obtain ⟨view, hview, hshown⟩ := shown_of_ok hrun
    refine ⟨view, ?_, ?_⟩
    · rw [viewOf?, hcommand, Option.bind_some, hview]
    · rw [hshown]
      rfl

/-- Arguments that are no command are answered alone by what they are. -/
lemma run_of_no_command {wording : Wording} {media : Media} {arguments : List String} (h : parse? arguments = none)
    (filter : Filter) (tape : Octets) (fs : FileSystem) :
    run wording media arguments filter tape fs = some (reply (wording.answer? arguments), tape, fs) := by
  unfold run
  rw [h]

/-- A successful run keeps its secrets. Whatever the payloads, keys, seeds, tapes and media are, two runs that succeed
report the same if their arguments, their filters and their views are the same. The descriptions of values
depend on kinds, schemes and lengths, and on whether there is a device seed or a device key. -/
theorem reports_keep_secrets :
    (∀ wording media media' arguments filter tape tape' fs fs' report report' rest rest' after after',
      viewOf? arguments tape' fs' = viewOf? arguments tape fs →
      run wording media arguments filter tape fs = some (report, rest, after) → report.exitCode = 0 →
      run wording media' arguments filter tape' fs' = some (report', rest', after') → report'.exitCode = 0 →
        report' = report) ∧
    (∀ key key' : KeyMaterial, key'.kind = key.kind → key'.describe = key.describe) ∧
    (∀ device device' : DeviceKey, device'.describe = device.describe) ∧
    (∀ options options' : SealOptions, options'.fallback = options.fallback →
      options'.deviceSeed.isSome = options.deviceSeed.isSome → options'.describe = options.describe) ∧
    (∀ header header' : Header, header'.ciphertextLength = header.ciphertextLength →
      header'.describe = header.describe) ∧
    (∀ summary summary' : SealSummary, summary'.scheme = summary.scheme →
      summary'.payloadLength = summary.payloadLength → summary'.containerLength = summary.containerLength →
      summary'.device.isSome = summary.device.isSome → summary'.describe = summary.describe) ∧
    ∀ summary summary' : OpenSummary, summary'.scheme = summary.scheme →
      summary'.plaintextLength = summary.plaintextLength → summary'.describe = summary.describe := by
  refine ⟨?_, ?_, fun device device' => rfl, ?_, ?_, ?_, ?_⟩
  · intro wording media media' arguments filter tape tape' fs fs' report report' rest rest' after after' hviews hrun hok
      hrun' hok'
    cases hcommand : parse? arguments with
    | none =>
      rw [run_of_no_command hcommand] at hrun hrun'
      rw [← (Prod.mk.inj (Option.some.inj hrun)).1, (Prod.mk.inj (Option.some.inj hrun')).1]
    | some command =>
      obtain ⟨view, hview, rfl⟩ := report_of_run hcommand hrun hok
      obtain ⟨view', hview', rfl⟩ := report_of_run hcommand hrun' hok'
      obtain rfl := Option.some.inj (hview'.symm.trans (hviews.trans hview))
      rfl
  · intro key key' hkind
    unfold KeyMaterial.describe
    rw [hkind]
  · intro options options' hfallback hseed
    unfold SealOptions.describe
    rw [hfallback, describeOption_eq (fun _ _ => rfl) hseed]
  · intro header header' hlength
    unfold Header.describe
    rw [hlength]
  · intro summary summary' hscheme hpayload hcontainer hdevice
    unfold SealSummary.describe
    rw [hscheme, hpayload, hcontainer, describeOption_eq (fun _ _ => rfl) hdevice]
  · intro summary summary' hscheme hlength
    unfold OpenSummary.describe
    rw [hscheme, hlength]

section Sample

/-- A tape with another prime in the place of the second one. -/
def otherTape : Octets :=
  (Rsa.sampleBlock 0x07 0x2d).octets ++ (Rsa.sampleBlock 0x0e 0xd5).octets

lemma otherTape_drawn : ∃ k, Rsa.drawKey otherTape = some (k, []) :=
  Rsa.drawKey_of_prime? (q := 3 * 2 ^ 1534 + 3797) Rsa.prime?_sampleBlock (by decide +kernel) (by decide +kernel)

lemma writeEach_here (key : Rsa.PrivateKey) :
    FileSystem.empty.writeEach .perfect (KeyFiles.ofRsa "." key) =
      FileSystem.empty.writeEach .perfect (KeyFiles.ofRsa "" key) := by
  have hfirst (fs : FileSystem) (contents : Octets) :
      fs.writeWhole (Path.join "." KeyFiles.rsaPrivateName) contents =
        fs.writeWhole KeyFiles.rsaPrivateName contents :=
    FileSystem.writeWhole_here (by decide) (by decide) (by decide)
  have hsecond (fs : FileSystem) (contents : Octets) :
      fs.writeWhole (Path.join "." KeyFiles.rsaPublicName) contents =
        fs.writeWhole KeyFiles.rsaPublicName contents :=
    FileSystem.writeWhole_here (by decide) (by decide) (by decide)
  simp only [KeyFiles.ofRsa, FileSystem.writeEach, Media.perfect_apply, FileSystem.writeWholeOn_perfect,
    Path.join_empty, hfirst, hsecond]

lemma parse?_generateRsaKey : parse? ["generate-rsa-key"] = some (.generateRsaKey ".") := by
  decide

/-- A new RSA key goes to the working directory if no file is there yet. -/
lemma run_of_drawn {tape : Octets} (h : ∃ key, Rsa.drawKey tape = some (key, [])) (wording : Wording)
    (filter : Filter) : ∃ report rest after,
      run wording .perfect ["generate-rsa-key"] filter tape FileSystem.empty = some (report, rest, after) ∧
        report.exitCode = 0 := by
  obtain ⟨key, hkey⟩ := h
  obtain ⟨after, hwrite⟩ := Action.writeEach_empty (KeyFiles.ofRsa "" key) (by
    simp only [KeyFiles.ofRsa, Path.join_empty, List.forall_mem_cons]
    decide)
  have hstored := Action.outcome_writeEach_report .perfect (KeyFiles.ofRsa "." key) (.rsaKeysWritten ".")
    (KeyFiles.rsaIn ".") ⟨[], [], FileSystem.empty⟩
  rw [← Action.writeRsaKeyOn_eq key, writeEach_here, hwrite] at hstored
  have hpair : (Action.generateRsaPairOn .perfect ".").outcome ⟨tape, [], FileSystem.empty⟩ =
      some (.ok (KeyFiles.rsaIn "."), ⟨[], [.rsaKeysWritten "."], after⟩) := by
    rw [Action.outcome_generateRsaPairOn, hkey, Option.bind_some]
    exact hstored
  have hrun : ((generateRsaKey ".").action .perfect).outcome ⟨tape, [], FileSystem.empty⟩ =
      some (.ok (keyFilesText (KeyFiles.rsaIn ".")), ⟨[], [.rsaKeysWritten "."], after⟩) :=
    Action.outcome_bind_of_ok _ hpair
  unfold run
  simp only [parse?_generateRsaKey, hrun]
  exact ⟨_, _, _, rfl, rfl⟩

/-- A library that says nothing. -/
def silent : Wording :=
  ⟨fun _ _ => "", fun _ => none⟩

/-- New keys of different primes go with the same report. -/
theorem reports_keep_secrets_sample : ∃ report rest rest' after after',
    run silent .perfect ["generate-rsa-key"] [⟨none, 5⟩] Rsa.sampleTape FileSystem.empty = some (report, rest, after) ∧
      run silent .perfect ["generate-rsa-key"] [⟨none, 5⟩] otherTape FileSystem.empty = some (report, rest', after') ∧
      (SealOptions.mk .ecc256 (some (Block.replicate 32 1))).describe =
        (SealOptions.mk .ecc256 (some (Block.replicate 32 2))).describe := by
  obtain ⟨hreports, -, -, hoptions, -⟩ := reports_keep_secrets
  obtain ⟨report, rest, after, hrun, hok⟩ := run_of_drawn Rsa.sampleTape_drawn silent [⟨none, 5⟩]
  obtain ⟨report', rest', after', hrun', hok'⟩ := run_of_drawn otherTape_drawn silent [⟨none, 5⟩]
  have hviews : viewOf? ["generate-rsa-key"] otherTape FileSystem.empty =
      viewOf? ["generate-rsa-key"] Rsa.sampleTape FileSystem.empty := by
    simp only [viewOf?, parse?_generateRsaKey, Option.bind_some, view?]
  obtain rfl := hreports _ _ _ _ _ _ _ _ _ _ _ _ _ _ _ hviews hrun hok hrun' hok'
  exact ⟨_, rest, rest', after, after', hrun, hrun', hoptions _ _ rfl rfl⟩

end Sample

end Command

end SealedImage
