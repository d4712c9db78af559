import Mathlib.Tactic.Common
import SealedImage.Proofs.Grammar
import SealedImage.Proofs.WholeFiles

/-!
# The structure of an image is judged first

The decryption of a file goes through its stages in a fixed order: the structure of the input, the key file,
the content key, the tag, the output. Each stage has failures of its own categories, and the first stage that
fails decides (`Refusal`, `decryptFile_judges_structure_first`).
-/

namespace SealedImage

namespace Failure

/-- The failures that a key file can cause. -/
def OfKeyFile (e : Failure) : Prop :=
  e.category = .keyMaterial ∨ e.category = .unsupportedScheme

end Failure

namespace KeyMaterial

lemma classifyPlain_ofKeyFile (label : String) (algorithm : ObjectIdentifier) :
    (classifyAlgorithm.classifyPlain label algorithm).OfKeyFile := by
  unfold classifyAlgorithm.classifyPlain
  split_ifs
  · exact Or.inl rfl
  · exact Or.inr rfl

lemma classifyAlgorithm_ofKeyFile (label : String) (algorithm : ObjectIdentifier)
    (curve : Option ObjectIdentifier) : (classifyAlgorithm label algorithm curve).OfKeyFile := by
  unfold classifyAlgorithm
  cases curve with
  | none => exact classifyPlain_ofKeyFile label algorithm
  | some curve =>
    dsimp only
    split_ifs
    · exact Or.inr rfl
    · exact classifyPlain_ofKeyFile label algorithm

lemma classify_ofKeyFile (text : List Char) : (classify text).OfKeyFile := by
  unfold classify
  cases Pem.Armor.read? text with
  | none => exact Or.inl rfl
  | some armor =>
    dsimp only
    split_ifs
    · exact Or.inl rfl
    · rcases namedAlgorithm? (String.ofList armor.label) armor.contents with _ | _ | ⟨algorithm, curve⟩
      · exact Or.inl rfl
      · exact Or.inl rfl
      · exact classifyAlgorithm_ofKeyFile _ algorithm curve

end KeyMaterial

lemma Rsa.PublicKey.checkSize_category {k : Rsa.PublicKey} {e : Failure} (h : k.checkSize = .error e) :
    e.category = .keyMaterial := by
  unfold checkSize at h
  split_ifs at h
  · cases h
  · rw [← Except.error.inj h]
    rfl

namespace KeyMaterial

lemma checkSize_category {key : KeyMaterial} {e : Failure} (h : key.checkSize = .error e) :
    e.category = .keyMaterial := by
  cases key with
  | rsaPrivate k => exact Rsa.PublicKey.checkSize_category h
  | rsaPublic k => exact Rsa.PublicKey.checkSize_category h
  | eccPrivate k => cases h
  | eccPublic k => cases h

lemma ofText_ofKeyFile {text : List Char} {e : Failure} (h : ofText text = .error e) : e.OfKeyFile := by
  unfold ofText at h
  dsimp only at h
  cases hload : load? ((ecBlock? text).getD text) with
  | none =>
    simp only [hload, bind, Except.bind, throw, throwThe, MonadExceptOf.throw] at h
    rw [← Except.error.inj h]
    exact classify_ofKeyFile _
  | some key =>
    simp only [hload, bind, Except.bind, pure, Except.pure] at h
    cases hsize : key.checkSize with
    | error e' =>
      rw [hsize] at h
      rw [← Except.error.inj h]
      exact Or.inl (checkSize_category hsize)
    | ok u => simp [hsize] at h

end KeyMaterial

lemma P256.decodePoint_category {raw : Block 64} {e : Failure} (h : P256.decodePoint raw = .error e) :
    e.category = .keyMaterial := by
  unfold P256.decodePoint at h
  cases hraw : P256.PublicKey.ofRaw? raw with
  | some key => simp [hraw] at h
  | none =>
    rw [hraw] at h
    rw [← Except.error.inj h]
    rfl

lemma Rsa.unwrap_category {k : Rsa.PrivateKey} {wrapped : Block 384} {e : Failure}
    (h : Rsa.unwrap k wrapped = .error e) : e.category = .keyMaterial := by
  unfold Rsa.unwrap at h
  cases hsize : k.publicKey.checkSize with
  | error e' =>
    simp only [hsize, bind, Except.bind] at h
    rw [← Except.error.inj h]
    exact Rsa.PublicKey.checkSize_category hsize
  | ok u =>
    simp only [hsize, bind, Except.bind] at h
    cases hdecrypt : k.decrypt? wrapped.octets with
    | none =>
      rw [hdecrypt] at h
      rw [← Except.error.inj h]
      rfl
    | some message =>
      rw [hdecrypt] at h
      dsimp only at h
      cases hblock : Block.ofOctets? 32 message with
      | none =>
        rw [hblock] at h
        rw [← Except.error.inj h]
        rfl
      | some contentKey => simp [hblock, pure, Except.pure] at h

/-- A content key that cannot be recovered is a fault of the key. -/
lemma recoverContentKey_category {header : Header} {key : KeyMaterial} {e : Failure}
    (h : recoverContentKey header key = .error e) : e.category = .keyMaterial := by
  cases key with
  | rsaPrivate k => exact Rsa.unwrap_category h
  | rsaPublic k =>
    rw [← Except.error.inj h]
    rfl
  | eccPrivate k =>
    obtain ⟨point, salt, hblob⟩ : ∃ point salt, header.keyBlob .ecc256 = .ecc point salt := ⟨_, _, rfl⟩
    unfold recoverContentKey at h
    rw [show (KeyMaterial.eccPrivate k).scheme = .ecc256 from rfl, hblob] at h
    cases hpoint : P256.decodePoint point with
    | error e' =>
      simp only [hpoint, bind, Except.bind] at h
      rw [← Except.error.inj h]
      exact P256.decodePoint_category hpoint
    | ok peer => simp [hpoint, bind, Except.bind, pure, Except.pure] at h
  | eccPublic k =>
    rw [← Except.error.inj h]
    rfl

namespace Action

variable {σ α : Type}

/-- The action ends in a failure. -/
def Fails (x : Action σ α) (s : Session σ) (e : Failure) : Prop :=
  ∃ t, x.outcome s = some (.error e, t)

/-- The action ends in a result. -/
def Gives (x : Action σ α) (s : Session σ) (a : α) : Prop :=
  ∃ t, x.outcome s = some (.ok a, t)

end Action

/-- The key in the file that a path names, or what is wrong with it. -/
def FileSystem.keyAt (fs : FileSystem) (path : String) : Except Failure KeyMaterial :=
  match Action.readText fs path with
  | .error fault => .error (.keyMaterial (.unreadableKey path fault))
  | .ok text => KeyMaterial.ofText text.toList

namespace Action

/-- Loading a key looks at the files alone, and changes none. -/
lemma outcome_loadKey (path : String) (s : Session FileSystem) :
    (loadKey path).outcome s = some (s.store.keyAt path,
      { s with
        journal := s.journal ++ (s.store.keyAt path).toOption.toList.map fun key => .keyLoaded key.kind }) := by
  unfold loadKey FileSystem.keyAt
  rw [outcome_bind_of_ok _ (outcome_files s)]
  cases readText s.store path with
  | error fault =>
    dsimp only
    rw [outcome_throw]
    exact congrArg some (Prod.ext rfl (by simp [Except.toOption]))
  | ok text =>
    dsimp only
    unfold KeyMaterial.loadText
    cases hkey : KeyMaterial.ofText text.toList with
    | error e =>
      rw [outcome_ofExcept_bind_of_error rfl]
      exact congrArg some (Prod.ext rfl (by simp [Except.toOption]))
    | ok key =>
      exact (outcome_ofExcept_bind_of_ok rfl _ s).trans (outcome_report_bind _ _ s)

lemma fails_loadKey_iff {path : String} {s : Session FileSystem} {e : Failure} :
    (loadKey path).Fails s e ↔ s.store.keyAt path = .error e := by
  have hload := outcome_loadKey path s
  constructor
  · rintro ⟨t, h⟩
    exact (outcome_unique hload h).1
  · intro h
    exact ⟨_, h ▸ hload⟩

lemma gives_loadKey_iff {path : String} {s : Session FileSystem} {key : KeyMaterial} :
    (loadKey path).Gives s key ↔ s.store.keyAt path = .ok key := by
  have hload := outcome_loadKey path s
  constructor
  · rintro ⟨t, h⟩
    exact (outcome_unique hload h).1
  · intro h
    exact ⟨_, h ▸ hload⟩

lemma keyAt_ofKeyFile {fs : FileSystem} {path : String} {e : Failure} (h : fs.keyAt path = .error e) :
    e.OfKeyFile := by
  unfold FileSystem.keyAt at h
  cases hread : readText fs path with
  | error fault =>
    rw [hread] at h
    rw [← Except.error.inj h]
    exact Or.inl rfl
  | ok text =>
    rw [hread] at h
    exact KeyMaterial.ofText_ofKeyFile h

lemma fails_writeWholeOn_iff {medium : Medium} {path : String} {contents : Octets} {s : Session FileSystem}
    {e : Failure} : (writeWholeOn medium path contents).Fails s e ↔
      ∃ fault, s.store.writeWholeOn medium path contents = .error fault ∧ e = .io fault := by
  have hwrite := outcome_writeWholeOn medium path contents s
  cases hstore : s.store.writeWholeOn medium path contents with
  | error fault =>
    rw [hstore] at hwrite
    constructor
    · rintro ⟨t, h⟩
      exact ⟨fault, rfl, (Except.error.inj (outcome_unique hwrite h).1).symm⟩
    · rintro ⟨_, hfault, rfl⟩
      obtain rfl := Except.error.inj hfault
      exact ⟨s, hwrite⟩
  | ok after =>
    rw [hstore] at hwrite
    constructor
    · rintro ⟨t, h⟩
      cases (outcome_unique hwrite h).1
    · rintro ⟨_, hfault, -⟩
      cases hfault

section Stages

variable {s t : Session FileSystem} {medium : Medium} {input keyPath output : String} {image : Octets}
  {container : Container}

/-- The image in the file that a path names. -/
def readImage (input : String) : Action FileSystem Container := do
  readContainer (← openSource input)

lemma decryptFileOn_eq : decryptFileOn medium input keyPath output = (do
    let container ← readImage input
    let key ← loadKey keyPath
    let payload ← ofExcept (openContainer container key)
    writeWholeOn medium output payload
    report (.fileDecrypted key.scheme payload.length output)
    pure ⟨key.scheme, payload.length⟩) := by
  unfold decryptFileOn readImage
  rw [bind_assoc]
  rfl

lemma inspectFile_eq : inspectFile input = (do pure (← readImage input).header) := by
  unfold inspectFile readImage
  rw [bind_assoc]

/-- What inspection fails with, decryption fails with. -/
lemma decryptFileOn_of_inspectFile_error {e : Failure} (h : (inspectFile input).outcome s = some (.error e, t))
    (medium : Medium) (keyPath output : String) :
    (decryptFileOn medium input keyPath output).outcome s = some (.error e, t) := by
  rw [inspectFile_eq] at h
  rw [decryptFileOn_eq]
  rcases outcome_bind_eq_error.mp h with hread | ⟨container, u, -, hpure⟩
  · exact outcome_bind_of_error _ hread
  · cases (Prod.mk.inj (Option.some.inj hpure)).1

lemma readImage_spec (h : (readImage input).outcome s = some (.ok container, t)) :
    t.store = s.store ∧ ∃ image, s.store.contentsOf input = .ok image ∧
      Container.ofOctets image = .ok container := by
  obtain ⟨source, u, hsource, hread⟩ := outcome_bind_eq_ok.mp h
  obtain ⟨image, hdelivered, hparsed⟩ := ofOctets_of_readContainer hread
  refine ⟨?_, image, (contentsOf_of_openSource hsource hdelivered).1, hparsed⟩
  exact ((onlyReads_readContainer source).store hread).trans ((onlyReads_openSource input).store hsource)

lemma readImage_of_contentsOf (h : s.store.contentsOf input = .ok image) :
    (readImage input).outcome s = some (match Container.ofOctets image with
      | .ok container => (.ok container, parsedJournal s container)
      | .error e => (.error e, s)) := by
  have hopen : (openSource input).outcome s = some (.ok (Source.ofOctets image), s) := by
    unfold openSource
    rw [outcome_bind_of_ok _ (outcome_files s)]
    have hentry : (ofIo (s.store.openEntry input) : Action FileSystem Entry).outcome s =
        some (.ok (.file image), s) := by
      rw [outcome_ofIo, FileSystem.contentsOf_eq_ok_iff.mp h]
      rfl
    exact outcome_bind_of_ok _ hentry
  unfold readImage
  rw [outcome_bind_of_ok _ hopen]
  exact readContainer_outcome (Source.readAll_ofOctets image) s

/-- What becomes of an image that is decrypted: the key, the payload and the output follow one another. -/
def openStages (medium : Medium) (fs : FileSystem) (container : Container) (keyPath output : String) :
    Except Failure OpenSummary :=
  match fs.keyAt keyPath with
  | .error e => .error e
  | .ok key =>
    match openContainer container key with
    | .error e => .error e
    | .ok payload =>
      match fs.writeWholeOn medium output payload with
      | .error fault => .error (.io fault)
      | .ok _ => .ok ⟨key.scheme, payload.length⟩

/-- A decryption behind the structure of its input goes through its stages. -/
lemma outcome_decryptFileOn (h : (readImage input).outcome s = some (.ok container, t)) (medium : Medium)
    (keyPath output : String) : ∃ u, (decryptFileOn medium input keyPath output).outcome s =
      some (openStages medium s.store container keyPath output, u) := by
  have hstore := (readImage_spec h).1
  obtain ⟨journal, hload⟩ : ∃ journal, _ = some (_, { t with journal := journal }) :=
    ⟨_, outcome_loadKey keyPath t⟩
  rw [hstore] at hload
  rw [decryptFileOn_eq, outcome_bind_of_ok _ h]
  cases hkey : s.store.keyAt keyPath with
  | error e =>
    rw [hkey] at hload
    have hstages : openStages medium s.store container keyPath output = .error e := by simp only [openStages, hkey]
    rw [hstages]
    exact ⟨_, outcome_bind_of_error _ hload⟩
  | ok key =>
    rw [hkey] at hload
    rw [outcome_bind_of_ok _ hload]
    cases hcontainer : openContainer container key with
    | error e =>
      have hstages : openStages medium s.store container keyPath output = .error e := by
        simp only [openStages, hkey, hcontainer]
      rw [hstages]
      exact ⟨_, outcome_ofExcept_bind_of_error rfl _ _⟩
    | ok payload =>
      rw [outcome_ofExcept_bind_of_ok rfl]
      have hwrite := outcome_writeWholeOn medium output payload ⟨t.tape, journal, s.store⟩
      cases hwhole : s.store.writeWholeOn medium output payload with
      | error fault =>
        rw [hwhole] at hwrite
        have hstages : openStages medium s.store container keyPath output = .error (.io fault) := by
          simp only [openStages, hkey, hcontainer, hwhole]
        rw [hstages]
        exact ⟨_, outcome_bind_of_error _ hwrite⟩
      | ok after =>
        rw [hwhole] at hwrite
        have hstages : openStages medium s.store container keyPath output = .ok ⟨key.scheme, payload.length⟩ := by
          simp only [openStages, hkey, hcontainer, hwhole]
        rw [hstages, outcome_bind_of_ok _ hwrite]
        exact ⟨_, outcome_report_bind _ _ _⟩

/-- What ends the decryption of an image, stage by stage: the key file, the content key, the tag, the output. A
stage is reached only behind those before it. -/
inductive Refusal (medium : Medium) (s : Session FileSystem) (container : Container) (keyPath output : String) :
    Failure → Prop
  | key {e : Failure} (fails : (loadKey keyPath).Fails s e) : Refusal medium s container keyPath output e
  | contentKey {key : KeyMaterial} {e : Failure} (loaded : (loadKey keyPath).Gives s key)
    (fails : recoverContentKey container.header key = .error e) : Refusal medium s container keyPath output e
  | tag {key : KeyMaterial} {contentKey : Block 32} (loaded : (loadKey keyPath).Gives s key)
    (recovered : recoverContentKey container.header key = .ok contentKey)
    (differs : Gcm.tag (Aes.blockFunction contentKey) container.header.iv container.ciphertext ≠
      container.header.authTag) : Refusal medium s container keyPath output .authentication
  | output {key : KeyMaterial} {payload : Octets} {e : Failure} (loaded : (loadKey keyPath).Gives s key)
    (opened : openContainer container key = .ok payload) (fails : (writeWholeOn medium output payload).Fails s e) :
    Refusal medium s container keyPath output e

lemma length_le_ciphertextLimit (h : Container.ofOctets image = .ok container) :
    container.ciphertext.length ≤ Gcm.ciphertextLimit := by
  rw [(Container.toOctets_of_ofOctets h).1]
  exact Nat.le_trans (Nat.le_of_lt (UInt32.toNat_lt _)) (by decide)

lemma openContainer_eq_error_iff {key : KeyMaterial} {e : Failure} (h : Container.ofOctets image = .ok container) :
    openContainer container key = .error e ↔ recoverContentKey container.header key = .error e ∨
      ∃ contentKey, recoverContentKey container.header key = .ok contentKey ∧ e = .authentication ∧
        Gcm.tag (Aes.blockFunction contentKey) container.header.iv container.ciphertext ≠
          container.header.authTag := by
  cases hkey : recoverContentKey container.header key with
  | error e' =>
    rw [openContainer_of_error hkey]
    simp
  | ok contentKey =>
    rw [openContainer_of_contentKey hkey]
    by_cases htag : Gcm.tag (Aes.blockFunction contentKey) container.header.iv container.ciphertext =
        container.header.authTag
    · rw [if_pos ⟨length_le_ciphertextLimit h, htag⟩]
      simp [htag]
    · rw [if_neg fun hboth => htag hboth.2, Except.error.injEq, eq_comm]
      simp [htag]

lemma openStages_eq_error_iff {e : Failure} (h : Container.ofOctets image = .ok container) :
    openStages medium s.store container keyPath output = .error e ↔
      Refusal medium s container keyPath output e := by
  constructor
  · intro herror
    cases hkey : s.store.keyAt keyPath with
    | error e' =>
      simp only [openStages, hkey] at herror
      obtain rfl := Except.error.inj herror
      exact .key (fails_loadKey_iff.mpr hkey)
    | ok key =>
      have hloaded := gives_loadKey_iff.mpr hkey
      cases hopen : openContainer container key with
      | error e' =>
        simp only [openStages, hkey, hopen] at herror
        obtain rfl := Except.error.inj herror
        rcases (openContainer_eq_error_iff h).mp hopen with hfails | ⟨contentKey, hrecovered, rfl, hdiffers⟩
        · exact .contentKey hloaded hfails
        · exact .tag hloaded hrecovered hdiffers
      | ok payload =>
        cases hwhole : s.store.writeWholeOn medium output payload with
        | error fault =>
          simp only [openStages, hkey, hopen, hwhole] at herror
          exact .output hloaded hopen (fails_writeWholeOn_iff.mpr ⟨fault, hwhole, (Except.error.inj herror).symm⟩)
        | ok after => simp [openStages, hkey, hopen, hwhole] at herror
  · intro hrefusal
    cases hrefusal with
    | key fails => simp only [openStages, fails_loadKey_iff.mp fails]
    | contentKey loaded fails =>
      simp only [openStages, gives_loadKey_iff.mp loaded, openContainer_of_error fails]
    | tag loaded recovered differs =>
      have hopen := (openContainer_eq_error_iff h).mpr (Or.inr ⟨_, recovered, rfl, differs⟩)
      simp only [openStages, gives_loadKey_iff.mp loaded, hopen]
    | output loaded opened fails =>
      obtain ⟨fault, hwhole, rfl⟩ := fails_writeWholeOn_iff.mp fails
      simp only [openStages, gives_loadKey_iff.mp loaded, opened, hwhole]

/-- Behind the structure of its input, a decryption fails with a fault of the key, of the tag, or of the
output, and with one of the output only if the tag has verified. -/
lemma Refusal.category {e : Failure} (hparsed : Container.ofOctets image = .ok container)
    (h : Refusal medium s container keyPath output e) :
    e.category ∈ [.keyMaterial, .unsupportedScheme, .authentication, .io] ∧
      (e.category = .io → ∃ key payload, (loadKey keyPath).Gives s key ∧ Authentic image key payload) := by
  cases h with
  | key fails =>
    rcases keyAt_ofKeyFile (fails_loadKey_iff.mp fails) with hcategory | hcategory <;> simp [hcategory]
  | contentKey loaded fails => simp [recoverContentKey_category fails]
  | tag loaded recovered differs => simp [Failure.category]
  | @output key payload e loaded opened fails =>
    obtain ⟨fault, -, rfl⟩ := fails_writeWholeOn_iff.mp fails
    have hopened : openOctets image key = .ok payload := by rw [openOctets_of_container _ hparsed, opened]
    exact ⟨by simp [Failure.category], fun _ => ⟨key, payload, loaded, openOctets_eq_ok_iff.mp hopened⟩⟩

/-- The structure of an image is judged before the key, and whatever the key is. A file whose inspection fails
fails to decrypt in the same way, for every key file, output and medium, and a source that delivers no image fails
for every key. Behind a successful inspection, a decryption ends, and it fails with what the first failing stage
says: the key file, the content key, the tag, or the output, which may be kept from its place or from its medium. The
first two give faults of the key, and the output is not touched before the tag has verified. -/
theorem decryptFile_judges_structure_first :
    (∀ input s e t, (inspectFile input).outcome s = some (.error e, t) →
      ∀ medium keyPath output, (decryptFileOn medium input keyPath output).outcome s = some (.error e, t)) ∧
    (∀ (source : Source) octets e, source.readAll = .ok octets → Container.ofOctets octets = .error e →
      ∀ key s, (decrypt source key).outcome s = some (.error e, s)) ∧
    ∀ input s header t, (inspectFile input).outcome s = some (.ok header, t) →
      ∃ image container, s.store.contentsOf input = .ok image ∧ Container.ofOctets image = .ok container ∧
        container.header = header ∧ ∀ medium keyPath output,
          (∃ result u, (decryptFileOn medium input keyPath output).outcome s = some (result, u)) ∧
          (∀ e, (decryptFileOn medium input keyPath output).Fails s e ↔
            Refusal medium s container keyPath output e) ∧
          (∀ e, (loadKey keyPath).Fails s e → e.category = .keyMaterial ∨ e.category = .unsupportedScheme) ∧
          (∀ key e, recoverContentKey header key = .error e → e.category = .keyMaterial) ∧
          ∀ e, (decryptFileOn medium input keyPath output).Fails s e →
            e.category ∈ [.keyMaterial, .unsupportedScheme, .authentication, .io] ∧
            (e.category = .io → ∃ key payload, (loadKey keyPath).Gives s key ∧ Authentic image key payload) := by
  refine ⟨fun input s e t h => decryptFileOn_of_inspectFile_error h,
    fun source octets e hread hparse key s => ?_, fun input s header t h => ?_⟩
  · have hcontainer := readContainer_outcome hread s
    rw [hparse] at hcontainer
    unfold decrypt
    exact outcome_bind_of_error _ hcontainer
  · rw [inspectFile_eq] at h
    obtain ⟨container, u, hread, hpure⟩ := outcome_bind_eq_ok.mp h
    obtain ⟨hheader, -⟩ := Prod.mk.inj (Option.some.inj hpure)
    obtain ⟨-, image, hcontents, hparsed⟩ := readImage_spec hread
    refine ⟨image, container, hcontents, hparsed, Except.ok.inj hheader,
      fun medium keyPath output => ?_⟩
    obtain ⟨v, hrun⟩ := outcome_decryptFileOn hread medium keyPath output
    have hfails : ∀ e, (decryptFileOn medium input keyPath output).Fails s e ↔
        Refusal medium s container keyPath output e := by
      intro e
      rw [← openStages_eq_error_iff hparsed]
      constructor
      · rintro ⟨w, hfail⟩
        exact (Prod.mk.inj (Option.some.inj (hrun.symm.trans hfail))).1
      · intro herror
        exact ⟨v, herror ▸ hrun⟩
    refine ⟨⟨_, v, hrun⟩, hfails, fun e he => keyAt_ofKeyFile (fails_loadKey_iff.mp he),
      fun key e => recoverContentKey_category, fun e he => ((hfails e).mp he).category hparsed⟩

/-- An image and a file that is none, without a key. -/
def sampleFiles (image : Octets) : FileSystem :=
  ⟨[(["img"], .file image), (["bad"], .file [1, 0, 0, 0])], []⟩

lemma contentsOf_bad (image : Octets) : (sampleFiles image).contentsOf "bad" = .ok [1, 0, 0, 0] := by
  cbv

lemma contentsOf_img (image : Octets) : (sampleFiles image).contentsOf "img" = .ok image := by
  cbv

lemma ofOctets_bad : Container.ofOctets [1, 0, 0, 0] = .error (.invalidMagic 1) := by
  cbv

theorem decryptFile_judges_structure_first_sample :
    (decryptFileOn ⟨[.refused], none, some .busy⟩ "bad" "key" "out").outcome ⟨[], [], sampleFiles Container.emptyImage⟩ =
        some (.error (.invalidMagic 1), ⟨[], [], sampleFiles Container.emptyImage⟩) ∧
      (decrypt (Source.ofOctets [1, 0, 0, 0]) (.rsaPublic ⟨0, 0⟩)).outcome ⟨[], [], Sink.perfect⟩ =
        some (.error (.invalidMagic 1), ⟨[], [], Sink.perfect⟩) ∧
      (decryptFileOn .perfect "img" "key" "out").Fails ⟨[], [], sampleFiles Container.emptyImage⟩
        (.keyMaterial (.unreadableKey "key" .notFound)) := by
  obtain ⟨hsame, hevery, hstages⟩ := decryptFile_judges_structure_first
  have hkey : ∀ image, (sampleFiles image).contentsOf "key" = .error .notFound := by
    intro image
    cbv
  refine ⟨?_, hevery _ _ _ (Source.readAll_ofOctets _) ofOctets_bad _ _, ?_⟩
  · apply hsame
    have hread := readImage_of_contentsOf (s := ⟨[], [], sampleFiles Container.emptyImage⟩) (contentsOf_bad _)
    rw [ofOctets_bad] at hread
    rw [inspectFile_eq]
    exact outcome_bind_of_error _ hread
  · obtain ⟨container, hparsed⟩ := Container.exists_ofOctets_iff.mpr Container.emptyImage_isImage
    have hread := readImage_of_contentsOf (s := ⟨[], [], sampleFiles Container.emptyImage⟩) (contentsOf_img _)
    rw [hparsed] at hread
    have hinspect := outcome_bind_of_ok (fun container => pure container.header) hread
    rw [← inspectFile_eq] at hinspect
    obtain ⟨_, _, -, -, -, hrest⟩ := hstages _ _ _ _ hinspect
    refine ((hrest .perfect "key" "out").2.1 _).mpr (.key (fails_loadKey_iff.mpr ?_))
    unfold FileSystem.keyAt readText
    simp only [hkey, bind, Except.bind]

end Stages

end Action

end SealedImage
