import Mathlib.Tactic.Common
import SealedImage.Proofs.KeySets
import SealedImage.Proofs.KeyText
import SealedImage.Proofs.Precedence
import SealedImage.Proofs.SeedDraws

/-!
# Stored keys load back

The files of a set hold their key once they are written: each of them loads as its part of the key
(`FileSystem.HoldsDevice`, `FileSystem.HoldsRsa`), and nothing else has changed (`FileSystem.ChangesOnly`). A
device key that is made again from its seed is stored in the same octets (`Action.stored_keys_load`), whatever scalars
are derived from seeds.
-/

namespace SealedImage

namespace KeyFiles

/-- The paths of a set, in the order in which its files are written. -/
def paths (files : KeyFiles) : List String :=
  files.privateKey :: files.publicKey :: files.seed.toList

end KeyFiles

namespace Action

variable {α : Type}

/-- The action ends in a result in every session with these files. -/
def GivesOn (x : Action FileSystem α) (fs : FileSystem) (a : α) : Prop :=
  ∀ s : Session FileSystem, s.store = fs → x.Gives s a

end Action

namespace FileSystem

variable {fs after : FileSystem} {media : Media} {path directory : String}

/-- Nothing changes but what is at the places that the paths name. -/
def ChangesOnly (fs : FileSystem) (paths : List String) (after : FileSystem) : Prop :=
  fs.SameDirectories after ∧ ∀ place, (∀ path ∈ paths, fs.placeOf? path ≠ some place) →
    after.entryAt? place = fs.entryAt? place

/-- The files of a set load as a secret on P-256, its public key, and the seed of the secret. -/
structure HoldsDevice (fs : FileSystem) (files : KeyFiles) (device : DeviceKey) (publicKey : P256.PublicKey) :
    Prop where
  half : device.publicKey? = some publicKey
  privateFile : (Action.loadKey files.privateKey).GivesOn fs (.eccPrivate device.secret)
  publicFile : (Action.loadKey files.publicKey).GivesOn fs (.eccPublic publicKey)
  seedFile : ∃ path, files.seed = some path ∧ (Action.loadSeed path).GivesOn fs device.seed

/-- The files of a set load as an RSA key and its public key, which have the size that is asked for. -/
structure HoldsRsa (fs : FileSystem) (files : KeyFiles) (key : Rsa.PrivateKey) : Prop where
  privateFile : (Action.loadKey files.privateKey).GivesOn fs (.rsaPrivate key)
  publicFile : (Action.loadKey files.publicKey).GivesOn fs (.rsaPublic key.publicKey)
  size : key.publicKey.checkSize = .ok () ∧ key.publicKey.bits = 3072

/-- The files of two sets hold the same octets, one by one. -/
def SameOctets (fs : FileSystem) (files : KeyFiles) (other : FileSystem) (copies : KeyFiles) : Prop :=
  List.Forall₂ (fun path copy => ∃ contents, fs.contentsOf path = .ok contents ∧
    other.contentsOf copy = .ok contents) files.paths copies.paths

lemma changesOnly_of_writeEach {files : List (String × Octets)} {result : Option IoFault}
    (h : fs.writeEach media files = (result, after)) : fs.ChangesOnly (files.map Prod.fst) after := by
  obtain ⟨hdirs, hothers⟩ := writeEach_frame h
  refine ⟨hdirs, fun place hplace => hothers place fun file hfile => ?_⟩
  exact hplace file.1 (List.mem_map_of_mem hfile)

lemma loadKey_givesOn {text : String} {key : KeyMaterial} (hcontents : fs.contentsOf path = .ok text.toUTF8.toList)
    (hkey : KeyMaterial.ofText text.toList = .ok key) : (Action.loadKey path).GivesOn fs key := by
  rintro s rfl
  rw [Action.gives_loadKey_iff, keyAt, Action.readText_of_contentsOf hcontents]
  exact hkey

/-- The seed in the file that a path names, or what is wrong with it. -/
def seedAt (fs : FileSystem) (path : String) : Except Failure (Block 32) :=
  match fs.contentsOf path with
  | .error fault => .error (.keyMaterial (.unreadableSeed path fault))
  | .ok contents =>
    match Block.ofOctets? 32 contents with
    | some seed => .ok seed
    | none => .error (.keyMaterial (.seedLength contents.length))

lemma seedAt_eq_ok_iff {seed : Block 32} : fs.seedAt path = .ok seed ↔ fs.contentsOf path = .ok seed.octets := by
  unfold seedAt
  cases fs.contentsOf path with
  | error fault => simp
  | ok contents =>
    dsimp only
    unfold Block.ofOctets?
    rw [Except.ok.injEq]
    constructor
    · intro h
      split_ifs at h with hlength
      rw [← Except.ok.inj h]
    · rintro rfl
      rw [dif_pos seed.length_octets]

/-- Without 32 octets in its file, there is no seed, and that is a fault of the key. -/
lemma seedAt_of_unfit (h : ∀ contents, fs.contentsOf path = .ok contents → contents.length ≠ 32) :
    ∃ fault, fs.seedAt path = .error (.keyMaterial fault) := by
  unfold seedAt
  cases hcontents : fs.contentsOf path with
  | error fault => exact ⟨_, rfl⟩
  | ok contents =>
    have hnone : Block.ofOctets? 32 contents = none := dif_neg (h contents hcontents)
    simp [hnone]

/-- Loading a seed looks at the files alone, and changes nothing. -/
lemma outcome_loadSeed (path : String) (s : Session FileSystem) :
    (Action.loadSeed path).outcome s = some (s.store.seedAt path, s) := by
  unfold Action.loadSeed seedAt
  rw [Action.outcome_bind_of_ok _ (Action.outcome_files s)]
  cases s.store.contentsOf path with
  | error fault => rfl
  | ok contents =>
    dsimp only
    cases Block.ofOctets? 32 contents <;> rfl

lemma loadSeed_givesOn {seed : Block 32} (hcontents : fs.contentsOf path = .ok seed.octets) :
    (Action.loadSeed path).GivesOn fs seed := by
  rintro s rfl
  have hload := outcome_loadSeed path s
  rw [seedAt_eq_ok_iff.mpr hcontents] at hload
  exact ⟨s, hload⟩

/-- The written files of a device key load back as the key. -/
theorem holdsDevice_of_writeEach {device : DeviceKey} {publicKey : P256.PublicKey}
    (half : device.publicKey? = some publicKey)
    (h : fs.writeEach media (KeyFiles.ofDevice directory device publicKey) = (none, after)) :
    after.HoldsDevice (KeyFiles.deviceIn directory) device publicKey := by
  have hcontents := contentsOf_of_writeEach h (KeyFiles.separate_ofDevice ..)
  simp only [KeyFiles.ofDevice, List.forall_mem_cons] at hcontents
  obtain ⟨hprivate, hpublic, hseed, -⟩ := hcontents
  exact ⟨half, loadKey_givesOn hprivate (KeyMaterial.ofText_eccPrivate half),
    loadKey_givesOn hpublic (KeyMaterial.ofText_eccPublic publicKey), _, rfl, loadSeed_givesOn hseed⟩

/-- The written files of a fresh RSA key load back as the key. -/
theorem holdsRsa_of_writeEach {key : Rsa.PrivateKey} (hfresh : key.Fresh)
    (h : fs.writeEach media (KeyFiles.ofRsa directory key) = (none, after)) :
    after.HoldsRsa (KeyFiles.rsaIn directory) key := by
  have hcontents := contentsOf_of_writeEach h (KeyFiles.separate_ofRsa ..)
  simp only [KeyFiles.ofRsa, List.forall_mem_cons] at hcontents
  obtain ⟨hprivate, hpublic, -⟩ := hcontents
  exact ⟨loadKey_givesOn hprivate (KeyMaterial.ofText_rsaPrivate hfresh),
    loadKey_givesOn hpublic (KeyMaterial.ofText_rsaPublic hfresh), hfresh.checkSize, hfresh.bits_eq⟩

/-- A device key is written in the same octets wherever it is written. -/
theorem sameOctets_of_writeEach {device : DeviceKey} {publicKey : P256.PublicKey}
    {other copied : FileSystem} {media' : Media} {target : String}
    (h : fs.writeEach media (KeyFiles.ofDevice directory device publicKey) = (none, after))
    (hcopy : other.writeEach media' (KeyFiles.ofDevice target device publicKey) = (none, copied)) :
    after.SameOctets (KeyFiles.deviceIn directory) copied (KeyFiles.deviceIn target) := by
  have hcontents := contentsOf_of_writeEach h (KeyFiles.separate_ofDevice ..)
  have hcopies := contentsOf_of_writeEach hcopy (KeyFiles.separate_ofDevice ..)
  simp only [KeyFiles.ofDevice, List.forall_mem_cons] at hcontents hcopies
  obtain ⟨hprivate, hpublic, hseed, -⟩ := hcontents
  obtain ⟨hprivate', hpublic', hseed', -⟩ := hcopies
  exact .cons ⟨_, hprivate, hprivate'⟩ (.cons ⟨_, hpublic, hpublic'⟩ (.cons ⟨_, hseed, hseed'⟩ .nil))

end FileSystem

namespace Action

variable {media : Media} {directory : String} {s t : Session FileSystem} {files : KeyFiles}

/-- A device key that is stored has a public key, and all its files are written. -/
lemma writeEach_of_writeDeviceKeyOn {device : DeviceKey}
    (h : (writeDeviceKeyOn media directory device).outcome s = some (.ok files, t)) :
    ∃ publicKey, device.publicKey? = some publicKey ∧ files = KeyFiles.deviceIn directory ∧
      s.store.writeEach media (KeyFiles.ofDevice directory device publicKey) = (none, t.store) := by
  rcases KeyCall.stores_of_writeDeviceKeyOn h with ⟨hfail, -⟩ | ⟨publicKey, half, hstores⟩
  · cases hfail
  · exact ⟨publicKey, half, hstores.ok⟩

/-- A device key with a public key is stored, or a file cannot be written. -/
lemma outcome_writeDeviceKeyOn {device : DeviceKey} {publicKey : P256.PublicKey}
    (half : device.publicKey? = some publicKey) (media : Media) (directory : String) (s : Session FileSystem) :
    ∃ result t, (writeDeviceKeyOn media directory device).outcome s = some (result, t) ∧
      ∀ e, result = .error e → ∃ fault, e = .io fault := by
  have hrun := outcome_writeEach_report media (KeyFiles.ofDevice directory device publicKey)
    (.deviceKeysWritten directory) (KeyFiles.deviceIn directory) s
  rw [← writeDeviceKeyOn_eq half] at hrun
  refine ⟨_, _, hrun, fun e he => ?_⟩
  cases hfault : (s.store.writeEach media (KeyFiles.ofDevice directory device publicKey)).1 with
  | none =>
    rw [hfault] at he
    cases he
  | some fault =>
    rw [hfault] at he
    exact ⟨fault, (Except.error.inj he).symm⟩

/-- A seed is stored as the device key that it stretches into, whatever scalar is derived from it. -/
lemma generateEccPairWith_of_ofSeedWith {derive : Block 32 → Block 32} {seed : Block 32} {device : DeviceKey}
    (h : DeviceKey.ofSeedWith derive seed = .ok device) (media : Media) (directory : String)
    (s : Session FileSystem) : (generateEccPairWith derive media directory (some seed)).outcome s =
      (writeDeviceKeyOn media directory device).outcome s := by
  rw [generateEccPairWith, DeviceKey.makeWith]
  exact outcome_ofExcept_bind_of_ok h _ s

/-- Stored keys load back. Behind a stored device key its files hold its secret, its public key and its seed,
and only they have changed. If the key comes from a seed, the seed that loads is that one, and storing it
anywhere else ends, fails only where a file cannot be written, and else writes the same octets. Behind a stored
new RSA key its files hold the drawn key, which is fresh, and its public key, and only they have changed. This holds
on all media and for every derivation of scalars, and the actions that run are those of `DeviceKey.scalar`. -/
theorem stored_keys_load (derive : Block 32 → Block 32) :
    (∀ media directory device s files t,
      (writeDeviceKeyOn media directory device).outcome s = some (.ok files, t) →
      files = KeyFiles.deviceIn directory ∧ s.store.ChangesOnly files.paths t.store ∧
      (∃ publicKey, t.store.HoldsDevice files device publicKey) ∧
      ∀ seed, DeviceKey.ofSeedWith derive seed = .ok device → device.seed = seed ∧
        ∀ media' target u, ∃ result v,
          (generateEccPairWith derive media' target (some seed)).outcome u = some (result, v) ∧
          (∀ e, result = .error e → ∃ fault, e = .io fault) ∧
          ∀ copies, result = .ok copies → copies = KeyFiles.deviceIn target ∧
            u.store.ChangesOnly copies.paths v.store ∧ t.store.SameOctets files v.store copies) ∧
    (∀ media directory s files t, (generateRsaPairOn media directory).outcome s = some (.ok files, t) →
      ∃ key rest, Rsa.drawKey s.tape = some (key, rest) ∧ key.Fresh ∧ files = KeyFiles.rsaIn directory ∧
        s.store.ChangesOnly files.paths t.store ∧ t.store.HoldsRsa files key) ∧
    (∀ seed, DeviceKey.ofSeedWith DeviceKey.scalar seed = DeviceKey.ofSeed seed) ∧
    ∀ media directory seed,
      generateEccPairWith DeviceKey.scalar media directory seed = generateEccPairOn media directory seed := by
  refine ⟨fun media directory device s files t h => ?_, fun media directory s files t h => ?_, fun seed => rfl,
    generateEccPairWith_scalar⟩
  · obtain ⟨publicKey, half, rfl, hwrite⟩ := writeEach_of_writeDeviceKeyOn h
    refine ⟨rfl, FileSystem.changesOnly_of_writeEach hwrite,
      ⟨publicKey, FileSystem.holdsDevice_of_writeEach half hwrite⟩, fun seed hseed => ?_⟩
    refine ⟨DeviceKey.seed_of_ofSeedWith hseed, fun media' target u => ?_⟩
    obtain ⟨result, v, hrun, hio⟩ := outcome_writeDeviceKeyOn half media' target u
    refine ⟨result, v, (generateEccPairWith_of_ofSeedWith hseed media' target u).trans hrun, hio, ?_⟩
    rintro copies rfl
    obtain ⟨publicKey', half', rfl, hcopy⟩ := writeEach_of_writeDeviceKeyOn hrun
    obtain rfl := Option.some.inj (half.symm.trans half')
    exact ⟨rfl, FileSystem.changesOnly_of_writeEach hcopy, FileSystem.sameOctets_of_writeEach hwrite hcopy⟩
  · rw [outcome_generateRsaPairOn] at h
    obtain ⟨⟨key, rest⟩, hdrawn, hstore⟩ := Option.bind_eq_some_iff.mp h
    have hfresh := Rsa.drawKey_fresh hdrawn
    obtain ⟨rfl, hwrite⟩ := (KeyCall.stores_of_writeRsaKeyOn hstore).ok
    exact ⟨key, rest, hdrawn, hfresh, rfl, FileSystem.changesOnly_of_writeEach hwrite,
      FileSystem.holdsRsa_of_writeEach hfresh hwrite⟩

section Sample

/-- The device key of the seed one, if every seed is its own scalar. Its public key is the base point. -/
def sampleDevice : DeviceKey :=
  ⟨Block.ofNat 32 1, ⟨1, by decide, by decide⟩⟩

lemma sampleDevice_stretched : DeviceKey.ofSeedWith id (Block.ofNat 32 1) = .ok sampleDevice := by
  decide +kernel

/-- A directory without files, as the working directory. -/
def emptyDirectory : FileSystem :=
  ⟨[(["keys"], .directory)], ["keys"]⟩

/-- A set is stored where no file is yet. -/
lemma writeEach_empty (files : List (String × Octets)) (hnames : ∀ file ∈ files, Path.IsName file.1 ∧
    '\x00' ∉ file.1.toList ∧ file.1.utf8ByteSize ≤ Path.nameLimit) :
    ∃ after, FileSystem.empty.writeEach .perfect files = (none, after) := by
  refine FileSystem.exists_writeEach hnames fun file _ hdir => ?_
  rw [FileSystem.entryAt?, if_neg (by simp)] at hdir
  cases hdir

lemma sampleDevice_stored (fs : FileSystem)
    (hfree : ∀ name ∈ [KeyFiles.devicePrivateName, KeyFiles.devicePublicName, KeyFiles.deviceSeedName],
      fs.entryAt? (fs.workingDirectory ++ [name]) ≠ some .directory) :
    ∃ files t, (writeDeviceKeyOn .perfect "" sampleDevice).outcome ⟨[], [], fs⟩ = some (.ok files, t) := by
  have half : (sampleDevice.publicKey?).isSome = true := by decide +kernel
  obtain ⟨publicKey, half⟩ := Option.isSome_iff_exists.mp half
  obtain ⟨after, hwrite⟩ : ∃ after,
      fs.writeEach .perfect (KeyFiles.ofDevice "" sampleDevice publicKey) = (none, after) := by
    apply FileSystem.exists_writeEach
    · simp only [KeyFiles.ofDevice, Path.join_empty, List.forall_mem_cons]
      decide
    · simpa [KeyFiles.ofDevice, Path.join_empty] using hfree
  have hrun := outcome_writeEach_report .perfect (KeyFiles.ofDevice "" sampleDevice publicKey)
    (.deviceKeysWritten "") (KeyFiles.deviceIn "") ⟨[], [], fs⟩
  rw [← writeDeviceKeyOn_eq half, hwrite] at hrun
  exact ⟨_, _, hrun⟩

lemma sampleTape_stored : ∃ files t,
    (generateRsaPairOn .perfect "").outcome ⟨Rsa.sampleTape, [], FileSystem.empty⟩ = some (.ok files, t) := by
  obtain ⟨key, hkey⟩ := Rsa.sampleTape_drawn
  obtain ⟨after, hwrite⟩ := writeEach_empty (KeyFiles.ofRsa "" key) (by
    simp only [KeyFiles.ofRsa, Path.join_empty, List.forall_mem_cons]
    decide)
  have hrun := outcome_writeEach_report .perfect (KeyFiles.ofRsa "" key)
    (.rsaKeysWritten "") (KeyFiles.rsaIn "") ⟨[], [], FileSystem.empty⟩
  rw [← writeRsaKeyOn_eq key, hwrite] at hrun
  rw [outcome_generateRsaPairOn, hkey, Option.bind_some]
  exact ⟨_, _, hrun⟩

/-- A device key is stored, and stored again from its seed in another directory. -/
theorem stored_keys_load_sample :
    (∃ files t publicKey, (writeDeviceKeyOn .perfect "" sampleDevice).outcome ⟨[], [], FileSystem.empty⟩ =
      some (.ok files, t) ∧ t.store.HoldsDevice files sampleDevice publicKey ∧
      ∃ copies v, (generateEccPairWith id .perfect "" (some (Block.ofNat 32 1))).outcome ⟨[], [], emptyDirectory⟩ =
        some (.ok copies, v) ∧ t.store.SameOctets files v.store copies) ∧
    ∃ files t key, (generateRsaPairOn .perfect "").outcome ⟨Rsa.sampleTape, [], FileSystem.empty⟩ =
      some (.ok files, t) ∧ t.store.HoldsRsa files key := by
  obtain ⟨hdevice, hrsa, -⟩ := stored_keys_load id
  constructor
  · obtain ⟨files, t, hrun⟩ := sampleDevice_stored FileSystem.empty (by decide)
    obtain ⟨-, -, ⟨publicKey, hholds⟩, hagain⟩ := hdevice _ _ _ _ _ _ hrun
    obtain ⟨-, hstores⟩ := hagain _ sampleDevice_stretched
    obtain ⟨result, v, hpair, -, hcopies⟩ := hstores .perfect "" ⟨[], [], emptyDirectory⟩
    obtain ⟨copies, w, hcopy⟩ := sampleDevice_stored emptyDirectory (by decide)
    rw [← generateEccPairWith_of_ofSeedWith sampleDevice_stretched] at hcopy
    obtain ⟨rfl, rfl⟩ := outcome_unique hpair hcopy
    exact ⟨files, t, publicKey, hrun, hholds, copies, v, hpair, (hcopies copies rfl).2.2⟩
  · obtain ⟨files, t, hrun⟩ := sampleTape_stored
    obtain ⟨key, _, -, -, -, -, hholds⟩ := hrsa _ _ _ _ _ hrun
    exact ⟨files, t, key, hrun, hholds⟩

end Sample

end Action

end SealedImage
