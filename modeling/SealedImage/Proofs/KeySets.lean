import Mathlib.Tactic.Common
import SealedImage.Proofs.NewKeys
import SealedImage.Proofs.RoundTrip
import SealedImage.Proofs.WholeFiles

/-!
# Sets of key files

A call that stores a key makes the key, if it has to, and then writes the files of its set in turn
(`KeyCall.outcome_spec`), each on a medium of its own. A file is written whole or not at all, but the set as a
whole is not: a file that cannot be written leaves the files before it replaced (`KeyCall.error_replaces_start`).
-/

namespace SealedImage

namespace KeyFiles

/-- The files of a device key, in the order in which they are written. -/
def ofDevice (directory : String) (device : DeviceKey) (publicKey : P256.PublicKey) : List (String × Octets) :=
  [(Path.join directory devicePrivateName, (device.secret.armored publicKey).toUTF8.toList),
    (Path.join directory devicePublicName, publicKey.armored.toUTF8.toList),
    (Path.join directory deviceSeedName, device.seed.octets)]

/-- The files of an RSA key, in the order in which they are written. -/
def ofRsa (directory : String) (key : Rsa.PrivateKey) : List (String × Octets) :=
  [(Path.join directory rsaPrivateName, key.armored.toUTF8.toList),
    (Path.join directory rsaPublicName, key.publicKey.armored.toUTF8.toList)]

/-- The paths of the files of a device key. -/
def deviceIn (directory : String) : KeyFiles :=
  ⟨Path.join directory devicePrivateName, Path.join directory devicePublicName,
    some (Path.join directory deviceSeedName)⟩

/-- The paths of the files of an RSA key. -/
def rsaIn (directory : String) : KeyFiles :=
  ⟨Path.join directory rsaPrivateName, Path.join directory rsaPublicName, none⟩

/-- Files of different names in one directory are separate. -/
lemma separate_join (directory : String) (files : List (String × Octets))
    (hnames : ∀ name ∈ files.map Prod.fst, Path.IsName name) (hnodup : (files.map Prod.fst).Nodup) :
    FileSystem.Separate (files.map fun file => (Path.join directory file.1, file.2)) := by
  have hlast : ∀ file ∈ files, Path.lastName? (Path.join directory file.1) = some file.1 :=
    fun file hfile => Path.lastName?_join directory (hnames file.1 (List.mem_map_of_mem hfile))
  refine ⟨fun written hwritten => ?_, ?_⟩
  · obtain ⟨file, hfile, rfl⟩ := List.mem_map.mp hwritten
    exact ⟨file.1, hnames file.1 (List.mem_map_of_mem hfile), hlast file hfile⟩
  · have hmap : ((files.map fun file => (Path.join directory file.1, file.2)).map fun file =>
        Path.lastName? file.1) = (files.map Prod.fst).map some := by
      rw [List.map_map, List.map_map]
      exact List.map_congr_left hlast
    rw [hmap]
    exact hnodup.map fun a b h => Option.some.inj h

lemma separate_ofDevice (directory : String) (device : DeviceKey) (publicKey : P256.PublicKey) :
    FileSystem.Separate (ofDevice directory device publicKey) := by
  refine separate_join directory [(devicePrivateName, (device.secret.armored publicKey).toUTF8.toList),
    (devicePublicName, publicKey.armored.toUTF8.toList), (deviceSeedName, device.seed.octets)] ?_ ?_
  · simp only [List.map_cons, List.map_nil]
    decide
  · simp only [List.map_cons, List.map_nil]
    decide

lemma separate_ofRsa (directory : String) (key : Rsa.PrivateKey) :
    FileSystem.Separate (ofRsa directory key) := by
  refine separate_join directory [(rsaPrivateName, key.armored.toUTF8.toList),
    (rsaPublicName, key.publicKey.armored.toUTF8.toList)] ?_ ?_
  · simp only [List.map_cons, List.map_nil]
    decide
  · simp only [List.map_cons, List.map_nil]
    decide

end KeyFiles

namespace Action

variable {media : Media} {directory : String}

/-- Storing a device key with a public key is writing the files of its set. -/
lemma writeDeviceKeyOn_eq {device : DeviceKey} {publicKey : P256.PublicKey}
    (h : device.publicKey? = some publicKey) : writeDeviceKeyOn media directory device = (do
      writeEach media (KeyFiles.ofDevice directory device publicKey)
      report (.deviceKeysWritten directory)
      pure (KeyFiles.deviceIn directory)) := by
  unfold writeDeviceKeyOn KeyFiles.deviceIn
  simp only [h, KeyFiles.ofDevice, writeEach, bind_assoc, pure_bind]

lemma writeRsaKeyOn_eq (key : Rsa.PrivateKey) : writeRsaKeyOn media directory key = (do
      writeEach media (KeyFiles.ofRsa directory key)
      report (.rsaKeysWritten directory)
      pure (KeyFiles.rsaIn directory)) := by
  unfold writeRsaKeyOn KeyFiles.rsaIn
  simp only [KeyFiles.ofRsa, writeEach, bind_assoc, pure_bind]

/-- A new RSA key is drawn and stored, unless the tape holds none. -/
lemma outcome_generateRsaPairOn (media : Media) (directory : String) (s : Session FileSystem) :
    (generateRsaPairOn media directory).outcome s = (Rsa.drawKey s.tape).bind fun drawn =>
      (writeRsaKeyOn media directory drawn.1).outcome { s with tape := drawn.2 } := by
  change outcome (draw Rsa.drawKey >>= writeRsaKeyOn media directory) s = _
  rw [outcome_bind, outcome_draw]
  cases Rsa.drawKey s.tape <;> rfl

/-- What follows the writing of a set runs if every file was written. -/
lemma outcome_writeEach_report {α : Type} (media : Media) (files : List (String × Octets)) (e : Event) (a : α)
    (s : Session FileSystem) :
    outcome (do writeEach media files; report e; pure a) s =
      some ((s.store.writeEach media files).1.elim (.ok a) fun fault => .error (.io fault),
        ⟨s.tape, s.journal ++ (s.store.writeEach media files).1.elim [e] fun _ => [],
          (s.store.writeEach media files).2⟩) := by
  have hwrite := outcome_writeEach media files s
  cases hfault : (s.store.writeEach media files).1 with
  | some fault =>
    rw [hfault] at hwrite
    rw [outcome_bind_of_error _ hwrite, Option.elim_some, Option.elim_some, List.append_nil]
  | none =>
    rw [hfault] at hwrite
    exact outcome_bind_of_ok _ hwrite

end Action

/-- A call that stores a key in a directory: the device key of a seed or of a new seed, a given device key, or
a new RSA key. -/
inductive KeyCall
  | ecc (seed : Option (Block 32))
  | device (key : DeviceKey)
  | rsa

namespace KeyCall

def action (media : Media) (directory : String) : KeyCall → Action FileSystem KeyFiles
  | ecc seed => Action.generateEccPairOn media directory seed
  | device key => Action.writeDeviceKeyOn media directory key
  | rsa => Action.generateRsaPairOn media directory

/-- The call has a key in a session, made from its tape if need be, with these files. -/
inductive Makes (directory : String) (s : Session FileSystem) : KeyCall → List (String × Octets) → Prop
  | device {key : DeviceKey} {publicKey : P256.PublicKey} (half : key.publicKey? = some publicKey) :
    Makes directory s (.device key) (KeyFiles.ofDevice directory key publicKey)
  | seeded {seed : Block 32} {key : DeviceKey} {publicKey : P256.PublicKey}
    (stretched : DeviceKey.ofSeed seed = .ok key) (half : key.publicKey? = some publicKey) :
    Makes directory s (.ecc (some seed)) (KeyFiles.ofDevice directory key publicKey)
  | drawn {key : DeviceKey} {publicKey : P256.PublicKey} {t : Session FileSystem}
    (generated : DeviceKey.generate.outcome s = some (.ok key, t)) (half : key.publicKey? = some publicKey) :
    Makes directory s (.ecc none) (KeyFiles.ofDevice directory key publicKey)
  | rsa {key : Rsa.PrivateKey} {rest : Octets} (drawn : Rsa.drawKey s.tape = some (key, rest)) :
    Makes directory s .rsa (KeyFiles.ofRsa directory key)

lemma Makes.separate {directory : String} {s : Session FileSystem} {call : KeyCall}
    {files : List (String × Octets)} (h : call.Makes directory s files) : FileSystem.Separate files := by
  cases h with
  | device half => exact KeyFiles.separate_ofDevice ..
  | seeded stretched half => exact KeyFiles.separate_ofDevice ..
  | drawn generated half => exact KeyFiles.separate_ofDevice ..
  | rsa drawn => exact KeyFiles.separate_ofRsa ..

section Outcome

variable {media : Media} {directory : String} {call : KeyCall} {s t : Session FileSystem}
  {result : Except Failure KeyFiles}

/-- The files of a key are written in turn, and the result says whether all of them were. -/
def Stores (media : Media) (s t : Session FileSystem) (result : Except Failure KeyFiles)
    (files : List (String × Octets)) (paths : KeyFiles) : Prop :=
  t.store = (s.store.writeEach media files).2 ∧
    result = (s.store.writeEach media files).1.elim (.ok paths) fun fault => .error (.io fault)

lemma Stores.of_store {files : List (String × Octets)} {paths : KeyFiles} {u : Session FileSystem}
    (h : Stores media u t result files paths) (hstore : u.store = s.store) : Stores media s t result files paths := by
  unfold Stores
  rw [← hstore]
  exact h

lemma Stores.ok {files : List (String × Octets)} {paths written : KeyFiles}
    (h : Stores media s t (.ok written) files paths) :
    written = paths ∧ s.store.writeEach media files = (none, t.store) := by
  obtain ⟨hstore, hresult⟩ := h
  cases hwrite : s.store.writeEach media files with
  | mk fault after =>
    rw [hwrite] at hstore hresult
    cases fault with
    | none => exact ⟨Except.ok.inj hresult, by rw [hstore]⟩
    | some fault => cases hresult

lemma stores_of_writeDeviceKeyOn {key : DeviceKey}
    (h : (Action.writeDeviceKeyOn media directory key).outcome s = some (result, t)) :
    (result = .error (.crypto .pointEncoding) ∧ t = s) ∨
      ∃ publicKey, key.publicKey? = some publicKey ∧
        Stores media s t result (KeyFiles.ofDevice directory key publicKey) (KeyFiles.deviceIn directory) := by
  cases hhalf : key.publicKey? with
  | none =>
    unfold Action.writeDeviceKeyOn at h
    simp only [hhalf, Action.outcome_throw, Option.some.injEq, Prod.mk.injEq] at h
    exact Or.inl ⟨h.1.symm, h.2.symm⟩
  | some publicKey =>
    rw [Action.writeDeviceKeyOn_eq hhalf] at h
    have hrun := Action.outcome_writeEach_report media (KeyFiles.ofDevice directory key publicKey)
      (.deviceKeysWritten directory) (KeyFiles.deviceIn directory) s
    obtain ⟨rfl, rfl⟩ := Action.outcome_unique hrun h
    exact Or.inr ⟨publicKey, rfl, rfl, rfl⟩

lemma stores_of_writeRsaKeyOn {key : Rsa.PrivateKey}
    (h : (Action.writeRsaKeyOn media directory key).outcome s = some (result, t)) :
    Stores media s t result (KeyFiles.ofRsa directory key) (KeyFiles.rsaIn directory) := by
  rw [Action.writeRsaKeyOn_eq] at h
  have hrun := Action.outcome_writeEach_report media (KeyFiles.ofRsa directory key)
    (.rsaKeysWritten directory) (KeyFiles.rsaIn directory) s
  obtain ⟨rfl, rfl⟩ := Action.outcome_unique hrun h
  exact ⟨rfl, rfl⟩

/-- A call has no key and leaves the files alone, or it writes the files of its key in turn. -/
theorem outcome_spec (h : (call.action media directory).outcome s = some (result, t)) :
    (t.store = s.store ∧ ∃ e, result = .error e ∧ ∀ fault, e ≠ .io fault) ∨
      ∃ files paths, call.Makes directory s files ∧ Stores media s t result files paths := by
  -- a device key that was made without touching the files is stored from there
  have hdevice {key : DeviceKey} {u : Session FileSystem} (hstore : u.store = s.store)
      (hmakes : ∀ publicKey, key.publicKey? = some publicKey →
        call.Makes directory s (KeyFiles.ofDevice directory key publicKey))
      (hwrite : (Action.writeDeviceKeyOn media directory key).outcome u = some (result, t)) :
      (t.store = s.store ∧ ∃ e, result = .error e ∧ ∀ fault, e ≠ .io fault) ∨
        ∃ files paths, call.Makes directory s files ∧ Stores media s t result files paths := by
    rcases stores_of_writeDeviceKeyOn hwrite with ⟨rfl, rfl⟩ | ⟨publicKey, half, hstores⟩
    · exact Or.inl ⟨hstore, _, rfl, by simp⟩
    · exact Or.inr ⟨_, _, hmakes publicKey half, hstores.of_store hstore⟩
  cases call with
  | device key => exact hdevice rfl (fun _ half => .device half) h
  | ecc seed =>
    cases seed with
    | some seed =>
      cases hkey : DeviceKey.ofSeed seed with
      | error e =>
        obtain ⟨rfl, rfl⟩ := Action.outcome_unique (Action.outcome_ofExcept_bind_of_error hkey _ s) h
        refine Or.inl ⟨rfl, e, rfl, fun fault => ?_⟩
        rw [DeviceKey.error_of_ofSeedWith hkey]
        simp
      | ok key =>
        exact hdevice rfl (fun _ half => .seeded hkey half)
          ((Action.outcome_ofExcept_bind_of_ok hkey _ s).symm.trans h)
    | none =>
      change Action.outcome (DeviceKey.generate >>= Action.writeDeviceKeyOn media directory) s = _ at h
      rw [Action.outcome_bind] at h
      obtain ⟨⟨made, u⟩, hmade, hrest⟩ := Option.bind_eq_some_iff.mp h
      obtain ⟨trace, hattempts, hpasses⟩ := (DeviceKey.generateFrom_behaves _ _ _ _ _).mp hmade
      cases made with
      | error e =>
        obtain ⟨rfl, rfl⟩ := Prod.mk.inj (Option.some.inj hrest)
        exact Or.inl ⟨hpasses.store, e, rfl, by simp [hattempts.error]⟩
      | ok key => exact hdevice hpasses.store (fun _ half => .drawn hmade half) hrest
  | rsa =>
    obtain ⟨⟨key, rest⟩, hdrawn, hwrite⟩ :=
      Option.bind_eq_some_iff.mp ((Action.outcome_generateRsaPairOn media directory s).symm.trans h)
    exact Or.inr ⟨_, _, .rsa hdrawn, (stores_of_writeRsaKeyOn hwrite).of_store rfl⟩

/-- A failure leaves everything as it was, or it comes from a file of the set that cannot be written, at its path
or on its medium, behind files that were: these hold what belongs to the new key, that file and those behind it are
as they were, and so is every other place. The difference shows unless the written files held the same before. -/
theorem error_replaces_start {e : Failure} (h : (call.action media directory).outcome s = some (.error e, t)) :
    t.store = s.store ∨ ∃ done file rest fault, call.Makes directory s (done ++ file :: rest) ∧ done ≠ [] ∧
      e = .io fault ∧ t.store.writeWholeOn (media file.1) file.1 file.2 = .error fault ∧
      (∀ written ∈ done, t.store.contentsOf written.1 = .ok written.2) ∧
      (∀ left ∈ file :: rest, ∀ entry, t.store.openEntry left.1 = .ok entry ↔
        s.store.openEntry left.1 = .ok entry) ∧
      (∀ place, (∀ written ∈ done, s.store.placeOf? written.1 ≠ some place) →
        t.store.entryAt? place = s.store.entryAt? place) ∧
      ((∀ place, t.store.entryAt? place = s.store.entryAt? place) ↔
        ∀ written ∈ done, s.store.contentsOf written.1 = .ok written.2) := by
  rcases outcome_spec h with ⟨hsame, -⟩ | ⟨files, paths, hmakes, hstore, hresult⟩
  · exact Or.inl hsame
  · cases hwrite : s.store.writeEach media files with
    | mk fault after =>
      rw [hwrite] at hstore hresult
      cases fault with
      | none => cases hresult
      | some fault =>
        obtain ⟨done, file, rest, rfl, hdone, hlast⟩ := FileSystem.writeEach_eq_error hwrite
        by_cases hnil : done = []
        · rw [hnil] at hdone
          rw [hstore]
          exact Or.inl (Prod.mk.inj hdone).2.symm
        · have hseparate := hmakes.separate
          subst hstore
          exact Or.inr ⟨done, file, rest, fault, hmakes, hnil, Except.error.inj hresult, hlast,
            FileSystem.contentsOf_of_writeEach hdone hseparate.left,
            FileSystem.openEntry_of_writeEach hdone hseparate, (FileSystem.writeEach_frame hdone).2,
            FileSystem.unchanged_iff hdone hseparate.left⟩

end Outcome

section Sample

/-- A directory with a private key, and another directory in the place of the public key. -/
def blockedFiles : FileSystem :=
  ⟨[([KeyFiles.rsaPrivateName], .file [0x6f, 0x6c, 0x64]), ([KeyFiles.rsaPublicName], .directory)], []⟩

lemma blockedFiles_writeEach (key : Rsa.PrivateKey) :
    blockedFiles.writeEach .perfect (KeyFiles.ofRsa "" key) = (some .isADirectory,
      blockedFiles.put [KeyFiles.rsaPrivateName] (.file key.armored.toUTF8.toList)) := by
  have hfirst : ∀ contents, blockedFiles.writeWhole KeyFiles.rsaPrivateName contents =
      .ok (blockedFiles.put [KeyFiles.rsaPrivateName] (.file contents)) := by
    intro contents
    rw [FileSystem.writeWhole_of_isName (by decide) (by decide) (by decide)]
    rfl
  have hsecond : ∀ contents contents', (blockedFiles.put [KeyFiles.rsaPrivateName] (.file contents)).writeWhole
      KeyFiles.rsaPublicName contents' = .error .isADirectory := by
    intro contents contents'
    rw [FileSystem.writeWhole_of_isName (by decide) (by decide) (by decide)]
    rfl
  rw [KeyFiles.ofRsa, Path.join_empty, Path.join_empty]
  simp only [FileSystem.writeEach, Media.perfect_apply, FileSystem.writeWholeOn_perfect, hfirst, hsecond]

lemma blockedFiles_outcome : ∃ key, Rsa.drawKey Rsa.sampleTape = some (key, []) ∧
    (rsa.action .perfect "").outcome ⟨Rsa.sampleTape, [], blockedFiles⟩ = some (.error (.io .isADirectory),
      ⟨[], [], blockedFiles.put [KeyFiles.rsaPrivateName] (.file key.armored.toUTF8.toList)⟩) := by
  obtain ⟨key, hkey⟩ := Rsa.sampleTape_drawn
  have hwrite : (Action.writeEach .perfect (KeyFiles.ofRsa "" key)).outcome ⟨[], [], blockedFiles⟩ =
      some (.error (.io .isADirectory),
        ⟨[], [], blockedFiles.put [KeyFiles.rsaPrivateName] (.file key.armored.toUTF8.toList)⟩) := by
    rw [Action.outcome_writeEach, blockedFiles_writeEach]
    rfl
  refine ⟨key, hkey, ?_⟩
  change (Action.generateRsaPairOn .perfect "").outcome _ = _
  rw [Action.outcome_generateRsaPairOn, hkey, Option.bind_some, Action.writeRsaKeyOn_eq]
  exact Action.outcome_bind_of_error _ hwrite

lemma armored_ne (label : String) (contents : Octets) :
    (armored label contents).toUTF8.toList ≠ [0x6f, 0x6c, 0x64] := by
  intro h
  have hold : "old".toUTF8.toList = [0x6f, 0x6c, 0x64] := by decide +kernel
  have htext := congrArg String.toList (Action.toUTF8_injective (h.trans hold.symm))
  rw [armored, String.toList_ofList] at htext
  cases htext

lemma blockedFiles_changed (key : Rsa.PrivateKey) :
    (blockedFiles.put [KeyFiles.rsaPrivateName] (.file key.armored.toUTF8.toList)).entryAt?
      [KeyFiles.rsaPrivateName] ≠ blockedFiles.entryAt? [KeyFiles.rsaPrivateName] := by
  rw [FileSystem.entryAt?_put_self (by simp)]
  exact fun h => armored_ne _ _ (Entry.file.inj (Option.some.inj h))

theorem error_replaces_start_sample : ∃ e t, (rsa.action .perfect "").outcome ⟨Rsa.sampleTape, [], blockedFiles⟩ =
    some (.error e, t) ∧ ∃ done file rest, rsa.Makes "" ⟨Rsa.sampleTape, [], blockedFiles⟩ (done ++ file :: rest) ∧
      ∀ written ∈ done, t.store.contentsOf written.1 = .ok written.2 := by
  obtain ⟨key, -, hrun⟩ := blockedFiles_outcome
  rcases error_replaces_start hrun with hsame | ⟨done, file, rest, fault, hmakes, -, -, -, hcontents, -⟩
  · exact absurd (congrArg (FileSystem.entryAt? · [KeyFiles.rsaPrivateName]) hsame) (blockedFiles_changed key)
  · exact ⟨_, _, hrun, done, file, rest, hmakes, hcontents⟩

/-- A failure may leave a new private key beside files that do not belong to it. -/
theorem error_may_replace : ¬∀ (call : KeyCall) directory s e t,
    (call.action .perfect directory).outcome s = some (.error e, t) →
      ∀ place, t.store.entryAt? place = s.store.entryAt? place := by
  intro hall
  obtain ⟨key, -, hrun⟩ := blockedFiles_outcome
  exact blockedFiles_changed key (hall rsa "" _ _ _ hrun [KeyFiles.rsaPrivateName])

end Sample

end KeyCall

end SealedImage
