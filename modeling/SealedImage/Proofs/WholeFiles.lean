import Mathlib.Tactic.Common
import SealedImage.Files.KeyPair
import SealedImage.Proofs.AtomicFiles

/-!
# Files written one after the other

A whole file is written or its write leaves no trace (`outcome_writeWholeOn`). Several of them are written in
turn, each on a medium of its own, up to the first that fails, so a failure leaves the files before it written and
all else as it was (`FileSystem.writeEach_eq_error`). Files with different last names do not get in each other's way
(`FileSystem.contentsOf_of_writeEach`), and a text that was written is read back
(`Action.readText_of_contentsOf`).
-/

namespace SealedImage

namespace Path

/-- The last of the names of a path. -/
def lastName? (path : String) : Option String :=
  (names path).getLast?

/-- A name, as it stands between the slashes of a path, other than the dots. -/
def IsName (name : String) : Prop :=
  name ≠ "" ∧ '/' ∉ name.toList ∧ name ≠ "." ∧ name ≠ ".."

instance (name : String) : Decidable (IsName name) :=
  inferInstanceAs (Decidable (_ ∧ _))

lemma names_append_slash (path rest : String) : names (path ++ "/" ++ rest) = names path ++ names rest := by
  have hslash : "/".toList = ['/'] := rfl
  unfold names
  rw [String.toList_append, String.toList_append, hslash, List.append_assoc, List.singleton_append,
    List.splitOn_append_cons_self, List.filter_append, List.map_append]

lemma names_of_isName {name : String} (h : IsName name) : names name = [name] := by
  have hne : name.toList ≠ [] := fun hnil => h.1 (String.toList_eq_nil_iff.mp hnil)
  unfold names
  rw [List.splitOn_eq_singleton h.2.1]
  simp [hne]

lemma names_empty : names "" = [] := by
  decide

lemma join_empty (name : String) : join "" name = name := by
  simp [join]

/-- A name that is joined to a directory comes behind the names of the directory. -/
theorem names_join (directory : String) {name : String} (h : IsName name) :
    names (join directory name) = names directory ++ [name] := by
  unfold join
  split_ifs with hplain
  · rcases hplain with hempty | hslash
    · rw [String.isEmpty_iff] at hempty
      rw [hempty, String.empty_append, names_of_isName h, names_empty, List.nil_append]
    · rw [← String.endsWith_toSlice, String.Slice.endsWith_string_iff, String.copy_toSlice] at hslash
      obtain ⟨parent, hparent⟩ := hslash
      have hdirectory : directory = String.ofList parent ++ "/" ++ "" := by
        apply String.toList_injective
        simp [← hparent]
      have hnames : names directory = names (String.ofList parent) := by
        rw [hdirectory, names_append_slash, names_empty, List.append_nil]
      rw [hnames, hdirectory, String.append_empty, names_append_slash, names_of_isName h]
  · rw [names_append_slash, names_of_isName h]

lemma lastName?_join (directory : String) {name : String} (h : IsName name) :
    lastName? (join directory name) = some name := by
  rw [lastName?, names_join directory h, List.getLast?_concat]

end Path

/-- The fault that keeps a medium from a whole file, if there is one: in its writes, or on its way to the disk. -/
def Medium.wholeFault? (medium : Medium) (contents : Octets) : Option IoFault :=
  (medium.newFile.writeAll contents).1.or medium.syncFault

@[simp] lemma Media.perfect_apply (path : String) : Media.perfect path = Medium.perfect := rfl

lemma Medium.wholeFault?_perfect (contents : Octets) : Medium.perfect.wholeFault? contents = none := by
  have hwrite : (Medium.perfect.newFile.writeAll contents).1 = none :=
    Sink.writeAll_of_open contents Sink.perfect_open
  rw [wholeFault?, hwrite]
  rfl

namespace FileSystem

variable {fs after : FileSystem} {path : String} {contents : Octets}

/-- A path whose last name is no dots is located by that name. -/
lemma locate_cases {located : Located} (h : fs.locate path = .ok located) :
    (∃ parent name slash, located = .named parent name slash ∧ Path.lastName? path = some name) ∨
      ∀ name, Path.lastName? path = some name → name = "." ∨ name = ".." := by
  unfold locate at h
  unfold Path.lastName?
  simp only [bind, Except.bind, throw, throwThe, MonadExceptOf.throw, pure, Except.pure] at h
  split_ifs at h
  cases hwalk : fs.walk (fs.start path) (Path.names path).dropLast with
  | error fault => simp [hwalk] at h
  | ok parent =>
    cases hlast : (Path.names path).getLast? with
    | none => exact Or.inr fun name hname => by cases hname
    | some last =>
      simp only [hwalk, hlast] at h
      split_ifs at h with hdot hdots hlong
      · exact Or.inr fun name hname => Or.inl (Option.some.inj hname ▸ hdot)
      · exact Or.inr fun name hname => Or.inr (Option.some.inj hname ▸ hdots)
      · exact Or.inl ⟨parent, last, _, (Except.ok.inj h).symm, rfl⟩

/-- A path that ends in a name leads to a place of that name. -/
lemma getLast?_of_placeOf? {name : String} (hname : Path.IsName name) (hlast : Path.lastName? path = some name)
    {place : Place} (h : fs.placeOf? path = some place) : place.getLast? = some name := by
  unfold placeOf? at h
  cases hlocate : fs.locate path with
  | error fault => simp [hlocate] at h
  | ok located =>
    rcases locate_cases hlocate with ⟨parent, name', slash, rfl, hlast'⟩ | hdots
    · rw [hlocate] at h
      rw [← Option.some.inj h, List.getLast?_concat, ← hlast', hlast]
    · exact absurd (hdots name hlast) (not_or.mpr hname.2.2)

/-- The file system with a file written whole and atomically. -/
def writeWhole (fs : FileSystem) (path : String) (contents : Octets) : Except IoFault FileSystem := do
  let _ ← fs.stage path
  fs.replaceFile path contents

lemma replaceFile_of_writeWhole (h : fs.writeWhole path contents = .ok after) :
    fs.replaceFile path contents = .ok after := by
  unfold writeWhole at h
  cases hstage : fs.stage path with
  | error fault => simp [hstage, bind, Except.bind] at h
  | ok staged => simpa [hstage, bind, Except.bind] using h

/-- The file system with a file written whole and atomically on a medium, which may fail in a write or on the way to
the disk. -/
def writeWholeOn (fs : FileSystem) (medium : Medium) (path : String) (contents : Octets) :
    Except IoFault FileSystem := do
  let _ ← fs.stage path
  match medium.wholeFault? contents with
  | some fault => throw fault
  | none => fs.replaceFile path contents

lemma writeWholeOn_of_wholeFault? {medium : Medium} (h : medium.wholeFault? contents = none) :
    fs.writeWholeOn medium path contents = fs.writeWhole path contents := by
  unfold writeWholeOn writeWhole
  rw [h]

@[simp] lemma writeWholeOn_perfect : fs.writeWholeOn .perfect path contents = fs.writeWhole path contents :=
  writeWholeOn_of_wholeFault? (Medium.wholeFault?_perfect contents)

/-- What was written on a medium is written. -/
lemma writeWhole_of_writeWholeOn {medium : Medium} (h : fs.writeWholeOn medium path contents = .ok after) :
    fs.writeWhole path contents = .ok after := by
  cases hfault : medium.wholeFault? contents with
  | none => rwa [writeWholeOn_of_wholeFault? hfault] at h
  | some fault =>
    unfold writeWholeOn at h
    rw [hfault] at h
    cases hstage : fs.stage path <;> rw [hstage] at h <;> cases h

section OneName

variable {name : String} {dots : List String}

lemma isAbsolute_of_isName (h : Path.IsName name) : Path.isAbsolute name = false := by
  rw [Path.isAbsolute, Bool.eq_false_iff, ne_eq, String.startsWith_string_iff]
  rintro ⟨rest, hrest⟩
  exact h.2.1 (hrest ▸ List.mem_append_left _ (List.mem_singleton.mpr rfl))

lemma endsWith_append_of_notMem (front : String) (hne : name ≠ "") (h : '/' ∉ name.toList) :
    (front ++ name).endsWith "/" = false := by
  rw [← String.endsWith_toSlice, Bool.eq_false_iff, ne_eq, String.Slice.endsWith_string_iff, String.copy_toSlice]
  rintro ⟨rest, hrest⟩
  have hlast := congrArg List.getLast? hrest
  rw [String.toList_append, show "/".toList = ['/'] from rfl, List.getLast?_concat,
    List.getLast?_append_of_ne_nil _ fun hnil => hne (String.toList_eq_nil_iff.mp hnil)] at hlast
  exact h (List.mem_of_getLast? hlast.symm)

lemma walk_dots (hdots : ∀ dot ∈ dots, dot = ".") (place : Place) : fs.walk place dots = .ok place := by
  induction dots with
  | nil => rfl
  | cons dot dots ih =>
    obtain rfl := hdots dot List.mem_cons_self
    exact ih fun dot hdot => hdots dot (List.mem_cons_of_mem _ hdot)

/-- A name behind dots names an entry of the working directory. -/
lemma locate_of_names (hnames : Path.names path = dots ++ [name]) (hdots : ∀ dot ∈ dots, dot = ".")
    (hname : Path.IsName name) (hnul : '\x00' ∉ path.toList) (hshort : name.utf8ByteSize ≤ Path.nameLimit)
    (hlong : path.utf8ByteSize ≤ Path.pathLimit) (hstart : Path.isAbsolute path = false)
    (hend : path.endsWith "/" = false) : fs.locate path = .ok (.named fs.workingDirectory name false) := by
  have hcontains : path.contains '\x00' = false := by
    rw [String.contains_char_eq]
    simpa using hnul
  have hempty : path.isEmpty = false := by
    rw [Bool.eq_false_iff, ne_eq, String.isEmpty_iff]
    rintro rfl
    rw [Path.names_empty] at hnames
    simp at hnames
  unfold locate
  rw [hnames]
  simp only [hcontains, hempty, Nat.not_lt.mpr hlong, Bool.false_eq_true, if_false, start, hstart,
    List.dropLast_concat, walk_dots hdots, List.getLast?_concat, hname.2.2.1, hname.2.2.2,
    Nat.not_lt.mpr hshort, hend, bind, Except.bind, pure, Except.pure]

/-- An entry of the working directory is written, unless it is a directory. -/
theorem writeWhole_of_names (hnames : Path.names path = dots ++ [name]) (hdots : ∀ dot ∈ dots, dot = ".")
    (hname : Path.IsName name) (hnul : '\x00' ∉ path.toList) (hshort : name.utf8ByteSize ≤ Path.nameLimit)
    (hlong : path.utf8ByteSize ≤ Path.pathLimit) (hstart : Path.isAbsolute path = false)
    (hend : path.endsWith "/" = false) :
    fs.writeWhole path contents = if fs.entryAt? (fs.workingDirectory ++ [name]) = some .directory then
      .error .isADirectory else .ok (fs.put (fs.workingDirectory ++ [name]) (.file contents)) := by
  have hstage : fs.stage path = .ok (fs.workingDirectory ++ [fs.freshName]) := by
    have hfilter : ((dots ++ [name]).filter fun name => name != ".") = [name] := by
      rw [List.filter_append, List.filter_eq_nil_iff.mpr fun dot hdot => by simp [hdots dot hdot]]
      simpa using hname.2.2.1
    unfold stage directoryOf
    rw [hnames, hfilter, hstart]
    rfl
  unfold writeWhole replaceFile
  rw [hstage, locate_of_names hnames hdots hname hnul hshort hlong hstart hend]
  simp only [bind, Except.bind, Bool.false_eq_true, if_false]
  rfl

/-- A bare name is written in the working directory, unless a directory is there. -/
theorem writeWhole_of_isName (h : Path.IsName name) (hnul : '\x00' ∉ name.toList)
    (hshort : name.utf8ByteSize ≤ Path.nameLimit) :
    fs.writeWhole name contents = if fs.entryAt? (fs.workingDirectory ++ [name]) = some .directory then
      .error .isADirectory else .ok (fs.put (fs.workingDirectory ++ [name]) (.file contents)) := by
  have hend : ("" ++ name).endsWith "/" = false := endsWith_append_of_notMem "" h.1 h.2.1
  rw [String.empty_append] at hend
  exact writeWhole_of_names (Path.names_of_isName h) (List.forall_mem_nil _) h hnul hshort
    (hshort.trans (by decide)) (isAbsolute_of_isName h) hend

/-- The working directory may be named. -/
theorem writeWhole_here (h : Path.IsName name) (hnul : '\x00' ∉ name.toList)
    (hshort : name.utf8ByteSize ≤ Path.nameLimit) :
    fs.writeWhole (Path.join "." name) contents = fs.writeWhole name contents := by
  have hdot : ("" ++ ".").endsWith "/" = false := endsWith_append_of_notMem "" (by decide) (by decide)
  rw [String.empty_append] at hdot
  have hjoin : Path.join "." name = "./" ++ name := if_neg (by simpa using hdot)
  have hnames : Path.names (Path.join "." name) = ["."] ++ [name] := Path.names_join "." h
  rw [hjoin] at hnames ⊢
  have hlong : ("./" ++ name).utf8ByteSize ≤ Path.pathLimit := by
    have hlimits : 2 + Path.nameLimit ≤ Path.pathLimit := by decide
    have hsize : ("./" ++ name).utf8ByteSize = 2 + name.utf8ByteSize := String.utf8ByteSize_append
    omega
  have hstart : Path.isAbsolute ("./" ++ name) = false := by
    rw [Path.isAbsolute, Bool.eq_false_iff, ne_eq, String.startsWith_string_iff]
    simp
  rw [writeWhole_of_isName h hnul hshort, writeWhole_of_names hnames (by simp) h (by simpa using hnul) hshort hlong
    hstart (endsWith_append_of_notMem _ h.1 h.2.1)]

end OneName

/-- The files have names, and different ones. -/
structure Separate (files : List (String × Octets)) : Prop where
  named : ∀ file ∈ files, ∃ name, Path.IsName name ∧ Path.lastName? file.1 = some name
  nodup : (files.map fun file => Path.lastName? file.1).Nodup

lemma Separate.tail {file : String × Octets} {files : List (String × Octets)} (h : Separate (file :: files)) :
    Separate files :=
  ⟨fun later hlater => h.named later (List.mem_cons_of_mem _ hlater), (List.nodup_cons.mp h.nodup).2⟩

lemma Separate.left {files others : List (String × Octets)} (h : Separate (files ++ others)) :
    Separate files := by
  have hnodup := h.nodup
  rw [List.map_append] at hnodup
  exact ⟨fun file hfile => h.named file (List.mem_append_left _ hfile), hnodup.of_append_left⟩

/-- No place is named by two of the files. -/
lemma Separate.ne {files others : List (String × Octets)} (h : Separate (files ++ others))
    {file other : String × Octets} (hfile : file ∈ files) (hother : other ∈ others) {place : Place}
    (hplace : fs.placeOf? file.1 = some place) : fs.placeOf? other.1 ≠ some place := by
  intro hplace'
  obtain ⟨name, hname, hlast⟩ := h.named file (List.mem_append_left _ hfile)
  obtain ⟨name', hname', hlast'⟩ := h.named other (List.mem_append_right _ hother)
  have hsame : Path.lastName? file.1 = Path.lastName? other.1 := by
    rw [hlast, hlast', ← getLast?_of_placeOf? hname hlast hplace, getLast?_of_placeOf? hname' hlast' hplace']
  have hnodup := h.nodup
  rw [List.map_append] at hnodup
  exact List.disjoint_of_nodup_append hnodup (List.mem_map.mpr ⟨file, hfile, rfl⟩)
    (List.mem_map.mpr ⟨other, hother, hsame.symm⟩)

/-- Files, each a path with its contents, written one after the other up to the first fault. -/
def writeEach (fs : FileSystem) (media : Media) : List (String × Octets) → Option IoFault × FileSystem
  | [] => (none, fs)
  | file :: rest =>
    match fs.writeWholeOn (media file.1) file.1 file.2 with
    | .error fault => (some fault, fs)
    | .ok after => after.writeEach media rest

/-- What a path opens is the entry at its place. -/
lemma entryAt?_of_contentsOf {place : Place} (h : fs.contentsOf path = .ok contents)
    (hplace : fs.placeOf? path = some place) : fs.entryAt? place = some (.file contents) := by
  have hopen := contentsOf_eq_ok_iff.mp h
  unfold openEntry at hopen
  unfold placeOf? at hplace
  rcases hlocate : fs.locate path with fault | ⟨q⟩ | ⟨parent, name, slash⟩
  · simp [hlocate] at hplace
  · simp [hlocate, bind, Except.bind, pure, Except.pure] at hopen
  · rw [hlocate] at hopen hplace
    obtain rfl := Option.some.inj hplace
    simp only [bind, Except.bind] at hopen
    cases hentry : fs.entryAt? (parent ++ [name]) with
    | none => simp [hentry, throw, throwThe, MonadExceptOf.throw] at hopen
    | some entry =>
      cases entry with
      | directory => simp [hentry, pure, Except.pure] at hopen
      | file found =>
        simp only [hentry, throw, throwThe, MonadExceptOf.throw, pure, Except.pure] at hopen
        split_ifs at hopen
        rw [Entry.file.inj (Except.ok.inj hopen)]

section WriteEach

variable {media : Media} {files : List (String × Octets)} {file : String × Octets} {fault : IoFault}

lemma writeEach_cons_of_ok (h : fs.writeWholeOn (media file.1) file.1 file.2 = .ok after) :
    fs.writeEach media (file :: files) = after.writeEach media files := by
  rw [writeEach, h]

lemma writeEach_cons_of_error (h : fs.writeWholeOn (media file.1) file.1 file.2 = .error fault) :
    fs.writeEach media (file :: files) = (some fault, fs) := by
  rw [writeEach, h]

/-- A fault ends the writing at one file, behind files that were written. -/
theorem writeEach_eq_error (h : fs.writeEach media files = (some fault, after)) :
    ∃ done file rest, files = done ++ file :: rest ∧ fs.writeEach media done = (none, after) ∧
      after.writeWholeOn (media file.1) file.1 file.2 = .error fault := by
  induction files generalizing fs with
  | nil => cases h
  | cons file files ih =>
    cases hwrite : fs.writeWholeOn (media file.1) file.1 file.2 with
    | error fault' =>
      rw [writeEach_cons_of_error hwrite] at h
      obtain ⟨hfault, rfl⟩ := Prod.mk.inj h
      obtain rfl := Option.some.inj hfault
      exact ⟨[], file, files, rfl, rfl, hwrite⟩
    | ok next =>
      rw [writeEach_cons_of_ok hwrite] at h
      obtain ⟨done, last, rest, rfl, hdone, hlast⟩ := ih h
      exact ⟨file :: done, last, rest, rfl, (writeEach_cons_of_ok hwrite).trans hdone, hlast⟩

/-- Written files leave every place alone that none of them names. -/
theorem writeEach_frame {result : Option IoFault} (h : fs.writeEach media files = (result, after)) :
    fs.SameDirectories after ∧ ∀ place, (∀ file ∈ files, fs.placeOf? file.1 ≠ some place) →
      after.entryAt? place = fs.entryAt? place := by
  induction files generalizing fs with
  | nil =>
    obtain ⟨-, rfl⟩ := Prod.mk.inj h
    exact ⟨SameDirectories.refl fs, fun _ _ => rfl⟩
  | cons file files ih =>
    cases hwrite : fs.writeWholeOn (media file.1) file.1 file.2 with
    | error fault =>
      rw [writeEach_cons_of_error hwrite] at h
      obtain ⟨-, rfl⟩ := Prod.mk.inj h
      exact ⟨SameDirectories.refl fs, fun _ _ => rfl⟩
    | ok next =>
      rw [writeEach_cons_of_ok hwrite] at h
      have hreplace := replaceFile_of_writeWhole (writeWhole_of_writeWholeOn hwrite)
      have hdirs := sameDirectories_of_replaceFile hreplace
      obtain ⟨hdirs', hothers⟩ := ih h
      refine ⟨hdirs.trans hdirs', fun place hplace => ?_⟩
      rw [hothers place]
      · exact (replaced_of_replaceFile hreplace).elsewhere place (hplace file List.mem_cons_self)
      · intro later hlater
        rw [hdirs.placeOf?]
        exact hplace later (List.mem_cons_of_mem _ hlater)

/-- Separate files all hold their contents once they are written. -/
theorem contentsOf_of_writeEach (h : fs.writeEach media files = (none, after)) (hseparate : Separate files) :
    ∀ file ∈ files, after.contentsOf file.1 = .ok file.2 := by
  induction files generalizing fs with
  | nil => simp
  | cons file files ih =>
    cases hwrite : fs.writeWholeOn (media file.1) file.1 file.2 with
    | error fault =>
      rw [writeEach_cons_of_error hwrite] at h
      cases h
    | ok next =>
      rw [writeEach_cons_of_ok hwrite] at h
      obtain ⟨hdirs, hothers⟩ := writeEach_frame h
      intro written hwritten
      rcases List.mem_cons.mp hwritten with rfl | hlater
      · -- the files behind the first are at other places
        have hreplace := replaceFile_of_writeWhole (writeWhole_of_writeWholeOn hwrite)
        have hopen := contentsOf_eq_ok_iff.mp (replaced_of_replaceFile hreplace).contents
        refine contentsOf_eq_ok_iff.mpr ((hdirs.openEntry (fun place hplace => hothers place ?_) _).mpr hopen)
        have hall : Separate ([written] ++ files) := hseparate
        exact fun later hlater => hall.ne List.mem_cons_self hlater hplace
      · exact ih h hseparate.tail written hlater

/-- Files that were not written are as they were. -/
lemma openEntry_of_writeEach {done rest : List (String × Octets)} {result : Option IoFault}
    (h : fs.writeEach media done = (result, after)) (hseparate : Separate (done ++ rest)) :
    ∀ file ∈ rest, ∀ entry, after.openEntry file.1 = .ok entry ↔ fs.openEntry file.1 = .ok entry := by
  intro file hfile entry
  obtain ⟨hdirs, hothers⟩ := writeEach_frame h
  refine hdirs.openEntry (fun place hplace => hothers place fun written hwritten hplace' => ?_) entry
  exact hseparate.ne hwritten hfile hplace' hplace

/-- Written files show unless they held their contents before. -/
theorem unchanged_iff (h : fs.writeEach media files = (none, after)) (hseparate : Separate files) :
    (∀ place, after.entryAt? place = fs.entryAt? place) ↔
      ∀ file ∈ files, fs.contentsOf file.1 = .ok file.2 := by
  obtain ⟨hdirs, hothers⟩ := writeEach_frame h
  have hcontents := contentsOf_of_writeEach h hseparate
  constructor
  · intro hsame file hfile
    have hopen := contentsOf_eq_ok_iff.mp (hcontents file hfile)
    exact contentsOf_eq_ok_iff.mpr ((hdirs.openEntry (fun place _ => hsame place) _).mp hopen)
  · intro hheld place
    by_cases hnamed : ∀ file ∈ files, fs.placeOf? file.1 ≠ some place
    · exact hothers place hnamed
    · push Not at hnamed
      obtain ⟨file, hfile, hplace⟩ := hnamed
      have hbefore := entryAt?_of_contentsOf (hheld file hfile) hplace
      have hplace' : after.placeOf? file.1 = some place := by rw [hdirs.placeOf?, hplace]
      rw [hbefore, entryAt?_of_contentsOf (hcontents file hfile) hplace']

/-- Files with bare names are written if no directory is in their places. -/
lemma exists_writeEach (hnames : ∀ file ∈ files, Path.IsName file.1 ∧ '\x00' ∉ file.1.toList ∧
      file.1.utf8ByteSize ≤ Path.nameLimit)
    (hfree : ∀ file ∈ files, fs.entryAt? (fs.workingDirectory ++ [file.1]) ≠ some .directory) :
    ∃ after, fs.writeEach .perfect files = (none, after) := by
  induction files generalizing fs with
  | nil => exact ⟨fs, rfl⟩
  | cons file files ih =>
    obtain ⟨hname, hnul, hshort⟩ := hnames file List.mem_cons_self
    have hwrite : fs.writeWholeOn (Media.perfect file.1) file.1 file.2 =
        .ok (fs.put (fs.workingDirectory ++ [file.1]) (.file file.2)) := by
      rw [Media.perfect_apply, writeWholeOn_perfect, writeWhole_of_isName hname hnul hshort,
        if_neg (hfree file List.mem_cons_self)]
    have hdirs := sameDirectories_of_replaceFile (replaceFile_of_writeWhole (writeWhole_of_writeWholeOn hwrite))
    rw [writeEach_cons_of_ok hwrite]
    refine ih (fun later hlater => hnames later (List.mem_cons_of_mem _ hlater)) fun later hlater hdir => ?_
    rw [hdirs.1] at hdir
    exact hfree later (List.mem_cons_of_mem _ hlater) ((hdirs.2 _).mp hdir)

end WriteEach

end FileSystem

namespace Action

/-- A whole file is written, or a fault is reported and everything is as it was. -/
theorem outcome_writeWholeOn (medium : Medium) (path : String) (contents : Octets) (s : Session FileSystem) :
    (writeWholeOn medium path contents).outcome s = some (match s.store.writeWholeOn medium path contents with
      | .ok after => (.ok (), { s with store := after })
      | .error fault => (.error (.io fault), s)) := by
  unfold writeWholeOn FileSystem.writeWholeOn
  rw [outcome_writeAtomicallyOn]
  cases s.store.stage path with
  | error fault => rfl
  | ok staged =>
    dsimp only
    rw [outcome_onStore, Medium.wholeFault?]
    cases hfault : (medium.newFile.writeAll contents).1 with
    | some fault => rfl
    | none =>
      have hwritten : (medium.newFile.writeAll contents).2.written = contents := Sink.written_of_writeAll hfault
      simp only [Option.elim_none, Option.map_some, hwritten, Option.none_or, Medium.sync]
      cases medium.syncFault with
      | some fault => rfl
      | none =>
        simp only [Option.elim_none, bind, Except.bind]
        cases s.store.replaceFile path contents <;> rfl

/-- Writes files one after the other. -/
def writeEach (media : Media) : List (String × Octets) → Action FileSystem Unit
  | [] => pure ()
  | file :: rest => do
    writeWholeOn (media file.1) file.1 file.2
    writeEach media rest

theorem outcome_writeEach (media : Media) (files : List (String × Octets)) (s : Session FileSystem) :
    (writeEach media files).outcome s =
      some (((s.store.writeEach media files).1.elim (.ok ()) fun fault => .error (.io fault)),
        { s with store := (s.store.writeEach media files).2 }) := by
  induction files generalizing s with
  | nil => rfl
  | cons file files ih =>
    have hfirst := outcome_writeWholeOn (media file.1) file.1 file.2 s
    unfold writeEach
    cases hwrite : s.store.writeWholeOn (media file.1) file.1 file.2 with
    | error fault =>
      rw [hwrite] at hfirst
      rw [outcome_bind_of_error _ hfirst, FileSystem.writeEach_cons_of_error hwrite]
      rfl
    | ok after =>
      rw [hwrite] at hfirst
      rw [outcome_bind_of_ok _ hfirst, ih, FileSystem.writeEach_cons_of_ok hwrite]

section Text

lemma toList_loop_eq (bytes : ByteArray) (i : Nat) (r : List UInt8) :
    ByteArray.toList.loop bytes i r = r.reverse ++ bytes.data.toList.drop i := by
  fun_induction ByteArray.toList.loop bytes i r with
  | case1 i r hlt ih =>
    have hi : i < bytes.data.toList.length := by simpa using hlt
    have hget : bytes.get! i = bytes.data.toList[i] := by
      rw [ByteArray.get!, getElem!_pos bytes.data i (by simpa using hlt), Array.getElem_toList]
    rw [ih, List.drop_eq_getElem_cons hi, List.reverse_cons, List.append_assoc, List.singleton_append, hget]
  | case2 i r hge =>
    rw [List.drop_of_length_le (by simpa using hge), List.append_nil]

lemma toList_eq (bytes : ByteArray) : bytes.toList = bytes.data.toList := by
  rw [ByteArray.toList, toList_loop_eq, List.reverse_nil, List.nil_append, List.drop_zero]

lemma fromUTF8?_toUTF8 (text : String) : String.fromUTF8? ⟨text.toUTF8.toList.toArray⟩ = some text := by
  rw [toList_eq, Array.toArray_toList]
  unfold String.fromUTF8?
  exact dif_pos text.isValidUTF8

lemma toUTF8_injective {text other : String} (h : text.toUTF8.toList = other.toUTF8.toList) : text = other := by
  apply Option.some.inj
  rw [← fromUTF8?_toUTF8 text, h, fromUTF8?_toUTF8]

/-- A text is read back from the file that holds it. -/
lemma readText_of_contentsOf {fs : FileSystem} {path text : String}
    (h : fs.contentsOf path = .ok text.toUTF8.toList) : readText fs path = .ok text := by
  unfold readText
  simp only [h, bind, Except.bind, fromUTF8?_toUTF8]
  rfl

end Text

end Action

end SealedImage
