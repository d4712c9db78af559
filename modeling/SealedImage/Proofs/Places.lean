import Mathlib.Tactic.Common
import SealedImage.Storage.Staging

/-!
# Places and the paths that name them

What a path names depends on the directories alone, so a file that comes to hold other contents never
redirects a path (`SameDirectories`). A staged file has a name that no entry has, and a file system from
which it is removed again is the one that it was put into (`remove_put_stage`).
-/

namespace SealedImage.FileSystem

variable {fs other : FileSystem} {place : Place} {path : String}

@[simp] lemma put_workingDirectory (fs : FileSystem) (place : Place) (entry : Entry) :
    (fs.put place entry).workingDirectory = fs.workingDirectory := rfl

@[simp] lemma remove_workingDirectory (fs : FileSystem) (place : Place) :
    (fs.remove place).workingDirectory = fs.workingDirectory := rfl

lemma lookup_filter_of_ne {place q : Place} (h : q ≠ place) (entries : List (Place × Entry)) :
    (entries.filter fun e => e.1 != place).lookup q = entries.lookup q := by
  induction entries with
  | nil => rfl
  | cons e entries ih =>
    obtain ⟨p, entry⟩ := e
    by_cases hp : p = place
    · subst hp
      rw [List.filter_cons_of_neg (by simp), ih, List.lookup_cons, beq_false_of_ne h]
    · rw [List.filter_cons_of_pos (by simpa using hp), List.lookup_cons, List.lookup_cons, ih]

lemma entryAt?_put_of_ne {q : Place} (h : q ≠ place) (fs : FileSystem) (entry : Entry) :
    (fs.put place entry).entryAt? q = fs.entryAt? q := by
  unfold entryAt? put
  rw [List.lookup_cons, beq_false_of_ne h, lookup_filter_of_ne h]

lemma entryAt?_put_self (h : place ≠ []) (fs : FileSystem) (entry : Entry) :
    (fs.put place entry).entryAt? place = some entry := by
  simp [entryAt?, put, h]

/-- An entry that is put where there was none, and removed again, leaves nothing behind. -/
lemma remove_put (h : ∀ e ∈ fs.entries, e.1 ≠ place) (entry : Entry) :
    (fs.put place entry).remove place = fs := by
  have hkeep : (fs.entries.filter fun e => e.1 != place) = fs.entries :=
    List.filter_eq_self.mpr fun e he => by simpa using h e he
  unfold put remove
  dsimp only
  rw [hkeep, List.filter_cons_of_neg (by simp), hkeep]

lemma put_put (fs : FileSystem) (place : Place) (entry entry' : Entry) :
    (fs.put place entry).put place entry' = fs.put place entry' := by
  simp [put]

lemma length_le_foldl_max (entries : List (Place × Entry)) (n : Nat) :
    n ≤ entries.foldl (fun n e => max n (e.1.getLast?.getD "").length) n ∧
      ∀ e ∈ entries, (e.1.getLast?.getD "").length ≤
        entries.foldl (fun n e => max n (e.1.getLast?.getD "").length) n := by
  induction entries generalizing n with
  | nil => simp
  | cons e entries ih =>
    obtain ⟨hle, hmem⟩ := ih (max n (e.1.getLast?.getD "").length)
    rw [List.foldl_cons]
    refine ⟨by omega, fun e' he' => ?_⟩
    rcases List.mem_cons.mp he' with rfl | he'
    · omega
    · exact hmem e' he'

/-- The fresh name is longer than every last name. -/
lemma ne_append_freshName (fs : FileSystem) (directory : Place) :
    ∀ e ∈ fs.entries, e.1 ≠ directory ++ [fs.freshName] := by
  intro e he heq
  have hle : (e.1.getLast?.getD "").length ≤ fs.longestName := (length_le_foldl_max fs.entries 0).2 e he
  have hlen : fs.freshName.length = 4 + fs.longestName := by
    have hx : (String.ofList (List.replicate fs.longestName 'x')).length = fs.longestName := by
      rw [String.length_ofList, List.length_replicate]
    rw [freshName, String.length_append, hx]
    rfl
  rw [heq, List.getLast?_append, List.getLast?_singleton, Option.some_or, Option.getD_some] at hle
  omega

lemma remove_put_stage {staged : Place} (h : fs.stage path = .ok staged) (entry : Entry) :
    (fs.put staged entry).remove staged = fs := by
  cases hd : fs.directoryOf path with
  | error fault => simp [stage, hd, bind, Except.bind] at h
  | ok directory =>
    have he : directory ++ [fs.freshName] = staged := by
      simpa [stage, hd, bind, Except.bind, pure, Except.pure] using h
    rw [← he]
    exact remove_put (ne_append_freshName fs directory) entry

/-- The same places are directories, and relative paths start from the same place. -/
def SameDirectories (fs other : FileSystem) : Prop :=
  other.workingDirectory = fs.workingDirectory ∧
    ∀ place, other.entryAt? place = some .directory ↔ fs.entryAt? place = some .directory

lemma SameDirectories.refl (fs : FileSystem) : SameDirectories fs fs :=
  ⟨rfl, fun _ => Iff.rfl⟩

lemma SameDirectories.trans {after : FileSystem} (h : SameDirectories fs other)
    (h' : SameDirectories other after) : SameDirectories fs after :=
  ⟨h'.1.trans h.1, fun place => (h'.2 place).trans (h.2 place)⟩

lemma enter_eq_ok_iff {name : String} {next : Place} :
    fs.enter place name = .ok next ↔
      name = "." ∧ next = place ∨ name ≠ "." ∧ name = ".." ∧ next = place.dropLast ∨
        name ≠ "." ∧ name ≠ ".." ∧ name.utf8ByteSize ≤ Path.nameLimit ∧
          fs.entryAt? (place ++ [name]) = some .directory ∧ next = place ++ [name] := by
  unfold enter
  split_ifs with hdot hdots hlong
  · simp [hdot, eq_comm]
  · simp [hdots, eq_comm]
  · simp [hdot, hdots, Nat.not_le.mpr hlong]
  · rcases fs.entryAt? (place ++ [name]) with _ | ⟨contents⟩ | _
    · simp [hdot, hdots]
    · simp [hdot, hdots]
    · simp [hdot, hdots, Nat.not_lt.mp hlong, eq_comm]

lemma SameDirectories.walk (h : SameDirectories fs other) (names : List String) (place next : Place) :
    other.walk place names = .ok next ↔ fs.walk place names = .ok next := by
  unfold FileSystem.walk
  induction names generalizing place with
  | nil => rfl
  | cons name names ih =>
    have hstep : ∀ q, other.enter place name = .ok q ↔ fs.enter place name = .ok q := fun q => by
      rw [enter_eq_ok_iff, enter_eq_ok_iff, h.2]
    rw [List.foldlM_cons, List.foldlM_cons]
    cases hf : fs.enter place name with
    | ok q =>
      rw [(hstep q).mpr hf]
      exact ih q
    | error fault =>
      cases ho : other.enter place name with
      | ok q => simp [(hstep q).mp ho] at hf
      | error fault' => simp [bind, Except.bind]

/-- What a path names depends on the directories alone. -/
lemma SameDirectories.locate (h : SameDirectories fs other) (path : String) (located : Located) :
    other.locate path = .ok located ↔ fs.locate path = .ok located := by
  have hstart : other.start path = fs.start path := by
    unfold start
    rw [h.1]
  unfold FileSystem.locate
  dsimp only
  rw [hstart]
  have hwalk := h.walk (Path.names path).dropLast (fs.start path)
  cases hf : fs.walk (fs.start path) (Path.names path).dropLast with
  | ok parent => rw [(hwalk parent).mpr hf]
  | error fault =>
    cases ho : other.walk (fs.start path) (Path.names path).dropLast with
    | ok parent => simp [(hwalk parent).mp ho] at hf
    | error fault' =>
      simp only [bind, Except.bind, throw, throwThe, MonadExceptOf.throw]
      split_ifs <;> simp

def placeOf? (fs : FileSystem) (path : String) : Option Place :=
  match fs.locate path with
  | .ok (.directory place) => some place
  | .ok (.named parent name _) => some (parent ++ [name])
  | .error _ => none

lemma SameDirectories.placeOf? (h : SameDirectories fs other) (path : String) :
    other.placeOf? path = fs.placeOf? path := by
  unfold FileSystem.placeOf?
  cases hf : fs.locate path with
  | ok located => rw [(h.locate path located).mpr hf]
  | error fault =>
    cases ho : other.locate path with
    | ok located => simp [(h.locate path located).mp ho] at hf
    | error fault' => rfl

/-- What a path opens depends on the directories and on what is at the place that it names. -/
lemma SameDirectories.openEntry (h : SameDirectories fs other)
    (hplace : ∀ place, fs.placeOf? path = some place → other.entryAt? place = fs.entryAt? place)
    (entry : Entry) : other.openEntry path = .ok entry ↔ fs.openEntry path = .ok entry := by
  unfold FileSystem.openEntry
  cases hf : fs.locate path with
  | ok located =>
    rw [(h.locate path located).mpr hf]
    cases located with
    | directory place => rfl
    | named parent name slash =>
      have hsame := hplace (parent ++ [name]) (by rw [FileSystem.placeOf?, hf])
      simp only [bind, Except.bind, hsame]
  | error fault =>
    cases ho : other.locate path with
    | ok located => simp [(h.locate path located).mp ho] at hf
    | error fault' => simp [bind, Except.bind]

lemma contentsOf_eq_ok_iff {contents : Octets} :
    fs.contentsOf path = .ok contents ↔ fs.openEntry path = .ok (.file contents) := by
  unfold contentsOf
  rcases fs.openEntry path with fault | ⟨contents'⟩ | _ <;>
    simp [bind, Except.bind, pure, Except.pure, throw, throwThe, MonadExceptOf.throw]

/-- A file is replaced at the place of its path, which is no directory and has no slash behind it. -/
lemma replaceFile_eq_ok_iff {contents : Octets} {after : FileSystem} :
    fs.replaceFile path contents = .ok after ↔
      ∃ parent name, fs.locate path = .ok (.named parent name false) ∧
        fs.entryAt? (parent ++ [name]) ≠ some .directory ∧
          after = fs.put (parent ++ [name]) (.file contents) := by
  unfold replaceFile
  rcases fs.locate path with fault | ⟨place⟩ | ⟨parent, name, slash⟩
  · simp [bind, Except.bind]
  · simp [bind, Except.bind, throw, throwThe, MonadExceptOf.throw]
  · cases slash with
    | true => simp [bind, Except.bind, throw, throwThe, MonadExceptOf.throw]
    | false =>
      simp only [bind, Except.bind, Bool.false_eq_true, if_false, Except.ok.injEq,
        Located.named.injEq]
      split_ifs with hdir
      · constructor
        · intro h
          cases h
        · rintro ⟨_, _, ⟨rfl, rfl, -⟩, hnot, -⟩
          exact absurd hdir hnot
      · constructor
        · intro h
          exact ⟨parent, name, ⟨rfl, rfl, trivial⟩, hdir, (Except.ok.inj h).symm⟩
        · rintro ⟨_, _, ⟨rfl, rfl, -⟩, -, rfl⟩
          rfl

lemma sameDirectories_put (hplace : place ≠ []) (hdir : fs.entryAt? place ≠ some .directory)
    (contents : Octets) : SameDirectories fs (fs.put place (.file contents)) := by
  refine ⟨rfl, fun q => ?_⟩
  by_cases hq : q = place
  · subst hq
    rw [entryAt?_put_self hplace]
    simp [hdir]
  · rw [entryAt?_put_of_ne hq]

/-- Some contents came to the place that a path names, and nothing else is different. -/
structure Replaced (fs : FileSystem) (path : String) (contents : Octets) (after : FileSystem) : Prop where
  contents : after.contentsOf path = .ok contents
  elsewhere : ∀ place, fs.placeOf? path ≠ some place → after.entryAt? place = fs.entryAt? place
  workingDirectory : after.workingDirectory = fs.workingDirectory

section ReplaceFile

variable {contents : Octets} {after : FileSystem}

lemma sameDirectories_of_replaceFile (h : fs.replaceFile path contents = .ok after) :
    fs.SameDirectories after := by
  obtain ⟨parent, name, -, hdir, rfl⟩ := replaceFile_eq_ok_iff.mp h
  exact sameDirectories_put (by simp) hdir contents

/-- A file that is replaced is the only difference. -/
lemma replaced_of_replaceFile (h : fs.replaceFile path contents = .ok after) :
    fs.Replaced path contents after := by
  have hdirs := sameDirectories_of_replaceFile h
  obtain ⟨parent, name, hlocate, -, rfl⟩ := replaceFile_eq_ok_iff.mp h
  refine ⟨?_, fun place hplace => ?_, rfl⟩
  · apply contentsOf_eq_ok_iff.mpr
    unfold openEntry
    rw [(hdirs.locate path _).mpr hlocate]
    simp only [bind, Except.bind]
    rw [entryAt?_put_self (by simp)]
    rfl
  · apply entryAt?_put_of_ne
    rintro rfl
    exact hplace (by rw [placeOf?, hlocate])

end ReplaceFile

end SealedImage.FileSystem
