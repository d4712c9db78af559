import Mathlib.Tactic.Common
import SealedImage.Stream.Sink
import SealedImage.Stream.Source

/-!
# What sources deliver and sinks accept

A source is known by the octets it delivers and the fault it ends in (`Source.readAll_eq`), a sink by how
much of a string it accepts: always a start of the string, and all of it unless a fault is reported
(`Sink.accept_isPrefix`, `Sink.accept_fault_eq_none_iff`). How reads and writes are split and how often
they are interrupted has no part in either: sinks with the same `Sink.reach` take the same (`Sink.Alike.release`).
-/

namespace SealedImage

namespace Source

/-- The octets that a source delivers before it ends or fails. -/
def delivered : Source → Octets
  | [] => []
  | .octets x xs :: rest => x :: (xs ++ delivered rest)
  | .interrupted :: rest => delivered rest
  | .failed _ :: _ => []

/-- The fault that a source fails with, if it does not end by itself. -/
def fault? : Source → Option IoFault
  | [] => none
  | .octets _ _ :: rest => fault? rest
  | .interrupted :: rest => fault? rest
  | .failed fault :: _ => some fault

@[simp] lemma delivered_interrupted (source : Source) :
    delivered (.interrupted :: source) = delivered source := rfl

@[simp] lemma fault?_interrupted (source : Source) : fault? (.interrupted :: source) = fault? source := rfl

/-- Reading to the end finds the delivered octets, or the fault and nothing else. -/
theorem readAll_eq (source : Source) :
    source.readAll = source.fault?.elim (.ok source.delivered) .error := by
  fun_induction readAll source with
  | case1 => rfl
  | case2 x xs rest ih =>
    rw [ih, fault?, delivered]
    cases fault? rest <;> rfl
  | case3 rest ih => rw [ih, fault?, delivered]
  | case4 fault rest => rfl

lemma readAll_of_fault {source : Source} {fault : IoFault} (h : source.fault? = some fault) :
    source.readAll = .error fault := by
  rw [readAll_eq, h]
  rfl

lemma readAll_eq_ok_iff {source : Source} {xs : Octets} :
    source.readAll = .ok xs ↔ source.fault? = none ∧ source.delivered = xs := by
  rw [readAll_eq]
  cases h : source.fault? <;> simp

@[simp] lemma readAll_ofOctets (xs : Octets) : (ofOctets xs).readAll = .ok xs := by
  cases xs with
  | nil => rfl
  | cons x xs => simp [ofOctets, readAll, Except.map]

end Source

namespace Sink

lemma accept_isPrefix (script : List Acceptance) (xs : Octets) : (accept script xs).1 <+: xs := by
  fun_induction accept script xs with
  | case1 => simp
  | case2 => simp
  | case3 more script xs hne hlt => simp
  | case4 more script xs hne hlt accepted fault later he ih =>
    rw [he] at ih
    obtain ⟨rest, hrest⟩ := ih
    refine ⟨rest, ?_⟩
    rw [List.append_assoc, hrest, List.take_append_drop]
  | case5 script xs hne ih => exact ih
  | case6 => simp
  | case7 => simp

/-- Without a fault the whole string is accepted, and with one some of it is not. -/
lemma accept_fault_eq_none_iff (script : List Acceptance) (xs : Octets) :
    (accept script xs).2.1 = none ↔ (accept script xs).1 = xs := by
  fun_induction accept script xs with
  | case1 => simp
  | case2 => simp
  | case3 more script xs hne hlt => simp
  | case4 more script xs hne hlt accepted fault later he ih =>
    rw [he] at ih
    have hsplit := List.take_append_drop (more + 1) xs
    dsimp only at ih ⊢
    constructor
    · intro h
      rw [ih.mp h, hsplit]
    · intro h
      apply ih.mpr
      conv at h => rhs; rw [← hsplit]
      exact List.append_cancel_left h
  | case5 script xs hne ih => exact ih
  | case6 script xs hne => simpa using fun h => hne h
  | case7 fault script xs hne => simpa using fun h => hne h

lemma accept_nil_right (script : List Acceptance) : accept script [] = ([], none, script) := by
  cases script <;> rfl

lemma accept_nil_left (xs : Octets) : accept [] xs = (xs, none, []) := by
  cases xs <;> rfl

lemma accept_room (more : Nat) (script : List Acceptance) {xs : Octets} (h : xs ≠ []) :
    accept (.room more :: script) xs = if xs.length ≤ more then (xs, none, .room (more - xs.length) :: script)
      else (xs.take (more + 1) ++ (accept script (xs.drop (more + 1))).1,
        (accept script (xs.drop (more + 1))).2) := by
  cases xs with
  | nil => exact absurd rfl h
  | cons x xs => rfl

lemma accept_append (script : List Acceptance) (xs ys : Octets) :
    accept script (xs ++ ys) = match accept script xs with
      | (accepted, none, later) => (accepted ++ (accept later ys).1, (accept later ys).2)
      | (accepted, some fault, later) => (accepted, some fault, later) := by
  fun_induction accept script xs with
  | case1 => rfl
  | case2 xs hne =>
    dsimp only
    rw [accept_nil_left, accept_nil_left]
  | case3 more script xs hne hle =>
    have hxs : xs ++ ys ≠ [] := fun h => hne (List.append_eq_nil_iff.mp h).1
    dsimp only
    rw [accept_room more script hxs, List.length_append]
    by_cases hys : ys = []
    · subst hys
      rw [if_pos (by simpa using hle), accept_nil_right]
      simp
    · rw [accept_room _ script hys]
      by_cases hfits : xs.length + ys.length ≤ more
      · rw [if_pos hfits, if_pos (by omega), Nat.sub_sub]
      · have hsplit : more + 1 = xs.length + (more - xs.length + 1) := by omega
        rw [if_neg hfits, if_neg (by omega), hsplit, List.take_length_add_append, List.drop_length_add_append,
          List.append_assoc]
  | case4 more script xs hne hlt accepted fault later he ih =>
    have hxs : xs ++ ys ≠ [] := fun h => hne (List.append_eq_nil_iff.mp h).1
    rw [accept_room more script hxs, List.length_append, if_neg (by omega),
      List.take_append_of_le_length (by omega), List.drop_append_of_le_length (by omega), ih, he]
    cases fault with
    | none => simp
    | some fault => rfl
  | case5 script xs hne ih =>
    cases xs with
    | nil => exact absurd rfl hne
    | cons x xs => exact ih
  | case6 script xs hne =>
    cases xs with
    | nil => exact absurd rfl hne
    | cons x xs => rfl
  | case7 fault script xs hne =>
    cases xs with
    | nil => exact absurd rfl hne
    | cons x xs => rfl

/-- A string is written in one part or in two: a fault in the first one leaves nothing for the second. -/
theorem writeAll_append (xs ys : Octets) (sink : Sink) :
    sink.writeAll (xs ++ ys) = match sink.writeAll xs with
      | (none, after) => after.writeAll ys
      | (some fault, after) => (some fault, after) := by
  unfold writeAll
  rw [accept_append]
  rcases accept sink.acceptances xs with ⟨accepted, _ | fault, later⟩
  · simp
  · rfl

/-- How many octets a script accepts before a refusal or fault stops it, and that fault. -/
def reach : List Acceptance → Option (Nat × IoFault)
  | [] => none
  | .room more :: script => (reach script).map fun r => (more + 1 + r.1, r.2)
  | .interrupted :: script => reach script
  | .refused :: _ => some (0, .nothingAccepted)
  | .failed fault :: _ => some (0, fault)

lemma reach_room_elim (more : Nat) (script : List Acceptance) (xs : Octets) :
    (reach (.room more :: script)).elim xs (fun r => xs.take r.1) =
      xs.take (more + 1) ++ (reach script).elim (xs.drop (more + 1)) fun r => (xs.drop (more + 1)).take r.1 := by
  rw [reach]
  cases reach script with
  | none => simp
  | some r => simp [List.take_add]

/-- Of a string a script accepts what is in its reach. -/
lemma accept_accepted (script : List Acceptance) (xs : Octets) :
    (accept script xs).1 = (reach script).elim xs fun r => xs.take r.1 := by
  fun_induction accept script xs with
  | case1 script => cases reach script <;> simp
  | case2 xs hne => rfl
  | case3 more script xs hne hle =>
    rw [reach]
    cases reach script with
    | none => rfl
    | some r =>
      have hreach : xs.length ≤ more + 1 + r.1 := by omega
      exact (List.take_of_length_le hreach).symm
  | case4 more script xs hne hlt accepted fault later he ih =>
    rw [he] at ih
    rw [reach_room_elim, ← ih]
  | case5 script xs hne ih => exact ih
  | case6 script xs hne => rfl
  | case7 fault script xs hne => rfl

/-- A script stops in a string that goes beyond its reach. -/
lemma accept_fault (script : List Acceptance) (xs : Octets) :
    (accept script xs).2.1 = (reach script).bind fun r => if xs.length ≤ r.1 then none else some r.2 := by
  fun_induction accept script xs with
  | case1 script => cases reach script <;> simp
  | case2 xs hne => rfl
  | case3 more script xs hne hle =>
    rw [reach]
    cases reach script with
    | none => rfl
    | some r =>
      have hreach : xs.length ≤ more + 1 + r.1 := by omega
      exact (if_pos hreach).symm
  | case4 more script xs hne hlt accepted fault later he ih =>
    rw [he] at ih
    dsimp only at ih ⊢
    rw [ih, reach]
    cases reach script with
    | none => rfl
    | some r =>
      have hiff : (xs.drop (more + 1)).length ≤ r.1 ↔ xs.length ≤ more + 1 + r.1 := by
        rw [List.length_drop]
        omega
      simp only [Option.map_some, Option.bind_some, hiff]
  | case5 script xs hne ih => exact ih
  | case6 script xs hne | case7 fault script xs hne =>
    rw [reach, Option.bind_some, if_neg]
    exact Nat.not_le.mpr (List.length_pos_iff.mpr hne)

/-- Behind a string the reach is shorter by the string. -/
lemma reach_later (script : List Acceptance) (xs : Octets) :
    reach (accept script xs).2.2 = (reach script).map fun r => (r.1 - xs.length, r.2) := by
  fun_induction accept script xs with
  | case1 script => cases reach script <;> simp
  | case2 xs hne => rfl
  | case3 more script xs hne hle =>
    rw [reach, reach, Option.map_map]
    congr 1
    funext r
    refine Prod.ext ?_ rfl
    dsimp only [Function.comp_apply]
    omega
  | case4 more script xs hne hlt accepted fault later he ih =>
    rw [he] at ih
    dsimp only at ih ⊢
    rw [ih, reach, Option.map_map]
    congr 1
    funext r
    refine Prod.ext ?_ rfl
    rw [Function.comp_apply, List.length_drop]
    omega
  | case5 script xs hne ih => exact ih
  | case6 script xs hne => simp [reach]
  | case7 fault script xs hne => simp [reach]

/-- Nothing that a sink will meet is a refusal or a fault, and it can be flushed. -/
def Open (sink : Sink) : Prop :=
  (∀ a ∈ sink.acceptances, a ≠ .refused ∧ ∀ fault, a ≠ .failed fault) ∧ sink.flushFault = none

lemma perfect_open : perfect.Open := by
  simp [Open, perfect]

lemma accept_of_unobstructed (script : List Acceptance) (xs : Octets)
    (h : ∀ a ∈ script, a ≠ .refused ∧ ∀ fault, a ≠ .failed fault) : (accept script xs).1 = xs := by
  fun_induction accept script xs with
  | case1 => rfl
  | case2 => rfl
  | case3 => rfl
  | case4 more script xs hne hlt accepted fault later he ih =>
    rw [he] at ih
    dsimp only at ih ⊢
    rw [ih fun a ha => h a (List.mem_cons_of_mem _ ha), List.take_append_drop]
  | case5 script xs hne ih => exact ih fun a ha => h a (List.mem_cons_of_mem _ ha)
  | case6 script xs hne => exact absurd rfl (h .refused List.mem_cons_self).1
  | case7 fault script xs hne => exact absurd rfl ((h (.failed fault) List.mem_cons_self).2 fault)

@[simp] lemma writeAll_fault (xs : Octets) (sink : Sink) :
    (sink.writeAll xs).1 = (accept sink.acceptances xs).2.1 := rfl

@[simp] lemma writeAll_written (xs : Octets) (sink : Sink) :
    (sink.writeAll xs).2.written = sink.written ++ (accept sink.acceptances xs).1 := rfl

@[simp] lemma writeAll_flushFault (xs : Octets) (sink : Sink) :
    (sink.writeAll xs).2.flushFault = sink.flushFault := rfl

@[simp] lemma writeAll_flushes (xs : Octets) (sink : Sink) :
    (sink.writeAll xs).2.flushes = sink.flushes := rfl

lemma written_of_writeAll {xs : Octets} {sink : Sink} (h : (sink.writeAll xs).1 = none) :
    (sink.writeAll xs).2.written = sink.written ++ xs := by
  rw [writeAll_written, (accept_fault_eq_none_iff _ _).mp h]

lemma writeAll_of_open (xs : Octets) {sink : Sink} (h : sink.Open) :
    (sink.writeAll xs).1 = none :=
  (accept_fault_eq_none_iff _ _).mpr (accept_of_unobstructed _ _ h.1)

/-- A string is written and, if no fault stops it, the sink is flushed. -/
def release (xs : Octets) (sink : Sink) : Option IoFault × Sink :=
  match sink.writeAll xs with
  | (some fault, after) => (some fault, after)
  | (none, after) => after.flush

lemma release_of_fault {xs : Octets} {sink : Sink} {fault : IoFault}
    (h : (sink.writeAll xs).1 = some fault) : sink.release xs = sink.writeAll xs := by
  unfold release
  rcases hw : sink.writeAll xs with ⟨_ | fault', after⟩
  · rw [hw] at h
    exact absurd h (by simp)
  · rfl

lemma release_of_written {xs : Octets} {sink : Sink} (h : (sink.writeAll xs).1 = none) :
    sink.release xs = (sink.writeAll xs).2.flush := by
  unfold release
  rcases hw : sink.writeAll xs with ⟨_ | fault', after⟩
  · rfl
  · rw [hw] at h
    exact absurd h (by simp)

/-- Whatever happens to a released string, the sink takes a start of it. -/
lemma release_written (xs : Octets) (sink : Sink) :
    ∃ accepted, accepted <+: xs ∧ (sink.release xs).2.written = sink.written ++ accepted := by
  refine ⟨_, accept_isPrefix sink.acceptances xs, ?_⟩
  cases h : (sink.writeAll xs).1 with
  | some fault => rw [release_of_fault h, writeAll_written]
  | none =>
    rw [release_of_written h]
    exact writeAll_written xs sink

/-- A release succeeds when the whole string is accepted and the one flush succeeds. -/
lemma release_eq_none_iff (xs : Octets) (sink : Sink) :
    (sink.release xs).1 = none ↔ (sink.release xs).2.written = sink.written ++ xs ∧
      (sink.release xs).2.flushes = sink.flushes + 1 ∧ sink.flushFault = none := by
  cases h : (sink.writeAll xs).1 with
  | some fault =>
    rw [release_of_fault h, h]
    refine ⟨fun hn => absurd hn (by simp), fun ⟨_, hf, _⟩ => ?_⟩
    rw [writeAll_flushes] at hf
    omega
  | none =>
    rw [release_of_written h]
    constructor
    · intro hf
      exact ⟨written_of_writeAll h, rfl, hf⟩
    · rintro ⟨-, -, hf⟩
      exact hf

/-- A released string is followed by the flush if the whole of it was taken, and by none if not. -/
lemma release_flushes (xs : Octets) (sink : Sink) : (sink.release xs).2.flushes =
    sink.flushes + if (sink.release xs).2.written = sink.written ++ xs then 1 else 0 := by
  cases h : (sink.writeAll xs).1 with
  | none =>
    have hall : (sink.writeAll xs).2.flush.2.written = sink.written ++ xs := written_of_writeAll h
    rw [release_of_written h, if_pos hall]
    rfl
  | some fault =>
    have hsome : ¬(sink.writeAll xs).2.written = sink.written ++ xs := by
      rw [writeAll_written, List.append_cancel_left_eq, ← accept_fault_eq_none_iff, ← writeAll_fault, h]
      simp
    rw [release_of_fault h, if_neg hsome]
    rfl

lemma release_of_open (xs : Octets) {sink : Sink} (h : sink.Open) :
    (sink.release xs).1 = none ∧ (sink.release xs).2.written = sink.written ++ xs := by
  have hw := writeAll_of_open xs h
  rw [release_of_written hw]
  exact ⟨h.2, written_of_writeAll hw⟩

/-- Two sinks have taken the same and will take the same, whatever the sizes of their writes are and however
often these are interrupted. -/
structure Alike (a b : Sink) : Prop where
  reach : reach a.acceptances = reach b.acceptances
  flushFault : a.flushFault = b.flushFault
  written : a.written = b.written
  flushes : a.flushes = b.flushes

section Alike

variable {a b : Sink}

lemma Alike.writeAll (h : a.Alike b) (xs : Octets) :
    (a.writeAll xs).1 = (b.writeAll xs).1 ∧ (a.writeAll xs).2.Alike (b.writeAll xs).2 := by
  refine ⟨?_, ?_, h.flushFault, ?_, h.flushes⟩
  · rw [writeAll_fault, writeAll_fault, accept_fault, accept_fault, h.reach]
  · change Sink.reach (accept a.acceptances xs).2.2 = Sink.reach (accept b.acceptances xs).2.2
    rw [reach_later, reach_later, h.reach]
  · rw [writeAll_written, writeAll_written, accept_accepted, accept_accepted, h.reach, h.written]

lemma Alike.flush (h : a.Alike b) : a.flush.1 = b.flush.1 ∧ a.flush.2.Alike b.flush.2 :=
  ⟨h.flushFault, h.reach, h.flushFault, h.written, congrArg (· + 1) h.flushes⟩

/-- Sinks that are alike stop a string at the same place and with the same fault, and are alike behind it. -/
theorem Alike.release (h : a.Alike b) (xs : Octets) :
    (a.release xs).1 = (b.release xs).1 ∧ (a.release xs).2.Alike (b.release xs).2 := by
  obtain ⟨hfault, halike⟩ := h.writeAll xs
  cases ha : (a.writeAll xs).1 with
  | some fault =>
    rw [release_of_fault ha, release_of_fault (hfault ▸ ha)]
    exact ⟨hfault, halike⟩
  | none =>
    rw [release_of_written ha, release_of_written (hfault ▸ ha)]
    exact halike.flush

end Alike

end Sink

end SealedImage
