import Mathlib.Tactic.Common
import Mathlib.Tactic.Ring
import SealedImage.Image.Layout

/-!
# Changes within a span

`DiffersWithin span xs ys` says that two strings of one length are different, but not outside the span. What
stands in a span apart from it is then the same in both, and what stands in the span itself is not.
-/

namespace SealedImage

/-- Where a run of octets stands in one around it. -/
def Span.inside (span around : Span) : Span :=
  ⟨span.offset - around.offset, span.size⟩

namespace Octets

def slice (xs : Octets) (span : Span) : Octets :=
  (xs.drop span.offset).take span.size

lemma length_slice {xs : Octets} {span : Span} (h : span.stop ≤ xs.length) :
    (xs.slice span).length = span.size := by
  have hstop : span.stop = span.offset + span.size := rfl
  rw [slice, List.length_take, List.length_drop]
  omega

/-- A start of a string decides what stands in it. -/
lemma slice_congr {xs ys : Octets} {n : Nat} {span : Span} (h : ys.take n = xs.take n) (hn : span.stop ≤ n) :
    ys.slice span = xs.slice span := by
  have htake := congrArg (List.take span.stop) h
  rw [List.take_take, List.take_take, Nat.min_eq_left hn] at htake
  unfold slice
  rw [List.take_drop, List.take_drop]
  exact congrArg _ htake

/-- A run of octets inside another one stands in the string as well. -/
lemma slice_slice (xs : Octets) {outer field : Span} (hoffset : outer.offset ≤ field.offset)
    (hstop : field.stop ≤ outer.stop) :
    (xs.slice outer).slice (field.inside outer) = xs.slice field := by
  have hsize : field.size ≤ outer.size - (field.offset - outer.offset) := by
    unfold Span.stop at hstop
    omega
  unfold slice Span.inside
  dsimp only
  rw [List.drop_take, List.drop_drop, List.take_take, Nat.add_sub_cancel' hoffset, Nat.min_eq_left hsize]

def flipBit (xs : Octets) (i : Nat) (bit : Fin 8) : Octets :=
  xs.modify i fun x => x ^^^ UInt8.ofNat (2 ^ bit.val)

lemma xor_bit_ne (x : UInt8) (bit : Fin 8) : x ^^^ UInt8.ofNat (2 ^ bit.val) ≠ x := by
  have hbit : ∀ bit : Fin 8, UInt8.ofNat (2 ^ bit.val) ≠ 0 := by decide
  intro heq
  have hxor : x ^^^ (x ^^^ UInt8.ofNat (2 ^ bit.val)) = x ^^^ x := congrArg (x ^^^ ·) heq
  rw [← UInt8.xor_assoc, UInt8.xor_self, UInt8.zero_xor] at hxor
  exact hbit bit hxor

end Octets

/-- One run of octets ends where the other begins, or before it. -/
def Span.Apart (a b : Span) : Prop :=
  a.stop ≤ b.offset ∨ b.stop ≤ a.offset

instance (a b : Span) : Decidable (a.Apart b) :=
  inferInstanceAs (Decidable (_ ∨ _))

/-- Two strings of one length are different, but not outside a span. -/
structure DiffersWithin (span : Span) (xs ys : Octets) : Prop where
  ne : ys ≠ xs
  length : ys.length = xs.length
  before : ys.take span.offset = xs.take span.offset
  behind : ys.drop span.stop = xs.drop span.stop

namespace DiffersWithin

variable {span field : Span} {xs ys : Octets}

lemma take_eq (h : DiffersWithin span xs ys) {n : Nat} (hn : n ≤ span.offset) : ys.take n = xs.take n := by
  have hbefore := congrArg (List.take n) h.before
  rwa [List.take_take, List.take_take, Nat.min_eq_left hn] at hbefore

lemma drop_eq (h : DiffersWithin span xs ys) {n : Nat} (hn : span.stop ≤ n) : ys.drop n = xs.drop n := by
  obtain ⟨k, rfl⟩ := Nat.exists_eq_add_of_le hn
  rw [← List.drop_drop, ← List.drop_drop, h.behind]

/-- A run of octets apart from the span is as it was. -/
lemma slice_eq (h : DiffersWithin span xs ys) (hapart : field.Apart span) : ys.slice field = xs.slice field := by
  rcases hapart with hbefore | hbehind
  · exact Octets.slice_congr h.before hbefore
  · rw [Octets.slice, h.drop_eq hbehind, Octets.slice]

lemma slice_ne (h : DiffersWithin span xs ys) : ys.slice span ≠ xs.slice span := by
  intro heq
  have hsplit : ∀ zs : Octets, zs = zs.take span.offset ++ (zs.slice span ++ zs.drop span.stop) := by
    intro zs
    rw [Octets.slice, Span.stop, ← List.drop_drop, List.take_append_drop, List.take_append_drop]
  refine h.ne ?_
  rw [hsplit ys, hsplit xs, h.before, heq, h.behind]

/-- A change behind the first octets is a change in what is left without them. -/
lemma drop {n offset size : Nat} (h : DiffersWithin ⟨n + offset, size⟩ xs ys) :
    DiffersWithin ⟨offset, size⟩ (xs.drop n) (ys.drop n) := by
  refine ⟨fun heq => h.ne ?_, ?_, ?_, ?_⟩
  · have htake : ys.take n = xs.take n := h.take_eq (Nat.le_add_right n offset)
    rw [← List.take_append_drop n ys, htake, heq, List.take_append_drop]
  · rw [List.length_drop, List.length_drop, h.length]
  · rw [List.take_drop, List.take_drop]
    exact congrArg _ h.before
  · have hstop : n + Span.stop ⟨offset, size⟩ = Span.stop ⟨n + offset, size⟩ := (Nat.add_assoc _ _ _).symm
    rw [List.drop_drop, List.drop_drop, hstop]
    exact h.behind

lemma pieces {size i count : Nat} (h : DiffersWithin ⟨size * i, size⟩ xs ys)
    (hcount : xs.length ≤ size * count) :
    ∃ first piece piece' rest, Octets.piecesOf size count xs = first ++ piece :: rest ∧
      Octets.piecesOf size count ys = first ++ piece' :: rest ∧ piece' ≠ piece ∧
      piece'.length = piece.length ∧ piece.length ≤ size := by
  induction count generalizing i xs ys with
  | zero =>
    have hx : xs = [] := List.length_eq_zero_iff.mp (by omega)
    have hy : ys = [] := List.length_eq_zero_iff.mp (by rw [h.length, hx]; rfl)
    exact absurd (hy.trans hx.symm) h.ne
  | succ count ih =>
    cases i with
    | zero =>
      have hbehind : ys.drop size = xs.drop size := h.drop_eq (by simp [Span.stop])
      refine ⟨[], xs.take size, ys.take size, Octets.piecesOf size count (xs.drop size), rfl, ?_, ?_, ?_, ?_⟩
      · rw [Octets.piecesOf, hbehind]
        rfl
      · intro heq
        exact h.ne (by rw [← List.take_append_drop size ys, heq, hbehind, List.take_append_drop])
      · rw [List.length_take, List.length_take, h.length]
      · rw [List.length_take]
        omega
    | succ i =>
      have hoffset : size * (i + 1) = size + size * i := by ring
      rw [hoffset] at h
      have htake : ys.take size = xs.take size := h.take_eq (Nat.le_add_right _ _)
      have hshort : (xs.drop size).length ≤ size * count := by
        rw [List.length_drop]
        rw [Nat.mul_succ] at hcount
        omega
      obtain ⟨first, piece, piece', rest, hx, hy, hne, hlen, hle⟩ := ih h.drop hshort
      refine ⟨xs.take size :: first, piece, piece', rest, ?_, ?_, hne, hlen, hle⟩
      · rw [Octets.piecesOf, hx, List.cons_append]
      · rw [Octets.piecesOf, hy, htake, List.cons_append]

end DiffersWithin

/-- A flipped bit is a change within any span around its octet. -/
lemma differsWithin_flipBit {span : Span} {xs : Octets} {i : Nat} (bit : Fin 8) (hi : i < xs.length)
    (hoffset : span.offset ≤ i) (hstop : i < span.stop) : DiffersWithin span xs (xs.flipBit i bit) := by
  unfold Octets.flipBit
  refine ⟨fun heq => ?_, List.length_modify _ _ _, ?_, ?_⟩
  · have hget : (xs.modify i fun x => x ^^^ UInt8.ofNat (2 ^ bit.val))[i]? = xs[i]? := by rw [heq]
    rw [List.getElem?_modify_eq, List.getElem?_eq_getElem hi] at hget
    exact Octets.xor_bit_ne _ bit (Option.some.inj hget)
  · rw [List.take_modify, List.modify_eq_self (by rw [List.length_take]; omega)]
  · rw [List.drop_modify_of_lt _ _ _ _ hstop]

end SealedImage
