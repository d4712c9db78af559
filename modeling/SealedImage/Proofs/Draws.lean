import Mathlib.Tactic.Common
import SealedImage.Key.Agreement
import SealedImage.Proofs.Traces

/-!
# What draws read

A block is the next octets of the tape, and a repeated draw reads the blocks that are rejected and then the
one that is accepted (`Attempts`). A filler is read at once, and behind it an octet for each of its zeros, as
often as that is zero again (`Refilled`).
-/

namespace SealedImage

/-- Blocks that are rejected, and then one that is accepted. -/
inductive Attempts {α : Type} (use : Use) (accept : Block use.size → Option α) : Trace → α → Prop
  | accepted {block : Block use.size} {a : α} (h : accept block = some a) :
    Attempts use accept [.drawn use block] a
  | rejected {block : Block use.size} {trace : Trace} {a : α} (h : accept block = none)
      (later : Attempts use accept trace a) : Attempts use accept (.drawn use block :: trace) a

/-- The octet of a block of one octet, unless it is zero. -/
def nonZeroOctet (block : Block 1) : Option UInt8 :=
  block.octets.find? (· != 0)

/-- Octets with other ones in place of the zeros, each of them drawn until it is none. -/
inductive Refilled : Octets → Trace → Octets → Prop
  | nil : Refilled [] [] []
  | kept {x : UInt8} {xs ys : Octets} {trace : Trace} (h : x ≠ 0) (later : Refilled xs trace ys) :
    Refilled (x :: xs) trace (x :: ys)
  | replaced {y : UInt8} {xs ys : Octets} {trace trace' : Trace} (h : Attempts .redraw nonZeroOctet trace y)
      (later : Refilled xs trace' ys) : Refilled (0 :: xs) (trace ++ trace') (y :: ys)

/-- The filler of a padded content key, unless the key of the recipient cannot be used. -/
inductive Wraps (recipient : Rsa.PublicKey) (key : Block 32) : Trace → Except Failure (Block 384) → Prop
  | missized {e : Failure} (h : recipient.checkSize = .error e) : Wraps recipient key [] (.error e)
  | unfit {defect : Rsa.Defect} (hsize : recipient.checkSize = .ok ()) (h : recipient.defect? = some defect) :
    Wraps recipient key [] (.error (.crypto (.wrap defect)))
  | wrapped {first : Block 349} {filler : Octets} {wrapped : Block 384} {later : Trace}
      (hsize : recipient.checkSize = .ok ()) (hfit : recipient.defect? = none)
      (hfiller : Refilled first.octets later filler)
      (hwrapped : wrapped.octets = recipient.encrypt filler key.octets) :
    Wraps recipient key (.drawn .filler first :: later) (.ok wrapped)

section Uses

variable {α : Type} {use : Use} {accept : Block use.size → Option α} {trace : Trace} {a : α}

lemma Attempts.uses (h : Attempts use accept trace a) :
    ∃ rejected, trace.uses = List.replicate (rejected + 1) use := by
  induction h with
  | accepted h => exact ⟨0, rfl⟩
  | rejected h later ih =>
    obtain ⟨rejected, huses⟩ := ih
    exact ⟨rejected + 1, by rw [Trace.uses_drawn, huses]; rfl⟩

lemma Attempts.ne_zero {y : UInt8} (h : Attempts .redraw nonZeroOctet trace y) : y ≠ 0 := by
  induction h with
  | accepted h => simpa using List.find?_some h
  | rejected h later ih => exact ih

lemma Refilled.uses {xs ys : Octets} (h : Refilled xs trace ys) :
    ∃ redrawn, trace.uses = List.replicate redrawn .redraw := by
  induction h with
  | nil => exact ⟨0, rfl⟩
  | kept h later ih => exact ih
  | replaced h later ih =>
    obtain ⟨rejected, hfirst⟩ := h.uses
    obtain ⟨redrawn, hlater⟩ := ih
    exact ⟨rejected + 1 + redrawn, by rw [Trace.uses_append, hfirst, hlater, List.replicate_append_replicate]⟩

lemma Refilled.spec {xs ys : Octets} (h : Refilled xs trace ys) : ys.length = xs.length ∧ ∀ y ∈ ys, y ≠ 0 := by
  induction h with
  | nil => simp
  | kept h later ih => exact ⟨congrArg (· + 1) ih.1, List.forall_mem_cons.mpr ⟨h, ih.2⟩⟩
  | replaced h later ih => exact ⟨congrArg (· + 1) ih.1, List.forall_mem_cons.mpr ⟨h.ne_zero, ih.2⟩⟩

lemma Attempts.events (h : Attempts use accept trace a) : trace.events = [] := by
  induction h with
  | accepted h => rfl
  | rejected h later ih => exact ih

lemma Refilled.events {xs ys : Octets} (h : Refilled xs trace ys) : trace.events = [] := by
  induction h with
  | nil => rfl
  | kept h later ih => exact ih
  | replaced h later ih => rw [Trace.events_append, h.events, ih, List.append_nil]

end Uses

namespace Draw

variable {n : Nat} {α β : Type}

lemma block_eq_some_iff {tape rest : Octets} {block : Block n} :
    Draw.block n tape = some (block, rest) ↔ tape = block.octets ++ rest := by
  unfold Draw.block
  split_ifs with h
  · rw [Option.some.injEq, Prod.mk.injEq]
    constructor
    · rintro ⟨rfl, rfl⟩
      exact (List.take_append_drop n tape).symm
    · rintro rfl
      exact ⟨Block.ext (List.take_left' block.length_octets), List.drop_left' block.length_octets⟩
  · constructor
    · intro hnone
      cases hnone
    · rintro rfl
      rw [List.length_append, block.length_octets] at h
      omega

lemma block_reads (use : Use) : (Draw.block use.size).Reads fun trace block => trace = [.drawn use block] := by
  refine ⟨?_, fun tape block rest => ?_⟩
  · rintro trace block rfl
    rfl
  · rw [block_eq_some_iff]
    constructor
    · rintro rfl
      exact ⟨_, rfl, by simp⟩
    · rintro ⟨trace, rfl, rfl⟩
      simp

/-- A draw that goes on from another one reads what both read, in order. -/
lemma Reads.andThen {d : Draw α} {f : α → Draw β} {R : Trace → α → Prop} {R' : α → Trace → β → Prop}
    (hd : d.Reads R) (hf : ∀ a, (f a).Reads (R' a)) :
    Draw.Reads (fun tape => (d tape).bind fun r => f r.1 r.2) fun trace b =>
      ∃ first a second, R first a ∧ R' a second b ∧ trace = first ++ second := by
  refine ⟨?_, fun tape b rest => ?_⟩
  · rintro trace b ⟨first, a, second, hfirst, hsecond, rfl⟩
    rw [Trace.events_append, hd.quiet first a hfirst, (hf a).quiet second b hsecond, List.append_nil]
  · constructor
    · intro h
      obtain ⟨⟨a, tape'⟩, hfirst, hsecond⟩ := Option.bind_eq_some_iff.mp h
      obtain ⟨first, hR, rfl⟩ := (hd.outcome tape a tape').mp hfirst
      obtain ⟨second, hR', rfl⟩ := ((hf a).outcome tape' b rest).mp hsecond
      refine ⟨first ++ second, ⟨first, a, second, hR, hR', rfl⟩, ?_⟩
      rw [Trace.octets_append, List.append_assoc]
    · rintro ⟨trace, ⟨first, a, second, hR, hR', rfl⟩, rfl⟩
      rw [Trace.octets_append, List.append_assoc]
      refine Option.bind_eq_some_iff.mpr ⟨(a, second.octets ++ rest), ?_, ?_⟩
      · exact (hd.outcome _ a _).mpr ⟨first, hR, rfl⟩
      · exact ((hf a).outcome _ b rest).mpr ⟨second, hR', rfl⟩

/-- A repeated draw ends in a value that was drawn and accepted. -/
lemma retry_accepts {draw : Draw α} {accept : α → Option β} {tape rest : Octets} {b : β}
    (h : retry draw accept tape = some (b, rest)) :
    ∃ a before, draw before = some (a, rest) ∧ accept a = some b := by
  induction tape using retry.induct draw accept with
  | case1 tape hd =>
    rw [retry, hd] at h
    cases h
  | case2 tape a rest' hd b' ha =>
    rw [retry, hd] at h
    simp only [ha, Option.some.injEq, Prod.mk.injEq] at h
    obtain ⟨rfl, rfl⟩ := h
    exact ⟨a, tape, hd, ha⟩
  | case3 tape a rest' hd ha hlt ih =>
    rw [retry, hd] at h
    simp only [ha, if_pos hlt] at h
    exact ih h
  | case4 tape a rest' hd ha hlt =>
    rw [retry, hd] at h
    simp only [ha, if_neg hlt] at h
    cases h

lemma retry_of_accepted {draw : Draw α} {accept : α → Option β} {tape rest : Octets} {a : α} {b : β}
    (hd : draw tape = some (a, rest)) (ha : accept a = some b) : retry draw accept tape = some (b, rest) := by
  rw [retry, hd]
  simp only [ha]

/-- A repeated draw of blocks reads them up to the first one that is accepted. -/
theorem retry_reads (use : Use) (accept : Block use.size → Option α) :
    (Draw.retry (Draw.block use.size) accept).Reads (Attempts use accept) := by
  refine ⟨fun trace a h => h.events, fun tape a rest => ⟨fun h => ?_, ?_⟩⟩
  · induction tape using retry.induct (Draw.block use.size) accept with
    | case1 tape hd =>
      rw [retry, hd] at h
      cases h
    | case2 tape block rest' hd b ha =>
      rw [retry, hd] at h
      simp only [ha, Option.some.injEq, Prod.mk.injEq] at h
      obtain ⟨rfl, rfl⟩ := h
      exact ⟨_, .accepted ha, by rw [block_eq_some_iff.mp hd]; simp⟩
    | case3 tape block rest' hd ha hlt ih =>
      rw [retry, hd] at h
      simp only [ha, if_pos hlt] at h
      obtain ⟨trace, hlater, rfl⟩ := ih h
      exact ⟨_, .rejected ha hlater, by rw [block_eq_some_iff.mp hd]; simp⟩
    | case4 tape block rest' hd ha hlt =>
      rw [retry, hd] at h
      simp only [ha, if_neg hlt] at h
      cases h
  · rintro ⟨trace, hattempts, rfl⟩
    induction hattempts with
    | accepted ha =>
      exact retry_of_accepted (block_eq_some_iff.mpr (by simp)) ha
    | @rejected block trace a ha later ih =>
      have hlt : (trace.octets ++ rest).length < (Trace.octets (.drawn use block :: trace) ++ rest).length := by
        simp [use.size_pos]
      have hblock : Draw.block use.size (Trace.octets (.drawn use block :: trace) ++ rest) =
          some (block, trace.octets ++ rest) :=
        block_eq_some_iff.mpr (by rw [Trace.octets_drawn, List.append_assoc])
      rw [retry, hblock]
      simp only [ha, if_pos hlt]
      exact ih

lemma nonZero_reads : nonZero.Reads (Attempts .redraw nonZeroOctet) :=
  retry_reads .redraw nonZeroOctet

lemma replaceZeros_cons (x : UInt8) (xs tape : Octets) :
    replaceZeros (x :: xs) tape = (if x = 0 then nonZero tape else some (x, tape)).bind fun r =>
      (replaceZeros xs r.2).bind fun r' => some (r.1 :: r'.1, r'.2) := by
  rw [replaceZeros]
  split_ifs <;> rfl

/-- The zeros are replaced from left to right. -/
theorem replaceZeros_reads (xs : Octets) : (replaceZeros xs).Reads (Refilled xs) := by
  refine ⟨fun trace ys h => h.events, fun tape ys rest => ⟨fun h => ?_, ?_⟩⟩
  · induction xs generalizing tape ys rest with
    | nil =>
      obtain ⟨rfl, rfl⟩ := Prod.mk.inj (Option.some.inj h)
      exact ⟨[], .nil, rfl⟩
    | cons x xs ih =>
      rw [replaceZeros_cons] at h
      obtain ⟨⟨y, tape₁⟩, hy, hrest⟩ := Option.bind_eq_some_iff.mp h
      obtain ⟨⟨zs, tape₂⟩, hzs, hpair⟩ := Option.bind_eq_some_iff.mp hrest
      obtain ⟨rfl, rfl⟩ := Prod.mk.inj (Option.some.inj hpair)
      obtain ⟨trace', hlater, rfl⟩ := ih _ _ _ hzs
      split_ifs at hy with hx
      · obtain ⟨trace, hattempts, rfl⟩ := (nonZero_reads.outcome _ _ _).mp hy
        exact ⟨trace ++ trace', hx ▸ .replaced hattempts hlater, by simp⟩
      · obtain ⟨rfl, rfl⟩ := Prod.mk.inj (Option.some.inj hy)
        exact ⟨trace', .kept hx hlater, rfl⟩
  · rintro ⟨trace, hrefilled, rfl⟩
    induction hrefilled with
    | nil => rfl
    | kept hx later ih =>
      rw [replaceZeros_cons, if_neg hx, Option.bind_some, ih]
      rfl
    | replaced hattempts later ih =>
      rw [replaceZeros_cons, if_pos rfl, (nonZero_reads.outcome _ _ _).mpr ⟨_, hattempts, by
        rw [Trace.octets_append, List.append_assoc]⟩, Option.bind_some, ih]
      rfl

end Draw

namespace P256

lemma drawSecretKey_reads : drawSecretKey.Reads (Attempts .scalar fun b : Block 32 => SecretKey.ofNat? b.toNat) :=
  Draw.retry_reads .scalar _

/-- The point of a sender and the shared secret, unless the point is at infinity. -/
lemma agreeEphemeral_behaves {σ : Type} (recipient : PublicKey) :
    (agreeEphemeral recipient : Action σ (Block 64 × Block 32)).Behaves fun trace r =>
      ∃ sender, Attempts .scalar (fun b : Block 32 => SecretKey.ofNat? b.toNat) trace sender ∧
        r = sender.publicKey?.elim (.error (.crypto .pointEncoding)) fun pub =>
          .ok (pub.raw, sender.agree recipient) := by
  have hpoint (sender : SecretKey) : (do
      let raw ← Action.ofExcept (encodePoint sender.point)
      pure (raw, sender.agree recipient) : Action σ (Block 64 × Block 32)).Behaves fun trace r =>
        trace = [] ∧ r = sender.publicKey?.elim (.error (.crypto .pointEncoding)) fun pub =>
          .ok (pub.raw, sender.agree recipient) := by
    unfold encodePoint SecretKey.publicKey?
    cases PublicKey.ofPoint? sender.point with
    | none => exact Action.behaves_throw_bind _ _
    | some pub => exact Action.behaves_pure_bind _ (Action.behaves_pure _)
  refine (Action.behaves_draw_bind drawSecretKey_reads hpoint).congr fun trace r => ?_
  constructor
  · rintro ⟨sender, first, second, hsender, ⟨rfl, hr⟩, rfl⟩
    exact ⟨sender, by rwa [List.append_nil], hr⟩
  · rintro ⟨sender, hsender, hr⟩
    exact ⟨sender, trace, [], hsender, ⟨rfl, hr⟩, (List.append_nil trace).symm⟩

end P256

namespace Rsa

lemma drawFiller_reads : (drawFiller 349).Reads fun trace filler =>
    ∃ (block : Block 349) (later : Trace), Refilled block.octets later filler ∧
      trace = .drawn .filler block :: later := by
  have hreads : (drawFiller 349).Reads _ :=
    (Draw.block_reads .filler).andThen fun block => Draw.replaceZeros_reads block.octets
  refine hreads.congr fun trace filler => ?_
  constructor
  · rintro ⟨first, block, later, rfl, hrefilled, rfl⟩
    exact ⟨block, later, hrefilled, rfl⟩
  · rintro ⟨block, later, hrefilled, rfl⟩
    exact ⟨_, block, later, rfl, hrefilled, rfl⟩

lemma PublicKey.checkSize_eq_ok_iff {key : PublicKey} : key.checkSize = .ok () ↔ key.size = rsaModulusSize := by
  unfold checkSize
  split_ifs with h
  · exact ⟨fun _ => h, fun _ => rfl⟩
  · exact ⟨fun hok => (nomatch hok), fun hsize => absurd hsize h⟩

lemma PublicKey.length_encrypt {key : PublicKey} (h : key.checkSize = .ok ()) (filler message : Octets) :
    (key.encrypt filler message).length = 384 :=
  (Octets.length_ofNat _ _).trans (PublicKey.checkSize_eq_ok_iff.mp h)

lemma wrapped_behaves {σ : Type} {octets : Octets} (h : octets.length = 384) :
    (match Block.ofOctets? 384 octets with
      | some block => pure block
      | none => throw (.crypto (.wrappedLength octets.length)) : Action σ (Block 384)).Behaves
        fun trace r => trace = [] ∧ r = .ok ⟨octets, h⟩ := by
  rw [Block.ofOctets?, dif_pos h]
  exact Action.behaves_pure _

theorem wrap_behaves {σ : Type} (recipient : PublicKey) (key : Block 32) :
    (wrap recipient key : Action σ (Block 384)).Behaves (Wraps recipient key) := by
  unfold wrap
  cases hsize : recipient.checkSize with
  | error e =>
    refine (Action.behaves_throw_bind e _).congr fun trace r => ⟨?_, fun h => ?_⟩
    · rintro ⟨rfl, rfl⟩
      exact .missized hsize
    · cases h <;> simp_all
  | ok u =>
    refine Action.behaves_pure_bind u ?_
    cases hdefect : recipient.defect? with
    | some defect =>
      refine (Action.behaves_throw_bind _ _).congr fun trace r => ⟨?_, fun h => ?_⟩
      · rintro ⟨rfl, rfl⟩
        exact .unfit hsize hdefect
      · cases h <;> simp_all
    | none =>
      have hfiller : recipient.fillerLength key.octets.length = 349 := by
        rw [PublicKey.fillerLength, PublicKey.checkSize_eq_ok_iff.mp hsize, key.length_octets]
        rfl
      have hlength (filler : Octets) : (recipient.encrypt filler key.octets).length = 384 :=
        PublicKey.length_encrypt hsize _ _
      rw [hfiller]
      refine (Action.behaves_draw_bind drawFiller_reads fun filler => wrapped_behaves (hlength filler)).congr
        fun trace r => ⟨?_, fun h => ?_⟩
      · rintro ⟨filler, _, _, ⟨first, later, hrefilled, rfl⟩, ⟨rfl, rfl⟩, rfl⟩
        rw [List.append_nil]
        exact .wrapped hsize hdefect hrefilled rfl
      · cases h with
        | missized h => simp_all
        | unfit hsize h => simp_all
        | wrapped hsize hfit hfiller hwrapped =>
          exact ⟨_, _, [], ⟨_, _, hfiller, rfl⟩, ⟨rfl, congrArg Except.ok (Block.ext hwrapped)⟩,
            (List.append_nil _).symm⟩

end Rsa

/-- A content key is wrapped for a key that is fit for use, behind a filler without zeros. -/
lemma Wraps.spec {recipient : Rsa.PublicKey} {key : Block 32} {trace : Trace} {wrapped : Block 384}
    (h : Wraps recipient key trace (.ok wrapped)) : recipient.size = rsaModulusSize ∧ recipient.defect? = none ∧
      ∃ filler, filler.length = 349 ∧ (∀ x ∈ filler, x ≠ 0) ∧
        wrapped.octets = recipient.encrypt filler key.octets := by
  cases h with
  | @wrapped first filler wrapped later hsize hfit hfiller hwrapped =>
    obtain ⟨hlen, hne⟩ := hfiller.spec
    exact ⟨Rsa.PublicKey.checkSize_eq_ok_iff.mp hsize, hfit, filler, hlen.trans first.length_octets, hne, hwrapped⟩

end SealedImage
