import Mathlib.Tactic.Common
import SealedImage.Proofs.Authenticity
import SealedImage.Proofs.Grammar

/-!
# The first octets of a source

A count of octets is taken from the start of what a source delivers, with a fault if that is shorter
(`Source.take_eq`), and nothing that comes later has a part in it (`Source.take_append`). So `sniff` knows a source by
its first four octets, or by the fault in place of them, and judges them as the whole image is judged.
-/

namespace SealedImage

namespace Source

/-- What is taken is a start of what is delivered; where it falls short, it is for the fault or for the end. -/
theorem take_eq (n : Nat) (source : Source) : source.take n = (source.delivered.take n,
    if n ≤ source.delivered.length then none else some (source.fault?.getD .unexpectedEnd)) := by
  fun_induction take n source with
  | case1 => simp [delivered]
  | case2 n hn => simp [delivered, fault?, hn]
  | case3 x xs rest => simp
  | case4 n x xs rest hn got more fault hmore ih =>
    obtain ⟨rfl, rfl⟩ := Prod.mk.inj (hmore.symm.trans ih)
    have hall : delivered (.octets x xs :: rest) = (x :: xs) ++ delivered rest := rfl
    have hlength : got.length = min n (x :: xs).length := List.length_take
    rw [hall, List.take_append, List.length_append, fault?]
    refine Prod.ext ?_ ?_
    · have hcount : n - got.length = n - (x :: xs).length := by omega
      dsimp only
      rw [hcount]
    · have hiff : n - got.length ≤ (delivered rest).length ↔ n ≤ (x :: xs).length + (delivered rest).length := by
        omega
      simp only [hiff]
  | case5 rest => simp
  | case6 n rest hn ih => exact ih
  | case7 fault rest => simp
  | case8 n fault rest hn => simp [delivered, fault?, hn]

lemma delivered_isPrefix (source later : Source) : source.delivered <+: delivered (source ++ later) := by
  induction source with
  | nil => exact List.nil_prefix
  | cons delivery source ih =>
    cases delivery with
    | octets x xs => exact (List.prefix_append_right_inj (x :: xs)).mpr ih
    | interrupted => exact ih
    | failed fault => exact List.nil_prefix

/-- What comes behind the octets that are asked for is not met. -/
lemma take_append {n : Nat} {source : Source} (h : n ≤ source.delivered.length) (later : Source) :
    take n (source ++ later) = source.take n := by
  obtain ⟨rest, hrest⟩ := source.delivered_isPrefix later
  have hlong : n ≤ (delivered (source ++ later)).length := by
    rw [← hrest, List.length_append]
    omega
  rw [take_eq, take_eq, if_pos h, if_pos hlong, ← hrest, List.take_append_of_le_length h]

end Source

section Sniff

variable {source : Source} {xs : Octets} {found : UInt32}

lemma sniff_of_long (h : 4 ≤ source.delivered.length) :
    sniff source = (Header.checkMagic (source.delivered.take 4), 4) := by
  have htake : source.take Layout.magic.size = (source.delivered.take 4, none) := by
    rw [Source.take_eq]
    exact Prod.ext rfl (if_pos h)
  rw [sniff, htake]
  dsimp only
  rw [List.length_take_of_le h]

/-- Less than four octets end in a fault, which is the end of the input if the source does not fail. -/
lemma sniff_of_short (h : source.delivered.length < 4) : sniff source =
    (.error (if (source.fault?.getD .unexpectedEnd).isUnexpectedEnd then .header .noMagic
      else .io (source.fault?.getD .unexpectedEnd)), source.delivered.length) := by
  have htake : source.take Layout.magic.size =
      (source.delivered, some (source.fault?.getD .unexpectedEnd)) := by
    rw [Source.take_eq]
    exact Prod.ext (List.take_of_length_le h.le) (if_neg (Nat.not_le.mpr h))
  rw [sniff, htake]
  dsimp only
  split_ifs <;> rfl

lemma sniff_of_ended (hread : source.readAll = .ok xs) (h : xs.length < 4) :
    sniff source = (.error (.header .noMagic), xs.length) := by
  obtain ⟨hfault, rfl⟩ := Source.readAll_eq_ok_iff.mp hread
  rw [sniff_of_short h, hfault]
  rfl

lemma sniff_of_readAll (hread : source.readAll = .ok xs) (h : 4 ≤ xs.length) :
    sniff source = (Header.checkMagic (xs.take 4), 4) := by
  obtain ⟨-, rfl⟩ := Source.readAll_eq_ok_iff.mp hread
  exact sniff_of_long h

/-- Any source that delivers the same first octets is judged in the same way. -/
lemma sniff_eq_ofOctets (h : 4 ≤ source.delivered.length) :
    sniff source = sniff (.ofOctets (source.delivered.take 4)) := by
  have hlength : (source.delivered.take 4).length = 4 := List.length_take_of_le h
  rw [sniff_of_long h, sniff_of_readAll (Source.readAll_ofOctets _) hlength.ge, List.take_take, Nat.min_self]

lemma checkMagic_eq_ok_iff (h : 4 ≤ xs.length) :
    Header.checkMagic (xs.take 4) = .ok () ↔ xs.take 4 = magicOctets := by
  rw [← Header.magic_iff (List.length_take_of_le h), Header.checkMagic]
  split_ifs with hmagic <;> simp [hmagic, pure, Except.pure]

lemma checkMagic_eq_error_iff (h : 4 ≤ xs.length) {e : Failure} : Header.checkMagic (xs.take 4) = .error e ↔
    xs.take 4 ≠ magicOctets ∧ e = .invalidMagic (Octets.toWordLE (xs.take 4)) := by
  rw [Ne, ← checkMagic_eq_ok_iff h, Header.checkMagic]
  split_ifs <;> simp [pure, Except.pure, throw, throwThe, MonadExceptOf.throw, eq_comm]

/-- A wrong magic number is all that the first octets are refused for. -/
lemma Header.parse_eq_invalidMagic_iff : parse xs = .error (.invalidMagic found) ↔
    4 ≤ xs.length ∧ checkMagic (xs.take 4) = .error (.invalidMagic found) := by
  constructor
  · intro h
    rcases parse_eq_error h with ⟨hlong, hne, he⟩ | ⟨-, -, fault, he⟩
    · exact ⟨hlong, (checkMagic_eq_error_iff hlong).mpr ⟨hne, he⟩⟩
    · cases he
  · rintro ⟨hlong, h⟩
    obtain ⟨hne, he⟩ := (checkMagic_eq_error_iff hlong).mp h
    rw [he]
    exact parse_of_magic hlong fun hmagic => hne ((magic_iff (List.length_take_of_le hlong)).mp hmagic)

lemma Header.parse_ne_invalidMagic_iff (h : 4 ≤ xs.length) :
    (∀ found, parse xs ≠ .error (.invalidMagic found)) ↔ xs.take 4 = magicOctets := by
  constructor
  · intro hne
    by_contra hmagic
    exact hne _ (parse_eq_invalidMagic_iff.mpr ⟨h, (checkMagic_eq_error_iff h).mpr ⟨hmagic, rfl⟩⟩)
  · intro hmagic found hparse
    exact ((checkMagic_eq_error_iff h).mp (parse_eq_invalidMagic_iff.mp hparse).2).1 hmagic

lemma sniff_eq_invalidMagic_iff (hread : source.readAll = .ok xs) :
    (sniff source).1 = .error (.invalidMagic found) ↔ Header.parse xs = .error (.invalidMagic found) := by
  rw [Header.parse_eq_invalidMagic_iff]
  rcases Nat.lt_or_ge xs.length 4 with hshort | hlong
  · rw [sniff_of_ended hread hshort]
    constructor
    · intro h
      cases h
    · rintro ⟨hlong, -⟩
      omega
  · rw [sniff_of_readAll hread hlong]
    exact ⟨fun h => ⟨hlong, h⟩, And.right⟩

lemma sniff_eq_header_iff (hread : source.readAll = .ok xs) :
    (∃ fault, (sniff source).1 = .error (.header fault)) ↔ xs.length < 4 := by
  constructor
  · rintro ⟨fault, h⟩
    by_contra hlong
    rw [sniff_of_readAll hread (Nat.le_of_not_lt hlong), checkMagic_eq_error_iff (Nat.le_of_not_lt hlong)] at h
    cases h.2
  · intro hshort
    exact ⟨.noMagic, by rw [sniff_of_ended hread hshort]⟩

lemma sniff_eq_ok_iff (hread : source.readAll = .ok xs) :
    (sniff source).1 = .ok () ↔ 4 ≤ xs.length ∧ xs.take 4 = magicOctets := by
  rcases Nat.lt_or_ge xs.length 4 with hshort | hlong
  · rw [sniff_of_ended hread hshort]
    constructor
    · intro h
      cases h
    · rintro ⟨hlong, -⟩
      omega
  · rw [sniff_of_readAll hread hlong, checkMagic_eq_ok_iff hlong]
    exact ⟨fun h => ⟨hlong, h⟩, And.right⟩

/-- What is rejected by its first octets is no image, for a reason of the same category. -/
lemma Container.ofOctets_of_sniff_error (hread : source.readAll = .ok xs) {e : Failure}
    (h : (sniff source).1 = .error e) : ∃ e', ofOctets xs = .error e' ∧ e'.category = e.category := by
  rcases Nat.lt_or_ge xs.length 4 with hshort | hlong
  · have hparse : Header.parse xs = .error (.header (.tooShort xs.length)) := if_pos hshort
    rw [sniff_of_ended hread hshort] at h
    obtain rfl := Except.error.inj h
    exact ⟨_, ofOctets_of_parse hparse, rfl⟩
  · rw [sniff_of_readAll hread hlong] at h
    obtain ⟨-, rfl⟩ := (checkMagic_eq_error_iff hlong).mp h
    exact ⟨_, ofOctets_of_parse (Header.parse_eq_invalidMagic_iff.mpr ⟨hlong, h⟩), rfl⟩

lemma Container.category_of_sniff_ok (hread : source.readAll = .ok xs) (h : (sniff source).1 = .ok ()) {e : Failure}
    (he : ofOctets xs = .error e) : e.category = .header := by
  obtain ⟨-, hmagic⟩ := (sniff_eq_ok_iff hread).mp h
  rcases ofOctets_eq_error he with ⟨-, hne, -⟩ | ⟨-, fault, rfl⟩
  · exact absurd hmagic hne
  · rfl

end Sniff

/-- The judgement of the first octets agrees with that of the whole. However the octets are delivered, at most four of
them are taken. A wrong magic number is found if and only if the header is refused for it, too few octets are a fault
of the header, and all else is accepted. So what is rejected is rejected as an image, for a reason of the same
category, and of what is accepted only the header can be at fault. A source that fails before the fourth octet is
rejected with its fault, unless that says that the input has ended; one that delivers four octets is judged by them,
whatever comes later. -/
theorem sniff_agrees_with_parse :
    (∀ (source : Source) (xs : Octets), source.readAll = .ok xs →
      (sniff source).2 = min 4 xs.length ∧
      (∀ found, (sniff source).1 = .error (.invalidMagic found) ↔ Header.parse xs = .error (.invalidMagic found)) ∧
      ((∃ fault, (sniff source).1 = .error (.header fault)) ↔ xs.length < 4) ∧
      ((sniff source).1 = .ok () ↔ 4 ≤ xs.length ∧ ∀ found, Header.parse xs ≠ .error (.invalidMagic found)) ∧
      ∀ {σ : Type} (other : Source) (s : Session σ), other.readAll = .ok xs →
        (∀ e, (sniff source).1 = .error e →
          ∃ e', (readContainer other).outcome s = some (.error e', s) ∧ e'.category = e.category) ∧
        ((sniff source).1 = .ok () →
          ∀ e t, (readContainer other).outcome s = some (.error e, t) → e.category = .header)) ∧
    (∀ (source : Source) fault, source.fault? = some fault → source.delivered.length < 4 →
      sniff source = (.error (if fault.isUnexpectedEnd then .header .noMagic else .io fault),
        source.delivered.length)) ∧
    (∀ source : Source, 4 ≤ source.delivered.length →
      sniff source = sniff (.ofOctets (source.delivered.take 4)) ∧
        ∀ later, sniff (source ++ later) = sniff source) ∧
    ∀ source, (sniff source).2 ≤ 4 := by
  refine ⟨fun source xs hread => ?_, fun source fault hfault h => ?_,
    fun source h => ⟨sniff_eq_ofOctets h, fun later => ?_⟩, fun source => ?_⟩
  · refine ⟨?_, fun found => sniff_eq_invalidMagic_iff hread, sniff_eq_header_iff hread, ?_,
      fun other s hother => ⟨fun e h => ?_, fun h e t hrun => ?_⟩⟩
    · have htake : (sniff source).2 = (source.take Layout.magic.size).1.length := rfl
      rw [htake, Source.take_eq, (Source.readAll_eq_ok_iff.mp hread).2]
      exact List.length_take
    · rw [sniff_eq_ok_iff hread]
      exact and_congr_right fun hlong => (Header.parse_ne_invalidMagic_iff hlong).symm
    · obtain ⟨e', he', hcategory⟩ := Container.ofOctets_of_sniff_error hread h
      exact ⟨e', by rw [readContainer_outcome hother, he'], hcategory⟩
    · rw [readContainer_outcome hother] at hrun
      cases hc : Container.ofOctets xs with
      | ok container => simp [hc] at hrun
      | error e' =>
        obtain ⟨rfl, -⟩ : e' = e ∧ s = t := by simpa [hc] using hrun
        exact Container.category_of_sniff_ok hread h hc
  · rw [sniff_of_short h, hfault]
    rfl
  · rw [sniff, Layout.magic, Source.take_append h, sniff]
    rfl
  · have htake : (sniff source).2 = (source.take Layout.magic.size).1.length := rfl
    rw [htake, Source.take_eq]
    exact List.length_take_le 4 source.delivered

/-- The octets of the magic number in three reads, with an interruption between them and a fault behind them. -/
def sampleDeliveries : Source :=
  [.octets 0xcf [0xb6], .interrupted, .octets 0x88 [], .octets 0x07 [1], .failed .busy]

theorem sniff_agrees_with_parse_sample :
    sniff sampleDeliveries = (.ok (), 4) ∧
    sniff [.octets 0xcf [0xb6], .failed .busy] = (.error (.io .busy), 2) ∧
    sniff [.octets 0xcf [0xb6], .failed (.reported true "")] = (.error (.header .noMagic), 2) ∧
    (sniff [.octets 1 [], .interrupted, .octets 0 [0, 0]]).1 = .error (.invalidMagic 1) ∧
    ∀ s : Session Unit, ∃ e, (readContainer (.ofOctets [1, 0, 0, 0])).outcome s = some (.error e, s) ∧
      e.category = .invalidMagic := by
  obtain ⟨hagree, hfault, hlong, -⟩ := sniff_agrees_with_parse
  have hread : Source.readAll [.octets 1 [], .interrupted, .octets 0 [0, 0]] = .ok [1, 0, 0, 0] := rfl
  have hrejected : (sniff [.octets 1 [], .interrupted, .octets 0 [0, 0]]).1 = .error (.invalidMagic 1) :=
    ((hagree _ _ hread).2.1 1).mpr rfl
  refine ⟨?_, hfault [.octets 0xcf [0xb6], .failed .busy] .busy rfl (by decide),
    hfault [.octets 0xcf [0xb6], .failed (.reported true "")] _ rfl (by decide), hrejected, fun s => ?_⟩
  · rw [(hlong sampleDeliveries (by decide)).1]
    rfl
  · obtain ⟨e, hrun, hcategory⟩ :=
      ((hagree _ _ hread).2.2.2.2 (.ofOctets [1, 0, 0, 0]) s (Source.readAll_ofOctets _)).1 _ hrejected
    exact ⟨e, hrun, hcategory⟩

end SealedImage
