import Mathlib.Tactic.Common
import SealedImage.Pem.Armor

/-!
# Armored text is read back

Base64 undoes itself (`decode?_encode`), also line by line, since a line holds whole groups. A document that is
written under a label is read as it was (`Armor.read?_write`).
-/

namespace SealedImage.Pem

section Base64

lemma digitValue?_digitChar {n : Nat} (h : n < 64) : digitValue? (digitChar n) = some n := by
  have hall : ∀ m ∈ List.range 64, digitValue? (digitChar m) = some m := by decide
  exact hall n (List.mem_range.mpr h)

/-- A character of base64 text that is no padding. -/
def IsDigit (c : Char) : Prop :=
  ∃ n < 64, c = digitChar n

lemma isDigit_digitChar {n : Nat} (h : n < 64) : IsDigit (digitChar n) :=
  ⟨n, h, rfl⟩

lemma IsDigit.plain {c : Char} (h : IsDigit c) : c ≠ '=' ∧ c ≠ '\n' ∧ c ≠ '\r' ∧ c ≠ '-' := by
  obtain ⟨n, hn, rfl⟩ := h
  have hall : ∀ m ∈ List.range 64, digitChar m ≠ '=' ∧ digitChar m ≠ '\n' ∧ digitChar m ≠ '\r' ∧
      digitChar m ≠ '-' := by decide
  exact hall n (List.mem_range.mpr hn)

lemma dvd_length_group {a b c : UInt8} {rest : Octets} : 3 ∣ (a :: b :: c :: rest).length ↔ 3 ∣ rest.length := by
  simp only [List.length_cons]
  omega

/-- Whole groups of octets are taken apart group by group. -/
theorem groups_induction {motive : (xs : Octets) → 3 ∣ xs.length → Prop} (nil : motive [] (Nat.dvd_zero 3))
    (group : ∀ a b c rest (h : 3 ∣ rest.length), motive rest h →
      motive (a :: b :: c :: rest) (dvd_length_group.mpr h))
    (xs : Octets) (h : 3 ∣ xs.length) : motive xs h := by
  induction xs using encode.induct with
  | case1 => exact nil
  | case2 a => simp at h
  | case3 a b => simp at h
  | case4 a b c rest ih =>
    have hrest : 3 ∣ rest.length := dvd_length_group.mp h
    exact group a b c rest hrest (ih hrest)

lemma encode_append {xs : Octets} (h : 3 ∣ xs.length) (ys : Octets) :
    encode (xs ++ ys) = encode xs ++ encode ys := by
  induction xs, h using groups_induction with
  | nil => rfl
  | group a b c rest h ih =>
    rw [encode, List.cons_append, List.cons_append, List.cons_append, encode, ih]
    rfl

lemma length_encode (xs : Octets) : (encode xs).length = 4 * ((xs.length + 2) / 3) := by
  induction xs using encode.induct with
  | case1 => rfl
  | case2 a => simp [encode]
  | case3 a b => simp [encode]
  | case4 a b c rest ih =>
    simp only [encode, List.length_cons, ih]
    omega

/-- Whole groups of octets are text without padding. -/
lemma isDigit_of_mem_encode {xs : Octets} (h : 3 ∣ xs.length) : ∀ c ∈ encode xs, IsDigit c := by
  induction xs, h using groups_induction with
  | nil => simp [encode]
  | group a b c rest h ih =>
    have ha := a.toNat_lt
    have hb := b.toNat_lt
    have hc := c.toNat_lt
    intro d hd
    simp only [encode, List.mem_cons] at hd
    rcases hd with rfl | rfl | rfl | rfl | hd
    · exact isDigit_digitChar (by omega)
    · exact isDigit_digitChar (by omega)
    · exact isDigit_digitChar (by omega)
    · exact isDigit_digitChar (by omega)
    · exact ih d hd

theorem decodeGroups?_encode {xs : Octets} (h : 3 ∣ xs.length) : decodeGroups? (encode xs) = some xs := by
  induction xs, h using groups_induction with
  | nil => rfl
  | group a b c rest h ih =>
    have ha := a.toNat_lt
    have hb := b.toNat_lt
    have hc := c.toNat_lt
    obtain ⟨n, hn⟩ : ∃ n, n = (a.toNat * 256 + b.toNat) * 256 + c.toNat := ⟨_, rfl⟩
    have hsum : ((n / 262144 * 64 + n / 4096 % 64) * 64 + n / 64 % 64) * 64 + n % 64 = n := by omega
    have hocts : UInt8.ofNat (n / 65536) = a ∧ UInt8.ofNat (n / 256) = b ∧ UInt8.ofNat n = c := by
      refine ⟨?_, ?_, ?_⟩ <;> apply UInt8.toNat.inj <;> rw [UInt8.toNat_ofNat'] <;> omega
    simp only [encode, ← hn, decodeGroups?, digitValue?_digitChar (show n / 262144 < 64 by omega),
      digitValue?_digitChar (show n / 4096 % 64 < 64 by omega),
      digitValue?_digitChar (show n / 64 % 64 < 64 by omega), digitValue?_digitChar (show n % 64 < 64 by omega), ih,
      Option.bind_eq_bind, Option.bind_some, hsum, hocts]

/-- One or two octets are text of one padded group. -/
lemma decodePadded?_encode {xs : Octets} (hne : xs ≠ []) (h : xs.length < 3) :
    decodePadded? (encode xs) = some xs := by
  match xs with
  | [] => exact absurd rfl hne
  | [a] =>
    have ha := a.toNat_lt
    obtain ⟨n, hn⟩ : ∃ n, n = a.toNat * 16 := ⟨_, rfl⟩
    have hsum : n / 64 * 64 + n % 64 = n := by omega
    have hocts : UInt8.ofNat (n / 16) = a := by
      apply UInt8.toNat.inj
      rw [UInt8.toNat_ofNat']
      omega
    simp only [encode, ← hn, decodePadded?, digitValue?_digitChar (show n / 64 < 64 by omega),
      digitValue?_digitChar (show n % 64 < 64 by omega), Option.bind_eq_bind, Option.bind_some, hsum,
      show n % 16 = 0 by omega, if_true, hocts]
  | [a, b] =>
    have ha := a.toNat_lt
    have hb := b.toNat_lt
    obtain ⟨n, hn⟩ : ∃ n, n = (a.toNat * 256 + b.toNat) * 4 := ⟨_, rfl⟩
    have hsum : (n / 4096 * 64 + n / 64 % 64) * 64 + n % 64 = n := by omega
    have hocts : UInt8.ofNat (n / 1024) = a ∧ UInt8.ofNat (n / 4) = b := by
      refine ⟨?_, ?_⟩ <;> apply UInt8.toNat.inj <;> rw [UInt8.toNat_ofNat'] <;> omega
    have hdigit : digitChar (n % 64) ≠ '=' := (isDigit_digitChar (show n % 64 < 64 by omega)).plain.1
    simp only [encode, ← hn]
    rw [decodePadded?]
    · simp only [digitValue?_digitChar (show n / 4096 < 64 by omega),
        digitValue?_digitChar (show n / 64 % 64 < 64 by omega), digitValue?_digitChar (show n % 64 < 64 by omega),
        Option.bind_eq_bind, Option.bind_some, hsum, show n % 4 = 0 by omega, if_true, hocts]
    · exact hdigit
  | a :: b :: c :: rest =>
    simp only [List.length_cons] at h
    omega

lemma getLast?_encode {xs : Octets} (hne : xs ≠ []) (h : xs.length < 3) : (encode xs).getLast? = some '=' := by
  match xs with
  | [] => exact absurd rfl hne
  | [a] => rfl
  | [a, b] => rfl
  | a :: b :: c :: rest =>
    simp only [List.length_cons] at h
    omega

/-- The whole groups, and what is left of the octets. -/
lemma exists_groups (xs : Octets) :
    ∃ head tail, xs = head ++ tail ∧ 3 ∣ head.length ∧ tail.length < 3 := by
  refine ⟨xs.take (xs.length / 3 * 3), xs.drop (xs.length / 3 * 3), (List.take_append_drop _ _).symm, ?_, ?_⟩
  · rw [List.length_take, Nat.min_eq_left (Nat.div_mul_le_self _ _)]
    exact Nat.dvd_mul_left _ _
  · rw [List.length_drop]
    omega

/-- Base64 undoes itself. -/
theorem decode?_encode (xs : Octets) : decode? (encode xs) = some xs := by
  obtain ⟨head, tail, rfl, hhead, htail⟩ := exists_groups xs
  have htext : encode (head ++ tail) = encode head ++ encode tail := encode_append hhead tail
  unfold decode?
  dsimp only
  by_cases hnil : tail = []
  · rw [hnil, List.append_nil]
    have hlast : ((encode head).drop ((encode head).length - 4)).getLast? ≠ some '=' := by
      intro heq
      have hmem := List.mem_of_mem_drop (List.mem_of_getLast? heq)
      exact (isDigit_of_mem_encode hhead _ hmem).plain.1 rfl
    rw [if_neg hlast, decodeGroups?_encode hhead]
  · have hfour : (encode tail).length = 4 := by
      have hpos := List.length_pos_iff.mpr hnil
      rw [length_encode]
      omega
    have hlength : (encode (head ++ tail)).length - 4 = (encode head).length := by
      rw [htext, List.length_append, hfour, Nat.add_sub_cancel]
    have hdrop : (encode (head ++ tail)).drop ((encode (head ++ tail)).length - 4) = encode tail := by
      rw [hlength, htext, List.drop_left]
    have htake : (encode (head ++ tail)).take ((encode (head ++ tail)).length - 4) = encode head := by
      rw [hlength, htext, List.take_left]
    rw [hdrop, htake, if_pos (getLast?_encode hnil htail), decodeGroups?_encode hhead,
      decodePadded?_encode hnil htail]
    rfl

/-- Base64 text has digits and padding. -/
lemma isDigit_or_pad (xs : Octets) : ∀ c ∈ encode xs, IsDigit c ∨ c = '=' := by
  obtain ⟨head, tail, rfl, hhead, htail⟩ := exists_groups xs
  intro c hc
  rw [encode_append hhead] at hc
  rcases List.mem_append.mp hc with hc | hc
  · exact Or.inl (isDigit_of_mem_encode hhead c hc)
  · match tail with
    | [] => cases hc
    | [a] =>
      have ha := a.toNat_lt
      simp only [encode, List.mem_cons, List.not_mem_nil, or_false] at hc
      rcases hc with rfl | rfl | rfl | rfl
      · exact Or.inl (isDigit_digitChar (by omega))
      · exact Or.inl (isDigit_digitChar (by omega))
      · exact Or.inr rfl
      · exact Or.inr rfl
    | [a, b] =>
      have ha := a.toNat_lt
      have hb := b.toNat_lt
      simp only [encode, List.mem_cons, List.not_mem_nil, or_false] at hc
      rcases hc with rfl | rfl | rfl | rfl
      · exact Or.inl (isDigit_digitChar (by omega))
      · exact Or.inl (isDigit_digitChar (by omega))
      · exact Or.inl (isDigit_digitChar (by omega))
      · exact Or.inr rfl
    | a :: b :: d :: rest =>
      simp only [List.length_cons] at htail
      omega

/-- Base64 text has no line ends and no dashes. -/
lemma plain_of_mem_encode {xs : Octets} {c : Char} (h : c ∈ encode xs) : c ≠ '\n' ∧ c ≠ '\r' ∧ c ≠ '-' := by
  rcases isDigit_or_pad xs c h with hdigit | rfl
  · exact hdigit.plain.2
  · decide

end Base64

section Lines

lemma dropFinalLineEnd?_append {text : List Char} (h : text.getLast? ≠ some '\r') :
    dropFinalLineEnd? (text ++ ['\n']) = some text := by
  unfold dropFinalLineEnd?
  rw [List.reverse_append, List.reverse_singleton, List.singleton_append]
  cases hrev : text.reverse with
  | nil => simp [List.reverse_eq_nil_iff.mp hrev]
  | cons c rest =>
    have htext : text = (c :: rest).reverse := by rw [← hrev, List.reverse_reverse]
    have hc : c ≠ '\r' := by
      rintro rfl
      exact h (by rw [htext, List.getLast?_reverse]; rfl)
    rw [htext]
    split
    · rename_i heq
      exact absurd (List.cons.inj (List.cons.inj heq).2).1 hc
    · rename_i heq
      rw [(List.cons.inj heq).2]
    · rename_i heq
      cases (List.cons.inj heq).1
    · rename_i _ hother _
      exact absurd rfl (hother _)

lemma dropFinalLineEnd?_of_plain {text : List Char} (h : ∀ c ∈ text, c ≠ '\n' ∧ c ≠ '\r') :
    dropFinalLineEnd? text = none := by
  unfold dropFinalLineEnd?
  have hrev : ∀ c ∈ text.reverse, c ≠ '\n' ∧ c ≠ '\r' := fun c hc => h c (List.mem_reverse.mp hc)
  split
  · rename_i rest heq
    exact absurd rfl (hrev '\n' (heq ▸ List.mem_cons_self)).1
  · rename_i rest _ heq
    exact absurd rfl (hrev '\n' (heq ▸ List.mem_cons_self)).1
  · rename_i rest heq
    exact absurd rfl (hrev '\r' (heq ▸ List.mem_cons_self)).2
  · rfl

/-- The count of the lines that a text is cut into. -/
def lineCount (text : List Char) : Nat :=
  (text.length + lineWidth - 1) / lineWidth

/-- A line of octets that is not the last has a width of text. -/
lemma encode_line {xs : Octets} (h : 48 < xs.length) :
    encode xs = encode (xs.take 48) ++ encode (xs.drop 48) ∧ (encode (xs.take 48)).length = lineWidth := by
  have hlength : (xs.take 48).length = 48 := by
    rw [List.length_take]
    omega
  constructor
  · rw [← encode_append (by rw [hlength]; decide), List.take_append_drop]
  · rw [length_encode, hlength]
    rfl

lemma lineCount_of_short {text : List Char} (hne : text ≠ []) (h : text.length ≤ lineWidth) :
    lineCount text = 1 := by
  have hpos := List.length_pos_iff.mpr hne
  unfold lineCount lineWidth at *
  omega

lemma lineCount_append {line text : List Char} (h : line.length = lineWidth) :
    lineCount (line ++ text) = lineCount text + 1 := by
  unfold lineCount lineWidth at *
  rw [List.length_append]
  omega

lemma writeLines_append {line text : List Char} (h : line.length = lineWidth) (count : Nat) :
    Armor.writeLines (count + 1) (line ++ text) = line ++ '\n' :: Armor.writeLines count text := by
  rw [Armor.writeLines, ← h, List.take_left, List.drop_left]

lemma writeLines_of_short {text : List Char} (h : text.length ≤ lineWidth) :
    Armor.writeLines 1 text = text ++ ['\n'] := by
  rw [Armor.writeLines, List.take_of_length_le h]
  rfl

lemma mem_writeLines {c : Char} {count : Nat} {text : List Char} (h : c ∈ Armor.writeLines count text) :
    c ∈ text ∨ c = '\n' := by
  induction count generalizing text with
  | zero => cases h
  | succ count ih =>
    rw [Armor.writeLines, List.mem_append, List.mem_cons] at h
    rcases h with hline | rfl | hrest
    · exact Or.inl (List.mem_of_mem_take hline)
    · exact Or.inr rfl
    · exact (ih hrest).imp_left List.mem_of_mem_drop

lemma encode_ne_nil {xs : Octets} (h : xs ≠ []) : encode xs ≠ [] := by
  intro hnil
  have hlength := length_encode xs
  have hpos := List.length_pos_iff.mpr h
  rw [hnil, List.length_nil] at hlength
  omega

lemma linesUpTo_append {line body : List Char} (h : line.length = lineWidth) (hbody : body ≠ []) (fuel : Nat) :
    linesUpTo (fuel + 1) (line ++ '\n' :: body) = (linesUpTo fuel body).map (line :: ·) := by
  have hlong : ¬(line ++ '\n' :: body).length ≤ lineWidth := by
    rw [List.length_append, List.length_cons]
    omega
  rw [linesUpTo, if_neg hlong, List.drop_left' h, List.take_left' h]
  cases body with
  | nil => exact absurd rfl hbody
  | cons c body => rfl

lemma decodeLines?_cons {line : List Char} {lines : List (List Char)} (hne : lines ≠ []) {xs ys : Octets}
    (hline : decodeGroups? line = some xs) (hlines : decodeLines? lines = some ys) :
    decodeLines? (line :: lines) = some (xs ++ ys) := by
  cases lines with
  | nil => exact absurd rfl hne
  | cons next lines =>
    rw [decodeLines?, hline, hlines]
    · rfl
    · simp

/-- The lines of base64 text, without the last line end, are found again and decoded. -/
lemma exists_lines {xs : Octets} (hne : xs ≠ []) :
    ∃ body lines, Armor.writeLines (lineCount (encode xs)) (encode xs) = body ++ ['\n'] ∧
      body ≠ [] ∧ body.getLast? ≠ some '\r' ∧ lineCount (encode xs) ≤ body.length ∧
      (∀ fuel, lineCount (encode xs) ≤ fuel → linesUpTo fuel body = some lines) ∧ lines ≠ [] ∧
      decodeLines? lines = some xs := by
  induction hcount : lineCount (encode xs) generalizing xs with
  | zero =>
    have hpos := List.length_pos_iff.mpr (encode_ne_nil hne)
    unfold lineCount lineWidth at hcount
    omega
  | succ count ih =>
    have hplain : ∀ c ∈ encode xs, c ≠ '\n' ∧ c ≠ '\r' := fun c hc =>
      ⟨(plain_of_mem_encode hc).1, (plain_of_mem_encode hc).2.1⟩
    by_cases hlast : (encode xs).length ≤ lineWidth
    · rw [lineCount_of_short (encode_ne_nil hne) hlast] at hcount
      refine ⟨encode xs, [encode xs], ?_, encode_ne_nil hne, ?_, ?_, fun fuel hfuel => ?_, List.cons_ne_nil _ _,
        decode?_encode xs⟩
      · rw [← hcount, writeLines_of_short hlast]
      · exact fun h => (hplain _ (List.mem_of_getLast? h)).2 rfl
      · rw [← hcount]
        exact List.length_pos_iff.mpr (encode_ne_nil hne)
      · obtain ⟨fuel, rfl⟩ := Nat.exists_eq_add_of_le' (Nat.le_trans (Nat.le_add_left 1 count) hfuel)
        rw [linesUpTo, if_pos hlast, dropFinalLineEnd?_of_plain hplain]
        rfl
    · -- the first line is followed by another one
      have hlong : 48 < xs.length := by
        rw [length_encode] at hlast
        unfold lineWidth at hlast
        omega
      have hdrop : xs.drop 48 ≠ [] := by
        rw [ne_eq, List.drop_eq_nil_iff]
        omega
      have hgroups : 3 ∣ (xs.take 48).length := by
        rw [List.length_take, Nat.min_eq_left (Nat.le_of_lt hlong)]
        decide
      obtain ⟨hsplit, hwidth⟩ := encode_line hlong
      rw [hsplit, lineCount_append hwidth] at hcount
      obtain ⟨body, lines, hwrite, hbody, hcr, hsize, hlines, hnonempty, hdecode⟩ :=
        ih hdrop (Nat.succ.inj hcount)
      refine ⟨encode (xs.take 48) ++ '\n' :: body, encode (xs.take 48) :: lines, ?_, by simp, ?_, ?_,
        fun fuel hfuel => ?_, List.cons_ne_nil _ _, ?_⟩
      · rw [hsplit, writeLines_append hwidth, hwrite]
        simp
      · rw [List.getLast?_append, List.getLast?_cons_of_ne_nil hbody]
        cases hc : body.getLast? with
        | none => exact absurd (List.getLast?_eq_none_iff.mp hc) hbody
        | some c => rwa [hc] at hcr
      · rw [List.length_append, List.length_cons]
        omega
      · obtain ⟨fuel, rfl⟩ := Nat.exists_eq_add_of_le' (Nat.le_trans (Nat.le_add_left 1 count) hfuel)
        rw [linesUpTo_append hwidth hbody, hlines fuel (Nat.le_of_succ_le_succ hfuel)]
        rfl
      · rw [decodeLines?_cons hnonempty (decodeGroups?_encode hgroups) hdecode, List.take_append_drop]

end Lines

section Marks

lemma dropStart?_append (start text : List Char) : dropStart? start (start ++ text) = some text := by
  unfold dropStart?
  rw [if_pos (by simp), List.drop_left]

lemma dropEnd?_append (text tail : List Char) : dropEnd? tail (text ++ tail) = some text := by
  unfold dropEnd?
  rw [List.reverse_append, dropStart?_append, Option.map_some, List.reverse_reverse]

/-- A label, as it stands in front of a dash. -/
def IsLabel (label : List Char) : Prop :=
  splitLabel false (label ++ ['-']) = (label, ['-'])

instance (label : List Char) : Decidable (IsLabel label) :=
  inferInstanceAs (Decidable (_ = _))

/-- Where a label ends is settled by the dash that follows it. -/
lemma splitLabel_of_dash {blank : Bool} {label rest : List Char}
    (h : splitLabel blank (label ++ '-' :: rest) = (label, '-' :: rest)) (other : List Char) :
    splitLabel blank (label ++ '-' :: other) = (label, '-' :: other) := by
  induction label generalizing blank with
  | nil => simp [splitLabel, isLabelChar]
  | cons c label ih =>
    rw [List.cons_append, splitLabel] at h ⊢
    dsimp only at h ⊢
    split_ifs at h ⊢ with hchar hblank
    · obtain ⟨hlabel, hrest⟩ := Prod.mk.inj h
      rw [ih (Prod.ext (List.cons.inj hlabel).2 hrest)]
    · obtain ⟨hlabel, hrest⟩ := Prod.mk.inj h
      rw [ih (Prod.ext (List.cons.inj hlabel).2 hrest)]
    · cases (Prod.mk.inj h).1

end Marks

namespace Armor

/-- The line that begins a document. -/
def beginLine (label : List Char) : List Char :=
  beginMark ++ label ++ dashes

/-- The line that ends a document. -/
def endLine (label : List Char) : List Char :=
  endMark ++ label ++ dashes

/-- A document has a line that begins it, lines without dashes, and a line that ends it. -/
lemma exists_write_eq (a : Armor) (hne : a.contents ≠ []) :
    ∃ body, '-' ∉ body ∧ a.write = beginLine a.label ++ '\n' :: (body ++ '\n' :: (endLine a.label ++ ['\n'])) := by
  obtain ⟨body, lines, hwrite, -⟩ := exists_lines hne
  refine ⟨body, fun hdash => ?_, ?_⟩
  · have hmem : '-' ∈ writeLines (lineCount (encode a.contents)) (encode a.contents) :=
      hwrite ▸ List.mem_append_left _ hdash
    rcases mem_writeLines hmem with htext | hlf
    · exact (plain_of_mem_encode htext).2.2 rfl
    · cases hlf
  · have hlines : body ++ '\n' :: (endLine a.label ++ ['\n']) = (body ++ ['\n']) ++ (endLine a.label ++ ['\n']) := by
      simp
    rw [hlines, ← hwrite]
    simp only [write, lineCount, beginLine, endLine, List.append_assoc]

/-- A document is read from its label and from what its lines hold. -/
lemma read?_of_lines {label start inner body : List Char} {lines : List (List Char)} {xs : Octets}
    (hlabel : IsLabel label)
    (hstart : dropLineEnd? (start ++ (inner ++ endLine label ++ ['\n'])) = some (inner ++ endLine label ++ ['\n']))
    (hbody : dropFinalLineEnd? inner = some body) (hlines : lines? body = some lines)
    (hdecode : decodeLines? lines = some xs) :
    read? (beginLine label ++ start ++ inner ++ endLine label ++ ['\n']) = some ⟨label, xs⟩ := by
  have hdocument : beginLine label ++ start ++ inner ++ endLine label ++ ['\n'] =
      beginMark ++ (label ++ '-' :: ("----".toList ++ (start ++ (inner ++ endLine label ++ ['\n'])))) := by
    simp only [beginLine, List.append_assoc]
    rfl
  have hpreamble (text : List Char) : dropPreamble? (beginMark ++ text) = some (beginMark ++ text) := rfl
  have hbegin (text : List Char) : dropStart? dashes ('-' :: ("----".toList ++ text)) = some text :=
    dropStart?_append dashes text
  have hend : dropFinalLineEnd? (inner ++ endLine label ++ ['\n']) = some (inner ++ endMark ++ label ++ dashes) := by
    rw [endLine, ← List.append_assoc, ← List.append_assoc]
    apply dropFinalLineEnd?_append
    rw [List.getLast?_append, show dashes.getLast? = some '-' from rfl, Option.some_or]
    decide
  unfold read?
  rw [hdocument, hpreamble]
  simp only [Option.bind_eq_bind, Option.bind_some, List.drop_left, splitLabel_of_dash hlabel, hbegin, hstart, hend,
    Option.getD_some, dropEnd?_append, hbody, hlines, hdecode]

/-- A document that was written is read as it was. -/
theorem read?_write {a : Armor} (hlabel : IsLabel a.label) (hne : a.contents ≠ []) :
    read? a.write = some a := by
  obtain ⟨body, lines, hwrite, -, hcr, hsize, hlines, -, hdecode⟩ := exists_lines hne
  have hdocument : a.write = beginLine a.label ++ ['\n'] ++ (body ++ ['\n']) ++ endLine a.label ++ ['\n'] := by
    rw [← hwrite]
    simp only [write, lineCount, beginLine, endLine, List.append_assoc]
    rfl
  have hfound : lines? body = some lines := hlines _ (Nat.le_succ_of_le hsize)
  rw [hdocument]
  exact read?_of_lines hlabel rfl (dropFinalLineEnd?_append hcr) hfound hdecode

end Armor

end SealedImage.Pem
