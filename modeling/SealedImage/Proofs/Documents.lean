import Mathlib.Tactic.Common
import SealedImage.Proofs.Armor

/-!
# The parts of a document

A text that is read as a document falls into parts: whole lines in front of it, the line that begins it, the lines of
the body, the line that ends it and perhaps a line end. The label and the body have no dashes, so no mark stands in
them. Only the part between the first and the last dash matters to what is read (`Armor.exists_parts`).
-/

namespace SealedImage.Pem

section Base64

lemma digitValue?_dash : digitValue? '-' = none := by decide

lemma dash_notMem_of_decodeGroups? {text : List Char} {xs : Octets} (h : decodeGroups? text = some xs) :
    '-' ∉ text := by
  fun_induction decodeGroups? text generalizing xs with
  | case1 => simp
  | case2 w x y z rest ih =>
    simp only [Option.bind_eq_bind, Option.bind_eq_some_iff] at h
    obtain ⟨w', hw, x', hx, y', hy, z', hz, ys, hys, -⟩ := h
    intro hmem
    simp only [List.mem_cons] at hmem
    rcases hmem with rfl | rfl | rfl | rfl | hmem
    · simp [digitValue?_dash] at hw
    · simp [digitValue?_dash] at hx
    · simp [digitValue?_dash] at hy
    · simp [digitValue?_dash] at hz
    · exact ih hys hmem
  | case3 => cases h

lemma dash_notMem_of_decodePadded? {text : List Char} {xs : Octets} (h : decodePadded? text = some xs) :
    '-' ∉ text := by
  unfold decodePadded? at h
  split at h
  · simp only [Option.bind_eq_bind, Option.bind_eq_some_iff] at h
    obtain ⟨w', hw, x', hx, -⟩ := h
    intro hmem
    simp only [List.mem_cons, List.not_mem_nil, or_false] at hmem
    rcases hmem with rfl | rfl | hmem | hmem
    · simp [digitValue?_dash] at hw
    · simp [digitValue?_dash] at hx
    · cases hmem
    · cases hmem
  · simp only [Option.bind_eq_bind, Option.bind_eq_some_iff] at h
    obtain ⟨w', hw, x', hx, y', hy, -⟩ := h
    intro hmem
    simp only [List.mem_cons, List.not_mem_nil, or_false] at hmem
    rcases hmem with rfl | rfl | rfl | hmem
    · simp [digitValue?_dash] at hw
    · simp [digitValue?_dash] at hx
    · simp [digitValue?_dash] at hy
    · cases hmem
  · cases h

lemma dash_notMem_of_decode? {text : List Char} {xs : Octets} (h : decode? text = some xs) : '-' ∉ text := by
  unfold decode? at h
  dsimp only at h
  split_ifs at h
  · simp only [Option.bind_eq_bind, Option.bind_eq_some_iff] at h
    obtain ⟨ys, hgroups, zs, hlast, -⟩ := h
    rw [← List.take_append_drop (text.length - 4) text, List.mem_append]
    exact not_or.mpr ⟨dash_notMem_of_decodeGroups? hgroups, dash_notMem_of_decodePadded? hlast⟩
  · exact dash_notMem_of_decodeGroups? h

lemma dash_notMem_of_decodeLines? {lines : List (List Char)} {xs : Octets} (h : decodeLines? lines = some xs) :
    ∀ line ∈ lines, '-' ∉ line := by
  fun_induction decodeLines? lines generalizing xs with
  | case1 => simp
  | case2 last => simpa using dash_notMem_of_decode? h
  | case3 line rest hne ih =>
    simp only [Option.bind_eq_bind, Option.bind_eq_some_iff] at h
    obtain ⟨ys, hline, zs, hrest, -⟩ := h
    intro other hmem
    rcases List.mem_cons.mp hmem with rfl | hmem
    · exact dash_notMem_of_decodeGroups? hline
    · exact ih hrest other hmem

end Base64

section Lines

/-- What a line may end in. -/
def IsLineEnd (text : List Char) : Prop :=
  text ∈ [['\r', '\n'], ['\r'], ['\n']]

lemma IsLineEnd.dash_notMem {text : List Char} (h : IsLineEnd text) : '-' ∉ text := by
  simp only [IsLineEnd, List.mem_cons, List.not_mem_nil, or_false] at h
  rcases h with rfl | rfl | rfl <;> decide

lemma lineEnd_of_dropLineEnd? {text rest : List Char} (h : dropLineEnd? text = some rest) :
    ∃ eol, IsLineEnd eol ∧ text = eol ++ rest := by
  unfold dropLineEnd? at h
  split at h
  · exact ⟨['\r', '\n'], by simp [IsLineEnd], by simp [← Option.some.inj h]⟩
  · exact ⟨['\r'], by simp [IsLineEnd], by simp [← Option.some.inj h]⟩
  · exact ⟨['\n'], by simp [IsLineEnd], by simp [← Option.some.inj h]⟩
  · cases h

/-- What is behind the first character behind a line end does not matter to where the line ends. -/
lemma dropLineEnd?_congr {eol : List Char} {c : Char} {rest : List Char} (heol : IsLineEnd eol)
    (h : dropLineEnd? (eol ++ c :: rest) = some (c :: rest)) (other : List Char) :
    dropLineEnd? (eol ++ c :: other) = some (c :: other) := by
  simp only [IsLineEnd, List.mem_cons, List.not_mem_nil, or_false] at heol
  rcases heol with rfl | rfl | rfl
  · rfl
  · have hc : c ≠ '\n' := by
      rintro rfl
      have hlength := congrArg List.length (Option.some.inj h)
      simp at hlength
    simp [dropLineEnd?, hc]
  · rfl

lemma lineEnd_of_dropFinalLineEnd? {text rest : List Char} (h : dropFinalLineEnd? text = some rest) :
    ∃ eol, IsLineEnd eol ∧ text = rest ++ eol := by
  have hreverse {xs : List Char} (heq : text.reverse = xs) : text = xs.reverse := by
    rw [← heq, List.reverse_reverse]
  unfold dropFinalLineEnd? at h
  split at h
  all_goals rename_i heq
  · exact ⟨['\r', '\n'], by simp [IsLineEnd], by rw [hreverse heq, ← Option.some.inj h]; simp⟩
  · exact ⟨['\n'], by simp [IsLineEnd], by rw [hreverse heq, ← Option.some.inj h]; simp⟩
  · exact ⟨['\r'], by simp [IsLineEnd], by rw [hreverse heq, ← Option.some.inj h]; simp⟩
  · cases h

lemma lineEnd_of_getD {text rest : List Char} (h : (dropFinalLineEnd? text).getD text = rest) :
    ∃ tail, (tail = [] ∨ IsLineEnd tail) ∧ text = rest ++ tail := by
  cases hfinal : dropFinalLineEnd? text with
  | none =>
    rw [hfinal, Option.getD_none] at h
    exact ⟨[], Or.inl rfl, by rw [h, List.append_nil]⟩
  | some start =>
    rw [hfinal, Option.getD_some] at h
    obtain ⟨tail, htail, rfl⟩ := lineEnd_of_dropFinalLineEnd? hfinal
    exact ⟨tail, Or.inr htail, by rw [h]⟩

/-- A text that is cut into lines without dashes has no dash. -/
lemma dash_notMem_of_linesUpTo {count : Nat} {text : List Char} {lines : List (List Char)}
    (h : linesUpTo count text = some lines) (hlines : ∀ line ∈ lines, '-' ∉ line) : '-' ∉ text := by
  induction count generalizing text lines with
  | zero => cases h
  | succ count ih =>
    rw [linesUpTo] at h
    split_ifs at h with hshort
    · obtain rfl := Option.some.inj h
      have hlast := hlines _ List.mem_cons_self
      cases hdrop : dropFinalLineEnd? text with
      | none => rwa [hdrop, Option.getD_none] at hlast
      | some rest =>
        obtain ⟨eol, heol, rfl⟩ := lineEnd_of_dropFinalLineEnd? hdrop
        rw [hdrop, Option.getD_some] at hlast
        rw [List.mem_append]
        exact not_or.mpr ⟨hlast, heol.dash_notMem⟩
    · rw [← List.take_append_drop lineWidth text, List.mem_append]
      rcases hdrop : dropLineEnd? (text.drop lineWidth) with _ | _ | ⟨c, rest⟩
      · simp [hdrop] at h
      all_goals
        rw [hdrop] at h
        obtain ⟨eol, heol, hrest⟩ := lineEnd_of_dropLineEnd? hdrop
        rw [hrest, List.mem_append]
      · obtain rfl := Option.some.inj h
        exact not_or.mpr ⟨hlines _ List.mem_cons_self, not_or.mpr ⟨heol.dash_notMem, List.not_mem_nil⟩⟩
      · obtain ⟨later, hlater, rfl⟩ := Option.map_eq_some_iff.mp h
        have hrest := ih hlater fun line hline => hlines line (List.mem_cons_of_mem _ hline)
        exact not_or.mpr ⟨hlines _ List.mem_cons_self, not_or.mpr ⟨heol.dash_notMem, hrest⟩⟩

end Lines

section Marks

lemma eq_of_dropStart? {start text rest : List Char} (h : dropStart? start text = some rest) : text = start ++ rest := by
  unfold dropStart? at h
  split_ifs at h with hprefix
  obtain ⟨behind, rfl⟩ := List.isPrefixOf_iff_prefix.mp hprefix
  rw [← Option.some.inj h, List.drop_left]

lemma eq_of_dropEnd? {tail text rest : List Char} (h : dropEnd? tail text = some rest) : text = rest ++ tail := by
  obtain ⟨behind, hstart, rfl⟩ := Option.map_eq_some_iff.mp h
  rw [← List.reverse_reverse text, eq_of_dropStart? hstart, List.reverse_append, List.reverse_reverse]

lemma splitLabel_append (blank : Bool) (text : List Char) :
    (splitLabel blank text).1 ++ (splitLabel blank text).2 = text := by
  induction text generalizing blank with
  | nil => rfl
  | cons c rest ih =>
    rw [splitLabel]
    split_ifs
    · exact congrArg (c :: ·) (ih true)
    · exact congrArg (c :: ·) (ih false)
    · rfl

lemma dash_notMem_splitLabel (blank : Bool) (text : List Char) : '-' ∉ (splitLabel blank text).1 := by
  induction text generalizing blank with
  | nil => simp [splitLabel]
  | cons c rest ih =>
    rw [splitLabel]
    split_ifs with hchar hblank
    · refine List.not_mem_cons_of_ne_of_not_mem ?_ (ih true)
      rintro rfl
      simp [isLabelChar] at hchar
    · refine List.not_mem_cons_of_ne_of_not_mem ?_ (ih false)
      rintro rfl
      simp at hblank
    · exact List.not_mem_nil

/-- The block begins with its mark, and so does a line. -/
lemma spec_of_dropPreamble? {text doc : List Char} (h : dropPreamble? text = some doc) :
    beginMark <+: doc ∧ ∃ front, text = front ++ doc ∧ (front = [] ∨ ∃ lines, front = lines ++ ['\n']) := by
  have hlines (text : List Char) (h : dropPreamble?.dropLines text = some doc) :
      beginMark <+: doc ∧ ∃ lines, text = lines ++ '\n' :: doc := by
    induction text with
    | nil => cases h
    | cons c rest ih =>
      rw [dropPreamble?.dropLines] at h
      split_ifs at h with hnul hmark
      · obtain rfl := Option.some.inj h
        exact ⟨List.isPrefixOf_iff_prefix.mp hmark.2, [], by rw [hmark.1]; rfl⟩
      · obtain ⟨hbegin, lines, rfl⟩ := ih h
        exact ⟨hbegin, c :: lines, rfl⟩
  cases text with
  | nil => cases h
  | cons c rest =>
    rw [dropPreamble?] at h
    split_ifs at h with hmark
    · obtain rfl := Option.some.inj h
      exact ⟨List.isPrefixOf_iff_prefix.mp hmark, [], rfl, Or.inl rfl⟩
    · obtain ⟨hbegin, lines, htext⟩ := hlines _ h
      exact ⟨hbegin, lines ++ ['\n'], by rw [htext, List.append_assoc]; rfl, Or.inr ⟨lines, rfl⟩⟩

end Marks

namespace Armor

/-- The parts of a text that is read as a document: whole lines in front, the two lines that carry the label with
the lines of the body between them, and perhaps a line end. -/
structure Parts where
  front : List Char
  label : List Char
  start : List Char
  body : List Char
  stop : List Char
  tail : List Char
  front_ends : front = [] ∨ ∃ lines, front = lines ++ ['\n']
  start_lineEnd : IsLineEnd start
  stop_lineEnd : IsLineEnd stop
  tail_lineEnd : tail = [] ∨ IsLineEnd tail
  dash_notMem_label : '-' ∉ label
  dash_notMem_body : '-' ∉ body

namespace Parts

variable (parts : Parts)

/-- The document up to the line that ends it. -/
def opening : List Char :=
  beginLine parts.label ++ parts.start ++ (parts.body ++ parts.stop)

/-- The document from its first dash to its last. -/
def block : List Char :=
  parts.opening ++ endLine parts.label

def document : List Char :=
  parts.block ++ parts.tail

def text : List Char :=
  parts.front ++ parts.document

end Parts

/-- A text that is read has the parts of a document, and is read the same without its preamble and with LF as its
line end. -/
theorem exists_parts {text : List Char} {a : Armor} (h : read? text = some a) : ∃ parts : Parts,
    parts.text = text ∧ parts.label = a.label ∧ dropPreamble? text = some parts.document ∧
      read? (parts.block ++ ['\n']) = some a := by
  simp only [read?, Option.bind_eq_bind, Option.bind_eq_some_iff, Option.some.injEq] at h
  obtain ⟨doc, hdoc, behindLabel, hdashes, behindBegin, hbegin, beforeDashes, hend, beforeLabel, hlabel, inner, hmark,
    body, hbody, lines, hlines, xs, hdecode, rfl⟩ := h
  obtain ⟨⟨labelled, rfl⟩, front, rfl, hfront⟩ := spec_of_dropPreamble? hdoc
  rw [List.drop_left] at hdashes hlabel ⊢
  rcases hsplit : splitLabel false labelled with ⟨label, behind⟩
  have happend := splitLabel_append false labelled
  have hplain := dash_notMem_splitLabel false labelled
  rw [hsplit] at hdashes hlabel happend hplain
  dsimp only at hdashes hlabel happend hplain ⊢
  obtain rfl := eq_of_dropStart? hdashes
  obtain rfl := happend.symm
  have hisLabel : IsLabel label := splitLabel_of_dash hsplit []
  obtain ⟨start, hstart, rfl⟩ := lineEnd_of_dropLineEnd? hbegin
  obtain ⟨stop, hstop, rfl⟩ := lineEnd_of_dropFinalLineEnd? hbody
  have hlast : (dropFinalLineEnd? behindBegin).getD behindBegin = body ++ stop ++ endLine label := by
    rw [eq_of_dropEnd? hend, eq_of_dropEnd? hlabel, eq_of_dropEnd? hmark]
    simp only [endLine, List.append_assoc]
  obtain ⟨tail, htail, rfl⟩ := lineEnd_of_getD hlast
  have hbody' : '-' ∉ body := dash_notMem_of_linesUpTo hlines (dash_notMem_of_decodeLines? hdecode)
  have hdocument : beginMark ++ (label ++ (dashes ++ (start ++ (body ++ stop ++ endLine label ++ tail)))) =
      beginLine label ++ start ++ (body ++ stop) ++ endLine label ++ tail := by
    simp only [beginLine, List.append_assoc]
  have hread : read? (beginLine label ++ start ++ (body ++ stop) ++ endLine label ++ ['\n']) = some ⟨label, xs⟩ := by
    obtain ⟨c, rest, hcons⟩ : ∃ c rest, body ++ stop ++ endLine label = c :: rest :=
      List.exists_cons_of_ne_nil fun hnil => List.cons_ne_nil _ _ (List.append_eq_nil_iff.mp hnil).2
    refine read?_of_lines hisLabel ?_ hbody hlines hdecode
    rw [hcons] at hbegin ⊢
    exact dropLineEnd?_congr hstart hbegin (rest ++ ['\n'])
  exact ⟨⟨front, label, start, body, stop, tail, hfront, hstart, hstop, htail, hplain, hbody'⟩,
    congrArg (front ++ ·) hdocument.symm, rfl, hdoc.trans (congrArg some hdocument), hread⟩

end Armor

end SealedImage.Pem
