import Mathlib.Data.List.Forall2
import Mathlib.Tactic.Common
import SealedImage.Proofs.Preambles

/-!
# Every key file has one reading

The forms of key files are told apart by what stands outside of the key: the label of the document and, under the two
labels whose structures name one, the algorithm (`form?`). Each loader accepts documents of its own form only and gives
keys of one kind, whose numbers it has checked (`loaders_forms`). The forms are different, so at most one loader accepts
a file, and it does not matter in which order they are tried (`key_file_has_one_reading`).
-/

namespace SealedImage.KeyMaterial

open Asn1 Pem

/-- The label of a document, and the algorithm that its structure names. -/
structure Form where
  label : String
  algorithm : Option Algorithm
deriving DecidableEq

/-- The algorithm in a structure of one of the two labels for keys with their algorithm. -/
def algorithm? (label : String) (xs : Octets) : Option Algorithm :=
  if label = privateLabel then (PrivateKeyInfo.read? xs).map PrivateKeyInfo.algorithm
  else if label = publicLabel then (PublicKeyInfo.read? xs).map PublicKeyInfo.algorithm
  else none

def form? (text : List Char) : Option Form :=
  (Armor.read? text).map fun armor =>
    ⟨String.ofList armor.label, algorithm? (String.ofList armor.label) armor.contents⟩

/-- The form that each loader accepts and the kind of key that it gives, in the order of the loaders. -/
def forms : List (Form × KeyKind) :=
  [(⟨privateLabel, some .rsa⟩, .rsaPrivate), (⟨rsaPrivateLabel, none⟩, .rsaPrivate),
    (⟨privateLabel, some .p256⟩, .eccPrivate), (⟨ecPrivateLabel, none⟩, .eccPrivate),
    (⟨publicLabel, some .rsa⟩, .rsaPublic), (⟨rsaPublicLabel, none⟩, .rsaPublic),
    (⟨publicLabel, some .p256⟩, .eccPublic)]

/-- The public numbers of an RSA key have no defect. -/
def Flawless (key : KeyMaterial) : Prop :=
  ∀ k, key.rsaRecipient? = some k → k.defect? = none

/-- A loader accepts documents of one form only, and gives keys of one kind whose numbers it has checked. -/
def Accepts (load : List Char → Option KeyMaterial) (form : Form × KeyKind) : Prop :=
  ∀ text key, load text = some key → form? text = some form.1 ∧ key.kind = form.2 ∧ key.Flawless

section Loaders

variable {text : List Char} {label : String} {xs : Octets}

lemma form?_of_contents? (h : contents? label text = some xs) : form? text = some ⟨label, algorithm? label xs⟩ := by
  obtain ⟨armor, hread, hlabel, rfl⟩ := contents?_eq_some_iff.mp h
  rw [form?, hread, Option.map_some, hlabel, String.ofList_toList]

lemma form?_of_privateInfo {info : PrivateKeyInfo} (h : contents? privateLabel text = some xs)
    (hread : PrivateKeyInfo.read? xs = some info) : form? text = some ⟨privateLabel, some info.algorithm⟩ := by
  rw [form?_of_contents? h, algorithm?, if_pos rfl, hread, Option.map_some]

lemma form?_of_publicInfo {info : PublicKeyInfo} (h : contents? publicLabel text = some xs)
    (hread : PublicKeyInfo.read? xs = some info) : form? text = some ⟨publicLabel, some info.algorithm⟩ := by
  rw [form?_of_contents? h, algorithm?, if_neg (by decide), if_pos rfl, hread, Option.map_some]

/-- A document under another label is told by that alone. -/
lemma form?_of_plain (h : contents? label text = some xs) (hprivate : label ≠ privateLabel)
    (hpublic : label ≠ publicLabel) : form? text = some ⟨label, none⟩ := by
  rw [form?_of_contents? h, algorithm?, if_neg hprivate, if_neg hpublic]

lemma flawless_rsaPrivate {k : Rsa.PrivateKey} (h : rsaPrivateOfNumbers? xs = some k) : (rsaPrivate k).Flawless := by
  unfold rsaPrivateOfNumbers? at h
  split at h
  · obtain ⟨⟨hdefect, -⟩, hk⟩ := Option.ite_none_right_eq_some.mp h
    rintro half ⟨⟩
    rw [← Option.some.inj hk]
    exact hdefect
  · cases h

lemma flawless_rsaPublic {k : Rsa.PublicKey} (h : rsaPublicOfNumbers? xs = some k) : (rsaPublic k).Flawless := by
  unfold rsaPublicOfNumbers? at h
  split at h
  · obtain ⟨⟨-, hdefect⟩, hk⟩ := Option.ite_none_right_eq_some.mp h
    rintro half ⟨⟩
    rw [← Option.some.inj hk]
    exact hdefect
  · cases h

lemma flawless_ecc {key : KeyMaterial} (h : key.rsaRecipient? = none) : key.Flawless := by
  intro k hkey
  rw [h] at hkey
  cases hkey

/-- What every key that is made of something found has, a key that was found has. -/
lemma checked_of_bind {α : Type} {found : Option α} {make : α → KeyMaterial} {kind : KeyKind} {key : KeyMaterial}
    (hmake : ∀ a, found = some a → (make a).kind = kind ∧ (make a).Flawless)
    (h : (found.bind fun a => some (make a)) = some key) : key.kind = kind ∧ key.Flawless := by
  obtain ⟨a, hfound, ha⟩ := Option.bind_eq_some_iff.mp h
  rw [← Option.some.inj ha]
  exact hmake a hfound

lemma loaders_forms : List.Forall₂ Accepts loaders forms := by
  refine .cons ?_ (.cons ?_ (.cons ?_ (.cons ?_ (.cons ?_ (.cons ?_ (.cons ?_ .nil))))))
  all_goals
    intro text key h
    obtain ⟨xs, hcontents, hrest⟩ := Option.bind_eq_some_iff.mp h
  · obtain ⟨info, hinfo, hrest⟩ := Option.bind_eq_some_iff.mp hrest
    split_ifs at hrest with halgorithm
    exact ⟨halgorithm ▸ form?_of_privateInfo hcontents hinfo,
      checked_of_bind (fun k hk => ⟨rfl, flawless_rsaPrivate hk⟩) hrest⟩
  · exact ⟨form?_of_plain hcontents (by decide) (by decide),
      checked_of_bind (fun k hk => ⟨rfl, flawless_rsaPrivate hk⟩) hrest⟩
  · obtain ⟨info, hinfo, hrest⟩ := Option.bind_eq_some_iff.mp hrest
    split_ifs at hrest with halgorithm
    obtain ⟨doc, -, hrest⟩ := Option.bind_eq_some_iff.mp hrest
    exact ⟨halgorithm ▸ form?_of_privateInfo hcontents hinfo, checked_of_bind (fun _ _ => ⟨rfl, flawless_ecc rfl⟩) hrest⟩
  · obtain ⟨doc, -, hrest⟩ := Option.bind_eq_some_iff.mp hrest
    exact ⟨form?_of_plain hcontents (by decide) (by decide), checked_of_bind (fun _ _ => ⟨rfl, flawless_ecc rfl⟩) hrest⟩
  · obtain ⟨info, hinfo, hrest⟩ := Option.bind_eq_some_iff.mp hrest
    split_ifs at hrest with halgorithm
    obtain ⟨octets, -, hrest⟩ := Option.bind_eq_some_iff.mp hrest
    exact ⟨halgorithm ▸ form?_of_publicInfo hcontents hinfo,
      checked_of_bind (fun k hk => ⟨rfl, flawless_rsaPublic hk⟩) hrest⟩
  · exact ⟨form?_of_plain hcontents (by decide) (by decide),
      checked_of_bind (fun k hk => ⟨rfl, flawless_rsaPublic hk⟩) hrest⟩
  · obtain ⟨info, hinfo, hrest⟩ := Option.bind_eq_some_iff.mp hrest
    split_ifs at hrest with halgorithm
    obtain ⟨octets, -, hrest⟩ := Option.bind_eq_some_iff.mp hrest
    exact ⟨halgorithm ▸ form?_of_publicInfo hcontents hinfo, checked_of_bind (fun _ _ => ⟨rfl, flawless_ecc rfl⟩) hrest⟩

end Loaders

section Order

variable {text : List Char}

lemma forms_nodup : (forms.map Prod.fst).Nodup := by decide

/-- Loaders that accept one text accept its form, and no two accept the same. -/
lemma loaders_exclusive {i j : Nat} (hi : i < loaders.length) (hj : j < loaders.length)
    (hload : (loaders[i] text).isSome) (hother : (loaders[j] text).isSome) : i = j := by
  obtain ⟨key, hkey⟩ := Option.isSome_iff_exists.mp hload
  obtain ⟨key', hkey'⟩ := Option.isSome_iff_exists.mp hother
  obtain ⟨hform, -⟩ := loaders_forms.get hi (loaders_forms.length_eq ▸ hi) text key hkey
  obtain ⟨hform', -⟩ := loaders_forms.get hj (loaders_forms.length_eq ▸ hj) text key' hkey'
  rw [hform] at hform'
  have hi' : i < (forms.map Prod.fst).length := by rwa [List.length_map, ← loaders_forms.length_eq]
  have hj' : j < (forms.map Prod.fst).length := by rwa [List.length_map, ← loaders_forms.length_eq]
  have hsame : (forms.map Prod.fst)[i] = (forms.map Prod.fst)[j] := by simpa using hform'
  exact (List.Nodup.getElem_inj_iff forms_nodup).mp hsame

/-- The loaders tried in a given order. -/
def ofTextBy (order : List (List Char → Option KeyMaterial)) (text : List Char) : Except Failure KeyMaterial := do
  let text := (ecBlock? text).getD text
  let key ← match order.findSome? fun load => load text with
    | some key => pure key
    | none => throw (classify text)
  key.checkSize
  pure key

lemma findSome?_of_perm {order : List (List Char → Option KeyMaterial)} (h : order.Perm loaders) (text : List Char) :
    (order.findSome? fun load => load text) = load? text := by
  cases hfound : order.findSome? fun load => load text with
  | none =>
    symm
    rw [List.findSome?_eq_none_iff] at hfound
    apply List.findSome?_eq_none_iff.mpr
    intro load hload
    exact hfound load (h.mem_iff.mpr hload)
  | some key =>
    obtain ⟨load, hload, hkey⟩ := List.exists_of_findSome?_eq_some hfound
    exact (load?_of_mem (h.mem_iff.mp hload) hkey).symm

lemma ofTextBy_of_perm {order : List (List Char → Option KeyMaterial)} (h : order.Perm loaders) (text : List Char) :
    ofTextBy order text = ofText text := by
  unfold ofTextBy
  dsimp only
  rw [findSome?_of_perm h]
  rfl

/-- The form of a text that loads is that of one of the loaders, and what this accepts goes with it. -/
lemma exists_form {key : KeyMaterial} (h : load? text = some key) :
    ∃ form ∈ forms, form? text = some form.1 ∧ key.kind = form.2 ∧ key.Flawless := by
  obtain ⟨load, hload, hkey⟩ := List.exists_of_findSome?_eq_some h
  obtain ⟨i, hi, rfl⟩ := List.getElem_of_mem hload
  have hi' : i < forms.length := loaders_forms.length_eq ▸ hi
  exact ⟨forms[i], List.getElem_mem hi', loaders_forms.get hi hi' text key hkey⟩

end Order

/-- A key file has at most one reading. No two of the loaders accept one text. So whatever order they are tried in, the
result is the same, be it a key or a failure. What kind of key a text loads as is told by its label and algorithm. -/
theorem key_file_has_one_reading (text : List Char) :
    (∀ i j (hi : i < loaders.length) (hj : j < loaders.length),
      (loaders[i] text).isSome → (loaders[j] text).isSome → i = j) ∧
    (∀ order : List (List Char → Option KeyMaterial), order.Perm loaders → ofTextBy order text = ofText text) ∧
    ∀ key, load? text = some key → ∃ form ∈ forms, form? text = some form.1 ∧ key.kind = form.2 := by
  refine ⟨fun i j hi hj hload hother => ?_, fun order horder => ?_, fun key hkey => ?_⟩
  · exact loaders_exclusive hi hj hload hother
  · exact ofTextBy_of_perm horder text
  · obtain ⟨form, hmem, hform, hkind, -⟩ := exists_form hkey
    exact ⟨form, hmem, hform, hkind⟩

/-- The loaders may be tried the other way round. -/
theorem key_file_has_one_reading_sample :
    ofTextBy loaders.reverse (sampleFile "base point") = .ok (.eccPublic sampleBase) ∧
      ∀ i (hi : i < loaders.length), (loaders[i] (sampleFile "base point")).isSome → i = 6 := by
  obtain ⟨hone, horder, -⟩ := key_file_has_one_reading (sampleFile "base point")
  have hsix : 6 < loaders.length := by decide
  have hlast : (loaders[6] (sampleFile "base point")).isSome := by
    rw [show loaders[6] = loadEccPublicInfo from rfl, sampleFile_loads "base point" (by simp)]
    rfl
  constructor
  · rw [horder _ (List.reverse_perm _)]
    decide +kernel
  · intro i hi hload
    exact hone i 6 hi hsix hload hlast

end SealedImage.KeyMaterial
