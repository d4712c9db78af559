import Mathlib.Tactic.Common
import SealedImage.Key.Encoding
import SealedImage.Proofs.Armor
import SealedImage.Proofs.Elements
import SealedImage.Proofs.KeyAgreement
import SealedImage.Proofs.NewKeys

/-!
# The texts of keys load as the keys

A key is written under a label and with an algorithm that one form of key file has alone, so every other form
refuses the text and that form gives the key back. A written text holds no block with an elliptic curve key,
because a mark of such a block would have to stand within a line (`KeyMaterial.ecBlock?_write`).
-/

namespace SealedImage

open Asn1 Pem

namespace KeyMaterial

section Marks

/-- A mark without line ends stands within a line. -/
lemma isInfix_of_lineEnd {mark first rest : List Char} {c : Char} (hmark : c ∉ mark)
    (h : mark <:+: first ++ c :: rest) : mark <:+: first ∨ mark <:+: rest := by
  rcases List.infix_append_iff.mp h with hfirst | hrest | ⟨before, behind, rfl, hbefore, hbehind⟩
  · exact Or.inl hfirst
  · rcases List.infix_cons_iff.mp hrest with hstart | hrest
    · cases mark with
      | nil => exact Or.inl (List.nil_infix)
      | cons c' mark =>
        rw [List.cons_prefix_cons] at hstart
        exact absurd (hstart.1 ▸ List.mem_cons_self) hmark
    · exact Or.inr hrest
  · cases behind with
    | nil =>
      rw [List.append_nil]
      exact Or.inl hbefore.isInfix
    | cons c' behind =>
      rw [List.cons_prefix_cons] at hbehind
      exact absurd (List.mem_append_right _ (hbehind.1 ▸ List.mem_cons_self)) hmark

lemma fromFirst?_of_not_isInfix {mark text : List Char} (h : ¬mark <:+: text) : fromFirst? mark text = none := by
  induction text with
  | nil =>
    have hne : mark ≠ [] := by
      rintro rfl
      exact h List.nil_infix
    rw [fromFirst?, if_neg hne]
  | cons c text ih =>
    rw [List.infix_cons_iff, not_or] at h
    rw [fromFirst?, if_neg (by simpa using h.1), ih h.2]

/-- A document under a label of its own holds no block with an elliptic curve key. -/
lemma ecBlock?_write (a : Armor) (hne : a.contents ≠ [])
    (hbegin : ¬ecBegin <:+: Armor.beginLine a.label) (hend : ¬ecBegin <:+: Armor.endLine a.label) :
    ecBlock? a.write = none := by
  obtain ⟨body, hdash, hwrite⟩ := Armor.exists_write_eq a hne
  have hlf : '\n' ∉ ecBegin := by decide
  have hfirst : fromFirst? ecBegin a.write = none := by
    apply fromFirst?_of_not_isInfix
    rw [hwrite]
    intro h
    rcases isInfix_of_lineEnd hlf h with h | h
    · exact hbegin h
    · rcases isInfix_of_lineEnd hlf h with h | h
      · exact hdash (h.mem (by decide))
      · rcases isInfix_of_lineEnd hlf h with h | h
        · exact hend h
        · exact absurd (List.infix_nil.mp h) (by decide)
  unfold ecBlock?
  rw [hfirst]
  rfl

end Marks

section Contents

variable {text : List Char} {label other : String} {xs : Octets} {key : KeyMaterial}

lemma contents?_eq_some_iff : contents? label text = some xs ↔
    ∃ armor, Armor.read? text = some armor ∧ armor.label = label.toList ∧ armor.contents = xs := by
  unfold contents?
  cases Armor.read? text with
  | none => simp
  | some armor => simp

/-- A document has one label. -/
lemma contents?_eq_none (h : contents? label text = some xs) (hne : other ≠ label) : contents? other text = none := by
  obtain ⟨armor, hread, hlabel, -⟩ := contents?_eq_some_iff.mp h
  rw [Option.eq_none_iff_forall_ne_some]
  intro ys hother
  obtain ⟨armor', hread', hlabel', -⟩ := contents?_eq_some_iff.mp hother
  rw [hread] at hread'
  obtain rfl := Option.some.inj hread'
  exact hne (String.toList_injective (hlabel'.symm.trans hlabel))

lemma contents?_eq_none_of_notMem (h : contents? label text = some xs) (others : List String)
    (hothers : label ∉ others) : ∀ other ∈ others, contents? other text = none :=
  fun _ hother => contents?_eq_none h fun heq => hothers (heq ▸ hother)

/-- The forms tell documents apart by label and algorithm, so it does not matter which of them come first. -/
lemma load?_of_mem {load : List Char → Option KeyMaterial} (hload : load ∈ loaders) (h : load text = some key) :
    load? text = some key := by
  have hrsa : Algorithm.p256 ≠ .rsa := by decide
  simp only [loaders, List.mem_cons, List.not_mem_nil, or_false] at hload
  rcases hload with rfl | rfl | rfl | rfl | rfl | rfl | rfl
  all_goals obtain ⟨xs, hcontents, hrest⟩ := Option.bind_eq_some_iff.mp h
  · simp [load?, loaders, h]
  · have hnone := contents?_eq_none_of_notMem hcontents [privateLabel] (by decide)
    simp [load?, loaders, h, loadRsaPrivateInfo, hnone]
  · have hnone := contents?_eq_none_of_notMem hcontents [rsaPrivateLabel] (by decide)
    obtain ⟨info, hinfo, hrest⟩ := Option.bind_eq_some_iff.mp hrest
    split_ifs at hrest with halgorithm
    simp [load?, loaders, h, loadRsaPrivateInfo, loadRsaPrivateNumbers, hcontents, hnone, hinfo, halgorithm, hrsa]
  · have hnone := contents?_eq_none_of_notMem hcontents [privateLabel, rsaPrivateLabel] (by decide)
    simp [load?, loaders, h, loadRsaPrivateInfo, loadRsaPrivateNumbers, loadEccPrivateInfo, hnone]
  · have hnone := contents?_eq_none_of_notMem hcontents [privateLabel, rsaPrivateLabel, ecPrivateLabel] (by decide)
    simp [load?, loaders, h, loadRsaPrivateInfo, loadRsaPrivateNumbers, loadEccPrivateInfo, loadEccPrivate, hnone]
  · have hnone := contents?_eq_none_of_notMem hcontents [privateLabel, rsaPrivateLabel, ecPrivateLabel, publicLabel] (by decide)
    simp [load?, loaders, h, loadRsaPrivateInfo, loadRsaPrivateNumbers, loadEccPrivateInfo, loadEccPrivate,
      loadRsaPublicInfo, hnone]
  · have hnone := contents?_eq_none_of_notMem hcontents [privateLabel, rsaPrivateLabel, ecPrivateLabel, rsaPublicLabel] (by decide)
    obtain ⟨info, hinfo, hrest⟩ := Option.bind_eq_some_iff.mp hrest
    split_ifs at hrest with halgorithm
    simp [load?, loaders, h, loadRsaPrivateInfo, loadRsaPrivateNumbers, loadEccPrivateInfo, loadEccPrivate,
      loadRsaPublicInfo, loadRsaPublicNumbers, hcontents, hnone, hinfo, halgorithm, hrsa]

end Contents

/-- A label of a document that holds no block with an elliptic curve key. -/
structure Plain (label : String) : Prop where
  isLabel : IsLabel label.toList
  begins : ¬ecBegin <:+: Armor.beginLine label.toList
  ends : ¬ecBegin <:+: Armor.endLine label.toList

lemma privateLabel_plain : Plain privateLabel := ⟨by decide, by decide, by decide⟩

lemma publicLabel_plain : Plain publicLabel := ⟨by decide, by decide, by decide⟩

lemma rsaPrivateLabel_plain : Plain rsaPrivateLabel := ⟨by decide, by decide, by decide⟩

section Written

variable {label : String} {contents : Octets}

lemma contents?_armored (h : Plain label) (hne : contents ≠ []) :
    contents? label (armored label contents).toList = some contents := by
  unfold contents? armored
  rw [String.toList_ofList, Armor.read?_write h.isLabel hne]
  exact if_pos rfl

lemma ecBlock?_armored (h : Plain label) (hne : contents ≠ []) :
    ecBlock? (armored label contents).toList = none := by
  unfold armored
  rw [String.toList_ofList]
  exact ecBlock?_write _ hne h.begins h.ends

lemma ofText_armored (h : Plain label) (hne : contents ≠ []) {key : KeyMaterial}
    (hload : load? (armored label contents).toList = some key) (hsize : key.checkSize = .ok ()) :
    ofText (armored label contents).toList = .ok key := by
  unfold ofText
  rw [ecBlock?_armored h hne]
  simp only [Option.getD_none, hload, pure, Except.pure, bind, Except.bind, hsize]

end Written

section Ecc

variable {secret : P256.SecretKey} {publicKey : P256.PublicKey}

lemma ofOctets?_octets (secret : P256.SecretKey) : P256.SecretKey.ofOctets? secret.octets.octets = some secret := by
  have hpow : P256.order < 256 ^ 32 := by decide +kernel
  have hscalar : Octets.toNat secret.octets.octets = secret.scalar :=
    Octets.toNat_ofNat_of_lt (secret.lt_order.trans hpow)
  unfold P256.SecretKey.ofOctets? P256.SecretKey.ofNat?
  rw [if_pos (by simp), hscalar, dif_pos ⟨secret.pos, secret.lt_order⟩]

lemma eccPrivateOf?_stored (half : secret.publicKey? = some publicKey) :
    eccPrivateOf? ⟨secret.octets.octets, none, some publicKey.uncompressed⟩ = some secret := by
  unfold eccPrivateOf?
  simp [ofOctets?_octets, half]

lemma length_uncompressed (publicKey : P256.PublicKey) : publicKey.uncompressed.length = 65 := by
  rw [P256.PublicKey.uncompressed, List.length_cons, Block.length_octets]

lemma ofSec1?_uncompressed (publicKey : P256.PublicKey) :
    P256.PublicKey.ofSec1? publicKey.uncompressed = some publicKey := by
  change (Block.ofOctets? 64 publicKey.raw.octets).bind P256.PublicKey.ofRaw? = some publicKey
  rw [Block.ofOctets?_octets, Option.bind_some, P256.PublicKey.ofRaw?_raw]

/-- The text of a secret key on P-256 loads as the key. -/
theorem ofText_eccPrivate (half : secret.publicKey? = some publicKey) :
    ofText (secret.armored publicKey).toList = .ok (.eccPrivate secret) := by
  have hpublic : publicKey.uncompressed.length < 0x1000 := by
    rw [length_uncompressed]
    decide
  have hsecret : secret.octets.octets.length < 0x1000 := by simp
  have hkey := EcPrivateKey.read?_write hsecret hpublic
  have hinfo := PrivateKeyInfo.read?_write Algorithm.p256_standard (EcPrivateKey.length_write_lt hsecret hpublic)
  have hne : PrivateKeyInfo.write .p256 (EcPrivateKey.write secret.octets.octets publicKey.uncompressed) ≠ [] :=
    Element.write_ne_nil _
  have hcontents := contents?_armored privateLabel_plain hne
  have hload : loadEccPrivateInfo (secret.armored publicKey).toList = some (.eccPrivate secret) := by
    simp [P256.SecretKey.armored, loadEccPrivateInfo, hcontents, hinfo, hkey, eccPrivateOf?_stored half]
  exact ofText_armored privateLabel_plain hne (load?_of_mem (by simp [loaders]) hload) rfl

/-- The text of a public key on P-256 loads as the key. -/
theorem ofText_eccPublic (publicKey : P256.PublicKey) :
    ofText publicKey.armored.toList = .ok (.eccPublic publicKey) := by
  have hlength : publicKey.uncompressed.length < 0x10000 := by
    rw [length_uncompressed]
    decide
  have hinfo := PublicKeyInfo.read?_write Algorithm.p256_standard hlength
  have hne : PublicKeyInfo.write .p256 publicKey.uncompressed ≠ [] := Element.write_ne_nil _
  have hcontents := contents?_armored publicLabel_plain hne
  have hload : loadEccPublicInfo publicKey.armored.toList = some (.eccPublic publicKey) := by
    simp [P256.PublicKey.armored, loadEccPublicInfo, hcontents, hinfo, PublicKeyInfo.octets?, ofSec1?_uncompressed]
  exact ofText_armored publicLabel_plain hne (load?_of_mem (by simp [loaders]) hload) rfl

end Ecc

section Rsa

variable {key : Rsa.PrivateKey}

/-- The numbers of a fresh key fit into as many octets as its modulus. -/
lemma numbers_lt (h : key.Fresh) : ∀ n ∈ key.numbers, n < 256 ^ 384 := by
  have hpow : 2 ^ 1536 * 2 ^ 1536 = 256 ^ 384 := by decide +kernel
  have hone : 2 ^ 1536 < 256 ^ 384 := by decide +kernel
  have hp := h.factor₁.bounded
  have hq := h.factor₂.bounded
  have hp' : 3 < key.factor₁ := Nat.lt_of_lt_of_le (by decide +kernel) h.factor₁.top
  have hq' : 3 < key.factor₂ := Nat.lt_of_lt_of_le (by decide +kernel) h.factor₂.top
  have hmodulus : key.factor₁ * key.factor₂ < 256 ^ 384 := hpow ▸ Nat.mul_lt_mul'' hp hq
  have hexponent : key.exponent < key.factor₁ * key.factor₂ :=
    Nat.lt_of_lt_of_le h.reduced (Nat.mul_le_mul (Nat.sub_le _ _) (Nat.sub_le _ _))
  have hinverse : (Number.inverse? key.factor₂ key.factor₁).getD 0 < key.factor₁ := by
    cases hd : Number.inverse? key.factor₂ key.factor₁ with
    | none => exact Nat.lt_trans (by decide) hp'
    | some d => exact (Number.inverse?_spec (by omega) hd).1
  have hmod₁ : key.exponent % (key.factor₁ - 1) < key.factor₁ - 1 := Nat.mod_lt _ (by omega)
  have hmod₂ : key.exponent % (key.factor₂ - 1) < key.factor₂ - 1 := Nat.mod_lt _ (by omega)
  intro n hn
  simp only [Rsa.PrivateKey.numbers, List.mem_cons, List.not_mem_nil, or_false] at hn
  rcases hn with rfl | rfl | rfl | rfl | rfl | rfl | rfl | rfl | rfl
  · decide +kernel
  · rw [h.modulus]
    exact hmodulus
  · rw [h.standard]
    decide +kernel
  · exact hexponent.trans hmodulus
  · exact hp.trans hone
  · exact hq.trans hone
  · exact Nat.lt_trans (by omega) (hp.trans hone)
  · exact Nat.lt_trans (by omega) (hq.trans hone)
  · exact hinverse.trans (hp.trans hone)

lemma rsaPrivateOfNumbers?_numbers (h : key.Fresh) : rsaPrivateOfNumbers? (writeNumbers key.numbers) = some key := by
  unfold rsaPrivateOfNumbers?
  rw [readNumbers?_writeNumbers (numbers_lt h) (by simp [Rsa.PrivateKey.numbers])]
  unfold Rsa.PrivateKey.ofNumbers?
  exact if_pos ⟨h.defect?_eq, h.consistent⟩

lemma publicNumbers_lt (h : key.Fresh) : ∀ n ∈ [key.publicKey.modulus, key.publicKey.exponent], n < 256 ^ 384 := by
  intro n hn
  refine numbers_lt h n ?_
  simp only [List.mem_cons, List.not_mem_nil, or_false] at hn
  rcases hn with rfl | rfl <;> simp [Rsa.PrivateKey.numbers]

lemma rsaPublicOfNumbers?_numbers {k : Rsa.PublicKey} (hlt : ∀ n ∈ [k.modulus, k.exponent], n < 256 ^ 384)
    (hdefect : k.defect? = none) : rsaPublicOfNumbers? (writeNumbers [k.modulus, k.exponent]) = some k := by
  have hpow : 256 ^ 384 = 2 ^ 3072 := by decide +kernel
  have hbits : k.bits ≤ Rsa.PublicKey.maxStoredBits :=
    (Octets.bitLength_le_of_lt (hpow ▸ hlt k.modulus List.mem_cons_self)).trans (by decide)
  unfold rsaPublicOfNumbers?
  rw [readNumbers?_writeNumbers hlt (by simp)]
  unfold Rsa.PublicKey.ofNumbers?
  exact if_pos ⟨hbits, hdefect⟩

/-- The text of a public RSA key without a defect holds the key, whatever its size is. -/
lemma load?_rsaPublic {k : Rsa.PublicKey} (hlt : ∀ n ∈ [k.modulus, k.exponent], n < 256 ^ 384)
    (hdefect : k.defect? = none) :
    ecBlock? k.armored.toList = none ∧ load? k.armored.toList = some (.rsaPublic k) := by
  have hinfo := PublicKeyInfo.read?_write Algorithm.rsa_standard (length_writeNumbers_lt hlt (by simp))
  have hne : PublicKeyInfo.write .rsa (writeNumbers [k.modulus, k.exponent]) ≠ [] := Element.write_ne_nil _
  have hcontents := contents?_armored publicLabel_plain hne
  have hload : loadRsaPublicInfo k.armored.toList = some (.rsaPublic k) := by
    simp [Rsa.PublicKey.armored, loadRsaPublicInfo, hcontents, hinfo, PublicKeyInfo.octets?,
      rsaPublicOfNumbers?_numbers hlt hdefect]
  exact ⟨ecBlock?_armored publicLabel_plain hne, load?_of_mem (by simp [loaders]) hload⟩

/-- The text of a fresh RSA key loads as the key. -/
theorem ofText_rsaPrivate (h : key.Fresh) : ofText key.armored.toList = .ok (.rsaPrivate key) := by
  have hne : writeNumbers key.numbers ≠ [] := Element.write_ne_nil _
  have hcontents := contents?_armored rsaPrivateLabel_plain hne
  have hload : loadRsaPrivateNumbers key.armored.toList = some (.rsaPrivate key) := by
    simp [Rsa.PrivateKey.armored, loadRsaPrivateNumbers, hcontents, rsaPrivateOfNumbers?_numbers h]
  exact ofText_armored rsaPrivateLabel_plain hne (load?_of_mem (by simp [loaders]) hload) h.checkSize

theorem ofText_rsaPublic (h : key.Fresh) : ofText key.publicKey.armored.toList = .ok (.rsaPublic key.publicKey) := by
  obtain ⟨-, hload⟩ := load?_rsaPublic (publicNumbers_lt h) h.defect?_eq
  exact ofText_armored publicLabel_plain (Element.write_ne_nil _) hload h.checkSize

end Rsa

end KeyMaterial

end SealedImage
