import Mathlib.Tactic.Common
import SealedImage.Proofs.Classification
import SealedImage.Proofs.Forms
import SealedImage.Proofs.GroupOrder
import SealedImage.Proofs.KeySizes

/-!
# A loaded key can be used

Whatever is asked of a key when an image is sealed for it was asked of it when it was loaded (`Usable`), so the only
thing that can be missing then is random octets. How many are enough is told by the tape alone (`Suffices`): a zero in
the filler takes the tape up to the next octet that is none, and a scalar takes blocks up to the first that writes one.
On such a tape a content key is established and the image is written, and on every other tape the draws do not end
(`loaded_key_serves`).
-/

namespace SealedImage

section Draws

variable {α : Type} {use : Use} {accept : Block use.size → Option α} {trace : Trace} {xs ys tape : Octets}

/-- What is accepted stands behind whole blocks. -/
lemma Attempts.octets_eq {a : α} (h : Attempts use accept trace a) :
    ∃ before block, trace.octets = before ++ block.octets ∧ use.size ∣ before.length ∧ accept block = some a := by
  induction h with
  | @accepted block a h => exact ⟨[], block, by simp, by simp, h⟩
  | @rejected first trace a h later ih =>
    obtain ⟨before, block, hoctets, hbefore, haccept⟩ := ih
    refine ⟨first.octets ++ before, block, ?_, ?_, haccept⟩
    · rw [Trace.octets_drawn, hoctets, List.append_assoc]
    · rw [List.length_append, first.length_octets]
      exact dvd_add (dvd_refl _) hbefore

/-- Of whole blocks with an acceptable one behind them, the first that is acceptable ends the attempts. -/
lemma exists_attempts {count : Nat} {before : Octets} {block : Block use.size} {a : α}
    (hbefore : before.length = use.size * count) (h : accept block = some a) :
    ∃ trace a', Attempts use accept trace a' ∧ trace.octets <+: before ++ block.octets := by
  induction count generalizing before with
  | zero =>
    obtain rfl := List.eq_nil_of_length_eq_zero hbefore
    exact ⟨_, a, .accepted h, by simp⟩
  | succ count ih =>
    rw [Nat.mul_succ] at hbefore
    let first : Block use.size := Block.cut before 0 use.size (by omega)
    have hsplit : before = first.octets ++ before.drop use.size := (List.take_append_drop _ _).symm
    cases hfirst : accept first with
    | some a' =>
      refine ⟨_, a', .accepted hfirst, ?_⟩
      rw [hsplit, Trace.octets_drawn, Trace.octets_nil, List.append_nil, List.append_assoc]
      exact List.prefix_append _ _
    | none =>
      -- one block less stands before the acceptable one
      have hrest : (before.drop use.size).length = use.size * count := by
        rw [List.length_drop]
        omega
      obtain ⟨trace, a', hattempts, hstart⟩ := ih hrest
      refine ⟨_, a', .rejected hfirst hattempts, ?_⟩
      rw [hsplit, Trace.octets_drawn, List.append_assoc]
      exact (List.prefix_append_right_inj _).mpr hstart

lemma nonZeroOctet_eq_none {x : UInt8} {block : Block 1} (hx : block.octets = [x]) :
    nonZeroOctet block = none ↔ x = 0 := by
  rw [nonZeroOctet, hx]
  simp

/-- An octet in place of a zero takes one octet that is no zero. -/
lemma Attempts.countP_octets {y : UInt8} (h : Attempts .redraw nonZeroOctet trace y) :
    trace.octets.countP (· != 0) = 1 := by
  induction h with
  | @accepted block a h =>
    obtain ⟨x, hx⟩ := List.length_eq_one_iff.mp block.length_octets
    have hne : x ≠ 0 := fun hzero => by rw [(nonZeroOctet_eq_none hx).mpr hzero] at h; cases h
    simp [hx, hne]
  | @rejected block trace a h later ih =>
    obtain ⟨x, hx⟩ := List.length_eq_one_iff.mp block.length_octets
    rw [Trace.octets_drawn, hx, (nonZeroOctet_eq_none hx).mp h]
    simpa using ih

lemma exists_attempts_redraw (h : 0 < tape.countP (· != 0)) :
    ∃ trace y rest, Attempts .redraw nonZeroOctet trace y ∧ tape = trace.octets ++ rest := by
  induction tape with
  | nil => simp at h
  | cons x tape ih =>
    let block : Block Use.redraw.size := ⟨[x], rfl⟩
    by_cases hzero : x = 0
    · rw [List.countP_cons_of_neg (by simp [hzero])] at h
      obtain ⟨trace, y, rest, hattempts, rfl⟩ := ih h
      exact ⟨.drawn .redraw block :: trace, y, rest, .rejected ((nonZeroOctet_eq_none rfl).mpr hzero) hattempts, rfl⟩
    · have haccept : nonZeroOctet block = some x := by simp [nonZeroOctet, block, hzero]
      exact ⟨[.drawn .redraw block], x, tape, .accepted haccept, rfl⟩

lemma Refilled.countP_octets (h : Refilled xs trace ys) : trace.octets.countP (· != 0) = xs.count 0 := by
  induction h with
  | nil => rfl
  | kept hx later ih => rw [ih, List.count_cons_of_ne hx]
  | replaced hattempts later ih =>
    rw [Trace.octets_append, List.countP_append, hattempts.countP_octets, ih, List.count_cons_self, Nat.add_comm]

/-- As many octets that are no zeros as there are zeros to replace are enough. -/
lemma exists_refilled (h : xs.count 0 ≤ tape.countP (· != 0)) :
    ∃ trace ys, Refilled xs trace ys ∧ trace.octets <+: tape := by
  induction xs generalizing tape with
  | nil => exact ⟨[], [], .nil, List.nil_prefix⟩
  | cons x xs ih =>
    by_cases hzero : x = 0
    · subst hzero
      rw [List.count_cons_self] at h
      -- the octet for this zero is the only one that is no zero among those that its attempts take
      obtain ⟨trace, y, rest, hattempts, rfl⟩ := exists_attempts_redraw (by omega : 0 < tape.countP (· != 0))
      rw [List.countP_append, hattempts.countP_octets] at h
      obtain ⟨trace', ys, hrefilled, hstart⟩ := ih (by omega : xs.count 0 ≤ rest.countP (· != 0))
      refine ⟨trace ++ trace', y :: ys, .replaced hattempts hrefilled, ?_⟩
      rw [Trace.octets_append]
      exact (List.prefix_append_right_inj _).mpr hstart
    · rw [List.count_cons_of_ne hzero] at h
      obtain ⟨trace, ys, hrefilled, hstart⟩ := ih h
      exact ⟨trace, x :: ys, .kept hzero hrefilled, hstart⟩

end Draws

namespace Action.Behaves

variable {σ α : Type} {x : Action σ α} {R : Trace → Except Failure α → Prop} {s : Session σ}

lemma exists_outcome (hx : x.Behaves R) {trace : Trace} {r : Except Failure α} (h : R trace r)
    (hstart : trace.octets <+: s.tape) : ∃ t, x.outcome s = some (r, t) ∧ t.store = s.store := by
  obtain ⟨rest, htape⟩ := hstart
  exact ⟨⟨rest, s.journal ++ trace.events, s.store⟩, (hx s r _).mpr ⟨trace, h, htape.symm, rfl, rfl⟩, rfl⟩

lemma outcome_eq_none (hx : x.Behaves R) (h : ∀ trace r, R trace r → ¬trace.octets <+: s.tape) :
    x.outcome s = none := by
  cases hrun : x.outcome s with
  | none => rfl
  | some out =>
    obtain ⟨trace, hR, hpasses⟩ := (hx s out.1 out.2).mp hrun
    exact absurd ⟨_, hpasses.tape.symm⟩ (h trace _ hR)

end Action.Behaves

/-- A tape has all that is drawn to establish a content key for a recipient. Under the RSA scheme, a content key and a
filler come first, and behind them as many octets that are no zeros as the filler has zeros. Under the ECC scheme, a
salt comes behind blocks of which the last writes a scalar of the group. -/
inductive Suffices : Scheme → Octets → Prop
  | rsa3072 {contentKey : Block 32} {filler : Block 349} {behind : Octets}
      (h : filler.octets.count 0 ≤ behind.countP (· != 0)) :
    Suffices .rsa3072 (contentKey.octets ++ (filler.octets ++ behind))
  | ecc256 {before behind : Octets} {scalar salt : Block 32} (hbefore : 32 ∣ before.length)
      (hscalar : 0 < scalar.toNat ∧ scalar.toNat < P256.order) :
    Suffices .ecc256 (before ++ scalar.octets ++ (salt.octets ++ behind))

lemma suffices_rsa3072_iff {tape : Octets} : Suffices .rsa3072 tape ↔
    381 ≤ tape.length ∧ ((tape.drop 32).take 349).count 0 ≤ (tape.drop 381).countP (· != 0) := by
  constructor
  · intro h
    cases h with
    | @rsa3072 contentKey filler behind h =>
      have hfiller : (contentKey.octets ++ (filler.octets ++ behind)).drop 32 = filler.octets ++ behind :=
        List.drop_left' contentKey.length_octets
      have hbehind : (contentKey.octets ++ (filler.octets ++ behind)).drop 381 = behind := by
        rw [← List.append_assoc]
        exact List.drop_left' (by simp)
      rw [hfiller, hbehind, List.take_left' filler.length_octets]
      exact ⟨by simp; omega, h⟩
  · rintro ⟨hlength, h⟩
    have hsplit : tape = tape.take 32 ++ ((tape.drop 32).take 349 ++ tape.drop 381) := by
      rw [show tape.drop 381 = (tape.drop 32).drop 349 by rw [List.drop_drop], List.take_append_drop,
        List.take_append_drop]
    rw [hsplit]
    exact @Suffices.rsa3072 (Block.cut tape 0 32 (by omega)) (Block.cut tape 32 349 hlength) _ h

/-- A tape has what suffices for a recipient, and an initialization vector behind it. -/
def SufficesForImage (scheme : Scheme) (tape : Octets) : Prop :=
  ∃ start, Suffices scheme start ∧ ∃ iv : Block 16, start ++ iv.octets <+: tape

/-- A key has the right size and no defect. -/
structure KeyMaterial.Usable (key : KeyMaterial) : Prop where
  size : key.checkSize = .ok ()
  flawless : key.Flawless

/-- A key is loaded if a form is found in the text and the size is right, and each form has the numbers checked. -/
lemma KeyMaterial.usable_of_ofText {text : List Char} {key : KeyMaterial} (h : ofText text = .ok key) : key.Usable := by
  obtain ⟨hload, hsize⟩ := ofText_eq_ok_iff.mp h
  obtain ⟨-, -, -, -, hflawless⟩ := exists_form hload
  exact ⟨hsize, hflawless⟩

section Establishing

variable {key : KeyMaterial} {options : SealOptions} {trace : Trace} {tape : Octets}

lemma KeyMaterial.exists_rsaRecipient (h : key.scheme = .rsa3072) : ∃ k, key.rsaRecipient? = some k := by
  cases key with
  | rsaPrivate k => exact ⟨_, rfl⟩
  | rsaPublic k => exact ⟨_, rfl⟩
  | eccPrivate k | eccPublic k => cases h

/-- Every key on P-256 has a point, a private one because no scalar of the group gives infinity. -/
lemma KeyMaterial.exists_eccRecipient (h : key.scheme = .ecc256) : ∃ k, key.eccRecipient? = some k := by
  cases key with
  | rsaPrivate k | rsaPublic k => cases h
  | eccPrivate k => exact ⟨_, k.publicKey?_eq⟩
  | eccPublic k => exact ⟨_, rfl⟩

lemma Agrees.exists_ok {recipient : P256.PublicKey} {device : Option DeviceKey} {r : Except Failure Established}
    (h : Agrees recipient device trace r) : ∃ est, r = .ok est := by
  cases h with
  | @infinite _ sender h hpoint =>
    rw [sender.publicKey?_eq] at hpoint
    cases hpoint
  | agreed h hpub => exact ⟨_, rfl⟩

lemma Wraps.exists_ok {recipient : Rsa.PublicKey} {contentKey : Block 32} {r : Except Failure (Block 384)}
    (hsize : recipient.checkSize = .ok ()) (hdefect : recipient.defect? = none)
    (h : Wraps recipient contentKey trace r) : ∃ wrapped, r = .ok wrapped := by
  cases h with
  | missized h =>
    rw [hsize] at h
    cases h
  | unfit _ h =>
    rw [hdefect] at h
    cases h
  | wrapped => exact ⟨_, rfl⟩

lemma KeyMaterial.Usable.recipient {recipient : Rsa.PublicKey} (h : key.Usable)
    (hkey : key.rsaRecipient? = some recipient) : recipient.checkSize = .ok () ∧ recipient.defect? = none :=
  ⟨checkSize_of_rsaRecipient? hkey ▸ h.size, h.flawless _ hkey⟩

/-- No content key fails to be established for a key that can be used. -/
theorem Establishes.exists_ok {r : Except Failure Established} (husable : key.Usable)
    (h : Establishes options (some key) trace r) : ∃ est, r = .ok est := by
  cases h with
  | rsa hkey wraps =>
    obtain ⟨hsize, hdefect⟩ := husable.recipient hkey
    obtain ⟨wrapped, rfl⟩ := wraps.exists_ok hsize hdefect
    exact ⟨_, rfl⟩
  | ecc hkey agrees => exact agrees.exists_ok
  | infinite hscheme hkey =>
    obtain ⟨k, hsome⟩ := KeyMaterial.exists_eccRecipient hscheme
    rw [hkey] at hsome
    cases hsome

lemma Wraps.suffices {recipient : Rsa.PublicKey} {contentKey : Block 32} {wrapped : Block 384}
    (h : Wraps recipient contentKey trace (.ok wrapped)) (hstart : contentKey.octets ++ trace.octets <+: tape) :
    Suffices .rsa3072 tape := by
  obtain ⟨behind, rfl⟩ := hstart
  cases h with
  | @wrapped first _ _ later _ _ hfiller _ =>
    rw [Trace.octets_drawn, List.append_assoc, List.append_assoc]
    apply Suffices.rsa3072
    rw [List.countP_append, hfiller.countP_octets]
    exact Nat.le_add_right _ _

lemma Agrees.suffices {recipient : P256.PublicKey} {device : Option DeviceKey} {est : Established}
    (h : Agrees recipient device trace (.ok est)) (hstart : trace.octets <+: tape) : Suffices .ecc256 tape := by
  obtain ⟨behind, rfl⟩ := hstart
  cases h with
  | @agreed first sender pub salt h hpub =>
    obtain ⟨before, block, hoctets, hbefore, haccept⟩ := h.octets_eq
    rw [Trace.octets_append, hoctets, Trace.octets_drawn, Trace.octets_nil, List.append_nil, List.append_assoc]
    obtain ⟨hscalar, -⟩ := Option.dite_none_right_eq_some.mp haccept
    exact .ecc256 hbefore hscalar

lemma Establishes.suffices {est : Established} (h : Establishes options (some key) trace (.ok est))
    (hstart : trace.octets <+: tape) : Suffices key.scheme tape := by
  rcases h.cases_ok with ⟨k, recipient, contentKey, later, wrapped, hk, hkey, wraps, rfl, -⟩ |
    ⟨k, recipient, hk, hkey, agrees⟩ | ⟨first, second, device, recipient, hk, -⟩
  · obtain rfl := Option.some.inj hk
    rw [KeyMaterial.scheme_of_rsaRecipient? hkey]
    exact wraps.suffices hstart
  · obtain rfl := Option.some.inj hk
    rw [KeyMaterial.scheme_of_eccRecipient? hkey]
    exact agrees.suffices hstart
  · cases hk

lemma exists_wraps_of_suffices {recipient : Rsa.PublicKey} (hsize : recipient.checkSize = .ok ())
    (hdefect : recipient.defect? = none) (contentKey : Block 32) {filler : Block 349} {behind : Octets}
    (h : filler.octets.count 0 ≤ behind.countP (· != 0)) :
    ∃ trace wrapped, Wraps recipient contentKey trace (.ok wrapped) ∧ trace.octets <+: filler.octets ++ behind := by
  obtain ⟨later, ys, hrefilled, hstart⟩ := exists_refilled h
  obtain ⟨wrapped, hwraps⟩ := Rsa.exists_wraps_of_refilled hsize hdefect contentKey hrefilled
  refine ⟨_, wrapped, hwraps, ?_⟩
  rw [Trace.octets_drawn]
  exact (List.prefix_append_right_inj _).mpr hstart

lemma exists_agrees (recipient : P256.PublicKey) (device : Option DeviceKey) {before behind : Octets}
    {scalar salt : Block 32} (hbefore : 32 ∣ before.length) (hscalar : 0 < scalar.toNat ∧ scalar.toNat < P256.order) :
    ∃ trace est, Agrees recipient device trace (.ok est) ∧
      trace.octets <+: before ++ scalar.octets ++ (salt.octets ++ behind) := by
  obtain ⟨count, hcount⟩ := hbefore
  have haccept : P256.SecretKey.ofNat? scalar.toNat = some ⟨scalar.toNat, hscalar.1, hscalar.2⟩ := dif_pos hscalar
  obtain ⟨trace, sender, hattempts, rest, hrest⟩ :=
    @exists_attempts _ .scalar (fun b => P256.SecretKey.ofNat? b.toNat) count before scalar _ hcount haccept
  -- the salt is what comes behind the accepted scalar, which may be an earlier one
  let first : Block 32 := Block.cut (rest ++ (salt.octets ++ behind)) 0 32 (by simp; omega)
  refine ⟨trace ++ [.drawn .salt first], _, .agreed hattempts sender.publicKey?_eq, ?_⟩
  rw [Trace.octets_append, ← hrest, List.append_assoc]
  exact (List.prefix_append_right_inj _).mpr (by simpa [first] using List.take_prefix _ _)

lemma exists_establishes (husable : key.Usable) (options : SealOptions) (h : Suffices key.scheme tape) :
    ∃ trace est, Establishes options (some key) trace (.ok est) ∧ trace.octets <+: tape := by
  generalize hscheme : key.scheme = scheme at h
  cases h with
  | @rsa3072 contentKey filler behind hzeros =>
    obtain ⟨recipient, hkey⟩ := KeyMaterial.exists_rsaRecipient hscheme
    obtain ⟨hsize, hdefect⟩ := husable.recipient hkey
    obtain ⟨trace, wrapped, hwraps, hstart⟩ := exists_wraps_of_suffices hsize hdefect contentKey hzeros
    exact ⟨_, _, .rsa hkey hwraps, (List.prefix_append_right_inj _).mpr hstart⟩
  | ecc256 hbefore hscalar =>
    obtain ⟨recipient, hkey⟩ := KeyMaterial.exists_eccRecipient hscheme
    obtain ⟨trace, est, hagrees, hstart⟩ := exists_agrees recipient none hbefore hscalar
    exact ⟨trace, est, .ecc hkey hagrees, hstart⟩

lemma exists_prepares (husable : key.Usable) (options : SealOptions) (h : SufficesForImage key.scheme tape) :
    ∃ trace est iv, Prepares (some key) options trace (.ok (est, iv)) ∧ trace.octets <+: tape := by
  obtain ⟨start, hsuffices, iv, behind, rfl⟩ := h
  obtain ⟨trace, est, hest, rest, rfl⟩ := exists_establishes husable options hsuffices
  let first : Block 16 := Block.cut (rest ++ (iv.octets ++ behind)) 0 16 (by simp; omega)
  refine ⟨_, est, first, .ready hest, ?_⟩
  rw [Trace.octets_reported, Trace.octets_append, List.append_assoc, List.append_assoc]
  exact (List.prefix_append_right_inj _).mpr (by simpa [first] using List.take_prefix _ _)

lemma Prepares.spec {est : Established} {iv : Block 16} (h : Prepares (some key) options trace (.ok (est, iv))) :
    est.keyBlob.scheme = key.scheme ∧ est.device = none := by
  cases h with
  | ready h =>
    obtain ⟨hscheme, hdevice⟩ := h.spec
    exact ⟨hscheme, Option.not_isSome_iff_eq_none.mp (by simp [hdevice])⟩

lemma Prepares.suffices {r : Except Failure (Established × Block 16)} (husable : key.Usable)
    (h : Prepares (some key) options trace r) (hstart : trace.octets <+: tape) : SufficesForImage key.scheme tape := by
  cases h with
  | refused h =>
    obtain ⟨est, hest⟩ := h.exists_ok husable
    cases hest
  | @ready later est iv h =>
    rw [Trace.octets_reported, Trace.octets_append, Trace.octets_drawn, Trace.octets_nil, List.append_nil] at hstart
    exact ⟨later.octets, h.suffices (List.prefix_refl _), iv, hstart⟩

variable {source : Source} {payload : Octets} {s : Session Sink}

/-- An open sink takes the image of whatever was prepared. -/
lemma outcome_encrypt_of_prepares {recipient : Option KeyMaterial} {est : Established} {iv : Block 16}
    (hread : source.readAll = .ok payload) (hfits : payload.length < UInt32.size) (hopen : s.store.Open)
    (h : Prepares recipient options trace (.ok (est, iv))) (hstart : trace.octets <+: s.tape) :
    ∃ t, (encrypt source recipient options).outcome s =
      some (.ok ⟨est.keyBlob.scheme, payload.length, Layout.headerSize + payload.length, est.device⟩, t) := by
  obtain ⟨ciphertext, tag, hsealed⟩ := Aes.encrypt_of_lt hfits est.contentKey iv
  obtain ⟨u, hrun, hstore⟩ :=
    (sealPayload_behaves payload recipient options).exists_outcome (.sealed hfits h hsealed) hstart
  rw [← hstore] at hopen
  rw [outcome_encrypt_of_readAll hread, hrun, Option.bind_some]
  dsimp only
  rw [(Sink.release_of_open _ hopen).1]
  exact ⟨_, rfl⟩

lemma outcome_encrypt_eq_none {recipient : Option KeyMaterial} (hread : source.readAll = .ok payload)
    (hfits : payload.length < UInt32.size)
    (h : ∀ trace r, Prepares recipient options trace r → ¬trace.octets <+: s.tape) :
    (encrypt source recipient options).outcome s = none := by
  have hnone : (sealPayload payload recipient options).outcome s = none := by
    apply (sealPayload_behaves payload recipient options).outcome_eq_none
    intro trace r hseals
    cases hseals with
    | tooLong hlong => exact absurd hfits (Nat.not_lt.mpr hlong)
    | refused _ prepares => exact h _ _ prepares
    | sealed _ prepares _ => exact h _ _ prepares
  rw [outcome_encrypt_of_readAll hread, hnone, Option.bind_none]

end Establishing

namespace KeyMaterial

/-- A key that was loaded never fails at use. If the tape suffices, a content key of its scheme is established, and if
there is an initialization vector besides, a payload that is not too long is sealed for the key into every sink that
takes what it is given. On every other tape the draws do not end. -/
theorem loaded_key_serves {text : List Char} {key : KeyMaterial} (h : ofText text = .ok key) (options : SealOptions) :
    (∀ (σ : Type) (s : Session σ),
      (Suffices key.scheme s.tape → ∃ est t, (establish (some key) options).outcome s = some (.ok est, t) ∧
        est.keyBlob.scheme = key.scheme) ∧
      (¬Suffices key.scheme s.tape → (establish (some key) options).outcome s = none)) ∧
    ∀ source payload (s : Session Sink), source.readAll = .ok payload → payload.length < UInt32.size → s.store.Open →
      (SufficesForImage key.scheme s.tape → ∃ t, (encrypt source (some key) options).outcome s =
        some (.ok ⟨key.scheme, payload.length, Layout.headerSize + payload.length, none⟩, t)) ∧
      (¬SufficesForImage key.scheme s.tape → (encrypt source (some key) options).outcome s = none) := by
  have husable := usable_of_ofText h
  refine ⟨fun σ s => ⟨fun hsuffices => ?_, fun hnot => ?_⟩, fun source payload s hread hfits hopen =>
    ⟨fun hsuffices => ?_, fun hnot => ?_⟩⟩
  · obtain ⟨trace, est, hest, hstart⟩ := exists_establishes husable options hsuffices
    obtain ⟨t, hrun, -⟩ := (establish_behaves (some key) options).exists_outcome ⟨trace, hest, rfl⟩ hstart
    exact ⟨est, t, hrun, hest.spec.1⟩
  · apply (establish_behaves (some key) options).outcome_eq_none
    rintro trace r ⟨later, hest, rfl⟩ hstart
    obtain ⟨est, rfl⟩ := hest.exists_ok husable
    exact hnot (hest.suffices hstart)
  · obtain ⟨trace, est, iv, hprepares, hstart⟩ := exists_prepares husable options hsuffices
    obtain ⟨hscheme, hdevice⟩ := hprepares.spec
    rw [← hscheme, ← hdevice]
    exact outcome_encrypt_of_prepares hread hfits hopen hprepares hstart
  · exact outcome_encrypt_eq_none hread hfits fun trace r hprepares hstart =>
      hnot (hprepares.suffices husable hstart)

/-- A content key, a filler of nothing but zeros, and the octets in place of them, before which another zero comes. -/
def sampleZeros : Octets :=
  List.replicate 32 7 ++ (List.replicate 349 0 ++ 0 :: List.replicate 349 5)

/-- The sample key loads. A tape on which every octet of the filler is drawn again is enough for it, and is not without
the last octet. The base point loads, and the second block on its tape is the first to write a scalar of the group. -/
theorem loaded_key_serves_sample :
    ofText sampleKey.publicKey.armored.toList = .ok (.rsaPublic sampleKey.publicKey) ∧
    (establish (some (.rsaPublic sampleKey.publicKey)) .standard : Action Unit _).outcome
      ⟨sampleZeros.dropLast, [], ()⟩ = none ∧
    (∃ t, (encrypt (Source.ofOctets samplePayload) (some (.rsaPublic sampleKey.publicKey)) .standard).outcome
        ⟨sampleZeros ++ List.replicate 16 1, [], Sink.perfect⟩ =
      some (.ok ⟨.rsa3072, samplePayload.length, Layout.headerSize + samplePayload.length, none⟩, t)) ∧
    ofText sampleBase.armored.toList = .ok (.eccPublic sampleBase) ∧
    ∃ est t, (establish (some (.eccPublic sampleBase)) .standard : Action Unit _).outcome
      ⟨List.replicate 32 255 ++ List.replicate 64 1, [], ()⟩ = some (.ok est, t) ∧ est.keyBlob.scheme = .ecc256 := by
  have hrsa : ofText sampleKey.publicKey.armored.toList = .ok (.rsaPublic sampleKey.publicKey) := by
    rw [ofText_rsaPublic_eq (by decide +kernel) (by decide +kernel),
      Rsa.PublicKey.checkSize_of_fits (by decide +kernel)]
    rfl
  have hecc : ofText sampleBase.armored.toList = .ok (.eccPublic sampleBase) := ofText_eccPublic sampleBase
  obtain ⟨hestablish, hencrypt⟩ := loaded_key_serves hrsa .standard
  refine ⟨hrsa, ?_, ?_, hecc, ?_⟩
  · apply (hestablish Unit _).2
    intro hsuffices
    exact absurd (suffices_rsa3072_iff.mp hsuffices) (by decide +kernel)
  · apply (hencrypt _ samplePayload ⟨_, [], Sink.perfect⟩ (Source.readAll_ofOctets _) (by decide +kernel)
      Sink.perfect_open).1
    have hzeros : Suffices .rsa3072 sampleZeros := suffices_rsa3072_iff.mpr (by decide +kernel)
    exact ⟨sampleZeros, hzeros, Block.replicate 16 1, List.prefix_refl _⟩
  · apply ((loaded_key_serves hecc .standard).1 Unit _).1
    exact @Suffices.ecc256 (List.replicate 32 255) [] (Block.replicate 32 1) (Block.replicate 32 1) (by decide)
      (by decide +kernel)

end KeyMaterial

end SealedImage
