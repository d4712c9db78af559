import Mathlib.Tactic.Common
import SealedImage.Proofs.Calls
import SealedImage.Proofs.RoundTrip

/-!
# No octet is drawn twice

The values that are drawn for an image are listed in `DrawnFor` by what they are for, and each step of the
preparation has its part of the list (`Prepares.uses`). A run of encryption draws what was prepared, which is
the same for every payload (`SealRun.DrawsFresh`). Calls that share a tape begin where the call before them
ended, so the readings of all of them are those of one trace, and no two of these overlap
(`no_octet_is_drawn_twice`).
-/

namespace SealedImage

/-- What is drawn to seal a payload, in order: under the RSA scheme a content key and a filler with as many
other octets as it takes to be rid of its zeros, under the ECC scheme the seeds of a device, if one is made and
no seed is given, then scalars up to the first one in range, and a salt. The initialization vector comes last. -/
def DrawnFor (key : Option KeyMaterial) (options : SealOptions) (uses : List Use) : Prop :=
  match Scheme.resolve key options.fallback with
  | .rsa3072 => ∃ redrawn, uses = [.contentKey, .filler] ++ List.replicate redrawn .redraw ++ [.iv]
  | .ecc256 => ∃ seeds refused, uses = List.replicate seeds .deviceSeed ++
      List.replicate (refused + 1) .scalar ++ [.salt, .iv] ∧
      (0 < seeds ↔ key = none ∧ options.deviceSeed = none) ∧ seeds ≤ DeviceKey.maxAttempts

section Uses

variable {trace : Trace} {options : SealOptions} {key : Option KeyMaterial}

lemma SeedAttempts.uses {derive : Block 32 → Block 32} {left : Nat} {r : Except Failure DeviceKey}
    (h : SeedAttempts derive left trace r) : ∃ seeds ≤ left, trace.uses = List.replicate seeds .deviceSeed ∧
      ∀ device, r = .ok device → 0 < seeds := by
  induction h with
  | exhausted => exact ⟨0, Nat.le_refl _, rfl, fun _ h => nomatch h⟩
  | accepted h => exact ⟨1, by omega, rfl, fun _ _ => Nat.one_pos⟩
  | refused h later ih =>
    obtain ⟨seeds, hle, huses, -⟩ := ih
    refine ⟨seeds + 1, by omega, ?_, fun _ _ => Nat.succ_pos seeds⟩
    rw [Trace.uses_drawn, Trace.uses_reported, huses]
    rfl

/-- Seeds are drawn exactly if none is given. -/
lemma MakesDevice.uses {device : DeviceKey} (h : MakesDevice options trace (.ok device)) :
    ∃ seeds ≤ DeviceKey.maxAttempts, trace.uses = List.replicate seeds .deviceSeed ∧
      (0 < seeds ↔ options.deviceSeed = none) := by
  generalize hr : Except.ok device = r at h
  cases h with
  | given h => exact ⟨0, Nat.zero_le _, rfl, by simp [h]⟩
  | drawn h attempts =>
    obtain ⟨seeds, hle, huses, hpos⟩ := attempts.uses
    exact ⟨seeds, hle, huses, fun _ => h, fun _ => hpos device hr.symm⟩

lemma Agrees.uses {recipient : P256.PublicKey} {device : Option DeviceKey} {est : Established}
    (h : Agrees recipient device trace (.ok est)) :
    ∃ refused, trace.uses = List.replicate (refused + 1) .scalar ++ [.salt] := by
  cases h with
  | agreed h hpub =>
    obtain ⟨refused, huses⟩ := h.uses
    exact ⟨refused, by rw [Trace.uses_append, huses]; rfl⟩

lemma Wraps.uses {recipient : Rsa.PublicKey} {contentKey : Block 32} {wrapped : Block 384}
    (h : Wraps recipient contentKey trace (.ok wrapped)) :
    ∃ redrawn, trace.uses = .filler :: List.replicate redrawn .redraw := by
  cases h with
  | wrapped hsize hfit hfiller hwrapped =>
    obtain ⟨redrawn, huses⟩ := hfiller.uses
    exact ⟨redrawn, by rw [Trace.uses_drawn, huses]⟩

lemma drawnFor_rsa {uses : List Use} (redrawn : Nat) (hscheme : Scheme.resolve key options.fallback = .rsa3072)
    (h : uses = [.contentKey, .filler] ++ List.replicate redrawn .redraw ++ [.iv]) :
    DrawnFor key options uses := by
  unfold DrawnFor
  rw [hscheme]
  exact ⟨redrawn, h⟩

lemma drawnFor_ecc {uses : List Use} (seeds refused : Nat)
    (hscheme : Scheme.resolve key options.fallback = .ecc256)
    (h : uses = List.replicate seeds .deviceSeed ++ List.replicate (refused + 1) .scalar ++ [.salt, .iv])
    (hseeds : 0 < seeds ↔ key = none ∧ options.deviceSeed = none) (hle : seeds ≤ DeviceKey.maxAttempts) :
    DrawnFor key options uses := by
  unfold DrawnFor
  rw [hscheme]
  exact ⟨seeds, refused, h, hseeds, hle⟩

theorem Prepares.uses {est : Established} {iv : Block 16} (h : Prepares key options trace (.ok (est, iv))) :
    DrawnFor key options trace.uses := by
  cases h with
  | @ready trace _ _ h =>
    rw [Trace.uses_reported, Trace.uses_append]
    rcases h.cases_ok with ⟨k, recipient, contentKey, later, wrapped, rfl, hkey, wraps, rfl, -⟩ |
      ⟨k, recipient, rfl, hkey, agrees⟩ | ⟨first, second, device, recipient, rfl, hfallback, makes, -, agrees, rfl⟩
    · obtain ⟨redrawn, huses⟩ := wraps.uses
      refine drawnFor_rsa redrawn (KeyMaterial.scheme_of_rsaRecipient? hkey) ?_
      rw [Trace.uses_drawn, huses]
      rfl
    · obtain ⟨refused, huses⟩ := agrees.uses
      refine drawnFor_ecc 0 refused (KeyMaterial.scheme_of_eccRecipient? hkey) ?_ ?_ (Nat.zero_le _)
      · rw [huses]
        simp
      · simp
    · obtain ⟨seeds, hle, hseeds, hiff⟩ := makes.uses
      obtain ⟨refused, hrefused⟩ := agrees.uses
      refine drawnFor_ecc seeds refused hfallback ?_ ?_ hle
      · rw [Trace.uses_append, Trace.uses_reported, hseeds, hrefused]
        simp
      · simpa using hiff

end Uses

/-- A call of encryption, with the sink that it writes to. -/
structure SealCall where
  source : Source
  key : Option KeyMaterial
  options : SealOptions
  sink : Sink

/-- A call with what it does. -/
structure SealRun where
  call : SealCall
  trace : Trace
  result : Except Failure SealSummary
  sink : Sink
  encrypts : Encrypts call.source call.key call.options call.sink trace result sink

/-- What calls end in that draw from one tape, one after the other, and the unread rest. -/
def SealCall.runAll : List SealCall → Octets → Option (List (Except Failure SealSummary × Sink) × Octets)
  | [], tape => some ([], tape)
  | call :: calls, tape => do
    let (result, t) ← (encrypt call.source call.key call.options).outcome ⟨tape, [], call.sink⟩
    let (results, rest) ← runAll calls t.tape
    some ((result, t.store) :: results, rest)

/-- A payload is read that is not too long. -/
def SealCall.Reads (call : SealCall) (payload : Octets) : Prop :=
  call.source.readAll = .ok payload ∧ payload.length < UInt32.size

namespace SealRun

variable (run : SealRun)

/-- The run makes an image with an established content key and an initialization vector. -/
structure Completes (est : Established) (iv : Block 16) (payload : Octets) : Prop where
  uses : DrawnFor run.call.key run.call.options run.trace.uses
  last : ∃ before offset, run.trace.readings 0 = before ++ [⟨.iv, offset, iv⟩]
  image : ∃ ciphertext tag, Aes.encrypt est.contentKey iv payload = some (ciphertext, tag) ∧
    run.sink = (run.call.sink.release (est.image iv payload ciphertext tag).toOctets).2

/-- What a run draws has nothing to do with the payload. -/
structure DrawsFresh : Prop where
  idle : (∀ payload, ¬run.call.Reads payload) ∨ run.call.key = none ∧ run.call.options.fallback = .rsa3072 →
    run.trace.uses = []
  prepares : ∀ payload, run.call.Reads payload → ∃ draws prepared,
    Prepares run.call.key run.call.options draws prepared ∧
      (∀ offset, run.trace.readings offset = draws.readings offset) ∧
      ∀ est iv, prepared = .ok (est, iv) → run.Completes est iv payload
  independent : ∀ payload, run.call.Reads payload → ∀ (other : SealCall) (payload' : Octets),
    other.key = run.call.key → other.options = run.call.options → other.Reads payload' → ∀ rest,
      ∃ run' : SealRun, run'.call = other ∧
        (∀ offset, run'.trace.readings offset = run.trace.readings offset) ∧
        SealCall.runAll [other] (run.trace.octets ++ rest) = some ([(run'.result, run'.sink)], rest)

end SealRun

/-- Nothing is drawn for no recipient. -/
lemma Prepares.uses_of_noRecipient {options : SealOptions} {trace : Trace}
    {r : Except Failure (Established × Block 16)} (h : Prepares none options trace r)
    (hfallback : options.fallback = .rsa3072) : trace.uses = [] := by
  cases h with
  | refused h => cases h <;> simp_all
  | ready h =>
    generalize hest : Except.ok _ = r at h
    cases h <;> simp_all

section Encrypts

variable {source : Source} {key : Option KeyMaterial} {options : SealOptions} {sink sink' : Sink} {draws : Trace}
  {trace : Trace} {r : Except Failure SealSummary} {prepared : Except Failure (Established × Block 16)}
  {payload : Octets}

/-- What was prepared for one payload is all that is drawn for any other one. -/
lemma Prepares.encrypts (h : Prepares key options draws prepared) (hread : source.readAll = .ok payload)
    (hfits : payload.length < UInt32.size) (sink : Sink) :
    ∃ trace r sink', Encrypts source key options sink trace r sink' ∧
      ∀ offset, trace.readings offset = draws.readings offset := by
  cases prepared with
  | error e => exact ⟨draws, _, _, .unsealed hread (.refused hfits h), fun _ => rfl⟩
  | ok pair =>
    obtain ⟨est, iv⟩ := pair
    obtain ⟨ciphertext, tag, hsealed⟩ := Aes.encrypt_of_lt hfits est.contentKey iv
    have hseals := Seals.sealed hfits h hsealed
    cases hrelease : (sink.release (est.image iv payload ciphertext tag).toOctets).1 with
    | some fault => exact ⟨draws, _, _, .unwritten hread hseals hrelease, fun _ => rfl⟩
    | none =>
      refine ⟨_, _, _, .written hread hseals hrelease, fun offset => ?_⟩
      rw [Trace.readings_append]
      exact List.append_nil _

/-- Behind what was prepared an encryption draws nothing. -/
lemma Encrypts.prepares (h : Encrypts source key options sink trace r sink') (hread : source.readAll = .ok payload)
    (hfits : payload.length < UInt32.size) : ∃ draws later prepared, Prepares key options draws prepared ∧
      trace = draws ++ later ∧ later.uses = [] ∧ ∀ est iv, prepared = .ok (est, iv) →
        ∃ ciphertext tag, Aes.encrypt est.contentKey iv payload = some (ciphertext, tag) ∧
          sink' = (sink.release (est.image iv payload ciphertext tag).toOctets).2 := by
  cases h with
  | unread hread' => simp [hread] at hread'
  | unsealed hread' seals =>
    rw [hread] at hread'
    cases hread'
    cases seals with
    | tooLong h => exact absurd hfits (Nat.not_lt.mpr h)
    | refused h prepares => exact ⟨trace, [], _, prepares, (List.append_nil _).symm, rfl, fun _ _ h => nomatch h⟩
  | unwritten hread' seals hfault =>
    rw [hread] at hread'
    cases hread'
    cases seals with
    | sealed h prepares hsealed =>
      refine ⟨trace, [], _, prepares, (List.append_nil _).symm, rfl, fun est iv heq => ?_⟩
      cases heq
      exact ⟨_, _, hsealed, rfl⟩
  | written hread' seals hdone =>
    rw [hread] at hread'
    cases hread'
    cases seals with
    | sealed h prepares hsealed =>
      refine ⟨_, _, _, prepares, rfl, rfl, fun est iv heq => ?_⟩
      cases heq
      exact ⟨_, _, hsealed, rfl⟩

/-- Nothing is drawn for a payload that cannot be read or is too long. -/
lemma Encrypts.uses_of_no_payload (h : Encrypts source key options sink trace r sink')
    (hno : ∀ payload, source.readAll = .ok payload → UInt32.size ≤ payload.length) : trace.uses = [] := by
  have hsealed {payload : Octets} {trace : Trace} {r : Except Failure (Container × Scheme × Option DeviceKey)}
      (hread : source.readAll = .ok payload) (seals : Seals payload key options trace r) : trace.uses = [] := by
    have hlong := Nat.not_lt.mpr (hno payload hread)
    cases seals with
    | tooLong h => rfl
    | refused h prepares => exact absurd h hlong
    | sealed h prepares hsealed => exact absurd h hlong
  cases h with
  | unread hread => rfl
  | unsealed hread seals => exact hsealed hread seals
  | unwritten hread seals hfault => exact hsealed hread seals
  | written hread seals hdone =>
    rw [Trace.uses_append, hsealed hread seals]
    rfl

end Encrypts

namespace SealRun

variable (run : SealRun)

lemma idle (h : (∀ payload, ¬run.call.Reads payload) ∨
    run.call.key = none ∧ run.call.options.fallback = .rsa3072) : run.trace.uses = [] := by
  by_cases hreads : ∃ payload, run.call.Reads payload
  · obtain ⟨payload, hread, hfits⟩ := hreads
    rcases h with hnone | ⟨hkey, hfallback⟩
    · exact absurd ⟨hread, hfits⟩ (hnone payload)
    · obtain ⟨draws, later, prepared, hprepares, htrace, hlater, -⟩ := run.encrypts.prepares hread hfits
      rw [hkey] at hprepares
      rw [htrace, Trace.uses_append, hprepares.uses_of_noRecipient hfallback, hlater]
      rfl
  · refine run.encrypts.uses_of_no_payload fun payload hread => Nat.le_of_not_lt fun hfits => ?_
    exact hreads ⟨payload, hread, hfits⟩

/-- A run ends as it does whatever stands on the tape behind what it reads. -/
lemma runAll_call (rest : Octets) :
    SealCall.runAll [run.call] (run.trace.octets ++ rest) = some ([(run.result, run.sink)], rest) := by
  have hrun : (encrypt run.call.source run.call.key run.call.options).outcome
      ⟨run.trace.octets ++ rest, [], run.call.sink⟩ = some (run.result, ⟨rest, run.trace.events, run.sink⟩) :=
    encrypt_outcome_iff.mpr ⟨run.trace, run.encrypts, rfl, rfl, rfl⟩
  rw [SealCall.runAll, hrun]
  rfl

theorem drawsFresh : run.DrawsFresh := by
  have hprepares {payload : Octets} (h : run.call.Reads payload) := run.encrypts.prepares h.1 h.2
  have hreadings {draws later : Trace} (htrace : run.trace = draws ++ later) (hlater : later.uses = [])
      (offset : Nat) : run.trace.readings offset = draws.readings offset := by
    have hnil : later.readings (offset + draws.octets.length) = [] :=
      List.map_eq_nil_iff.mp ((Trace.readings_uses later _).trans hlater)
    rw [htrace, Trace.readings_append, hnil, List.append_nil]
  refine ⟨run.idle, fun payload h => ?_, fun payload h other payload' hkey hoptions hother rest => ?_⟩
  · obtain ⟨draws, later, prepared, hdraws, htrace, hlater, hsealed⟩ := hprepares h
    refine ⟨draws, prepared, hdraws, hreadings htrace hlater, ?_⟩
    rintro est iv rfl
    refine ⟨?_, ?_, hsealed est iv rfl⟩
    · rw [htrace, Trace.uses_append, hlater, List.append_nil]
      exact hdraws.uses
    · rw [hreadings htrace hlater]
      cases hdraws with
      | @ready trace _ _ h =>
        rw [Trace.readings, Trace.readings_append]
        exact ⟨_, _, rfl⟩
  · obtain ⟨draws, later, prepared, hdraws, htrace, hlater, -⟩ := hprepares h
    rw [← hkey, ← hoptions] at hdraws
    obtain ⟨trace', result', sink', hencrypts, hsame⟩ := hdraws.encrypts hother.1 hother.2 other.sink
    have hsame (offset : Nat) : trace'.readings offset = run.trace.readings offset := by
      rw [hsame, hreadings htrace hlater]
    refine ⟨⟨other, trace', result', sink', hencrypts⟩, rfl, hsame, ?_⟩
    rw [← Trace.readings_octets run.trace 0, ← hsame 0, Trace.readings_octets]
    exact runAll_call ⟨other, trace', result', sink', hencrypts⟩ rest

end SealRun

lemma SealCall.runAll_spec {calls : List SealCall} {tape rest : Octets}
    {results : List (Except Failure SealSummary × Sink)} (h : runAll calls tape = some (results, rest)) :
    ∃ runs : List SealRun, runs.map (·.call) = calls ∧ runs.map (fun run => (run.result, run.sink)) = results ∧
      tape = Trace.octets (runs.flatMap (·.trace)) ++ rest := by
  induction calls generalizing tape results with
  | nil =>
    obtain ⟨rfl, rfl⟩ := Prod.mk.inj (Option.some.inj h)
    exact ⟨[], rfl, rfl, rfl⟩
  | cons call calls ih =>
    obtain ⟨⟨result, t⟩, hcall, hrest⟩ := Option.bind_eq_some_iff.mp h
    obtain ⟨⟨results', rest'⟩, hcalls, hpair⟩ := Option.bind_eq_some_iff.mp hrest
    obtain ⟨rfl, rfl⟩ := Prod.mk.inj (Option.some.inj hpair)
    obtain ⟨runs, rfl, rfl, htape⟩ := ih hcalls
    obtain ⟨trace, hencrypts, hpasses⟩ := encrypt_outcome_iff.mp hcall
    refine ⟨⟨call, trace, result, t.store, hencrypts⟩ :: runs, rfl, rfl, ?_⟩
    rw [List.flatMap_cons, Trace.octets_append, List.append_assoc, ← htape]
    exact hpasses.tape

/-- No octet of the tape is drawn twice by any calls of encryption. Each value that they draw stands in a
segment of its own, and these segments follow one another from the start of the tape to the unread rest. What a
call draws is what is prepared for its key and its options, the initialization vector last; it is the same for
every payload, and nothing is drawn without a payload or without a recipient. -/
theorem no_octet_is_drawn_twice {calls : List SealCall} {tape rest : Octets}
    {results : List (Except Failure SealSummary × Sink)}
    (h : SealCall.runAll calls tape = some (results, rest)) :
    ∃ runs : List SealRun, runs.map (·.call) = calls ∧ runs.map (fun run => (run.result, run.sink)) = results ∧
      (∀ run ∈ runs, run.DrawsFresh) ∧
      ∃ readings : List Reading, readings = Trace.readings 0 (runs.flatMap (·.trace)) ∧
        tape = readings.flatMap (·.block.octets) ++ rest ∧
        (∀ reading ∈ readings, tape.slice reading.span = reading.block.octets) ∧
        (∀ reading ∈ readings.head?, reading.offset = 0) ∧
        readings.IsChain (fun a b => b.offset = a.span.stop) ∧
        readings.Pairwise fun a b => a.span.Apart b.span := by
  obtain ⟨runs, hcalls, hresults, htape⟩ := SealCall.runAll_spec h
  refine ⟨runs, hcalls, hresults, fun run _ => run.drawsFresh, _, rfl, ?_, fun reading hreading => ?_,
    fun reading => Trace.offset_of_head_readings _, Trace.readings_consecutive _ 0, Trace.readings_apart _ 0⟩
  · rw [Trace.readings_octets, htape]
  · rw [htape]
    exact Trace.slice_of_mem_readings _ [] rest hreading

def sampleCall : SealCall :=
  ⟨Source.ofOctets samplePayload, some (.rsaPublic sampleKey.publicKey), .standard, Sink.perfect⟩

theorem no_octet_is_drawn_twice_sample : ∃ runs : List SealRun,
    runs.map (·.call) = [sampleCall, sampleCall] ∧ (∀ run ∈ runs, run.result.isOk ∧ run.DrawsFresh) := by
  have hok : ((SealCall.runAll [sampleCall, sampleCall] (List.replicate 794 7)).any fun p =>
      p.1.all fun r => r.1.isOk) = true := by decide +kernel
  cases hrun : SealCall.runAll [sampleCall, sampleCall] (List.replicate 794 7) with
  | none =>
    rw [hrun] at hok
    cases hok
  | some p =>
    obtain ⟨results, rest⟩ := p
    obtain ⟨runs, hcalls, rfl, hfresh, -⟩ := no_octet_is_drawn_twice hrun
    refine ⟨runs, hcalls, fun run hmem => ⟨?_, hfresh run hmem⟩⟩
    rw [hrun] at hok
    exact List.all_eq_true.mp hok _ (List.mem_map_of_mem hmem)

end SealedImage
