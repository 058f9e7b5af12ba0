import QCrate.Host.JsonText

/-!
# The round trip of a resolved profile

`compile` writes the resolved profile to a file, `load_resolved_profile` reads the file and
recomputes everything that the compiler derived. The reader sees the same document with its keys in
order, and the requested values as texts.

* `Repository.Hashes` — the digest of a document depends on its canonical text alone.
* `compileProfile_resolves` — the resolved document and what it was computed from.
* `validate_sorted` — the validator accepts the document with sorted keys.
* `resolved_roundTrip` — the file of an accepted profile is accepted with the same contents.
-/

namespace QCrate.Host

open QCrate.Lib QCrate.R5

/-! ## Digests -/

/-- The digest of a document is a function of its canonical text. -/
def Repository.Hashes (repo : Repository) (digest : List Char → BitVec 256) : Prop :=
  ∀ value text, canonicalText value = some text → repo.sha256 value = digest text

/-- The numerical contract has a canonical text: without one no profile has an identity. -/
def Repository.ContractWritten (repo : Repository) : Prop :=
  ∀ contracts, repo.loadContracts = .ok contracts →
    (canonicalText (numericalContract contracts)).isSome

/-- Only a plain document has a canonical text. -/
theorem plain_of_canonicalText {value : Json} (h : (canonicalText value).isSome) :
    value.plain = true := by
  unfold canonicalText at h
  split at h
  next hplain => exact hplain
  next => cases h

variable {repo : Repository} {digest : List Char → BitVec 256}

/-- The digest does not depend on the order of the fields. -/
theorem Repository.Hashes.sha256_eq (h : repo.Hashes digest) {x y : Json} (hx : x.plain = true)
    (hy : y.plain = true) (hxy : x.sorted = y.sorted) : repo.sha256 x = repo.sha256 y := by
  have htext : canonicalText x = canonicalText y := by
    rw [← canonicalText_sorted hx, hxy, canonicalText_sorted hy]
  have hsome : canonicalText x = some (x.sorted.write compact 0) := if_pos hx
  rw [h x _ hsome, h y _ (htext ▸ hsome)]

/-! ## The compiled document -/

theorem plain_fields {fields : Fields} (hkeys : decide (fields.map Prod.fst).Nodup = true)
    (h : fields.all (fun f => f.2.plain) = true) : (Json.obj fields).plain = true :=
  plain_obj.mpr ⟨of_decide_eq_true hkeys, List.all_eq_true.mp h⟩

@[simp] theorem plain_str (s : String) : (Json.str s).plain = true := rfl

/-- What was requested is plain, since its numbers are texts. -/
theorem requested_plain (r : Requested) : r.json.plain = true :=
  plain_fields rfl rfl

theorem active_plain (a : Active) : a.json.plain = true :=
  plain_fields rfl rfl

theorem realized_plain (a : Active) : (realizedJson a).plain = true :=
  plain_fields rfl rfl

theorem acquisition_plain (geometry : ℤ × ℤ) : (acquisitionJson geometry).plain = true :=
  plain_fields rfl rfl

theorem sequence_plain (s : SequenceIdentity) : s.json.plain = true :=
  plain_fields rfl rfl

theorem dspIdentity_plain {contract active : Json} (hc : contract.plain = true)
    (ha : active.plain = true) : (dspIdentityPayload contract active).plain = true :=
  plain_fields rfl (by simp [hc, ha])

theorem profileIdentity_plain {digest acquisition image count tick : Json}
    (hd : digest.plain = true) (ha : acquisition.plain = true) (hi : image.plain = true)
    (hc : count.plain = true) (ht : tick.plain = true) :
    (profileIdentityPayload digest acquisition image count tick).plain = true := by
  have hsequence : (Json.obj [("image_sha256", image), ("event_count", count),
      ("tick_hz", tick)]).plain = true :=
    plain_fields rfl (by simp [hi, hc, ht])
  exact plain_fields rfl (by simp [hd, ha, hsequence])

/-- The register writes are plain. -/
theorem registerWrites_plain {active : List (String × ℤ)} {configId : ℤ} {registers : Contracts}
    {writes : Json} (h : registerWrites active configId registers = .ok writes) :
    writes.plain = true := by
  simp only [registerWrites, bind_eq_ok] at h
  obtain ⟨items, hitems, he⟩ := h
  cases he
  rw [plain_arr]
  generalize registers.configurationFields = fields at hitems
  induction fields generalizing items with
  | nil =>
    cases hitems
    exact fun x hx => absurd hx List.not_mem_nil
  | cons f fs ih =>
    simp only [List.mapM_cons, bind_eq_ok] at hitems
    obtain ⟨item, hitem, rest, hrest, he⟩ := hitems
    cases he
    intro x hx
    rcases List.mem_cons.mp hx with rfl | hx
    · split at hitem
      · cases hitem
      · split at hitem
        · cases hitem
          exact plain_fields rfl rfl
        · cases hitem
    · exact ih rest hrest x hx

/-- So is the whole resolved document. -/
theorem resolved_plain {name : String} {r : Requested} {geometry : ℤ × ℤ}
    {s : SequenceIdentity} {contract writes : Json} {dspDigest profileDigest : BitVec 256}
    (hc : contract.plain = true) (hw : writes.plain = true) :
    (resolvedJson name r geometry s.json contract dspDigest profileDigest writes).plain = true := by
  have hidentity : ∀ a b c : String, (Json.obj [("profile_sha256", .str a),
      ("dsp_config_sha256", .str b), ("dsp_config_id", .str c)]).plain = true := fun a b c =>
    plain_fields rfl rfl
  have hdsp : (Json.obj [("requested", r.json), ("active", r.active.json),
      ("realized", realizedJson r.active)]).plain = true :=
    plain_fields rfl (by simp [requested_plain, active_plain, realized_plain])
  exact plain_fields rfl (by simp [hidentity, hdsp, hc, hw, acquisition_plain, sequence_plain])

/-- The two digests of a profile. -/
def dspDigest (repo : Repository) (contract : Json) (r : Requested) : BitVec 256 :=
  repo.sha256 (dspIdentityPayload contract r.active.json)

def profileDigest (repo : Repository) (contract : Json) (r : Requested) (geometry : ℤ × ℤ)
    (s : SequenceIdentity) : BitVec 256 :=
  repo.sha256 (profileIdentityPayload (.str (hexText 64 (dspDigest repo contract r).toNat))
    (acquisitionJson geometry) (.str s.imageSha256) (.int s.eventCount) (.int s.tickHz))

/-- The ranges of the requested values. -/
structure Requested.InRange (r : Requested) : Prop where
  signalFrequency : 0 ≤ r.signalFrequency.value ∧ r.signalFrequency.value < nyquist
  loFrequency : 0 ≤ r.loFrequency.value ∧ r.loFrequency.value < nyquist
  signalPhase : 0 ≤ r.signalPhase.value ∧ r.signalPhase.value < 1
  loPhase : 0 ≤ r.loPhase.value ∧ r.loPhase.value < 1

/-- A decimal that is read lies in its range. -/
theorem decimal_lt {value : Json} {minimum maximum : ℤ} {context : String} {d : Decimal}
    (h : decimal value minimum maximum false context = .ok d) :
    (minimum : ℚ) ≤ d.value ∧ d.value < maximum := by
  have hrange : ∀ e, decimalInRange e minimum maximum false context = .ok d →
      (minimum : ℚ) ≤ d.value ∧ d.value < maximum := by
    intro e he
    unfold decimalInRange at he
    rw [guard_eq_ok, not_or, not_lt, not_not] at he
    obtain ⟨⟨hmin, hmax⟩, hd⟩ := he
    cases hd
    exact ⟨hmin, hmax⟩
  unfold decimal at h
  split at h
  · exact hrange _ h
  · exact hrange _ h
  · cases h

/-- What is requested is in the range of every field. -/
theorem requestedOfSource_inRange {source : Json} {r : Requested}
    (h : requestedOfSource source = .ok r) : r.InRange := by
  simp only [requestedOfSource, bind_eq_ok, check_eq_ok] at h
  obtain ⟨dsp, -, sf, hsf, lf, hlf, sp, hsp, lp, hlp, sa, -, na, -, -, seed, -, he⟩ := h
  cases he
  refine ⟨?_, ?_, ?_, ?_⟩
  · simpa using decimal_lt hsf
  · simpa using decimal_lt hlf
  · simpa using decimal_lt hsp
  · simpa using decimal_lt hlp

/-- The resolved document, and the values it was computed from. -/
theorem compileProfile_resolves {document resolved : Json}
    (h : compileProfile repo document = .ok resolved) :
    ∃ name r geometry s contracts writes, r.Accepted ∧ r.InRange ∧
      GeometryAccepted geometry.1 geometry.2 ∧ repo.loadContracts = .ok contracts ∧
      registerWrites r.active.fields (digestId (dspDigest repo (numericalContract contracts) r))
        contracts = .ok writes ∧
      resolved = resolvedJson name r geometry s.json (numericalContract contracts)
        (dspDigest repo (numericalContract contracts) r)
        (profileDigest repo (numericalContract contracts) r geometry s) writes := by
  simp only [compileProfile, bind_eq_ok, check_eq_ok] at h
  obtain ⟨root, -, -, name, -, r, hr, geometry, hg, source, -, s, -, contracts, hcontracts,
    writes, hwrites, he⟩ := h
  exact ⟨name, r, geometry, s, contracts, writes, requestedOfSource_accepted hr,
    requestedOfSource_inRange hr, acquisitionOfSource_accepted hg, hcontracts, hwrites,
    (Except.ok.inj he).symm⟩

/-! ## Reading the sorted document -/

/-- The test of the keys does not see the order of the fields. -/
theorem checkKeys_sorted {fields : Fields} (h : (Json.obj fields).plain = true)
    {required : List String} (hkeys : fields.map Prod.fst = required) (context : String) :
    ∃ read, checkKeys (Json.obj fields).sorted required context = .ok read ∧
      (Json.obj fields).sorted = .obj read ∧
      ∀ key, Fields.get read key = ((Json.obj fields).get key).sorted := by
  refine ⟨sortFields (fields.map fun f => (f.1, f.2.sorted)), ?_, sorted_obj fields, fun key => ?_⟩
  · have hmem : ∀ key, key ∈ (sortFields (fields.map fun f => (f.1, f.2.sorted))).map Prod.fst ↔
        key ∈ required := by
      intro key
      rw [((sortFields_perm _).map Prod.fst).mem_iff, keys_map_sorted, hkeys]
    rw [sorted_obj]
    unfold checkKeys
    dsimp only
    rw [List.filter_eq_nil_iff.mpr fun key hkey => ?_,
      List.filter_eq_nil_iff.mpr fun key hkey => ?_]
    · rfl
    · simpa using (hmem key).mp hkey
    · simpa using (hmem key).mpr hkey
  · rw [← get_sorted h key, sorted_obj]
    rfl

/-- The requested values are read from their texts with the values they had. -/
theorem requestedOfResolved_texts {r : Requested} (ha : r.Accepted) (hr : r.InRange)
    {fields : Fields} (hget : ∀ key, fields.get key = (r.json.get key).sorted) :
    ∃ r', requestedOfResolved fields = .ok r' ∧ r'.active = r.active := by
  have hread : ∀ (key : String) {d : Decimal}, r.json.get key = .str (decimalString d) →
      ∃ d' : Decimal, (toDecimal (fields.get key)).elim
        (.error ⟨"resolved requested DSP values are malformed"⟩) .ok =
          (.ok d' : Except ProfileError Decimal) ∧ d'.value = d.value := by
    intro key d hkey
    obtain ⟨d', hparse, -, hvalue⟩ := parse_decimalString d
    refine ⟨d', ?_, hvalue⟩
    have hdecimal : toDecimal (fields.get key) = some d' := by
      rw [hget, hkey]
      exact hparse
    rw [hdecimal]
    rfl
  obtain ⟨sf, hsf, hsfv⟩ := hread "signal_frequency_hz" rfl
  obtain ⟨lf, hlf, hlfv⟩ := hread "lo_frequency_hz" rfl
  obtain ⟨sp, hsp, hspv⟩ := hread "signal_phase_turns" rfl
  obtain ⟨lp, hlp, hlpv⟩ := hread "lo_phase_turns" rfl
  obtain ⟨sa, hsa, hsav⟩ := hread "signal_amplitude" rfl
  obtain ⟨na, hna, hnav⟩ := hread "noise_amplitude" rfl
  have hseed : integer (fields.get "noise_seed") 1 0xFFFF "resolved noise seed" =
      .ok r.noiseSeed := by
    rw [hget]
    exact integer_eq_ok.mpr ⟨rfl, ha.seed⟩
  refine ⟨⟨sf, sp, sa, na, r.noiseSeed, lf, lp⟩, ?_, ?_⟩
  · simp only [requestedOfResolved, bind_eq_ok, check_eq_ok]
    refine ⟨sf, hsf, lf, hlf, sp, hsp, lp, hlp, sa, hsa, na, hna, r.noiseSeed, ?_, ?_, ?_, ?_, rfl⟩
    · rw [hseed]
      rfl
    · simp [hsfv, hlfv, hr.signalFrequency, hr.loFrequency]
    · simp [hspv, hlpv, hr.signalPhase, hr.loPhase]
    · simp [hsav, hnav, ha.signal, ha.noise, ha.sum]
  · unfold Requested.active
    rw [hsfv, hlfv, hspv, hlpv, hsav, hnav]

/-- A field is found in the sorted document, with its value sorted. -/
theorem bundleField_sorted {document value : Json} {key : String} (h : document.plain = true)
    (hv : bundleField document key = .ok value) :
    bundleField document.sorted key = .ok value.sorted ∧ value.plain = true := by
  obtain ⟨fields, rfl, hl⟩ := bundleField_eq_ok hv
  refine ⟨?_, (plain_obj.mp h).2 _ (mem_of_lookup hl)⟩
  rw [sorted_obj]
  unfold bundleField
  dsimp only
  rw [lookup_sorted h, hl]
  rfl

/-- A number is read the same after sorting. -/
theorem commandValue_sorted {index : ℕ} {minimum maximum n : ℤ} {value : Json}
    (h : commandValue index minimum maximum value = .ok n) :
    commandValue index minimum maximum value.sorted = .ok n := by
  obtain ⟨rfl, hn⟩ := commandValue_eq_ok.mp h
  exact h

/-- So is an identifier. -/
theorem configIdOf_sorted {malformed : ProfileError} {value : Json} {n : ℤ}
    (h : configIdOf malformed value = .ok n) : configIdOf malformed value.sorted = .ok n := by
  cases value with
  | str s => exact h
  | _ => cases h

/-- The command of a document does not depend on the order of its keys. -/
theorem configurationCommand_sorted {document : Json} {v : ConfigValues}
    (h : document.plain = true)
    (hformat : bundleField document "format" = .ok (.str resolvedFormat))
    (hv : configurationCommand document = .ok v) :
    configurationCommand document.sorted = .ok v := by
  simp only [configurationCommand, bind_eq_ok, check_eq_ok] at hv ⊢
  obtain ⟨-, identity, hidentity, id, ⟨idText, hidText, hidValue⟩, active, ⟨dsp, hdsp, hactive⟩,
    acq, hacq, j₁, h₁, j₂, h₂, j₃, h₃, j₄, h₄, j₅, h₅, j₆, h₆, j₇, h₇, j₈, h₈, j₉, h₉, id', hid',
    n₁, hn₁, n₂, hn₂, n₃, hn₃, n₄, hn₄, n₅, hn₅, n₆, hn₆, n₇, hn₇, n₈, hn₈, n₉, hn₉, he⟩ := hv
  obtain ⟨hidentity', hip⟩ := bundleField_sorted h hidentity
  obtain ⟨hdsp', hdp⟩ := bundleField_sorted h hdsp
  obtain ⟨hactive', hap⟩ := bundleField_sorted hdp hactive
  obtain ⟨hacq', hqp⟩ := bundleField_sorted h hacq
  refine ⟨?_, _, hidentity', id,
    ⟨_, (bundleField_sorted hip hidText).1, configIdOf_sorted hidValue⟩, _, ⟨_, hdsp', hactive'⟩,
    _, hacq', _, (bundleField_sorted hap h₁).1,
    _, (bundleField_sorted hap h₂).1, _, (bundleField_sorted hap h₃).1,
    _, (bundleField_sorted hap h₄).1, _, (bundleField_sorted hap h₅).1,
    _, (bundleField_sorted hap h₆).1, _, (bundleField_sorted hap h₇).1,
    _, (bundleField_sorted hqp h₈).1, _, (bundleField_sorted hqp h₉).1, id', hid',
    n₁, commandValue_sorted hn₁, n₂, commandValue_sorted hn₂, n₃, commandValue_sorted hn₃,
    n₄, commandValue_sorted hn₄, n₅, commandValue_sorted hn₅, n₆, commandValue_sorted hn₆,
    n₇, commandValue_sorted hn₇, n₈, commandValue_sorted hn₈, n₉, commandValue_sorted hn₉, he⟩
  rw [(bundleField_sorted h hformat).1]
  simp [Except.toOption, Json.sorted, Json.pyEq]

/-! ## The validator -/

/-- The payload of the DSP identity, sorted, is that of the sorted parts. -/
theorem dspIdentity_sorted (contract active : Json) :
    (dspIdentityPayload contract.sorted active.sorted).sorted =
      (dspIdentityPayload contract active).sorted := by
  unfold dspIdentityPayload
  rw [sorted_obj, sorted_obj]
  simp only [List.map_cons, List.map_nil, sorted_sorted]

/-- So is the payload of the profile identity. -/
theorem profileIdentity_sorted (digest acquisition image count tick : Json) :
    (profileIdentityPayload digest acquisition.sorted image count tick).sorted =
      (profileIdentityPayload digest acquisition image count tick).sorted := by
  unfold profileIdentityPayload
  rw [sorted_obj, sorted_obj]
  simp only [List.map_cons, List.map_nil, sorted_sorted]

/-- A comparison with the value that was written. -/
theorem check_sorted {value read : Json} (h : value.plain = true) (hread : read = value.sorted) :
    ¬(!value.pyEq read) = true := by
  rw [hread, pyEq_sorted h]
  decide

/-- An identifier has 64 bits. -/
theorem digestId_range (d : BitVec 256) : 0 ≤ digestId d ∧ digestId d ≤ 0xFFFFFFFFFFFFFFFF := by
  have hlt := (d.extractLsb' 192 64).isLt
  unfold digestId
  omega

/-- An identifier is read back from its text. -/
theorem configIdOf_text (malformed : ProfileError) (d : BitVec 256) :
    configIdOf malformed (.str ("0x" ++ hexText 16 (digestId d).toNat)) = .ok (digestId d) := by
  unfold configIdOf
  dsimp only
  rw [parseInt0_hexText, Int.toNat_of_nonneg (digestId_range d).1]
  rfl

/-- The validator recomputes every value of the sorted document. -/
theorem validate_sorted (hsha : repo.Hashes digest) {name : String} {r : Requested}
    {geometry : ℤ × ℤ} {s : SequenceIdentity} {contracts : Contracts} {writes : Json}
    (hcontract : (numericalContract contracts).plain = true) (ha : r.Accepted) (hr : r.InRange)
    (hg : GeometryAccepted geometry.1 geometry.2) (hload : repo.loadContracts = .ok contracts)
    (hwrites : registerWrites r.active.fields
      (digestId (dspDigest repo (numericalContract contracts) r)) contracts = .ok writes)
    (hid : digestId (dspDigest repo (numericalContract contracts) r) ≠ 0) {document : Json}
    (hdocument : document = resolvedJson name r geometry s.json (numericalContract contracts)
      (dspDigest repo (numericalContract contracts) r)
      (profileDigest repo (numericalContract contracts) r geometry s) writes) :
    validateResolvedProfile repo document.sorted = .ok document.sorted := by
  have hplain : document.plain = true :=
    hdocument ▸ resolved_plain hcontract (registerWrites_plain hwrites)
  have hcommand := configurationCommand_sorted hplain (by rw [hdocument]; rfl)
    (hdocument ▸ configurationCommand_resolvedJson ha hg hid)
  generalize hd : dspDigest repo (numericalContract contracts) r = d at *
  generalize hp : profileDigest repo (numericalContract contracts) r geometry s = p at *
  rw [hdocument] at hplain hcommand ⊢
  clear hdocument
  obtain ⟨root, hroot, -, hget⟩ := checkKeys_sorted hplain rfl "resolved profile"
  obtain ⟨identity, hidentity, -, hgetIdentity⟩ :=
    checkKeys_sorted (plain_get hplain "identity") rfl "resolved identity"
  obtain ⟨dsp, hdsp, -, hgetDsp⟩ := checkKeys_sorted (plain_get hplain "dsp") rfl "resolved dsp"
  obtain ⟨requested, hrequested, -, hgetRequested⟩ :=
    checkKeys_sorted (requested_plain r) rfl "resolved requested DSP"
  obtain ⟨realized, hrealized, -, -⟩ :=
    checkKeys_sorted (realized_plain r.active) rfl "resolved realized DSP"
  obtain ⟨active, hactive, -, -⟩ :=
    checkKeys_sorted (active_plain r.active) rfl "resolved active DSP"
  obtain ⟨acq, hacq, -, hgetAcq⟩ :=
    checkKeys_sorted (acquisition_plain geometry) rfl "resolved acquisition"
  obtain ⟨sequence, hsequence, -, hgetSequence⟩ :=
    checkKeys_sorted (sequence_plain s) rfl "resolved sequence"
  obtain ⟨r', hr', hactiveEq⟩ := requestedOfResolved_texts ha hr hgetRequested
  -- the digests are of canonical texts, which do not see the order of the keys
  have hdsp' : repo.sha256 (dspIdentityPayload (root.get "numerical_contract")
      (dsp.get "active")) = d := by
    rw [← hd, hget, hgetDsp]
    exact hsha.sha256_eq (dspIdentity_plain (plain_sorted hcontract)
      (plain_sorted (active_plain r.active))) (dspIdentity_plain hcontract (active_plain r.active))
      (dspIdentity_sorted _ _)
  have hprofile' : repo.sha256 (profileIdentityPayload (.str (hexText 64 d.toNat))
      (root.get "acquisition") (sequence.get "image_sha256") (sequence.get "event_count")
      (sequence.get "tick_hz")) = p := by
    rw [← hp, profileDigest, hd, hget, hgetSequence, hgetSequence, hgetSequence]
    exact hsha.sha256_eq
      (profileIdentity_plain rfl (plain_sorted (acquisition_plain geometry)) rfl rfl rfl)
      (profileIdentity_plain rfl (acquisition_plain geometry) rfl rfl rfl)
      (profileIdentity_sorted _ _ _ _ _)
  have hrange := digestId_range d
  simp only [validateResolvedProfile, bind_eq_ok, check_eq_ok]
  refine ⟨root, hroot, check_sorted rfl (hget _), identity, (hget _).symm ▸ hidentity, dsp,
    (hget _).symm ▸ hdsp, requested, (hgetDsp _).symm ▸ hrequested, realized,
    (hgetDsp _).symm ▸ hrealized, active, (hgetDsp _).symm ▸ hactive, acq, (hget _).symm ▸ hacq,
    sequence, (hget _).symm ▸ hsequence, contracts, hload, check_sorted hcontract (hget _), r', hr',
    ?_, ?_, geometry.1, ?_, geometry.2, ?_, ?_, digestId d, ?_, ?_, ?_, ?_, writes, ?_, ?_, _,
    hcommand, rfl⟩
  · rw [hactiveEq]
    exact check_sorted (active_plain r.active) (hgetDsp _)
  · rw [hactiveEq]
    exact check_sorted (realized_plain r.active) (hgetDsp _)
  · rw [hgetAcq]
    exact integer_eq_ok.mpr ⟨rfl, hg.length⟩
  · rw [hgetAcq]
    exact integer_eq_ok.mpr ⟨rfl, hg.count⟩
  · have hmode : (Json.str "dsp").pyEq (acq.get "stream_mode") = true := by
      rw [hgetAcq]
      exact pyEq_sorted (j := .str "dsp") rfl
    have hvalue : (Json.int 1).pyEq (acq.get "stream_mode_value") = true := by
      rw [hgetAcq]
      exact pyEq_sorted (j := .int 1) rfl
    simp [hmode, hvalue, hg.total]
  · rw [hgetIdentity]
    exact configIdOf_text _ d
  · simp only [Bool.not_eq_true, Bool.not_eq_false', decide_eq_true_eq]
    omega
  · rw [hdsp', Bool.or_eq_true, not_or, decide_eq_true_eq]
    exact ⟨check_sorted rfl (hgetIdentity _), fun hne => hne rfl⟩
  · rw [hdsp', hprofile']
    exact check_sorted rfl (hgetIdentity _)
  · rw [hactiveEq]
    exact hwrites
  · exact check_sorted (registerWrites_plain hwrites) (hget _)

/-! ## The round trip -/

/-- An object of plain values is read with the same values. -/
theorem get_sorted_values {j : Json} (hj : j.plain = true) {fields : Fields} (h : j = .obj fields)
    (hvalues : ∀ f ∈ fields, f.2.sorted = f.2) (key : String) : j.sorted.get key = j.get key := by
  rw [get_sorted hj, h]
  show ((fields.lookup key).getD .null).sorted = (fields.lookup key).getD .null
  cases hl : fields.lookup key with
  | none => rfl
  | some value => exact hvalues _ (mem_of_lookup hl)

/-- What a profile sets up is the same in both documents. -/
structure SameSetup (resolved read : Json) : Prop where
  document : resolved.pyEq read = true
  identity : ∀ key, (read.get "identity").get key = (resolved.get "identity").get key
  active : ∀ key, ((read.get "dsp").get "active").get key =
    ((resolved.get "dsp").get "active").get key
  registerWrites : (resolved.get "register_writes").pyEq (read.get "register_writes") = true
  command : configurationCommand read = configurationCommand resolved

/-- The file of every profile that is compiled is read back and accepted, with the same words,
identities and register writes. -/
theorem resolved_roundTrip (hsha : repo.Hashes digest) (hcontract : repo.ContractWritten)
    {document resolved : Json} (h : compileProfile repo document = .ok resolved)
    (hid : resolvedId resolved ≠ .ok 0) :
    ∃ text read, dumps resolved = some text ∧ loads text = some read ∧
      validateResolvedProfile repo read = .ok read ∧ SameSetup resolved read := by
  obtain ⟨name, r, geometry, s, contracts, writes, ha, hr, hg, hload, hwrites, hresolved⟩ :=
    compileProfile_resolves h
  have hc := plain_of_canonicalText (hcontract contracts hload)
  have hplain : resolved.plain = true :=
    hresolved ▸ resolved_plain hc (registerWrites_plain hwrites)
  have hid' : digestId (dspDigest repo (numericalContract contracts) r) ≠ 0 := by
    intro hzero
    refine hid ?_
    rw [hresolved, ← hzero]
    exact configIdOf_text lacksBundle _
  obtain ⟨text, hdumps, hloads⟩ := loads_dumps hplain
  -- what is read is the sorted document, since the text is written with sorted keys
  have hcommand : configurationCommand resolved = .ok _ :=
    hresolved ▸ configurationCommand_resolvedJson ha hg hid'
  refine ⟨text, resolved.sorted, hdumps, hloads,
    validate_sorted hsha hc ha hr hg hload hwrites hid' hresolved, pyEq_sorted hplain, ?_, ?_, ?_,
    ?_⟩
  · rw [get_sorted hplain]
    refine get_sorted_values (plain_get hplain _) (by rw [hresolved]; rfl) fun f hf => ?_
    simp only [List.mem_cons, List.not_mem_nil, or_false] at hf
    obtain rfl | rfl | rfl := hf <;> rfl
  · rw [get_sorted hplain, get_sorted (plain_get hplain _)]
    refine get_sorted_values (plain_get (plain_get hplain _) _) (by rw [hresolved]; rfl)
      fun f hf => ?_
    obtain ⟨x, -, rfl⟩ := List.mem_map.mp hf
    rfl
  · rw [get_sorted hplain]
    exact pyEq_sorted (plain_get hplain _)
  · rw [hcommand]
    exact configurationCommand_sorted hplain (by rw [hresolved]; rfl) hcommand

/-- A repository with two registers, and the length of a text as its digest. -/
def lengthDigest (text : List Char) : BitVec 256 := .ofNat 256 (text.length * 2 ^ 192)

def lengthRepository : Repository where
  resolveSequence source := .ok ⟨source, "", 0, 1, 100000000⟩
  loadContracts := .ok ⟨.int 217, .str "", .str "", 12288,
    [⟨"CONFIG_ID_LOW", 32, 0⟩, ⟨"LO_PHASE_INCREMENT", 32, 28⟩]⟩
  sha256 value := lengthDigest ((canonicalText value).getD [])

theorem lengthRepository_hashes : lengthRepository.Hashes lengthDigest := by
  intro value text h
  show lengthDigest ((canonicalText value).getD []) = lengthDigest text
  rw [h, Option.getD_some]

/-- A noise amplitude of minus zero is written as such, and read back. -/
theorem resolved_roundTrip_minusZero : ∃ resolved text read,
    compileProfile lengthRepository (smallProfile ⟨false, 5, -1⟩ ⟨true, 0, -1⟩) = .ok resolved ∧
      (((resolved.get "dsp").get "requested").get "noise_amplitude").pyEq (.str "-0") = true ∧
      dumps resolved = some text ∧ loads text = some read ∧
      validateResolvedProfile lengthRepository read = .ok read ∧ SameSetup resolved read := by
  have hrun : ((compileProfile lengthRepository
      (smallProfile ⟨false, 5, -1⟩ ⟨true, 0, -1⟩)).toOption.any fun resolved =>
        decide ((resolvedId resolved).toOption ≠ some 0) &&
          (((resolved.get "dsp").get "requested").get "noise_amplitude").pyEq (.str "-0")) =
        true := by
    decide +kernel
  obtain ⟨resolved, hcompile, hresolved⟩ := exists_of_any hrun
  rw [Bool.and_eq_true] at hresolved
  obtain ⟨hne, htext⟩ := hresolved
  have hid : resolvedId resolved ≠ .ok 0 := by
    intro hzero
    rw [hzero] at hne
    exact absurd hne (by decide)
  have hcontract : lengthRepository.ContractWritten := by
    intro contracts hload
    cases hload
    decide +kernel
  obtain ⟨text, read, hdumps, hloads, hcheck, hsame⟩ :=
    resolved_roundTrip lengthRepository_hashes hcontract hcompile hid
  exact ⟨resolved, text, read, hcompile, htext, hdumps, hloads, hcheck, hsame⟩

end QCrate.Host
