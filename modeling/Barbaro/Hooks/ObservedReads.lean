import Barbaro.Core.TextSize
import Barbaro.Hooks.ReadObservation

/-!
# Reading a written journal of observed reads

What `observeHookRead` writes passes the strict reader: every field of a row agrees with the
others, and so many rows are far below the bound of the file.

* `RowOk.isRow`: a row that is written passes the checks of the reader.
* `readReadObservations_written`: a written journal is read back.
-/

namespace Barbaro.Observed

/-- `toISOString` writes digits and punctuation, with a sign for the far years. -/
def IsoDates (E : Host) : Prop := ∀ t s, E.isoString t = some s → PlainText s ∧ s.length ≤ 27

section
variable {E : Host} {provider : ParticipatingProvider}

/-! ## Rows -/

/-- A row as `observeHookRead` writes it. -/
structure RowOk (E : Host) (provider : ParticipatingProvider) (r : ReadObservation) : Prop where
  invocation : isSha256Hex r.invocationSha256 = true
  created : ∃ t, E.isoString t = some r.createdAt
  updated : ∃ t, E.isoString t = some r.updatedAt
  ordered : compareUtf16CodeUnits r.createdAt r.updatedAt ≠ .gt
  state : r.state = r.reason.state
  limit : (r.reason == .nativeTraceLimit) = r.nativeTraceLimit.isSome
  limitOk : ∀ l, r.nativeTraceLimit = some l → provider = .codex ∧ validNativeTraceLimit (some l.toJson) = true
  producer : r.producerVersion.isSome → provider = .codex
  committed : provider = .codex → r.state = .committed → r.producerVersion.isSome
  cli : ∀ s, r.runtimeCliSha256 = some s → isSha256Hex s = true
  build : ∀ s, r.runtimeBuildSha256 = some s → isSha256Hex s = true

theorem row_ordered : orderedKeys (["adapter", "created_at", "invocation_sha256", "native_trace_limit",
    "producer_version", "reason", "runtime_build_sha256", "runtime_cli_sha256", "state", "updated_at"].map js) =
      true := by decide

/-- What is read of a row in its JSON form. -/
structure Reads (provider : ParticipatingProvider) (r : ReadObservation) (v : Json) : Prop where
  adapter : v.get (js "adapter") = some (.str (adapterFor provider r.producerVersion))
  created : v.get (js "created_at") = some (.str r.createdAt)
  invocation : v.get (js "invocation_sha256") = some (.str r.invocationSha256)
  limit : v.get (js "native_trace_limit") = r.nativeTraceLimit.map NativeTraceLimit.toJson
  producer : v.get (js "producer_version") = r.producerVersion.map (fun p => .str (js p.text))
  reason : v.get (js "reason") = some (.str (js r.reason.text))
  build : v.get (js "runtime_build_sha256") = r.runtimeBuildSha256.map .str
  cli : v.get (js "runtime_cli_sha256") = r.runtimeCliSha256.map .str
  state : v.get (js "state") = some (.str (js r.state.text))
  updated : v.get (js "updated_at") = some (.str r.updatedAt)

theorem toJson_reads (provider : ParticipatingProvider) (r : ReadObservation) : Reads provider r (r.toJson provider) := by
  constructor <;> exact get_objectOf (by simp) row_ordered

theorem invocationAt (r : ReadObservation) :
    textAt "invocation_sha256" (r.toJson provider) = r.invocationSha256 := by
  rw [textAt, (toJson_reads provider r).invocation]

theorem stateAt (r : ReadObservation) :
    equalsText (js "committed") ((r.toJson provider).get (js "state")) = decide (r.state = .committed) := by
  rw [(toJson_reads provider r).state]
  cases r.state <;> decide

theorem isDate_iso {s : JsString} (h : ∃ t, E.isoString t = some s) : isDate E (some (.str s)) = true := by
  obtain ⟨t, ht⟩ := h
  rw [isDate, (E.isoString_parse t s ht).1]
  simp [ht]

theorem reasonState_text (reason : ObservationReason) : reasonState (some (.str (js reason.text))) = reason.state := by
  cases reason <;> decide

theorem isOneOf_reasons (reason : ObservationReason) : isOneOf reasons (some (.str (js reason.text))) = true := by
  cases reason <;> decide

theorem equalsText_self (s : JsString) : equalsText s (some (.str s)) = true := by simp [equalsText]

theorem producer_known (p : CodexReadProducer) : isCodexReadProducer (some (.str (js p.text))) = true := by
  cases p <;> decide

theorem expectedAdapter_toJson (r : ReadObservation) :
    expectedAdapter provider (r.toJson provider) = adapterFor provider r.producerVersion := by
  cases provider with
  | claude => rfl
  | codex =>
    simp only [expectedAdapter, (toJson_reads .codex r).producer]
    rcases r.producerVersion with _ | p <;> rfl

theorem state_known (state : ObservationState) : [ObservationState.reserved, .staged, .committed, .refused].any
    (fun s => equalsText (js s.text) (some (.str (js state.text)))) = true := by
  cases state <;> decide

theorem reason_limit (reason : ObservationReason) :
    equalsText (js "native_trace_limit") (some (.str (js reason.text))) = (reason == .nativeTraceLimit) := by
  cases reason <;> decide

/-- **A row that was written** passes the checks of the reader. -/
theorem RowOk.isRow {r : ReadObservation} (h : RowOk E provider r) : isRow E provider (r.toJson provider) = true := by
  have hr := toJson_reads provider r
  have hobject : isObject (some (r.toJson provider)) = true := rfl
  have hkeys : unknownKeys rowKeys (r.toJson provider) = false := unknownKeys_objectOf (by simp only [List.map]; decide)
  have hinvocation : isPattern isSha256Hex (some (.str r.invocationSha256)) = true := h.invocation
  have hordered : (compareUtf16CodeUnits (textAt "created_at" (r.toJson provider))
      (textAt "updated_at" (r.toJson provider)) != .gt) = true := by
    rw [textAt, hr.created, textAt, hr.updated, bne_iff_ne]
    exact h.ordered
  have hstate : equalsText (js (reasonState (some (.str (js r.reason.text)))).text) (some (.str (js r.state.text))) =
      true := by
    rw [reasonState_text, ← h.state]
    exact equalsText_self _
  have hcommitted : (!(provider == .codex && equalsText (js "committed") (some (.str (js r.state.text))) &&
      !isCodexReadProducer (r.producerVersion.map (fun p => Json.str (js p.text))))) = true := by
    have hat := @stateAt provider r
    rw [hr.state] at hat
    rw [hat]
    cases hp : provider with
    | claude => rfl
    | codex =>
      by_cases hc : r.state = .committed
      · obtain ⟨p, hsome⟩ := Option.isSome_iff_exists.1 (h.committed hp hc)
        simp [hsome, producer_known]
      · simp [hc]
  have hlimit : isOptional (fun v => provider == .codex && validNativeTraceLimit v)
      (r.nativeTraceLimit.map NativeTraceLimit.toJson) = true := by
    rcases hl : r.nativeTraceLimit with _ | l
    · rfl
    · obtain ⟨hp, hvalid⟩ := h.limitOk l hl
      simp only [Option.map_some, isOptional, hp, hvalid, beq_self_eq_true, Bool.and_self]
  have hproducer : isOptional (fun v => provider == .codex && isCodexReadProducer v)
      (r.producerVersion.map (fun p => Json.str (js p.text))) = true := by
    rcases hv : r.producerVersion with _ | p
    · rfl
    · have hp := h.producer (by rw [hv]; rfl)
      simp only [Option.map_some, isOptional, hp, producer_known, beq_self_eq_true, Bool.and_self]
  have hhex : ∀ o : Option JsString, (∀ s, o = some s → isSha256Hex s = true) →
      isOptional (isPattern isSha256Hex) (o.map .str) = true := by
    intro o ho
    rcases o with _ | s
    · rfl
    · exact ho s rfl
  have hboth : ((r.reason == .nativeTraceLimit) == (r.nativeTraceLimit.map NativeTraceLimit.toJson).isSome) = true := by
    rw [Option.isSome_map, h.limit, beq_self_eq_true]
  simp only [Observed.isRow, hobject, hkeys, hr.invocation, hinvocation, hr.created, hr.updated,
    isDate_iso h.created, isDate_iso h.updated, hordered, hr.state, state_known, hr.reason, isOneOf_reasons, hstate,
    hcommitted, reason_limit, hr.limit, hboth, hlimit, expectedAdapter_toJson, hr.adapter, equalsText_self,
    hr.producer, hproducer, hr.cli, hr.build, hhex _ h.cli, hhex _ h.build, Bool.not_false, Bool.and_self]

theorem rowsOk_toJson {rs : List ReadObservation} (h : ∀ r ∈ rs, RowOk E provider r)
    (hnd : (rs.map (·.invocationSha256)).Nodup) {seen : List JsString}
    (hseen : ∀ r ∈ rs, r.invocationSha256 ∉ seen) :
    rowsOk E provider seen (rs.map (·.toJson provider)) = true := by
  induction rs generalizing seen with
  | nil => rfl
  | cons r rs ih =>
    rw [List.map_cons, List.nodup_cons] at hnd
    have hnew : seen.contains r.invocationSha256 = false := by
      simpa using hseen r (by simp)
    rw [List.map_cons, rowsOk, (h r (by simp)).isRow, invocationAt, hnew]
    refine ih (fun x hx => h x (by simp [hx])) hnd.2 fun x hx hmem => ?_
    rcases List.mem_cons.1 hmem with heq | hmem
    · exact hnd.1 (heq ▸ List.mem_map_of_mem hx)
    · exact hseen x (by simp [hx]) hmem

/-! ## Bytes -/

theorem limit_values {l : NativeTraceLimit} (h : validNativeTraceLimit (some l.toJson) = true) :
    l.maximumBytes ≤ maxSafeInteger ∧ l.observedBytes ≤ maxSafeInteger := by
  have hord : orderedKeys (["kind", "maximum_bytes", "observed_bytes"].map js) = true := by decide
  have h1 : l.toJson.get (js "maximum_bytes") = some (natJson l.maximumBytes) := get_objectOf (by simp) hord
  have h2 : l.toJson.get (js "observed_bytes") = some (natJson l.observedBytes) := get_objectOf (by simp) hord
  obtain ⟨fs, hfs⟩ : ∃ fs, l.toJson = .obj fs := ⟨_, rfl⟩
  rw [hfs] at h h1 h2
  simp only [validNativeTraceLimit, h1, h2, isSafeInteger, natJson, Bool.and_eq_true, decide_eq_true_eq] at h
  omega

theorem written_nat {n : ℕ} (h : n ≤ maxSafeInteger) : Written E.float (natJson n) := Written.int (by simpa using h)

theorem limit_written {l : NativeTraceLimit} (h : validNativeTraceLimit (some l.toJson) = true) :
    Written E.float l.toJson ∧ stableSize l.toJson ≤ 90 := by
  have hord : orderedKeys (["kind", "maximum_bytes", "observed_bytes"].map js) = true := by decide
  obtain ⟨hmax, hobs⟩ := limit_values h
  have hw : Written E.float l.toJson := Written.objectOf (by
    simp only [List.mem_cons, List.not_mem_nil, or_false, forall_eq_or_imp, forall_eq, Option.some.injEq]
    exact ⟨fun v hv => hv ▸ Written.str _, fun v hv => hv ▸ written_nat hmax, fun v hv => hv ▸ written_nat hobs⟩) hord
  have hkeys : hasOnlyKeys ["kind", "maximum_bytes", "observed_bytes"] l.toJson = true := hasOnlyKeys_objectOf
  refine ⟨hw, le_trans (size_le_of_keys [("kind", 8), ("maximum_bytes", 16), ("observed_bytes", 16)] hw.wellFormed
    hkeys ?_) (by decide)⟩
  have h1 : l.toJson.get (js "kind") = some (.str (js l.kind.text)) := get_objectOf (by simp) hord
  have h2 : l.toJson.get (js "maximum_bytes") = some (natJson l.maximumBytes) := get_objectOf (by simp) hord
  have h3 : l.toJson.get (js "observed_bytes") = some (natJson l.observedBytes) := get_objectOf (by simp) hord
  simp only [List.mem_cons, List.not_mem_nil, or_false, forall_eq_or_imp, forall_eq, h1, h2, h3, Option.some.injEq]
  have hkind : stableSize (.str (js l.kind.text)) ≤ 8 := by cases l.kind <;> decide
  exact ⟨fun w hw => hw ▸ hkind, fun w hw => hw ▸ stableSize_nat_le hmax, fun w hw => hw ▸ stableSize_nat_le hobs⟩

theorem adapter_size (provider : ParticipatingProvider) (p : Option CodexReadProducer) :
    stableSize (.str (adapterFor provider p)) ≤ 33 := by
  cases provider with
  | claude =>
    have hadapter : stableSize (.str claudeAdapter) ≤ 33 := by decide
    exact hadapter
  | codex => rcases p with _ | p | p <;> decide

theorem sha_size {s : JsString} (h : isSha256Hex s = true) : stableSize (.str s) ≤ 66 := by
  obtain ⟨hplain, hlen⟩ := isSha256Hex_plain h
  exact stableSize_plain_le hplain (le_of_eq hlen)

theorem date_size (hiso : IsoDates E) {s : JsString} (h : ∃ t, E.isoString t = some s) : stableSize (.str s) ≤ 29 := by
  obtain ⟨t, ht⟩ := h
  obtain ⟨hplain, hlen⟩ := hiso t s ht
  exact stableSize_plain_le hplain hlen

theorem RowOk.written {r : ReadObservation} (h : RowOk E provider r) : Written E.float (r.toJson provider) := by
  refine Written.objectOf ?_ row_ordered
  have hopt : ∀ {α : Type} {o : Option α} {f : α → Json}, (∀ a, o = some a → Written E.float (f a)) →
      ∀ v, o.map f = some v → Written E.float v := by
    intro α o f hf v hv
    obtain ⟨a, ha, rfl⟩ := Option.map_eq_some_iff.1 hv
    exact hf a ha
  simp only [List.mem_cons, List.not_mem_nil, or_false, forall_eq_or_imp, forall_eq, Option.some.injEq]
  exact ⟨fun v hv => hv ▸ Written.str _, fun v hv => hv ▸ Written.str _, fun v hv => hv ▸ Written.str _,
    hopt fun l hl => (limit_written (h.limitOk l hl).2).1, hopt fun p _ => Written.str _,
    fun v hv => hv ▸ Written.str _, hopt fun s _ => Written.str s, hopt fun s _ => Written.str s,
    fun v hv => hv ▸ Written.str _, fun v hv => hv ▸ Written.str _⟩

theorem RowOk.size {r : ReadObservation} (hiso : IsoDates E) (h : RowOk E provider r) :
    stableSize (r.toJson provider) ≤ 700 := by
  have hr := toJson_reads provider r
  have hkeys : hasOnlyKeys ["adapter", "created_at", "invocation_sha256", "native_trace_limit", "producer_version",
      "reason", "runtime_build_sha256", "runtime_cli_sha256", "state", "updated_at"] (r.toJson provider) = true :=
    hasOnlyKeys_objectOf
  refine le_trans (size_le_of_keys [("adapter", 33), ("created_at", 29), ("invocation_sha256", 66),
    ("native_trace_limit", 90), ("producer_version", 9), ("reason", 31), ("runtime_build_sha256", 66),
    ("runtime_cli_sha256", 66), ("state", 11), ("updated_at", 29)] h.written.wellFormed hkeys ?_) (by decide)
  have hopt : ∀ {α : Type} {o : Option α} {f : α → Json} {n : ℕ}, (∀ a, o = some a → stableSize (f a) ≤ n) →
      ∀ w, o.map f = some w → stableSize w ≤ n := by
    intro α o f n hf w hw
    obtain ⟨a, ha, rfl⟩ := Option.map_eq_some_iff.1 hw
    exact hf a ha
  have hproducer : ∀ p : CodexReadProducer, stableSize (.str (js p.text)) ≤ 9 := by
    intro p
    cases p <;> decide
  have hreason : stableSize (.str (js r.reason.text)) ≤ 31 := by cases r.reason <;> decide
  have hstate : stableSize (.str (js r.state.text)) ≤ 11 := by cases r.state <;> decide
  simp only [List.mem_cons, List.not_mem_nil, or_false, forall_eq_or_imp, forall_eq, hr.adapter, hr.created,
    hr.invocation, hr.limit, hr.producer, hr.reason, hr.build, hr.cli, hr.state, hr.updated, Option.some.injEq]
  exact ⟨fun w hw => hw ▸ adapter_size _ _, fun w hw => hw ▸ date_size hiso h.created,
    fun w hw => hw ▸ sha_size h.invocation, hopt fun l hl => (@limit_written E l (h.limitOk l hl).2).2,
    hopt fun p _ => hproducer p, fun w hw => hw ▸ hreason, hopt fun s hs => sha_size (h.build s hs),
    hopt fun s hs => sha_size (h.cli s hs), fun w hw => hw ▸ hstate, fun w hw => hw ▸ date_size hiso h.updated⟩

/-! ## The journal -/

theorem createSessionId_ok (E : Hasher) (provider native : JsString) :
    isSessionId (createSessionId E provider native) = true := by
  have hhex := E.hex (encodeTypedIdInput .session [some provider, some native])
  rw [isSha256Hex, Bool.and_eq_true, beq_iff_eq, List.all_eq_true] at hhex
  have htag : js (barbaroIdPrefix .session) = js "ses" := rfl
  have hlen : "ses".length + 1 = (js "ses" ++ [95]).length := by decide
  have hcut : createSessionId E provider native =
      (js "ses" ++ [95]) ++ typedIdDigest E (encodeTypedIdInput .session [some provider, some native]) := by
    rw [createSessionId, createTypedId, htag, List.append_assoc, List.singleton_append]
  rw [isSessionId, isId, hcut, hlen, List.take_left, List.drop_left]
  simp only [beq_self_eq_true, Bool.true_and, Bool.and_eq_true, beq_iff_eq, List.all_eq_true, typedIdDigest]
  exact ⟨by rw [List.length_take, hhex.1]; rfl, fun u hu => hhex.2 u (List.mem_of_mem_take hu)⟩

/-- A journal as `observeHookRead` writes it. -/
structure JournalOk (E : Host) (provider : ParticipatingProvider) (omitted : ℕ) (rs : List ReadObservation) :
    Prop where
  rows : ∀ r ∈ rs, RowOk E provider r
  distinct : (rs.map (·.invocationSha256)).Nodup
  few : rs.length ≤ maxReadObservations
  counted : omitted ≤ maxSafeInteger

/-- The rows of a journal in their JSON form. -/
def rowsJson (provider : ParticipatingProvider) (rs : List ReadObservation) : List Json :=
  rs.map (·.toJson provider)

section
variable {sessionId : JsString} {omitted : ℕ} {rs : List ReadObservation}

theorem journal_ordered :
    orderedKeys (["observations", "omitted", "provider", "schema", "session_id"].map js) = true := by decide

theorem journal_reads : let v := journalJson provider sessionId omitted (rowsJson provider rs)
    v.get (js "observations") = some (.arr (rowsJson provider rs)) ∧ v.get (js "omitted") = some (natJson omitted) ∧
      v.get (js "provider") = some (.str provider.text) ∧ v.get (js "schema") = some (.str readObservationSchema) ∧
      v.get (js "session_id") = some (.str sessionId) := by
  refine ⟨?_, ?_, ?_, ?_, ?_⟩ <;> exact get_objectOf (by simp) journal_ordered

theorem JournalOk.written (h : JournalOk E provider omitted rs) :
    Written E.float (journalJson provider sessionId omitted (rowsJson provider rs)) := by
  refine Written.objectOf ?_ journal_ordered
  have hrows : Written E.float (.arr (rowsJson provider rs)) := by
    refine Written.arr fun v hv => ?_
    obtain ⟨r, hr, rfl⟩ := List.mem_map.1 hv
    exact (h.rows r hr).written
  simp only [List.mem_cons, List.not_mem_nil, or_false, forall_eq_or_imp, forall_eq, Option.some.injEq]
  exact ⟨fun v hv => hv ▸ hrows, fun v hv => hv ▸ written_nat h.counted, fun v hv => hv ▸ Written.str _,
    fun v hv => hv ▸ Written.str _, fun v hv => hv ▸ Written.str _⟩

/-- A journal is far below the bound of its reader. -/
theorem JournalOk.length_le (hiso : IsoDates E) (hid : isSessionId sessionId = true)
    (h : JournalOk E provider omitted rs) :
    (journalFile provider sessionId omitted (rowsJson provider rs)).length ≤ maxJournalBytes := by
  have hw := @JournalOk.written E provider sessionId omitted rs h
  obtain ⟨h1, h2, h3, h4, h5⟩ := @journal_reads provider sessionId omitted rs
  have hkeys : hasOnlyKeys ["observations", "omitted", "provider", "schema", "session_id"]
      (journalJson provider sessionId omitted (rowsJson provider rs)) = true := hasOnlyKeys_objectOf
  have hrows : stableSize (.arr (rowsJson provider rs)) ≤ 11218 := by
    have hwell : Written E.float (.arr (rowsJson provider rs)) := Written.arr fun v hv => by
      obtain ⟨r, hr, rfl⟩ := List.mem_map.1 hv
      exact (h.rows r hr).written
    have hrow : ∀ v ∈ rowsJson provider rs, stableSize v ≤ 700 := by
      intro v hv
      obtain ⟨r, hr, rfl⟩ := List.mem_map.1 hv
      exact (h.rows r hr).size hiso
    have hsize := size_arr_le hwell.wellFormed hrow
    have hfew := h.few
    rw [rowsJson, List.length_map] at hsize
    unfold maxReadObservations at hfew
    unfold rowsJson
    omega
  have hsession : stableSize (.str sessionId) ≤ 38 := by
    have htag : (js "ses").length = 3 := by decide
    obtain ⟨hplain, hlen⟩ := isId_plain (List.all_eq_true.1 (by decide)) hid
    exact stableSize_plain_le hplain (by omega)
  have hprovider : stableSize (.str provider.text) ≤ 8 := by cases provider <;> decide
  have hschema : stableSize (.str readObservationSchema) ≤ 29 := by decide
  have hsize : stableSize (journalJson provider sessionId omitted (rowsJson provider rs)) ≤ 12000 := by
    refine le_trans (size_le_of_keys [("observations", 11218), ("omitted", 16), ("provider", 8), ("schema", 29),
      ("session_id", 38)] hw.wellFormed hkeys ?_) (by decide)
    simp only [List.mem_cons, List.not_mem_nil, or_false, forall_eq_or_imp, forall_eq, h1, h2, h3, h4, h5,
      Option.some.injEq]
    exact ⟨fun w hw => hw ▸ hrows, fun w hw => hw ▸ stableSize_nat_le h.counted, fun w hw => hw ▸ hprovider,
      fun w hw => hw ▸ hschema, fun w hw => hw ▸ hsession⟩
  have hcut := byteLength_append (stableStringify_clean hw.wellFormed).wellFormed [10]
  rw [byteLength_ascii (s := [10]) (by simp)] at hcut
  have hlen : (journalFile provider sessionId omitted (rowsJson provider rs)).length =
      stableSize (journalJson provider sessionId omitted (rowsJson provider rs)) + 1 := hcut
  have hmax : maxJournalBytes = 16384 := rfl
  omega

/-- **A written journal is read back.** -/
theorem readReadObservations_written (hiso : IsoDates E) (hid : isSessionId sessionId = true)
    (h : JournalOk E provider omitted rs) :
    readReadObservations E provider sessionId (some (journalFile provider sessionId omitted (rowsJson provider rs))) =
      .ok omitted (rowsJson provider rs) := by
  have hw := @JournalOk.written E provider sessionId omitted rs h
  obtain ⟨h1, h2, h3, h4, h5⟩ := @journal_reads provider sessionId omitted rs
  have hobject : isObject (some (journalJson provider sessionId omitted (rowsJson provider rs))) = true := rfl
  have hkeys : unknownKeys ["schema", "provider", "session_id", "omitted", "observations"]
      (journalJson provider sessionId omitted (rowsJson provider rs)) = false :=
    unknownKeys_objectOf (by simp only [List.map]; decide)
  have hsafe : isSafeNonNegativeInteger (some (natJson omitted)) = true := by
    have := h.counted
    simp only [isSafeNonNegativeInteger, isSafeInteger, natJson, Bool.and_eq_true, decide_eq_true_eq]
    omega
  have hrows : ((rowsJson provider rs).length ≤ maxReadObservations && rowsOk E provider [] (rowsJson provider rs)) =
      true := by
    rw [rowsJson, rowsOk_toJson h.rows h.distinct (by simp), List.length_map]
    simpa using h.few
  have homitted : (intAt "omitted" (journalJson provider sessionId omitted (rowsJson provider rs))).toNat = omitted := by
    rw [intAt, h2]
    rfl
  rw [readReadObservations, if_neg (by have := h.length_le hiso hid; omega), journalFile, hw.read_line]
  simp only [journalOf, hobject, hkeys, h1, h2, h3, h4, h5, equalsText_self, hsafe, hrows, homitted, Bool.not_false,
    Bool.and_self, if_true]

end

end

end Barbaro.Observed
