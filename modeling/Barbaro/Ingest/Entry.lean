import Barbaro.Ingest.Valid

/-!
# Entries of the journal

An entry is put into canonical order when it is written, autopsied when its owner is gone,
and compacted when it is too large. Each of these leaves a valid entry with the same id.

* `Entry.sorted`, `Entry.autopsy`, `Entry.compact`: what stays valid.
* `Entry.compact_size`: a compacted entry leaves room for the rest of the journal.
-/

namespace Barbaro.Ingest

variable {E : Host}

theorem isAttemptV2_congr {v w : Json} (hkeys : hasOnlyKeys attemptKeys w = hasOnlyKeys attemptKeys v)
    (hget : ∀ k, w.get k = v.get k) : isAttemptV2 E w = isAttemptV2 E v := by
  simp only [isAttemptV2, hkeys, hget]

theorem attemptId_congr {v w : Json} (h : w.get (js "attempt_id") = v.get (js "attempt_id")) :
    attemptId w = attemptId v := by
  rw [attemptId, attemptId, textAt, textAt, h]

section
variable {v : Json}

theorem Entry.wellFormed (h : Entry E v) : v.WellFormed E.float := by
  obtain ⟨fs, rfl, hnd, hvalues⟩ := h.fields
  exact ⟨hnd, wellFormedFields_iff.2 fun f hf => (hvalues f hf).wellFormed⟩

theorem Entry.written (h : Entry E v) : Written E.float (sortKeys v) := sortKeys_written h.wellFormed

/-! ## Canonical order -/

theorem Entry.get_sorted (h : Entry E v) (k : JsString) : (sortKeys v).get k = v.get k := by
  obtain ⟨fs, rfl, hnd, hvalues⟩ := h.fields
  exact get_sortKeys_shallow hnd (fun f hf => (hvalues f hf).sorted) k

/-- **An entry in canonical order** is an entry. -/
theorem Entry.sorted (h : Entry E v) : Entry E (sortKeys v) := by
  obtain ⟨fs, hfs, hnd, hvalues⟩ := h.fields
  have hkeys : hasOnlyKeys attemptKeys (sortKeys v) = hasOnlyKeys attemptKeys v := by
    rw [hfs]
    exact hasOnlyKeys_sortKeys attemptKeys fs
  refine ⟨⟨sortKeysFields fs, by rw [hfs, sortKeys], ?_, fun f hf => ?_⟩, ?_, fun o ho => ?_⟩
  · exact (sortKeysFields_keys fs).nodup_iff.2 hnd
  · obtain ⟨g, hg, rfl⟩ := List.mem_map.1 ((sortKeysFields_perm fs).subset hf)
    simp only [sortKeys_of_sorted (hvalues g hg).sorted]
    exact hvalues g hg
  · rw [isAttemptV2_congr hkeys h.get_sorted]
    exact h.valid
  · rw [h.get_sorted] at ho
    exact h.transitions o ho

theorem Entry.sorted_id (h : Entry E v) : attemptId (sortKeys v) = attemptId v :=
  attemptId_congr (h.get_sorted _)

/-! ## The autopsy -/

theorem get_autopsy {fs : List (JsString × Json)} {t k : JsString} : (autopsy t (.obj fs)).get k =
    if js "autopsied_at" = k then some (.str t)
    else if js "outcome" = k then some (.str (js IngestAttemptOutcome.outcomeNotRecorded.text))
    else if js "finished_at" = k then some (.str t) else (Json.obj fs).get k := by
  simp only [autopsy, Json.get, Json.lookup_setField]

/-- **An autopsied entry** is an entry. -/
theorem Entry.autopsy (h : Entry E v) {t : JsString} (ht : TimeOk E t) : Entry E (autopsy t v) := by
  obtain ⟨fs, rfl, hnd, hvalues⟩ := h.fields
  have hsame : ∀ k : String, k ≠ "autopsied_at" → k ≠ "outcome" → k ≠ "finished_at" →
      (Ingest.autopsy t (.obj fs)).get (js k) = (Json.obj fs).get (js k) := by
    intro k h1 h2 h3
    rw [get_autopsy, if_neg (mt js_inj.1 (Ne.symm h1)), if_neg (mt js_inj.1 (Ne.symm h2)),
      if_neg (mt js_inj.1 (Ne.symm h3))]
  have h1 : (Ingest.autopsy t (.obj fs)).get (js "autopsied_at") = some (.str t) := by
    rw [get_autopsy, if_pos rfl]
  have h2 : (Ingest.autopsy t (.obj fs)).get (js "outcome") =
      some (.str (js IngestAttemptOutcome.outcomeNotRecorded.text)) := by
    rw [get_autopsy, if_neg (by simp), if_pos rfl]
  have h3 : (Ingest.autopsy t (.obj fs)).get (js "finished_at") = some (.str t) := by
    rw [get_autopsy, if_neg (by simp), if_neg (by simp), if_pos rfl]
  have hkeys : hasOnlyKeys attemptKeys (Ingest.autopsy t (.obj fs)) = true := by
    have hvalid := h.valid
    simp only [isAttemptV2, Bool.and_eq_true] at hvalid
    have hallowed : ∀ k ∈ attemptKeys, ∀ w gs, hasOnlyKeys attemptKeys (.obj gs) = true →
        (gs.map (·.1)).Nodup → hasOnlyKeys attemptKeys (.obj (Json.setField (js k) w gs)) = true :=
      fun k hk w gs hgs hgnd => hasOnlyKeys_setField hgs hgnd hk
    have hown : hasOnlyKeys attemptKeys (.obj fs) = true := by simp only [hvalid]
    have hone := hallowed "finished_at" (by decide) (.str t) fs hown hnd
    have htwo := hallowed "outcome" (by decide) (.str (js IngestAttemptOutcome.outcomeNotRecorded.text)) _ hone
      (Json.setField_nodup hnd)
    exact hallowed "autopsied_at" (by decide) (.str t) _ htwo (Json.setField_nodup (Json.setField_nodup hnd))
  refine ⟨⟨_, rfl, Json.setField_nodup (Json.setField_nodup (Json.setField_nodup hnd)), fun f hf => ?_⟩, ?_,
    fun o ho => ?_⟩
  · rcases mem_setField hf with rfl | hf
    · exact Written.str t
    · rcases mem_setField hf with rfl | hf
      · exact Written.str _
      · rcases mem_setField hf with rfl | hf
        · exact Written.str t
        · exact hvalues f hf
  · have hvalid := h.valid
    have htime : isOptional (isTimestamp E) (some (.str t)) = true := ht
    have houtcome : isOptional isAttemptOutcome
        (some (.str (js IngestAttemptOutcome.outcomeNotRecorded.text))) = true := by decide
    simp only [isAttemptV2, Bool.and_eq_true, and_assoc] at hvalid ⊢
    simp (disch := decide) only [hsame, h1, h2, h3, htime, houtcome, hkeys]
    simp only [hvalid, Option.isNone_some, beq_self_eq_true, and_self]
  · rw [hsame _ (by decide) (by decide) (by decide)] at ho
    exact h.transitions o ho

theorem Entry.autopsy_id (h : Entry E v) (t : JsString) : attemptId (Ingest.autopsy t v) = attemptId v := by
  obtain ⟨fs, rfl, -⟩ := h.fields
  refine attemptId_congr ?_
  rw [get_autopsy, if_neg (by simp), if_neg (by simp), if_neg (by simp)]

/-! ## Compaction -/

theorem lookup_filter_ne (r k : JsString) (fs : List (JsString × Json)) :
    Json.lookup k (fs.filter (fun f => f.1 ≠ r)) = if r = k then none else Json.lookup k fs := by
  induction fs with
  | nil => simp [Json.lookup]
  | cons f fs ih =>
    by_cases hf : f.1 = r
    · rw [List.filter_cons_of_neg (by simpa using hf), ih, Json.lookup]
      by_cases hk : r = k
      · rw [if_pos hk, if_pos hk]
      · rw [if_neg hk, if_neg hk, if_neg (by rw [hf]; exact hk)]
    · rw [List.filter_cons_of_pos (by simpa using hf), Json.lookup, Json.lookup, ih]
      by_cases hk : f.1 = k
      · rw [if_pos hk, if_pos hk, if_neg]
        rintro rfl
        exact hf hk
      · rw [if_neg hk, if_neg hk]

/-- The integer that a check has found. -/
theorem safe_int {w : Option Json} {minimum : ℤ} (h : isSafeInteger minimum w = true) :
    ∃ z, w = some (.num (.int z)) ∧ minimum ≤ z ∧ z ≤ maxSafeInteger := by
  unfold isSafeInteger at h
  split at h
  · next z =>
    simp only [Bool.and_eq_true, decide_eq_true_eq] at h
    exact ⟨z, rfl, h⟩
  · cases h

theorem bounded_array {maximum : ℕ} {check : Json → Bool} {w : Option Json}
    (h : isBoundedArray maximum check w = true) :
    ∃ vs, w = some (.arr vs) ∧ vs.length ≤ maximum ∧ ∀ v ∈ vs, check v = true := by
  unfold isBoundedArray at h
  split at h
  · next vs =>
    rw [Bool.and_eq_true, decide_eq_true_eq, List.all_eq_true] at h
    exact ⟨vs, rfl, h⟩
  · cases h

theorem isObj_of_hasOnlyKeys {allowed : List String} {w : Json} (h : hasOnlyKeys allowed w = true) :
    ∃ fs, w = .obj fs := by
  cases w <;> first | exact ⟨_, rfl⟩ | cases h

/-- What the summary of an entry holds. -/
structure SummaryJson (E : Host) (o : Json) : Prop where
  written : Written E.float o
  valid : isObservationSummary E (some o) = true
  transitions : intAt "dropped_transitions" o + ((itemsAt? "size_transitions" o).getD []).length ≤ maxSafeInteger

theorem mem_of_lookup {k : JsString} {w : Json} {fs : List (JsString × Json)}
    (h : Json.lookup k fs = some w) : (k, w) ∈ fs := by
  induction fs with
  | nil => cases h
  | cons f fs ih =>
    rw [Json.lookup] at h
    split at h
    · next hk =>
      cases h
      rw [← hk]
      exact List.mem_cons_self
    · exact List.mem_cons_of_mem _ (ih h)

theorem Entry.get_written (h : Entry E v) {k : JsString} {w : Json} (hw : v.get k = some w) :
    Written E.float w := by
  obtain ⟨fs, rfl, -, hvalues⟩ := h.fields
  exact hvalues _ (mem_of_lookup hw)

theorem Entry.summary (h : Entry E v) : ∃ o, v.get (js "observations") = some o ∧ SummaryJson E o := by
  have hvalid := h.valid
  simp only [isAttemptV2, Bool.and_eq_true] at hvalid
  have hobs : isObservationSummary E (v.get (js "observations")) = true := by simp only [hvalid]
  rcases ho : v.get (js "observations") with _ | o
  · rw [ho] at hobs
    cases hobs
  · rw [ho] at hobs
    exact ⟨o, rfl, h.get_written ho, hobs, h.transitions o ho⟩

/-- **A compacted summary** is a summary, with one transition at most. -/
theorem SummaryJson.compact {o : Json} (h : SummaryJson E o) : SummaryJson E (compactObservations o) := by
  have hvalid := h.valid
  simp only [isObservationSummary, Bool.and_eq_true] at hvalid
  obtain ⟨⟨⟨⟨hkeys, hcount⟩, hdropped⟩, hitems⟩, hends⟩ := hvalid
  obtain ⟨os, rfl⟩ := isObj_of_hasOnlyKeys hkeys
  obtain ⟨ts, hts, hfew, hcheck⟩ := bounded_array hitems
  obtain ⟨d, hd, hd0, -⟩ := safe_int hdropped
  have hslack := h.transitions
  rw [intAt, itemsAt?, hd, hts] at hslack
  simp only [Option.getD_some] at hslack
  have hnd : (os.map (·.1)).Nodup := h.written.wellFormed.1
  have hitem : ∀ t ∈ ts, Written E.float t := by
    have hwritten := (keysSortedFields_iff.1 h.written.sorted).1 _ (mem_of_lookup hts)
    have hwell := wellFormedFields_iff.1 h.written.wellFormed.2 _ (mem_of_lookup hts)
    exact fun t ht => ⟨keysSortedItems_iff.1 hwritten t ht, wellFormedItems_iff.1 hwell t ht⟩
  have hlast : ∀ t ∈ ts.drop (ts.length - 1), t ∈ ts := fun t ht => List.mem_of_mem_drop ht
  have hlookup : Json.lookup (js "size_transitions") os = some (.arr ts) := hts
  have hint : intAt "dropped_transitions" (.obj os) = d := by rw [intAt, hd]
  have hcompact : compactObservations (.obj os) = .obj (Json.setField (js "dropped_transitions")
      (.num (.int (d + (ts.length - 1 : ℕ))))
      (Json.setField (js "size_transitions") (.arr (ts.drop (ts.length - 1))) os)) := by
    simp only [compactObservations, hlookup, hint]
  have hsum : Written E.float (.num (.int (d + (ts.length - 1 : ℕ)))) := Written.int (by omega)
  have hone := h.written.setField (Written.arr fun t ht => hitem t (hlast t ht)) (key_of_lookup hlookup)
  have hdroppedKey : js "dropped_transitions" ∈ os.map (·.1) := key_of_lookup hd
  have hwritten := hone.setField hsum (by rw [setField_keys (key_of_lookup hlookup)]; exact hdroppedKey)
  rw [hcompact]
  have hget : ∀ k : JsString, (Json.obj (Json.setField (js "dropped_transitions")
      (.num (.int (d + (ts.length - 1 : ℕ))))
      (Json.setField (js "size_transitions") (.arr (ts.drop (ts.length - 1))) os))).get k =
      if js "dropped_transitions" = k then some (.num (.int (d + (ts.length - 1 : ℕ))))
      else if js "size_transitions" = k then some (.arr (ts.drop (ts.length - 1)))
      else (Json.obj os).get k := by
    intro k
    simp only [Json.get, Json.lookup_setField]
  have hsame : ∀ k : String, k ≠ "dropped_transitions" → k ≠ "size_transitions" →
      (Json.obj (Json.setField (js "dropped_transitions") (.num (.int (d + (ts.length - 1 : ℕ))))
        (Json.setField (js "size_transitions") (.arr (ts.drop (ts.length - 1))) os))).get (js k) =
        (Json.obj os).get (js k) := by
    intro k h1 h2
    rw [hget, if_neg (mt js_inj.1 (Ne.symm h1)), if_neg (mt js_inj.1 (Ne.symm h2))]
  have h1 := hget (js "dropped_transitions")
  have h2 := hget (js "size_transitions")
  rw [if_pos rfl] at h1
  rw [if_neg (by simp), if_pos rfl] at h2
  refine ⟨hwritten, ?_, ?_⟩
  · have hallowed : hasOnlyKeys ["count", "dropped_transitions", "first", "last", "size_transitions"]
        (.obj (Json.setField (js "dropped_transitions") (.num (.int (d + (ts.length - 1 : ℕ))))
          (Json.setField (js "size_transitions") (.arr (ts.drop (ts.length - 1))) os))) = true :=
      hasOnlyKeys_setField (hasOnlyKeys_setField hkeys hnd (by decide)) (Json.setField_nodup hnd) (by decide)
    have hsafe : isSafeNonNegativeInteger (some (.num (.int (d + (ts.length - 1 : ℕ))))) = true := by
      simp only [isSafeNonNegativeInteger, isSafeInteger, Bool.and_eq_true, decide_eq_true_eq]
      omega
    have harray : isBoundedArray maxIngestObservationTransitions (isObservationTransition E)
        (some (.arr (ts.drop (ts.length - 1)))) = true := by
      simp only [isBoundedArray, Bool.and_eq_true, decide_eq_true_eq, List.all_eq_true, List.length_drop]
      exact ⟨by omega, fun t ht => hcheck t (hlast t ht)⟩
    have hempty : isEmptyArray (some (.arr (ts.drop (ts.length - 1)))) = isEmptyArray (some (.arr ts)) := by
      cases ts with
      | nil => rfl
      | cons t ts =>
        simp [isEmptyArray]
    rw [hts] at hends
    simp only [isObservationSummary, Bool.and_eq_true]
    simp (disch := decide) only [hsame, h1, h2, hallowed, hcount, hsafe, harray, hempty]
    exact ⟨⟨⟨⟨trivial, trivial⟩, trivial⟩, trivial⟩, hends⟩
  · simp only [intAt, itemsAt?, h1, h2, Option.getD_some, List.length_drop]
    omega

/-- **A compacted entry** is an entry. -/
theorem Entry.compact (h : Entry E v) : Entry E (compactAttempt v) ∧
    (compactAttempt v).get (js "runner_input") = none ∧ ∀ k : String, k ≠ "observations" → k ≠ "runner_input" →
      (compactAttempt v).get (js k) = v.get (js k) := by
  obtain ⟨o, ho, hsummary⟩ := h.summary
  obtain ⟨fs, rfl, hnd, hvalues⟩ := h.fields
  have hc := hsummary.compact
  have hcompact : compactAttempt (.obj fs) = .obj (Json.setField (js "observations") (compactObservations o)
      (fs.filter (fun f => f.1 ≠ js "runner_input"))) := by
    have hlookup : Json.lookup (js "observations") fs = some o := ho
    simp only [compactAttempt, hlookup]
  have hkept : ((fs.filter (fun f => f.1 ≠ js "runner_input")).map (·.1)).Nodup :=
    hnd.sublist (List.filter_sublist.map _)
  have hget : ∀ k : JsString, (compactAttempt (.obj fs)).get k =
      if js "observations" = k then some (compactObservations o)
      else if js "runner_input" = k then none else (Json.obj fs).get k := by
    intro k
    rw [hcompact]
    simp only [Json.get, Json.lookup_setField, lookup_filter_ne]
  have hsame : ∀ k : String, k ≠ "observations" → k ≠ "runner_input" →
      (compactAttempt (.obj fs)).get (js k) = (Json.obj fs).get (js k) := by
    intro k h1 h2
    rw [hget, if_neg (mt js_inj.1 (Ne.symm h1)), if_neg (mt js_inj.1 (Ne.symm h2))]
  have h1 := hget (js "observations")
  have h2 := hget (js "runner_input")
  rw [if_pos rfl] at h1
  rw [if_neg (by simp), if_pos rfl] at h2
  have hvalid := h.valid
  simp only [isAttemptV2, Bool.and_eq_true, and_assoc] at hvalid
  have hown : hasOnlyKeys attemptKeys (.obj fs) = true := by simp only [hvalid]
  have hkeys : hasOnlyKeys attemptKeys (compactAttempt (.obj fs)) = true := by
    rw [hcompact]
    refine hasOnlyKeys_setField ((hasOnlyKeys_iff hkept).2 fun k hk => ?_) hkept (by decide)
    exact (hasOnlyKeys_iff hnd).1 hown k ((List.filter_sublist.map _).subset hk)
  refine ⟨⟨⟨_, hcompact, Json.setField_nodup hkept, fun f hf => ?_⟩, ?_, fun o' ho' => ?_⟩,
    h2, hsame⟩
  · rcases mem_setField hf with rfl | hf
    · exact hc.written
    · exact hvalues f (List.mem_of_mem_filter hf)
  · have hinput : isRunnerInput none = true := rfl
    simp only [isAttemptV2, Bool.and_eq_true, and_assoc]
    simp (disch := decide) only [hsame, h1, h2, hkeys, hc.valid, hinput]
    simp only [hvalid, and_self]
  · rw [h1] at ho'
    cases ho'
    exact hc.transitions

theorem Entry.compact_id (h : Entry E v) : attemptId (compactAttempt v) = attemptId v :=
  attemptId_congr (h.compact.2.2 _ (by decide) (by decide))

/-! ## Sizes -/

theorem wellFormed_of_get {w x : Json} {k : JsString} (hw : w.WellFormed E.float) (h : w.get k = some x) :
    x.WellFormed E.float := by
  cases w with
  | obj fs => exact wellFormedFields_iff.1 hw.2 _ (mem_of_lookup h)
  | _ => cases h

theorem size_of_bounded {maximum : ℕ} {allowEmpty : Bool} {w : Json}
    (h : isBoundedString maximum allowEmpty (some w) = true) : stableSize w ≤ 6 * maximum + 2 := by
  cases w with
  | str s =>
    simp only [isBoundedString, Bool.and_eq_true, decide_eq_true_eq] at h
    have := quote_size_le s
    rw [stableSize, stable_str]
    omega
  | _ => cases h

theorem size_of_optional {maximum : ℕ} {w : Json} (h : isOptionalBoundedString maximum (some w) = true) :
    stableSize w ≤ 6 * maximum + 2 := size_of_bounded h

theorem size_of_time {w : Json} (h : isTimestamp E (some w) = true) : stableSize w ≤ 386 := by
  rw [isTimestamp.eq_def, Bool.and_eq_true] at h
  exact size_of_bounded h.1

theorem size_of_safe {minimum : ℤ} (hminimum : 0 ≤ minimum) {w : Json}
    (h : isSafeInteger minimum (some w) = true) : stableSize w ≤ 16 := by
  obtain ⟨z, hz, h0, h1⟩ := safe_int h
  obtain ⟨n, rfl⟩ := Int.eq_ofNat_of_zero_le (show 0 ≤ z by omega)
  cases hz
  rw [stableSize_nat]
  refine Json.digitCount_le (by decide) (lt_of_le_of_lt (b := maxSafeInteger) (by omega) ?_)
  decide

theorem isDecimal_ascii {s : JsString} (h : isDecimal s = true) : ∀ u ∈ s, u.toNat < 128 := by
  have hdigit : ∀ u, isDecimalDigit u = true → u.toNat < 128 := by
    intro u hu
    simp only [isDecimalDigit, Bool.and_eq_true, decide_eq_true_eq] at hu
    omega
  unfold isDecimal at h
  split at h
  · cases h
  · simpa using hdigit _ h
  · simp only [Bool.and_eq_true, List.all_eq_true] at h
    intro u hu
    rcases List.mem_cons.1 hu with rfl | hu
    · exact hdigit _ h.1.1
    · exact hdigit _ (h.2 u hu)

theorem size_of_identity {w : Json} (hw : w.WellFormed E.float) (h : isFileIdentity (some w) = true) :
    stableSize w ≤ 1230 := by
  simp only [isFileIdentity, Bool.and_eq_true] at h
  obtain ⟨⟨⟨hkeys, hdevice⟩, hinode⟩, hbirth⟩ := h
  have hpart : ∀ {x : Json}, isIdentityPart (some x) = true → stableSize x ≤ 386 := by
    intro x hx
    cases x with
    | str s =>
      simp only [isIdentityPart, Bool.and_eq_true, decide_eq_true_eq] at hx
      have hascii := isDecimal_ascii hx.2
      have hbytes := byteLength_ascii hascii
      have := quote_size_le s
      rw [stableSize, stable_str]
      omega
    | _ => cases hx
  have hsize := size_le_of_keys [("birthtime_ns", 386), ("device", 386), ("inode", 386)] hw hkeys (by
    simp only [List.mem_cons, List.not_mem_nil, or_false, forall_eq_or_imp, forall_eq]
    refine ⟨fun x hx => ?_, fun x hx => ?_, fun x hx => ?_⟩
    · exact hpart (hx ▸ hbirth)
    · exact hpart (hx ▸ hdevice)
    · exact hpart (hx ▸ hinode))
  exact le_trans hsize (by decide)

theorem size_of_snapshot {w : Json} (hw : w.WellFormed E.float) (h : isTranscriptSnapshot E (some w) = true) :
    stableSize w ≤ 1700 := by
  simp only [isTranscriptSnapshot, Bool.and_eq_true] at h
  obtain ⟨⟨⟨hkeys, htime⟩, hsize⟩, hidentity⟩ := h
  refine le_trans (size_le_of_keys [("file_identity", 1230), ("observed_at", 386), ("observed_size", 16)] hw
    hkeys ?_) (by decide)
  simp only [List.mem_cons, List.not_mem_nil, or_false, forall_eq_or_imp, forall_eq]
  refine ⟨fun x hx => ?_, fun x hx => ?_, fun x hx => ?_⟩
  · exact size_of_identity (wellFormed_of_get hw hx) (hx ▸ hidentity)
  · exact size_of_time (E := E) (hx ▸ htime)
  · exact size_of_safe (le_refl 0) (hx ▸ hsize)

theorem size_of_transition {w : Json} (hw : w.WellFormed E.float) (h : isObservationTransition E w = true) :
    stableSize w ≤ 2200 := by
  simp only [isObservationTransition, Bool.and_eq_true] at h
  obtain ⟨⟨⟨⟨⟨hkeys, htime⟩, hsize⟩, hidentity⟩, hfirst⟩, hrepeat⟩ := h
  refine le_trans (size_le_of_keys [("file_identity", 1230), ("first_observed_at", 386), ("observed_at", 386),
    ("observed_size", 16), ("repeat_count", 16)] hw hkeys ?_) (by decide)
  simp only [List.mem_cons, List.not_mem_nil, or_false, forall_eq_or_imp, forall_eq]
  refine ⟨fun x hx => ?_, fun x hx => ?_, fun x hx => ?_, fun x hx => ?_, fun x hx => ?_⟩
  · exact size_of_identity (wellFormed_of_get hw hx) (hx ▸ hidentity)
  · exact size_of_time (E := E) (hx ▸ hfirst)
  · exact size_of_time (E := E) (hx ▸ htime)
  · exact size_of_safe (le_refl 0) (hx ▸ hsize)
  · exact @size_of_safe 1 (by decide) _ (hx ▸ hrepeat)

theorem size_of_nullOr {check : Option Json → Bool} {bound : ℕ} (hbound : 4 ≤ bound) {w : Json}
    (hcheck : check (some w) = true → stableSize w ≤ bound) (h : isNullOr check (some w) = true) :
    stableSize w ≤ bound := by
  cases w with
  | null =>
    have hnull : stableSize .null = 4 := by decide
    omega
  | _ => exact hcheck h

theorem size_of_summary {w : Json} (h : SummaryJson E w) : stableSize w ≤ 21500 := by
  have hvalid := h.valid
  have hw := h.written.wellFormed
  simp only [isObservationSummary, Bool.and_eq_true] at hvalid
  obtain ⟨⟨⟨⟨hkeys, hcount⟩, hdropped⟩, hitems⟩, hends⟩ := hvalid
  have hsnapshot : ∀ k : String, k = "first" ∨ k = "last" → ∀ x, w.get (js k) = some x →
      stableSize x ≤ 1700 := by
    intro k hk x hx
    have hnull : stableSize .null = 4 := by decide
    have hcheck : isNull (w.get (js k)) = true ∨ isTranscriptSnapshot E (w.get (js k)) = true := by
      split at hends
      · rw [Bool.and_eq_true, Bool.and_eq_true] at hends
        rcases hk with rfl | rfl
        · exact .inl hends.1.1
        · exact .inl hends.1.2
      · rw [Bool.and_eq_true, Bool.and_eq_true] at hends
        rcases hk with rfl | rfl
        · exact .inr hends.1.1
        · exact .inr hends.1.2
    rw [hx] at hcheck
    rcases hcheck with hcheck | hcheck
    · cases x with
      | null => omega
      | _ => cases hcheck
    · exact size_of_snapshot (wellFormed_of_get hw hx) hcheck
  refine le_trans (size_le_of_keys [("count", 16), ("dropped_transitions", 16), ("first", 1700), ("last", 1700),
    ("size_transitions", 17610)] hw hkeys ?_) (by decide)
  simp only [List.mem_cons, List.not_mem_nil, or_false, forall_eq_or_imp, forall_eq]
  refine ⟨fun x hx => ?_, fun x hx => ?_, fun x hx => ?_, fun x hx => ?_, fun x hx => ?_⟩
  · exact size_of_safe (le_refl 0) (hx ▸ hcount)
  · exact size_of_safe (le_refl 0) (hx ▸ hdropped)
  · exact hsnapshot "first" (.inl rfl) x hx
  · exact hsnapshot "last" (.inr rfl) x hx
  · obtain ⟨ts, hts, hfew, hcheck⟩ := bounded_array hitems
    rw [hx] at hts
    cases hts
    have hwell := wellFormed_of_get hw hx
    have := size_arr_le hwell fun t ht => size_of_transition (wellFormedItems_iff.1 hwell t ht) (hcheck t ht)
    unfold maxIngestObservationTransitions at hfew
    omega

theorem size_of_endpoint {w : Json} (hw : w.WellFormed E.float) (h : isCheckpointEndpoint (some w) = true) :
    stableSize w ≤ 1400 := by
  simp only [isCheckpointEndpoint, Bool.and_eq_true] at h
  obtain ⟨⟨⟨⟨⟨hkeys, hidentity⟩, hoffset⟩, hline⟩, hsize⟩, -⟩ := h
  refine le_trans (size_le_of_keys [("byte_offset", 16), ("file_identity", 1230), ("next_line_number", 16),
    ("observed_size", 16)] hw hkeys ?_) (by decide)
  simp only [List.mem_cons, List.not_mem_nil, or_false, forall_eq_or_imp, forall_eq]
  refine ⟨fun x hx => ?_, fun x hx => ?_, fun x hx => ?_, fun x hx => ?_⟩
  · exact size_of_safe (le_refl 0) (hx ▸ hoffset)
  · exact size_of_identity (wellFormed_of_get hw hx) (hx ▸ hidentity)
  · exact @size_of_safe 1 (by decide) _ (hx ▸ hline)
  · exact size_of_safe (le_refl 0) (hx ▸ hsize)

theorem size_of_trigger {w : Json} (hw : w.WellFormed E.float) (h : isTrigger (some w) = true) :
    stableSize w ≤ 9600 := by
  simp only [isTrigger, Bool.and_eq_true] at h
  obtain ⟨⟨⟨⟨⟨hkeys, hnative⟩, hturn⟩, hagent⟩, hflag⟩, hmessage⟩ := h
  refine le_trans (size_le_of_keys [("agent_id", 3074), ("last_assistant_message", 130), ("native_turn_id", 3074),
    ("stop_hook_active", 5), ("turn_id", 3074)] hw hkeys ?_) (by decide)
  simp only [List.mem_cons, List.not_mem_nil, or_false, forall_eq_or_imp, forall_eq]
  refine ⟨fun x hx => ?_, fun x hx => ?_, fun x hx => ?_, fun x hx => ?_, fun x hx => ?_⟩
  · exact size_of_optional (hx ▸ hagent)
  · rw [hx] at hmessage
    have hx' : isLastAssistantMessage (some x) = true := hmessage
    simp only [isLastAssistantMessage, Bool.and_eq_true] at hx'
    obtain ⟨⟨hkeys', hsha⟩, hbytes⟩ := hx'
    refine le_trans (size_le_of_keys [("sha256", 66), ("utf8_bytes", 16)] (wellFormed_of_get hw hx) hkeys' ?_)
      (by decide)
    simp only [List.mem_cons, List.not_mem_nil, or_false, forall_eq_or_imp, forall_eq]
    refine ⟨fun y hy => ?_, fun y hy => size_of_safe (le_refl 0) (hy ▸ hbytes)⟩
    rw [hy] at hsha
    cases y with
    | str s =>
      obtain ⟨hplain, hlen⟩ := isSha256Hex_plain (s := s) hsha
      have := hplain.quote_size
      rw [stableSize, stable_str]
      omega
    | _ => cases hsha
  · exact size_of_optional (hx ▸ hnative)
  · rw [hx] at hflag
    cases x with
    | bool b => cases b <;> decide
    | _ => cases hflag
  · exact size_of_optional (hx ▸ hturn)

theorem size_of_ids {w : Json} (hw : w.WellFormed E.float) (h : isBoundedIdArray (some w) = true) :
    stableSize w ≤ 98402 := by
  obtain ⟨vs, hvs, hfew, hcheck⟩ := bounded_array h
  cases hvs
  have := size_arr_le hw fun x hx => size_of_bounded (hcheck x hx)
  unfold maxRunnerArrayItems at hfew
  unfold maxIdBytes at this
  omega

/-- **A compacted entry is small enough**, whatever its texts and its ids are. -/
theorem Entry.size_le (h : Entry E v) (hinput : v.get (js "runner_input") = none) : stableSize v ≤ 250000 := by
  have hw := h.wellFormed
  have hvalid := h.valid
  simp only [isAttemptV2, Bool.and_eq_true, and_assoc] at hvalid
  obtain ⟨hkeys, hid, hevent, htrigger, htriggered, hpid, hstarted, hobs, hbefore, hafter, hturns, -,
    hbackground, hagents, hwithheld, hblocker, hfinished, houtcome, -, hmigrated, hautopsied⟩ := hvalid
  refine le_trans (size_le_of_keys [("attempt_id", 3074), ("event", 1538), ("trigger", 9600),
    ("triggered_at", 386), ("pid", 16), ("started_at", 386), ("observations", 21500),
    ("checkpoint_before", 1400), ("checkpoint_after", 1400), ("turns_appended", 16), ("runner_input", 0),
    ("pending_background_ids", 98402), ("pending_agent_ids", 98402), ("withheld_reason", 3074),
    ("publish_blocker", 3074), ("finished_at", 386), ("outcome", 40), ("migrated_from_schema", 40),
    ("autopsied_at", 386)] hw hkeys ?_) (by decide)
  simp only [List.mem_cons, List.not_mem_nil, or_false, forall_eq_or_imp, forall_eq]
  have hendpoint : ∀ x, x.WellFormed E.float → isNullOr isCheckpointEndpoint (some x) = true →
      stableSize x ≤ 1400 := fun x hx hn => size_of_nullOr (by decide) (size_of_endpoint hx) hn
  have htime : ∀ x, isOptional (isTimestamp E) (some x) = true → stableSize x ≤ 386 := fun x hx =>
    size_of_time (E := E) hx
  refine ⟨fun x hx => size_of_bounded (hx ▸ hid), fun x hx => size_of_bounded (hx ▸ hevent),
    fun x hx => size_of_trigger (wellFormed_of_get hw hx) (hx ▸ htrigger),
    fun x hx => size_of_time (E := E) (hx ▸ htriggered),
    fun x hx => @size_of_safe 1 (by decide) _ (hx ▸ hpid),
    fun x hx => size_of_time (E := E) (hx ▸ hstarted), fun x hx => ?_,
    fun x hx => hendpoint x (wellFormed_of_get hw hx) (hx ▸ hbefore),
    fun x hx => hendpoint x (wellFormed_of_get hw hx) (hx ▸ hafter),
    fun x hx => size_of_safe (le_refl 0) (hx ▸ hturns), fun x hx => ?_,
    fun x hx => size_of_ids (wellFormed_of_get hw hx) (hx ▸ hbackground),
    fun x hx => size_of_ids (wellFormed_of_get hw hx) (hx ▸ hagents),
    fun x hx => size_of_optional (hx ▸ hwithheld), fun x hx => size_of_optional (hx ▸ hblocker),
    fun x hx => htime x (hx ▸ hfinished), fun x hx => ?_, fun x hx => ?_,
    fun x hx => htime x (hx ▸ hautopsied)⟩
  · obtain ⟨o, ho, hsummary⟩ := h.summary
    rw [hx] at ho
    cases ho
    exact size_of_summary hsummary
  · rw [hinput] at hx
    cases hx
  · rw [hx] at houtcome
    cases x with
    | str s =>
      have hout : isAttemptOutcome (some (.str s)) = true := houtcome
      simp only [isAttemptOutcome, List.any_cons, List.any_nil, Bool.or_false, Bool.or_eq_true, beq_iff_eq] at hout
      rcases hout with rfl | rfl | rfl | rfl | rfl <;> decide
    | _ => cases houtcome
  · rw [hx] at hmigrated
    cases x with
    | str s =>
      have heq : s = legacyIngestAttemptSchema := by
        have hschema : equalsText legacyIngestAttemptSchema (some (.str s)) = true := hmigrated
        simpa [equalsText] using hschema
      rw [heq]
      decide
    | _ => cases hmigrated

end

end Barbaro.Ingest
