import Barbaro.Ingest.Entry

/-!
# Fitting the journal

* `fitJournal_spec`: fitting never fails, keeps the count of the attempts and the order of
  those that stay, and leaves a journal within its limits.
* `readJournal_written`: a journal within its limits is read back.
* `parseReaderIngestJournal_written`: and it is accepted by the strict reader.
-/

namespace Barbaro.Ingest

variable {E : Host}

/-- What holds of a journal in memory. -/
structure JournalOk (E : Host) (j : IngestJournal) : Prop where
  entries : ∀ v ∈ j.attempts, Entry E v
  counted : j.droppedAttempts + j.attempts.length ≤ maxSafeInteger

def attemptIds (j : IngestJournal) : List JsString := j.attempts.map attemptId

/-! ## Eviction -/

theorem oldestIndex_lt {attempts : List Json} (h : attempts ≠ []) : oldestIndex attempts < attempts.length := by
  rw [oldestIndex]
  rcases hi : attempts.findIdx? isFinished with _ | i
  · exact List.length_pos_iff.2 h
  · exact (List.findIdx?_eq_some_iff_getElem.1 hi).1

theorem dropOldest_sublist (j : IngestJournal) : List.Sublist (dropOldest j).attempts j.attempts :=
  List.eraseIdx_sublist _ _

theorem dropOldest_counted {j : IngestJournal} (h : j.attempts ≠ []) :
    (dropOldest j).droppedAttempts + (dropOldest j).attempts.length = j.droppedAttempts + j.attempts.length := by
  have hlt := oldestIndex_lt h
  simp only [dropOldest, List.length_eraseIdx_of_lt hlt]
  omega

/-- **The rule of the loops**: what every eviction keeps, the loop keeps. -/
theorem evictWhile_rule {P : IngestJournal → Prop} {exceeds : IngestJournal → Bool}
    (hstep : ∀ j, exceeds j = true → P j → P (dropOldest j)) (n : ℕ) {j : IngestJournal} (hj : P j) :
    P (evictWhile exceeds n j) := by
  induction n generalizing j with
  | zero => exact hj
  | succ n ih =>
    rw [evictWhile]
    split
    · next hover => exact ih (hstep j hover hj)
    · exact hj

theorem evictWhile_done {exceeds : IngestJournal → Bool} (hover : ∀ j, exceeds j = true → j.attempts ≠ []) (n : ℕ)
    {j : IngestJournal} (hn : j.attempts.length ≤ n) : exceeds (evictWhile exceeds n j) = false := by
  induction n generalizing j with
  | zero =>
    rw [evictWhile]
    by_contra hne
    exact hover j (by simpa using hne) (List.length_eq_zero_iff.1 (by omega))
  | succ n ih =>
    rw [evictWhile]
    split
    · next ho =>
      refine ih ?_
      have hlt := oldestIndex_lt (hover j ho)
      simp only [dropOldest, List.length_eraseIdx_of_lt hlt]
      omega
    · next ho => simpa using ho

/-- What an eviction may leave of a journal. -/
structure Evicted (j j' : IngestJournal) : Prop where
  attempts : List.Sublist j'.attempts j.attempts
  counted : j'.droppedAttempts + j'.attempts.length = j.droppedAttempts + j.attempts.length

theorem evictWhile_evicted {exceeds : IngestJournal → Bool} (hover : ∀ j, exceeds j = true → j.attempts ≠ []) (n : ℕ)
    (j : IngestJournal) : Evicted j (evictWhile exceeds n j) := by
  refine evictWhile_rule (P := fun j' => Evicted j j') (fun k hk hkept => ?_) n ⟨List.Sublist.refl _, rfl⟩
  exact ⟨(dropOldest_sublist k).trans hkept.attempts, (dropOldest_counted (hover k hk)).trans hkept.counted⟩

theorem Evicted.trans {j k l : IngestJournal} (h : Evicted j k) (h' : Evicted k l) : Evicted j l :=
  ⟨h'.attempts.trans h.attempts, h'.counted.trans h.counted⟩

theorem Evicted.ok {j j' : IngestJournal} (h : Evicted j j') (hj : JournalOk E j) : JournalOk E j' :=
  ⟨fun v hv => hj.entries v (h.attempts.subset hv), by
    have := hj.counted
    have := h.counted
    omega⟩

theorem tooMany_nonempty (j : IngestJournal) (h : tooMany j = true) : j.attempts ≠ [] := by
  rintro hnil
  rw [tooMany, hnil] at h
  exact absurd h (by decide)

theorem tooLarge_nonempty (key : SessionKey) (j : IngestJournal) (h : tooLarge key j = true) :
    j.attempts ≠ [] := by
  rintro hnil
  rw [tooLarge, hnil] at h
  exact absurd h (by simp)

/-! ## The bytes of a journal -/

/-- The journal as it is read back: every attempt in canonical order. -/
def canonical (j : IngestJournal) : IngestJournal := ⟨j.droppedAttempts, j.attempts.map sortKeys⟩

section
variable {key : SessionKey} {j : IngestJournal}

theorem canonical_ok (h : JournalOk E j) : JournalOk E (canonical j) where
  entries v hv := by
    obtain ⟨w, hw, rfl⟩ := List.mem_map.1 hv
    exact (h.entries w hw).sorted
  counted := by
    simp only [canonical, List.length_map]
    exact h.counted

theorem canonical_ids (h : JournalOk E j) : attemptIds (canonical j) = attemptIds j := by
  simp only [attemptIds, canonical, List.map_map]
  exact List.map_congr_left fun v hv => (h.entries v hv).sorted_id

theorem journal_ordered :
    orderedKeys (["attempts", "dropped_attempts", "provider", "schema", "session_id"].map js) = true := by decide

theorem canonical_written (h : JournalOk E j) : Written E.float ((canonical j).toJson key) := by
  refine Written.objectOf ?_ journal_ordered
  have hcounted := h.counted
  simp only [List.mem_cons, List.not_mem_nil, or_false, forall_eq_or_imp, forall_eq, Option.some.injEq]
  refine ⟨fun v hv => hv ▸ Written.arr fun w hw => ?_, fun v hv => hv ▸ Written.nat (show _ ≤ _ from ?_),
    fun v hv => hv ▸ Written.str _, fun v hv => hv ▸ Written.str _, fun v hv => hv ▸ Written.str _⟩
  · obtain ⟨x, hx, rfl⟩ := List.mem_map.1 hw
    exact (h.entries x hx).written
  · simp only [canonical]
    omega

theorem sortKeysFields_map {fs : List (JsString × Json)} (h : ∀ f ∈ fs, f.2.WellFormed E.float) :
    sortKeysFields (fs.map (fun f => (f.1, sortKeys f.2))) = sortKeysFields fs := by
  induction fs with
  | nil => rfl
  | cons f fs ih =>
    have hf := sortKeys_of_sorted (sortKeys_sorted (h f List.mem_cons_self))
    rw [List.map_cons, sortKeysFields, sortKeysFields, hf, ih fun g hg => h g (List.mem_cons_of_mem _ hg)]

theorem toJson_wellFormed (h : JournalOk E j) : (j.toJson key).WellFormed E.float := by
  refine wellFormed_objectOf ?_ journal_ordered
  have hcounted := h.counted
  simp only [List.mem_cons, List.not_mem_nil, or_false, forall_eq_or_imp, forall_eq, Option.some.injEq]
  refine ⟨fun v hv => hv ▸ wellFormedItems_iff.2 fun w hw => (h.entries w hw).wellFormed,
    fun v hv => hv ▸ (Written.nat (E := E) (show j.droppedAttempts ≤ _ by omega)).wellFormed,
    fun v hv => hv ▸ trivial, fun v hv => hv ▸ trivial, fun v hv => hv ▸ trivial⟩

/-- **The canonical form of a journal** is that of its attempts in canonical order. -/
theorem sortKeys_toJson (h : JournalOk E j) : sortKeys (j.toJson key) = (canonical j).toJson key := by
  have hwell := @toJson_wellFormed E key j h
  obtain ⟨fs, hfs⟩ : ∃ fs, j.toJson key = .obj fs := ⟨_, rfl⟩
  have hmap : (canonical j).toJson key = .obj (fs.map (fun f => (f.1, sortKeys f.2))) := by
    have hfields := Json.obj.inj hfs
    rw [← hfields]
    simp only [IngestJournal.toJson, objectOf, canonical, natJson, List.filterMap_cons, List.filterMap_nil,
      Option.map_some, List.map_cons, List.map_nil, sortKeys, sortKeysItems_eq]
  rw [hfs] at hwell
  rw [← sortKeys_of_sorted (@canonical_written E key j h).sorted, hmap, hfs, sortKeys, sortKeys,
    sortKeysFields_map (wellFormedFields_iff.1 hwell.2)]

/-! ## Fitting -/

theorem get_toJson (key : SessionKey) (j : IngestJournal) :
    (j.toJson key).get (js "attempts") = some (.arr j.attempts) ∧
      (j.toJson key).get (js "dropped_attempts") = some (natJson j.droppedAttempts) ∧
      (j.toJson key).get (js "provider") = some (.str key.provider) ∧
      (j.toJson key).get (js "schema") = some (.str ingestAttemptSchema) ∧
      (j.toJson key).get (js "session_id") = some (.str key.sessionId) := by
  refine ⟨?_, ?_, ?_, ?_, ?_⟩ <;> exact get_objectOf (by simp) journal_ordered

/-- The bytes of a journal, from those of its attempts. -/
theorem journal_size (key : SessionKey) {bound : ℕ} (h : JournalOk E j)
    (hbound : stableSize (.arr j.attempts) ≤ bound) : journalBytes key j ≤ bound + 700 := by
  have hwell := @toJson_wellFormed E key j h
  have hcounted := h.counted
  obtain ⟨h1, h2, h3, h4, h5⟩ := get_toJson key j
  have hkeys : hasOnlyKeys ["attempts", "dropped_attempts", "provider", "schema", "session_id"]
      (j.toJson key) = true := hasOnlyKeys_objectOf
  have hsize := size_le_of_keys [("attempts", bound), ("dropped_attempts", 16), ("provider", 257),
    ("schema", 100), ("session_id", 100)] hwell hkeys (by
    simp only [List.mem_cons, List.not_mem_nil, or_false, forall_eq_or_imp, forall_eq, h1, h2, h3, h4, h5,
      Option.some.injEq]
    refine ⟨fun w hw => ?_, fun w hw => ?_, fun w hw => ?_, fun w hw => ?_, fun w hw => ?_⟩
    · subst hw
      exact hbound
    · subst hw
      exact size_of_safe (le_refl 0) (safeNat (by omega))
    · subst hw
      have hsize := (isProvider_plain key.provider_ok.1).quote_size
      have := key.provider_ok.2
      rw [stableSize, stable_str]
      omega
    · subst hw
      decide
    · subst hw
      obtain ⟨hplain, hlen⟩ := isId_plain (List.all_eq_true.1 (by decide)) key.sessionId_ok
      have htag : (js "ses").length = 3 := by decide
      have hsize := hplain.quote_size
      rw [stableSize, stable_str]
      omega)
  have k1 : byteLength (Json.quote (js "attempts")) = 10 := by decide
  have k2 : byteLength (Json.quote (js "dropped_attempts")) = 18 := by decide
  have k3 : byteLength (Json.quote (js "provider")) = 10 := by decide
  have k4 : byteLength (Json.quote (js "schema")) = 8 := by decide
  have k5 : byteLength (Json.quote (js "session_id")) = 12 := by decide
  simp only [List.map_cons, List.map_nil, List.sum_cons, List.sum_nil, k1, k2, k3, k4, k5, stableSize] at hsize
  unfold journalBytes
  omega

/-- **A compacted attempt fits alone.** -/
theorem single_fits (key : SessionKey) {v : Json} {dropped : ℕ} (hv : Entry E v)
    (hinput : v.get (js "runner_input") = none) (hdropped : dropped + 1 ≤ maxSafeInteger) :
    journalBytes key ⟨dropped, [v]⟩ ≤ maxIngestAttemptBytes := by
  have hok : JournalOk E ⟨dropped, [v]⟩ := ⟨by simpa using hv, by simpa using hdropped⟩
  have hitems : (Json.arr [v]).WellFormed E.float := ⟨hv.wellFormed, trivial⟩
  have hone : ∀ w ∈ [v], stableSize w ≤ 250000 := fun w hw => by
    rw [List.mem_singleton] at hw
    rw [hw]
    exact hv.size_le hinput
  have harray := size_arr_le hitems hone
  rw [List.length_singleton] at harray
  have hsize := journal_size key hok harray
  unfold maxIngestAttemptBytes
  omega

/-- A journal that `fitJournal` has made of another one. -/
structure Fitted (E : Host) (key : SessionKey) (j j' : IngestJournal) : Prop where
  ok : JournalOk E j'
  counted : j'.droppedAttempts + j'.attempts.length = j.droppedAttempts + j.attempts.length
  few : j'.attempts.length ≤ maxIngestAttempts
  fits : journalBytes key j' ≤ maxIngestAttemptBytes
  ids : List.Sublist (attemptIds j') (attemptIds j)
  kept : ∀ v ∈ j'.attempts, v ∈ j.attempts ∨ ∃ w ∈ j.attempts, v = compactAttempt w

/-- **Fitting never fails.** -/
theorem fitJournal_spec (h : JournalOk E j) : ∃ j', fitJournal key j = .ok j' ∧ Fitted E key j j' := by
  simp only [fitJournal]
  have hcounted := evictWhile_evicted tooMany_nonempty j.attempts.length j
  have hmany : tooMany (evictWhile tooMany j.attempts.length j) = false :=
    evictWhile_done tooMany_nonempty _ (le_refl _)
  set counted := evictWhile tooMany j.attempts.length j with hcountedDef
  have hfitted := evictWhile_evicted (tooLarge_nonempty key) counted.attempts.length counted
  have hlarge : tooLarge key (evictWhile (tooLarge key) counted.attempts.length counted) = false :=
    evictWhile_done (tooLarge_nonempty key) _ (le_refl _)
  set fitted := evictWhile (tooLarge key) counted.attempts.length counted with hfittedDef
  have hall := hcounted.trans hfitted
  have hok := hall.ok h
  have hfew : fitted.attempts.length ≤ maxIngestAttempts := by
    have hle := hfitted.attempts.length_le
    rw [tooMany, decide_eq_false_iff_not] at hmany
    omega
  split
  · next hfits =>
    exact ⟨fitted, rfl, hok, hall.counted, hfew, hfits, hall.attempts.map _, fun v hv => .inl (hall.attempts.subset hv)⟩
  · next hfits =>
    -- only one attempt is left, and it is compacted
    have hone : fitted.attempts.length ≤ 1 := by
      rw [tooLarge, Bool.and_eq_false_iff, decide_eq_false_iff_not, decide_eq_false_iff_not] at hlarge
      rcases hlarge with hlarge | hlarge
      · omega
      · exact absurd (Nat.not_lt.1 hlarge) hfits
    rcases hlast : fitted.attempts.getLast? with _ | newest
    · exfalso
      rw [List.getLast?_eq_none_iff] at hlast
      refine hfits ?_
      have hempty : fitted = ⟨fitted.droppedAttempts, []⟩ := by rw [← hlast]
      rw [hempty]
      have hnone : JournalOk E ⟨fitted.droppedAttempts, []⟩ := by
        rw [← hempty]
        exact hok
      have hbrackets : stableSize (.arr []) ≤ 2 := by decide
      have hsize := journal_size key hnone hbrackets
      unfold maxIngestAttemptBytes
      omega
    · have hsingle : fitted.attempts = [newest] := by
        rcases ha : fitted.attempts with _ | ⟨v, _ | ⟨w, vs⟩⟩
        · rw [ha] at hlast
          cases hlast
        · rw [ha] at hlast
          cases hlast
          rfl
        · rw [ha] at hone
          simp at hone
      have hnewest : Entry E newest := hok.entries newest (by rw [hsingle]; exact List.mem_cons_self)
      obtain ⟨hentry, hinput, -⟩ := hnewest.compact
      have hid := hnewest.compact_id
      have hroom : fitted.droppedAttempts + 1 ≤ maxSafeInteger := by
        have hroom := hok.counted
        rw [hsingle, List.length_singleton] at hroom
        exact hroom
      have hfit := single_fits key hentry hinput hroom
      simp only [if_neg (Nat.not_lt.2 hfit)]
      refine ⟨_, rfl, ⟨by simpa using hentry, by simpa using hroom⟩, ?_,
        show 1 ≤ maxIngestAttempts by decide, hfit, ?_, ?_⟩
      · have hcount := hall.counted
        rw [hsingle] at hcount
        exact hcount
      · have hsub := hall.attempts.map attemptId
        rw [hsingle] at hsub
        simpa [attemptIds, hid] using hsub
      · intro v hv
        rw [List.mem_singleton] at hv
        exact .inr ⟨newest, hall.attempts.subset (by rw [hsingle]; exact List.mem_cons_self), hv⟩

/-- A journal that fits is left as it is. -/
theorem fitJournal_fitted (hfew : j.attempts.length ≤ maxIngestAttempts)
    (hfits : journalBytes key j ≤ maxIngestAttemptBytes) : fitJournal key j = .ok j := by
  have hnone : ∀ (exceeds : IngestJournal → Bool) n, exceeds j = false → evictWhile exceeds n j = j := by
    intro exceeds n hover
    cases n with
    | zero => rfl
    | succ n => rw [evictWhile, hover, if_neg (by decide)]
  have hmany : tooMany j = false := by
    rw [tooMany, decide_eq_false_iff_not]
    omega
  have hlarge : tooLarge key j = false := by
    rw [tooLarge, decide_eq_false (Nat.not_lt.2 hfits), Bool.and_false]
  simp only [fitJournal]
  rw [hnone _ _ hmany, hnone _ _ hlarge, if_pos hfits]

/-! ## Reading back -/

/-- The bytes of the file of a journal. -/
def journalFile (key : SessionKey) (j : IngestJournal) : Bytes := utf8 (stableJsonLine (j.toJson key))

theorem replaceJournal_fitted (hfew : j.attempts.length ≤ maxIngestAttempts)
    (hfits : journalBytes key j ≤ maxIngestAttemptBytes) : replaceJournal key j = .ok (j, journalFile key j) := by
  rw [replaceJournal, fitJournal_fitted hfew hfits]
  rfl

theorem journalFile_length (h : JournalOk E j) : (journalFile key j).length = journalBytes key j := by
  have hwell := (stableStringify_clean (@toJson_wellFormed E key j h)).wellFormed
  have hcut := byteLength_append hwell [10]
  rw [byteLength_ascii (s := [10]) (by simp)] at hcut
  exact hcut

theorem parse_journalFile (h : JournalOk E j) :
    Json.parse E.float (bytesToString (journalFile key j)) = some ((canonical j).toJson key) := by
  have hwritten := @canonical_written E key j h
  have hline : stableJsonLine (j.toJson key) = stableJsonLine ((canonical j).toJson key) := by
    rw [stableJsonLine, stableJsonLine, stableStringify, stableStringify, sortKeys_toJson h,
      sortKeys_of_sorted hwritten.sorted]
  rw [journalFile, hline]
  exact hwritten.read_line

theorem equalsText_self (s : JsString) : equalsText s (some (.str s)) = true := by simp [equalsText]

theorem isJournalV2_toJson (h : JournalOk E j) (hfew : j.attempts.length ≤ maxIngestAttempts) :
    isJournalV2 E key (j.toJson key) = true := by
  obtain ⟨h1, h2, h3, h4, h5⟩ := get_toJson key j
  have hkeys : hasOnlyKeys journalKeys (j.toJson key) = true := hasOnlyKeys_objectOf
  have hcounted := h.counted
  have hdropped : isSafeNonNegativeInteger (some (natJson j.droppedAttempts)) = true := safeNat (by omega)
  have hall : isBoundedArray maxIngestAttempts (isAttemptV2 E) (some (.arr j.attempts)) = true := by
    simp only [isBoundedArray, Bool.and_eq_true, decide_eq_true_eq, List.all_eq_true]
    exact ⟨hfew, fun v hv => (h.entries v hv).valid⟩
  simp only [isJournalV2, hkeys, h1, h2, h3, h4, h5, hdropped, hall, equalsText_self, Bool.and_self]

theorem journalItems_toJson : journalItems (j.toJson key) = j.attempts := by
  rw [journalItems, (get_toJson key j).1]

theorem dropped_toJson : intAt "dropped_attempts" (j.toJson key) = j.droppedAttempts := by
  rw [intAt, (get_toJson key j).2.1, natJson]

/-- **A written journal is read back**, its attempts in canonical order. -/
theorem readJournal_written (h : JournalOk E j) (hfew : j.attempts.length ≤ maxIngestAttempts)
    (hfits : journalBytes key j ≤ maxIngestAttemptBytes) :
    readJournal E key (some (journalFile key j)) = canonical j := by
  have hlen := @journalFile_length E key j h
  have hcanonical : (canonical j).attempts.length ≤ maxIngestAttempts := by
    simpa [canonical] using hfew
  simp only [readJournal, if_neg (Nat.not_lt.2 (hlen ▸ hfits)), parse_journalFile h, journalOf,
    isJournalV2_toJson (canonical_ok h) hcanonical, if_true, dropped_toJson, journalItems_toJson,
    Int.toNat_natCast]

/-- **A journal whose ids are distinct is accepted by the strict reader.** -/
theorem parseReaderIngestJournal_toJson (h : JournalOk E j) (hfew : j.attempts.length ≤ maxIngestAttempts)
    (hids : (attemptIds j).Nodup) : parseReaderIngestJournal E key (j.toJson key) = .ok j := by
  obtain ⟨h1, h2, h3, h4, h5⟩ := get_toJson key j
  have hkeys : hasOnlyKeys journalKeys (j.toJson key) = true := hasOnlyKeys_objectOf
  have hcounted := h.counted
  have hdropped : isSafeNonNegativeInteger (some (natJson j.droppedAttempts)) = true := safeNat (by omega)
  have hall : isBoundedArray maxIngestAttempts (isAttemptV2 E) (some (.arr j.attempts)) = true := by
    simp only [isBoundedArray, Bool.and_eq_true, decide_eq_true_eq, List.all_eq_true]
    exact ⟨hfew, fun v hv => (h.entries v hv).valid⟩
  have hobject : isObject (some (j.toJson key)) = true := rfl
  have hunique : uniqueAttemptIds j.attempts = true := by
    rw [uniqueAttemptIds, decide_eq_true_eq]
    exact hids
  have hsum : (j.droppedAttempts : ℤ) + j.attempts.length ≤ maxSafeInteger := by exact_mod_cast hcounted
  simp only [parseReaderIngestJournal, hobject, hkeys, h1, h2, h3, h4, h5, hdropped, hall, equalsText_self,
    isString, dropped_toJson, journalItems_toJson, hunique, hsum, decide_true, Bool.and_self, Bool.not_true,
    Bool.or_self, Bool.false_eq_true, if_false, Int.toNat_natCast]

end

end Barbaro.Ingest
