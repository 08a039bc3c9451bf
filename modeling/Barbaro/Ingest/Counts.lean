import Barbaro.Ingest.Run

/-!
# Every attempt is counted once

The journal counts its evictions. An attempt that is evicted while its hook still runs is
written again by the hook, and counted again when it is evicted the second time.

* `journal_sound`: when no evicted attempt is written again, every journal that is written is
  accepted by both parsers, is within its limits, holds no id twice and has counted every
  attempt once.
* `evicted_counted_twice`: thirty-three overlapping hooks, of which the first one observes.
-/

namespace Barbaro.Ingest

section
variable (E : Host) (key : SessionKey)

/-- What holds of the bytes of a written journal. -/
structure Sound (w : World) (bytes : Bytes) : Prop where
  size : bytes.length ≤ maxIngestAttemptBytes
  accepted : ∃ value j, Json.parse E.float (bytesToString bytes) = some value ∧
    isJournalV2 E key value = true ∧ parseReaderIngestJournal E key value = .ok j ∧
    j.attempts.length ≤ maxIngestAttempts ∧ (attemptIds j).Nodup ∧
    j.droppedAttempts + j.attempts.length = w.recorded

/-- **The journal is sound**: what was written is, and a single attempt can always be. -/
def JournalSound (file : Option Bytes) (w : World) : Prop :=
  (w.file = file ∨ ∃ bytes, w.file = some bytes ∧ Sound E key w bytes) ∧
    ∀ a dropped, AttemptOk E a → dropped < maxSafeInteger →
      ∃ j, fitJournal key ⟨dropped, [a.toJson]⟩ = .ok j

/-- An attempt that is written is in the journal, or it was never recorded. -/
def Event.CountsOnce (w : World) : Event → Prop
  | .persist i committed _ => committed = true → ∀ h, w.hooks[i]? = some h →
      h.attempt.attemptId ∈ attemptIds (readJournal E key w.file) ∨ w.latest h.attempt.attemptId = none
  | _ => True

end

variable {E : Host} {key : SessionKey} {file : Option Bytes} {w : World}

/-! ## The start -/

/-- Before the first event the journal holds at most a migrated attempt. -/
theorem readJournal_start (h : NoJournal E key file) :
    readJournal E key file = ⟨0, (legacyAttempt E key file).toList.map BarbaroIngestAttempt.toJson⟩ := by
  rcases file with _ | bytes
  · rfl
  · simp only [readJournal, legacyAttempt]
    split
    · rfl
    · rcases hparse : Json.parse E.float (bytesToString bytes) with _ | value
      · rfl
      · have hnot := h bytes value rfl hparse
        simp only [journalOf, hnot, Bool.false_eq_true, if_false]
        split
        · rfl
        · rfl

theorem legacyAttempt_ok {a : BarbaroIngestAttempt} (h : legacyAttempt E key file = some a) : AttemptOk E a := by
  unfold legacyAttempt at h
  split at h
  · cases h
  · split at h
    · cases h
    · split at h
      · cases h
      · split at h
        · next hlegacy =>
          cases h
          exact migrateLegacyAttempt_ok hlegacy
        · cases h

theorem Inv.start (h : NoJournal E key file) : Inv E key file (startWorld E key file) := by
  have hread := readJournal_start h
  rcases ha : legacyAttempt E key file with _ | a
  · rw [ha] at hread
    have hnone : readJournal E key file = ⟨0, []⟩ := hread
    refine ⟨?_, ?_, ?_, ?_, ?_, fun id hid => ?_, .inl rfl⟩
    · simp [startWorld, ha]
    · simp [World.ids, startWorld, ha]
    · simp only [startWorld, hnone]
      exact ⟨by simp, Nat.zero_le _⟩
    · simp [startWorld, hnone, attemptIds]
    · simp [startWorld, hnone]
    · simp [startWorld, hnone] at hid
  · rw [ha] at hread
    have hone : readJournal E key file = ⟨0, [a.toJson]⟩ := hread
    have hok := legacyAttempt_ok ha
    refine ⟨?_, ?_, ?_, ?_, ?_, fun id hid => ?_, .inl rfl⟩
    · simpa [startWorld, ha] using hok
    · simp [World.ids, startWorld, ha]
    · simp only [startWorld, hone]
      exact ⟨by simpa using hok.entry, show 0 + 1 ≤ maxSafeInteger by decide⟩
    · simp [startWorld, hone, attemptIds]
    · intro v hv
      simp only [startWorld, hone, List.mem_singleton] at hv
      refine ⟨v, ?_, ?_⟩
      · simp [startWorld, hone, hv]
      · rw [hv, sortKeys_of_sorted hok.written.sorted]
    · have hid' : a.attemptId = id := by
        simpa [startWorld, hone, List.find?_singleton, toJson_id] using hid
      simpa [World.ids, startWorld, ha] using hid'.symm

/-- **Every run keeps the invariant** while no counter is exhausted. -/
theorem Run.inv {ok : World → Event → Prop} (hok : ∀ w event, ok w event → event.Counted E key w)
    (h : Run E key ok file w) : Inv E key file w := by
  induction h with
  | start h => exact Inv.start h
  | step event _ promised hevent ih => exact (ih.step promised (hok _ _ hevent)).inv ih

/-! ## Counting -/

theorem countP_insert {α : Type} [DecidableEq α] {p : α → Bool} {a : α} {l : List α} (hnd : l.Nodup)
    (ha : a ∈ l) (hp : p a = false) : l.countP (fun x => p x || decide (x = a)) = l.countP p + 1 := by
  induction l with
  | nil => cases ha
  | cons b l ih =>
    rw [List.nodup_cons] at hnd
    rw [List.countP_cons, List.countP_cons]
    by_cases hb : b = a
    · subst hb
      have hrest : l.countP (fun x => p x || decide (x = b)) = l.countP p := by
        refine List.countP_congr fun x hx => ?_
        have hne : x ≠ b := by
          rintro rfl
          exact hnd.1 hx
        simp [hne]
      rw [hrest]
      simp [hp]
    · have hmem := (List.mem_cons.1 ha).resolve_left (Ne.symm hb)
      rw [ih hnd.2 hmem]
      simp only [hb, decide_false, Bool.or_false]
      omega

/-- New hooks have recorded nothing. -/
theorem Inv.recorded_births (h : Inv E key file w) {w' : World} (hbirths : w.births <+: w'.births)
    (hdistinct : w'.ids.Nodup) : w'.ids.countP (fun id => (w.latest id).isSome) = w.recorded := by
  obtain ⟨new, hnew⟩ := hbirths
  have hids : w'.ids = w.ids ++ new.map (·.1) := by
    rw [ids_eq, ids_eq, ← hnew, List.map_append]
  have hzero : (new.map (·.1)).countP (fun id => (w.latest id).isSome) = 0 := by
    refine List.countP_eq_zero.2 fun id hid hsome => ?_
    rw [hids] at hdistinct
    exact List.disjoint_of_nodup_append hdistinct (h.born id hsome) hid
  rw [hids, List.countP_append, hzero, World.recorded, Nat.add_zero]

/-- What every run keeps when each attempt is counted once. -/
def Exact (E : Host) (key : SessionKey) (w : World) : Prop :=
  (readJournal E key w.file).total = w.recorded

theorem Exact.start (h : NoJournal E key file) : Exact E key (startWorld E key file) := by
  have hread := readJournal_start h
  rcases ha : legacyAttempt E key file with _ | a
  · rw [ha] at hread
    have hnone : readJournal E key file = ⟨0, []⟩ := hread
    simp [Exact, startWorld, World.recorded, World.ids, IngestJournal.total, ha, hnone]
  · rw [ha] at hread
    have hone : readJournal E key file = ⟨0, [a.toJson]⟩ := hread
    simp [Exact, startWorld, World.recorded, World.ids, IngestJournal.total, ha, hone, toJson_id]

/-- **A step counts its attempt once**, and only if it is new. -/
theorem Inv.exact (h : Inv E key file w) (hexact : Exact E key w) {w' : World} {event : Event}
    (hstep : Step E key w w' event) (honce : event.CountsOnce E key w) : Exact E key w' := by
  have hcount := h.recorded_births hstep.births hstep.distinct
  rcases hstep.wrote with ⟨hfile, hlatest⟩ | ⟨a, k, j', hwrite, -, hwho⟩
  · rw [Exact, hfile, World.recorded, hlatest, hcount]
    exact hexact
  · have hrecorded : w'.recorded =
        w'.ids.countP (fun id => (w.latest id).isSome || decide (id = a.attemptId)) := by
      rw [World.recorded]
      refine List.countP_congr fun id _ => ?_
      rw [h.recorded_write hwrite]
    have htotal : (canonical j').total = k.total := by
      have := hwrite.fitted.counted
      simpa [IngestJournal.total, canonical] using this
    have hlen : ∀ j : IngestJournal, j.attempts.length = (attemptIds j).length := by simp [attemptIds]
    rw [Exact, hwrite.read, htotal, IngestJournal.total, hlen, hwrite.put.dropped, hrecorded]
    rcases hwrite.put.ids with ⟨hmem, hids⟩ | ⟨hmem, hids⟩
    · -- the attempt was in the journal, and it is known
      have hknown := h.known hmem
      rw [toJson_id] at hknown
      have hsame : w'.ids.countP (fun id => (w.latest id).isSome || decide (id = a.attemptId)) =
          w'.ids.countP (fun id => (w.latest id).isSome) := by
        refine List.countP_congr fun id _ => ?_
        by_cases hid : id = a.attemptId
        · simp [hid, hknown]
        · simp [hid]
      rw [hids, hsame, hcount, ← hlen]
      exact hexact
    · -- it is appended, for the first time
      rw [toJson_id] at hmem
      have hnew : w.latest a.attemptId = none := by
        rcases hwho with hfresh | ⟨i, o, reported, rfl, ho, rfl⟩
        · rcases hl : w.latest a.attemptId with _ | u
          · rfl
          · exact absurd (h.born _ (by rw [hl]; rfl)) hfresh
        · exact (honce rfl o ho).resolve_left hmem
      rw [hids, List.length_append, List.length_singleton, ← hlen,
        countP_insert hstep.distinct (World.mem_ids hwrite.born) (by rw [hnew]; rfl), hcount, ← hexact]
      rfl

/-- What is counted in every run that counts each attempt once. -/
theorem Run.exact (h : Run E key (fun w event => event.Counted E key w ∧ event.CountsOnce E key w) file w) :
    Exact E key w := by
  induction h with
  | start h => exact Exact.start h
  | step event hrun promised hok ih =>
    have hinv := hrun.inv fun _ _ h => h.1
    exact hinv.exact ih (hinv.step promised hok.1) hok.2

theorem fit_single {a : BarbaroIngestAttempt} (h : AttemptOk E a) {dropped : ℕ} (hd : dropped < maxSafeInteger) :
    ∃ j, fitJournal key ⟨dropped, [a.toJson]⟩ = .ok j := by
  have hok : JournalOk E ⟨dropped, [a.toJson]⟩ := ⟨by simpa using h.entry, hd⟩
  obtain ⟨j, hj, -⟩ := @fitJournal_spec E key _ hok
  exact ⟨j, hj⟩

/-- **Every written journal is sound** in a run in which no counter is exhausted and no
evicted attempt is written again. -/
theorem journal_sound
    (h : Run E key (fun w event => event.Counted E key w ∧ event.CountsOnce E key w) file w) :
    JournalSound E key file w := by
  have hinv := h.inv fun _ _ hok => hok.1
  have hexact := h.exact
  refine ⟨?_, fun a dropped ha hd => fit_single ha hd⟩
  rcases hinv.file with hfile | ⟨j, hok, hfew, hfits, hfile⟩
  · exact .inl hfile
  · have hread : readJournal E key w.file = canonical j := by
      rw [hfile]
      exact readJournal_written hok hfew hfits
    have hcanonical := canonical_ok hok
    have hfew' : (canonical j).attempts.length ≤ maxIngestAttempts := by simpa [canonical] using hfew
    have hunique : (attemptIds (canonical j)).Nodup := hread ▸ hinv.unique
    refine .inr ⟨_, hfile, ?_, _, canonical j, parse_journalFile hok, isJournalV2_toJson hcanonical hfew',
      parseReaderIngestJournal_toJson hcanonical hfew' hunique, hfew', hunique, ?_⟩
    · rw [journalFile_length hok]
      exact hfits
    · rw [Exact, hread] at hexact
      exact hexact

end Barbaro.Ingest
