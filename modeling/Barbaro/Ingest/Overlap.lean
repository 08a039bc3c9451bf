import Barbaro.Ingest.Counts

/-!
# Overlapping hooks

Hooks of one session that are born one after the other, all of them alive and none of them
finished. The journal keeps the last `maxIngestAttempts` of them.

* `fitJournal_evicts`: one attempt too many, and the oldest one is evicted.
* `overlapping_journal`, `overlapping_evicted`: the journal of such hooks.
* `evicted_counted_twice`: the first hook observes after its eviction.
-/

namespace Barbaro.Ingest

section
variable {E : Host} {key : SessionKey} {j : IngestJournal}

/-! ## Small journals -/

/-- Attempts of a few thousand bytes always fit. -/
theorem small_fits (h : JournalOk E j) (hfew : j.attempts.length ≤ maxIngestAttempts)
    (hsmall : ∀ v ∈ j.attempts, stableSize v ≤ 7000) : journalBytes key j ≤ maxIngestAttemptBytes := by
  have hwell : (Json.arr j.attempts).WellFormed E.float :=
    wellFormedItems_iff.2 fun v hv => (h.entries v hv).wellFormed
  have harray := size_arr_le hwell hsmall
  have hsize := journal_size key h harray
  unfold maxIngestAttempts at hfew
  unfold maxIngestAttemptBytes
  omega

/-- **One attempt too many**: the oldest one is evicted. -/
theorem fitJournal_evicts (hmany : j.attempts.length = maxIngestAttempts + 1)
    (hfits : journalBytes key (dropOldest j) ≤ maxIngestAttemptBytes) : fitJournal key j = .ok (dropOldest j) := by
  have hne : j.attempts ≠ [] := by
    rintro hnil
    rw [hnil] at hmany
    cases hmany
  have hlen : (dropOldest j).attempts.length = maxIngestAttempts := by
    have := dropOldest_counted hne
    simp only [dropOldest] at this ⊢
    omega
  have hfirst : tooMany j = true := by
    rw [tooMany, decide_eq_true_eq]
    omega
  have hthen : tooMany (dropOldest j) = false := by
    rw [tooMany, decide_eq_false_iff_not]
    omega
  have hlarge : tooLarge key (dropOldest j) = false := by
    rw [tooLarge, decide_eq_false (Nat.not_lt.2 hfits), Bool.and_false]
  have hnone : ∀ (exceeds : IngestJournal → Bool) n (k : IngestJournal), exceeds k = false →
      evictWhile exceeds n k = k := by
    intro exceeds n k hover
    cases n with
    | zero => rfl
    | succ n => rw [evictWhile, hover, if_neg (by decide)]
  simp only [fitJournal]
  rw [hmany, evictWhile, if_pos hfirst, hnone _ _ _ hthen, hnone _ _ _ hlarge, if_pos hfits]

/-- With no finished attempt the first one is the oldest. -/
theorem dropOldest_unfinished (h : ∀ v ∈ j.attempts, isFinished v = false) :
    dropOldest j = ⟨j.droppedAttempts + 1, j.attempts.tail⟩ := by
  have hindex : oldestIndex j.attempts = 0 := by
    rw [oldestIndex, List.findIdx?_eq_none_iff.2 h]
    rfl
  rw [dropOldest, hindex, List.eraseIdx_zero]

theorem autopsy_alive (t : JsString) (j : IngestJournal) : autopsyDeadAttempts (fun _ => true) t j = j := by
  have hone : ∀ a : Json, (if isDead (fun _ => true) a then autopsy t a else a) = a := fun a => by
    rw [isDead, Bool.not_true, Bool.and_false, if_neg (by decide)]
  simp only [autopsyDeadAttempts, hone, List.map_id']

theorem canonical_same (h : ∀ v ∈ j.attempts, KeysSorted v) : canonical j = j := by
  have hmap : j.attempts.map sortKeys = j.attempts := by
    rw [List.map_congr_left fun v hv => sortKeys_of_sorted (h v hv), List.map_id']
  rw [canonical, hmap]

theorem persist_after {w : World} {i : ℕ} {o : Hook} (hi : w.hooks[i]? = some o) (htries : o.tries ≠ 0) :
    (Event.persist i true true).after E key w =
      World.commit { w with hooks := w.hooks.set i { o with tries := 0 } } o.attempt.toJson
        (fitJournal key { readJournal E key w.file with
          attempts := putAttempt (readJournal E key w.file).attempts o.attempt.toJson } >>=
          fun fitted => replaceJournal key fitted) := by
  simp only [Event.after, hi, if_neg htries, Bool.and_self, if_true, persistAttempt]

/-- To observe writes nothing. -/
theorem observe_file (w : World) (i : ℕ) (observation : IngestAttemptObservation) (t : JsString) (changed : Bool) :
    ((Event.observe i observation t changed).after E key w).file = w.file := by
  simp only [Event.after]
  split
  · rfl
  · split
    · rfl
    · split <;> rfl

theorem observe_hooks {w : World} {i : ℕ} {a a' : BarbaroIngestAttempt} {observation : IngestAttemptObservation}
    {t : JsString} (hi : w.hooks[i]? = some ⟨a, false, 0⟩) (h : observeAttempt a observation t = .ok a') :
    ((Event.observe i observation t true).after E key w).hooks = w.hooks.set i ⟨a', false, 1⟩ := by
  simp [Event.after, hi, h]

/-- The journal after a write, when it is known what fits. -/
theorem commit_read {w : World} {attempt : Json} {k : IngestJournal} (hok : JournalOk E j)
    (hsorted : ∀ v ∈ j.attempts, KeysSorted v) (hfew : j.attempts.length ≤ maxIngestAttempts)
    (hfits : journalBytes key j ≤ maxIngestAttemptBytes) (hfit : fitJournal key k = .ok j) :
    readJournal E key (w.commit attempt (fitJournal key k >>= fun fitted => replaceJournal key fitted)).file =
      j := by
  rw [hfit, Outcome.ok_bind, replaceJournal_fitted hfew hfits]
  exact (readJournal_written hok hfew hfits).trans (canonical_same hsorted)

end

/-! ## Births -/

def overlapTime : JsString := js "1970-01-01T00:00:00.000Z"

def overlapHost : Host := Host.ofTables [] [(0, overlapTime)] (by decide)

def overlapKey : SessionKey := ⟨js "codex", js "ses_" ++ List.replicate 32 48, by decide, by decide⟩

def overlapOptions : BeginIngestAttemptOptions where
  event := js "Stop"
  nativeTurnId := some (js "turn-1")

def overlapAttempt (i : ℕ) : BarbaroIngestAttempt :=
  beginAttempt overlapHost.toHasher overlapOptions (newAttemptId i) overlapTime 1

def overlapBirth (i : ℕ) : Event := .birth overlapOptions i overlapTime overlapTime 1 (fun _ => true) true

/-- The world after the births of `n` hooks. -/
def overlapping : ℕ → World
  | 0 => startWorld overlapHost overlapKey none
  | n + 1 => (overlapBirth n).after overlapHost overlapKey (overlapping n)

theorem newAttemptId_plain (i : ℕ) : PlainText (newAttemptId i) ∧ (newAttemptId i).length = 16 := by
  have hdigit : ∀ d < 16, isHexDigit (Json.hexDigit d) = true := by decide
  refine ⟨hex_plain ?_, by simp [newAttemptId, hexText]⟩
  simp only [newAttemptId, hexText, List.all_map, List.all_eq_true, Function.comp]
  intro i hi
  exact hdigit _ (Nat.mod_lt _ (by decide))

/-- The number of a small id. -/
def idNumber (id : JsString) : ℕ := (id.drop 14).foldl (fun n u => 16 * n + (Json.hexVal u).getD 0) 0

theorem newAttemptId_inj {i n : ℕ} (hi : i ≤ maxIngestAttempts) (hn : n ≤ maxIngestAttempts)
    (h : newAttemptId i = newAttemptId n) : i = n := by
  have hnumber : ∀ i < maxIngestAttempts + 1, idNumber (newAttemptId i) = i := by decide
  rw [← hnumber i (by omega), h, hnumber n (by omega)]

theorem overlap_begin (i : ℕ) : BeginOk overlapHost overlapOptions (newAttemptId i) overlapTime 1 where
  event := by decide
  attemptId := by
    obtain ⟨hplain, hlen⟩ := newAttemptId_plain i
    have hbytes := byteLength_ascii fun u hu => isPlainUnit_ascii (hplain u hu)
    refine ⟨fun hnil => ?_, ?_⟩
    · rw [hnil] at hlen
      cases hlen
    · rw [hbytes, hlen]
      decide
  triggeredAt s hs := by cases hs
  startedAt := by
    unfold TimeOk
    decide
  pid := ⟨Nat.le_refl 1, by decide⟩
  snapshot _ _ hs := by cases hs
  message s hs := by cases hs

theorem overlapAttempt_ok (i : ℕ) : AttemptOk overlapHost (overlapAttempt i) := beginAttempt_ok (overlap_begin i)

theorem overlapAttempt_unfinished (i : ℕ) : isFinished (overlapAttempt i).toJson = false := by
  rw [isFinished, (toJson_reads _).finishedAt]
  rfl

/-- The members of an attempt but its id. -/
def overlapRest : List (JsString × Json) :=
  match (overlapAttempt 0).toJson with
  | .obj (_ :: fs) => fs
  | _ => []

theorem overlapAttempt_size (i : ℕ) : stableSize (overlapAttempt i).toJson ≤ 7000 := by
  have hobj : (overlapAttempt i).toJson = .obj ((js "attempt_id", .str (newAttemptId i)) :: overlapRest) := rfl
  have hwell := (overlapAttempt_ok i).entry.wellFormed
  rw [hobj] at hwell ⊢
  rw [(stable_obj (by simp) fun f hf => (stableStringify_clean (wellFormedFields_iff.1 hwell.2 f hf)).wellFormed).2]
  have hrest : (overlapRest.map memberSize).sum ≤ 6000 := by decide
  have hkey : byteLength (Json.quote (js "attempt_id")) = 12 := by decide
  obtain ⟨hplain, hlen⟩ := newAttemptId_plain i
  have hid := hplain.quote_size
  simp only [List.map_cons, List.sum_cons, memberSize, hkey, stableSize, stable_str]
  omega

/-- The attempts of the hooks from `m` to `n`. -/
def overlapAttempts (m n : ℕ) : List Json := (List.range' m n).map (fun i => (overlapAttempt i).toJson)

/-- An attempt that takes little room in a journal. -/
structure Small (v : Json) : Prop where
  entry : Entry overlapHost v
  sorted : KeysSorted v
  size : stableSize v ≤ 7000

theorem overlapAttempt_small (i : ℕ) : Small (overlapAttempt i).toJson :=
  ⟨(overlapAttempt_ok i).entry, (overlapAttempt_ok i).written.sorted, overlapAttempt_size i⟩

theorem overlapAttempts_small {m n : ℕ} {v : Json} (h : v ∈ overlapAttempts m n) : Small v := by
  obtain ⟨i, -, rfl⟩ := List.mem_map.1 h
  exact overlapAttempt_small i

theorem overlapAttempts_unfinished {m n : ℕ} {v : Json} (h : v ∈ overlapAttempts m n) : isFinished v = false := by
  obtain ⟨i, -, rfl⟩ := List.mem_map.1 h
  exact overlapAttempt_unfinished i

theorem overlapAttempts_succ (m n : ℕ) :
    overlapAttempts m n ++ [(overlapAttempt (m + n)).toJson] = overlapAttempts m (n + 1) := by
  rw [overlapAttempts, overlapAttempts, List.range'_concat, List.map_append]
  simp

theorem small_ok {j : IngestJournal} (hsmall : ∀ v ∈ j.attempts, Small v)
    (hfew : j.attempts.length ≤ maxIngestAttempts) (hdropped : j.droppedAttempts ≤ 100) :
    JournalOk overlapHost j ∧ journalBytes overlapKey j ≤ maxIngestAttemptBytes := by
  have hok : JournalOk overlapHost j := by
    refine ⟨fun v hv => (hsmall v hv).entry, ?_⟩
    unfold maxIngestAttempts at hfew
    unfold maxSafeInteger
    omega
  exact ⟨hok, small_fits hok hfew fun v hv => (hsmall v hv).size⟩

/-- What is read after a write of small attempts. -/
theorem small_commit {w : World} {attempt : Json} {j k : IngestJournal} (hsmall : ∀ v ∈ j.attempts, Small v)
    (hfew : j.attempts.length ≤ maxIngestAttempts) (hdropped : j.droppedAttempts ≤ 100)
    (hfit : fitJournal overlapKey k = .ok j) : readJournal overlapHost overlapKey (w.commit attempt
      (fitJournal overlapKey k >>= fun fitted => replaceJournal overlapKey fitted)).file = j := by
  obtain ⟨hok, hfits⟩ := small_ok hsmall hfew hdropped
  exact commit_read hok (fun v hv => (hsmall v hv).sorted) hfew hfits hfit

theorem overlapAttempts_length (m n : ℕ) : (overlapAttempts m n).length = n := by
  rw [overlapAttempts, List.length_map, List.length_range']

theorem overlap_fits {n : ℕ} (h : n ≤ maxIngestAttempts) :
    fitJournal overlapKey ⟨0, overlapAttempts 0 n⟩ = .ok ⟨0, overlapAttempts 0 n⟩ := by
  have hfew : (overlapAttempts 0 n).length ≤ maxIngestAttempts := by rwa [overlapAttempts_length]
  exact fitJournal_fitted hfew (small_ok (fun v hv => overlapAttempts_small hv) hfew (Nat.zero_le _)).2

theorem overlap_evicts : fitJournal overlapKey ⟨0, overlapAttempts 0 (maxIngestAttempts + 1)⟩ =
    .ok ⟨1, overlapAttempts 1 maxIngestAttempts⟩ := by
  have hfew : (overlapAttempts 1 maxIngestAttempts).length ≤ maxIngestAttempts :=
    le_of_eq (overlapAttempts_length _ _)
  have hfits : journalBytes overlapKey ⟨1, overlapAttempts 1 maxIngestAttempts⟩ ≤ maxIngestAttemptBytes :=
    (small_ok (fun v hv => overlapAttempts_small hv) hfew (show 1 ≤ 100 by decide)).2
  have hdrop : dropOldest ⟨0, overlapAttempts 0 (maxIngestAttempts + 1)⟩ =
      ⟨1, overlapAttempts 1 maxIngestAttempts⟩ := dropOldest_unfinished fun v hv => overlapAttempts_unfinished hv
  rw [fitJournal_evicts (overlapAttempts_length _ _) (by rw [hdrop]; exact hfits), hdrop]

theorem overlapping_hooks (n : ℕ) :
    (overlapping n).hooks = (List.range' 0 n).map (fun i => ⟨overlapAttempt i, false, 0⟩) := by
  induction n with
  | zero => rfl
  | succ n ih =>
    rw [overlapping, overlapBirth, Event.after, World.birth, if_pos rfl, commit_hooks]
    simp only
    rw [ih, List.range'_concat, List.map_append]
    simp [overlapAttempt]

theorem overlap_birth_read {n : ℕ} {j : IngestJournal}
    (hread : readJournal overlapHost overlapKey (overlapping n).file = ⟨0, overlapAttempts 0 n⟩)
    (hsmall : ∀ v ∈ j.attempts, Small v) (hfew : j.attempts.length ≤ maxIngestAttempts)
    (hdropped : j.droppedAttempts ≤ 100) (hfit : fitJournal overlapKey ⟨0, overlapAttempts 0 (n + 1)⟩ = .ok j) :
    readJournal overlapHost overlapKey (overlapping (n + 1)).file = j := by
  have hsucc := overlapAttempts_succ 0 n
  rw [Nat.zero_add] at hsucc
  rw [overlapping, overlapBirth, Event.after, World.birth, if_pos rfl, appendBirth, autopsy_alive, hread]
  refine small_commit hsmall hfew hdropped ?_
  rw [← hsucc] at hfit
  exact hfit

/-- **The journal holds every hook** up to its limit. -/
theorem overlapping_journal {n : ℕ} (h : n ≤ maxIngestAttempts) :
    readJournal overlapHost overlapKey (overlapping n).file = ⟨0, overlapAttempts 0 n⟩ := by
  induction n with
  | zero => rfl
  | succ n ih =>
    exact overlap_birth_read (ih (by omega)) (fun v hv => overlapAttempts_small hv)
      (by rwa [overlapAttempts_length]) (Nat.zero_le _) (overlap_fits h)

/-- **The next birth** evicts the first hook. -/
theorem overlapping_evicted : readJournal overlapHost overlapKey (overlapping (maxIngestAttempts + 1)).file =
    ⟨1, overlapAttempts 1 maxIngestAttempts⟩ :=
  overlap_birth_read (overlapping_journal (Nat.le_refl _)) (fun v hv => overlapAttempts_small hv)
    (le_of_eq (overlapAttempts_length _ _)) (by decide) overlap_evicts

/-! ## The run -/

theorem overlap_promised {n : ℕ} (h : n ≤ maxIngestAttempts) :
    (overlapBirth n).Promised overlapHost (overlapping n) := by
  refine ⟨overlap_begin n, (overlap_begin n).startedAt, fun hmem => ?_⟩
  rw [World.ids, overlapping_hooks, List.map_map, List.mem_map] at hmem
  obtain ⟨i, hi, heq⟩ := hmem
  have hlt := List.mem_range'_1.1 hi
  have hsame := newAttemptId_inj (by omega) h heq
  omega

theorem overlapping_run {ok : World → Event → Prop} {n : ℕ} (h : n ≤ maxIngestAttempts + 1)
    (hok : ∀ m < n, ok (overlapping m) (overlapBirth m)) :
    Run overlapHost overlapKey ok none (overlapping n) := by
  induction n with
  | zero => exact .start fun _ _ hfile => by cases hfile
  | succ n ih =>
    exact (ih (by omega) fun m hm => hok m (by omega)).step (overlapBirth n) (overlap_promised (by omega))
      (hok n (by omega))

theorem overlap_counted {n : ℕ} (h : n ≤ maxIngestAttempts) :
    (overlapBirth n).Counted overlapHost overlapKey (overlapping n) := by
  show (readJournal overlapHost overlapKey (overlapping n).file).total < maxSafeInteger
  rw [overlapping_journal h, IngestJournal.total]
  simp only [overlapAttempts, List.length_map, List.length_range']
  unfold maxIngestAttempts at h
  unfold maxSafeInteger
  omega

theorem overlapping_counts {n : ℕ} (h : n ≤ maxIngestAttempts + 1) : Run overlapHost overlapKey
    (fun w event => event.Counted overlapHost overlapKey w ∧ event.CountsOnce overlapHost overlapKey w) none
    (overlapping n) :=
  overlapping_run h fun _ hm => ⟨overlap_counted (by omega), trivial⟩

/-- One hook more than the journal holds. -/
theorem journal_sound_overlapping :
    JournalSound overlapHost overlapKey none (overlapping (maxIngestAttempts + 1)) :=
  journal_sound (overlapping_counts (Nat.le_refl _))

/-! ## The first hook comes back -/

def overlapObservation : IngestAttemptObservation where
  observedSize := 0
  fileIdentity := ⟨[48], [48], [48]⟩
  runnerInput := []
  turnsAppended := 0

/-- The first attempt after it has observed. -/
def overlapObserved : BarbaroIngestAttempt :=
  { overlapAttempt 0 with
    observations := addObservation {} ⟨overlapTime, 0, ⟨[48], [48], [48]⟩⟩
    runnerInput := some [] }

theorem observe_overlap : observeAttempt (overlapAttempt 0) overlapObservation overlapTime = .ok overlapObserved := rfl

theorem overlap_observation : ObservationOk overlapHost overlapObservation overlapTime where
  observedAt := (overlap_begin 0).startedAt
  fileIdentity := ⟨rfl, rfl, rfl⟩
  checkpointBefore c hc := by cases hc
  checkpointAfter c hc := by cases hc
  keys f hf := by cases hf
  numbers f hf := by cases hf

theorem overlapObserved_ok : AttemptOk overlapHost overlapObserved :=
  observeAttempt_ok (overlapAttempt_ok 0) overlap_observation ⟨by decide, by decide⟩ observe_overlap

theorem overlapObserved_small : Small overlapObserved.toJson :=
  ⟨overlapObserved_ok.entry, overlapObserved_ok.written.sorted, by decide +kernel⟩

/-- The world after the first hook has observed. -/
def observedWorld : World :=
  (Event.observe 0 overlapObservation overlapTime true).after overlapHost overlapKey
    (overlapping (maxIngestAttempts + 1))

/-- And after it has written what it observed. -/
def returnedWorld : World := (Event.persist 0 true true).after overlapHost overlapKey observedWorld

theorem overlapping_first : (overlapping (maxIngestAttempts + 1)).hooks[0]? = some ⟨overlapAttempt 0, false, 0⟩ := by
  rw [overlapping_hooks]
  rfl

theorem observedWorld_file : observedWorld.file = (overlapping (maxIngestAttempts + 1)).file := by
  rw [observedWorld, observe_file]

theorem observedWorld_hooks : observedWorld.hooks =
    (overlapping (maxIngestAttempts + 1)).hooks.set 0 ⟨overlapObserved, false, 1⟩ := by
  rw [observedWorld, observe_hooks overlapping_first observe_overlap]

theorem observedWorld_first : observedWorld.hooks[0]? = some ⟨overlapObserved, false, 1⟩ := by
  have hlen : 0 < (overlapping (maxIngestAttempts + 1)).hooks.length :=
    (List.getElem?_eq_some_iff.1 overlapping_first).1
  rw [observedWorld_hooks]
  simp only [List.getElem?_set, hlen, if_true]

theorem overlap_put {v : Json} (h : attemptId v = newAttemptId 0) :
    putAttempt (overlapAttempts 1 maxIngestAttempts) v = overlapAttempts 1 maxIngestAttempts ++ [v] := by
  have hnone : (overlapAttempts 1 maxIngestAttempts).findIdx? (fun a => attemptId a == attemptId v) = none := by
    refine List.findIdx?_eq_none_iff.2 fun u hu => ?_
    obtain ⟨i, hi, rfl⟩ := List.mem_map.1 hu
    have hbounds := List.mem_range'_1.1 hi
    rw [toJson_id, h]
    refine beq_eq_false_iff_ne.2 fun heq => ?_
    have hsame := newAttemptId_inj (by omega) (Nat.zero_le _) heq
    omega
  simp only [putAttempt, hnone]

theorem observed_fits :
    fitJournal overlapKey ⟨1, overlapAttempts 1 maxIngestAttempts ++ [overlapObserved.toJson]⟩ =
      .ok ⟨2, overlapAttempts 2 31 ++ [overlapObserved.toJson]⟩ := by
  have hsmall : ∀ v ∈ overlapAttempts 2 31 ++ [overlapObserved.toJson], Small v := by
    intro v hv
    rcases List.mem_append.1 hv with hv | hv
    · exact overlapAttempts_small hv
    · rw [List.mem_singleton.1 hv]
      exact overlapObserved_small
  have hunfinished : ∀ v ∈ overlapAttempts 1 maxIngestAttempts ++ [overlapObserved.toJson],
      isFinished v = false := by
    intro v hv
    rcases List.mem_append.1 hv with hv | hv
    · exact overlapAttempts_unfinished hv
    · rw [List.mem_singleton.1 hv, isFinished, (toJson_reads _).finishedAt]
      rfl
  have hcons : overlapAttempts 1 maxIngestAttempts = (overlapAttempt 1).toJson :: overlapAttempts 2 31 := by
    rw [overlapAttempts, maxIngestAttempts, List.range'_succ, List.map_cons, overlapAttempts]
  have hdrop : dropOldest ⟨1, overlapAttempts 1 maxIngestAttempts ++ [overlapObserved.toJson]⟩ =
      ⟨2, overlapAttempts 2 31 ++ [overlapObserved.toJson]⟩ := by
    rw [dropOldest_unfinished hunfinished, hcons]
    simp only [List.cons_append, List.tail_cons]
  have hfew : (overlapAttempts 2 31 ++ [overlapObserved.toJson]).length ≤ maxIngestAttempts := by
    rw [List.length_append, overlapAttempts_length]
    decide
  have hlen : (overlapAttempts 1 maxIngestAttempts ++ [overlapObserved.toJson]).length = maxIngestAttempts + 1 := by
    rw [List.length_append, overlapAttempts_length, List.length_singleton]
  have hfits : journalBytes overlapKey ⟨2, overlapAttempts 2 31 ++ [overlapObserved.toJson]⟩ ≤
      maxIngestAttemptBytes := (small_ok hsmall hfew (show 2 ≤ 100 by decide)).2
  have hfit : fitJournal overlapKey ⟨1, overlapAttempts 1 maxIngestAttempts ++ [overlapObserved.toJson]⟩ =
      .ok (dropOldest ⟨1, overlapAttempts 1 maxIngestAttempts ++ [overlapObserved.toJson]⟩) :=
    fitJournal_evicts hlen (by rw [hdrop]; exact hfits)
  rw [hdrop] at hfit
  exact hfit

/-- **It is appended again**, and evicts the second hook. -/
theorem returnedWorld_journal : readJournal overlapHost overlapKey returnedWorld.file =
    ⟨2, overlapAttempts 2 31 ++ [overlapObserved.toJson]⟩ := by
  rw [returnedWorld, persist_after observedWorld_first (Nat.one_ne_zero)]
  simp only
  rw [observedWorld_file, overlapping_evicted, overlap_put (toJson_id overlapObserved)]
  refine small_commit (fun v hv => ?_) ?_ (by decide) observed_fits
  · rcases List.mem_append.1 hv with hv | hv
    · exact overlapAttempts_small hv
    · rw [List.mem_singleton.1 hv]
      exact overlapObserved_small
  · rw [List.length_append, overlapAttempts_length]
    decide

theorem returnedWorld_run :
    Run overlapHost overlapKey (fun w event => event.Counted overlapHost overlapKey w) none returnedWorld := by
  have hbirths : Run overlapHost overlapKey (fun w event => event.Counted overlapHost overlapKey w) none
      (overlapping (maxIngestAttempts + 1)) :=
    overlapping_run (Nat.le_refl _) fun _ hm => overlap_counted (by omega)
  have hobserved := hbirths.step (.observe 0 overlapObservation overlapTime true) overlap_observation fun h hh => by
    rw [overlapping_first] at hh
    cases hh
    exact ⟨by decide, by decide⟩
  refine hobserved.step (.persist 0 true true) trivial ?_
  show (readJournal overlapHost overlapKey observedWorld.file).total < maxSafeInteger
  rw [observedWorld_file, overlapping_evicted]
  decide

theorem returnedWorld_ids : returnedWorld.ids.length = maxIngestAttempts + 1 := by
  have hids : returnedWorld.hooks = observedWorld.hooks.set 0 ⟨overlapObserved, false, 0⟩ := by
    rw [returnedWorld, persist_after observedWorld_first (Nat.one_ne_zero), commit_hooks]
  rw [World.ids, List.length_map, hids, List.length_set, observedWorld_hooks, List.length_set, overlapping_hooks,
    List.length_map, List.length_range']

/-- The first hook is evicted by the last birth and comes back: it is counted twice. -/
theorem evicted_counted_twice : ¬ ∀ w, Run overlapHost overlapKey
    (fun w event => event.Counted overlapHost overlapKey w) none w → JournalSound overlapHost overlapKey none w := by
  intro hall
  obtain ⟨hfile, -⟩ := hall _ returnedWorld_run
  have hread := returnedWorld_journal
  rcases hfile with hnone | ⟨bytes, hbytes, hsound⟩
  · rw [hnone] at hread
    cases hread
  · obtain ⟨value, j, hparse, hvalid, hreader, -, -, hcount⟩ := hsound.accepted
    have hrecorded : returnedWorld.recorded ≤ maxIngestAttempts + 1 := by
      rw [World.recorded, ← returnedWorld_ids]
      exact List.countP_le_length
    have hjournal : readJournal overlapHost overlapKey (some bytes) = j := by
      have hsize := hsound.size
      simp only [readJournal, if_neg (Nat.not_lt.2 hsize), hparse, journalOf, hvalid, if_true]
      simp only [parseReaderIngestJournal, Outcome.guard_ok, Except.ok.injEq] at hreader
      exact hreader.2.2.2.2
    rw [hbytes, hjournal] at hread
    rw [hread] at hcount
    simp only [overlapAttempts, List.length_append, List.length_map, List.length_range', List.length_singleton] at hcount
    unfold maxIngestAttempts at hrecorded
    omega

end Barbaro.Ingest
