import Barbaro.Hooks.MembershipHistory

/-!
# Workstream stamps

The publishing runner stamps every turn and every evidence record with the workstream its
session was in at the record's own time. The membership log is the only other input, so
the stamp is the same in every ingest.

* `stampOf_eq`: the loop over the log finds the last membership at or before a time.
* `stampOf_append`: memberships after a time do not change what is found for it.
* `workstream_stamps_stable`: the stamps of a session, over its whole history.
-/

namespace Barbaro

section
variable {E : Host}

/-- The loop over the log: it stops at the first membership after the time. -/
def stampLoop (timestamp : ℤ) :
    Option JsString → List (SessionWorkstreamMembership E) → Option JsString
  | found, [] => found
  | found, m :: ms =>
    if m.startMs > timestamp then found else stampLoop timestamp (some m.workstreamId) ms

def stampOf (memberships : List (SessionWorkstreamMembership E)) (timestamp : ℤ) : Option JsString :=
  stampLoop timestamp none memberships

/-- The member a stamp is written to; its order among the others does not matter, the
canonical text sorts them. -/
def stampMember : Option JsString → List (JsString × Json)
  | none => []
  | some id => [(js "workstream_id", .str id)]

/-- A record without a stamp. -/
def unstamped (record : List (JsString × Json)) : List (JsString × Json) :=
  record.filter (fun f => f.1 ≠ js "workstream_id")

/-- `Date.parse(timestampOf(record))`, where the time is at a key of the record. -/
def recordTime (E : Host) (timestampKey : String) (record : List (JsString × Json)) : Option ℤ :=
  (textAt? timestampKey (.obj record)).bind E.dateParse

def stampRecord (timestampKey : String) (memberships : List (SessionWorkstreamMembership E))
    (record : List (JsString × Json)) : Except Failure (List (JsString × Json)) :=
  match recordTime E timestampKey record with
  | none => .error (.typeError "record timestamp must be a valid date")
  | some timestamp => .ok (unstamped record ++ stampMember (stampOf memberships timestamp))

def stampByTimestamp (timestampKey : String) (memberships : List (SessionWorkstreamMembership E))
    (records : List (List (JsString × Json))) : Except Failure (List (List (JsString × Json))) :=
  records.mapM (stampRecord timestampKey memberships)

/-- Stamp turns by when they started. -/
def stampTurnsByMembership (turns : List (List (JsString × Json)))
    (memberships : List (SessionWorkstreamMembership E)) :
    Except Failure (List (List (JsString × Json))) :=
  stampByTimestamp "started_at" memberships turns

/-- Stamp evidence independently by when that evidence occurred. -/
def stampEvidenceByMembership (evidence : List (List (JsString × Json)))
    (memberships : List (SessionWorkstreamMembership E)) :
    Except Failure (List (List (JsString × Json))) :=
  stampByTimestamp "occurred_at" memberships evidence

/-! ## The loop -/

theorem stampLoop_eq {ms : List (SessionWorkstreamMembership E)} (hinc : Increasing ms) (t : ℤ)
    (found : Option JsString) : stampLoop t found ms =
      (((ms.filter (fun m => m.startMs ≤ t)).getLast?.map (·.workstreamId)).or found) := by
  induction ms generalizing found with
  | nil => rfl
  | cons m ms ih =>
    obtain ⟨hafter, hinc⟩ := List.pairwise_cons.1 hinc
    rw [stampLoop]
    split
    · next hlate =>
      -- the log is in order, so all that follows is later still
      have hnone : (m :: ms).filter (fun m => decide (m.startMs ≤ t)) = [] := by
        refine List.filter_eq_nil_iff.2 fun a ha => ?_
        rcases List.mem_cons.1 ha with rfl | ha
        · simpa using hlate
        · have := hafter a ha
          simp only [decide_eq_true_eq]
          omega
      rw [hnone]
      rfl
    · next hearly =>
      rw [ih hinc, List.filter_cons_of_pos (by simpa using hearly), List.getLast?_cons]
      rcases (ms.filter (fun m => decide (m.startMs ≤ t))).getLast? with _ | q <;> simp

/-- **A record is stamped with the last membership at or before its time.** -/
theorem stampOf_eq {ms : List (SessionWorkstreamMembership E)} (hinc : Increasing ms) (t : ℤ) :
    stampOf ms t = (ms.filter (fun m => m.startMs ≤ t)).getLast?.map (·.workstreamId) := by
  rw [stampOf, stampLoop_eq hinc, Option.or_none]

/-- **Memberships after a time do not change the stamp for it.** -/
theorem stampOf_append {ms more : List (SessionWorkstreamMembership E)} {t : ℤ}
    (hinc : Increasing (ms ++ more)) (hlate : ∀ m ∈ more, t < m.startMs) :
    stampOf (ms ++ more) t = stampOf ms t := by
  have hnone : more.filter (fun m => decide (m.startMs ≤ t)) = [] := by
    refine List.filter_eq_nil_iff.2 fun m hm => ?_
    have := hlate m hm
    simp only [decide_eq_true_eq]
    omega
  rw [stampOf_eq hinc, stampOf_eq (List.pairwise_append.1 hinc).1, List.filter_append, hnone,
    List.append_nil]

/-! ## Records -/

theorem unstamped_stamped (record : List (JsString × Json)) (id : Option JsString) :
    unstamped (unstamped record ++ stampMember id) = unstamped record := by
  rw [unstamped, List.filter_append, unstamped, List.filter_filter]
  cases id <;> simp [stampMember]

theorem lookup_append {k : JsString} (fs gs : List (JsString × Json)) :
    Json.lookup k (fs ++ gs) = (Json.lookup k fs).or (Json.lookup k gs) := by
  induction fs with
  | nil => rfl
  | cons f fs ih =>
    rw [List.cons_append, Json.lookup, Json.lookup, ih]
    split <;> rfl

theorem lookup_unstamped {k : JsString} (hk : k ≠ js "workstream_id")
    (record : List (JsString × Json)) : Json.lookup k (unstamped record) = Json.lookup k record := by
  induction record with
  | nil => rfl
  | cons f record ih =>
    rw [unstamped, List.filter_cons]
    split
    · rw [Json.lookup, Json.lookup, ← ih, unstamped]
    · next hf =>
      have hne : f.1 ≠ k := by
        simp only [ne_eq, decide_eq_true_eq, not_not] at hf
        rw [hf]
        exact hk.symm
      rw [Json.lookup, if_neg hne, ← ih, unstamped]

/-- A stamp does not change a record's time. -/
theorem recordTime_stamped {key : String} (hkey : key ≠ "workstream_id")
    (record : List (JsString × Json)) (id : Option JsString) :
    recordTime E key (unstamped record ++ stampMember id) = recordTime E key record := by
  have hk : js key ≠ js "workstream_id" := by simpa using hkey
  have hlookup : Json.lookup (js key) (unstamped record ++ stampMember id) =
      Json.lookup (js key) record := by
    rw [lookup_append, lookup_unstamped hk]
    cases id with
    | none => simp [stampMember, Json.lookup]
    | some id => simp [stampMember, Json.lookup, hk.symm]
  simp only [recordTime, textAt?, Json.get, hlookup]

theorem stampRecord_ok {key : String} {ms : List (SessionWorkstreamMembership E)}
    {record stamped : List (JsString × Json)} (h : stampRecord key ms record = .ok stamped) :
    ∃ t, recordTime E key record = some t ∧
      stamped = unstamped record ++ stampMember (stampOf ms t) := by
  rw [stampRecord] at h
  split at h
  · cases h
  · next t ht =>
    cases h
    exact ⟨t, ht, rfl⟩

/-- A record that is ingested again is stamped the same. -/
theorem stampRecord_again {key : String} (hkey : key ≠ "workstream_id")
    {ms : List (SessionWorkstreamMembership E)} {record stamped : List (JsString × Json)}
    (h : stampRecord key ms record = .ok stamped) : stampRecord key ms stamped = .ok stamped := by
  obtain ⟨t, ht, rfl⟩ := stampRecord_ok h
  rw [stampRecord, recordTime_stamped hkey, ht]
  simp only [unstamped_stamped]

/-- The records of a batch are stamped one by one. -/
theorem stampByTimestamp_forall {key : String} {ms : List (SessionWorkstreamMembership E)}
    {records stamped : List (List (JsString × Json))} :
    stampByTimestamp key ms records = .ok stamped ↔
      List.Forall₂ (fun r s => stampRecord key ms r = .ok s) records stamped := by
  rw [stampByTimestamp]
  induction records generalizing stamped with
  | nil => cases stamped <;> simp [List.mapM_nil, pure, Except.pure]
  | cons r rs ih =>
    simp only [List.mapM_cons, Outcome.bind_ok, Outcome.pure_ok, ih, List.forall₂_cons_left_iff]
    constructor
    · rintro ⟨s, hs, ss, hss, rfl⟩
      exact ⟨s, ss, hs, hss, rfl⟩
    · rintro ⟨s, ss, hs, hss, rfl⟩
      exact ⟨s, hs, ss, hss, rfl⟩

/-- Two batches are stamped as one. -/
theorem stampByTimestamp_append {key : String} {ms : List (SessionWorkstreamMembership E)}
    {xs ys stamped : List (List (JsString × Json))} :
    stampByTimestamp key ms (xs ++ ys) = .ok stamped ↔ ∃ sx sy, stampByTimestamp key ms xs = .ok sx ∧
      stampByTimestamp key ms ys = .ok sy ∧ stamped = sx ++ sy := by
  rw [stampByTimestamp, List.mapM_append]
  simp only [Outcome.bind_ok, Outcome.pure_ok, stampByTimestamp]
  constructor
  · rintro ⟨sx, hx, sy, hy, rfl⟩
    exact ⟨sx, sy, hx, hy, rfl⟩
  · rintro ⟨sx, sy, hx, hy, rfl⟩
    exact ⟨sx, hx, sy, hy, rfl⟩

/-- A batch that is ingested again is stamped the same. -/
theorem stampByTimestamp_again {key : String} (hkey : key ≠ "workstream_id")
    {ms : List (SessionWorkstreamMembership E)} {records stamped : List (List (JsString × Json))}
    (h : stampByTimestamp key ms records = .ok stamped) : stampByTimestamp key ms stamped = .ok stamped := by
  rw [stampByTimestamp_forall] at h ⊢
  induction h with
  | nil => exact .nil
  | cons hr _ ih => exact .cons (stampRecord_again hkey hr) ih

/-! ## Over the history of a session -/

/-- The workstream of the last membership at or before a time. -/
def workstreamAt (ms : List (SessionWorkstreamMembership E)) (t : ℤ) : Option JsString :=
  (ms.filter (fun m => m.startMs ≤ t)).getLast?.map (·.workstreamId)

/-- The second record is the first with the stamp of its time. -/
def StampedAt (key : String) (ms : List (SessionWorkstreamMembership E))
    (record stamped : List (JsString × Json)) : Prop :=
  ∃ t, recordTime E key record = some t ∧ stamped = unstamped record ++ stampMember (workstreamAt ms t)

theorem stampedAt_iff {key : String} {ms : List (SessionWorkstreamMembership E)} (hinc : Increasing ms)
    {record stamped : List (JsString × Json)} :
    stampRecord key ms record = .ok stamped ↔ StampedAt key ms record stamped := by
  constructor
  · intro h
    obtain ⟨t, ht, rfl⟩ := stampRecord_ok h
    exact ⟨t, ht, by rw [stampOf_eq hinc, workstreamAt]⟩
  · rintro ⟨t, ht, rfl⟩
    rw [stampRecord, ht]
    simp only [stampOf_eq hinc, workstreamAt]

/-- **Workstream stamps are stable**, whatever enrollments have produced the log. A record
gets the last membership at or before its time; the moves made after that time do not
change it, and neither does the batch it comes in, or that it comes in again. -/
theorem workstream_stamps_stable {provider : ParticipatingProvider} {sessionId : JsString}
    {workstreams : List WorkstreamV1} {file : Option Bytes} {answers answers' : List (Answer E)}
    {s s' : ConsentState E}
    (hbefore : ConsentRun provider sessionId (.idle workstreams file) answers s)
    (hafter : ConsentRun provider sessionId s answers' s') {key : String}
    (hkey : key = "started_at" ∨ key = "occurred_at") :
    (∀ records stamped, stampByTimestamp key (consentLog provider sessionId E s.file) records =
        .ok stamped ↔ List.Forall₂ (StampedAt key (consentLog provider sessionId E s.file)) records stamped) ∧
      (∀ record t, recordTime E key record = some t →
        (∀ a ∈ answers', ∀ m, moveOf a = some m → t < m.startMs) →
        stampRecord key (consentLog provider sessionId E s'.file) record =
          stampRecord key (consentLog provider sessionId E s.file) record) ∧
      (∀ xs ys stamped, stampByTimestamp key (consentLog provider sessionId E s.file) (xs ++ ys) =
        .ok stamped ↔ ∃ sx sy, stampByTimestamp key (consentLog provider sessionId E s.file) xs = .ok sx ∧
          stampByTimestamp key (consentLog provider sessionId E s.file) ys = .ok sy ∧
            stamped = sx ++ sy) ∧
      ∀ records stamped, stampByTimestamp key (consentLog provider sessionId E s.file) records =
        .ok stamped → stampByTimestamp key (consentLog provider sessionId E s.file) stamped = .ok stamped := by
  have hheld := (consentRun_ok (by rintro r p ⟨⟩) hbefore).held
  have hlog := (consentRun_ok hheld hafter).log
  have hinc : Increasing (consentLog provider sessionId E s.file) := (consentLog_ok _).1
  have hinc' : Increasing (consentLog provider sessionId E s'.file) := (consentLog_ok _).1
  have hne : key ≠ "workstream_id" := by
    rcases hkey with rfl | rfl <;> decide
  refine ⟨fun records stamped => ?_, fun record t ht hlate => ?_, fun xs ys stamped => ?_, ?_⟩
  · rw [stampByTimestamp_forall]
    simp only [stampedAt_iff hinc]
  · rw [hlog] at hinc' ⊢
    have hsame := stampOf_append (t := t) hinc' fun m hm => by
      obtain ⟨a, ha, hmove⟩ := List.mem_filterMap.1 hm
      exact hlate a ha m hmove
    simp only [stampRecord, ht, hsame]
  · exact stampByTimestamp_append
  · exact fun records stamped h => stampByTimestamp_again hne h

end

/-- A turn that started at the epoch belongs to the workstream joined then. -/
theorem workstream_stamps_first :
    stampTurnsByMembership [[(js "started_at", .str epochText)]]
        (consentLog .claude firstSession epochHost firstJoined.2.file) =
      .ok [[(js "started_at", .str epochText), (js "workstream_id", .str firstWorkstream.workstreamId)]] := by
  have hstable := (workstream_stamps_stable firstRun (.refl _) (.inl rfl)).1
  refine (hstable _ _).2 (.cons ⟨0, ?_, ?_⟩ .nil)
  · decide
  · have hlog := (consentRun_ok (by rintro r p ⟨⟩) firstRun).log
    have hstamp : workstreamAt (consentLog .claude firstSession epochHost firstJoined.2.file) 0 =
        some firstWorkstream.workstreamId := by
      rw [hlog]
      decide
    rw [hstamp]
    simp [unstamped, stampMember]

end Barbaro
