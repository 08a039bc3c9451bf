import Barbaro.Nudge.Unread

/-!
# What a scan of the lines of a feed counts

* `scanLines_count`: the unread count is the number of unread lines.
* `scanLines_prefix`: the prefix of a scan is the lines before the first unread one.
* `scanLines_collapsed`, `scanLines_keys`: the records collapsed are the acknowledged
  ones of the prefix, the unread keys are those of unread lines.
-/

namespace Barbaro

section
variable {E : Host} (epoch : MembershipEpoch E) (key : FeedKey) (reads : NudgeReadState)
  (targets : Option (List RecordKey))

/-- An eligible turn that no delivery has acknowledged. -/
def isUnread (t : Turn E) : Bool := eligible epoch key t && !isReadRecordAcknowledged reads t

/-- The line holds an unread turn. -/
def unreadLine (line : JsonlLine Json) : Bool := (turnOf E line).any (isUnread epoch key reads)

/-- The line holds an eligible turn that is acknowledged. -/
def acknowledgedLine (line : JsonlLine Json) : Bool :=
  (turnOf E line).any (fun t => eligible epoch key t && isReadRecordAcknowledged reads t)

/-- The record keys of the turns on some lines. -/
def recordKeys (E : Host) (lines : List (JsonlLine Json)) : List RecordKey :=
  lines.filterMap (fun l => (turnOf E l).map recordKey)

theorem recordKeys_cons (l : JsonlLine Json) (ls : List (JsonlLine Json)) :
    recordKeys E (l :: ls) = recordKeys E [l] ++ recordKeys E ls := by
  rw [show l :: ls = [l] ++ ls from rfl]
  exact List.filterMap_append

/-- The variables after a line with an unread turn: it closes the prefix and is counted. -/
def countLine (st : LineScan E) (t : Turn E) : LineScan E :=
  { st with
    firstUnread := if st.prefixOpen then some t else st.firstUnread
    prefixOpen := false
    unreadRecordKeys :=
      if targets.any (fun ks => recordKey t ∈ ks) then st.unreadRecordKeys ++ [recordKey t]
      else st.unreadRecordKeys
    unreadCount := st.unreadCount + 1
    latest := newer st.latest t }

/-- The variables after any other line, while the prefix is open. -/
def passLine (st : LineScan E) (line : JsonlLine Json) : LineScan E :=
  { st with
    prefixOffset := line.nextOffset
    prefixLine := line.lineNumber + 1
    collapsedRecordKeys :=
      if acknowledgedLine epoch key reads line then st.collapsedRecordKeys ++ recordKeys E [line]
      else st.collapsedRecordKeys }

variable {epoch key reads targets}

theorem eligible_iff {t : Turn E} : eligible epoch key t = true ↔
    t.provider = key.provider ∧ t.sessionId = key.sessionId ∧
      t.workstreamId = some epoch.workstreamId ∧ epoch.startMs < t.endedAtMs := by
  simp only [eligible, Bool.and_eq_true, beq_iff_eq, decide_eq_true_eq, gt_iff_lt, and_assoc]

theorem scanLine_unread {st : LineScan E} {line : JsonlLine Json} {t : Turn E}
    (ht : turnOf E line = some t) (hu : isUnread epoch key reads t = true) :
    scanLine epoch key reads targets st line = countLine targets st t := by
  simp only [isUnread, Bool.and_eq_true, Bool.not_eq_true'] at hu
  obtain ⟨he, ha⟩ := hu
  obtain ⟨h1, h2, h3, h4⟩ := eligible_iff.1 he
  simp only [scanLine, ht, Option.any_some, he, ha, Bool.and_false, Bool.not_false, Bool.and_true,
    if_true, Bool.false_eq_true, if_false]
  rw [if_neg (by simp [h1, h2]), if_neg (by simp [h3, not_le.2 h4])]
  rfl

theorem scanLine_read {st : LineScan E} {line : JsonlLine Json}
    (hu : unreadLine epoch key reads line = false) :
    scanLine epoch key reads targets st line =
      if st.prefixOpen then passLine epoch key reads st line else st := by
  rw [passLine]
  rcases ht : turnOf E line with _ | t
  · simp [scanLine, ht, acknowledgedLine]
  · simp only [unreadLine, ht, Option.any_some, isUnread] at hu
    by_cases he : eligible epoch key t = true
    · have ha : isReadRecordAcknowledged reads t = true := by simpa [he] using hu
      obtain ⟨h1, h2, h3, h4⟩ := eligible_iff.1 he
      simp only [scanLine, ht, Option.any_some, he, ha, Bool.and_true, Bool.not_true, Bool.and_false,
        Bool.false_eq_true, if_false, if_true, acknowledgedLine, recordKeys, List.filterMap_cons,
        List.filterMap_nil, Option.map_some]
      rw [if_neg (by simp [h1, h2]), if_neg (by simp [h3, not_le.2 h4])]
    · have hskip : t.provider ≠ key.provider ∨ t.sessionId ≠ key.sessionId ∨
          t.workstreamId ≠ some epoch.workstreamId ∨ t.endedAtMs ≤ epoch.startMs := by
        by_contra hno
        simp only [ne_eq, not_or, not_not, not_le] at hno
        exact he (eligible_iff.2 hno)
      rw [Bool.not_eq_true] at he
      simp only [scanLine, ht, Option.any_some, he, Bool.false_and, Bool.false_eq_true, if_false,
        acknowledgedLine]
      split
      · rfl
      · next h1 =>
        split
        · rfl
        · next h2 =>
          simp only [not_or] at h1 h2
          rcases hskip with h | h | h | h
          · exact absurd h h1.1
          · exact absurd h h1.2
          · exact absurd h h2.1
          · exact absurd h h2.2

/-! ## All lines -/

theorem scanLines_count (ls : List (JsonlLine Json)) (st : LineScan E) :
    (ls.foldl (scanLine epoch key reads targets) st).unreadCount =
      st.unreadCount + ls.countP (unreadLine epoch key reads) := by
  induction ls generalizing st with
  | nil => rfl
  | cons l ls ih =>
    rw [List.foldl_cons, ih, List.countP_cons]
    by_cases hu : unreadLine epoch key reads l = true
    · obtain ⟨t, ht, htu⟩ := (Option.any_eq_true _ _).1 hu
      rw [scanLine_unread ht htu, if_pos hu]
      simp only [countLine]
      omega
    · rw [scanLine_read (Bool.not_eq_true _ ▸ hu), if_neg hu]
      split <;> rfl

/-- Once the prefix is closed it stays where it is. -/
theorem scanLines_closed (ls : List (JsonlLine Json)) (st : LineScan E)
    (h : st.prefixOpen = false) :
    (ls.foldl (scanLine epoch key reads targets) st).prefixOpen = false ∧
      (ls.foldl (scanLine epoch key reads targets) st).prefixOffset = st.prefixOffset ∧
      (ls.foldl (scanLine epoch key reads targets) st).prefixLine = st.prefixLine ∧
      (ls.foldl (scanLine epoch key reads targets) st).collapsedRecordKeys =
        st.collapsedRecordKeys ∧
      (ls.foldl (scanLine epoch key reads targets) st).firstUnread = st.firstUnread := by
  induction ls generalizing st with
  | nil => exact ⟨h, rfl, rfl, rfl, rfl⟩
  | cons l ls ih =>
    rw [List.foldl_cons]
    by_cases hu : unreadLine epoch key reads l = true
    · obtain ⟨t, ht, htu⟩ := (Option.any_eq_true _ _).1 hu
      rw [scanLine_unread ht htu]
      obtain ⟨h1, h2, h3, h4, h5⟩ := ih (countLine targets st t) rfl
      exact ⟨h1, h2, h3, h4, h5.trans (by simp [countLine, h])⟩
    · rw [scanLine_read (Bool.not_eq_true _ ▸ hu), if_neg (by simp [h])]
      exact ih st h

/-- The lines before the first unread one. -/
def readPrefix (epoch : MembershipEpoch E) (key : FeedKey) (reads : NudgeReadState)
    (ls : List (JsonlLine Json)) : List (JsonlLine Json) :=
  ls.takeWhile (fun l => !unreadLine epoch key reads l)

variable (epoch key reads targets) in
/-- **The prefix of a scan** is the lines before the first unread one: its end, and the
records collapsed in it. -/
theorem scanLines_prefix (ls : List (JsonlLine Json)) (st : LineScan E) (h : st.prefixOpen = true) :
    (ls.foldl (scanLine epoch key reads targets) st).prefixOpen =
        ls.all (fun l => !unreadLine epoch key reads l) ∧
      (ls.foldl (scanLine epoch key reads targets) st).prefixOffset =
        ((readPrefix epoch key reads ls).getLast?.map JsonlLine.nextOffset).getD st.prefixOffset ∧
      (ls.foldl (scanLine epoch key reads targets) st).prefixLine =
        ((readPrefix epoch key reads ls).getLast?.map (fun l => l.lineNumber + 1)).getD
          st.prefixLine ∧
      (ls.foldl (scanLine epoch key reads targets) st).collapsedRecordKeys =
        st.collapsedRecordKeys ++
          recordKeys E ((readPrefix epoch key reads ls).filter (acknowledgedLine epoch key reads)) := by
  induction ls generalizing st with
  | nil => simp [readPrefix, recordKeys, h]
  | cons l ls ih =>
    rw [List.foldl_cons]
    by_cases hu : unreadLine epoch key reads l = true
    · obtain ⟨t, ht, htu⟩ := (Option.any_eq_true _ _).1 hu
      rw [scanLine_unread ht htu]
      obtain ⟨h1, h2, h3, h4, -⟩ := scanLines_closed ls (countLine targets st t) rfl
      rw [h1, h2, h3, h4]
      simp [readPrefix, hu, recordKeys, countLine]
    · rw [Bool.not_eq_true] at hu
      rw [scanLine_read hu, if_pos h]
      obtain ⟨h1, h2, h3, h4⟩ := ih (passLine epoch key reads st l) h
      rw [h1, h2, h3, h4]
      have hpre : readPrefix epoch key reads (l :: ls) = l :: readPrefix epoch key reads ls := by
        simp [readPrefix, hu]
      rw [hpre]
      have hlast : ∀ {β : Type} (f : JsonlLine Json → β) (d : β) (ms : List (JsonlLine Json)),
          ((l :: ms).getLast?.map f).getD d = (ms.getLast?.map f).getD (f l) := by
        intro β f d ms
        cases ms with
        | nil => rfl
        | cons m ms => rw [List.getLast?_cons_cons]; simp [List.getLast?_cons]
      refine ⟨by simp [hu], (hlast _ _ _).symm, (hlast _ _ _).symm, ?_⟩
      by_cases ha : acknowledgedLine epoch key reads l = true
      · rw [List.filter_cons_of_pos ha, recordKeys_cons, passLine, if_pos ha, List.append_assoc]
      · rw [List.filter_cons_of_neg ha, passLine, if_neg ha]

/-- The unread keys of a scan are those of the unread lines that were asked for. -/
theorem scanLines_keys (ls : List (JsonlLine Json)) (st : LineScan E) (k : RecordKey) :
    k ∈ (ls.foldl (scanLine epoch key reads targets) st).unreadRecordKeys ↔
      k ∈ st.unreadRecordKeys ∨
        (targets.any (fun ks => k ∈ ks) = true ∧
          k ∈ recordKeys E (ls.filter (unreadLine epoch key reads))) := by
  induction ls generalizing st with
  | nil => simp [recordKeys]
  | cons l ls ih =>
    rw [List.foldl_cons, ih]
    by_cases hu : unreadLine epoch key reads l = true
    · obtain ⟨t, ht, htu⟩ := (Option.any_eq_true _ _).1 hu
      rw [scanLine_unread ht htu, countLine]
      have hk : recordKeys E ((l :: ls).filter (unreadLine epoch key reads)) =
          recordKey t :: recordKeys E (ls.filter (unreadLine epoch key reads)) := by
        simp [recordKeys, hu, ht]
      rw [hk, List.mem_cons]
      by_cases hin : targets.any (fun ks => recordKey t ∈ ks) = true
      · simp only [hin, if_true, List.mem_append, List.mem_singleton]
        by_cases hkt : k = recordKey t
        · subst hkt; simp [hin]
        · simp [hkt]
      · simp only [hin, if_false, Bool.false_eq_true]
        by_cases hkt : k = recordKey t
        · subst hkt
          simp [hin]
        · simp [hkt]
    · rw [Bool.not_eq_true] at hu
      rw [scanLine_read hu]
      have hk : (l :: ls).filter (unreadLine epoch key reads) =
          ls.filter (unreadLine epoch key reads) := by simp [hu]
      rw [hk]
      split <;> rfl

/-- The unread turns on some lines, in order. -/
def unreadTurns (epoch : MembershipEpoch E) (key : FeedKey) (reads : NudgeReadState)
    (ls : List (JsonlLine Json)) : List (Turn E) :=
  ls.filterMap (fun l => (turnOf E l).filter (isUnread epoch key reads))

/-- The newest turn of a scan is the newest of its unread ones. -/
theorem scanLines_latest (ls : List (JsonlLine Json)) (st : LineScan E) :
    (ls.foldl (scanLine epoch key reads targets) st).latest =
      (unreadTurns epoch key reads ls).foldl newer st.latest := by
  induction ls generalizing st with
  | nil => rfl
  | cons l ls ih =>
    rw [List.foldl_cons, ih]
    simp only [unreadTurns, List.filterMap_cons]
    by_cases hu : unreadLine epoch key reads l = true
    · obtain ⟨t, ht, htu⟩ := (Option.any_eq_true _ _).1 hu
      rw [scanLine_unread ht htu, ht, Option.filter_some_pos htu, List.foldl_cons]
      rfl
    · rw [Bool.not_eq_true] at hu
      have hnone : (turnOf E l).filter (isUnread epoch key reads) = none := by
        rcases ht : turnOf E l with _ | t
        · rfl
        · rw [unreadLine, ht, Option.any_some] at hu
          exact Option.filter_some_neg (by simp [hu])
      rw [scanLine_read hu, hnone]
      split <;> rfl

end

end Barbaro
