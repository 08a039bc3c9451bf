import Barbaro.Core.Host
import Barbaro.Reader.Types

/-!
# The recipients with news

The open Home names, one at a time, the sessions that have unread news. A catalogue gives them in
the order of what they are doing; where it is incomplete it gives none.

* `hubNewsTickerEntries`: the recipients of some workstreams, by priority.
* `hubNewsTickerKeys`: their keys, of a whole catalogue.
* `hubNewsTickerKeys_nodup`: the keys of distinct recipients are distinct.
-/

namespace Barbaro.Tui

/-! ## The catalogue, as far as the ticker reads it -/

inductive HubFilter
  | «open»
  | completed
  deriving DecidableEq, Repr

structure StateCounts where
  working : ℕ
  waiting : ℕ
  blocked : ℕ
  deriving DecidableEq, Repr

structure ReaderCatalogueRoll where
  provider : JsString
  sessionId : JsString
  stateCounts : StateCounts
  /-- `last_turn.ended_at` -/
  lastTurn : Option JsString
  deriving DecidableEq

structure ReaderUnreadRecipientKey where
  provider : JsString
  sessionId : JsString
  membershipFrom : JsString
  deriving DecidableEq

inductive ReaderUnreadSummary
  | ready (key : ReaderUnreadRecipientKey) (unreadCount : ℕ)
  | unknown (key : ReaderUnreadRecipientKey)
  deriving DecidableEq

structure ReaderCatalogueWorkstream where
  workstreamId : JsString
  name : JsString
  status : HubFilter
  updatedAt : JsString
  members : ReaderCollection ReaderUnreadRecipientKey
  rolls : ReaderCollection ReaderCatalogueRoll
  /-- `activity.turns.coverage` -/
  turnsCoverage : ReaderCoverage
  lastKnownActivityAt : Option JsString
  unread : Option (ReaderCollection ReaderUnreadSummary)

/-- `workstream_status_counts` -/
structure StatusCounts where
  «open» : ℕ
  completed : ℕ
  readState : ReaderReadState
  coverage : ReaderCoverage

structure CatalogueDiagnostics where
  invalidWorkstreamRecords : ℕ
  invalidParticipationRecords : ℕ
  invalidActiveRecords : ℕ

structure ReaderCatalogue where
  referenceAt : JsString
  statusCounts : StatusCounts
  workstreams : ReaderCollection ReaderCatalogueWorkstream
  diagnostics : CatalogueDiagnostics

section
variable (dateParse : JsString → Option ℤ)

/-! ## The roster of the open Home -/

/-- The time that a workstream is ordered by; none if it is missing, invalid or in the future. -/
def orderingTime (referenceAt : JsString) (filter : HubFilter) (item : ReaderCatalogueWorkstream) : Option ℤ := do
  let value ← if filter = .completed then some item.updatedAt else item.lastKnownActivityAt
  let parsed ← dateParse value
  let reference ← dateParse referenceAt
  if parsed ≤ reference then some parsed else none

/-- The newest first; what has no time stays at the end. -/
def orderHubWorkstreams (items : List ReaderCatalogueWorkstream) (referenceAt : JsString) (filter : HubFilter) :
    List ReaderCatalogueWorkstream :=
  items.mergeSort fun left right =>
    match orderingTime dateParse referenceAt filter left, orderingTime dateParse referenceAt filter right with
    | some leftTime, some rightTime => decide (rightTime ≤ leftTime)
    | none, some _ => false
    | _, none => true

def selectableHubWorkstreams (catalogue : ReaderCatalogue) (filter : HubFilter) : List ReaderCatalogueWorkstream :=
  orderHubWorkstreams dateParse (catalogue.workstreams.items.filter (fun item => item.status = filter))
    catalogue.referenceAt filter

def statusCountsExact (catalogue : ReaderCatalogue) : Bool :=
  catalogue.statusCounts.readState = .ok ∧ catalogue.statusCounts.coverage.state = .complete

def ReaderUnreadSummary.isUnknown : ReaderUnreadSummary → Bool
  | .ready .. => false
  | .unknown .. => true

/-- What is read of one workstream is not all of it. -/
def itemIncomplete (item : ReaderCatalogueWorkstream) : Bool :=
  item.turnsCoverage.state ≠ .complete || item.members.readState ≠ .ok || item.members.coverage.state ≠ .complete ||
    item.members.hidden > 0 || (item.members.total > 0 && item.unread.isNone) ||
    item.unread.any fun unread =>
      unread.readState ≠ .ok || unread.coverage.state ≠ .complete || unread.hidden > 0 ||
        unread.items.any ReaderUnreadSummary.isUnknown

def hubActivityIncomplete (catalogue : ReaderCatalogue) (openItems : List ReaderCatalogueWorkstream) : Bool :=
  !statusCountsExact catalogue || openItems.length ≠ catalogue.statusCounts.open ||
    catalogue.diagnostics.invalidWorkstreamRecords > 0 || catalogue.diagnostics.invalidParticipationRecords > 0 ||
    catalogue.diagnostics.invalidActiveRecords > 0 || openItems.any itemIncomplete

/-! ## The entries -/

structure HubNewsTickerEntry where
  key : JsString
  sourceIndex : ℕ
  workstreamName : JsString
  provider : JsString
  unreadCount : ℕ
  activity : String
  activityPriority : ℕ
  lastShownAt : Option ℤ
  providerOrdinal : ℕ
  providerTotal : ℕ
  deriving DecidableEq

/-- The summaries that are ready and have news, with their counts. -/
def readyNews (item : ReaderCatalogueWorkstream) : List (ReaderUnreadRecipientKey × ℕ) :=
  (item.unread.elim [] (·.items)).filterMap fun
    | .ready key unreadCount => if unreadCount > 0 then some (key, unreadCount) else none
    | .unknown _ => none

/-- The parts are joined with NUL. -/
def hubNewsRecipientKey (item : ReaderCatalogueWorkstream) (key : ReaderUnreadRecipientKey) : JsString :=
  item.workstreamId ++ 0 :: key.provider ++ 0 :: key.sessionId ++ 0 :: key.membershipFrom

/-- Compact age for ledger ranges: 42m, 1h44m, 1d22h. -/
def compactAge (milliseconds : ℤ) : String :=
  let minutes := (milliseconds / 60000).toNat
  if minutes < 60 then s!"{minutes}m"
  else if minutes / 60 < 24 then s!"{minutes / 60}h{minutes % 60}m"
  else if minutes / 60 % 24 = 0 then s!"{minutes / 60 / 24}d"
  else s!"{minutes / 60 / 24}d{minutes / 60 % 24}h"

/-- What a session is doing, its priority, and when it was last shown. -/
def rollActivity (reference : Option ℤ) : Option ReaderCatalogueRoll → String × ℕ × Option ℤ
  | none => ("activity unknown", 4, none)
  | some roll =>
    if roll.stateCounts.working > 0 then ("working", 0, none)
    else if roll.stateCounts.waiting > 0 then ("waiting", 1, none)
    else if roll.stateCounts.blocked > 0 then ("blocked", 2, none)
    else
      match reference, roll.lastTurn.bind dateParse with
      | some reference, some ended =>
        if ended ≤ reference then (s!"last shown {compactAge (reference - ended)}", 3, some ended)
        else ("activity unknown", 4, none)
      | _, _ => ("activity unknown", 4, none)

/-- One entry, before its provider is counted. -/
def rawEntry (reference : Option ℤ) (source : (ReaderCatalogueWorkstream × ReaderUnreadRecipientKey × ℕ) × ℕ) :
    HubNewsTickerEntry :=
  let ((item, key, unreadCount), sourceIndex) := source
  let (activity, activityPriority, lastShownAt) := rollActivity dateParse reference
    (item.rolls.items.find? fun roll => roll.provider = key.provider ∧ roll.sessionId = key.sessionId)
  { key := hubNewsRecipientKey item key, sourceIndex, workstreamName := item.name, provider := key.provider,
    unreadCount, activity, activityPriority, lastShownAt, providerOrdinal := 0, providerTotal := 0 }

def providerKey (entry : HubNewsTickerEntry) : JsString := entry.workstreamName ++ 0 :: entry.provider

/-- The entries with their places among those of one workstream and provider. -/
def countProviders (raw : List HubNewsTickerEntry) : List HubNewsTickerEntry → List HubNewsTickerEntry →
    List HubNewsTickerEntry
  | _, [] => []
  | seen, entry :: rest =>
    { entry with
      providerOrdinal := seen.countP (fun other => providerKey other = providerKey entry) + 1
      providerTotal := raw.countP (fun other => providerKey other = providerKey entry) } ::
        countProviders raw (seen ++ [entry]) rest

/-- By priority, then the one shown last, then the place in the source. -/
def HubNewsTickerEntry.le (left right : HubNewsTickerEntry) : Bool :=
  if left.activityPriority ≠ right.activityPriority then left.activityPriority < right.activityPriority
  else
    match left.lastShownAt, right.lastShownAt with
    | some l, some r => if l ≠ r then r < l else left.sourceIndex ≤ right.sourceIndex
    | some _, none => true
    | none, some _ => false
    | none, none => left.sourceIndex ≤ right.sourceIndex

/-- The ready summaries of the workstreams, one after the other. -/
def newsSources (items : List ReaderCatalogueWorkstream) :
    List (ReaderCatalogueWorkstream × ReaderUnreadRecipientKey × ℕ) :=
  items.flatMap fun item => (readyNews item).map fun summary => (item, summary)

def hubNewsTickerEntries (items : List ReaderCatalogueWorkstream) (referenceAt : JsString) : List HubNewsTickerEntry :=
  let raw := (newsSources items).zipIdx.map (rawEntry dateParse (dateParse referenceAt))
  (countProviders raw [] raw).mergeSort HubNewsTickerEntry.le

/-- Priority order for a fresh cycle; callers retain it until that cycle ends. -/
def hubNewsTickerKeys (catalogue : ReaderCatalogue) : List JsString :=
  let items := selectableHubWorkstreams dateParse catalogue .open
  if hubActivityIncomplete catalogue items then []
  else (hubNewsTickerEntries dateParse items catalogue.referenceAt).map (·.key)

/-! ## The recipients -/

/-- The keys of the recipients with news, in the order of the catalogue. -/
def newsRecipients (catalogue : ReaderCatalogue) : List JsString :=
  (newsSources (catalogue.workstreams.items.filter (fun item => item.status = .open))).map fun source =>
    hubNewsRecipientKey source.1 source.2.1

theorem countProviders_keys (raw seen rest : List HubNewsTickerEntry) :
    (countProviders raw seen rest).map (·.key) = rest.map (·.key) := by
  induction rest generalizing seen with
  | nil => rfl
  | cons entry rest ih => rw [countProviders, List.map_cons, List.map_cons, ih]

/-- The entries are those of the ready summaries, in another order. -/
theorem hubNewsTickerEntries_keys (items : List ReaderCatalogueWorkstream) (referenceAt : JsString) :
    ((hubNewsTickerEntries dateParse items referenceAt).map (·.key)).Perm
      ((newsSources items).map fun source => hubNewsRecipientKey source.1 source.2.1) := by
  have hsorted := (List.mergeSort_perm (countProviders
    ((newsSources items).zipIdx.map (rawEntry dateParse (dateParse referenceAt))) []
    ((newsSources items).zipIdx.map (rawEntry dateParse (dateParse referenceAt)))) HubNewsTickerEntry.le).map (·.key)
  refine hsorted.trans (.of_eq ?_)
  rw [countProviders_keys, List.map_map]
  have hkey : (fun e : HubNewsTickerEntry => e.key) ∘ rawEntry dateParse (dateParse referenceAt) =
      (fun source : ReaderCatalogueWorkstream × ReaderUnreadRecipientKey × ℕ =>
        hubNewsRecipientKey source.1 source.2.1) ∘ Prod.fst := rfl
  rw [hkey, ← List.map_map, List.zipIdx_map_fst]

theorem hubNewsTickerKeys_perm (catalogue : ReaderCatalogue) :
    hubNewsTickerKeys dateParse catalogue = [] ∨
      (hubNewsTickerKeys dateParse catalogue).Perm (newsRecipients catalogue) := by
  rw [hubNewsTickerKeys]
  split
  · exact .inl rfl
  · refine .inr ((hubNewsTickerEntries_keys dateParse _ _).trans (List.Perm.map _ ?_))
    exact (List.mergeSort_perm _ _).flatMap_right _

/-- **Distinct recipients have distinct keys**. -/
theorem hubNewsTickerKeys_nodup {catalogue : ReaderCatalogue} (h : (newsRecipients catalogue).Nodup) :
    (hubNewsTickerKeys dateParse catalogue).Nodup := by
  rcases hubNewsTickerKeys_perm dateParse catalogue with hnone | hperm
  · rw [hnone]
    exact List.nodup_nil
  · exact hperm.nodup_iff.2 h

end

end Barbaro.Tui
