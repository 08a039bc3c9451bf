import Barbaro.Active.Conflicts
import Barbaro.Watch.Engine
import Mathlib.Data.List.Induction

/-!
# Stale leases

A scan of the leases compares each with what the scan before has kept of it: its version, and
whether its lapse was dealt with. A lease that lapses while it holds work is told, unless it is
seen for the first time. What was kept of a lease that is gone is dropped.

* `LeaseWatcher.scanLeases`: one scan, with the conflicts it tells.
* `stale_exact`: what is told, in every run whose scans meet `WatchedScan`.
* `unseen_lapse_told`: a lease that was never seen unexpired is told if it was renewed and has
  lapsed again between two scans.
-/

namespace Barbaro.Watch

open Active

section
variable (E : Host)

/-- A lease a watcher finds. The store lists it only if its expiry is a date. -/
structure WatchedLease extends LeaseSnapshot where
  currentAction : Option (JsString × Option JsString)
  expires_date : (E.dateParse expiresAt).isSome

/-- An expiry that was validated is a date. -/
theorem timestampMillis_date {v : Option Json} {path : JsString} (h : (timestampMillis v path E).1 = []) :
    ∃ s t, v = some (.str s) ∧ E.dateParse s = some t := by
  unfold timestampMillis at h
  split at h
  · rename_i s
    split at h
    · simp at h
    · split_ifs at h
      cases hdate : E.dateParse s with
      | none => rw [hdate] at h; simp at h
      | some t => exact ⟨s, t, rfl, hdate⟩
  · simp at h

theorem validateObject_nil {value : Option Json} {path : JsString}
    {validate : List (JsString × Json) → List ValidationIssue} (h : validateObject value path validate = []) :
    ∃ fs, validate fs = [] := by
  unfold validateObject at h
  split at h
  · exact ⟨_, h⟩
  · simp at h

theorem expiresAt_date (lease : ActiveLeaseV1 E) : (E.dateParse lease.snapshot.expiresAt).isSome := by
  obtain ⟨fs, hfields⟩ := validateObject_nil lease.valid
  have hlifetime := (List.append_eq_nil_iff.1 (List.append_eq_nil_iff.1 hfields).1).1
  have hexpires := (List.append_eq_nil_iff.1 (List.append_eq_nil_iff.1 hlifetime).1).2
  obtain ⟨s, t, hget, hdate⟩ := timestampMillis_date E hexpires
  have htext : lease.snapshot.expiresAt = s := by
    unfold ActiveLeaseV1.snapshot textAt
    simp only [hget]
  rw [htext, hdate]
  rfl

/-- A lease the store lists, as the watcher reads it. -/
def watchedLease (lease : ActiveLeaseV1 E) : WatchedLease E where
  toLeaseSnapshot := lease.snapshot
  currentAction := (lease.json.get (js "current_action")).map
    (fun action => (textAt "kind" action, textAt? "tool_name" action))
  expires_date := expiresAt_date E lease

end

section
variable {E : Host}

/-! ## Scans -/

/-- What is kept of a lease between two scans. -/
structure KeptLease where
  updatedAt : JsString
  reported : Bool
  deriving DecidableEq, Repr

/-- The leases of the last scan, and the conflicts it found. -/
structure LeaseMemory where
  leases : JsString → Option KeptLease
  conflicts : List JsString

def LeaseMemory.initial : LeaseMemory := ⟨fun _ => none, []⟩

/-- A lease that lapsed while it held work. The event has the fields of the lease. -/
structure WatchStaleEvent (E : Host) where
  observedAt : ℤ
  lease : WatchedLease E
  lapsedMs : ℤ

inductive LeaseEvent (E : Host)
  | conflict (observedAt : ℤ) (overlap : ProjectClaimOverlap)
  | stale (event : WatchStaleEvent E)

/-- What a watcher of leases was armed with. -/
structure LeaseWatcher where
  projectRoot : List JsString
  self : Option JsString
  workstream : Option JsString

/-- One look at the leases; without a sink nothing is told. -/
structure LeaseScan (E : Host) where
  report : Bool
  now : ℤ
  leases : List (WatchedLease E)

def claimJson (claim : ProjectWriteClaim) : Json :=
  .obj [(js "lease_id", .str claim.leaseId), (js "provider", .str claim.provider),
    (js "session_id", .str claim.sessionId), (js "agent_id", .str claim.agentId),
    (js "workstream_id", textOrNull claim.workstreamId), (js "path", textOrNull claim.path),
    (js "confidence", .str (match claim.confidence with
      | .exact => js "exact"
      | .inferred => js "inferred"
      | .unknown => js "unknown")),
    (js "unknown_write_scope", .bool claim.unknownWriteScope)]

/-- Both claims without their expiry. -/
def claimOverlapIdentity (overlap : ProjectClaimOverlap) : JsString :=
  stableStringify (.arr [claimJson overlap.localClaim, claimJson overlap.foreignClaim])

/-- A date is over. -/
def lapsed (E : Host) (now : ℤ) (expiresAt : JsString) : Bool := (E.dateParse expiresAt).any (· < now)

/-- The main agent of a session holds a lease that is not over. -/
def sessionPresent (scan : LeaseScan E) (sessionId : JsString) : Bool :=
  scan.leases.any fun lease =>
    lease.agentId == js "main" && lease.sessionId == sessionId && (E.dateParse lease.expiresAt).any (scan.now < ·)

variable (W : LeaseWatcher)

def leaseInScope (workstreamId : Option JsString) : Bool := W.workstream.isNone || workstreamId == W.workstream

/-- A lease that lapses under a live main agent has simply finished. -/
def worthTelling (scan : LeaseScan E) (lease : WatchedLease E) : Bool :=
  lease.state != .idle && (lease.agentId == js "main" || !sessionPresent scan lease.sessionId)

def staleEvent (scan : LeaseScan E) (lease : WatchedLease E) : Except Failure (WatchStaleEvent E) :=
  if lease.state = .idle then .error (.typeError "Idle tombstones never lapse into stale events")
  else .ok ⟨scan.now, lease, scan.now - (E.dateParse lease.expiresAt).getD 0⟩

/-- The lapse of a version was dealt with. -/
def priorReported (prior : Option KeptLease) (lease : WatchedLease E) : Bool :=
  prior.any fun kept => kept.updatedAt == lease.updatedAt && kept.reported

/-- What a scan tells of a lease of which it has kept something. -/
def leaseEvent (scan : LeaseScan E) (prior : Option KeptLease) (lease : WatchedLease E) :
    Except Failure (Option (WatchStaleEvent E)) :=
  if !priorReported prior lease && lapsed E scan.now lease.expiresAt && scan.report && prior.isSome &&
      worthTelling scan lease && leaseInScope W lease.workstreamId then
    (staleEvent scan lease).map some
  else .ok none

def keptLease (scan : LeaseScan E) (prior : Option KeptLease) (lease : WatchedLease E) : KeptLease :=
  ⟨lease.updatedAt, priorReported prior lease || lapsed E scan.now lease.expiresAt⟩

def staleLoop (scan : LeaseScan E) : List (WatchedLease E) → (JsString → Option KeptLease) →
    (JsString → Option KeptLease) × Except Failure (List (WatchStaleEvent E))
  | [], kept => (kept, .ok [])
  | lease :: leases, kept =>
    if some lease.sessionId == W.self then staleLoop scan leases kept
    else if (E.dateParse lease.expiresAt).isNone then staleLoop scan leases kept
    else
      match leaseEvent W scan (kept lease.leaseId) lease with
      | .error f => (kept, .error f)
      | .ok event =>
        let next := Function.update kept lease.leaseId (some (keptLease scan (kept lease.leaseId) lease))
        let (kept', events) := staleLoop scan leases next
        (kept', events.map (fun events => event.toList ++ events))

/-- The conflicts that the last scan has not found. -/
def conflictEvents (scan : LeaseScan E) (known : List JsString) (overlaps : List ProjectClaimOverlap) :
    List (LeaseEvent E) :=
  if scan.report then
    (overlaps.filter (fun o => !known.contains (claimOverlapIdentity o))).map (.conflict scan.now)
  else []

/-- One scan. Deletions and expiry remove current conflicts silently. -/
def LeaseWatcher.scanLeases (scan : LeaseScan E) (memory : LeaseMemory) :
    LeaseMemory × Except Failure (List (LeaseEvent E)) :=
  let overlaps := projectClaimOverlaps W.workstream
    (projectWriteClaims E W.projectRoot (scan.leases.map (·.toLeaseSnapshot)) scan.now)
  let conflicts := overlaps.map claimOverlapIdentity
  match staleLoop W scan scan.leases memory.leases with
  | (kept, .error f) => (⟨kept, conflicts⟩, .error f)
  | (kept, .ok stale) =>
    let seen := fun id => scan.leases.any (fun l => some l.sessionId != W.self && l.leaseId == id)
    (⟨fun id => if seen id then kept id else none, conflicts⟩,
      .ok (conflictEvents scan memory.conflicts overlaps ++ stale.map .stale))

/-! ## One scan -/

/-- The leases of a scan that are not of the watcher's own session. -/
def LeaseScan.watched (scan : LeaseScan E) : List (WatchedLease E) :=
  scan.leases.filter fun l => some l.sessionId != W.self

/-- The stale leases among what a scan tells. -/
def LeaseEvent.stale? : LeaseEvent E → Option (WatchStaleEvent E)
  | .conflict _ _ => none
  | .stale event => some event

/-- The memory after a run of scans, and the stale leases it has told. -/
def watchLeases (run : List (LeaseScan E)) : LeaseMemory × List (WatchStaleEvent E) :=
  run.foldl (fun done scan =>
    let (memory, events) := W.scanLeases scan done.1
    (memory, done.2 ++ (events.toOption.getD []).filterMap LeaseEvent.stale?)) (.initial, [])

/-- The stale leases a scan tells after a run. -/
def staleAfter (before : List (LeaseScan E)) (scan : LeaseScan E) : List (WatchStaleEvent E) :=
  ((W.scanLeases scan (watchLeases W before).1).2.toOption.getD []).filterMap LeaseEvent.stale?

/-- What a scan tells of a lease, given what was kept of it. -/
def told (scan : LeaseScan E) (prior : Option KeptLease) (lease : WatchedLease E) :
    Option (WatchStaleEvent E) :=
  (leaseEvent W scan prior lease).toOption.join

variable {W}

theorem staleEvent_ok {scan : LeaseScan E} {lease : WatchedLease E} (h : worthTelling scan lease = true) :
    ∃ event, staleEvent scan lease = .ok event ∧ event.lease = lease := by
  have hlive : lease.state ≠ .idle := by
    intro hidle
    simp [worthTelling, hidle] at h
  unfold staleEvent
  rw [if_neg hlive]
  exact ⟨_, rfl, rfl⟩

/-- **No scan fails at a lease.** -/
theorem leaseEvent_ok (scan : LeaseScan E) (prior : Option KeptLease) (lease : WatchedLease E) :
    leaseEvent W scan prior lease = .ok (told W scan prior lease) := by
  unfold told
  cases hevent : leaseEvent W scan prior lease with
  | ok event => rfl
  | error f =>
    exfalso
    unfold leaseEvent at hevent
    split at hevent
    · rename_i hcond
      simp only [Bool.and_eq_true] at hcond
      obtain ⟨event, hstale, -⟩ := staleEvent_ok hcond.1.2
      rw [hstale] at hevent
      simp [Except.map] at hevent
    · simp at hevent

/-- The lease lapsed while it held work, and its watcher is to hear of it. -/
structure Tellable (W : LeaseWatcher) (scan : LeaseScan E) (lease : WatchedLease E) : Prop where
  report : scan.report = true
  worth : worthTelling scan lease = true
  scope : leaseInScope W lease.workstreamId = true

/-- **What is told of a lease**: a lapse that was not dealt with, of a lease that was kept. -/
theorem told_iff {scan : LeaseScan E} {prior : Option KeptLease} {lease : WatchedLease E}
    {event : WatchStaleEvent E} (h : told W scan prior lease = some event) :
    event.lease = lease ∧ Tellable W scan lease ∧ lapsed E scan.now lease.expiresAt = true ∧
      ∃ kept, prior = some kept ∧ (kept.updatedAt = lease.updatedAt → kept.reported = false) := by
  have hok := leaseEvent_ok (W := W) scan prior lease
  rw [h] at hok
  unfold leaseEvent at hok
  split at hok
  · rename_i hcond
    simp only [Bool.and_eq_true, Bool.not_eq_true'] at hcond
    obtain ⟨⟨⟨⟨⟨hprior, hlapsed⟩, hreport⟩, hsome⟩, hworth⟩, hscope⟩ := hcond
    obtain ⟨stale, hstale, hlease⟩ := staleEvent_ok hworth
    rw [hstale] at hok
    have hevent : stale = event := by simpa [Except.map] using hok
    obtain ⟨kept, rfl⟩ := Option.isSome_iff_exists.1 hsome
    refine ⟨hevent ▸ hlease, ⟨hreport, hworth, hscope⟩, hlapsed, kept, rfl, fun hsame => ?_⟩
    simpa [priorReported, hsame] using hprior
  · simp at hok

/-- A scan tells of leases in their order, and of each at most once. -/
theorem told_sublist (scan : LeaseScan E) (prior : WatchedLease E → Option KeptLease)
    (leases : List (WatchedLease E)) :
    ((leases.filterMap fun l => told W scan (prior l) l).map (·.lease.leaseId)).Sublist (leases.map (·.leaseId)) := by
  induction leases with
  | nil => simp
  | cons l leases ih =>
    rw [List.filterMap_cons]
    cases htold : told W scan (prior l) l with
    | none => exact ih.cons _
    | some event =>
      rw [List.map_cons, List.map_cons, (told_iff htold).1]
      exact ih.cons_cons _

theorem told_of {scan : LeaseScan E} {lease : WatchedLease E} {kept : KeptLease} (htell : Tellable W scan lease)
    (hlapsed : lapsed E scan.now lease.expiresAt = true)
    (hkept : kept.updatedAt = lease.updatedAt → kept.reported = false) :
    ∃ event, told W scan (some kept) lease = some event ∧ event.lease = lease := by
  obtain ⟨event, hstale, hlease⟩ := staleEvent_ok htell.worth
  have hprior : priorReported (some kept) lease = false := by
    by_cases hsame : kept.updatedAt = lease.updatedAt
    · simp [priorReported, hkept hsame]
    · simp [priorReported, hsame]
  refine ⟨event, ?_, hlease⟩
  simp [told, leaseEvent, hprior, hlapsed, htell.report, htell.worth, htell.scope, hstale, Except.map,
    Except.toOption]

theorem mem_watched {scan : LeaseScan E} {lease : WatchedLease E} :
    lease ∈ scan.watched W ↔ lease ∈ scan.leases ∧ some lease.sessionId ≠ W.self := by
  simp [LeaseScan.watched]

/-- The loop deals with each lease by what was kept of it before the scan. -/
theorem staleLoop_eq (scan : LeaseScan E) (leases : List (WatchedLease E)) (kept : JsString → Option KeptLease)
    (hdistinct : ((leases.filter fun l => some l.sessionId != W.self).map (·.leaseId)).Nodup) :
    ∃ kept', staleLoop W scan leases kept = (kept', .ok
        ((leases.filter fun l => some l.sessionId != W.self).filterMap fun l => told W scan (kept l.leaseId) l)) ∧
      (∀ l ∈ leases, some l.sessionId ≠ W.self → kept' l.leaseId = some (keptLease scan (kept l.leaseId) l)) ∧
      ∀ id, (∀ l ∈ leases, some l.sessionId ≠ W.self → l.leaseId ≠ id) → kept' id = kept id := by
  induction leases generalizing kept with
  | nil => exact ⟨kept, rfl, by simp, by simp⟩
  | cons lease leases ih =>
    by_cases hself : some lease.sessionId = W.self
    · have hfilter : (lease :: leases).filter (fun l => some l.sessionId != W.self) =
          leases.filter fun l => some l.sessionId != W.self := by simp [hself]
      rw [hfilter] at hdistinct ⊢
      obtain ⟨kept', hloop, hnoted, hother⟩ := ih kept hdistinct
      refine ⟨kept', ?_, ?_, ?_⟩
      · simp [staleLoop, hself, hloop]
      · intro l hl hne
        rcases List.mem_cons.1 hl with rfl | hl
        · exact absurd hself hne
        · exact hnoted l hl hne
      · intro id hid
        exact hother id (fun l hl => hid l (List.mem_cons_of_mem _ hl))
    · have hfilter : (lease :: leases).filter (fun l => some l.sessionId != W.self) =
          lease :: leases.filter fun l => some l.sessionId != W.self := by simp [hself]
      rw [hfilter, List.map_cons, List.nodup_cons] at hdistinct
      obtain ⟨hfresh, hdistinct⟩ := hdistinct
      have hne : ∀ l ∈ leases, some l.sessionId ≠ W.self → l.leaseId ≠ lease.leaseId := by
        intro l hl hl' hid
        exact hfresh (List.mem_map.2 ⟨l, by simp [hl, hl'], hid⟩)
      obtain ⟨kept', hloop, hnoted, hother⟩ :=
        ih (Function.update kept lease.leaseId (some (keptLease scan (kept lease.leaseId) lease))) hdistinct
      refine ⟨kept', ?_, ?_, ?_⟩
      · have hdate : (E.dateParse lease.expiresAt).isNone = false := by
          simp [Option.isNone_eq_false_iff, lease.expires_date]
        have htold : (leases.filter fun l => some l.sessionId != W.self).filterMap (fun l => told W scan
            (Function.update kept lease.leaseId (some (keptLease scan (kept lease.leaseId) lease)) l.leaseId) l) =
            (leases.filter fun l => some l.sessionId != W.self).filterMap (fun l => told W scan (kept l.leaseId) l) := by
          refine List.filterMap_congr fun l hl => ?_
          have hl : l ∈ leases ∧ some l.sessionId ≠ W.self := by simpa using hl
          rw [Function.update_of_ne (hne l hl.1 hl.2)]
        rw [staleLoop, if_neg (by simpa using hself), hdate, hfilter, List.filterMap_cons]
        simp only [Bool.false_eq_true, if_false, leaseEvent_ok, hloop, htold]
        cases told W scan (kept lease.leaseId) lease with
        | none => simp [Except.map]
        | some event => simp [Except.map]
      · intro l hl hl'
        rcases List.mem_cons.1 hl with rfl | hl
        · rw [hother _ hne, Function.update_self]
        · rw [hnoted l hl hl', Function.update_of_ne (hne l hl hl')]
      · intro id hid
        rw [hother id (fun l hl => hid l (List.mem_cons_of_mem _ hl)),
          Function.update_of_ne (hid lease List.mem_cons_self hself).symm]

/-- **One scan**: each lease is dealt with by what was kept of it, and what was kept of others
is dropped. -/
theorem scanLeases_spec (scan : LeaseScan E) (memory : LeaseMemory)
    (hdistinct : ((scan.watched W).map (·.leaseId)).Nodup) :
    ((W.scanLeases scan memory).2.toOption.getD []).filterMap LeaseEvent.stale? =
        (scan.watched W).filterMap (fun l => told W scan (memory.leases l.leaseId) l) ∧
      (∀ l ∈ scan.watched W, (W.scanLeases scan memory).1.leases l.leaseId =
        some (keptLease scan (memory.leases l.leaseId) l)) ∧
      ∀ id, (∀ l ∈ scan.watched W, l.leaseId ≠ id) → (W.scanLeases scan memory).1.leases id = none := by
  obtain ⟨kept', hloop, hnoted, -⟩ := staleLoop_eq scan scan.leases memory.leases hdistinct
  unfold LeaseWatcher.scanLeases
  simp only [hloop, Except.toOption, Option.getD_some]
  refine ⟨?_, ?_, ?_⟩
  · rw [List.filterMap_append, List.filterMap_map]
    have hnone : ∀ overlaps, (conflictEvents scan memory.conflicts overlaps).filterMap LeaseEvent.stale? = [] := by
      intro overlaps
      refine List.filterMap_eq_nil_iff.2 fun e he => ?_
      unfold conflictEvents at he
      split at he
      · obtain ⟨o, -, rfl⟩ := List.mem_map.1 he
        rfl
      · simp at he
    rw [hnone, List.nil_append]
    exact List.filterMap_some
  · intro l hl
    obtain ⟨hmem, hself⟩ := mem_watched.1 hl
    have hseen : scan.leases.any (fun m => some m.sessionId != W.self && m.leaseId == l.leaseId) = true :=
      List.any_eq_true.2 ⟨l, hmem, by simp [hself]⟩
    rw [if_pos hseen]
    exact hnoted l hmem hself
  · intro id hid
    have hseen : ¬ scan.leases.any (fun m => some m.sessionId != W.self && m.leaseId == id) = true := by
      intro hany
      obtain ⟨m, hm, hcond⟩ := List.any_eq_true.1 hany
      rw [Bool.and_eq_true, bne_iff_ne, beq_iff_eq] at hcond
      exact hid m (mem_watched.2 ⟨hm, hcond.1⟩) hcond.2
    rw [if_neg hseen]

/-! ## Runs -/

/-- A version of a lease. -/
def WatchedLease.version (lease : WatchedLease E) : JsString × JsString := (lease.leaseId, lease.updatedAt)

theorem watchLeases_concat (before : List (LeaseScan E)) (scan : LeaseScan E) :
    watchLeases W (before ++ [scan]) =
      ((W.scanLeases scan (watchLeases W before).1).1, (watchLeases W before).2 ++ staleAfter W before scan) := by
  unfold watchLeases staleAfter
  rw [List.foldl_append]
  rfl

/-- What was told in a run was told by one of its scans. -/
theorem mem_watchLeases {run : List (LeaseScan E)} {event : WatchStaleEvent E}
    (h : event ∈ (watchLeases W run).2) :
    ∃ before scan after, run = before ++ scan :: after ∧ event ∈ staleAfter W before scan := by
  induction run using List.reverseRecOn with
  | nil => simp [watchLeases] at h
  | append_singleton run last ih =>
    rw [watchLeases_concat] at h
    rcases List.mem_append.1 h with h | h
    · obtain ⟨before, scan, after, rfl, hevent⟩ := ih h
      exact ⟨before, scan, after ++ [last], by simp, hevent⟩
    · exact ⟨run, last, [], rfl, h⟩

variable (W)

/-- Some scan of a run has found the lease unexpired. -/
def SeenUnexpired (before : List (LeaseScan E)) (leaseId : JsString) : Prop :=
  ∃ s ∈ before, ∃ m ∈ s.watched W, m.leaseId = leaseId ∧ lapsed E s.now m.expiresAt = false

/-- The lease was only ever found expired, was renewed since the last scan, and is expired again. -/
structure LapsesUnseen (before : List (LeaseScan E)) (scan : LeaseScan E) (lease : WatchedLease E) : Prop where
  lapsed : lapsed E scan.now lease.expiresAt = true
  renewed : ∃ earlier last, before = earlier ++ [last] ∧
    ∃ m ∈ last.watched W, m.leaseId = lease.leaseId ∧ m.updatedAt ≠ lease.updatedAt
  unseen : ¬ SeenUnexpired W before lease.leaseId

/-- A scan after a run. Ids are distinct, neither time nor a lease goes back to an earlier
version, and no lease that is to be told lapses unseen. -/
structure WatchedScan (before : List (LeaseScan E)) (scan : LeaseScan E) : Prop where
  distinct : ((scan.watched W).map (·.leaseId)).Nodup
  forward : ∀ earlier s later, before = earlier ++ s :: later → ∀ l ∈ s.watched W,
    lapsed E s.now l.expiresAt = true → ∀ l' ∈ scan.watched W, l'.version = l.version →
      lapsed E scan.now l'.expiresAt = true ∧
        ∀ t ∈ later, ∀ m ∈ t.watched W, m.leaseId = l.leaseId → m.version = l.version
  seen : ∀ l ∈ scan.watched W, Tellable W scan l → ¬ LapsesUnseen W before scan l

/-- What a run tells of stale leases is exact. -/
structure StaleExact (run : List (LeaseScan E)) : Prop where
  once : ((watchLeases W run).2.map (·.lease.version)).Nodup
  told : ∀ before scan, before ++ [scan] <+: run → ∀ event ∈ staleAfter W before scan,
    event.lease ∈ scan.watched W ∧ event.lease.state ≠ .idle ∧
      lapsed E scan.now event.lease.expiresAt = true ∧ SeenUnexpired W before event.lease.leaseId

variable {W}

/-- What is kept of a lease is from the last scan. -/
theorem kept_of_last {before : List (LeaseScan E)} {id : JsString} {kept : KeptLease}
    (hdistinct : ∀ earlier last, before = earlier ++ [last] → ((last.watched W).map (·.leaseId)).Nodup)
    (h : (watchLeases W before).1.leases id = some kept) :
    ∃ earlier last, before = earlier ++ [last] ∧ ∃ m ∈ last.watched W, m.leaseId = id ∧
      kept = keptLease last ((watchLeases W earlier).1.leases id) m := by
  rcases List.eq_nil_or_concat before with rfl | ⟨earlier, last, hbefore⟩
  · simp [watchLeases, LeaseMemory.initial] at h
  · rw [List.concat_eq_append] at hbefore
    obtain ⟨-, hnoted, hgone⟩ :=
      scanLeases_spec last (watchLeases W earlier).1 (hdistinct earlier last hbefore)
    rw [hbefore, watchLeases_concat] at h
    by_cases hfound : ∀ l ∈ last.watched W, l.leaseId ≠ id
    · rw [hgone id hfound] at h
      cases h
    · push Not at hfound
      obtain ⟨m, hm, rfl⟩ := hfound
      rw [hnoted m hm] at h
      exact ⟨earlier, last, hbefore, m, hm, rfl, (Option.some.inj h).symm⟩

/-- What a scan tells of a lease. -/
theorem mem_staleAfter {before : List (LeaseScan E)} {scan : LeaseScan E} {event : WatchStaleEvent E}
    (hdistinct : ((scan.watched W).map (·.leaseId)).Nodup) :
    event ∈ staleAfter W before scan ↔ ∃ l ∈ scan.watched W,
      told W scan ((watchLeases W before).1.leases l.leaseId) l = some event := by
  unfold staleAfter
  rw [(scanLeases_spec scan (watchLeases W before).1 hdistinct).1, List.mem_filterMap]

/-- **A lease that lapses unseen is told**, if a lapse of it is to be told at all. -/
theorem unseen_lapse_told {before : List (LeaseScan E)} {scan : LeaseScan E} {lease : WatchedLease E}
    (hdistinct : ∀ earlier s later, before ++ [scan] = earlier ++ s :: later →
      ((s.watched W).map (·.leaseId)).Nodup)
    (hlease : lease ∈ scan.watched W) (htell : Tellable W scan lease) (h : LapsesUnseen W before scan lease) :
    ∃ event ∈ staleAfter W before scan, event.lease = lease := by
  obtain ⟨earlier, last, rfl, m, hm, hid, hrenewed⟩ := h.renewed
  obtain ⟨-, hnoted, -⟩ := scanLeases_spec last (watchLeases W earlier).1 (hdistinct earlier last [scan] (by simp))
  have hkept : (watchLeases W (earlier ++ [last])).1.leases lease.leaseId =
      some (keptLease last ((watchLeases W earlier).1.leases m.leaseId) m) := by
    rw [watchLeases_concat, ← hid]
    exact hnoted m hm
  obtain ⟨event, htold, hevent⟩ := told_of htell h.lapsed
    (show (keptLease last ((watchLeases W earlier).1.leases m.leaseId) m).updatedAt = lease.updatedAt → _ from
      fun hsame => absurd hsame hrenewed)
  refine ⟨event, (mem_staleAfter (hdistinct _ scan [] rfl)).2 ⟨lease, hlease, ?_⟩, hevent⟩
  rw [hkept]
  exact htold

section
variable {run : List (LeaseScan E)} (hrun : ∀ before scan, before ++ [scan] <+: run → WatchedScan W before scan)
include hrun

/-- **A lease that is told was seen unexpired.** -/
theorem seen_of_told {before : List (LeaseScan E)} {scan : LeaseScan E} (hbegun : before ++ [scan] <+: run)
    {lease : WatchedLease E} (hlease : lease ∈ scan.watched W) {event : WatchStaleEvent E}
    (h : told W scan ((watchLeases W before).1.leases lease.leaseId) lease = some event) :
    SeenUnexpired W before lease.leaseId := by
  obtain ⟨-, htell, hlapsed, kept, hkept, hreported⟩ := told_iff h
  have hdistinct : ∀ earlier last, before = earlier ++ [last] → ((last.watched W).map (·.leaseId)).Nodup := by
    rintro earlier last rfl
    exact (hrun earlier last ((List.prefix_append _ [scan]).trans hbegun)).distinct
  obtain ⟨earlier, last, hbefore, m, hm, hid, rfl⟩ := kept_of_last hdistinct hkept
  by_cases hlive : lapsed E last.now m.expiresAt = false
  · exact ⟨last, by simp [hbefore], m, hm, hid, hlive⟩
  · -- the last scan has found it expired, so it was renewed since
    have hrenewed : m.updatedAt ≠ lease.updatedAt := by
      intro hsame
      have := hreported hsame
      simp [keptLease, Bool.not_eq_false _ ▸ hlive] at this
    by_contra hunseen
    exact (hrun before scan hbegun).seen lease hlease htell
      ⟨hlapsed, ⟨earlier, last, hbefore, m, hm, hid, hrenewed⟩, hunseen⟩

/-- **A version that was told is not told again.** -/
theorem told_once {before earlier later : List (LeaseScan E)} {s scan : LeaseScan E}
    (hbegun : before ++ [scan] <+: run) (hbefore : before = earlier ++ s :: later)
    {event event' : WatchStaleEvent E} (h : event ∈ staleAfter W earlier s)
    (h' : event' ∈ staleAfter W before scan) : event.lease.version ≠ event'.lease.version := by
  have hscan : ∀ earlier s later, before = earlier ++ s :: later → WatchedScan W earlier s := by
    intro earlier s later hbefore
    have hs : earlier ++ [s] <+: before := ⟨later, by simp [hbefore]⟩
    exact hrun earlier s (hs.trans ((List.prefix_append before [scan]).trans hbegun))
  intro hversion
  obtain ⟨l, hl, htold⟩ := (mem_staleAfter (hscan earlier s later hbefore).distinct).1 h
  obtain ⟨l', hl', htold'⟩ := (mem_staleAfter (hrun before scan hbegun).distinct).1 h'
  obtain ⟨rfl, -, hlapsed, -⟩ := told_iff htold
  obtain ⟨rfl, -, -, kept, hkept, hreported⟩ := told_iff htold'
  obtain ⟨-, hsteady⟩ := (hrun before scan hbegun).forward earlier s later hbefore _ hl hlapsed _ hl' hversion.symm
  obtain ⟨pre, last, hpre, m, hm, hid, rfl⟩ :=
    kept_of_last (fun pre last hpre => (hscan pre last [] hpre).distinct) hkept
  -- at the last scan before this one the version was found, expired
  have hfound : m.version = event.lease.version ∧ lapsed E last.now m.expiresAt = true := by
    have hid' : m.leaseId = event.lease.leaseId := hid.trans (congrArg Prod.fst hversion).symm
    rcases List.eq_nil_or_concat later with rfl | ⟨mid, t, hlater⟩
    · obtain ⟨rfl, hlast⟩ := List.append_inj' (hbefore.symm.trans hpre) rfl
      obtain rfl : s = last := by simpa using hlast
      have hsame : m = event.lease :=
        List.inj_on_of_nodup_map (hscan earlier s [] hbefore).distinct hm hl hid'
      exact ⟨congrArg _ hsame, hsame ▸ hlapsed⟩
    · rw [List.concat_eq_append] at hlater
      have hsplit : before = (earlier ++ s :: mid) ++ [t] := by simp [hbefore, hlater]
      obtain ⟨rfl, hlast⟩ := List.append_inj' (hsplit.symm.trans hpre) rfl
      obtain rfl : t = last := by simpa using hlast
      have hsame := hsteady t (by simp [hlater]) m hm hid'
      exact ⟨hsame, ((hscan _ t [] hpre).forward earlier s mid rfl _ hl hlapsed m hm hsame).1⟩
  have hsame : m.updatedAt = event'.lease.updatedAt :=
    (congrArg Prod.snd hfound.1).trans (congrArg Prod.snd hversion)
  have := hreported hsame
  simp [keptLease, hfound.2] at this

/-- **The stale leases a run tells are exact**, if each of its scans meets `WatchedScan`. -/
theorem stale_exact : StaleExact W run where
  once := by
    have hpart : ∀ part, part <+: run → ((watchLeases W part).2.map (·.lease.version)).Nodup := by
      intro part
      induction part using List.reverseRecOn with
      | nil => intro _; simp [watchLeases]
      | append_singleton before scan ih =>
        intro hbegun
        rw [watchLeases_concat, List.map_append]
        refine List.Nodup.append (ih ((List.prefix_append before [scan]).trans hbegun)) ?_ ?_
        · have hdistinct := (hrun before scan hbegun).distinct
          unfold staleAfter
          rw [(scanLeases_spec scan (watchLeases W before).1 hdistinct).1]
          have hids := hdistinct.sublist (told_sublist (W := W) scan
            (fun l => (watchLeases W before).1.leases l.leaseId) (scan.watched W))
          refine List.Nodup.of_map Prod.fst ?_
          rw [List.map_map]
          exact hids
        · intro version hbefore hscan
          obtain ⟨event, hevent, rfl⟩ := List.mem_map.1 hbefore
          obtain ⟨event', hevent', hversion⟩ := List.mem_map.1 hscan
          obtain ⟨earlier, s, later, hsplit, htold⟩ := mem_watchLeases hevent
          exact told_once hrun hbegun hsplit htold hevent' hversion.symm
    exact hpart run (List.prefix_refl run)
  told := by
    intro before scan hbegun event hevent
    obtain ⟨l, hl, htold⟩ := (mem_staleAfter (hrun before scan hbegun).distinct).1 hevent
    obtain ⟨rfl, htell, hlapsed, -⟩ := told_iff htold
    refine ⟨hl, ?_, hlapsed, seen_of_told hrun hbegun hl htold⟩
    intro hidle
    have hworth := htell.worth
    simp [worthTelling, hidle] at hworth

end

/-! ## The engine -/

variable (E W) in
/-- The leases as the engine scans them. Without a sink nothing of what a scan tells is kept. -/
def leaseConfig (turnByteBudget : ℕ) (projectTurn : Turn E → ℕ → Except Failure Json)
    (hpure : ∀ turn budget code, projectTurn turn budget ≠ .error (.system code)) :
    WatchConfig E (ℤ × Except Failure (List (WatchedLease E))) LeaseMemory (LeaseEvent E) where
  self := W.self
  workstream := W.workstream
  turnByteBudget
  projectTurn
  projectTurn_pure := hpure
  scanLeases listing memory :=
    match listing.2 with
    | .error f => (memory, .error f)
    | .ok leases => W.scanLeases ⟨true, listing.1, leases⟩ memory

/-- What a loop keeps does not depend on its sink, and it never fails. -/
theorem staleLoop_silent (now : ℤ) (all leases : List (WatchedLease E)) (kept : JsString → Option KeptLease) :
    ∃ kept' silent events, staleLoop W ⟨false, now, all⟩ leases kept = (kept', .ok silent) ∧
      staleLoop W ⟨true, now, all⟩ leases kept = (kept', .ok events) := by
  induction leases generalizing kept with
  | nil => exact ⟨kept, [], [], rfl, rfl⟩
  | cons lease leases ih =>
    have hkept : ∀ prior, keptLease ⟨false, now, all⟩ prior lease = keptLease ⟨true, now, all⟩ prior lease :=
      fun _ => rfl
    by_cases hskip : some lease.sessionId = W.self ∨ (E.dateParse lease.expiresAt).isNone
    · obtain ⟨kept', silent, events, hsilent, htold⟩ := ih kept
      refine ⟨kept', silent, events, ?_, ?_⟩
      · unfold staleLoop
        rcases hskip with h | h <;> simp [h, hsilent]
      · unfold staleLoop
        rcases hskip with h | h <;> simp [h, htold]
    · rw [not_or] at hskip
      obtain ⟨kept', silent, events, hsilent, htold⟩ :=
        ih (Function.update kept lease.leaseId (some (keptLease ⟨true, now, all⟩ (kept lease.leaseId) lease)))
      refine ⟨kept', (told W ⟨false, now, all⟩ (kept lease.leaseId) lease).toList ++ silent,
        (told W ⟨true, now, all⟩ (kept lease.leaseId) lease).toList ++ events, ?_, ?_⟩
      · unfold staleLoop
        simp [hskip.1, hskip.2, leaseEvent_ok, hkept, hsilent, Except.map]
      · unfold staleLoop
        simp [hskip.1, hskip.2, leaseEvent_ok, htold, Except.map]

/-- **The baseline scan keeps what a poll would keep.** -/
theorem scanLeases_silent (now : ℤ) (leases : List (WatchedLease E)) (memory : LeaseMemory) :
    (W.scanLeases ⟨false, now, leases⟩ memory).1 = (W.scanLeases ⟨true, now, leases⟩ memory).1 := by
  obtain ⟨kept', silent, events, hsilent, htold⟩ := staleLoop_silent (W := W) now leases leases memory.leases
  unfold LeaseWatcher.scanLeases
  simp only [hsilent, htold]

end

/-! ## A lease that is renewed between two scans -/

theorem staleDates_ok :
    ∀ e ∈ [((1000 : ℤ), js "1970-01-01T00:00:01.000Z"), (2000, js "1970-01-01T00:00:02.000Z")],
      ([((1000 : ℤ), js "1970-01-01T00:00:01.000Z"), (2000, js "1970-01-01T00:00:02.000Z")].find?
        (fun d => d.2 == e.2)).map Prod.fst = some e.1 ∧ 0 < e.2.length ∧ byteLength e.2 ≤ 64 := by
  decide

def staleHost : Host :=
  Host.ofTables [] [(1000, js "1970-01-01T00:00:01.000Z"), (2000, js "1970-01-01T00:00:02.000Z")] staleDates_ok

/-- A working lease of a main agent. -/
def lapsingLease (updatedAt expiresAt : String) (hdate : (staleHost.dateParse (js expiresAt)).isSome = true) :
    WatchedLease staleHost where
  leaseId := js "lease_1"
  provider := js "claude"
  sessionId := js "ses_1"
  agentId := js "main"
  workstreamId := none
  state := .working
  claims := []
  unknownWriteScope := false
  updatedAt := js updatedAt
  expiresAt := js expiresAt
  currentAction := none
  expires_date := hdate

def staleWatcher : LeaseWatcher := ⟨[js "repo"], none, none⟩

def firstVersion : WatchedLease staleHost :=
  lapsingLease "1970-01-01T00:00:00.000Z" "1970-01-01T00:00:01.000Z" (by decide)

def secondVersion : WatchedLease staleHost :=
  lapsingLease "1970-01-01T00:00:01.500Z" "1970-01-01T00:00:02.000Z" (by decide)

theorem prefix_pair {α : Type} {before : List α} {scan a b : α} (h : before ++ [scan] <+: [a, b]) :
    before = [] ∧ scan = a ∨ before = [a] ∧ scan = b := by
  match before with
  | [] => exact .inl ⟨rfl, by simpa using h⟩
  | [x] => exact .inr (by simpa using h)
  | x :: y :: rest => simp at h

/-- A lease that is found live, and then expired. -/
theorem stale_exact_lapse : StaleExact staleWatcher
    [⟨false, 500, [firstVersion]⟩, ⟨true, 1500, [firstVersion]⟩] := by
  have hlive : lapsed staleHost 500 firstVersion.expiresAt = false := by decide
  refine stale_exact fun before scan hbegun => ?_
  rcases prefix_pair hbegun with ⟨rfl, rfl⟩ | ⟨rfl, rfl⟩
  · refine ⟨by simp [LeaseScan.watched, staleWatcher], ?_, ?_⟩
    · intro earlier s later h
      simp at h
    · rintro l - - ⟨-, ⟨earlier, last, h, -⟩, -⟩
      simp at h
  · have hmem : ∀ {l : WatchedLease staleHost} {report : Bool} {now : ℤ},
        l ∈ LeaseScan.watched staleWatcher ⟨report, now, [firstVersion]⟩ → l = firstVersion := by
      intro l report now hl
      simpa [LeaseScan.watched, staleWatcher] using hl
    have hfirst : ([⟨false, 500, [firstVersion]⟩] : List (LeaseScan staleHost)) =
        [] ++ ⟨false, 500, [firstVersion]⟩ :: [] := rfl
    refine ⟨by simp [LeaseScan.watched, staleWatcher], ?_, ?_⟩
    · intro earlier s later h l hl hlapsed
      obtain ⟨-, rfl, -⟩ : earlier = [] ∧ s = ⟨false, 500, [firstVersion]⟩ ∧ later = [] := by
        cases earlier with
        | nil => simpa [eq_comm] using h
        | cons x xs => simp at h
      rw [hmem hl, hlive] at hlapsed
      cases hlapsed
    · intro l hl _ hunseen
      rw [hmem hl] at hunseen
      refine hunseen.unseen ⟨_, List.mem_singleton_self _, firstVersion, ?_, rfl, hlive⟩
      simp [LeaseScan.watched, staleWatcher]

theorem lapsingLease_id {updatedAt expiresAt : String}
    {hdate : (staleHost.dateParse (js expiresAt)).isSome = true} :
    (lapsingLease updatedAt expiresAt hdate).leaseId = js "lease_1" := rfl

theorem firstVersion_over : lapsed staleHost 1500 firstVersion.expiresAt = true := by decide

/-- A renewed lease, of which only an expired version was ever found. -/
theorem secondVersion_unseen : LapsesUnseen staleWatcher [⟨false, 1500, [firstVersion]⟩]
    ⟨true, 2500, [secondVersion]⟩ secondVersion where
  lapsed := by decide
  renewed := ⟨[], _, rfl, firstVersion, mem_watched.2 ⟨List.mem_singleton_self _, Option.some_ne_none _⟩,
    lapsingLease_id.trans lapsingLease_id.symm, by decide⟩
  unseen := by
    rintro ⟨s, hs, m, hm, -, hlive⟩
    rw [List.mem_singleton.1 hs] at hm hlive
    rw [List.mem_singleton.1 (mem_watched.1 hm).1, firstVersion_over] at hlive
    cases hlive

/-- **A lease found expired, renewed and expired again at the next poll is told**, although no scan has
found it unexpired. -/
theorem renewed_lapse_told : ¬ StaleExact staleWatcher
    ([⟨false, 1500, [firstVersion]⟩] ++ [⟨true, 2500, [secondVersion]⟩]) := by
  intro h
  have hdistinct : ∀ earlier s later, [⟨false, 1500, [firstVersion]⟩] ++ [⟨true, 2500, [secondVersion]⟩] =
      earlier ++ s :: later → ((LeaseScan.watched staleWatcher s).map (·.leaseId)).Nodup := by
    intro earlier s later hsplit
    have hs : s ∈ [⟨false, 1500, [firstVersion]⟩] ++ [⟨true, 2500, [secondVersion]⟩] := by
      rw [hsplit]
      simp
    have hone : s.leases.length ≤ 1 := by
      rcases List.mem_append.1 hs with hs | hs <;> rw [List.mem_singleton.1 hs] <;> exact le_refl 1
    have hlength : ((LeaseScan.watched staleWatcher s).map (·.leaseId)).length ≤ 1 := by
      rw [List.length_map]
      exact (List.length_filter_le _ _).trans hone
    generalize (LeaseScan.watched staleWatcher s).map (·.leaseId) = ids at hlength
    match ids with
    | [] => exact List.nodup_nil
    | [id] => exact List.nodup_singleton id
    | _ :: _ :: _ => simp at hlength
  have htell : Tellable staleWatcher (⟨true, 2500, [secondVersion]⟩ : LeaseScan staleHost) secondVersion :=
    ⟨rfl, by decide, by decide +kernel⟩
  obtain ⟨event, hevent, hlease⟩ := unseen_lapse_told hdistinct
    (mem_watched.2 ⟨List.mem_singleton_self _, Option.some_ne_none _⟩) htell secondVersion_unseen
  have hseen := (h.told _ _ (List.prefix_refl _) event hevent).2.2.2
  rw [hlease] at hseen
  exact secondVersion_unseen.unseen hseen

end Barbaro.Watch
