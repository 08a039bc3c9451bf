import Barbaro.Active.Store
import Barbaro.Core.TextLines
import Barbaro.Lib.Outcome

/-!
# The revisions of a lease

Every lease that is committed is newer than the one it replaces and has its identity. Only a
reap takes a lease away, and only a tombstone nobody can still write to.

* `Commits`: what is committed, on top of what.
* `committed_commit`: it is what the file then holds.
* `LeaseStep`: what one operation does.
* `lease_revisions`: what a run does to the revision of an actor.
-/

namespace Barbaro.Active

section
variable {E : Host}

variable (E) in
/-- The lease in a file. -/
def committed (files : ActiveFiles) (p : ActivePath) : Option (ActiveLeaseV1 E) :=
  (files p).bind (fun bytes => (parseActiveLeaseJson E (bytesToString bytes)).toOption)

variable (E) in
/-- The lease may take the place of what the store holds at a path. -/
structure Commits (files : ActiveFiles) (p : ActivePath) (lease : Json) : Prop where
  wellFormed : lease.WellFormed E.float
  valid : validateActiveLease E lease = []
  named : actorPath E (actorFromLease lease) = .ok p
  known : files p ≠ none → committed E files p ≠ none
  newer : ∀ prior, committed E files p = some prior → prior.revision < leaseRevision lease ∧
    prior.leaseId = textAt "lease_id" lease ∧ prior.actor = actorFromLease lease

/-- **The file then holds the lease.** -/
theorem committed_commit {files : ActiveFiles} {p : ActivePath} {lease : Json}
    (h : Commits E files p lease) :
    committed E (Function.update files p (some (leaseBytes lease))) p = some ⟨lease, h.valid⟩ := by
  have htext : bytesToString (leaseBytes lease) = lease.render ++ [10] :=
    bytesToString_utf8 ((Json.render_clean h.wellFormed).wellFormed.append (.plain (by simp)))
  rw [committed, Function.update_self, Option.bind_some, htext, parseActiveLeaseJson,
    Json.parse_render_line h.wellFormed]
  simp only [h.valid, dite_true]
  rfl

theorem replaceWithNext_ok {call : StoreCall} {p : ActivePath} {current : Option (ActiveLeaseV1 E)}
    {detached lease : Json} {ttlMs : ℤ} {files : ActiveFiles}
    (h : (replaceWithNext E call p current detached ttlMs files).2 = .ok lease) :
    nextLease E call current detached ttlMs = .ok lease := by
  unfold replaceWithNext at h
  split at h
  · cases h
  · next lease' hlease =>
    split at h
    · cases h
    · cases h
      exact hlease

/-- What is written is the next lease after what the store holds. -/
theorem updateWrite_ok {call : StoreCall} {p : ActivePath} {actor : ActiveActorKey}
    {current : Option (ActiveLeaseV1 E)} {update : JsonInput E} {ttlMs : ℤ} {files : ActiveFiles} {lease : Json}
    (h : (updateWrite E call p actor current update ttlMs files).2 = .ok lease) :
    ∃ detached, assertUpdateDoesNotSetGeneratedFields update.json = .ok () ∧
      detachLease E update.json = .ok detached ∧ nextLease E call current detached ttlMs = .ok lease := by
  unfold updateWrite at h
  dsimp only at h
  split at h
  · cases h
  · next detached hprepared =>
    rw [Outcome.bind_ok] at hprepared
    obtain ⟨⟨⟩, hfree, hdetached⟩ := hprepared
    split at h
    · cases h
    · split at h
      · cases h
      · exact ⟨detached, hfree, hdetached, replaceWithNext_ok h⟩

/-- What is read is what the file holds. -/
theorem readPath_ok {call : StoreCall} {files : ActiveFiles} {p : ActivePath}
    {current : Option (ActiveLeaseV1 E)} (h : readPath E call files p = .ok current) :
    current = committed E files p ∧ (files p ≠ none → committed E files p ≠ none) := by
  unfold readPath at h
  split at h
  · cases h
  · next hnone =>
    cases h
    simp [committed, hnone]
  · next bytes _ hbytes =>
    rw [Outcome.guard_ok] at h
    obtain ⟨-, h⟩ := h
    rcases hparse : parseActiveLeaseJson E (bytesToString bytes) with e | lease
    · rw [hparse] at h
      cases h
    · rw [hparse] at h
      cases h
      have hcommitted : committed E files p = some lease := by
        simp [committed, hbytes, hparse, Except.toOption]
      exact ⟨hcommitted.symm, fun _ => by rw [hcommitted]; simp⟩

theorem assertCurrentIdentity_ok {current : Option (ActiveLeaseV1 E)} {next : Json}
    (h : assertCurrentIdentity E current next = .ok ()) : ∀ lease, current = some lease →
      lease.actor = actorFromLease next ∧ lease.leaseId = textAt "lease_id" next := by
  rintro lease rfl
  simp only [assertCurrentIdentity, Outcome.guard_ok, not_not] at h
  exact ⟨h.1, h.2.1⟩

/-! ## Building a lease -/

theorem cloneLease_eq {lease : Json} (h : lease.WellFormed E.float) : cloneLease E lease = lease := by
  rw [cloneLease, Json.parse_render h, Option.getD_some]

theorem jsonFields_wellFormed {v : Json} (h : v.WellFormed E.float) :
    (Json.obj (jsonFields v)).WellFormed E.float := by
  cases v with
  | obj fs => exact h
  | _ => exact ⟨List.nodup_nil, trivial⟩

theorem withFields_wellFormed {fields : List (JsString × Json)} {overrides : List (String × Json)}
    (hfields : (Json.obj fields).WellFormed E.float)
    (h : ∀ f ∈ overrides, f.2.WellFormed E.float) : (withFields fields overrides).WellFormed E.float := by
  unfold withFields
  induction overrides generalizing fields with
  | nil => exact hfields
  | cons f overrides ih =>
    have hf := Json.setField_wellFormed (k := js f.1) (h f (by simp)) hfields
    exact ih hf (fun g hg => h g (by simp [hg]))

/-- The members that are not overridden are kept. -/
theorem get_withFields {fields : List (JsString × Json)} {overrides : List (String × Json)} {key : String}
    (h : key ∉ overrides.map (·.1)) :
    (withFields fields overrides).get (js key) = Json.lookup (js key) fields := by
  unfold withFields
  induction overrides generalizing fields with
  | nil => rfl
  | cons f overrides ih =>
    rw [List.map_cons, List.mem_cons, not_or] at h
    rw [List.foldl_cons, ih h.2, Json.lookup_setField, if_neg]
    rw [js_inj]
    exact Ne.symm h.1

/-- The stand-ins are the members of the lease until it is committed. -/
theorem detachLease_eq {update detached : Json} (hwf : update.WellFormed E.float)
    (h : detachLease E update = .ok detached) : ∃ updated expires, detached =
      withFields (jsonFields update) [("schema", .str activeLeaseSchema), ("revision", .num (.int (1 : ℕ))),
        ("updated_at", .str updated), ("expires_at", .str expires)] ∧ detached.WellFormed E.float := by
  simp only [detachLease, buildLease, Outcome.bind_ok, Outcome.pure_ok] at h
  obtain ⟨template, ⟨updated, -, expires, -, rfl⟩, -, -, rfl⟩ := h
  have htemplate : (withFields (jsonFields update) [("schema", .str activeLeaseSchema),
      ("revision", .num (.int (1 : ℕ))), ("updated_at", .str updated),
      ("expires_at", .str expires)]).WellFormed E.float :=
    withFields_wellFormed (jsonFields_wellFormed hwf)
      (by simp [Json.WellFormed, Json.Number.Canonical, Json.maxSafe])
  rw [cloneLease_eq htemplate]
  exact ⟨updated, expires, rfl, htemplate⟩

theorem detachLease_ok {update detached : Json} (hwf : update.WellFormed E.float)
    (h : detachLease E update = .ok detached) : detached.WellFormed E.float := by
  obtain ⟨-, -, -, hdetached⟩ := detachLease_eq hwf h
  exact hdetached

/-- The next lease has the next revision, and the identity it was given. -/
theorem nextLease_ok {call : StoreCall} {current : Option (ActiveLeaseV1 E)} {detached lease : Json}
    {ttlMs : ℤ} (hwf : detached.WellFormed E.float)
    (h : nextLease E call current detached ttlMs = .ok lease) :
    lease.WellFormed E.float ∧ validateActiveLease E lease = [] ∧
      leaseRevision lease = currentRevision current + 1 ∧
      textAt "lease_id" lease = textAt "lease_id" detached ∧
      actorFromLease lease = actorFromLease detached := by
  simp only [nextLease, Outcome.guard_ok] at h
  obtain ⟨hmax, h⟩ := h
  rcases hnow : call.now with _ | now
  · rw [hnow] at h
    cases h
  · rw [hnow] at h
    simp only [Outcome.bind_ok, Outcome.pure_ok, checkLease, Outcome.guard_else] at h
    obtain ⟨updated, -, expires, -, -, ⟨hvalid, -⟩, rfl⟩ := h
    have hkept : ∀ key, key ∉ ["revision", "updated_at", "expires_at"] →
        textAt key (withFields (jsonFields detached)
          [("revision", .num (.int ((currentRevision current : ℕ) + 1))), ("updated_at", .str updated),
            ("expires_at", .str expires)]) = textAt key detached := by
      intro key hkey
      rw [textAt, textAt, get_withFields (by simpa using hkey)]
      cases detached with
      | obj fs => rfl
      | _ => rfl
    refine ⟨?_, hvalid, ?_, hkept _ (by decide), ?_⟩
    · refine withFields_wellFormed (jsonFields_wellFormed hwf) ?_
      have hbound : ((currentRevision current : ℤ) + 1).natAbs ≤ Json.maxSafe := by
        unfold Json.maxSafe maxSafeInteger at *
        omega
      simpa [Json.WellFormed, Json.Number.Canonical] using hbound
    · have hrevision : (withFields (jsonFields detached)
          [("revision", .num (.int ((currentRevision current : ℕ) + 1))), ("updated_at", .str updated),
            ("expires_at", .str expires)]).get (js "revision") =
              some (.num (.int ((currentRevision current : ℕ) + 1))) := by
        simp [withFields, Json.get, Json.lookup_setField]
      rw [leaseRevision, intAt, hrevision]
      simp only
      omega
    · rw [actorFromLease, actorFromLease, hkept _ (by decide), hkept _ (by decide), hkept _ (by decide)]

/-! ## One write -/

variable (E) in
/-- A write leaves the store as it was when it fails, and else commits its lease. -/
def Writes (files : ActiveFiles) (p : ActivePath) (done : ActiveFiles × Except ActiveFailure Json) : Prop :=
  match done.2 with
  | .error _ => done.1 = files
  | .ok lease => Commits E files p lease ∧ done.1 = Function.update files p (some (leaseBytes lease))

theorem Writes.refused {files : ActiveFiles} {p : ActivePath} {e : ActiveFailure} :
    Writes E files p (files, .error e) := rfl

theorem atomicReplace_writes {call : StoreCall} {files : ActiveFiles} {p : ActivePath} {lease : Json}
    (h : Commits E files p lease) : Writes E files p
      (match atomicReplace call p lease files with
        | (files', .error e) => (files', .error e)
        | (files', .ok _) => (files', .ok lease)) := by
  unfold atomicReplace
  rcases call.replace with _ | f
  · exact ⟨h, rfl⟩
  · exact Writes.refused

/-- A lease with a newer revision and the identity of the current one may take its place. -/
theorem commits_of_read {call : StoreCall} {files : ActiveFiles} {p : ActivePath}
    {current : Option (ActiveLeaseV1 E)} {detached lease : Json}
    (hread : readPath E call files p = .ok current)
    (hid : assertCurrentIdentity E current detached = .ok ()) (hwf : lease.WellFormed E.float)
    (hvalid : validateActiveLease E lease = [])
    (hnamed : actorPath E (actorFromLease lease) = .ok p)
    (hrevision : currentRevision current < leaseRevision lease)
    (hlease : textAt "lease_id" lease = textAt "lease_id" detached)
    (hactor : actorFromLease lease = actorFromLease detached) : Commits E files p lease := by
  obtain ⟨rfl, hknown⟩ := readPath_ok hread
  refine ⟨hwf, hvalid, hnamed, hknown, fun prior hprior => ?_⟩
  obtain ⟨hactor', hlease'⟩ := assertCurrentIdentity_ok hid prior hprior
  rw [hprior, currentRevision, Option.map_some, Option.getD_some] at hrevision
  exact ⟨hrevision, hlease'.trans hlease.symm, hactor'.trans hactor.symm⟩

theorem replaceWithNext_writes {call : StoreCall} {files : ActiveFiles} {p : ActivePath}
    {current : Option (ActiveLeaseV1 E)} {detached : Json} {ttlMs : ℤ}
    (hread : readPath E call files p = .ok current)
    (hid : assertCurrentIdentity E current detached = .ok ()) (hwf : detached.WellFormed E.float)
    (hnamed : actorPath E (actorFromLease detached) = .ok p) :
    Writes E files p (replaceWithNext E call p current detached ttlMs files) := by
  unfold replaceWithNext
  split
  · exact Writes.refused
  · next lease hlease =>
    obtain ⟨hleaseWf, hvalid, hrevision, hid', hactor⟩ := nextLease_ok hwf hlease
    refine atomicReplace_writes (commits_of_read hread hid hleaseWf hvalid ?_ (by omega) hid' hactor)
    rw [hactor]
    exact hnamed

theorem writeLocked_writes {call : StoreCall} {files : ActiveFiles} {p : ActivePath} {detached : Json}
    {wanted : Option ℕ} {ttlMs : ℤ} (hwf : detached.WellFormed E.float)
    (hnamed : actorPath E (actorFromLease detached) = .ok p) :
    Writes E files p (writeLocked E call p detached wanted ttlMs files) := by
  unfold writeLocked
  split
  · exact Writes.refused
  · next current hread =>
    split
    · exact Writes.refused
    · next hid =>
      split
      · exact Writes.refused
      · exact replaceWithNext_writes hread hid hwf hnamed

theorem updateWrite_writes {call : StoreCall} {files : ActiveFiles} {p : ActivePath}
    {actor : ActiveActorKey} {current : Option (ActiveLeaseV1 E)} {update : JsonInput E} {ttlMs : ℤ}
    (hread : readPath E call files p = .ok current) (hnamed : actorPath E actor = .ok p) :
    Writes E files p (updateWrite E call p actor current update ttlMs files) := by
  unfold updateWrite
  dsimp only
  split
  · exact Writes.refused
  · next detached hdetached =>
    rw [Outcome.bind_ok] at hdetached
    obtain ⟨-, -, hdetached⟩ := hdetached
    split
    · exact Writes.refused
    · next hactor =>
      split
      · exact Writes.refused
      · next hid =>
        rw [not_not] at hactor
        exact replaceWithNext_writes hread hid (detachLease_ok update.wellFormed hdetached)
          (hactor ▸ hnamed)

theorem writeSnapshotLocked_writes {call : StoreCall} {files : ActiveFiles} {p : ActivePath}
    {detached : Json} (hwf : detached.WellFormed E.float) (hvalid : validateActiveLease E detached = [])
    (hnamed : actorPath E (actorFromLease detached) = .ok p) :
    Writes E files p (writeSnapshotLocked E call p detached files) := by
  unfold writeSnapshotLocked
  split
  · exact Writes.refused
  · next current hread =>
    split
    · exact Writes.refused
    · next hid =>
      split
      · exact Writes.refused
      · next hrevision =>
        exact atomicReplace_writes (commits_of_read hread hid hwf hvalid hnamed (by omega) rfl rfl)

/-! ## Under the lock -/

/-- What became of the store under the lock is what became of it. -/
theorem withActiveActorLock_cases {α : Type} {call : StoreCall} {files : ActiveFiles}
    {operation : ActiveFiles → ActiveFiles × Except ActiveFailure α}
    {files' : ActiveFiles} {outcome : LockOutcome α}
    (h : withActiveActorLock call files operation = (files', outcome)) :
    (files' = files ∧ ∃ e, outcome = .failed e) ∨
    (∃ e, operation files = (files', .error e) ∧ outcome = .failed e) ∨
    ∃ result, operation files = (files', .ok result) ∧
      (outcome = .done result ∨ ∃ f, outcome = .releaseFailed result f) := by
  unfold withActiveActorLock at h
  split at h
  · cases h
    exact .inl ⟨rfl, _, rfl⟩
  · rcases hop : operation files with ⟨files₁, e | result⟩
    · rw [hop] at h
      cases h
      exact .inr (.inl ⟨e, rfl, rfl⟩)
    · rw [hop] at h
      simp only at h
      split at h
      · cases h
        exact .inr (.inr ⟨result, rfl, .inr ⟨_, rfl⟩⟩)
      · cases h
        exact .inr (.inr ⟨result, rfl, .inl rfl⟩)

/-- What an operation may make of the store: nothing, or a commit at one path. -/
inductive Effect (E : Host) (files : ActiveFiles) : ActiveFiles → Prop
  | unchanged : Effect E files files
  | commit {p : ActivePath} {lease : Json} (h : Commits E files p lease) :
      Effect E files (Function.update files p (some (leaseBytes lease)))

/-- A write under the lock. If it fails, the store is unchanged, unless it was the release of
the lock that failed. -/
theorem locked_write {call : StoreCall} {files : ActiveFiles} {p : ActivePath}
    {operation : ActiveFiles → ActiveFiles × Except ActiveFailure Json}
    (h : Writes E files p (operation files)) :
    Effect E files (withActiveActorLock call files operation).1 ∧
      ∀ e, (withActiveActorLock call files operation).2.settle = .error e →
        (withActiveActorLock call files operation).1 = files ∨ ∃ f, e = .lockRelease f := by
  rcases hlock : withActiveActorLock call files operation with ⟨files', outcome⟩
  rcases withActiveActorLock_cases hlock with ⟨rfl, -⟩ | ⟨e, hop, rfl⟩ | ⟨lease, hop, hout⟩
  · exact ⟨.unchanged, fun _ _ => .inl rfl⟩
  · rw [hop] at h
    obtain rfl : files' = files := h
    exact ⟨.unchanged, fun _ _ => .inl rfl⟩
  · rw [hop] at h
    obtain ⟨hcommit, heq⟩ : Commits E files p lease ∧ files' = _ := h
    subst heq
    refine ⟨.commit hcommit, fun e he => ?_⟩
    rcases hout with rfl | ⟨f, rfl⟩
    · cases he
    · cases he
      exact .inr ⟨f, rfl⟩

theorem write_effect (call : StoreCall) (update : JsonInput E) (options : WriteOptions)
    (files : ActiveFiles) : Effect E files (write E call update options files).1 ∧
      ∀ e, (write E call update options files).2 = .error e →
        (write E call update options files).1 = files ∨ ∃ f, e = .lockRelease f := by
  unfold write
  dsimp only
  split
  · exact ⟨.unchanged, fun _ _ => .inl rfl⟩
  · next detached wanted p hprepared =>
    simp only [Outcome.bind_ok, Outcome.pure_ok, Prod.mk.injEq] at hprepared
    obtain ⟨-, -, -, -, -, -, detached', hdetached, p', hp, rfl, -, rfl⟩ := hprepared
    exact locked_write (writeLocked_writes (detachLease_ok update.wellFormed hdetached) hp)

theorem writeSnapshot_effect (call : StoreCall) (lease : JsonInput E) (files : ActiveFiles) :
    Effect E files (writeSnapshot E call lease files).1 ∧
      ∀ e, (writeSnapshot E call lease files).2 = .error e →
        (writeSnapshot E call lease files).1 = files ∨ ∃ f, e = .lockRelease f := by
  unfold writeSnapshot
  dsimp only
  split
  · exact ⟨.unchanged, fun _ _ => .inl rfl⟩
  · next detached p hprepared =>
    simp only [Outcome.bind_ok, Outcome.pure_ok, Prod.mk.injEq, checkLease, Outcome.guard_else] at hprepared
    obtain ⟨-, ⟨hvalid, -⟩, p', hp, rfl, rfl⟩ := hprepared
    have hclone := cloneLease_eq lease.wellFormed
    rw [hclone] at hp ⊢
    exact locked_write (writeSnapshotLocked_writes lease.wellFormed hvalid hp)

/-- The callback that runs after the commit has failed. -/
def CallbackFailed (options : UpdateOptions) (e : ActiveFailure) : Prop :=
  ∃ callback lease f, options.afterCommit = some callback ∧ callback lease = .error f ∧ e = .failure f

theorem updateLocked_effect {call : StoreCall} {p : ActivePath} {actor : ActiveActorKey}
    (hnamed : actorPath E actor = .ok p)
    (decide : Option Json → Except Failure (ActiveLeaseDecision E)) (options : UpdateOptions)
    (files : ActiveFiles) : Effect E files (updateLocked E call p actor decide options files).1 ∧
      ∀ e, (updateLocked E call p actor decide options files).2 = .error e →
        (updateLocked E call p actor decide options files).1 = files ∨ CallbackFailed options e := by
  unfold updateLocked
  split
  · exact ⟨.unchanged, fun _ _ => .inl rfl⟩
  · next current hread =>
    split
    · exact ⟨.unchanged, fun _ _ => .inl rfl⟩
    · split
      · exact ⟨.unchanged, fun _ _ => .inl rfl⟩
      · exact ⟨.unchanged, fun _ h => by cases h⟩
      · next lease hdecision =>
        have hwrites := @updateWrite_writes E call files p actor current lease options.ttlMs hread hnamed
        split
        · next files' e hwrite =>
          rw [hwrite] at hwrites
          obtain rfl : files' = files := hwrites
          exact ⟨.unchanged, fun _ _ => .inl rfl⟩
        · next files' committed hwrite =>
          rw [hwrite] at hwrites
          obtain ⟨hcommit, heq⟩ : Commits E files p committed ∧ files' = _ := hwrites
          subst heq
          rcases hafter : options.afterCommit with _ | callback
          · exact ⟨.commit hcommit, fun _ h => by cases h⟩
          · rcases hcallback : callback (cloneLease E committed) with f | ⟨⟩
            · simp only [Option.elim_some, hcallback]
              refine ⟨.commit hcommit, ?_⟩
              rintro e ⟨⟩
              exact .inr ⟨callback, _, f, hafter, hcallback, rfl⟩
            · simp only [Option.elim_some, hcallback]
              exact ⟨.commit hcommit, fun _ h => by cases h⟩

/-- An update that fails leaves the store unchanged, unless what failed came after the
commit: the callback for that, or the release of the lock. -/
theorem update_effect (call : StoreCall) (actor : ActiveActorKey)
    (decide : Option Json → Except Failure (ActiveLeaseDecision E)) (options : UpdateOptions)
    (files : ActiveFiles) : Effect E files (update E call actor decide options files).1 ∧
      ∀ e, (update E call actor decide options files).2 = .error e →
        (update E call actor decide options files).1 = files ∨ (∃ f, e = .lockRelease f) ∨
          CallbackFailed options e := by
  unfold update
  dsimp only
  split
  · exact ⟨.unchanged, fun _ _ => .inl rfl⟩
  · next p hprepared =>
    simp only [Outcome.bind_ok, Outcome.pure_ok] at hprepared
    obtain ⟨p', hp, -, -, rfl⟩ := hprepared
    obtain ⟨heffect, hfailed⟩ := updateLocked_effect hp decide options files
    rcases hlock : withActiveActorLock call files (updateLocked E call p' actor decide options) with
      ⟨files', outcome⟩
    rcases withActiveActorLock_cases hlock with ⟨rfl, e, rfl⟩ | ⟨e, hop, rfl⟩ | ⟨result, hop, hout⟩
    · exact ⟨.unchanged, fun _ _ => .inl rfl⟩
    · rw [hop] at heffect hfailed
      refine ⟨heffect, ?_⟩
      rintro e' ⟨⟩
      exact (hfailed e rfl).imp id .inr
    · rw [hop] at heffect
      rcases hout with rfl | ⟨f, rfl⟩
      · exact ⟨heffect, fun _ h => by cases h⟩
      · dsimp only
        split
        · exact ⟨heffect, fun _ h => by cases h⟩
        · refine ⟨heffect, ?_⟩
          rintro e ⟨⟩
          exact .inr (.inl ⟨f, rfl⟩)

/-! ## Reaping -/

variable (E) in
/-- A tombstone that nobody can still write to: idle, and expired for a day at this time. -/
def Abandoned (files : ActiveFiles) (now : ℤ) (p : ActivePath) : Prop :=
  ∃ lease, committed E files p = some lease ∧ lease.state = js "idle" ∧
    ∃ expires, E.dateParse lease.expiresAt = some expires ∧ expires + reapIdleAfterMs ≤ now

variable (E) in
/-- Nothing has happened to the files but the deletion of abandoned tombstones. -/
def Reaped (now : ℤ) (files files' : ActiveFiles) : Prop :=
  ∀ p, files' p = files p ∨ (files' p = none ∧ Abandoned E files now p)

theorem Reaped.refl (now : ℤ) (files : ActiveFiles) : Reaped E now files files := fun _ => .inl rfl

theorem Reaped.trans {now : ℤ} {files files' files'' : ActiveFiles} (h : Reaped E now files files')
    (h' : Reaped E now files' files'') : Reaped E now files files'' := by
  intro p
  rcases h' p with hsame | ⟨hnone, lease, hlease, hidle⟩
  · rw [hsame]
    exact h p
  · rcases h p with hsame | ⟨hgone, -⟩
    · refine .inr ⟨hnone, lease, ?_, hidle⟩
      rw [committed, ← hsame]
      exact hlease
    · rw [committed, hgone] at hlease
      cases hlease

theorem isReapable_abandoned {files : ActiveFiles} {p : ActivePath} {lease : ActiveLeaseV1 E} {now : ℤ}
    (hlease : committed E files p = some lease) (h : isReapable lease (now - reapIdleAfterMs) = true) :
    Abandoned E files now p := by
  simp only [isReapable, Bool.and_eq_true, beq_iff_eq, Option.any_eq_true, decide_eq_true_eq] at h
  obtain ⟨hidle, expires, hexpires, hle⟩ := h
  exact ⟨lease, hlease, hidle, expires, hexpires, by omega⟩

theorem reapLocked_reaped {call : StoreCall} {now : ℤ} {p : ActivePath} {files : ActiveFiles} :
    Reaped E now files (reapLocked E call (now - reapIdleAfterMs) p files).1 := by
  unfold reapLocked
  split
  · exact Reaped.refl now files
  · next current hread =>
    split
    · next hany =>
      split
      · exact Reaped.refl now files
      · obtain ⟨rfl, -⟩ := readPath_ok hread
        rw [Option.any_eq_true] at hany
        obtain ⟨lease, hlease, hreapable⟩ := hany
        intro q
        by_cases hq : q = p
        · subst hq
          exact .inr ⟨Function.update_self _ _ _, isReapable_abandoned hlease hreapable⟩
        · exact .inl (Function.update_of_ne hq _ _)
    · exact Reaped.refl now files

theorem reapEntry_reaped {call : StoreCall} {now : ℤ} {p : ActivePath} {files : ActiveFiles} :
    Reaped E now files (reapEntry E call (now - reapIdleAfterMs) p files).1 := by
  unfold reapEntry
  repeat' split
  · exact Reaped.refl now files
  · exact Reaped.refl now files
  · exact Reaped.refl now files
  · exact Reaped.refl now files
  · exact Reaped.refl now files
  · dsimp only
    have hreaped := @reapLocked_reaped E call now p files
    rcases hlock : withActiveActorLock call files (reapLocked E call (now - reapIdleAfterMs) p) with
      ⟨files', outcome⟩
    rcases withActiveActorLock_cases hlock with ⟨rfl, -⟩ | ⟨e, hop, -⟩ | ⟨result, hop, -⟩
    · exact Reaped.refl now _
    · rw [hop] at hreaped
      exact hreaped
    · rw [hop] at hreaped
      exact hreaped

theorem reapLoop_reaped {calls : ActivePath → StoreCall} {now : ℤ} {entries : List ActivePath} {n : ℕ}
    {files : ActiveFiles} :
    Reaped E now files (reapLoop E calls (now - reapIdleAfterMs) entries n files).1 := by
  induction entries generalizing n files with
  | nil => exact Reaped.refl now files
  | cons p ps ih =>
    have hentry := @reapEntry_reaped E (calls p) now p files
    unfold reapLoop
    rcases hp : reapEntry E (calls p) (now - reapIdleAfterMs) p files with ⟨files', e | m⟩
    · rw [hp] at hentry
      dsimp only
      split
      · exact hentry.trans ih
      · exact hentry
    · rw [hp] at hentry
      exact hentry.trans ih

/-! ## Runs -/

/-- One operation on the store, with what it is given and what it meets. -/
inductive ActiveOperation (E : Host)
  | write (call : StoreCall) (update : JsonInput E) (options : WriteOptions)
  | update (call : StoreCall) (actor : ActiveActorKey)
      (decide : Option Json → Except Failure (ActiveLeaseDecision E)) (options : UpdateOptions)
  | writeIdle (call : StoreCall) (identity : ActiveLeaseIdentity E) (options : WriteOptions)
  | writeSnapshot (call : StoreCall) (lease : JsonInput E)
  | reap (now : Option ℤ) (listing : Except ActiveFailure (List ActivePath))
      (calls : ActivePath → StoreCall)

namespace ActiveOperation

/-- The store after an operation, and whether it has failed. -/
def run : ActiveOperation E → ActiveFiles → ActiveFiles × Except ActiveFailure Unit
  | .write call lease options, files => (Active.write E call lease options files).map id (·.map fun _ => ())
  | .update call actor decide options, files =>
    (Active.update E call actor decide options files).map id (·.map fun _ => ())
  | .writeIdle call identity options, files =>
    (Active.writeIdle E call identity options files).map id (·.map fun _ => ())
  | .writeSnapshot call lease, files =>
    (Active.writeSnapshot E call lease files).map id (·.map fun _ => ())
  | .reap now listing calls, files =>
    (reapExpiredIdle E now listing calls files).map id (·.map fun _ => ())

/-- The time a reap works with. -/
def reapsAt : ActiveOperation E → Option ℤ
  | .reap now _ _ => now
  | _ => none

/-- The failure is told by an operation that has committed its lease. -/
def FailedLater : ActiveOperation E → ActiveFailure → Prop
  | .update _ _ _ options, e => (∃ f, e = .lockRelease f) ∨ CallbackFailed options e
  | _, e => ∃ f, e = .lockRelease f

end ActiveOperation

/-- What one operation does: it commits a lease, or deletes abandoned tombstones, or nothing.
If it fails it has committed nothing, unless it tells so after the commit. -/
structure LeaseStep (op : ActiveOperation E) (files : ActiveFiles) : Prop where
  effect : (op.reapsAt = none ∧ Effect E files (op.run files).1) ∨
    ∃ now, op.reapsAt = some now ∧ Reaped E now files (op.run files).1
  failed : ∀ e, (op.run files).2 = .error e → (op.run files).1 = files ∨ op.FailedLater e ∨
    ∃ now, op.reapsAt = some now

theorem map_error {α : Type} {x : Except ActiveFailure α} {e : ActiveFailure}
    (h : x.map (fun _ => ()) = .error e) : x = .error e := by
  cases x with
  | error e' => cases h; rfl
  | ok a => cases h

theorem leaseStep (op : ActiveOperation E) (files : ActiveFiles) : LeaseStep op files := by
  cases op with
  | write call lease options =>
    obtain ⟨heffect, hfailed⟩ := write_effect call lease options files
    exact ⟨.inl ⟨rfl, heffect⟩, fun e he => (hfailed e (map_error he)).imp id .inl⟩
  | update call actor decide options =>
    obtain ⟨heffect, hfailed⟩ := update_effect call actor decide options files
    exact ⟨.inl ⟨rfl, heffect⟩, fun e he => (hfailed e (map_error he)).imp id .inl⟩
  | writeIdle call identity options =>
    obtain ⟨heffect, hfailed⟩ := write_effect call (idleLeaseUpdate identity) options files
    exact ⟨.inl ⟨rfl, heffect⟩, fun e he => (hfailed e (map_error he)).imp id .inl⟩
  | writeSnapshot call lease =>
    obtain ⟨heffect, hfailed⟩ := writeSnapshot_effect call lease files
    exact ⟨.inl ⟨rfl, heffect⟩, fun e he => (hfailed e (map_error he)).imp id .inl⟩
  | reap now listing calls =>
    rcases now with _ | now
    · exact ⟨.inl ⟨rfl, .unchanged⟩, fun _ _ => .inl rfl⟩
    · refine ⟨.inr ⟨now, rfl, ?_⟩, fun _ _ => .inr (.inr ⟨now, rfl⟩)⟩
      rcases listing with e | entries
      · exact Reaped.refl now files
      · exact reapLoop_reaped

/-- The store after a run. -/
def runOperations : List (ActiveOperation E) → ActiveFiles → ActiveFiles
  | [], files => files
  | op :: ops, files => runOperations ops (op.run files).1

/-- How often the file at a path changes in a run. -/
def changes (p : ActivePath) : List (ActiveOperation E) → ActiveFiles → ℕ
  | [], _ => 0
  | op :: ops, files =>
    (if (op.run files).1 p = files p then 0 else 1) + changes p ops (op.run files).1

/-- Some operation of the run takes the file at a path away. -/
def Removed (p : ActivePath) : List (ActiveOperation E) → ActiveFiles → Prop
  | [], _ => False
  | op :: ops, files =>
    (files p ≠ none ∧ (op.run files).1 p = none) ∨ Removed p ops (op.run files).1

/-- What a step that does not take the lease away makes of it. -/
theorem LeaseStep.keeps {op : ActiveOperation E} {files : ActiveFiles} (h : LeaseStep op files)
    {p : ActivePath} {lease : ActiveLeaseV1 E} (hlease : committed E files p = some lease)
    (hkept : (op.run files).1 p ≠ none) : (op.run files).1 p = files p ∨
      ∃ lease', committed E (op.run files).1 p = some lease' ∧ lease'.leaseId = lease.leaseId ∧
        lease'.actor = lease.actor ∧ lease.revision < lease'.revision := by
  rcases h.effect with ⟨-, heffect⟩ | ⟨now, -, hreaped⟩
  · generalize (op.run files).1 = files' at heffect
    cases heffect with
    | unchanged => exact .inl rfl
    | @commit q new hcommit =>
      by_cases hq : p = q
      · subst hq
        obtain ⟨hnewer, hid, hactor⟩ := hcommit.newer lease hlease
        exact .inr ⟨⟨new, hcommit.valid⟩, committed_commit hcommit, hid.symm, hactor.symm, hnewer⟩
      · exact .inl (Function.update_of_ne hq _ _)
  · exact .inl ((hreaped p).resolve_right fun hnone => hkept hnone.1)

/-- **The revisions of an actor**: as long as its file is not taken away, each change of the
file raises the revision and keeps the identity. -/
theorem revision_run (ops : List (ActiveOperation E)) (files : ActiveFiles) (p : ActivePath)
    (lease : ActiveLeaseV1 E) (hlease : committed E files p = some lease)
    (hkept : ¬ Removed p ops files) : ∃ lease', committed E (runOperations ops files) p = some lease' ∧
      lease'.leaseId = lease.leaseId ∧ lease'.actor = lease.actor ∧
      lease.revision + changes p ops files ≤ lease'.revision := by
  induction ops generalizing files lease with
  | nil => exact ⟨lease, hlease, rfl, rfl, Nat.le_refl _⟩
  | cons op ops ih =>
    rw [Removed, not_or, not_and] at hkept
    obtain ⟨hstep, hrest⟩ := hkept
    have hpresent : files p ≠ none := by
      intro hnone
      rw [committed, hnone] at hlease
      cases hlease
    rw [runOperations, changes]
    rcases (leaseStep op files).keeps hlease (hstep hpresent) with hsame | ⟨new, hnew, hid, hactor, hnewer⟩
    · have hlease' : committed E (op.run files).1 p = some lease := by
        rw [committed, hsame]
        exact hlease
      rw [if_pos hsame, Nat.zero_add]
      exact ih _ lease hlease' hrest
    · obtain ⟨last, hlast, hid', hactor', hle⟩ := ih _ new hnew hrest
      refine ⟨last, hlast, hid'.trans hid, hactor'.trans hactor, ?_⟩
      split
      · omega
      · omega

/-- What holds of a run of the store. -/
structure LeaseRun (ops : List (ActiveOperation E)) (files : ActiveFiles) : Prop where
  steps : ∀ before op after, ops = before ++ op :: after → LeaseStep op (runOperations before files)
  revisions : ∀ p lease, committed E files p = some lease → ¬ Removed p ops files →
    ∃ lease', committed E (runOperations ops files) p = some lease' ∧ lease'.leaseId = lease.leaseId ∧
      lease'.actor = lease.actor ∧ lease.revision + changes p ops files ≤ lease'.revision

/-- **Lease revisions are strictly increasing**, and a failure that is told before the commit
has changed nothing. -/
theorem lease_revisions (ops : List (ActiveOperation E)) (files : ActiveFiles) : LeaseRun ops files where
  steps _ op _ _ := leaseStep op _
  revisions := revision_run ops files

end

/-! ## A failure after the commit -/

/-- A host that knows the dates of the sample. -/
def leaseHost : Host :=
  Host.ofTables [] [(0, js "1970-01-01T00:00:00.000Z"), (1, js "1970-01-01T00:00:00.001Z"),
    (1000, js "1970-01-01T00:00:01.000Z"), (301000, js "1970-01-01T00:05:01.000Z")] (by decide +kernel)

def sampleActor : ActiveActorKey := ⟨js "codex", js "ses_" ++ List.replicate 32 48, js "main"⟩

def sampleUpdate : JsonInput leaseHost :=
  idleLeaseUpdate { leaseId := js "lease_" ++ List.replicate 32 48, actor := sampleActor }

/-- An update of a new actor whose callback after the commit fails. -/
def failingUpdate : ActiveOperation leaseHost :=
  .update { now := some 1000 } sampleActor (fun _ => .ok (.write sampleUpdate))
    { afterCommit := some fun _ => .error (.error "cursor") }

/-- The update fails, and its lease is committed. -/
theorem failed_update_commits : ¬ ∀ (op : ActiveOperation leaseHost) (files : ActiveFiles) (e : ActiveFailure),
    (op.run files).2 = .error e → (op.run files).1 = files := by
  intro h
  have herror : (failingUpdate.run fun _ => none).2 = .error (.failure (.error "cursor")) := by
    decide +kernel
  have hcommit : ((failingUpdate.run fun _ => none).1 ⟨js "codex",
      activeActorFilename leaseHost sampleActor⟩).isSome = true := by decide +kernel
  rw [h failingUpdate (fun _ => none) _ herror] at hcommit
  cases hcommit

end Barbaro.Active
