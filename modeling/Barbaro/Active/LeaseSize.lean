import Barbaro.Active.Revisions
import Barbaro.Core.TextSize

/-!
# The size of leases

A lease is read only up to `maxActiveLeaseBytes`, and committed whatever its size: the
validator bounds no text and no list. A lease that is larger is refused by every later read,
and so is every later write of its actor, which reads first.

* `updateBytes`: the bytes of the lease that an update makes.
* `leases_readable_iff`: the leases of a run are readable as long as what is committed fits.
* `large_lease_unreadable`: a lease that does not fit is committed all the same.
-/

namespace Barbaro.Active

variable {E : Host}

/-! ## Bytes -/

/-- The bytes of the members of an object, each with its colon and a comma. -/
def fieldsSize (fs : List (JsString × Json)) : ℕ :=
  (fs.map (fun f => byteLength (Json.quote f.1) + byteLength f.2.render + 2)).sum

/-- The bytes of one member, with its colon and a comma. -/
def fieldSize (key : String) (v : Json) : ℕ := byteLength (Json.quote (js key)) + byteLength v.render + 2

theorem fieldsSize_setField (key : String) (v : Json) (fs : List (JsString × Json)) :
    fieldsSize (Json.setField (js key) v fs) + ((Json.lookup (js key) fs).map (fieldSize key)).getD 0 =
      fieldsSize fs + fieldSize key v := by
  induction fs with
  | nil => simp [Json.setField, Json.lookup, fieldsSize, fieldSize]
  | cons f fs ih =>
    obtain ⟨k, w⟩ := f
    rw [Json.setField, Json.lookup]
    by_cases hk : k = js key
    · subst hk
      simp only [if_true, fieldsSize, List.map_cons, List.sum_cons, Option.map_some, Option.getD_some,
        fieldSize]
      omega
    · rw [if_neg hk, if_neg hk]
      simp only [fieldsSize, List.map_cons, List.sum_cons] at ih ⊢
      omega

theorem render_obj_size {fs : List (JsString × Json)} (h : (Json.obj fs).WellFormed E.float) (hne : fs ≠ []) :
    byteLength (Json.obj fs).render = fieldsSize fs + 1 :=
  (render_obj_eq hne fun f hf => (Json.render_clean (wellFormedFields_iff.1 h.2 f hf)).wellFormed).2

theorem leaseBytes_length {lease : Json} (h : lease.WellFormed E.float) :
    (leaseBytes lease).length = byteLength lease.render + 1 := by
  have hcut := byteLength_append (Json.render_clean h).wellFormed [10]
  rw [byteLength_ascii (s := [10]) (by simp)] at hcut
  exact hcut

theorem render_nat (n : ℕ) : byteLength (Json.num (.int n)).render = Json.digitCount n := by
  have htext : (Json.num (.int n)).render = Json.decDigits n := by
    rw [Json.render, Json.Number.text, if_neg (by omega), Int.natAbs_natCast]
  rw [htext, byteLength_ascii (decDigits_ascii n), Json.length_decDigits]

/-- The bytes of a time in a lease. -/
def isoBytes (E : Host) (t : ℤ) : ℕ := ((E.isoString t).map (fun s => byteLength (Json.quote s))).getD 0

/-- **The bytes of the lease that an update makes**: its own and those of the fields that
are generated. -/
def updateBytes (E : Host) (update : Json) (revision : ℕ) (now ttlMs : ℤ) : ℕ :=
  byteLength update.render + 70 + Json.digitCount revision + isoBytes E now + isoBytes E (now + ttlMs)

/-- The members that are generated are not there before. -/
theorem generated_absent {update : Json} (h : assertUpdateDoesNotSetGeneratedFields update = .ok ()) :
    ∃ fs, update = .obj fs ∧ ∀ key ∈ generatedFields, Json.lookup (js key) fs = none := by
  unfold assertUpdateDoesNotSetGeneratedFields at h
  split at h
  · cases h
  · next hobject =>
    split at h
    · cases h
    · next hfind =>
      cases update with
      | obj fs =>
        refine ⟨fs, rfl, fun key hkey => ?_⟩
        have habsent := List.find?_eq_none.1 hfind key hkey
        simpa [Json.get] using habsent
      | _ => exact absurd rfl hobject

theorem setField_ne_nil (k : JsString) (v : Json) (fs : List (JsString × Json)) : Json.setField k v fs ≠ [] := by
  intro hnil
  have hmem := (@Json.mem_keys_setField k k v fs).2 (.inl rfl)
  rw [hnil] at hmem
  cases hmem

/-- Members that are set for the first time, and three of them again. -/
theorem fieldsSize_generated {fs : List (JsString × Json)}
    (h : ∀ key ∈ generatedFields, Json.lookup (js key) fs = none) (schema r₀ u₀ e₀ r u e : Json) :
    ∃ gs, withFields (jsonFields (withFields fs
          [("schema", schema), ("revision", r₀), ("updated_at", u₀), ("expires_at", e₀)]))
        [("revision", r), ("updated_at", u), ("expires_at", e)] = .obj gs ∧ gs ≠ [] ∧
      fieldsSize gs = fieldsSize fs + fieldSize "schema" schema + fieldSize "revision" r +
        fieldSize "updated_at" u + fieldSize "expires_at" e := by
  refine ⟨_, rfl, setField_ne_nil _ _ _, ?_⟩
  have n₁ : Json.lookup (js "schema") fs = none := h _ (by decide)
  have n₂ : Json.lookup (js "revision") fs = none := h _ (by decide)
  have n₃ : Json.lookup (js "updated_at") fs = none := h _ (by decide)
  have n₄ : Json.lookup (js "expires_at") fs = none := h _ (by decide)
  simp only [withFields, jsonFields, List.foldl_cons, List.foldl_nil]
  set f₁ := Json.setField (js "schema") schema fs with h₁
  set f₂ := Json.setField (js "revision") r₀ f₁ with h₂
  set f₃ := Json.setField (js "updated_at") u₀ f₂ with h₃
  set f₄ := Json.setField (js "expires_at") e₀ f₃ with h₄
  set f₅ := Json.setField (js "revision") r f₄ with h₅
  set f₆ := Json.setField (js "updated_at") u f₅ with h₆
  have l₂ : Json.lookup (js "revision") f₁ = none := by simp [h₁, Json.lookup_setField, n₂]
  have l₃ : Json.lookup (js "updated_at") f₂ = none := by simp [h₂, h₁, Json.lookup_setField, n₃]
  have l₄ : Json.lookup (js "expires_at") f₃ = none := by simp [h₃, h₂, h₁, Json.lookup_setField, n₄]
  have l₅ : Json.lookup (js "revision") f₄ = some r₀ := by simp [h₄, h₃, h₂, Json.lookup_setField]
  have l₆ : Json.lookup (js "updated_at") f₅ = some u₀ := by simp [h₅, h₄, h₃, Json.lookup_setField]
  have l₇ : Json.lookup (js "expires_at") f₆ = some e₀ := by simp [h₆, h₅, h₄, Json.lookup_setField]
  have s₁ := fieldsSize_setField "schema" schema fs
  have s₂ := fieldsSize_setField "revision" r₀ f₁
  have s₃ := fieldsSize_setField "updated_at" u₀ f₂
  have s₄ := fieldsSize_setField "expires_at" e₀ f₃
  have s₅ := fieldsSize_setField "revision" r f₄
  have s₆ := fieldsSize_setField "updated_at" u f₅
  have s₇ := fieldsSize_setField "expires_at" e f₆
  simp only [n₁, l₂, l₃, l₄, l₅, l₆, l₇, ← h₁, ← h₂, ← h₃, ← h₄, ← h₅, ← h₆, Option.map_none,
    Option.map_some, Option.getD_none, Option.getD_some] at s₁ s₂ s₃ s₄ s₅ s₆ s₇
  omega

theorem isoBytes_eq {t : ℤ} {s : JsString} (h : toISOString E t = .ok s) :
    byteLength (Json.str s).render = isoBytes E t := by
  unfold toISOString at h
  split at h
  · next s' hs =>
    cases h
    rw [isoBytes, hs, Option.map_some, Option.getD_some, Json.render]
  · cases h

/-- **The bytes of the next lease**, from the update it is made of. -/
theorem nextLease_bytes {call : StoreCall} {current : Option (ActiveLeaseV1 E)}
    {update detached lease : Json} {ttlMs : ℤ} (hwf : update.WellFormed E.float)
    (hfree : assertUpdateDoesNotSetGeneratedFields update = .ok ())
    (hdetached : detachLease E update = .ok detached)
    (hnext : nextLease E call current detached ttlMs = .ok lease) : ∃ now, call.now = some now ∧
      (leaseBytes lease).length = updateBytes E update (currentRevision current + 1) now ttlMs := by
  have hlease := (nextLease_ok (detachLease_ok hwf hdetached) hnext).1
  obtain ⟨fs, rfl, habsent⟩ := generated_absent hfree
  -- the caller's members are there: the template is valid
  have hne : fs ≠ [] := by
    rintro rfl
    simp only [detachLease, buildLease, Outcome.bind_ok, Outcome.pure_ok, checkLease,
      Outcome.guard_else] at hdetached
    obtain ⟨template, ⟨updated, -, expires, -, rfl⟩, -, ⟨hvalid, -⟩, -⟩ := hdetached
    simp [validateActiveLease, validateObject, withFields, jsonFields, Json.setField, Json.get, Json.lookup,
      validateString] at hvalid
  have hnow : ∃ now, call.now = some now := by
    rcases hnow : call.now with _ | now
    · simp only [nextLease, hnow, Outcome.guard_ok] at hnext
      obtain ⟨-, hnext⟩ := hnext
      cases hnext
    · exact ⟨now, rfl⟩
  obtain ⟨now, hnow⟩ := hnow
  obtain ⟨updated₀, expires₀, rfl, -⟩ := detachLease_eq hwf hdetached
  simp only [nextLease, hnow, Outcome.guard_ok, Outcome.bind_ok, Outcome.pure_ok] at hnext
  obtain ⟨-, updated, hupdated, expires, hexpires, -, -, rfl⟩ := hnext
  refine ⟨now, hnow, ?_⟩
  set r : Json := .num (.int ((currentRevision current : ℕ) + 1)) with hr
  obtain ⟨gs, hgs, hgsne, hsize⟩ := fieldsSize_generated habsent (.str activeLeaseSchema)
    (.num (.int (1 : ℕ))) (.str updated₀) (.str expires₀) r (.str updated) (.str expires)
  change withFields (jsonFields (withFields (jsonFields (.obj fs)) _)) _ = _ at hgs
  rw [hgs] at hlease ⊢
  have kschema : fieldSize "schema" (.str activeLeaseSchema) = 29 := by decide
  have krevision : byteLength (Json.quote (js "revision")) = 10 := by decide
  have kupdated : byteLength (Json.quote (js "updated_at")) = 12 := by decide
  have kexpires : byteLength (Json.quote (js "expires_at")) = 12 := by decide
  have hdigits : byteLength r.render = Json.digitCount (currentRevision current + 1) := by
    rw [hr, ← render_nat]
    norm_cast
  rw [leaseBytes_length hlease, updateBytes, render_obj_size hlease hgsne, render_obj_size hwf hne, hsize,
    kschema]
  simp only [fieldSize, krevision, kupdated, kexpires, hdigits, isoBytes_eq hupdated, isoBytes_eq hexpires]
  omega

/-! ## What fits -/

/-- The lease that an update makes, on top of what the store holds for its actor, is one
that is read back. -/
def UpdateFits (call : StoreCall) (files : ActiveFiles) (actor : ActiveActorKey) (update : Json)
    (ttlMs : ℤ) : Prop :=
  ∀ p now, actorPath E actor = .ok p → call.now = some now →
    updateBytes E update (currentRevision (committed E files p) + 1) now ttlMs ≤ maxActiveLeaseBytes

/-- What an operation is asked to commit fits into the file of its actor. -/
def ActiveOperation.Fits (files : ActiveFiles) : ActiveOperation E → Prop
  | .write call lease options =>
    @UpdateFits E call files (actorFromLease lease.json) lease.json options.ttlMs
  | .update call actor decide options => ∀ p lease, actorPath E actor = .ok p →
      decide ((committed E files p).map (fun lease => cloneLease E lease.json)) = .ok (.write lease) →
      @UpdateFits E call files actor lease.json options.ttlMs
  | .writeIdle call identity options =>
    @UpdateFits E call files (actorFromLease (idleLeaseJson identity)) (idleLeaseJson identity) options.ttlMs
  | .writeSnapshot _ lease => byteLength lease.json.render + 1 ≤ maxActiveLeaseBytes
  | .reap .. => True

variable (E) in
/-- A write changes nothing, or commits a lease, of a size of which `P` holds. -/
def CommitsSized (files : ActiveFiles) (P : ℕ → Prop) (files' : ActiveFiles) : Prop :=
  files' = files ∨ ∃ p lease, Commits E files p lease ∧
    files' = Function.update files p (some (leaseBytes lease)) ∧ P (leaseBytes lease).length

theorem Writes.sized {files : ActiveFiles} {p : ActivePath} {done : ActiveFiles × Except ActiveFailure Json}
    (h : Writes E files p done) {P : ℕ → Prop}
    (hP : ∀ lease, done.2 = .ok lease → P (leaseBytes lease).length) : CommitsSized E files P done.1 := by
  obtain ⟨files', result⟩ := done
  cases result with
  | error e => exact .inl h
  | ok lease => exact .inr ⟨p, lease, h.1, h.2, hP lease rfl⟩

/-- The lock adds nothing to what is done under it. -/
theorem locked_sized {α : Type} {call : StoreCall} {files : ActiveFiles} {P : ℕ → Prop}
    {operation : ActiveFiles → ActiveFiles × Except ActiveFailure α}
    (h : CommitsSized E files P (operation files).1) :
    CommitsSized E files P (withActiveActorLock call files operation).1 := by
  rcases hlock : withActiveActorLock call files operation with ⟨files', outcome⟩
  rcases withActiveActorLock_cases hlock with ⟨rfl, -⟩ | ⟨e, hop, -⟩ | ⟨result, hop, -⟩
  · exact .inl rfl
  · rwa [hop] at h
  · rwa [hop] at h

theorem writeLocked_ok {call : StoreCall} {p : ActivePath} {detached lease : Json} {wanted : Option ℕ}
    {ttlMs : ℤ} {files : ActiveFiles}
    (h : (writeLocked E call p detached wanted ttlMs files).2 = .ok lease) :
    nextLease E call (committed E files p) detached ttlMs = .ok lease := by
  unfold writeLocked at h
  split at h
  · cases h
  · next current hread =>
    obtain ⟨rfl, -⟩ := readPath_ok hread
    split at h
    · cases h
    · split at h
      · cases h
      · exact replaceWithNext_ok h

/-- The size of a lease that an update has made tells whether the update has fitted. -/
theorem updateFits_iff {call : StoreCall} {files : ActiveFiles} {actor : ActiveActorKey} {p : ActivePath}
    {update detached lease : Json} {ttlMs : ℤ} (hwf : update.WellFormed E.float)
    (hfree : assertUpdateDoesNotSetGeneratedFields update = .ok ())
    (hdetached : detachLease E update = .ok detached) (hp : actorPath E actor = .ok p)
    (hnext : nextLease E call (committed E files p) detached ttlMs = .ok lease) :
    (leaseBytes lease).length ≤ maxActiveLeaseBytes ↔ @UpdateFits E call files actor update ttlMs := by
  obtain ⟨now, hnow, hlen⟩ := nextLease_bytes hwf hfree hdetached hnext
  rw [hlen]
  constructor
  · intro hle p' now' hp' hnow'
    rw [hp] at hp'
    rw [hnow] at hnow'
    cases hp'
    cases hnow'
    exact hle
  · intro hfits
    exact hfits p now hp hnow

/-- The template of a lease targets the actor of the update. -/
theorem actorFromLease_detached {update : JsonInput E} {detached : Json}
    (h : detachLease E update.json = .ok detached) : actorFromLease detached = actorFromLease update.json := by
  obtain ⟨updated, expires, rfl, -⟩ := detachLease_eq update.wellFormed h
  have hkept : ∀ key, key ∉ ["schema", "revision", "updated_at", "expires_at"] →
      textAt key (withFields (jsonFields update.json) [("schema", .str activeLeaseSchema),
        ("revision", .num (.int (1 : ℕ))), ("updated_at", .str updated), ("expires_at", .str expires)]) =
          textAt key update.json := by
    intro key hkey
    rw [textAt, textAt, get_withFields (by simpa using hkey)]
    cases update.json with
    | obj fs => rfl
    | _ => rfl
  rw [actorFromLease, actorFromLease, hkept _ (by decide), hkept _ (by decide), hkept _ (by decide)]

theorem write_sized (call : StoreCall) (update : JsonInput E) (options : WriteOptions) (files : ActiveFiles) :
    CommitsSized E files (fun n => n ≤ maxActiveLeaseBytes ↔
      @UpdateFits E call files (actorFromLease update.json) update.json options.ttlMs)
      (write E call update options files).1 := by
  unfold write
  dsimp only
  split
  · exact .inl rfl
  · next detached wanted p hprepared =>
    simp only [Outcome.bind_ok, Outcome.pure_ok, Prod.mk.injEq] at hprepared
    obtain ⟨⟨⟩, hfree, -, -, -, -, detached', hdetached, p', hp, rfl, -, rfl⟩ := hprepared
    refine locked_sized ((writeLocked_writes (detachLease_ok update.wellFormed hdetached) hp).sized ?_)
    intro lease hlease
    rw [actorFromLease_detached hdetached] at hp
    exact updateFits_iff update.wellFormed hfree hdetached hp (writeLocked_ok hlease)

theorem updateLocked_sized {call : StoreCall} {p : ActivePath} {actor : ActiveActorKey}
    (hp : actorPath E actor = .ok p) (decide : Option Json → Except Failure (ActiveLeaseDecision E))
    (options : UpdateOptions) (files : ActiveFiles) :
    CommitsSized E files (fun n => n ≤ maxActiveLeaseBytes ↔
        (ActiveOperation.update call actor decide options).Fits files)
      (updateLocked E call p actor decide options files).1 := by
  unfold updateLocked
  split
  · exact .inl rfl
  · next current hread =>
    obtain ⟨rfl, -⟩ := readPath_ok hread
    split
    · exact .inl rfl
    · split
      · exact .inl rfl
      · exact .inl rfl
      · next lease hdecision =>
        have hwrites := @updateWrite_writes E call files p actor _ lease options.ttlMs hread hp
        have hsized := hwrites.sized (P := fun n => n ≤ maxActiveLeaseBytes ↔
            (ActiveOperation.update call actor decide options).Fits files) fun new hnew => by
          obtain ⟨detached, hfree, hdetached, hnext⟩ := updateWrite_ok hnew
          rw [updateFits_iff lease.wellFormed hfree hdetached hp hnext]
          constructor
          · intro hfits p' lease' hp' hdecision'
            rw [hp] at hp'
            cases hp'
            rw [hdecision] at hdecision'
            cases hdecision'
            exact hfits
          · exact fun hfits => hfits p lease hp hdecision
        split
        · next files' e hwrite => rwa [hwrite] at hsized
        · next files' new hwrite =>
          rw [hwrite] at hsized
          split
          · exact hsized
          · exact hsized

theorem update_sized (call : StoreCall) (actor : ActiveActorKey)
    (decide : Option Json → Except Failure (ActiveLeaseDecision E)) (options : UpdateOptions)
    (files : ActiveFiles) : CommitsSized E files (fun n => n ≤ maxActiveLeaseBytes ↔
        (ActiveOperation.update call actor decide options).Fits files)
      (update E call actor decide options files).1 := by
  unfold update
  dsimp only
  split
  · exact .inl rfl
  · next p hprepared =>
    simp only [Outcome.bind_ok, Outcome.pure_ok] at hprepared
    obtain ⟨p', hp, -, -, rfl⟩ := hprepared
    have hsized := @locked_sized E _ call files _ _ (@updateLocked_sized E call p' actor hp decide options files)
    split
    · split
      · exact hsized
      · exact hsized
    · exact hsized

theorem writeSnapshotLocked_ok {call : StoreCall} {p : ActivePath} {detached lease : Json}
    {files : ActiveFiles} (h : (writeSnapshotLocked E call p detached files).2 = .ok lease) :
    lease = detached := by
  unfold writeSnapshotLocked at h
  split at h
  · cases h
  · split at h
    · cases h
    · split at h
      · cases h
      · split at h
        · cases h
        · cases h
          rfl

theorem writeSnapshot_sized (call : StoreCall) (lease : JsonInput E) (files : ActiveFiles) :
    CommitsSized E files (fun n => n ≤ maxActiveLeaseBytes ↔
        byteLength lease.json.render + 1 ≤ maxActiveLeaseBytes) (writeSnapshot E call lease files).1 := by
  unfold writeSnapshot
  dsimp only
  split
  · exact .inl rfl
  · next detached p hprepared =>
    simp only [Outcome.bind_ok, Outcome.pure_ok, Prod.mk.injEq, checkLease, Outcome.guard_else] at hprepared
    obtain ⟨-, ⟨hvalid, -⟩, p', hp, rfl, rfl⟩ := hprepared
    have hclone := cloneLease_eq lease.wellFormed
    rw [hclone] at hp ⊢
    refine locked_sized ((writeSnapshotLocked_writes lease.wellFormed hvalid hp).sized fun new hnew => ?_)
    rw [writeSnapshotLocked_ok hnew, leaseBytes_length lease.wellFormed]

/-- **What an operation commits is of a size that is read back** exactly when it fits. -/
theorem operation_sized (op : ActiveOperation E) (files : ActiveFiles) :
    CommitsSized E files (fun n => n ≤ maxActiveLeaseBytes ↔ op.Fits files) (op.run files).1 ∨
      ∀ p, (op.run files).1 p = files p ∨ (op.run files).1 p = none := by
  cases op with
  | write call lease options => exact .inl (write_sized call lease options files)
  | update call actor decide options => exact .inl (update_sized call actor decide options files)
  | writeIdle call identity options => exact .inl (write_sized call (idleLeaseUpdate identity) options files)
  | writeSnapshot call lease => exact .inl (writeSnapshot_sized call lease files)
  | reap now listing calls =>
    rcases now with _ | now
    · exact .inr fun p => .inl rfl
    · refine .inr fun p => ?_
      rcases listing with e | entries
      · exact .inl rfl
      · exact (@reapLoop_reaped E calls now entries 0 files p).imp id (·.1)

/-! ## Runs -/

variable (E) in
/-- The next read of the file of an actor succeeds, when the file system lets it. -/
def LeaseReadable (files : ActiveFiles) (p : ActivePath) : Prop :=
  ∀ call : StoreCall, call.read = none → ∃ current, readPath E call files p = .ok current

/-- An operation commits a lease. -/
def ActiveOperation.Accepted (files : ActiveFiles) (op : ActiveOperation E) : Prop :=
  ∃ p, (op.run files).1 p ≠ files p ∧ (op.run files).1 p ≠ none

theorem readable_congr {files files' : ActiveFiles} {p : ActivePath} (h : files' p = files p) :
    LeaseReadable E files' p ↔ LeaseReadable E files p := by
  simp only [LeaseReadable, readPath, h]

/-- A lease that is committed is read back when it is small enough. -/
theorem readable_commit {files : ActiveFiles} {p : ActivePath} {lease : Json} (h : Commits E files p lease) :
    LeaseReadable E (Function.update files p (some (leaseBytes lease))) p ↔
      (leaseBytes lease).length ≤ maxActiveLeaseBytes := by
  have hparse := committed_commit h
  rw [committed, Function.update_self, Option.bind_some, Outcome.toOption_some] at hparse
  by_cases hlen : (leaseBytes lease).length > maxActiveLeaseBytes
  · refine ⟨fun hread => ?_, fun hle => by omega⟩
    obtain ⟨current, hcurrent⟩ := hread { now := none } rfl
    simp only [readPath, Function.update_self, if_pos hlen] at hcurrent
    cases hcurrent
  · refine ⟨fun _ => by omega, fun _ call hcall => ?_⟩
    simp only [readPath, hcall, Function.update_self, if_neg hlen, hparse]
    exact ⟨_, rfl⟩

/-- A commit changes the file: its revision is newer. -/
theorem commit_ne {files : ActiveFiles} {p : ActivePath} {lease : Json} (h : Commits E files p lease) :
    some (leaseBytes lease) ≠ files p := by
  intro hsame
  have hcommitted := committed_commit h
  rw [hsame, Function.update_eq_self] at hcommitted
  have hnewer := (h.newer _ hcommitted).1
  exact absurd hnewer (lt_irrefl _)

/-- **One operation** keeps the leases readable exactly when what it commits fits. -/
theorem readable_step {op : ActiveOperation E} {files : ActiveFiles} (hall : ∀ p, LeaseReadable E files p) :
    (∀ p, LeaseReadable E (op.run files).1 p) ↔ (op.Accepted files → op.Fits files) := by
  rcases operation_sized op files with (hsame | ⟨p, lease, hcommit, hfiles, hsize⟩) | hreaped
  · refine ⟨fun _ haccepted => ?_, fun _ p => ?_⟩
    · obtain ⟨p, hchanged, -⟩ := haccepted
      exact absurd (congrFun hsame p) hchanged
    · rw [hsame]
      exact hall p
  · have haccepted : op.Accepted files := by
      refine ⟨p, ?_, ?_⟩
      · rw [hfiles, Function.update_self]
        exact commit_ne hcommit
      · rw [hfiles, Function.update_self]
        simp
    rw [hfiles]
    refine ⟨fun hread _ => hsize.1 ((readable_commit hcommit).1 (hread p)), fun hfits q => ?_⟩
    by_cases hq : q = p
    · subst hq
      exact (readable_commit hcommit).2 (hsize.2 (hfits haccepted))
    · exact (readable_congr (Function.update_of_ne hq _ _)).2 (hall q)
  · refine ⟨fun _ haccepted => ?_, fun _ p => ?_⟩
    · obtain ⟨p, hchanged, hthere⟩ := haccepted
      exact absurd (hreaped p) (not_or.2 ⟨hchanged, hthere⟩)
    · rcases hreaped p with hsame | hgone
      · exact (readable_congr hsame).2 (hall p)
      · intro call hcall
        exact ⟨none, by simp only [readPath, hcall, hgone]⟩

/-- **Leases stay readable exactly as long as what is committed fits**: in every run, every
file is readable after every step if and only if each operation that has committed a lease
was asked for one that fits. -/
theorem leases_readable_iff (ops : List (ActiveOperation E)) (files : ActiveFiles)
    (hstart : ∀ p, LeaseReadable E files p) :
    (∀ before after, ops = before ++ after → ∀ p, LeaseReadable E (runOperations before files) p) ↔
      ∀ before op after, ops = before ++ op :: after → op.Accepted (runOperations before files) →
        op.Fits (runOperations before files) := by
  induction ops generalizing files with
  | nil =>
    refine ⟨fun _ before op after h => by simp at h, fun _ before after h p => ?_⟩
    obtain ⟨rfl, -⟩ := List.append_eq_nil_iff.1 h.symm
    exact hstart p
  | cons op ops ih =>
    have hstep := @readable_step E op files hstart
    constructor
    · intro hread before op' after h
      have hnext := hread [op] ops rfl
      cases before with
      | nil =>
        obtain ⟨rfl, rfl⟩ := List.cons.inj h
        exact hstep.1 hnext
      | cons first before =>
        obtain ⟨rfl, rfl⟩ := List.cons.inj h
        refine (ih _ hnext).1 (fun before' after' h' => ?_) before op' after rfl
        exact hread (op :: before') after' (by rw [h', List.cons_append])
    · intro hfits before after h
      have hnext := hstep.2 (hfits [] op ops rfl)
      cases before with
      | nil => exact hstart
      | cons first before =>
        obtain ⟨rfl, rfl⟩ := List.cons.inj h
        refine (ih _ hnext).2 (fun before' op' after' h' => ?_) before after rfl
        exact hfits (op :: before') op' after' (by rw [h', List.cons_append])

theorem readable_empty (p : ActivePath) : LeaseReadable E (fun _ => none) p :=
  fun call hcall => ⟨none, by simp only [readPath, hcall]⟩

def samplePath : ActivePath := ⟨sampleActor.provider, activeActorFilename leaseHost sampleActor⟩

/-- A tombstone is read back. -/
theorem leases_readable_idle : LeaseReadable leaseHost
    (runOperations [.write { now := some 1000 } sampleUpdate {}] (fun _ => none)) samplePath := by
  refine (leases_readable_iff [.write { now := some 1000 } sampleUpdate {}] _ readable_empty).2 ?_ _ [] rfl _
  intro before op after h _
  obtain ⟨rfl, rfl, rfl⟩ : before = [] ∧ op = .write { now := some 1000 } sampleUpdate {} ∧ after = [] := by
    cases before with
    | nil =>
      obtain ⟨hop, hafter⟩ := List.cons.inj h
      exact ⟨rfl, hop.symm, hafter.symm⟩
    | cons first before => simp at h
  rintro q now - ⟨⟩
  have hbytes : updateBytes leaseHost sampleUpdate.json 1 1000 defaultTtlMs ≤ maxActiveLeaseBytes := by
    decide +kernel
  exact hbytes

/-! ## A lease that is too large -/

def sampleLeaseId : JsString := js "lease_" ++ List.replicate 32 48

/-- The members of a lease of work with an intent of any length. -/
def largeFields (text : JsString) : List (JsString × Json) :=
  [(js "lease_id", .str sampleLeaseId), (js "provider", .str sampleActor.provider),
    (js "session_id", .str sampleActor.sessionId), (js "agent_id", .str sampleActor.agentId),
    (js "state", .str (js "working")),
    (js "intent", .obj [(js "text", .str text), (js "fidelity", .str (js "verbatim")),
      (js "truncated", .bool false), (js "redactions", .arr [])]),
    (js "claims", .arr []), (js "unknown_write_scope", .bool false)]

def largeUpdate (text : JsString) : JsonInput leaseHost where
  json := .obj (largeFields text)
  wellFormed := by
    simp [largeFields, Json.WellFormed, Json.WellFormedFields, Json.WellFormedItems]

/-- The lease with its generated members. -/
def largeLease (text : JsString) (updatedAt expiresAt : JsString) : Json :=
  .obj (largeFields text ++ [(js "schema", .str activeLeaseSchema), (js "revision", .num (.int 1)),
    (js "updated_at", .str updatedAt), (js "expires_at", .str expiresAt)])

/-- The validator does not look at the length of a text. -/
theorem largeLease_valid (text : JsString) {updatedAt expiresAt : JsString} {updated expires : ℤ}
    (hupdated : timestampMillis (some (.str updatedAt)) (leasePath "updated_at") leaseHost = ([], some updated))
    (hexpires : timestampMillis (some (.str expiresAt)) (leasePath "expires_at") leaseHost = ([], some expires))
    (hlife : updated < expires) : validateActiveLease leaseHost (largeLease text updatedAt expiresAt) = [] := by
  have hid : isLeaseId sampleLeaseId = true ∧ sampleLeaseId ≠ [] := by decide
  have hactor : isProvider sampleActor.provider = true ∧ isSessionId sampleActor.sessionId = true ∧
      sampleActor.agentId ≠ [] ∧ sampleActor.provider ≠ [] ∧ sampleActor.sessionId ≠ [] := by decide
  have hrevision : isSafeInteger 1 (some (.num (.int 1))) = true := by decide
  simp [largeLease, largeFields, validateActiveLease, validateObject, rejectUnknownKeys, topLevelKeys,
    validateJsonValue, validateJsonFields, validateJsonItems, isInfinite, Json.get, Json.lookup, validateString,
    hid, hactor, validateOptional, validateEnum, equalsText, validateContent, isString, validateBoolean,
    isBoolean, isTrue, validateArray, validateSafeInteger, hrevision, hupdated, hexpires, validateLifetime,
    not_le.2 hlife, anyText]

theorem largeLease_length (text updatedAt expiresAt : JsString) :
    text.length < (leaseBytes (largeLease text updatedAt expiresAt)).length := by
  have hrender : text.length < ((largeLease text updatedAt expiresAt).render ++ [10]).length := by
    have hescape := escape_length text
    simp only [largeLease, largeFields, Json.render, Json.renderFields, List.cons_append, List.nil_append,
      List.length_append, List.length_cons, Json.quote]
    omega
  exact hrender.trans_le (length_le_byteLength _)

/-- The first write of the actor. -/
def largeWrite (text : JsString) : ActiveOperation leaseHost :=
  .write { now := some 1000 } (largeUpdate text) {}

theorem samplePath_eq : actorPath leaseHost sampleActor = .ok samplePath := by
  have hvalid : validateActiveActorKey sampleActor = [] := by decide
  rw [actorPath, if_pos hvalid]
  rfl

theorem largeLease_actor (text updatedAt expiresAt : JsString) :
    actorFromLease (largeLease text updatedAt expiresAt) = sampleActor := by
  simp [actorFromLease, textAt, largeLease, largeFields, Json.get, Json.lookup]

/-- The first write of an actor. -/
theorem write_first {call : StoreCall} {update : JsonInput E} {detached lease : Json} {p : ActivePath}
    (hlock : call.lock = none) (hread : call.read = none) (hreplace : call.replace = none)
    (hfree : assertUpdateDoesNotSetGeneratedFields update.json = .ok ())
    (hdetached : detachLease E update.json = .ok detached)
    (hpath : actorPath E (actorFromLease detached) = .ok p)
    (hnext : nextLease E call none detached defaultTtlMs = .ok lease) :
    (write E call update {} fun _ => none).1 =
      Function.update (fun _ => none) p (some (leaseBytes lease)) := by
  have httl : positiveTtl defaultTtlMs = .ok defaultTtlMs := by decide
  have hwanted : expectedRevision none = .ok none := rfl
  have hlocked : writeLocked E call p detached none defaultTtlMs (fun _ => none) =
      (Function.update (fun _ => none) p (some (leaseBytes lease)), .ok lease) := by
    simp only [writeLocked, readPath, hread, assertCurrentIdentity, Option.filter_none, replaceWithNext, hnext,
      atomicReplace, hreplace]
  simp only [write, hfree, httl, hwanted, hdetached, hpath, Outcome.ok_bind, pure, Except.pure,
    withActiveActorLock, hlock, hlocked]
  split
  · rfl
  · rfl

/-- The lease with its stand-ins. -/
def largeTemplate (text : JsString) : Json :=
  largeLease text (js "1970-01-01T00:00:00.000Z") (js "1970-01-01T00:00:00.001Z")

/-- The lease that is committed. -/
def largeCommitted (text : JsString) : Json :=
  largeLease text (js "1970-01-01T00:00:01.000Z") (js "1970-01-01T00:05:01.000Z")

theorem largeTemplate_detached (text : JsString) :
    detachLease leaseHost (largeUpdate text).json = .ok (largeTemplate text) := by
  have h0 : toISOString leaseHost 0 = .ok (js "1970-01-01T00:00:00.000Z") := by decide
  have h1 : toISOString leaseHost 1 = .ok (js "1970-01-01T00:00:00.001Z") := by decide
  have hbuild : buildLease leaseHost (largeUpdate text).json 1 0 1 = .ok (largeTemplate text) := by
    rw [buildLease, h0, h1]
    simp only [Outcome.ok_bind]
    rw [largeTemplate]
    simp [largeUpdate, largeLease, largeFields, withFields, jsonFields, Json.setField]
  have hvalid : validateActiveLease leaseHost (largeTemplate text) = [] :=
    @largeLease_valid text _ _ 0 1 (by decide) (by decide) (by decide)
  have hwf : (largeTemplate text).WellFormed leaseHost.float := by
    simp [largeTemplate, largeLease, largeFields, Json.WellFormed, Json.WellFormedFields,
      Json.WellFormedItems, Json.Number.Canonical, Json.maxSafe]
  rw [detachLease, hbuild]
  simp only [Outcome.ok_bind, checkLease, if_pos hvalid, cloneLease_eq hwf]
  rfl

theorem largeTemplate_next (text : JsString) :
    nextLease leaseHost { now := some 1000 } none (largeTemplate text) defaultTtlMs =
      .ok (largeCommitted text) := by
  have h2 : toISOString leaseHost 1000 = .ok (js "1970-01-01T00:00:01.000Z") := by decide
  have h3 : toISOString leaseHost (1000 + defaultTtlMs) = .ok (js "1970-01-01T00:05:01.000Z") := by
    decide
  have hfields : withFields (jsonFields (largeTemplate text)) [("revision", .num (.int ((0 : ℕ) + 1))),
      ("updated_at", .str (js "1970-01-01T00:00:01.000Z")),
      ("expires_at", .str (js "1970-01-01T00:05:01.000Z"))] = largeCommitted text := by
    rw [largeTemplate, largeCommitted]
    simp [largeLease, largeFields, withFields, jsonFields, Json.setField]
  have hvalid : validateActiveLease leaseHost (largeCommitted text) = [] :=
    @largeLease_valid text _ _ 1000 301000 (by decide) (by decide) (by decide)
  have hrevision : currentRevision (none : Option (ActiveLeaseV1 leaseHost)) = 0 := rfl
  rw [nextLease, hrevision, if_neg (by decide)]
  simp only [h2, h3, Outcome.ok_bind, hfields, checkLease, if_pos hvalid]
  rfl

/-- **The write commits the lease**, whatever the length of the text. -/
theorem largeWrite_run (text : JsString) : ((largeWrite text).run fun _ => none).1 =
    Function.update (fun _ => none) samplePath (some (leaseBytes (largeCommitted text))) := by
  have hfree : assertUpdateDoesNotSetGeneratedFields (largeUpdate text).json = .ok () := by
    simp [assertUpdateDoesNotSetGeneratedFields, generatedFields, largeUpdate, largeFields, isObject, Json.get,
      Json.lookup]
  have hpath : actorPath leaseHost (actorFromLease (largeTemplate text)) = .ok samplePath := by
    rw [largeTemplate, largeLease_actor, samplePath_eq]
  have hrun : ((largeWrite text).run fun _ => none).1 =
      (write leaseHost { now := some 1000 } (largeUpdate text) {} fun _ => none).1 := by
    rw [largeWrite, ActiveOperation.run, Prod.map_fst, id]
  rw [hrun]
  exact write_first rfl rfl rfl hfree (largeTemplate_detached text) hpath (largeTemplate_next text)

/-- **A lease that is committed and cannot be read**: nothing bounds the length of a text. -/
theorem large_lease_unreadable : ¬ ∀ (ops : List (ActiveOperation leaseHost)) (p : ActivePath),
    LeaseReadable leaseHost (runOperations ops (fun _ => none)) p := by
  intro hall
  obtain ⟨text, htext⟩ : ∃ text : JsString, text.length = 1024 * 1024 :=
    ⟨List.replicate (1024 * 1024) 97, List.length_replicate⟩
  obtain ⟨current, hread⟩ := hall [largeWrite text] samplePath { now := none } rfl
  have hlen := largeLease_length text (js "1970-01-01T00:00:01.000Z") (js "1970-01-01T00:05:01.000Z")
  have hlarge : (leaseBytes (largeCommitted text)).length > maxActiveLeaseBytes := by
    rw [htext] at hlen
    exact hlen
  simp only [runOperations, readPath, largeWrite_run, Function.update_self, if_pos hlarge] at hread
  cases hread

end Barbaro.Active
