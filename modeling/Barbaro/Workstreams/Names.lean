import Barbaro.Workstreams.RecordSize

/-!
# Workstream names stay consistent

A run starts from a store without records, whatever its claims say, and takes operations
under the lock, each cut after any of its writes. What has been created is remembered
beside the files.

* `Inv`: every creation has its record, its claim and a name of its own.
* `Run.inv`: every state of a run whose steps write what the store can read has it.
* `names_consistent`: in such a state a name resolves exactly when it was created, to what
  was created.
* `long_provider_lost`: a record the store cannot read is lost at once.
-/

namespace Barbaro.Workstreams

/-! ## Runs -/

/-- An operation, with the id it draws. -/
inductive Operation
  | create (options : CreateWorkstreamOptions) (random : ℕ)
  | setStatus (reference : JsString) (status : WorkstreamStatus) (now : Option ℤ)
  deriving DecidableEq, Repr

section
variable (E : Host)

def Operation.perform (files : StoreFiles) : Operation → Except WorkstreamFailure (List Write × Json)
  | .create options random => Workstreams.create E files options random
  | .setStatus reference status now => Workstreams.setStatus E files reference status now

/-- The files when an operation has ended, or has stopped after some of its writes. -/
def Operation.after (files : StoreFiles) (op : Operation) (written : ℕ) : StoreFiles :=
  match op.perform E files with
  | .ok (writes, _) => applyWrites files (writes.take written)
  | .error _ => files

/-- The creation whose record an operation has written. -/
def Operation.created (files : StoreFiles) (op : Operation) (written : ℕ) : List Creation :=
  match op with
  | .create options random =>
    match creationOf E options random, Workstreams.create E files options random with
    | .ok c, .ok _ => if 2 ≤ written then [c] else []
    | _, _ => []
  | .setStatus .. => []

/-- A drawn id is new to the store: no record has it and no claim points at it. -/
def Operation.Fresh (files : StoreFiles) : Operation → Prop
  | .create _ random => files.records (newWorkstreamId random) = none ∧
      ∀ name bytes, files.claims name = some bytes →
        claimedId E (bytesToString bytes) ≠ some (newWorkstreamId random)
  | .setStatus .. => True

/-- **What keeps a record readable**: a new one, of a name that is free, has at most as many
bytes as are read, and a change of status neither makes it larger than that nor exhausts
its revision. -/
def Operation.Readable (files : StoreFiles) : Operation → Prop
  | .create options random => ∀ c, creationOf E options random = .ok c →
      resolveName E files c.name = .ok none → c.bytes ≤ maxRecordBytes
  | .setStatus reference status now => ∀ r t, resolve E files reference = .ok (some r) →
      timestampOf E now = .ok t → textAt "status" r ≠ status.text →
      intAt "revision" r < maxSafeInteger ∧
        (fileBytes r).length + statusBytes status.text t (intAt "revision" r + 1) ≤
          maxRecordBytes + statusBytes (textAt "status" r) (textAt "updated_at" r) (intAt "revision" r)

/-- A run of operations that each meet `ok`, and what they have created. -/
inductive Run (ok : StoreFiles → Operation → Prop) : StoreFiles → List Creation → Prop
  | start (claims : JsString → Option Bytes) : Run ok ⟨claims, fun _ => none⟩ []
  | step {files : StoreFiles} {created : List Creation} (op : Operation) (written : ℕ)
      (h : Run ok files created) (fresh : op.Fresh E files) (hok : ok files op) :
      Run ok (op.after E files written) (created ++ op.created E files written)

end

/-! ## The invariant -/

variable {E : Host}

/-- A record says what its creation said. -/
structure Carries (r : Json) (c : Creation) : Prop where
  workstreamId : r.get (js "workstream_id") = some (.str c.workstreamId)
  name : r.get (js "name") = some (.str c.name)
  title : r.get (js "title") = c.title.map .str
  createdBy : r.get (js "created_by") = some c.createdBy.toJson
  createdAt : r.get (js "created_at") = some (.str c.createdAt)

/-- The record of a creation as its file holds it, with the claim of its name. -/
structure Stored (E : Host) (files : StoreFiles) (c : Creation) (r : Json) : Prop where
  written : Written E.float r
  schema : equalsText workstreamSchema (r.get (js "schema")) = true
  valid : isWorkstream E (some c.workstreamId) r = true
  carries : Carries r c
  fits : (fileBytes r).length ≤ maxRecordBytes
  record : files.records c.workstreamId = some (fileBytes r)
  claim : files.claims c.name = some (fileBytes (nameClaim c.workstreamId))

/-- **The invariant of a run.** -/
structure Inv (E : Host) (files : StoreFiles) (created : List Creation) : Prop where
  ok : ∀ c ∈ created, c.Ok E
  stored : ∀ c ∈ created, ∃ r, Stored E files c r
  only : ∀ id, files.records id ≠ none → ∃ c ∈ created, c.workstreamId = id
  distinct : (created.map (·.name)).Nodup

/-! ## What is read of a stored record -/

theorem isObject_of_get {r v : Json} {k : JsString} (h : r.get k = some v) : isObject (some r) = true := by
  cases r <;> first | rfl | cases h

theorem parse_fileBytes {v : Json} (h : Written E.float v) :
    Json.parse E.float (bytesToString (fileBytes v)) = some v := h.read_line

theorem Stored.get {files : StoreFiles} {c : Creation} {r : Json} (h : Stored E files c r) (hc : c.Ok E) :
    get E files c.workstreamId = .ok (some r) := by
  have hread : readUtf8File (recordPath c.workstreamId) maxRecordBytes (files.records c.workstreamId) =
      .ok (some (bytesToString (fileBytes r))) := by
    rw [h.record, readUtf8File, if_neg (Nat.not_lt.2 h.fits)]
  have hparse : parseWorkstream E (bytesToString (fileBytes r)) (some c.workstreamId) = .ok r := by
    simp only [parseWorkstream, parse_fileBytes h.written, isObject_of_get h.carries.name, h.schema, h.valid,
      Bool.not_true, Bool.false_eq_true, if_false]
  unfold Workstreams.get
  rw [hc.workstreamId]
  simp only [Bool.not_true, Bool.false_eq_true, if_false, hread, Outcome.ok_bind, hparse]
  rfl

theorem claimedId_nameClaim {id : JsString} (h : isWorkstreamId id = true) :
    claimedId E (bytesToString (fileBytes (nameClaim id))) = some id := by
  rw [claimedId, parse_fileBytes (nameClaim_written id)]
  simp [textAt?, nameClaim, Json.get, Json.lookup, h]

theorem nameClaim_fits {id : JsString} (h : isWorkstreamId id = true) :
    (fileBytes (nameClaim id)).length ≤ maxClaimBytes := by
  have hkey : byteLength (Json.quote (js "workstream_id")) = 15 := by decide
  obtain ⟨hplain, hlen⟩ := isId_plain (List.all_eq_true.1 (by decide)) h
  have htag : (js "ws").length = 2 := by decide
  have hquote := hplain.quote_size
  obtain ⟨hwell, hsize⟩ := @stable_obj [(js "workstream_id", .str id)] (by simp)
    (by simp [stable_str_wellFormed])
  simp only [List.map_cons, List.map_nil, List.sum_cons, List.sum_nil, memberSize, hkey] at hsize
  have hid : stableSize (.str id) = byteLength (Json.quote id) := by rw [stableSize, stable_str]
  rw [nameClaim, fileBytes_length hwell, hsize, hid]
  unfold maxClaimBytes
  omega

theorem resolveName_of_claim {files : StoreFiles} {name id : JsString} (hid : isWorkstreamId id = true)
    (hclaim : files.claims name = some (fileBytes (nameClaim id))) : resolveName E files name =
      match get E files id with
      | .ok (some record) =>
        .ok (if textAt? "name" record = some name then some record else none)
      | _ => .ok none := by
  have hread : readUtf8File (claimPath name) maxClaimBytes (files.claims name) =
      .ok (some (bytesToString (fileBytes (nameClaim id)))) := by
    rw [hclaim, readUtf8File, if_neg (Nat.not_lt.2 (nameClaim_fits hid))]
  simp only [resolveName, hread, Outcome.ok_bind, claimedId_nameClaim hid]
  rcases get E files id with e | (_ | r)
  · rfl
  · rfl
  · rfl

theorem Carries.textAt_name {r : Json} {c : Creation} (h : Carries r c) : textAt? "name" r = some c.name := by
  rw [textAt?, h.name]

theorem Stored.resolveName {files : StoreFiles} {c : Creation} {r : Json} (h : Stored E files c r)
    (hc : c.Ok E) : resolveName E files c.name = .ok (some r) := by
  rw [resolveName_of_claim hc.workstreamId h.claim, h.get hc]
  simp only [h.carries.textAt_name, if_true]

/-- A name does not have the form of an id. -/
theorem not_id_of_name {name : JsString} (h : isWorkstreamName name = true) : isWorkstreamId name = false := by
  simp only [isWorkstreamName, Bool.and_eq_true, List.all_eq_true] at h
  have hunits := h.1.1.2
  rw [Bool.eq_false_iff]
  intro hid
  obtain ⟨digits, rfl, -⟩ := isId_cut hid
  have hbar := hunits 95 (by simp)
  exact absurd hbar (by decide)

theorem resolve_name {files : StoreFiles} {name : JsString} (h : isWorkstreamName name = true) :
    resolve E files name = resolveName E files name := by
  rw [resolve, not_id_of_name h, h]
  rfl

theorem resolve_id {files : StoreFiles} {id : JsString} (h : isWorkstreamId id = true) :
    resolve E files id = get E files id := by
  rw [resolve, if_pos h]

section
variable {files : StoreFiles} {created : List Creation}

/-- A record that is read is one of a creation. -/
theorem Inv.get_some (h : Inv E files created) {id : JsString} {r : Json}
    (hget : get E files id = .ok (some r)) : ∃ c ∈ created, c.workstreamId = id ∧ Stored E files c r := by
  have hfile : files.records id ≠ none := by
    intro hnone
    unfold get at hget
    rw [hnone] at hget
    split at hget
    · cases hget
    · cases hget
  obtain ⟨c, hc, rfl⟩ := h.only id hfile
  obtain ⟨s, hs⟩ := h.stored c hc
  rw [hs.get (h.ok c hc)] at hget
  cases hget
  exact ⟨c, hc, rfl, hs⟩

/-- What a claim points at when its name resolves. -/
theorem resolveName_some {name : JsString} {r : Json} (h : resolveName E files name = .ok (some r)) :
    ∃ bytes id, files.claims name = some bytes ∧ claimedId E (bytesToString bytes) = some id ∧
      get E files id = .ok (some r) ∧ textAt? "name" r = some name := by
  unfold resolveName at h
  rcases hc : files.claims name with _ | bytes
  · rw [hc] at h
    cases h
  · rw [hc] at h
    simp only [readUtf8File] at h
    split at h
    · cases h
    · simp only [Outcome.ok_bind] at h
      refine ⟨bytes, ?_⟩
      rcases hid : claimedId E (bytesToString bytes) with _ | id
      · rw [hid] at h
        cases h
      · simp only [hid] at h
        rcases hget : get E files id with e | (_ | record)
        · simp only [hget] at h
          cases h
        · simp only [hget] at h
          cases h
        · simp only [hget, Outcome.pure_ok] at h
          split at h
          · next hname =>
            cases h
            exact ⟨id, rfl, rfl, hget, hname⟩
          · cases h

/-- **A name resolves to what was created under it.** -/
theorem Inv.resolveName_some (h : Inv E files created) {name : JsString} {r : Json}
    (hr : resolveName E files name = .ok (some r)) : ∃ c ∈ created, c.name = name ∧ Stored E files c r := by
  obtain ⟨-, id, -, -, hget, hname⟩ := Workstreams.resolveName_some hr
  obtain ⟨c, hc, -, hs⟩ := h.get_some hget
  rw [hs.carries.textAt_name] at hname
  exact ⟨c, hc, Option.some.inj hname, hs⟩

/-- A name has one creation. -/
theorem Inv.name_inj (h : Inv E files created) {a b : Creation} (ha : a ∈ created) (hb : b ∈ created)
    (hname : a.name = b.name) : a = b := List.inj_on_of_nodup_map h.distinct ha hb hname

/-! ## Steps -/

/-- A change of the claim of a name that was not created is not seen. -/
theorem Inv.reclaim (h : Inv E files created) {name : JsString} (value : Json)
    (hnew : ∀ c ∈ created, c.name ≠ name) : Inv E (Write.apply files (.claim name value)) created where
  ok := h.ok
  only := h.only
  distinct := h.distinct
  stored c hc := by
    obtain ⟨r, hr⟩ := h.stored c hc
    refine ⟨r, hr.written, hr.schema, hr.valid, hr.carries, hr.fits, hr.record, ?_⟩
    rw [← hr.claim]
    exact Function.update_of_ne (hnew c hc) _ _

theorem Creation.carries (c : Creation) : Carries c.record c := by
  obtain ⟨id, name, title, createdBy, createdAt⟩ := c
  rcases title with _ | t
  · constructor <;> simp [Creation.record, optionalMember, Json.get, Json.lookup]
  · constructor <;> simp [Creation.record, optionalMember, Json.get, Json.lookup]

theorem WorkstreamCreator.Ok.isCreator {w : WorkstreamCreator} (h : w.Ok) :
    isCreator (some w.toJson) = true := by
  cases w with
  | cli => simp [Workstreams.isCreator, toJson, Json.lookup, equalsText]
  | session provider sessionId =>
    simp [Workstreams.isCreator, toJson, Json.lookup, equalsText, isPattern, h.1, h.2]

/-- The record of a creation is a valid one. -/
theorem Creation.Ok.valid {c : Creation} (h : c.Ok E) : isWorkstream E (some c.workstreamId) c.record = true := by
  have hcarries := c.carries
  have hstatus : c.record.get (js "status") = some (.str WorkstreamStatus.open.text) := by
    rcases ht : c.title with _ | t <;> simp [Creation.record, optionalMember, Json.get, Json.lookup, ht]
  have hupdated : c.record.get (js "updated_at") = some (.str c.createdAt) := by
    rcases ht : c.title with _ | t <;> simp [Creation.record, optionalMember, Json.get, Json.lookup, ht]
  have hrevision : c.record.get (js "revision") = some (natJson 1) := by
    rcases ht : c.title with _ | t <;> simp [Creation.record, optionalMember, Json.get, Json.lookup, ht]
  have htitle : isOptional isString (c.title.map Json.str) = true := by
    rcases c.title with _ | t <;> rfl
  have hone : isSafePositiveInteger (some (natJson 1)) = true := by decide
  simp only [isWorkstream, hcarries.workstreamId, hcarries.name, hcarries.title, hcarries.createdBy,
    hcarries.createdAt, hstatus, hupdated, hrevision, htitle, hone, h.createdBy.isCreator, isPattern, isDate,
    isStatus, equalsText, h.workstreamId, h.name, h.createdAt.1, Option.all_some, beq_self_eq_true,
    Bool.true_or, Bool.and_self]

/-- **A creation that is written is one.** -/
theorem Inv.add (h : Inv E files created) {c : Creation} (hc : c.Ok E) (hfits : c.bytes ≤ maxRecordBytes)
    (hnew : ∀ d ∈ created, d.name ≠ c.name) (hid : files.records c.workstreamId = none) :
    Inv E (applyWrites files c.writes) (created ++ [c]) := by
  have hfiles : applyWrites files c.writes =
      ⟨Function.update files.claims c.name (some (fileBytes (nameClaim c.workstreamId))),
        Function.update files.records c.workstreamId (some (fileBytes c.record))⟩ := rfl
  rw [hfiles]
  refine ⟨?_, ?_, ?_, ?_⟩
  · intro d hd
    rcases List.mem_append.1 hd with hd | hd
    · exact h.ok d hd
    · rw [List.mem_singleton.1 hd]
      exact hc
  · intro d hd
    rcases List.mem_append.1 hd with hd | hd
    · obtain ⟨r, hr⟩ := h.stored d hd
      have hne : d.workstreamId ≠ c.workstreamId := by
        intro heq
        have hrecord := hr.record
        rw [heq, hid] at hrecord
        cases hrecord
      refine ⟨r, hr.written, hr.schema, hr.valid, hr.carries, hr.fits, ?_, ?_⟩
      · rw [← hr.record]
        exact Function.update_of_ne hne _ _
      · rw [← hr.claim]
        exact Function.update_of_ne (hnew d hd) _ _
    · rw [List.mem_singleton.1 hd]
      have hschema : equalsText workstreamSchema (c.record.get (js "schema")) = true := by
        rcases ht : c.title with _ | t <;>
          simp [Creation.record, optionalMember, Json.get, Json.lookup, equalsText, ht]
      refine ⟨c.record, c.written, hschema, hc.valid, c.carries, ?_, ?_, ?_⟩
      · rw [c.fileBytes_length]
        exact hfits
      · exact Function.update_self _ _ _
      · exact Function.update_self _ _ _
  · intro id hrecord
    by_cases heq : id = c.workstreamId
    · exact ⟨c, by simp, heq.symm⟩
    · have hold : files.records id ≠ none := by
        have hsame : Function.update files.records c.workstreamId (some (fileBytes c.record)) id =
            files.records id := Function.update_of_ne heq _ _
        rw [← hsame]
        exact hrecord
      obtain ⟨d, hd, hdid⟩ := h.only id hold
      exact ⟨d, List.mem_append_left _ hd, hdid⟩
  · rw [List.map_append, List.nodup_append]
    refine ⟨h.distinct, by simp, fun a ha b hb => ?_⟩
    obtain ⟨d, hd, rfl⟩ := List.mem_map.1 ha
    rw [List.map_singleton, List.mem_singleton] at hb
    rw [hb]
    exact hnew d hd

/-- The members of a record that a change of status reads and replaces. -/
theorem Stored.members {c : Creation} {r : Json} (h : Stored E files c r) : ∃ fs old updated z, r = .obj fs ∧
    Json.lookup (js "status") fs = some (.str old) ∧ Json.lookup (js "updated_at") fs = some (.str updated) ∧
    Json.lookup (js "revision") fs = some (.num (.int z)) ∧ 1 ≤ z := by
  have hvalid := h.valid
  simp only [isWorkstream, Bool.and_eq_true] at hvalid
  obtain ⟨⟨⟨⟨-, hstatus⟩, -⟩, hupdated⟩, hrevision⟩ := hvalid.1
  obtain ⟨fs, rfl⟩ : ∃ fs, r = .obj fs := by
    have hname := h.carries.name
    cases r <;> first | exact ⟨_, rfl⟩ | cases hname
  simp only [Json.get] at hstatus hupdated hrevision
  have hold : ∃ old, Json.lookup (js "status") fs = some (.str old) := by
    rw [isStatus, Bool.or_eq_true] at hstatus
    rcases hs : Json.lookup (js "status") fs with _ | v
    · rw [hs] at hstatus
      simp [equalsText] at hstatus
    · rw [hs] at hstatus
      cases v <;> simp [equalsText] at hstatus ⊢
  have hat : ∃ updated, Json.lookup (js "updated_at") fs = some (.str updated) := by
    rcases hs : Json.lookup (js "updated_at") fs with _ | v
    · rw [hs] at hupdated
      simp [isDate] at hupdated
    · rw [hs] at hupdated
      cases v <;> simp [isDate] at hupdated ⊢
  have hz : ∃ z, Json.lookup (js "revision") fs = some (.num (.int z)) ∧ 1 ≤ z := by
    unfold isSafePositiveInteger isSafeInteger at hrevision
    split at hrevision
    · next z heq =>
      rw [Bool.and_eq_true, decide_eq_true_eq] at hrevision
      exact ⟨z, heq, hrevision.1⟩
    · cases hrevision
  obtain ⟨old, hold⟩ := hold
  obtain ⟨updated, hat⟩ := hat
  obtain ⟨z, hz, hpos⟩ := hz
  exact ⟨fs, old, updated, z, rfl, hold, hat, hz, hpos⟩

/-- **A change of status that stays readable** leaves everything else of the record. -/
theorem Stored.withStatus {c : Creation} {r : Json} (h : Stored E files c r) {status : WorkstreamStatus}
    {t : JsString} (hdate : (E.dateParse t).isSome = true) (hrevision : intAt "revision" r < maxSafeInteger)
    (hbytes : (fileBytes r).length + statusBytes status.text t (intAt "revision" r + 1) ≤
      maxRecordBytes + statusBytes (textAt "status" r) (textAt "updated_at" r) (intAt "revision" r))
    {files' : StoreFiles} (hclaims : files'.claims = files.claims)
    (hrecord : files'.records c.workstreamId = some (fileBytes (withStatus r status t))) :
    Stored E files' c (withStatus r status t) := by
  obtain ⟨fs, old, updated, z, rfl, hold, hat, hz, hpos⟩ := h.members
  have hint : intAt "revision" (.obj fs) = z := by simp [intAt, Json.get, hz]
  have hstatus : textAt "status" (.obj fs) = old := by simp [textAt, Json.get, hold]
  have hupdated : textAt "updated_at" (.obj fs) = updated := by simp [textAt, Json.get, hat]
  rw [hint] at hrevision
  rw [hint, hstatus, hupdated] at hbytes
  obtain ⟨hwritten, hsize⟩ := withStatus_bytes h.written ⟨hpos, hrevision⟩ hold hat hz status t
  -- what is not replaced is read as before
  have hother : ∀ k, k ≠ js "status" → k ≠ js "updated_at" → k ≠ js "revision" →
      (Workstreams.withStatus (.obj fs) status t).get k = (Json.obj fs).get k := by
    intro k h1 h2 h3
    simp only [Workstreams.withStatus, Json.get]
    rw [Json.lookup_setField, if_neg (Ne.symm h3), Json.lookup_setField, if_neg (Ne.symm h2),
      Json.lookup_setField, if_neg (Ne.symm h1)]
  have g1 : (Workstreams.withStatus (.obj fs) status t).get (js "status") = some (.str status.text) := by
    simp only [Workstreams.withStatus, Json.get]
    rw [Json.lookup_setField, if_neg (by simp), Json.lookup_setField, if_neg (by simp),
      Json.lookup_setField, if_pos rfl]
  have g2 : (Workstreams.withStatus (.obj fs) status t).get (js "updated_at") = some (.str t) := by
    simp only [Workstreams.withStatus, Json.get]
    rw [Json.lookup_setField, if_neg (by simp), Json.lookup_setField, if_pos rfl]
  have g3 : (Workstreams.withStatus (.obj fs) status t).get (js "revision") = some (.num (.int (z + 1))) := by
    simp only [Workstreams.withStatus, Json.get, hint]
    rw [Json.lookup_setField, if_pos rfl]
  have hcarries : Carries (Workstreams.withStatus (.obj fs) status t) c := by
    refine ⟨?_, ?_, ?_, ?_, ?_⟩
    · rw [hother _ (by simp) (by simp) (by simp), h.carries.workstreamId]
    · rw [hother _ (by simp) (by simp) (by simp), h.carries.name]
    · rw [hother _ (by simp) (by simp) (by simp), h.carries.title]
    · rw [hother _ (by simp) (by simp) (by simp), h.carries.createdBy]
    · rw [hother _ (by simp) (by simp) (by simp), h.carries.createdAt]
  have hvalid := h.valid
  have hok : isStatus (some (.str status.text)) = true := by cases status <;> decide
  have hpositive : isSafePositiveInteger (some (.num (.int (z + 1)))) = true := by
    simp only [isSafePositiveInteger, isSafeInteger, Bool.and_eq_true, decide_eq_true_eq]
    omega
  refine ⟨hwritten, ?_, ?_, hcarries, by omega, hrecord, by rw [hclaims]; exact h.claim⟩
  · rw [hother _ (by simp) (by simp) (by simp)]
    exact h.schema
  · simp only [isWorkstream, Bool.and_eq_true] at hvalid ⊢
    obtain ⟨⟨⟨⟨⟨⟨⟨⟨v1, v2⟩, v3⟩, v4⟩, -⟩, v6⟩, -⟩, -⟩, v9⟩ := hvalid
    rw [g1, g2, g3, hother _ (by simp) (by simp) (by simp), hother _ (by simp) (by simp) (by simp),
      hother _ (by simp) (by simp) (by simp), hother _ (by simp) (by simp) (by simp),
      hother _ (by simp) (by simp) (by simp)]
    exact ⟨⟨⟨⟨⟨⟨⟨⟨v1, v2⟩, v3⟩, v4⟩, hok⟩, v6⟩, hdate⟩, hpositive⟩, v9⟩

theorem Inv.change (h : Inv E files created) {c : Creation} (hc : c ∈ created) {r' : Json}
    (hstored : ∀ files' : StoreFiles, files'.claims = files.claims →
      files'.records c.workstreamId = some (fileBytes r') → Stored E files' c r') :
    Inv E (Write.apply files (.record c.workstreamId r')) created where
  ok := h.ok
  distinct := h.distinct
  only id hid := by
    by_cases heq : id = c.workstreamId
    · exact ⟨c, hc, heq.symm⟩
    · have hsame : (Write.apply files (.record c.workstreamId r')).records id = files.records id :=
        Function.update_of_ne heq _ _
      rw [hsame] at hid
      exact h.only id hid
  stored d hd := by
    by_cases heq : d.workstreamId = c.workstreamId
    · obtain ⟨r₁, h₁⟩ := h.stored d hd
      obtain ⟨r₂, h₂⟩ := h.stored c hc
      have hget := h₁.get (h.ok d hd)
      rw [heq, h₂.get (h.ok c hc)] at hget
      cases hget
      have hname := h₁.carries.name.symm.trans h₂.carries.name
      simp only [Option.some.injEq, Json.str.injEq] at hname
      obtain rfl := h.name_inj hd hc hname
      exact ⟨r', hstored _ rfl (Function.update_self _ _ _)⟩
    · obtain ⟨s, hs⟩ := h.stored d hd
      refine ⟨s, hs.written, hs.schema, hs.valid, hs.carries, hs.fits, ?_, hs.claim⟩
      rw [← hs.record]
      exact Function.update_of_ne heq _ _

theorem Inv.resolve_some (h : Inv E files created) {reference : JsString} {r : Json}
    (hr : resolve E files reference = .ok (some r)) : ∃ c ∈ created, Stored E files c r := by
  rw [resolve] at hr
  split at hr
  · obtain ⟨c, hc, -, hs⟩ := h.get_some hr
    exact ⟨c, hc, hs⟩
  · split at hr
    · cases hr
    · obtain ⟨c, hc, -, hs⟩ := h.resolveName_some hr
      exact ⟨c, hc, hs⟩

theorem take_pair {α : Type} (a b : α) (n : ℕ) : ([a, b].take n = [] ∧ n = 0) ∨ ([a, b].take n = [a] ∧ n = 1) ∨
    ([a, b].take n = [a, b] ∧ 2 ≤ n) := by
  rcases n with _ | _ | n
  · exact .inl ⟨rfl, rfl⟩
  · exact .inr (.inl ⟨rfl, rfl⟩)
  · exact .inr (.inr ⟨by simp, by omega⟩)

/-- A name that does not resolve is free. -/
theorem create_free {options : CreateWorkstreamOptions} {random : ℕ} {c : Creation}
    (hc : creationOf E options random = .ok c) (hfree : resolveName E files c.name = .ok none) :
    Workstreams.create E files options random = .ok (c.writes, c.record) := by
  simp only [Workstreams.create, hc, Outcome.ok_bind, hfree]
  rfl

theorem after_create {options : CreateWorkstreamOptions} {random : ℕ} {c : Creation}
    (hc : creationOf E options random = .ok c) (hfree : resolveName E files c.name = .ok none) (n : ℕ) :
    (Operation.create options random).after E files n = applyWrites files (c.writes.take n) ∧
      (Operation.create options random).created E files n = if 2 ≤ n then [c] else [] := by
  simp only [Operation.after, Operation.perform, Operation.created, create_free hc hfree, hc, and_self]

/-- **One operation**, wherever it stops, keeps the invariant. -/
theorem Inv.after (h : Inv E files created) {op : Operation} (written : ℕ) (hfresh : op.Fresh E files)
    (hok : op.Readable E files) :
    Inv E (op.after E files written) (created ++ op.created E files written) := by
  cases op with
  | create options random =>
    rcases hcreate : create E files options random with e | ⟨writes, result⟩
    · simp only [Operation.after, Operation.perform, Operation.created, hcreate]
      rcases creationOf E options random with e' | c <;> simpa using h
    · simp only [create, Outcome.bind_ok] at hcreate
      obtain ⟨c, hc, existing, hresolve, hrest⟩ := hcreate
      rcases existing with _ | existing
      · obtain ⟨hcok, hid⟩ := creationOf_ok hc
        obtain ⟨hafter, hcreated⟩ := after_create hc hresolve written
        -- the name does not resolve, so nothing was created under it
        have hnew : ∀ d ∈ created, d.name ≠ c.name := by
          intro d hd heq
          obtain ⟨r, hr⟩ := h.stored d hd
          have := hr.resolveName (h.ok d hd)
          rw [heq, hresolve] at this
          cases this
        rw [hafter, hcreated]
        rcases take_pair (Write.claim c.name (nameClaim c.workstreamId)) (.record c.workstreamId c.record)
          written with ⟨htake, rfl⟩ | ⟨htake, rfl⟩ | ⟨htake, hn⟩
        · simpa [applyWrites] using h
        · have hclaim := h.reclaim (nameClaim c.workstreamId) hnew
          simpa [Creation.writes, htake, applyWrites] using hclaim
        · have hboth := h.add hcok (hok c hc hresolve) hnew (by rw [hid]; exact hfresh.1)
          rw [if_pos hn]
          simpa [Creation.writes, htake] using hboth
      · cases hrest
  | setStatus reference status now =>
    simp only [Operation.after, Operation.perform, Operation.created, List.append_nil]
    rcases hset : setStatus E files reference status now with e | ⟨writes, result⟩
    · exact h
    · have hsteps := hset
      simp only [setStatus, Outcome.bind_ok] at hsteps
      obtain ⟨t, ht, current, hresolve, hrest⟩ := hsteps
      rcases current with _ | r
      · cases hrest
      · simp only at hrest
        split at hrest
        · cases hrest
          simpa [applyWrites] using h
        · next hne =>
          cases hrest
          obtain ⟨c, hc, hs⟩ := h.resolve_some hresolve
          obtain ⟨hrevision, hbytes⟩ := hok r t hresolve ht hne
          have hid : textAt "workstream_id" r = c.workstreamId := by rw [textAt, hs.carries.workstreamId]
          rw [hid]
          rcases written with _ | n
          · simpa [applyWrites] using h
          · have hstep := h.change hc fun files' hclaims hrecord =>
              hs.withStatus (timestampOf_ok ht).1 hrevision hbytes hclaims hrecord
            simpa [applyWrites] using hstep

end

/-- **Every state of a run** whose steps write what the store can read. -/
theorem Run.inv {files : StoreFiles} {created : List Creation}
    (h : Run E (Operation.Readable E) files created) : Inv E files created := by
  induction h with
  | start claims =>
    exact ⟨fun _ h => (by cases h), fun _ h => (by cases h), fun _ h => absurd rfl h, .nil⟩
  | step op written _ hfresh hok ih => exact ih.after written hfresh hok

/-! ## Names -/

/-- **The names of a store are consistent** with what was created in it. -/
structure Consistent (E : Host) (files : StoreFiles) (created : List Creation) : Prop where
  /-- No two records have one name. -/
  unique : ∀ a b r s, get E files a = .ok (some r) → get E files b = .ok (some s) →
    textAt? "name" r = textAt? "name" s → a = b
  /-- No name was created twice. -/
  distinct : (created.map (·.name)).Nodup
  /-- A name resolves exactly when a record was created under it. -/
  resolves : ∀ name, isWorkstreamName name = true →
    ((∃ r, resolve E files name = .ok (some r)) ↔ ∃ c ∈ created, c.name = name)
  /-- A claim that points at no record created under its name does not resolve. -/
  stale : ∀ name bytes id, isWorkstreamName name = true → files.claims name = some bytes →
    claimedId E (bytesToString bytes) = some id →
    (∀ c ∈ created, ¬ (c.name = name ∧ c.workstreamId = id)) → ∀ r, resolve E files name ≠ .ok (some r)
  /-- What was created is there, under its name and its id, and says what it said. -/
  kept : ∀ c ∈ created, ∃ r, resolve E files c.name = .ok (some r) ∧
    resolve E files c.workstreamId = .ok (some r) ∧ Carries r c

theorem Inv.consistent {files : StoreFiles} {created : List Creation} (h : Inv E files created) :
    Consistent E files created where
  unique a b r s ha hb hname := by
    obtain ⟨c, hc, rfl, hr⟩ := h.get_some ha
    obtain ⟨d, hd, rfl, hs⟩ := h.get_some hb
    rw [hr.carries.textAt_name, hs.carries.textAt_name, Option.some.injEq] at hname
    rw [h.name_inj hc hd hname]
  distinct := h.distinct
  resolves name hname := by
    rw [resolve_name hname]
    refine ⟨fun ⟨r, hr⟩ => ?_, fun ⟨c, hc, hcname⟩ => ?_⟩
    · obtain ⟨c, hc, hcname, -⟩ := h.resolveName_some hr
      exact ⟨c, hc, hcname⟩
    · obtain ⟨r, hr⟩ := h.stored c hc
      exact ⟨r, by rw [← hcname]; exact hr.resolveName (h.ok c hc)⟩
  stale name bytes id hname hclaim hid hnone r hr := by
    rw [resolve_name hname] at hr
    obtain ⟨bytes', id', hclaim', hid', hget, hrname⟩ := Workstreams.resolveName_some hr
    rw [hclaim] at hclaim'
    cases hclaim'
    rw [hid] at hid'
    cases hid'
    obtain ⟨c, hc, hcid, hs⟩ := h.get_some hget
    rw [hs.carries.textAt_name] at hrname
    exact hnone c hc ⟨Option.some.inj hrname, hcid⟩
  kept c hc := by
    obtain ⟨r, hr⟩ := h.stored c hc
    have hok := h.ok c hc
    refine ⟨r, ?_, ?_, hr.carries⟩
    · rw [resolve_name hok.name]
      exact hr.resolveName hok
    · rw [resolve_id hok.workstreamId]
      exact hr.get hok

/-- **Names stay consistent under crashes**: in every state of a run whose steps write
what the store can read. -/
theorem names_consistent {files : StoreFiles} {created : List Creation}
    (h : Run E (Operation.Readable E) files created) : Consistent E files created := h.inv.consistent

/-! ## A name that is claimed and recovered -/

/-- A date for the examples. -/
def creationHost : Host := Host.ofTables [] [(0, js "1970-01-01T00:00:00.000Z")] epochDate_ok

def noFiles : StoreFiles := ⟨fun _ => none, fun _ => none⟩

/-- A creation of the name `alpha`. -/
def alphaOptions (createdBy : WorkstreamCreator) : CreateWorkstreamOptions where
  name := js "alpha"
  createdBy := createdBy
  now := some 0

def alpha (createdBy : WorkstreamCreator) (random : ℕ) : Creation :=
  ⟨newWorkstreamId random, js "alpha", none, createdBy, js "1970-01-01T00:00:00.000Z"⟩

theorem creationOf_alpha {createdBy : WorkstreamCreator} (h : validateCreator createdBy = .ok ()) (random : ℕ) :
    creationOf creationHost (alphaOptions createdBy) random = .ok (alpha createdBy random) := by
  have hname : isWorkstreamName (js "alpha") = true := by decide
  have hiso : creationHost.isoString 0 = some (js "1970-01-01T00:00:00.000Z") := by decide
  have htime : timestampOf creationHost (some 0) = .ok (js "1970-01-01T00:00:00.000Z") := by
    simp only [timestampOf, hiso]
  simp only [creationOf, alphaOptions, hname, h, htime, normalizeTitle, Bool.not_true, Bool.false_eq_true,
    if_false, Outcome.ok_bind]
  rfl

theorem free_start (name : JsString) : resolveName creationHost noFiles name = .ok none := rfl

/-- The store after the creation of `alpha` in an empty one, with the first id, up to a write. -/
def alphaFiles (createdBy : WorkstreamCreator) (written : ℕ) : StoreFiles :=
  applyWrites noFiles ((alpha createdBy 1).writes.take written)

theorem run_alpha {ok : StoreFiles → Operation → Prop} {createdBy : WorkstreamCreator}
    (h : validateCreator createdBy = .ok ()) (hok : ok noFiles (.create (alphaOptions createdBy) 1)) (n : ℕ) :
    Run creationHost ok (alphaFiles createdBy n) (if 2 ≤ n then [alpha createdBy 1] else []) := by
  have hfresh : (Operation.create (alphaOptions createdBy) 1).Fresh creationHost noFiles :=
    ⟨rfl, fun _ _ hclaim => by cases hclaim⟩
  have hstart : Run creationHost ok noFiles [] := .start _
  have hstep := hstart.step _ n hfresh hok
  obtain ⟨hafter, hcreated⟩ := after_create (creationOf_alpha h 1) (free_start _) n
  rw [hafter, hcreated] at hstep
  exact hstep

theorem alphaFiles_claims (createdBy : WorkstreamCreator) {n : ℕ} (h : 1 ≤ n) :
    (alphaFiles createdBy n).claims =
      Function.update (fun _ => none) (js "alpha") (some (fileBytes (nameClaim (newWorkstreamId 1)))) := by
  rcases n with _ | _ | n
  · omega
  · simp [alphaFiles, Creation.writes, applyWrites, Write.apply, noFiles, alpha]
  · simp [alphaFiles, Creation.writes, applyWrites, Write.apply, noFiles, alpha]

theorem alphaFiles_records (createdBy : WorkstreamCreator) {n : ℕ} (h : 2 ≤ n) :
    (alphaFiles createdBy n).records =
      Function.update (fun _ => none) (newWorkstreamId 1) (some (fileBytes (alpha createdBy 1).record)) := by
  obtain ⟨m, rfl⟩ := Nat.exists_eq_add_of_le h
  rw [Nat.add_comm]
  simp [alphaFiles, Creation.writes, applyWrites, Write.apply, noFiles, alpha]

/-- The second id is new to a store that has seen the first one claimed. -/
theorem fresh_second (createdBy : WorkstreamCreator) (options : CreateWorkstreamOptions) :
    (Operation.create options 2).Fresh creationHost (alphaFiles createdBy 1) := by
  have hne : newWorkstreamId 2 ≠ newWorkstreamId 1 := by decide
  have hclaims := alphaFiles_claims createdBy (Nat.le_refl 1)
  have hrecords : (alphaFiles createdBy 1).records (newWorkstreamId 2) = none := by
    simp [alphaFiles, Creation.writes, applyWrites, Write.apply, noFiles]
  refine ⟨hrecords, fun name bytes hclaim hid => ?_⟩
  rw [hclaims] at hclaim
  by_cases hname : name = js "alpha"
  · rw [hname, Function.update_self] at hclaim
    cases hclaim
    rw [claimedId_nameClaim (isWorkstreamId_new 1), Option.some.injEq] at hid
    exact hne hid.symm
  · rw [Function.update_of_ne hname] at hclaim
    cases hclaim

/-- A claim whose record was never written does not stop its name from being created. -/
theorem names_consistent_recovered : Consistent creationHost
    ((Operation.create (alphaOptions .cli) 2).after creationHost (alphaFiles .cli 1) 2) [alpha .cli 2] := by
  have hok : ∀ files random, (Operation.create (alphaOptions .cli) random).Readable creationHost files := by
    intro files random c hc _
    have hcreated : c = alpha .cli random := Except.ok.inj (hc.symm.trans (creationOf_alpha rfl random))
    exact (creationOf_ok hc).1.bytes_le (fun p s h => by rw [hcreated] at h; cases h)
  have hclaimed : Run creationHost (Operation.Readable creationHost) (alphaFiles .cli 1) [] :=
    run_alpha rfl (hok _ 1) 1
  have hrun := hclaimed.step _ 2 (fresh_second .cli (alphaOptions .cli)) (hok _ 2)
  have hfree : resolveName creationHost (alphaFiles .cli 1) (js "alpha") = .ok none := by
    have hclaim : (alphaFiles .cli 1).claims (js "alpha") =
        some (fileBytes (nameClaim (newWorkstreamId 1))) := by
      rw [alphaFiles_claims .cli le_rfl, Function.update_self]
    rw [resolveName_of_claim (isWorkstreamId_new 1) hclaim]
    have hget : get creationHost (alphaFiles .cli 1) (newWorkstreamId 1) = .ok none := by
      unfold get
      rw [isWorkstreamId_new]
      rfl
    rw [hget]
  rw [(after_create (@creationOf_alpha .cli rfl 2) hfree 2).2] at hrun
  exact names_consistent hrun

/-! ## A record that cannot be read -/

/-- A session of a provider with a long name. -/
def longProvider (n : ℕ) : WorkstreamCreator :=
  .session (List.replicate (n + 1) 97) (js "ses_00000000000000000000000000000000")

theorem longProvider_valid (n : ℕ) : validateCreator (longProvider n) = .ok () := by
  have hprovider : isProvider (List.replicate (n + 1) 97) = true := by
    rw [List.replicate_succ, isProvider, List.all_replicate, Bool.and_eq_true]
    refine ⟨by decide, ?_⟩
    split
    · rfl
    · decide
  have hsession : isSessionId (js "ses_00000000000000000000000000000000") = true := by decide
  simp only [validateCreator, longProvider, hprovider, hsession, Bool.not_true, Bool.false_eq_true, if_false]

/-- The record of a creation by such a session is larger than what is read of it. -/
theorem longProvider_large {n : ℕ} (h : maxRecordBytes ≤ n) :
    maxRecordBytes < (fileBytes (alpha (longProvider n) 1).record).length := by
  have hquote : n + 3 ≤ byteLength (Json.quote (List.replicate (n + 1) 97)) := by
    have hlen := length_le_byteLength (Json.quote (List.replicate (n + 1) 97))
    have hescape := escape_length (List.replicate (n + 1) 97)
    rw [List.length_replicate] at hescape
    simp only [Json.quote, List.length_append, List.length_cons, List.length_nil] at hlen
    unfold Json.quote
    omega
  have hcreator : (alpha (longProvider n) 1).createdBy.bytes = 27 +
      byteLength (Json.quote (List.replicate (n + 1) 97)) +
      byteLength (Json.quote (js "ses_00000000000000000000000000000000")) := rfl
  rw [Creation.fileBytes_length, Creation.bytes, hcreator]
  omega

theorem longProvider_unresolved {n : ℕ} (h : maxRecordBytes ≤ n) :
    resolve creationHost (alphaFiles (longProvider n) 2) (js "alpha") = .ok none := by
  have hname : isWorkstreamName (js "alpha") = true := by decide
  have hclaim : (alphaFiles (longProvider n) 2).claims (js "alpha") =
      some (fileBytes (nameClaim (newWorkstreamId 1))) := by
    rw [alphaFiles_claims (longProvider n) (by decide), Function.update_self]
  have hrecord : (alphaFiles (longProvider n) 2).records (newWorkstreamId 1) =
      some (fileBytes (alpha (longProvider n) 1).record) := by
    rw [alphaFiles_records (longProvider n) le_rfl, Function.update_self]
  have hget : ∃ e, get creationHost (alphaFiles (longProvider n) 2) (newWorkstreamId 1) = .error e := by
    unfold get
    rw [isWorkstreamId_new, hrecord, readUtf8File, if_pos (longProvider_large h)]
    exact ⟨_, rfl⟩
  obtain ⟨e, he⟩ := hget
  rw [resolve_name hname, resolveName_of_claim (isWorkstreamId_new 1) hclaim, he]

/-- **The name of such a creation does not resolve**, though its record was written. -/
theorem long_provider_lost :
    Run creationHost (fun _ _ => True) (alphaFiles (longProvider 16384) 2) [alpha (longProvider 16384) 1] ∧
      resolve creationHost (alphaFiles (longProvider 16384) 2) (js "alpha") = .ok none ∧
      ¬ (∀ files created, Run creationHost (fun _ _ => True) files created →
        Consistent creationHost files created) := by
  have hrun : ∀ n, Run creationHost (fun _ _ => True) (alphaFiles (longProvider n) 2) [alpha (longProvider n) 1] :=
    fun n => run_alpha (longProvider_valid n) trivial 2
  have hresolve := longProvider_unresolved (n := 16384) le_rfl
  refine ⟨hrun _, hresolve, fun hall => ?_⟩
  obtain ⟨r, hr, -⟩ := (hall _ _ (hrun 16384)).kept (alpha (longProvider 16384) 1) (by simp)
  have hname : (alpha (longProvider 16384) 1).name = js "alpha" := rfl
  rw [hname, hresolve] at hr
  cases hr

end Barbaro.Workstreams
