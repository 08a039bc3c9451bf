import Barbaro.Workstreams.Store
import Barbaro.Core.TextSize

/-!
# The sizes of workstream records

The store reads at most `maxRecordBytes` of a record and writes however much it is given.

* `Creation.fileBytes_length`: the bytes of the record of a creation.
* `withStatus_bytes`: how many more or fewer a change of status makes them.
* `Creation.fits_of_provider`: the record fits when its creator's provider is not very long.
-/

namespace Barbaro.Workstreams

variable {E : Host}

/-! ## Valid creations -/

def WorkstreamCreator.Ok : WorkstreamCreator → Prop
  | .session provider sessionId => isProvider provider = true ∧ isSessionId sessionId = true
  | .cli => True

/-- What `create` has checked of a creation. -/
structure Creation.Ok (E : Host) (c : Creation) : Prop where
  workstreamId : isWorkstreamId c.workstreamId = true
  name : isWorkstreamName c.name = true
  title : ∀ t, c.title = some t → byteLength t ≤ 512
  createdBy : c.createdBy.Ok
  createdAt : (E.dateParse c.createdAt).isSome = true ∧ byteLength c.createdAt ≤ 64

theorem isWorkstreamId_new (random : ℕ) : isWorkstreamId (newWorkstreamId random) = true := by
  have hdigit : ∀ d < 16, isHexDigit (Json.hexDigit d) = true := by decide
  have hlen : (js "ws_").length = 3 := by decide
  have htag : (js "ws_" ++ hexText 32 random).take 3 = js "ws_" := List.take_left' hlen
  have hrest : (js "ws_" ++ hexText 32 random).drop 3 = hexText 32 random := List.drop_left' hlen
  have hws : js "ws_" = js "ws" ++ [95] := by decide
  have hhex : (hexText 32 random).all isHexDigit = true := by
    simp only [hexText, List.all_map, List.all_eq_true, Function.comp]
    intro i hi
    exact hdigit _ (Nat.mod_lt _ (by decide))
  have hcount : (hexText 32 random).length = 32 := by simp [hexText]
  have htaglen : "ws".length + 1 = 3 := by decide
  rw [isWorkstreamId, isId, newWorkstreamId, htaglen, htag, hrest, hhex, hcount, ← hws]
  simp

theorem timestampOf_ok {now : Option ℤ} {t : JsString} (h : timestampOf E now = .ok t) :
    (E.dateParse t).isSome = true ∧ byteLength t ≤ 64 := by
  unfold timestampOf at h
  split at h
  · cases h
  · split at h
    · cases h
    · next hs =>
      cases h
      obtain ⟨hparse, -, hlen⟩ := E.isoString_parse _ _ hs
      exact ⟨by rw [hparse]; rfl, hlen⟩

theorem validateCreator_ok {w : WorkstreamCreator} (h : validateCreator w = .ok ()) : w.Ok := by
  cases w with
  | cli => trivial
  | session provider sessionId =>
    simp only [validateCreator, Outcome.guard_ok, Bool.not_eq_true', Bool.not_eq_false] at h
    exact ⟨h.1, h.2.1⟩

theorem normalizeTitle_ok {title trimmed : Option JsString} (h : normalizeTitle title = .ok trimmed) :
    ∀ t, trimmed = some t → byteLength t ≤ 512 := by
  rintro t rfl
  unfold normalizeTitle at h
  split at h
  · cases h
  · split at h
    · cases h
    · rw [Outcome.guard_ok] at h
      obtain ⟨hlen, h⟩ := h
      cases h
      exact Nat.not_lt.1 hlen

/-- What a caller may ask for. -/
theorem creationOf_ok {options : CreateWorkstreamOptions} {random : ℕ} {c : Creation}
    (h : creationOf E options random = .ok c) : c.Ok E ∧ c.workstreamId = newWorkstreamId random := by
  simp only [creationOf, Outcome.guard_ok, Outcome.bind_ok, Outcome.exists_unit, Outcome.pure_ok,
    Bool.not_eq_true', Bool.not_eq_false] at h
  obtain ⟨hname, hcreator, title, htitle, createdAt, htime, rfl⟩ := h
  exact ⟨⟨isWorkstreamId_new random, hname, normalizeTitle_ok htitle, validateCreator_ok hcreator,
    timestampOf_ok htime⟩, rfl⟩

/-! ## Written values -/

theorem creator_written (w : WorkstreamCreator) : Written E.float w.toJson := by
  cases w with
  | cli => exact Written.obj rfl (by simp [Written.str])
  | session provider sessionId => exact Written.obj rfl (by simp [Written.str])

theorem Creation.written (c : Creation) : Written E.float c.record := by
  have hone : Written E.float (natJson 1) := Written.int (by decide)
  have hcreator : Written E.float c.createdBy.toJson := creator_written c.createdBy
  rcases ht : c.title with _ | t
  · rw [Creation.record, ht]
    refine Written.obj rfl ?_
    simp [optionalMember, Written.str, hone, hcreator]
  · rw [Creation.record, ht]
    refine Written.obj rfl ?_
    simp [optionalMember, Written.str, hone, hcreator]

theorem nameClaim_written (id : JsString) : Written E.float (nameClaim id) :=
  Written.obj rfl (by simp [Written.str])

theorem fileBytes_length {v : Json} (h : Utf16.WellFormed (stableStringify v)) :
    (fileBytes v).length = stableSize v + 1 := stableJsonLine_length h

/-! ## The size of a record -/

def WorkstreamCreator.bytes : WorkstreamCreator → ℕ
  | .session provider sessionId => 27 + byteLength (Json.quote provider) + byteLength (Json.quote sessionId)
  | .cli => 14

/-- The bytes of the file of a creation, from what the caller has given. -/
def Creation.bytes (c : Creation) : ℕ :=
  131 + byteLength (Json.quote c.name) + (c.title.map (fun t => byteLength (Json.quote t) + 9)).getD 0 +
    c.createdBy.bytes + 2 * byteLength (Json.quote c.createdAt) + byteLength (Json.quote c.workstreamId)

theorem creator_size (w : WorkstreamCreator) :
    Utf16.WellFormed (stableStringify w.toJson) ∧ stableSize w.toJson = w.bytes := by
  cases w with
  | cli =>
    have hkind : byteLength (Json.quote (js "kind")) = 6 := by decide
    have hcli : byteLength (Json.quote (js "cli")) = 5 := by decide
    obtain ⟨hwell, hsize⟩ := @stable_obj [(js "kind", .str (js "cli"))] (by simp)
      (by simp [stable_str_wellFormed])
    refine ⟨hwell, hsize.trans ?_⟩
    simp only [List.map_cons, List.map_nil, List.sum_cons, List.sum_nil, memberSize, stableSize, stable_str,
      hkind, hcli, WorkstreamCreator.bytes]
    omega
  | session provider sessionId =>
    have hp : byteLength (Json.quote (js "provider")) = 10 := by decide
    have hs : byteLength (Json.quote (js "session_id")) = 12 := by decide
    obtain ⟨hwell, hsize⟩ := @stable_obj
      [(js "provider", .str provider), (js "session_id", .str sessionId)] (by simp)
      (by simp [stable_str_wellFormed])
    refine ⟨hwell, hsize.trans ?_⟩
    simp only [List.map_cons, List.map_nil, List.sum_cons, List.sum_nil, memberSize, hp, hs, stableSize,
      stable_str, WorkstreamCreator.bytes]
    omega

/-- **The size of the record of a creation.** -/
theorem Creation.fileBytes_length (c : Creation) : (fileBytes c.record).length = c.bytes := by
  have k1 : byteLength (Json.quote (js "created_at")) = 12 := by decide
  have k2 : byteLength (Json.quote (js "created_by")) = 12 := by decide
  have k3 : byteLength (Json.quote (js "name")) = 6 := by decide
  have k4 : byteLength (Json.quote (js "revision")) = 10 := by decide
  have k5 : byteLength (Json.quote (js "schema")) = 8 := by decide
  have k6 : byteLength (Json.quote (js "status")) = 8 := by decide
  have k7 : byteLength (Json.quote (js "title")) = 7 := by decide
  have k8 : byteLength (Json.quote (js "updated_at")) = 12 := by decide
  have k9 : byteLength (Json.quote (js "workstream_id")) = 15 := by decide
  have vschema : byteLength (Json.quote workstreamSchema) = 23 := by decide
  have vopen : byteLength (Json.quote WorkstreamStatus.open.text) = 6 := by decide
  have vone : stableSize (natJson 1) = 1 := by rw [natJson, stableSize_nat]; rfl
  obtain ⟨hwell, hcreator⟩ := creator_size c.createdBy
  have hone : Utf16.WellFormed (stableStringify (natJson 1)) := stable_nat_wellFormed 1
  have hrecord : Utf16.WellFormed (stableStringify c.record) := by
    rcases ht : c.title with _ | t <;> rw [Creation.record, ht]
    · exact (stable_obj (by simp) (by simp [optionalMember, stable_str_wellFormed, hwell, hone])).1
    · exact (stable_obj (by simp) (by simp [optionalMember, stable_str_wellFormed, hwell, hone])).1
  rw [Workstreams.fileBytes_length hrecord]
  rcases ht : c.title with _ | t
  · rw [Creation.record, Creation.bytes, ht,
      (stable_obj (by simp) (by simp [optionalMember, stable_str_wellFormed, hwell, hone])).2]
    simp only [optionalMember, Option.map_none, List.append_nil, List.cons_append, List.nil_append, List.map_cons,
      List.map_nil, List.sum_cons, List.sum_nil, memberSize, k1, k2, k3, k4, k5, k6, k8, k9, hcreator, vone]
    simp only [stableSize, stable_str, vschema, vopen, Option.getD_none]
    omega
  · rw [Creation.record, Creation.bytes, ht,
      (stable_obj (by simp) (by simp [optionalMember, stable_str_wellFormed, hwell, hone])).2]
    simp only [optionalMember, Option.map_some, List.cons_append, List.nil_append, List.map_cons,
      List.map_nil, List.sum_cons, List.sum_nil, memberSize, k1, k2, k3, k4, k5, k6, k7, k8, k9, hcreator, vone]
    simp only [stableSize, stable_str, vschema, vopen, Option.getD_some]
    omega

/-- **A record fits** unless its creator's provider is very long. -/
theorem Creation.Ok.bytes_le {c : Creation} (h : c.Ok E)
    (hprovider : ∀ p s, c.createdBy = .session p s → p.length ≤ 12000) : c.bytes ≤ maxRecordBytes := by
  have hname : byteLength (Json.quote c.name) ≤ 66 := by
    have hn := h.name
    simp only [isWorkstreamName, Bool.and_eq_true, decide_eq_true_eq, List.all_eq_true] at hn
    have hplain : PlainText c.name := fun u hu => by
      have hunit := hn.1.1.2 u hu
      rw [Bool.or_eq_true, isNameEnd, Bool.or_eq_true] at hunit
      refine isProviderUnit_plain ?_
      simp only [isProviderUnit, Bool.or_eq_true]
      tauto
    have := hplain.quote_size
    omega
  have hid : byteLength (Json.quote c.workstreamId) ≤ 37 := by
    obtain ⟨hplain, hlen⟩ := isId_plain (List.all_eq_true.1 (by decide)) h.workstreamId
    have htag : (js "ws").length = 2 := by decide
    have := hplain.quote_size
    omega
  have hdate := quote_size_le c.createdAt
  have hdate' := h.createdAt.2
  have htitle : (c.title.map (fun t => byteLength (Json.quote t) + 9)).getD 0 ≤ 3083 := by
    rcases ht : c.title with _ | t
    · exact Nat.zero_le _
    · have hlen := h.title t ht
      have := quote_size_le t
      simp only [Option.map_some, Option.getD_some]
      omega
  have hcreator : c.createdBy.bytes ≤ 12067 := by
    have hok := h.createdBy
    rcases hc : c.createdBy with ⟨p, s⟩ | _
    · rw [hc] at hok
      have hlen := hprovider p s hc
      have hp := (isProvider_plain hok.1).quote_size
      obtain ⟨hplain, hslen⟩ := isId_plain (List.all_eq_true.1 (by decide)) hok.2
      have htag : (js "ses").length = 3 := by decide
      have hs := hplain.quote_size
      simp only [WorkstreamCreator.bytes]
      omega
    · simp [WorkstreamCreator.bytes]
  unfold Creation.bytes maxRecordBytes
  omega

/-! ## A change of status -/

/-- The bytes of the values that a change of status replaces. -/
def statusBytes (status updatedAt : JsString) (revision : ℤ) : ℕ :=
  byteLength (Json.quote status) + byteLength (Json.quote updatedAt) + Json.digitCount revision.toNat

/-- **The size of a record after a change of status.** -/
theorem withStatus_bytes {fs : List (JsString × Json)} (h : Written E.float (.obj fs)) {old at_ : JsString}
    {z : ℤ} (hz : 1 ≤ z ∧ z < maxSafeInteger) (hstatus : Json.lookup (js "status") fs = some (.str old))
    (hupdated : Json.lookup (js "updated_at") fs = some (.str at_))
    (hrevision : Json.lookup (js "revision") fs = some (.num (.int z))) (status : WorkstreamStatus)
    (t : JsString) :
    Written E.float (withStatus (.obj fs) status t) ∧
      (fileBytes (withStatus (.obj fs) status t)).length + statusBytes old at_ z =
        (fileBytes (.obj fs)).length + statusBytes status.text t (z + 1) := by
  have hz' : intAt "revision" (.obj fs) = z := by simp [intAt, Json.get, hrevision]
  obtain ⟨n, rfl⟩ := Int.eq_ofNat_of_zero_le (show 0 ≤ z by omega)
  -- the three values are replaced one after the other
  have w1 := h.setField (Written.str status.text) (key_of_lookup hstatus)
  have l1 : Json.lookup (js "updated_at") (Json.setField (js "status") (.str status.text) fs) =
      some (.str at_) := by rw [Json.lookup_setField, if_neg (by simp), hupdated]
  have w2 := w1.setField (Written.str t) (key_of_lookup l1)
  have l2 : Json.lookup (js "revision") (Json.setField (js "updated_at") (.str t)
      (Json.setField (js "status") (.str status.text) fs)) = some (.num (.int n)) := by
    rw [Json.lookup_setField, if_neg (by simp), Json.lookup_setField, if_neg (by simp), hrevision]
  have hint : Written E.float (.num (.int ((n : ℤ) + 1))) := Written.int (by omega)
  have w3 := w2.setField hint (key_of_lookup l2)
  have s1 := stableSize_setField h.wellFormed (@Written.str E.float status.text).wellFormed hstatus
  have s2 := stableSize_setField w1.wellFormed (@Written.str E.float t).wellFormed l1
  have s3 := stableSize_setField w2.wellFormed hint.wellFormed l2
  have hsucc : stableSize (.num (.int ((n : ℤ) + 1))) = Json.digitCount (n + 1) := by
    rw [← stableSize_nat (n + 1)]
    norm_cast
  rw [stableSize_nat, hsucc] at s3
  simp only [stableSize, stable_str] at s1 s2 s3
  rw [withStatus, hz', fileBytes_length (stableStringify_clean w3.wellFormed).wellFormed,
    fileBytes_length (stableStringify_clean h.wellFormed).wellFormed]
  refine ⟨w3, ?_⟩
  have hnat : ((n : ℤ) + 1).toNat = n + 1 := by omega
  simp only [statusBytes, Int.toNat_natCast, hnat, stableSize]
  omega

end Barbaro.Workstreams
