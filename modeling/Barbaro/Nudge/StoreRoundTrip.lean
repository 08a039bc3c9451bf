import Barbaro.Nudge.Store

/-!
# A written cursor is read back

* `CursorOk.written`: the JSON form of a valid cursor is its own canonical form.
* `parseCursorValue_toJson`: the validator reads a valid cursor back from it.
* `readCursor_written`: also from the bytes of the file.
* `assertCursorIdentity_ok`: the writer accepts every valid cursor.
-/

namespace Barbaro

section
variable {E : Host} {provider : ParticipatingProvider} {sessionId : JsString}

/-! ## The written form -/

theorem natJson_written {n : ℕ} (h : n ≤ maxSafeInteger) : Written E.float (natJson n) :=
  Written.int (by simpa using h)

theorem turn_written {generation : Option ℕ} {t : NudgeDeliveryTurn}
    (h : t.ok provider generation = true) : Written E.float t.toJson := by
  cases t with
  | codex turnId =>
    refine Written.obj rfl ?_
    simp [Written.str]
  | claude g =>
    simp only [NudgeDeliveryTurn.ok, Bool.and_eq_true, decide_eq_true_eq] at h
    refine Written.obj rfl ?_
    simp [Written.str, natJson_written h.1.2]

theorem checkpoint_written {c : JsonlCheckpoint} (h : c.Valid) : Written E.float c.toJson := by
  have h1 := h.byteOffset
  have h2 := h.observedSize
  have h3 : c.anchor.byteLength ≤ maxSafeInteger := by
    have := h.anchor
    simp only [validateAnchor, Outcome.bind_ok, Outcome.exists_unit, assertSafeNonNegativeInteger_ok] at this
    exact this.1
  have hanchor : Written E.float (.obj [(js "byte_length", natJson c.anchor.byteLength),
      (js "sha256", .str c.anchor.sha256)]) := by
    refine Written.obj rfl ?_
    simp [Written.str, natJson_written h3]
  have hidentity : Written E.float (.obj [(js "birthtime_ns", .str c.fileIdentity.birthtimeNs),
      (js "device", .str c.fileIdentity.device), (js "inode", .str c.fileIdentity.inode)]) := by
    refine Written.obj rfl ?_
    simp [Written.str]
  refine Written.obj rfl ?_
  simp [Written.str, hanchor, hidentity, natJson_written (E := E) (le_trans h1 h2),
    natJson_written (E := E) h2, natJson_written (E := E) h.nextLineNumber.2]

theorem feed_written {f : NudgeFeedCursor} (h : f.checkpoint.Valid) : Written E.float f.toJson := by
  refine Written.obj rfl ?_
  simp [Written.str, checkpoint_written h]

theorem delivery_written {generation : Option ℕ} {d : NudgeDelivery}
    (h : DeliveryOk provider generation d) : Written E.float d.toJson := by
  have hcount := natJson_written (E := E) h.bound
  rcases hl : d.lastTurn with _ | t
  · rw [NudgeDelivery.toJson, hl]
    refine Written.obj rfl ?_
    simp [optionalMember, hcount]
  · rw [NudgeDelivery.toJson, hl]
    refine Written.obj rfl ?_
    simp [optionalMember, hcount, turn_written (h.lastTurn t hl).1]

theorem coverage_written {e : NudgeReadCoverage} (h : coverageOk e = true) : Written E.float e.toJson := by
  obtain ⟨hbind, hranges⟩ := (coverageOk_iff e).1 h
  have htotal : e.totalBytes ≤ maxSafeInteger := by
    simp only [coverageBindingOk, Bool.and_eq_true, decide_eq_true_eq] at hbind
    exact hbind.1.1.2
  have hitems : Written E.float (.arr (e.ranges.map rangeJson)) := by
    refine Written.arr fun v hv => ?_
    obtain ⟨r, hr, rfl⟩ := List.mem_map.1 hv
    obtain ⟨h1, h2, -⟩ := (rangesOk_iff.1 hranges).1 r hr
    refine Written.obj rfl ?_
    simp [natJson_written (E := E) (show r.stop ≤ maxSafeInteger by omega),
      natJson_written (E := E) (show r.start ≤ maxSafeInteger by omega)]
  refine Written.obj rfl ?_
  simp [Written.str, hitems, natJson_written (E := E) htotal]

theorem pending_written {generation : Option ℕ} {p : NudgePendingRead}
    (h : p.ok E provider generation = true) : Written E.float p.toJson := by
  simp only [NudgePendingRead.ok, Bool.and_eq_true] at h
  have hturn := turn_written (E := E) h.2
  rcases ho : p.output with _ | o
  · rw [NudgePendingRead.toJson, ho]
    refine Written.obj rfl ?_
    simp [optionalMember, Written.str, hturn]
  · rw [NudgePendingRead.toJson, ho]
    refine Written.obj rfl ?_
    simp [optionalMember, Written.str, hturn]

theorem reads_written {generation : Option ℕ} {s : NudgeReadState} (h : s.Ok E provider generation) :
    Written E.float s.toJson := by
  have hcoverage : Written E.float (.arr (s.coverage.map NudgeReadCoverage.toJson)) := by
    refine Written.arr fun v hv => ?_
    obtain ⟨e, he, rfl⟩ := List.mem_map.1 hv
    exact coverage_written (h.coverage.ok e he)
  have hpending : Written E.float (.arr (s.pending.map NudgePendingRead.toJson)) := by
    refine Written.arr fun v hv => ?_
    obtain ⟨p, hp, rfl⟩ := List.mem_map.1 hv
    exact pending_written (h.pending p hp)
  rcases hi : s.informedTurn with _ | t
  · rw [NudgeReadState.toJson, hi]
    refine Written.obj rfl ?_
    simp [optionalMember, Written.bool, hcoverage, hpending]
  · rw [NudgeReadState.toJson, hi]
    refine Written.obj rfl ?_
    simp [optionalMember, Written.bool, hcoverage, hpending, turn_written (h.informedTurn t hi)]

theorem markers_written {m : NudgeMarkersV2} {r : ℕ} (hr : r ≤ maxSafeInteger)
    (h : ∀ x, m.stop = some x → x = r) : Written E.float m.toJson := by
  rcases hs : m.stop with _ | x
  · rw [NudgeMarkersV2.toJson, hs]
    exact Written.obj rfl (by simp [optionalMember])
  · rw [NudgeMarkersV2.toJson, hs]
    refine Written.obj rfl ?_
    simp [optionalMember, natJson_written (E := E) (show x ≤ maxSafeInteger by rw [h x hs]; exact hr)]

/-- **The JSON form of a valid cursor is its own canonical form.** -/
theorem CursorOk.written {c : NudgeCursorV3} (h : CursorOk E provider sessionId c) :
    Written E.float c.toJson := by
  have hrev := h.legacy.base.revision.2
  have hdelivery := delivery_written (E := E) h.legacy.delivery
  have hmarkers := markers_written (E := E) hrev h.legacy.stop
  have hreads := reads_written h.reads
  have hfeeds : Written E.float (.arr (c.feedCursors.map NudgeFeedCursor.toJson)) := by
    refine Written.arr fun v hv => ?_
    obtain ⟨f, hf, rfl⟩ := List.mem_map.1 hv
    exact feed_written (h.legacy.base.feeds.each f hf).2.2
  have hgen := h.legacy.generation
  rcases hg : c.claudeTurnGeneration with _ | g
  · rw [NudgeCursorV3.toJson, hg]
    refine Written.obj rfl ?_
    simp [optionalMember, Written.str, natJson_written (E := E) hrev, hdelivery, hmarkers, hreads, hfeeds]
  · rw [hg] at hgen
    have hgb : g ≤ maxSafeInteger := by
      cases provider with
      | codex => exact absurd hgen id
      | claude => exact hgen.2
    rw [NudgeCursorV3.toJson, hg]
    refine Written.obj rfl ?_
    simp [optionalMember, Written.str, natJson_written (E := E) hrev, natJson_written (E := E) hgb,
      hdelivery, hmarkers, hreads, hfeeds]

/-! ## Reading it back -/

theorem positiveAt_natJson {key : String} {v : Json} {n : ℕ} (h : v.get (js key) = some (natJson n))
    (h0 : 1 ≤ n) (hn : n ≤ maxSafeInteger) : positiveAt? key v = some n := by
  rw [positiveAt?, natAt_natJson h hn, Option.filter_some_pos (by simp; omega)]

theorem natAt_written {key : String} {v : Json} {n : ℕ} (h : v.get (js key) = some (natJson n))
    (hn : n ≤ maxSafeInteger) : natAt key v = n := by
  rw [natAt, natAt_natJson h hn, Option.getD_some]

theorem parseCheckpoint_toJson {c : JsonlCheckpoint} (h : c.Valid) : parseCheckpoint c.toJson = .ok c := by
  have h1 := h.byteOffset
  have h2 := h.observedSize
  have h3 : c.anchor.byteLength ≤ maxSafeInteger := by
    have := h.anchor
    simp only [validateAnchor, Outcome.bind_ok, Outcome.exists_unit, assertSafeNonNegativeInteger_ok] at this
    exact this.1
  have hraw : rawCheckpoint c.toJson
      (.obj [(js "birthtime_ns", .str c.fileIdentity.birthtimeNs),
        (js "device", .str c.fileIdentity.device), (js "inode", .str c.fileIdentity.inode)])
      (.obj [(js "byte_length", natJson c.anchor.byteLength), (js "sha256", .str c.anchor.sha256)]) =
      c := by
    have e1 : natAt "byte_offset" c.toJson = c.byteOffset :=
      natAt_written (by simp [JsonlCheckpoint.toJson, Json.get, Json.lookup]) (le_trans h1 h2)
    have e2 : natAt "next_line_number" c.toJson = c.nextLineNumber :=
      natAt_written (by simp [JsonlCheckpoint.toJson, Json.get, Json.lookup]) h.nextLineNumber.2
    have e3 : natAt "observed_size" c.toJson = c.observedSize :=
      natAt_written (by simp [JsonlCheckpoint.toJson, Json.get, Json.lookup]) h2
    have e4 : natAt "byte_length" (.obj [(js "byte_length", natJson c.anchor.byteLength),
        (js "sha256", .str c.anchor.sha256)]) = c.anchor.byteLength :=
      natAt_written (by simp [Json.get, Json.lookup]) h3
    rw [rawCheckpoint, e1, e2, e3, e4]
    simp [JsonlCheckpoint.toJson, textAt, Json.get, Json.lookup]
  have hvalid : validateJsonlCheckpoint c = .ok () := validateJsonlCheckpoint_ok.2 h
  have hidentity : c.toJson.get (js "file_identity") =
      some (.obj [(js "birthtime_ns", .str c.fileIdentity.birthtimeNs),
        (js "device", .str c.fileIdentity.device), (js "inode", .str c.fileIdentity.inode)]) := by
    simp [JsonlCheckpoint.toJson, Json.get, Json.lookup]
  have hanchor : c.toJson.get (js "anchor") =
      some (.obj [(js "byte_length", natJson c.anchor.byteLength),
        (js "sha256", .str c.anchor.sha256)]) := by
    simp [JsonlCheckpoint.toJson, Json.get, Json.lookup]
  have hkeys : assertAllowedKeys ["schema", "file_identity", "byte_offset", "next_line_number",
      "observed_size", "anchor"] c.toJson = .ok () := by
    simp [JsonlCheckpoint.toJson, assertAllowedKeys]
  simp only [parseCheckpoint, hkeys, Outcome.ok_bind, hidentity, hanchor, hraw, hvalid]
  simp [assertAllowedKeys]

theorem parseFeeds_toJson {feeds : List NudgeFeedCursor} (h : FeedsOk feeds) (prior : Option JsString)
    (hprior : ∀ p, prior = some p → ∀ f ∈ feeds, compareUtf16CodeUnits p f.key.text = .lt) :
    parseFeeds prior (feeds.map NudgeFeedCursor.toJson) = .ok feeds := by
  induction feeds generalizing prior with
  | nil => rfl
  | cons f fs ih =>
    obtain ⟨hp, hs, hc⟩ := h.each f (by simp)
    obtain ⟨hafter, hsorted⟩ := List.pairwise_cons.1 h.sorted
    have hfields : feedFields f.toJson = some (f.provider, f.sessionId, f.checkpoint.toJson) := by
      have hobj : isObject (some f.checkpoint.toJson) = true := rfl
      simp [feedFields, NudgeFeedCursor.toJson, textAt?, Json.get, Json.lookup, hp, hs, hobj]
    have hkeys : assertAllowedKeys ["provider", "session_id", "checkpoint"] f.toJson = .ok () := by
      simp [NudgeFeedCursor.toJson, assertAllowedKeys]
    have horder : outOfOrder prior (FeedKey.mk f.provider f.sessionId).text = false := by
      cases prior with
      | none => rfl
      | some p =>
        have hlt : compareUtf16CodeUnits p (FeedKey.mk f.provider f.sessionId).text = .lt :=
          hprior p rfl f (by simp)
        simp [outOfOrder, hlt]
    have hrest := ih ⟨fun g hg => h.each g (List.mem_cons_of_mem _ hg), hsorted⟩
      (some (FeedKey.mk f.provider f.sessionId).text)
      (fun p hp g hg => by cases hp; exact hafter g hg)
    simp only [List.map_cons, parseFeeds, hfields, hkeys, Outcome.ok_bind, parseCheckpoint_toJson hc,
      horder, Bool.false_eq_true, if_false, hrest]
    rfl

theorem parseMarker_toJson {r : ℕ} (h1 : 1 ≤ r) (h2 : r ≤ maxSafeInteger) {m : NudgeMarkersV2}
    (h : ∀ x, m.stop = some x → x = r) : parseMarkersV2 r (some m.toJson) = .ok m := by
  obtain ⟨stop⟩ := m
  rcases stop with _ | x
  · simp [parseMarkersV2, NudgeMarkersV2.toJson, optionalMember, assertAllowedKeys, parseMarker, Json.get,
      Json.lookup]
  · obtain rfl := h x rfl
    have hpos : positiveAt? "stop" (.obj [(js "stop", natJson x)]) = some x :=
      positiveAt_natJson (by simp [Json.get, Json.lookup]) h1 h2
    simp [parseMarkersV2, NudgeMarkersV2.toJson, optionalMember, assertAllowedKeys, parseMarker,
      Json.get, Json.lookup, hpos]

theorem parseDeliveryTurn_toJson {generation : Option ℕ} {t : NudgeDeliveryTurn}
    (h : t.ok provider generation = true) : parseDeliveryTurn provider generation t.toJson = .ok t := by
  obtain ⟨h1, h2, h3⟩ := turnOfJson_toJson h
  have hkeys : assertAllowedKeys (turnKeys provider) t.toJson = .ok () := by
    cases t with
    | codex turnId =>
      simp only [NudgeDeliveryTurn.ok, Bool.and_eq_true, decide_eq_true_eq] at h
      simp [NudgeDeliveryTurn.toJson, assertAllowedKeys, turnKeys, h.1]
    | claude g =>
      simp only [NudgeDeliveryTurn.ok, Bool.and_eq_true, decide_eq_true_eq] at h
      simp [NudgeDeliveryTurn.toJson, assertAllowedKeys, turnKeys, h.1.1.1]
  simp only [parseDeliveryTurn, h1, hkeys, h3, Outcome.ok_bind, Bool.not_true, Bool.false_eq_true,
    if_false]
  rfl

theorem parseDelivery_toJson {generation : Option ℕ} {d : NudgeDelivery}
    (h : DeliveryOk provider generation d) :
    parseDelivery provider generation (some d.toJson) = .ok d := by
  obtain ⟨n, lastTurn⟩ := d
  have hget : ∀ o, natAt? "highest_unread_count"
      (.obj ((js "highest_unread_count", natJson n) :: optionalMember "last_turn" o)) = some n :=
    fun o => natAt_natJson (by simp [Json.get, Json.lookup]) h.bound
  rcases lastTurn with _ | t
  · simp only [parseDelivery, NudgeDelivery.toJson, hget]
    simp [optionalMember, assertAllowedKeys, parseLastTurn, Json.get, Json.lookup]
  · obtain ⟨ht, hn⟩ := h.lastTurn t rfl
    simp only [parseDelivery, NudgeDelivery.toJson, hget]
    simp [optionalMember, assertAllowedKeys, parseLastTurn, Json.get, Json.lookup,
      parseDeliveryTurn_toJson ht, show n ≠ 0 from hn]

/-- The members of a cursor that are not its reads, in the order they are written. -/
def legacyMembers (c : NudgeCursorV3) : List (JsString × Json) :=
  optionalMember "claude_turn_generation" (c.claudeTurnGeneration.map natJson) ++ [
    (js "cursor_revision", natJson c.cursorRevision),
    (js "delivery", c.delivery.toJson),
    (js "feed_cursors", .arr (c.feedCursors.map NudgeFeedCursor.toJson)),
    (js "markers", c.markers.toJson),
    (js "membership_from", .str c.membershipFrom),
    (js "provider", .str c.provider),
    (js "schema", .str nudgeCursorSchema),
    (js "session_id", .str c.sessionId),
    (js "updated_at", .str c.updatedAt),
    (js "workstream_id", .str c.workstreamId)]

theorem withoutReads (c : NudgeCursorV3) : withoutMember (js "reads") c.toJson = .obj (legacyMembers c) := by
  rcases hg : c.claudeTurnGeneration with _ | g <;>
    simp [withoutMember, NudgeCursorV3.toJson, legacyMembers, optionalMember, hg]

theorem parseCursorBase_toJson {c : NudgeCursorV3} (h : CursorOk E provider sessionId c) :
    parseCursorBase E provider sessionId (baseKeys ++ ["delivery", "claude_turn_generation"])
      (.obj (legacyMembers c)) =
      .ok ⟨c.workstreamId, c.membershipFrom, c.cursorRevision, c.feedCursors, c.updatedAt⟩ := by
  have hb := h.legacy.base
  have hkeys : assertAllowedKeys (baseKeys ++ ["delivery", "claude_turn_generation"])
      (.obj (legacyMembers c)) = .ok () := by
    rcases hg : c.claudeTurnGeneration with _ | g <;>
      simp [legacyMembers, optionalMember, assertAllowedKeys, baseKeys, hg]
  have hget : ∀ k v, Json.lookup k (legacyMembers c) = some v →
      (Json.obj (legacyMembers c)).get k = some v := fun _ _ h => h
  have hprovider : equalsText provider.text ((Json.obj (legacyMembers c)).get (js "provider")) = true := by
    rcases hg : c.claudeTurnGeneration with _ | g <;>
      simp [legacyMembers, optionalMember, Json.get, Json.lookup, equalsText, hg, h.legacy.provider_eq]
  have hsession : equalsText sessionId ((Json.obj (legacyMembers c)).get (js "session_id")) = true := by
    rcases hg : c.claudeTurnGeneration with _ | g <;>
      simp [legacyMembers, optionalMember, Json.get, Json.lookup, equalsText, hg, h.legacy.sessionId_eq]
  have hrev : positiveAt? "cursor_revision" (.obj (legacyMembers c)) = some c.cursorRevision := by
    refine positiveAt_natJson ?_ hb.revision.1 hb.revision.2
    rcases hg : c.claudeTurnGeneration with _ | g <;>
      simp [legacyMembers, optionalMember, Json.get, Json.lookup, hg]
  have hfields : baseFields E (.obj (legacyMembers c)) =
      some ⟨c.workstreamId, c.membershipFrom, c.cursorRevision, [], c.updatedAt⟩ := by
    have hok := hb.workstream
    have hm := hb.membership
    have hu := hb.updated
    rw [baseFields, hrev]
    rcases hg : c.claudeTurnGeneration with _ | g <;>
      simp [legacyMembers, optionalMember, textAt?, Json.get, Json.lookup, hg, hok, hm, hu]
  have hitems : itemsAt? "feed_cursors" (.obj (legacyMembers c)) =
      some (c.feedCursors.map NudgeFeedCursor.toJson) := by
    rcases hg : c.claudeTurnGeneration with _ | g <;>
      simp [legacyMembers, optionalMember, itemsAt?, Json.get, Json.lookup, hg]
  have hfeeds := parseFeeds_toJson hb.feeds none (by simp)
  simp only [parseCursorBase, hkeys, Outcome.ok_bind, hprovider, hsession, hb.session, hfields, hitems,
    hfeeds, Bool.not_true, Bool.or_self, Bool.false_eq_true, if_false]
  rfl

/-- **The validator reads a valid cursor back** from its JSON form. -/
theorem parseCursorValue_toJson {c : NudgeCursorV3} (h : CursorOk E provider sessionId c) :
    parseCursorValue E provider sessionId c.toJson = .ok (.v3 c) := by
  have hschema : c.toJson.get (js "schema") = some (.str nudgeCursorSchema) := by
    rcases hg : c.claudeTurnGeneration with _ | g <;>
      simp [NudgeCursorV3.toJson, optionalMember, Json.get, Json.lookup, hg]
  have hreads : c.toJson.get (js "reads") = some c.reads.toJson := by
    rcases hg : c.claudeTurnGeneration with _ | g <;>
      simp [NudgeCursorV3.toJson, optionalMember, Json.get, Json.lookup, hg]
  have hmarkers : (Json.obj (legacyMembers c)).get (js "markers") = some c.markers.toJson := by
    rcases hg : c.claudeTurnGeneration with _ | g <;>
      simp [legacyMembers, optionalMember, Json.get, Json.lookup, hg]
  have hdelivery : (Json.obj (legacyMembers c)).get (js "delivery") = some c.delivery.toJson := by
    rcases hg : c.claudeTurnGeneration with _ | g <;>
      simp [legacyMembers, optionalMember, Json.get, Json.lookup, hg]
  have hgeneration : parseGeneration provider (.obj (legacyMembers c)) = .ok c.claudeTurnGeneration := by
    have hgen := h.legacy.generation
    cases provider with
    | codex =>
      rcases hg : c.claudeTurnGeneration with _ | g
      · simp [parseGeneration, legacyMembers, optionalMember, Json.get, Json.lookup, hg]
      · rw [hg] at hgen; exact absurd hgen id
    | claude =>
      rcases hg : c.claudeTurnGeneration with _ | g
      · rw [hg] at hgen; exact absurd hgen id
      · rw [hg] at hgen
        have hpos : positiveAt? "claude_turn_generation" (.obj (legacyMembers c)) = some g :=
          positiveAt_natJson (by simp [legacyMembers, optionalMember, Json.get, Json.lookup, hg])
            hgen.1 hgen.2
        simp [parseGeneration, hpos]
  have hrev := h.legacy.base.revision
  have hobj : isObject (some c.toJson) = true := rfl
  have hv1 : equalsText nudgeCursorSchemaV1 (some (.str nudgeCursorSchema)) = false := by decide
  have hv2 : equalsText nudgeCursorSchemaV2 (some (.str nudgeCursorSchema)) = false := by decide
  have hv3 : equalsText nudgeCursorSchema (some (.str nudgeCursorSchema)) = true := by decide
  have hlegacy : parseCursorV2 E provider sessionId (.obj (legacyMembers c)) = .ok c.toNudgeCursorV2 := by
    simp only [parseCursorV2, parseCursorBase_toJson h, Outcome.ok_bind, hmarkers, hdelivery,
      parseMarker_toJson hrev.1 hrev.2 h.legacy.stop, hgeneration, parseDelivery_toJson h.legacy.delivery]
    have hp := h.legacy.provider_eq
    have hs := h.legacy.sessionId_eq
    rw [← hp, ← hs]
    rfl
  simp only [parseCursorValue, hobj, hschema, hv1, hv2, hv3, withoutReads, hlegacy, hreads,
    Outcome.ok_bind, Bool.not_true, Bool.false_eq_true, if_false, if_true]
  have hstate := parseNudgeReadState_toJson h.reads
  rw [hstate]
  rfl

/-- **A cursor that was written is read back** from the bytes of its file. -/
theorem readCursor_written {c : NudgeCursorV3} (h : CursorOk E provider sessionId c)
    (hfits : nudgeCursorFits c = true) :
    readCursor E provider sessionId (some (utf8 (cursorText c))) = .ok (some (.v3 c)) := by
  have hsize : ¬ (utf8 (cursorText c)).length > maxNudgeCursorBytes := by
    rw [nudgeCursorFits, decide_eq_true_eq] at hfits
    exact Nat.not_lt.2 hfits
  have hparse : parseCursor E provider sessionId (bytesToString (utf8 (cursorText c))) = .ok (.v3 c) := by
    rw [parseCursor, cursorText, h.written.read_line]
    exact parseCursorValue_toJson h
  simp only [readCursor, hsize, if_false, hparse, Outcome.ok_bind]
  rfl

/-- **The writer accepts every valid cursor.** -/
theorem assertCursorIdentity_ok {c : NudgeCursorV3} (h : CursorOk E provider sessionId c) :
    assertCursorIdentity E provider sessionId c = .ok () := by
  rw [assertCursorIdentity, if_neg (by simp [h.legacy.provider_eq, h.legacy.sessionId_eq]), parseCursor,
    Json.parse_render h.written.wellFormed]
  simp only [parseCursorValue_toJson h, Outcome.ok_bind]
  rfl

end

end Barbaro
