import Barbaro.Lib.JsonKeys
import Barbaro.Nudge.Run
import Barbaro.Nudge.StoreRoundTrip

/-!
# The cursor decoder of the unread batch

The batch reader decodes the cursors the hooks write with a validator of its own. It asks
everything the hooks' validator asks, in another order, and besides bounds the texts it is
to show: the provider of the cursor and of each of its feeds, and the two dates.

* `parseCursorOf`: the hooks' validator for a provider that is any text.
* `UnreadBatch.parseCursor`: the reader's.
* `decoders_agree`: a text the reader accepts is one the hooks accept whose texts are short,
  and both make the same cursor of it.
-/

namespace Barbaro

/-! ## The hooks' decoder, for any provider -/

section
variable (E : Host)

/-- The provider whose sessions can take part, if the text names one. -/
def participating? (provider : JsString) : Option ParticipatingProvider :=
  if provider = js "codex" then some .codex
  else if provider = js "claude" then some .claude
  else none

theorem participating_text (p : ParticipatingProvider) : participating? p.text = some p := by
  cases p with
  | codex => exact if_pos rfl
  | claude => exact if_neg (by decide)

def parseCursorBaseOf (provider sessionId : JsString) (allowed : List String) (v : Json) :
    Except Failure ParsedCursorBase := do
  assertAllowedKeys allowed v
  if !equalsText provider (v.get (js "provider")) ||
      !equalsText sessionId (v.get (js "session_id")) then
    .error (.typeError "nudge cursor identity does not match its storage path")
  else if !isProvider provider || !isSessionId sessionId then
    .error (.typeError "nudge cursor is structurally invalid")
  else
    match baseFields E v with
    | none => .error (.typeError "nudge cursor is structurally invalid")
    | some base =>
      match itemsAt? "feed_cursors" v with
      | none => .error (.typeError "nudge cursor feed_cursors must be an array")
      | some items => do
        let feedCursors ← parseFeeds none items
        return { base with feedCursors }

def parseCursorV1Of (provider sessionId : JsString) (v : Json) : Except Failure NudgeCursorV1 := do
  let base ← parseCursorBaseOf E provider sessionId baseKeys v
  let markers ← parseMarkersV1 base.cursorRevision (v.get (js "markers"))
  return {
    provider, sessionId, workstreamId := base.workstreamId
    membershipFrom := base.membershipFrom, cursorRevision := base.cursorRevision
    feedCursors := base.feedCursors, markers, updatedAt := base.updatedAt }

def parseCursorV2Of (provider sessionId : JsString) (v : Json) : Except Failure NudgeCursorV2 := do
  let base ← parseCursorBaseOf E provider sessionId (baseKeys ++ ["delivery", "claude_turn_generation"]) v
  match participating? provider with
  | none => .error (.typeError "nudge cursor v2 provider is unsupported")
  | some p => do
    let markers ← parseMarkersV2 base.cursorRevision (v.get (js "markers"))
    let claudeTurnGeneration ← parseGeneration p v
    let delivery ← parseDelivery p claudeTurnGeneration (v.get (js "delivery"))
    return {
      provider, sessionId, workstreamId := base.workstreamId
      membershipFrom := base.membershipFrom, cursorRevision := base.cursorRevision
      feedCursors := base.feedCursors, markers, delivery, claudeTurnGeneration
      updatedAt := base.updatedAt }

/-- The reads of a cursor, once its other fields are decoded. No other provider gets here. -/
def parseReadsOf (base : NudgeCursorV2) (value : Option Json) : Except Failure NudgeReadState :=
  match participating? base.provider with
  | some p => parseNudgeReadState E p base.claudeTurnGeneration value
  | none => .error (.typeError "pending read has an invalid Claude generation")

def parseCursorValueOf (provider sessionId : JsString) (v : Json) : Except Failure NudgeCursor :=
  if !isObject (some v) then .error (.typeError "unsupported or invalid nudge cursor schema")
  else if equalsText nudgeCursorSchemaV1 (v.get (js "schema")) then do
    let c ← parseCursorV1Of E provider sessionId v
    return .v1 c
  else if equalsText nudgeCursorSchemaV2 (v.get (js "schema")) then do
    let c ← parseCursorV2Of E provider sessionId v
    return .v2 c
  else if equalsText nudgeCursorSchema (v.get (js "schema")) then do
    let base ← parseCursorV2Of E provider sessionId (withoutMember (js "reads") v)
    let reads ← parseReadsOf E base (v.get (js "reads"))
    return .v3 { base with reads }
  else .error (.typeError "unsupported or invalid nudge cursor schema")

/-- `parseCursor` of the nudge store, which takes the provider as a text. -/
def parseCursorOf (provider sessionId : JsString) (text : JsString) : Except Failure NudgeCursor :=
  match Json.parse E.float text with
  | none => .error .syntaxError
  | some v => parseCursorValueOf E provider sessionId v

variable {E}

theorem isProvider_text (p : ParticipatingProvider) : isProvider p.text = true := by
  cases p with
  | codex => decide
  | claude => decide

theorem parseCursorBaseOf_text (p : ParticipatingProvider) (sessionId : JsString) (allowed : List String)
    (v : Json) : parseCursorBaseOf E p.text sessionId allowed v = parseCursorBase E p sessionId allowed v := by
  unfold parseCursorBaseOf parseCursorBase
  rw [isProvider_text]
  rfl

theorem parseCursorV2Of_text (p : ParticipatingProvider) (sessionId : JsString) (v : Json) :
    parseCursorV2Of E p.text sessionId v = parseCursorV2 E p sessionId v := by
  simp only [parseCursorV2Of, parseCursorV2, parseCursorBaseOf_text, participating_text]

/-- For a provider that takes part it is the decoder the hooks' transactions run. -/
theorem parseCursorOf_text (p : ParticipatingProvider) (sessionId text : JsString) :
    parseCursorOf E p.text sessionId text = parseCursor E p sessionId text := by
  have hreads : ∀ (v : Json), (do
      let base ← parseCursorV2 E p sessionId (withoutMember (js "reads") v)
      let reads ← parseReadsOf E base (v.get (js "reads"))
      return NudgeCursor.v3 { base with reads }) = (do
      let base ← parseCursorV2 E p sessionId (withoutMember (js "reads") v)
      let reads ← parseNudgeReadState E p base.claudeTurnGeneration (v.get (js "reads"))
      return NudgeCursor.v3 { base with reads }) := by
    intro v
    rcases hbase : parseCursorV2 E p sessionId (withoutMember (js "reads") v) with _ | base
    · rfl
    · have hprovider : participating? base.provider = some p := by
        rw [(parseCursorV2_ok hbase).provider_eq, participating_text]
      simp only [Outcome.ok_bind, parseReadsOf, hprovider]
  unfold parseCursorOf parseCursor
  rcases Json.parse E.float text with _ | v
  · rfl
  · simp only [parseCursorValueOf, parseCursorValue, parseCursorV1Of, parseCursorV1,
      parseCursorBaseOf_text, parseCursorV2Of_text, hreads]

end

/-! ## The reader's decoder -/

namespace UnreadBatch

def maxProviderBytes : ℕ := 64
def maxTimestampBytes : ℕ := 64

def validProvider (s : JsString) : Bool := byteLength s ≤ maxProviderBytes && isProvider s

/-- `assertAllowedKeys` -/
def assertAllowedKeys (allowed : List String) (v : Json) : Except Failure Unit :=
  match v with
  | .obj fs =>
    match fs.find? (fun f => !allowed.any (fun k => js k == f.1)) with
    | some f => .error (.typeError s!"unexpected cursor field: {messageText f.1}")
    | none => .ok ()
  | _ => .ok ()

/-- `assertCheckpointKeys` and `validateJsonlCheckpoint` -/
def parseCheckpoint (v : Json) : Except Failure JsonlCheckpoint := do
  assertAllowedKeys ["schema", "file_identity", "byte_offset", "next_line_number", "observed_size",
    "anchor"] v
  match v.get (js "file_identity"), v.get (js "anchor") with
  | some (.obj identity), some (.obj anchor) => do
    assertAllowedKeys ["device", "inode", "birthtime_ns"] (.obj identity)
    assertAllowedKeys ["byte_length", "sha256"] (.obj anchor)
    validateJsonlCheckpoint (rawCheckpoint v (.obj identity) (.obj anchor))
    return rawCheckpoint v (.obj identity) (.obj anchor)
  | _, _ => .error (.typeError "invalid checkpoint structure")

/-- The fields of a feed entry, with an object for its checkpoint. -/
def feedFields (v : Json) : Option (JsString × JsString × Json) := do
  let provider ← textAt? "provider" v
  let sessionId ← textAt? "session_id" v
  let checkpoint ← v.get (js "checkpoint")
  if validProvider provider && isSessionId sessionId && isObject (some checkpoint) then
    some (provider, sessionId, checkpoint)
  else none

/-- The loop over the feed entries, with the key of the one before. -/
def parseFeeds : Option JsString → List Json → Except Failure (List NudgeFeedCursor)
  | _, [] => .ok []
  | prior, v :: vs =>
    match feedFields v with
    | none => .error (.typeError "invalid feed cursor")
    | some (provider, sessionId, value) => do
      assertAllowedKeys ["provider", "session_id", "checkpoint"] v
      let checkpoint ← parseCheckpoint value
      if outOfOrder prior (FeedKey.mk provider sessionId).text then
        .error (.typeError "feed cursors are not unique and sorted")
      else do
        let feeds ← parseFeeds (some (FeedKey.mk provider sessionId).text) vs
        return { provider, sessionId, checkpoint } :: feeds

/-- `value === revision` -/
def equalsRevision (revision : ℕ) : Json → Bool
  | .num (.int z) => z = revision
  | _ => false

/-- `Object.values(value.markers)` are the revision; the markers are returned as they
stand. -/
def parseMarkersV1 (revision : ℕ) (value : Option Json) : Except Failure NudgeMarkersV1 :=
  match value with
  | some (.obj fs) => do
    assertAllowedKeys ["user_prompt", "tool_boundary", "stop"] (.obj fs)
    if !fs.all (fun f => equalsRevision revision f.2) then .error (.typeError "invalid cursor marker")
    else return {
      userPrompt := positiveAt? "user_prompt" (.obj fs)
      toolBoundary := positiveAt? "tool_boundary" (.obj fs)
      stop := positiveAt? "stop" (.obj fs) }
  | _ => .error (.typeError "invalid cursor markers")

def parseMarkersV2 (revision : ℕ) (value : Option Json) : Except Failure NudgeMarkersV2 :=
  match value with
  | some (.obj fs) => do
    assertAllowedKeys ["stop"] (.obj fs)
    match (Json.obj fs).get (js "stop") with
    | none => return { stop := none }
    | some marker =>
      if !equalsRevision revision marker then .error (.typeError "invalid cursor stop marker")
      else return { stop := positiveAt? "stop" (.obj fs) }
  | _ => .error (.typeError "invalid cursor markers")

/-- The check of `delivery.last_turn`. The generation is that of the cursor, if it has a
valid one. -/
def validateDeliveryTurn (provider : ParticipatingProvider) (generation : Option ℕ)
    (highestUnreadCount : ℕ) (delivery : Json) : Except Failure Unit :=
  match delivery.get (js "last_turn") with
  | none => .ok ()
  | some v =>
    if highestUnreadCount = 0 ∨ !isObject (some v) then
      .error (.typeError "invalid cursor delivery turn")
    else do
      assertAllowedKeys (turnKeys provider) v
      if (turnOfJson provider generation v).isSome then return ()
      else
        match provider with
        | .codex => .error (.typeError "invalid Codex delivery turn")
        | .claude => .error (.typeError "invalid Claude delivery turn")

/-- `value.delivery`, which is returned as it stands. -/
def parseDelivery (provider : ParticipatingProvider) (generation : Option ℕ) (value : Option Json) :
    Except Failure NudgeDelivery :=
  match value with
  | some (.obj fs) => do
    assertAllowedKeys ["highest_unread_count", "last_turn"] (.obj fs)
    match natAt? "highest_unread_count" (.obj fs) with
    | none => .error (.typeError "invalid cursor delivery high-water")
    | some highestUnreadCount => do
      validateDeliveryTurn provider generation highestUnreadCount (.obj fs)
      return {
        highestUnreadCount
        lastTurn := ((Json.obj fs).get (js "last_turn")).bind (turnOfJson provider generation) }
  | _ => .error (.typeError "invalid cursor delivery")

def parseGeneration (provider : ParticipatingProvider) (v : Json) : Except Failure (Option ℕ) :=
  match provider with
  | .claude =>
    match positiveAt? "claude_turn_generation" v with
    | some g => .ok (some g)
    | none => .error (.typeError "invalid Claude cursor generation")
  | .codex =>
    match v.get (js "claude_turn_generation") with
    | some _ => .error (.typeError "Codex cursor carries Claude generation")
    | none => .ok none

section
variable (E : Host)

def validTimestamp (s : JsString) : Bool := byteLength s ≤ maxTimestampBytes && (E.dateParse s).isSome

/-- The fields of a cursor of any schema, and its feed entries, which are still to be read. -/
def baseFields (provider sessionId : JsString) (v : Json) : Option (ParsedCursorBase × List Json) := do
  let workstreamId ← textAt? "workstream_id" v
  let membershipFrom ← textAt? "membership_from" v
  let cursorRevision ← positiveAt? "cursor_revision" v
  let updatedAt ← textAt? "updated_at" v
  let items ← itemsAt? "feed_cursors" v
  if equalsText provider (v.get (js "provider")) && equalsText sessionId (v.get (js "session_id")) &&
      validProvider provider && isSessionId sessionId && isWorkstreamId workstreamId &&
      validTimestamp E membershipFrom && validTimestamp E updatedAt then
    some ({ workstreamId, membershipFrom, cursorRevision, feedCursors := [], updatedAt }, items)
  else none

def parseCursorBase (provider sessionId : JsString) (allowed : List String) (v : Json) :
    Except Failure ParsedCursorBase := do
  assertAllowedKeys allowed v
  match baseFields E provider sessionId v with
  | none => .error (.typeError "invalid cursor structure")
  | some (base, items) => do
    let feedCursors ← parseFeeds none items
    return { base with feedCursors }

def parseCursorV1 (provider sessionId : JsString) (v : Json) : Except Failure NudgeCursorV1 := do
  let base ← parseCursorBase E provider sessionId baseKeys v
  let markers ← parseMarkersV1 base.cursorRevision (v.get (js "markers"))
  return {
    provider, sessionId, workstreamId := base.workstreamId
    membershipFrom := base.membershipFrom, cursorRevision := base.cursorRevision
    feedCursors := base.feedCursors, markers, updatedAt := base.updatedAt }

def parseCursorV2 (provider sessionId : JsString) (v : Json) : Except Failure NudgeCursorV2 := do
  let base ← parseCursorBase E provider sessionId (baseKeys ++ ["delivery", "claude_turn_generation"]) v
  match participating? provider with
  | none => .error (.typeError "unsupported cursor provider")
  | some p => do
    let markers ← parseMarkersV2 base.cursorRevision (v.get (js "markers"))
    -- the delivery is checked before the generation it is compared with
    let delivery ← parseDelivery p (positiveAt? "claude_turn_generation" v) (v.get (js "delivery"))
    let claudeTurnGeneration ← parseGeneration p v
    return {
      provider, sessionId, workstreamId := base.workstreamId
      membershipFrom := base.membershipFrom, cursorRevision := base.cursorRevision
      feedCursors := base.feedCursors, markers, delivery, claudeTurnGeneration
      updatedAt := base.updatedAt }

def parseCursorValue (provider sessionId : JsString) (v : Json) : Except Failure NudgeCursor :=
  if !isObject (some v) then .error (.typeError "cursor must be an object")
  else if equalsText nudgeCursorSchemaV1 (v.get (js "schema")) then do
    let c ← parseCursorV1 E provider sessionId v
    return .v1 c
  else if equalsText nudgeCursorSchemaV2 (v.get (js "schema")) then do
    let c ← parseCursorV2 E provider sessionId v
    return .v2 c
  else if equalsText nudgeCursorSchema (v.get (js "schema")) then do
    let base ← parseCursorV2 E provider sessionId (withoutMember (js "reads") v)
    let reads ← parseReadsOf E base (v.get (js "reads"))
    return .v3 { base with reads }
  else .error (.typeError "unsupported cursor schema")

/-- `parseCursor` of the unread batch. -/
def parseCursor (provider sessionId : JsString) (text : JsString) : Except Failure NudgeCursor :=
  match Json.parse E.float text with
  | none => .error .syntaxError
  | some v => parseCursorValue E provider sessionId v

end

/-! ## The two decoders agree on short texts -/

theorem assertAllowedKeys_iff {allowed : List String} {v : Json} :
    assertAllowedKeys allowed v = .ok () ↔ Barbaro.assertAllowedKeys allowed v = .ok () := by
  cases v with
  | obj fs =>
    simp only [assertAllowedKeys, Barbaro.assertAllowedKeys]
    split
    · next f hf => simp [hf]
    · next hf => simp [hf]
  | null => exact Iff.rfl
  | bool b => exact Iff.rfl
  | num n => exact Iff.rfl
  | str s => exact Iff.rfl
  | arr vs => exact Iff.rfl

theorem parseCheckpoint_iff {v : Json} {c : JsonlCheckpoint} :
    parseCheckpoint v = .ok c ↔ Barbaro.parseCheckpoint v = .ok c := by
  constructor
  · intro h
    simp only [parseCheckpoint, Outcome.bind_ok, Outcome.exists_unit, assertAllowedKeys_iff] at h
    obtain ⟨hkeys, h⟩ := h
    split at h
    · next identity anchor hi ha =>
      simp only [Outcome.bind_ok, Outcome.exists_unit, assertAllowedKeys_iff] at h
      simp only [Barbaro.parseCheckpoint, hi, ha, Outcome.bind_ok, Outcome.exists_unit]
      exact ⟨hkeys, h⟩
    · cases h
  · intro h
    simp only [Barbaro.parseCheckpoint, Outcome.bind_ok, Outcome.exists_unit] at h
    obtain ⟨hkeys, h⟩ := h
    split at h
    · next identity anchor hi ha =>
      simp only [Outcome.bind_ok, Outcome.exists_unit] at h
      simp only [parseCheckpoint, hi, ha, Outcome.bind_ok, Outcome.exists_unit, assertAllowedKeys_iff]
      exact ⟨hkeys, h⟩
    · cases h

theorem validProvider_iff {s : JsString} :
    validProvider s = true ↔ isProvider s = true ∧ byteLength s ≤ maxProviderBytes := by
  rw [validProvider, Bool.and_eq_true, decide_eq_true_eq]
  exact and_comm

theorem feedFields_iff {v : Json} {p s : JsString} {c : Json} :
    feedFields v = some (p, s, c) ↔
      Barbaro.feedFields v = some (p, s, c) ∧ byteLength p ≤ maxProviderBytes := by
  simp only [feedFields, Barbaro.feedFields, Option.bind_eq_bind, Option.bind_eq_some_iff,
    Option.ite_none_right_eq_some, Bool.and_eq_true, validProvider_iff, Option.some.injEq, Prod.mk.injEq]
  constructor
  · rintro ⟨p, hp, s, hs, c, hc, ⟨⟨⟨hprov, hlen⟩, hses⟩, hobj⟩, rfl, rfl, rfl⟩
    exact ⟨⟨p, hp, s, hs, c, hc, ⟨⟨hprov, hses⟩, hobj⟩, rfl, rfl, rfl⟩, hlen⟩
  · rintro ⟨⟨p, hp, s, hs, c, hc, ⟨⟨hprov, hses⟩, hobj⟩, rfl, rfl, rfl⟩, hlen⟩
    exact ⟨p, hp, s, hs, c, hc, ⟨⟨⟨hprov, hlen⟩, hses⟩, hobj⟩, rfl, rfl, rfl⟩

/-- The providers of the feeds are short. -/
def ShortFeeds (feeds : List NudgeFeedCursor) : Prop :=
  ∀ f ∈ feeds, byteLength f.provider ≤ maxProviderBytes

theorem parseFeeds_iff {prior : Option JsString} {items : List Json} {feeds : List NudgeFeedCursor} :
    parseFeeds prior items = .ok feeds ↔
      Barbaro.parseFeeds prior items = .ok feeds ∧ ShortFeeds feeds := by
  induction items generalizing prior feeds with
  | nil =>
    simp only [parseFeeds, Barbaro.parseFeeds, Except.ok.injEq]
    constructor
    · rintro rfl
      exact ⟨rfl, by simp [ShortFeeds]⟩
    · exact fun h => h.1
  | cons v vs ih =>
    -- entry by entry: the fields, the checkpoint, the order, then the rest
    constructor
    · intro h
      rw [parseFeeds] at h
      split at h
      · cases h
      · next p s value hfields =>
        simp only [Outcome.bind_ok, Outcome.exists_unit, Outcome.guard_ok, Outcome.pure_ok,
          assertAllowedKeys_iff, parseCheckpoint_iff] at h
        obtain ⟨hkeys, c, hc, horder, rest, hrest, rfl⟩ := h
        obtain ⟨hfields, hlen⟩ := feedFields_iff.1 hfields
        obtain ⟨hrest, hshort⟩ := ih.1 hrest
        refine ⟨?_, List.forall_mem_cons.2 ⟨hlen, hshort⟩⟩
        rw [Barbaro.parseFeeds, hfields]
        simp only [Outcome.bind_ok, Outcome.exists_unit, Outcome.guard_ok, Outcome.pure_ok]
        exact ⟨hkeys, c, hc, horder, rest, hrest, rfl⟩
    · rintro ⟨h, hshort⟩
      rw [Barbaro.parseFeeds] at h
      split at h
      · cases h
      · next p s value hfields =>
        simp only [Outcome.bind_ok, Outcome.exists_unit, Outcome.guard_ok, Outcome.pure_ok] at h
        obtain ⟨hkeys, c, hc, horder, rest, hrest, rfl⟩ := h
        obtain ⟨hlen, hshort⟩ := List.forall_mem_cons.1 hshort
        rw [parseFeeds, feedFields_iff.2 ⟨hfields, hlen⟩]
        simp only [Outcome.bind_ok, Outcome.exists_unit, Outcome.guard_ok, Outcome.pure_ok,
          assertAllowedKeys_iff, parseCheckpoint_iff]
        exact ⟨hkeys, c, hc, horder, rest, ih.2 ⟨hrest, hshort⟩, rfl⟩

/-! ### Markers -/

theorem equalsRevision_iff {revision : ℕ} {v : Json} :
    equalsRevision revision v = true ↔ v = natJson revision := by
  unfold equalsRevision
  split
  · next z => simp [natJson]
  · next hno =>
    simp only [Bool.false_eq_true, false_iff]
    rintro rfl
    exact hno revision rfl

theorem positiveAt_natJson_iff {revision : ℕ} (hrev : 1 ≤ revision ∧ revision ≤ maxSafeInteger)
    {kind : String} {v w : Json} (hget : v.get (js kind) = some w) :
    positiveAt? kind v = some revision ↔ w = natJson revision := by
  constructor
  · intro h
    rw [positiveAt?, Option.filter_eq_some_iff, natAt?, hget] at h
    obtain ⟨h, -⟩ := h
    split at h
    · next z hz =>
      cases hz
      split_ifs at h with hrange
      cases h
      rw [natJson, Int.toNat_of_nonneg hrange.1]
    · cases h
  · rintro rfl
    exact positiveAt_natJson hget hrev.1 hrev.2

/-- A marker that is accepted is absent, or is the present revision; it is returned as it
stands. -/
theorem parseMarker_iff {revision : ℕ} (hrev : 1 ≤ revision ∧ revision ≤ maxSafeInteger)
    {kind : String} {v : Json} {m : Option ℕ} :
    parseMarker revision kind v = .ok m ↔
      (∀ w, v.get (js kind) = some w → w = natJson revision) ∧ m = positiveAt? kind v := by
  unfold parseMarker
  rcases hget : v.get (js kind) with _ | w
  · have hnone : positiveAt? kind v = none := by simp [positiveAt?, natAt?, hget]
    simp [hnone, eq_comm]
  · have hiff := positiveAt_natJson_iff hrev hget
    simp only [Option.some.injEq, forall_eq', Outcome.guard_else, Except.ok.injEq]
    constructor
    · rintro ⟨hpos, rfl⟩
      exact ⟨hiff.1 hpos, hpos.symm⟩
    · rintro ⟨hw, rfl⟩
      exact ⟨hiff.2 hw, (hiff.2 hw).symm⟩

theorem allowed_of_ok {allowed : List String} {fs : List (JsString × Json)}
    (h : Barbaro.assertAllowedKeys allowed (.obj fs) = .ok ()) {f : JsString × Json} (hf : f ∈ fs) :
    ∃ k ∈ allowed, js k = f.1 := by
  simp only [Barbaro.assertAllowedKeys] at h
  split at h
  · cases h
  · next hnone =>
    have hall := List.find?_eq_none.1 hnone f hf
    simpa using hall

/-- Every member is the revision as soon as those of the allowed keys are. -/
theorem all_values_iff {allowed : List String} {fs : List (JsString × Json)} {revision : ℕ}
    (hkeys : Barbaro.assertAllowedKeys allowed (.obj fs) = .ok ()) (hnodup : (fs.map (·.1)).Nodup) :
    fs.all (fun f => equalsRevision revision f.2) = true ↔
      ∀ k ∈ allowed, ∀ w, (Json.obj fs).get (js k) = some w → w = natJson revision := by
  simp only [List.all_eq_true, equalsRevision_iff]
  constructor
  · intro h k _ w hget
    exact h (js k, w) ((Json.lookup_iff_mem hnodup).1 hget)
  · intro h f hf
    obtain ⟨k, hk, hname⟩ := allowed_of_ok hkeys hf
    refine h k hk f.2 ((Json.lookup_iff_mem hnodup).2 ?_)
    rw [hname]
    exact hf

theorem parseMarkersV1_iff {revision : ℕ} (hrev : 1 ≤ revision ∧ revision ≤ maxSafeInteger)
    {value : Option Json} (hvalue : ∀ v, value = some v → v.UniqueKeys) {m : NudgeMarkersV1} :
    parseMarkersV1 revision value = .ok m ↔ Barbaro.parseMarkersV1 revision value = .ok m := by
  unfold parseMarkersV1 Barbaro.parseMarkersV1
  split
  · next fs =>
    have hnodup := (hvalue _ rfl).1
    simp only [Outcome.bind_ok, Outcome.exists_unit, Outcome.guard_ok, Outcome.pure_ok,
      assertAllowedKeys_iff, parseMarker_iff hrev, Bool.not_eq_true', Bool.not_eq_false]
    refine and_congr_right fun hkeys => ?_
    rw [all_values_iff hkeys hnodup]
    simp only [List.forall_mem_cons]
    constructor
    · rintro ⟨⟨hu, ht, hs, -⟩, rfl⟩
      exact ⟨_, ⟨hu, rfl⟩, _, ⟨ht, rfl⟩, _, ⟨hs, rfl⟩, rfl⟩
    · rintro ⟨_, ⟨hu, rfl⟩, _, ⟨ht, rfl⟩, _, ⟨hs, rfl⟩, rfl⟩
      exact ⟨⟨hu, ht, hs, by simp⟩, rfl⟩
  · simp

theorem parseMarkersV2_iff {revision : ℕ} (hrev : 1 ≤ revision ∧ revision ≤ maxSafeInteger)
    {value : Option Json} {m : NudgeMarkersV2} :
    parseMarkersV2 revision value = .ok m ↔ Barbaro.parseMarkersV2 revision value = .ok m := by
  unfold parseMarkersV2 Barbaro.parseMarkersV2
  split
  · next fs =>
    simp only [Outcome.bind_ok, Outcome.exists_unit, Outcome.pure_ok, assertAllowedKeys_iff,
      parseMarker_iff hrev]
    refine and_congr_right fun _ => ?_
    split
    · next hget =>
      have hnone : positiveAt? "stop" (.obj fs) = none := by simp [positiveAt?, natAt?, hget]
      simp [hget, hnone]
    · next w hget =>
      simp only [hget, Option.some.injEq, forall_eq', Outcome.guard_ok, Outcome.pure_ok,
        Bool.not_eq_true', Bool.not_eq_false, equalsRevision_iff]
      constructor
      · rintro ⟨hw, rfl⟩
        exact ⟨_, ⟨hw, rfl⟩, rfl⟩
      · rintro ⟨_, ⟨hw, rfl⟩, rfl⟩
        exact ⟨hw, rfl⟩
  · simp

/-! ### Delivery and generation -/

theorem parseDelivery_iff {provider : ParticipatingProvider} {generation : Option ℕ}
    {value : Option Json} {d : NudgeDelivery} :
    parseDelivery provider generation value = .ok d ↔
      Barbaro.parseDelivery provider generation value = .ok d := by
  unfold parseDelivery Barbaro.parseDelivery
  split
  · next fs =>
    simp only [Outcome.bind_ok, Outcome.exists_unit, assertAllowedKeys_iff]
    refine and_congr_right fun _ => ?_
    rcases natAt? "highest_unread_count" (.obj fs) with _ | n
    · simp
    · simp only [Outcome.bind_ok, Outcome.exists_unit, Outcome.guard_ok, Outcome.pure_ok,
        validateDeliveryTurn, parseLastTurn]
      rcases hlast : (Json.obj fs).get (js "last_turn") with _ | v
      · simp
      · simp only [Outcome.guard_ok, Outcome.bind_ok, Outcome.exists_unit, Outcome.pure_ok,
          assertAllowedKeys_iff, parseDeliveryTurn, Option.bind_some]
        rcases hturn : turnOfJson provider generation v with _ | t
        · cases provider <;> simp
        · simp [not_or, and_assoc, and_comm, and_left_comm]
  · simp

theorem parseGeneration_iff {provider : ParticipatingProvider} {v : Json} {g : Option ℕ} :
    parseGeneration provider v = .ok g ↔ Barbaro.parseGeneration provider v = .ok g := by
  cases provider with
  | codex =>
    simp only [parseGeneration, Barbaro.parseGeneration]
    split <;> simp_all
  | claude =>
    simp only [parseGeneration, Barbaro.parseGeneration]
    split <;> simp_all

/-- The generation of an accepted cursor is its member, which a Codex cursor has not. -/
theorem generation_eq {provider : ParticipatingProvider} {v : Json} {g : Option ℕ}
    (h : Barbaro.parseGeneration provider v = .ok g) : g = positiveAt? "claude_turn_generation" v := by
  cases provider with
  | codex =>
    simp only [Barbaro.parseGeneration] at h
    split at h
    · cases h
    · next hnone =>
      cases h
      simp [positiveAt?, natAt?, hnone]
  | claude =>
    simp only [Barbaro.parseGeneration] at h
    split at h
    · next n hn =>
      cases h
      exact hn.symm
    · cases h

/-! ### Cursors -/

/-- The texts the reader bounds are short. -/
structure ShortTexts (provider membershipFrom updatedAt : JsString) (feeds : List NudgeFeedCursor) :
    Prop where
  provider : byteLength provider ≤ maxProviderBytes
  membershipFrom : byteLength membershipFrom ≤ maxTimestampBytes
  updatedAt : byteLength updatedAt ≤ maxTimestampBytes
  feeds : ShortFeeds feeds

/-- A cursor the reader has nothing against, besides what the hooks have. -/
def Short : NudgeCursor → Prop
  | .v1 c => ShortTexts c.provider c.membershipFrom c.updatedAt c.feedCursors
  | .v2 c => ShortTexts c.provider c.membershipFrom c.updatedAt c.feedCursors
  | .v3 c => ShortTexts c.provider c.membershipFrom c.updatedAt c.feedCursors

section
variable {E : Host} {provider sessionId : JsString}

theorem validTimestamp_iff {s : JsString} :
    validTimestamp E s = true ↔ (E.dateParse s).isSome = true ∧ byteLength s ≤ maxTimestampBytes := by
  rw [validTimestamp, Bool.and_eq_true, decide_eq_true_eq]
  exact and_comm

/-- The one check of the reader is the three checks of the hooks and the bounds. -/
theorem baseFields_iff {v : Json} {b : ParsedCursorBase} {items : List Json} :
    baseFields E provider sessionId v = some (b, items) ↔
      (equalsText provider (v.get (js "provider")) = true ∧
        equalsText sessionId (v.get (js "session_id")) = true) ∧
      (isProvider provider = true ∧ isSessionId sessionId = true) ∧
      Barbaro.baseFields E v = some b ∧ itemsAt? "feed_cursors" v = some items ∧
      byteLength provider ≤ maxProviderBytes ∧ byteLength b.membershipFrom ≤ maxTimestampBytes ∧
      byteLength b.updatedAt ≤ maxTimestampBytes := by
  simp only [baseFields, Barbaro.baseFields, Option.bind_eq_bind, Option.bind_eq_some_iff,
    Option.ite_none_right_eq_some, Bool.and_eq_true, validProvider_iff, validTimestamp_iff,
    Option.some.injEq, Prod.mk.injEq]
  constructor
  · rintro ⟨w, hw, m, hm, r, hr, u, hu, i, hi, ⟨⟨⟨⟨⟨⟨hp, hs⟩, hprov, hlen⟩, hses⟩, hws⟩, hmd, hml⟩,
      hud, hul⟩, rfl, rfl⟩
    exact ⟨⟨hp, hs⟩, ⟨hprov, hses⟩, ⟨w, hw, m, hm, r, hr, u, hu, ⟨⟨hws, hmd⟩, hud⟩, rfl⟩, hi, hlen,
      hml, hul⟩
  · rintro ⟨⟨hp, hs⟩, ⟨hprov, hses⟩, ⟨w, hw, m, hm, r, hr, u, hu, ⟨⟨hws, hmd⟩, hud⟩, rfl⟩, hi, hlen,
      hml, hul⟩
    exact ⟨w, hw, m, hm, r, hr, u, hu, items, hi, ⟨⟨⟨⟨⟨⟨hp, hs⟩, hprov, hlen⟩, hses⟩, hws⟩, hmd, hml⟩,
      hud, hul⟩, rfl, rfl⟩

theorem parseCursorBase_iff {allowed : List String} {v : Json} {b : ParsedCursorBase} :
    parseCursorBase E provider sessionId allowed v = .ok b ↔
      parseCursorBaseOf E provider sessionId allowed v = .ok b ∧
        ShortTexts provider b.membershipFrom b.updatedAt b.feedCursors := by
  constructor
  · intro h
    simp only [parseCursorBase, Outcome.bind_ok, Outcome.exists_unit, assertAllowedKeys_iff] at h
    obtain ⟨hkeys, h⟩ := h
    split at h
    · cases h
    · next base items hbase =>
      simp only [Outcome.bind_ok, Outcome.pure_ok, parseFeeds_iff] at h
      obtain ⟨feeds, ⟨hfeeds, hshort⟩, rfl⟩ := h
      obtain ⟨⟨hp, hs⟩, ⟨hprov, hses⟩, hbase, hitems, hlen, hml, hul⟩ := baseFields_iff.1 hbase
      refine ⟨?_, hlen, hml, hul, hshort⟩
      simp only [parseCursorBaseOf, hkeys, hp, hs, hprov, hses, hbase, hitems, hfeeds, Outcome.ok_bind,
        Bool.not_true, Bool.or_self, Bool.false_eq_true, if_false]
      rfl
  · rintro ⟨h, hlen, hml, hul, hshort⟩
    simp only [parseCursorBaseOf, Outcome.bind_ok, Outcome.exists_unit, Outcome.guard_ok,
      Bool.or_eq_true, Bool.not_eq_true', not_or, Bool.not_eq_false] at h
    obtain ⟨hkeys, hids, hpatterns, h⟩ := h
    split at h
    · cases h
    · next base hbase =>
      split at h
      · cases h
      · next items hitems =>
        simp only [Outcome.bind_ok, Outcome.pure_ok] at h
        obtain ⟨feeds, hfeeds, rfl⟩ := h
        simp only [parseCursorBase, assertAllowedKeys_iff.2 hkeys, Outcome.ok_bind,
          baseFields_iff.2 ⟨hids, hpatterns, hbase, hitems, hlen, hml, hul⟩,
          parseFeeds_iff.2 ⟨hfeeds, hshort⟩]
        rfl

/-- The revision of the base fields is in the range. -/
theorem revision_ok {allowed : List String} {v : Json} {b : ParsedCursorBase}
    (h : parseCursorBaseOf E provider sessionId allowed v = .ok b) :
    1 ≤ b.cursorRevision ∧ b.cursorRevision ≤ maxSafeInteger := by
  simp only [parseCursorBaseOf, Outcome.bind_ok, Outcome.exists_unit, Outcome.guard_ok] at h
  obtain ⟨-, -, -, h⟩ := h
  split at h
  · cases h
  · next base hbase =>
    split at h
    · cases h
    · simp only [Outcome.bind_ok, Outcome.pure_ok] at h
      obtain ⟨feeds, -, rfl⟩ := h
      simp only [Barbaro.baseFields, Option.bind_eq_bind, Option.bind_eq_some_iff,
        Option.ite_none_right_eq_some, Option.some.injEq] at hbase
      obtain ⟨w, -, m, -, r, hr, u, -, -, rfl⟩ := hbase
      exact positiveAt_ok hr

theorem parseCursorV1_iff {v : Json} (hv : v.UniqueKeys) {c : NudgeCursorV1} :
    parseCursorV1 E provider sessionId v = .ok c ↔
      parseCursorV1Of E provider sessionId v = .ok c ∧ Short (.v1 c) := by
  have hmarkers : ∀ w, v.get (js "markers") = some w → w.UniqueKeys := fun w hw => hv.get hw
  simp only [parseCursorV1, parseCursorV1Of, Outcome.bind_ok, Outcome.pure_ok, parseCursorBase_iff]
  constructor
  · rintro ⟨base, ⟨hbase, hshort⟩, markers, hm, rfl⟩
    have hm := (parseMarkersV1_iff (revision_ok hbase) hmarkers).1 hm
    exact ⟨⟨base, hbase, markers, hm, rfl⟩, hshort⟩
  · rintro ⟨⟨base, hbase, markers, hm, rfl⟩, hshort⟩
    have hm := (parseMarkersV1_iff (revision_ok hbase) hmarkers).2 hm
    exact ⟨base, ⟨hbase, hshort⟩, markers, hm, rfl⟩

theorem parseCursorV2_iff {v : Json} {c : NudgeCursorV2} :
    parseCursorV2 E provider sessionId v = .ok c ↔
      parseCursorV2Of E provider sessionId v = .ok c ∧ Short (.v2 c) := by
  simp only [parseCursorV2, parseCursorV2Of, Outcome.bind_ok, parseCursorBase_iff]
  rcases participating? provider with _ | p
  · simp
  · simp only [Outcome.bind_ok, Outcome.pure_ok, parseDelivery_iff, parseGeneration_iff]
    constructor
    · rintro ⟨base, ⟨hbase, hshort⟩, markers, hm, delivery, hd, g, hg, rfl⟩
      have hm := (parseMarkersV2_iff (revision_ok hbase)).1 hm
      rw [← generation_eq hg] at hd
      exact ⟨⟨base, hbase, markers, hm, g, hg, delivery, hd, rfl⟩, hshort⟩
    · rintro ⟨⟨base, hbase, markers, hm, g, hg, delivery, hd, rfl⟩, hshort⟩
      have hm := (parseMarkersV2_iff (revision_ok hbase)).2 hm
      rw [generation_eq hg] at hd
      exact ⟨base, ⟨hbase, hshort⟩, markers, hm, delivery, hd, g, hg, rfl⟩

theorem parseCursorValue_iff {v : Json} (hv : v.UniqueKeys) {c : NudgeCursor} :
    parseCursorValue E provider sessionId v = .ok c ↔
      parseCursorValueOf E provider sessionId v = .ok c ∧ Short c := by
  unfold parseCursorValue parseCursorValueOf
  simp only [Outcome.guard_ok, and_assoc]
  refine and_congr_right fun _ => ?_
  split_ifs
  · simp only [Outcome.bind_ok, Outcome.pure_ok, parseCursorV1_iff hv]
    constructor
    · rintro ⟨base, ⟨hbase, hshort⟩, rfl⟩
      exact ⟨⟨base, hbase, rfl⟩, hshort⟩
    · rintro ⟨⟨base, hbase, rfl⟩, hshort⟩
      exact ⟨base, ⟨hbase, hshort⟩, rfl⟩
  · simp only [Outcome.bind_ok, Outcome.pure_ok, parseCursorV2_iff]
    constructor
    · rintro ⟨base, ⟨hbase, hshort⟩, rfl⟩
      exact ⟨⟨base, hbase, rfl⟩, hshort⟩
    · rintro ⟨⟨base, hbase, rfl⟩, hshort⟩
      exact ⟨base, ⟨hbase, hshort⟩, rfl⟩
  · -- the reads are decoded by one function, from what is decoded so far
    simp only [Outcome.bind_ok, Outcome.pure_ok, parseCursorV2_iff]
    constructor
    · rintro ⟨base, ⟨hbase, hshort⟩, reads, hreads, rfl⟩
      exact ⟨⟨base, hbase, reads, hreads, rfl⟩, hshort⟩
    · rintro ⟨⟨base, hbase, reads, hreads, rfl⟩, hshort⟩
      exact ⟨base, ⟨hbase, hshort⟩, reads, hreads, rfl⟩
  · simp

/-- **The two decoders agree on short texts.** The reader makes a cursor of a text exactly
when the hooks make that cursor of it and its providers and dates are within the reader's
bounds. -/
theorem decoders_agree (E : Host) (provider sessionId text : JsString) (c : NudgeCursor) :
    parseCursor E provider sessionId text = .ok c ↔
      parseCursorOf E provider sessionId text = .ok c ∧ Short c := by
  unfold parseCursor parseCursorOf
  split
  · simp
  · next v hv => exact parseCursorValue_iff (Json.parse_uniqueKeys hv)

end

/-! ## A provider with a long name -/

/-- Nothing of the feed of a session of a provider whose name has sixty-five letters is
acknowledged. -/
def longFeed : NudgeFeedCursor where
  provider := List.replicate 65 97
  sessionId := sampleId "ses" 2
  checkpoint := {
    schema := checkpointSchema
    fileIdentity := { device := js "1", inode := js "2", birthtimeNs := js "3" }
    byteOffset := 0
    nextLineNumber := 1
    observedSize := 0
    anchor := { byteLength := 0, sha256 := hexText 64 0 } }

def longFeedCursor : NudgeCursorV3 where
  provider := js "codex"
  sessionId := sampleId "ses" 1
  workstreamId := sampleId "ws" 3
  membershipFrom := sampleTime "T00:00:00.000Z"
  cursorRevision := 1
  feedCursors := [longFeed]
  markers := {}
  delivery := { highestUnreadCount := 0 }
  claudeTurnGeneration := none
  updatedAt := sampleTime "T00:00:01.000Z"
  reads := emptyNudgeReadState

theorem longFeedCursor_ok : CursorOk sampleHost .codex (sampleId "ses" 1) longFeedCursor := by
  have hfeed : longFeed.checkpoint.Valid :=
    ⟨rfl, by rfl, by decide, by decide, by decide, by rfl⟩
  have hfeeds : FeedsOk longFeedCursor.feedCursors := by
    refine ⟨?_, List.pairwise_singleton _ _⟩
    intro f hf
    rw [List.mem_singleton.1 hf]
    exact ⟨by decide, by decide, hfeed⟩
  refine ⟨⟨rfl, rfl, ⟨by decide, by decide, by decide, by decide, by decide, hfeeds⟩, ?_, trivial, ?_⟩, ?_⟩
  · intro r hr
    cases hr
  · refine ⟨by decide, ?_⟩
    intro t ht
    cases ht
  · refine ⟨?_, by decide, by simp [longFeedCursor, emptyNudgeReadState], by
      simp [longFeedCursor, emptyNudgeReadState], ⟨?_, ?_⟩, by decide, ?_⟩
    all_goals simp [longFeedCursor, emptyNudgeReadState]

/-- The hooks use such a cursor; the reader hides it. -/
theorem long_provider_hidden :
    parseCursorOf sampleHost (js "codex") (sampleId "ses" 1) (cursorText longFeedCursor) =
      .ok (.v3 longFeedCursor) ∧
    ∀ c, parseCursor sampleHost (js "codex") (sampleId "ses" 1) (cursorText longFeedCursor) ≠ .ok c := by
  have hread : parseCursorOf sampleHost (js "codex") (sampleId "ses" 1) (cursorText longFeedCursor) =
      .ok (.v3 longFeedCursor) := by
    rw [show js "codex" = ParticipatingProvider.codex.text from rfl, parseCursorOf_text, Barbaro.parseCursor,
      cursorText, stableJsonLine, stableStringify_of_sorted longFeedCursor_ok.written.sorted,
      Json.parse_render_line longFeedCursor_ok.written.wellFormed]
    exact parseCursorValue_toJson longFeedCursor_ok
  refine ⟨hread, ?_⟩
  intro c hc
  obtain ⟨hhook, hshort⟩ := (decoders_agree _ _ _ _ c).1 hc
  rw [hread] at hhook
  cases hhook
  have hbound : byteLength longFeed.provider ≤ maxProviderBytes := hshort.feeds longFeed (by simp [longFeedCursor])
  exact absurd hbound (by decide)

end UnreadBatch

end Barbaro
