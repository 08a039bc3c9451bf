import Barbaro.Nudge.ReadJson
import Barbaro.Nudge.Unread

/-!
# The cursor store

A cursor is one JSON file. Reading it is strict: `parseCursor` checks the schema, the keys
and a dozen rules across fields, and the writer runs the same validator on every state
before it replaces the file.

* `CursorOk`: what the validator checks of a cursor of the present schema.
* `parseCursor_ok`: it accepts only such cursors.
-/

namespace Barbaro

def nudgeCursorSchemaV1 : JsString := js "barbaro.nudge-cursor.v1"
def nudgeCursorSchemaV2 : JsString := js "barbaro.nudge-cursor.v2"
def nudgeCursorSchema : JsString := js "barbaro.nudge-cursor.v3"

def maxNudgeCursorBytes : ℕ := 1024 * 1024

/-! ## The written form -/

def JsonlCheckpoint.toJson (c : JsonlCheckpoint) : Json :=
  .obj [
    (js "anchor", .obj [(js "byte_length", natJson c.anchor.byteLength),
      (js "sha256", .str c.anchor.sha256)]),
    (js "byte_offset", natJson c.byteOffset),
    (js "file_identity", .obj [(js "birthtime_ns", .str c.fileIdentity.birthtimeNs),
      (js "device", .str c.fileIdentity.device), (js "inode", .str c.fileIdentity.inode)]),
    (js "next_line_number", natJson c.nextLineNumber),
    (js "observed_size", natJson c.observedSize),
    (js "schema", .str c.schema)]

def NudgeFeedCursor.toJson (f : NudgeFeedCursor) : Json :=
  .obj [(js "checkpoint", f.checkpoint.toJson), (js "provider", .str f.provider),
    (js "session_id", .str f.sessionId)]

def NudgeDelivery.toJson (d : NudgeDelivery) : Json :=
  .obj ((js "highest_unread_count", natJson d.highestUnreadCount) ::
    optionalMember "last_turn" (d.lastTurn.map NudgeDeliveryTurn.toJson))

def NudgeMarkersV2.toJson (m : NudgeMarkersV2) : Json :=
  .obj (optionalMember "stop" (m.stop.map natJson))

def NudgeCursorV3.toJson (c : NudgeCursorV3) : Json :=
  .obj (optionalMember "claude_turn_generation" (c.claudeTurnGeneration.map natJson) ++ [
    (js "cursor_revision", natJson c.cursorRevision),
    (js "delivery", c.delivery.toJson),
    (js "feed_cursors", .arr (c.feedCursors.map NudgeFeedCursor.toJson)),
    (js "markers", c.markers.toJson),
    (js "membership_from", .str c.membershipFrom),
    (js "provider", .str c.provider),
    (js "reads", c.reads.toJson),
    (js "schema", .str nudgeCursorSchema),
    (js "session_id", .str c.sessionId),
    (js "updated_at", .str c.updatedAt),
    (js "workstream_id", .str c.workstreamId)])

/-- What `writeJsonFileAtomically` writes. -/
def cursorText (c : NudgeCursorV3) : JsString := stableJsonLine c.toJson

def nudgeCursorBytes (c : NudgeCursorV3) : ℕ := byteLength (cursorText c)

def nudgeCursorFits (c : NudgeCursorV3) : Bool := nudgeCursorBytes c ≤ maxNudgeCursorBytes

/-! ## The validator -/

/-- `assertAllowedKeys` -/
def assertAllowedKeys (allowed : List String) (v : Json) : Except Failure Unit :=
  match v with
  | .obj fs =>
    match fs.find? (fun f => !allowed.any (fun k => js k == f.1)) with
    | some f => .error (.typeError s!"unexpected nudge cursor field: {messageText f.1}")
    | none => .ok ()
  | _ => .ok ()

/-- A number field; what is no safe integer is taken out of the range the validation
accepts. -/
def natAt (key : String) (v : Json) : ℕ := (natAt? key v).getD (maxSafeInteger + 1)

/-- The fields of a checkpoint as they stand, to be validated. -/
def rawCheckpoint (v identity anchor : Json) : JsonlCheckpoint where
  schema := textAt "schema" v
  fileIdentity := {
    device := textAt "device" identity
    inode := textAt "inode" identity
    birthtimeNs := textAt "birthtime_ns" identity }
  byteOffset := natAt "byte_offset" v
  nextLineNumber := natAt "next_line_number" v
  observedSize := natAt "observed_size" v
  anchor := { byteLength := natAt "byte_length" anchor, sha256 := textAt "sha256" anchor }

/-- `assertCheckpointKeys` and `validateJsonlCheckpoint` -/
def parseCheckpoint (v : Json) : Except Failure JsonlCheckpoint := do
  assertAllowedKeys ["schema", "file_identity", "byte_offset", "next_line_number", "observed_size",
    "anchor"] v
  match v.get (js "file_identity"), v.get (js "anchor") with
  | some (.obj identity), some (.obj anchor) => do
    assertAllowedKeys ["device", "inode", "birthtime_ns"] (.obj identity)
    assertAllowedKeys ["byte_length", "sha256"] (.obj anchor)
    validateJsonlCheckpoint (rawCheckpoint v (.obj identity) (.obj anchor))
    return rawCheckpoint v (.obj identity) (.obj anchor)
  | _, _ => .error (.typeError "nudge cursor checkpoint is structurally invalid")

/-- The fields of a feed entry, with an object for its checkpoint. -/
def feedFields (v : Json) : Option (JsString × JsString × Json) := do
  let provider ← textAt? "provider" v
  let sessionId ← textAt? "session_id" v
  let checkpoint ← v.get (js "checkpoint")
  if isProvider provider && isSessionId sessionId && isObject (some checkpoint) then
    some (provider, sessionId, checkpoint)
  else none

/-- The key does not come after the one before it. -/
def outOfOrder (prior : Option JsString) (key : JsString) : Bool :=
  match prior with
  | some p => compareUtf16CodeUnits p key ≠ .lt
  | none => false

/-- The loop over the feed entries, with the key of the one before. -/
def parseFeeds : Option JsString → List Json → Except Failure (List NudgeFeedCursor)
  | _, [] => .ok []
  | prior, v :: vs =>
    match feedFields v with
    | none => .error (.typeError "nudge cursor contains an invalid feed cursor")
    | some (provider, sessionId, value) => do
      assertAllowedKeys ["provider", "session_id", "checkpoint"] v
      let checkpoint ← parseCheckpoint value
      if outOfOrder prior (FeedKey.mk provider sessionId).text then
        .error (.typeError "nudge cursor feeds must be unique and sorted")
      else do
        let feeds ← parseFeeds (some (FeedKey.mk provider sessionId).text) vs
        return { provider, sessionId, checkpoint } :: feeds

/-- `isPositiveSafeInteger` of a member. -/
def positiveAt? (key : String) (v : Json) : Option ℕ := (natAt? key v).filter (0 < ·)

section
variable (E : Host)

/-- The fields every schema has. -/
structure ParsedCursorBase where
  workstreamId : JsString
  membershipFrom : JsString
  cursorRevision : ℕ
  feedCursors : List NudgeFeedCursor
  updatedAt : JsString

def baseKeys : List String :=
  ["schema", "provider", "session_id", "workstream_id", "membership_from", "cursor_revision",
    "feed_cursors", "markers", "updated_at"]

/-- The fields of a cursor of any schema, its feeds still to be read. -/
def baseFields (v : Json) : Option ParsedCursorBase := do
  let workstreamId ← textAt? "workstream_id" v
  let membershipFrom ← textAt? "membership_from" v
  let cursorRevision ← positiveAt? "cursor_revision" v
  let updatedAt ← textAt? "updated_at" v
  if isWorkstreamId workstreamId && (E.dateParse membershipFrom).isSome &&
      (E.dateParse updatedAt).isSome then
    some { workstreamId, membershipFrom, cursorRevision, feedCursors := [], updatedAt }
  else none

def parseCursorBase (provider : ParticipatingProvider) (sessionId : JsString) (allowed : List String)
    (v : Json) : Except Failure ParsedCursorBase := do
  assertAllowedKeys allowed v
  if !equalsText provider.text (v.get (js "provider")) ||
      !equalsText sessionId (v.get (js "session_id")) then
    .error (.typeError "nudge cursor identity does not match its storage path")
  else if !isSessionId sessionId then .error (.typeError "nudge cursor is structurally invalid")
  else
    match baseFields E v with
    | none => .error (.typeError "nudge cursor is structurally invalid")
    | some base =>
      match itemsAt? "feed_cursors" v with
      | none => .error (.typeError "nudge cursor feed_cursors must be an array")
      | some items => do
        let feedCursors ← parseFeeds none items
        return { base with feedCursors }

/-- The marker of one kind: absent, or the present revision. -/
def parseMarker (revision : ℕ) (kind : String) (v : Json) : Except Failure (Option ℕ) :=
  match v.get (js kind) with
  | none => .ok none
  | some _ =>
    if positiveAt? kind v = some revision then .ok (some revision)
    else .error (.typeError s!"nudge cursor {kind} marker is invalid")

def parseMarkersV1 (revision : ℕ) (value : Option Json) : Except Failure NudgeMarkersV1 :=
  match value with
  | some (.obj fs) => do
    assertAllowedKeys ["user_prompt", "tool_boundary", "stop"] (.obj fs)
    let userPrompt ← parseMarker revision "user_prompt" (.obj fs)
    let toolBoundary ← parseMarker revision "tool_boundary" (.obj fs)
    let stop ← parseMarker revision "stop" (.obj fs)
    return { userPrompt, toolBoundary, stop }
  | _ => .error (.typeError "nudge cursor markers must be an object")

def parseMarkersV2 (revision : ℕ) (value : Option Json) : Except Failure NudgeMarkersV2 :=
  match value with
  | some (.obj fs) => do
    assertAllowedKeys ["stop"] (.obj fs)
    let stop ← parseMarker revision "stop" (.obj fs)
    return { stop }
  | _ => .error (.typeError "nudge cursor markers must be an object")

def parseDeliveryTurn (provider : ParticipatingProvider) (generation : Option ℕ) (v : Json) :
    Except Failure NudgeDeliveryTurn :=
  if !isObject (some v) then .error (.typeError "nudge cursor delivery turn must be an object")
  else do
    assertAllowedKeys (turnKeys provider) v
    match turnOfJson provider generation v with
    | some t => return t
    | none =>
      match provider with
      | .codex => .error (.typeError "Codex nudge cursor delivery turn is invalid")
      | .claude => .error (.typeError "Claude nudge cursor delivery turn is invalid")

/-- `value.last_turn`, if it is there. -/
def parseLastTurn (provider : ParticipatingProvider) (generation : Option ℕ) (v : Json) :
    Except Failure (Option NudgeDeliveryTurn) :=
  match v.get (js "last_turn") with
  | none => .ok none
  | some t => do
    let turn ← parseDeliveryTurn provider generation t
    return some turn

def parseDelivery (provider : ParticipatingProvider) (generation : Option ℕ) (value : Option Json) :
    Except Failure NudgeDelivery :=
  match value with
  | some (.obj fs) => do
    assertAllowedKeys ["highest_unread_count", "last_turn"] (.obj fs)
    match natAt? "highest_unread_count" (.obj fs) with
    | none => .error (.typeError "nudge cursor delivery high-water is invalid")
    | some highestUnreadCount => do
      let lastTurn ← parseLastTurn provider generation (.obj fs)
      if lastTurn.isSome ∧ highestUnreadCount = 0 then
        .error (.typeError "nudge cursor delivery turn requires an announcement")
      else return { highestUnreadCount, lastTurn }
  | _ => .error (.typeError "nudge cursor delivery must be an object")

/-- Only a Claude cursor carries a turn generation. -/
def parseGeneration (provider : ParticipatingProvider) (v : Json) : Except Failure (Option ℕ) :=
  match provider with
  | .claude =>
    match positiveAt? "claude_turn_generation" v with
    | some g => .ok (some g)
    | none => .error (.typeError "Claude nudge cursor generation is invalid")
  | .codex =>
    match v.get (js "claude_turn_generation") with
    | some _ => .error (.typeError "Codex nudge cursor cannot carry a Claude generation")
    | none => .ok none

def parseCursorV1 (provider : ParticipatingProvider) (sessionId : JsString) (v : Json) :
    Except Failure NudgeCursorV1 := do
  let base ← parseCursorBase E provider sessionId baseKeys v
  let markers ← parseMarkersV1 base.cursorRevision (v.get (js "markers"))
  return {
    provider := provider.text, sessionId, workstreamId := base.workstreamId
    membershipFrom := base.membershipFrom, cursorRevision := base.cursorRevision
    feedCursors := base.feedCursors, markers, updatedAt := base.updatedAt }

def parseCursorV2 (provider : ParticipatingProvider) (sessionId : JsString) (v : Json) :
    Except Failure NudgeCursorV2 := do
  let base ← parseCursorBase E provider sessionId
    (baseKeys ++ ["delivery", "claude_turn_generation"]) v
  let markers ← parseMarkersV2 base.cursorRevision (v.get (js "markers"))
  let claudeTurnGeneration ← parseGeneration provider v
  let delivery ← parseDelivery provider claudeTurnGeneration (v.get (js "delivery"))
  return {
    provider := provider.text, sessionId, workstreamId := base.workstreamId
    membershipFrom := base.membershipFrom, cursorRevision := base.cursorRevision
    feedCursors := base.feedCursors, markers, delivery, claudeTurnGeneration
    updatedAt := base.updatedAt }

/-- `const { reads, ...legacy } = value` -/
def withoutMember (key : JsString) : Json → Json
  | .obj fs => .obj (fs.filter (fun f => f.1 ≠ key))
  | v => v

def parseCursorValue (provider : ParticipatingProvider) (sessionId : JsString) (v : Json) :
    Except Failure NudgeCursor :=
  if !isObject (some v) then .error (.typeError "unsupported or invalid nudge cursor schema")
  else if equalsText nudgeCursorSchemaV1 (v.get (js "schema")) then do
    let c ← parseCursorV1 E provider sessionId v
    return .v1 c
  else if equalsText nudgeCursorSchemaV2 (v.get (js "schema")) then do
    let c ← parseCursorV2 E provider sessionId v
    return .v2 c
  else if equalsText nudgeCursorSchema (v.get (js "schema")) then do
    let base ← parseCursorV2 E provider sessionId (withoutMember (js "reads") v)
    let reads ← parseNudgeReadState E provider base.claudeTurnGeneration (v.get (js "reads"))
    return .v3 { base with reads }
  else .error (.typeError "unsupported or invalid nudge cursor schema")

def parseCursor (provider : ParticipatingProvider) (sessionId : JsString) (text : JsString) :
    Except Failure NudgeCursor :=
  match Json.parse E.float text with
  | none => .error .syntaxError
  | some v => parseCursorValue E provider sessionId v

/-! ## Transactions on the file -/

/-- What an operation on the cursor returns: the state to write, if any. -/
structure HookCursorUpdate (α : Type) where
  /-- Omit to leave the cursor byte-for-byte untouched. -/
  state : Option NudgeCursorV3 := none
  result : α

/-- Read a cursor file; nothing if there is none. -/
def readCursor (provider : ParticipatingProvider) (sessionId : JsString) (file : Option Bytes) :
    Except Failure (Option NudgeCursor) :=
  match file with
  | none => .ok none
  | some bytes =>
    if bytes.length > maxNudgeCursorBytes then .error (.error "store file is too large")
    else do
      let c ← parseCursor E provider sessionId (bytesToString bytes)
      return some c

/-- Run the same strict validator before serializing hook-owned state. -/
def assertCursorIdentity (provider : ParticipatingProvider) (sessionId : JsString)
    (c : NudgeCursorV3) : Except Failure Unit :=
  if c.provider ≠ provider.text ∨ c.sessionId ≠ sessionId then
    .error (.typeError "nudge cursor writer changed the path-bound identity")
  else do
    let parsed ← parseCursor E provider sessionId c.toJson.render
    match parsed with
    | .v3 _ => return ()
    | _ => .error (.typeError "hook writers may persist only nudge cursor v3")

/-- Atomic read/decide/replace transaction for one cursor, under its directory lock: the
result, and the file afterwards. -/
def withHookWrite {α : Type} (provider : ParticipatingProvider) (sessionId : JsString)
    (file : Option Bytes)
    (operation : Option NudgeCursor → Except Failure (HookCursorUpdate α)) :
    Except Failure (Option Bytes × α) := do
  let current ← readCursor E provider sessionId file
  let update ← operation current
  match update.state with
  | none => return (file, update.result)
  | some c => do
    assertCursorIdentity E provider sessionId c
    if !nudgeCursorFits c then
      .error (.rangeError "Barbaro nudge cursor exceeds 1048576 bytes")
    else return (some (utf8 (cursorText c)), update.result)

end

/-! ## What the validator checks -/

/-- A list of feed entries in a valid cursor. -/
structure FeedsOk (feeds : List NudgeFeedCursor) : Prop where
  each : ∀ f ∈ feeds, isProvider f.provider = true ∧ isSessionId f.sessionId = true ∧ f.checkpoint.Valid
  sorted : feeds.Pairwise (fun a b => compareFeedCursors a b = .lt)

/-- A Claude cursor has a generation, a Codex cursor has none. -/
def generationOk : ParticipatingProvider → Option ℕ → Prop
  | .claude, some g => 1 ≤ g ∧ g ≤ maxSafeInteger
  | .codex, none => True
  | _, _ => False

/-- A recorded last turn implies an announcement. -/
structure DeliveryOk (provider : ParticipatingProvider) (generation : Option ℕ) (d : NudgeDelivery) :
    Prop where
  bound : d.highestUnreadCount ≤ maxSafeInteger
  lastTurn : ∀ t, d.lastTurn = some t → t.ok provider generation = true ∧ d.highestUnreadCount ≠ 0

section
variable (E : Host) (provider : ParticipatingProvider) (sessionId : JsString)

/-- What the validator checks of the fields every schema has. -/
structure BaseOk (workstreamId membershipFrom : JsString) (cursorRevision : ℕ)
    (feeds : List NudgeFeedCursor) (updatedAt : JsString) : Prop where
  session : isSessionId sessionId = true
  workstream : isWorkstreamId workstreamId = true
  membership : (E.dateParse membershipFrom).isSome = true
  updated : (E.dateParse updatedAt).isSome = true
  revision : 1 ≤ cursorRevision ∧ cursorRevision ≤ maxSafeInteger
  feeds : FeedsOk feeds

/-- A valid cursor of schema v1. -/
structure CursorV1Ok (c : NudgeCursorV1) : Prop where
  provider_eq : c.provider = provider.text
  sessionId_eq : c.sessionId = sessionId
  base : BaseOk E sessionId c.workstreamId c.membershipFrom c.cursorRevision c.feedCursors c.updatedAt
  stop : ∀ r, c.markers.stop = some r → r = c.cursorRevision

/-- A valid cursor of schema v2; the present schema adds the reads to it. -/
structure CursorV2Ok (c : NudgeCursorV2) : Prop where
  provider_eq : c.provider = provider.text
  sessionId_eq : c.sessionId = sessionId
  base : BaseOk E sessionId c.workstreamId c.membershipFrom c.cursorRevision c.feedCursors c.updatedAt
  stop : ∀ r, c.markers.stop = some r → r = c.cursorRevision
  generation : generationOk provider c.claudeTurnGeneration
  delivery : DeliveryOk provider c.claudeTurnGeneration c.delivery

/-- **A valid cursor** of the present schema. -/
structure CursorOk (c : NudgeCursorV3) : Prop where
  legacy : CursorV2Ok E provider sessionId c.toNudgeCursorV2
  reads : c.reads.Ok E provider c.claudeTurnGeneration

/-- A valid cursor of any schema. -/
def NudgeCursor.Ok : NudgeCursor → Prop
  | .v1 c => CursorV1Ok E provider sessionId c
  | .v2 c => CursorV2Ok E provider sessionId c
  | .v3 c => CursorOk E provider sessionId c

end

/-! ## The validator accepts only valid cursors -/

theorem positiveAt_ok {key : String} {v : Json} {n : ℕ} (h : positiveAt? key v = some n) :
    1 ≤ n ∧ n ≤ maxSafeInteger := by
  rw [positiveAt?, Option.filter_eq_some_iff] at h
  exact ⟨by simpa [Nat.succ_le_iff] using h.2, natAt_ok h.1⟩

theorem parseCheckpoint_ok {v : Json} {c : JsonlCheckpoint} (h : parseCheckpoint v = .ok c) : c.Valid := by
  simp only [parseCheckpoint, Outcome.bind_ok, Outcome.exists_unit] at h
  obtain ⟨-, h⟩ := h
  split at h
  · simp only [Outcome.bind_ok, Outcome.exists_unit, Outcome.pure_ok] at h
    obtain ⟨-, -, hvalid, rfl⟩ := h
    exact validateJsonlCheckpoint_ok.1 hvalid
  · cases h

theorem parseFeeds_ok {prior : Option JsString} {items : List Json} {feeds : List NudgeFeedCursor}
    (h : parseFeeds prior items = .ok feeds) :
    FeedsOk feeds ∧ ∀ p, prior = some p → ∀ f ∈ feeds, compareUtf16CodeUnits p f.key.text = .lt := by
  induction items generalizing prior feeds with
  | nil => cases h; exact ⟨⟨by simp, .nil⟩, by simp⟩
  | cons v vs ih =>
    rw [parseFeeds] at h
    split at h
    · cases h
    · next provider sessionId value hfields =>
      simp only [Outcome.bind_ok, Outcome.exists_unit, Outcome.guard_ok, Outcome.pure_ok,
        Bool.not_eq_true] at h
      obtain ⟨-, checkpoint, hcp, horder, rest, hrest, rfl⟩ := h
      obtain ⟨hok, hafter⟩ := ih hrest
      have hids : isProvider provider = true ∧ isSessionId sessionId = true := by
        simp only [feedFields, Option.bind_eq_bind, Option.bind_eq_some_iff] at hfields
        obtain ⟨p, -, s, -, c, -, hfields⟩ := hfields
        split at hfields
        · next hc =>
          simp only [Option.some.injEq, Prod.mk.injEq] at hfields
          obtain ⟨rfl, rfl, rfl⟩ := hfields
          simp only [Bool.and_eq_true] at hc
          exact hc.1
        · cases hfields
      have hafter := hafter _ rfl
      refine ⟨⟨?_, List.pairwise_cons.2 ⟨hafter, hok.sorted⟩⟩, ?_⟩
      · intro f hf
        rcases List.mem_cons.1 hf with rfl | hf
        · exact ⟨hids.1, hids.2, parseCheckpoint_ok hcp⟩
        · exact hok.each f hf
      · rintro p rfl f hf
        have hp : compareUtf16CodeUnits p (FeedKey.mk provider sessionId).text = .lt := by
          simpa [outOfOrder] using horder
        rcases List.mem_cons.1 hf with rfl | hf
        · exact hp
        · exact compare_lt_trans hp (hafter f hf)

section
variable {E : Host} {provider : ParticipatingProvider} {sessionId : JsString}

theorem parseCursorBase_ok {allowed : List String} {v : Json} {b : ParsedCursorBase}
    (h : parseCursorBase E provider sessionId allowed v = .ok b) :
    BaseOk E sessionId b.workstreamId b.membershipFrom b.cursorRevision b.feedCursors b.updatedAt := by
  simp only [parseCursorBase, Outcome.bind_ok, Outcome.exists_unit, Outcome.guard_ok,
    Bool.not_eq_true', Bool.not_eq_false] at h
  obtain ⟨-, -, hsession, h⟩ := h
  split at h
  · cases h
  · next base hbase =>
    split at h
    · cases h
    · simp only [Outcome.bind_ok, Outcome.pure_ok] at h
      obtain ⟨feeds, hfeeds, rfl⟩ := h
      simp only [baseFields, Option.bind_eq_bind, Option.bind_eq_some_iff] at hbase
      obtain ⟨w, -, m, -, r, hr, u, -, hbase⟩ := hbase
      split at hbase
      · next hc =>
        cases hbase
        simp only [Bool.and_eq_true] at hc
        exact ⟨hsession, hc.1.1, hc.1.2, hc.2, positiveAt_ok hr, (parseFeeds_ok hfeeds).1⟩
      · cases hbase

theorem parseMarker_ok {revision : ℕ} {kind : String} {v : Json} {m : Option ℕ}
    (h : parseMarker revision kind v = .ok m) : ∀ r, m = some r → r = revision := by
  rw [parseMarker] at h
  split at h
  · cases h; simp
  · split at h
    · cases h; simp
    · cases h

theorem parseCursorV1_ok {v : Json} {c : NudgeCursorV1}
    (h : parseCursorV1 E provider sessionId v = .ok c) : CursorV1Ok E provider sessionId c := by
  simp only [parseCursorV1, Outcome.bind_ok, Outcome.pure_ok] at h
  obtain ⟨base, hbase, markers, hmarkers, rfl⟩ := h
  refine ⟨rfl, rfl, parseCursorBase_ok hbase, ?_⟩
  rw [parseMarkersV1.eq_def] at hmarkers
  split at hmarkers
  · simp only [Outcome.bind_ok, Outcome.exists_unit, Outcome.pure_ok] at hmarkers
    obtain ⟨-, u, -, t, -, s, hs, rfl⟩ := hmarkers
    exact parseMarker_ok hs
  · cases hmarkers

theorem parseMarkersV2_ok {revision : ℕ} {value : Option Json} {m : NudgeMarkersV2}
    (h : parseMarkersV2 revision value = .ok m) : ∀ r, m.stop = some r → r = revision := by
  rw [parseMarkersV2.eq_def] at h
  split at h
  · simp only [Outcome.bind_ok, Outcome.exists_unit, Outcome.pure_ok] at h
    obtain ⟨-, s, hs, rfl⟩ := h
    exact parseMarker_ok hs
  · cases h

theorem parseGeneration_ok {v : Json} {g : Option ℕ} (h : parseGeneration provider v = .ok g) :
    generationOk provider g := by
  cases provider with
  | claude =>
    simp only [parseGeneration] at h
    split at h
    · next n hn => cases h; exact positiveAt_ok hn
    · cases h
  | codex =>
    simp only [parseGeneration] at h
    split at h
    · cases h
    · cases h; trivial

theorem parseDeliveryTurn_ok {generation : Option ℕ} {v : Json} {t : NudgeDeliveryTurn}
    (h : parseDeliveryTurn provider generation v = .ok t) : t.ok provider generation = true := by
  simp only [parseDeliveryTurn, Outcome.guard_ok, Outcome.bind_ok, Outcome.exists_unit] at h
  obtain ⟨-, -, h⟩ := h
  split at h
  · next t' ht => simp only [Outcome.pure_ok] at h; subst h; exact turnOfJson_ok ht
  · cases provider <;> cases h

theorem parseDelivery_ok {generation : Option ℕ} {value : Option Json} {d : NudgeDelivery}
    (h : parseDelivery provider generation value = .ok d) : DeliveryOk provider generation d := by
  rw [parseDelivery.eq_def] at h
  split at h
  · simp only [Outcome.bind_ok, Outcome.exists_unit] at h
    obtain ⟨-, h⟩ := h
    split at h
    · cases h
    · next n hn =>
      simp only [Outcome.bind_ok, Outcome.guard_ok, Outcome.pure_ok, not_and] at h
      obtain ⟨lastTurn, hlast, hpos, rfl⟩ := h
      refine ⟨natAt_ok hn, ?_⟩
      rintro t rfl
      refine ⟨?_, hpos rfl⟩
      rw [parseLastTurn] at hlast
      split at hlast
      · cases hlast
      · simp only [Outcome.bind_ok, Outcome.pure_ok, Option.some.injEq, exists_eq_right] at hlast
        exact parseDeliveryTurn_ok hlast
  · cases h

theorem parseCursorV2_ok {v : Json} {c : NudgeCursorV2}
    (h : parseCursorV2 E provider sessionId v = .ok c) : CursorV2Ok E provider sessionId c := by
  simp only [parseCursorV2, Outcome.bind_ok, Outcome.pure_ok] at h
  obtain ⟨base, hbase, markers, hmarkers, generation, hgen, delivery, hdelivery, rfl⟩ := h
  exact ⟨rfl, rfl, parseCursorBase_ok hbase, parseMarkersV2_ok hmarkers, parseGeneration_ok hgen,
    parseDelivery_ok hdelivery⟩

/-- **The validator accepts only valid cursors.** -/
theorem parseCursor_ok {text : JsString} {c : NudgeCursor}
    (h : parseCursor E provider sessionId text = .ok c) : c.Ok E provider sessionId := by
  rw [parseCursor] at h
  split at h
  · cases h
  · rw [parseCursorValue, Outcome.guard_ok] at h
    replace h := h.2
    split at h
    · simp only [Outcome.bind_ok, Outcome.pure_ok] at h
      obtain ⟨c', hc, rfl⟩ := h
      exact parseCursorV1_ok hc
    · split at h
      · simp only [Outcome.bind_ok, Outcome.pure_ok] at h
        obtain ⟨c', hc, rfl⟩ := h
        exact parseCursorV2_ok hc
      · split at h
        · simp only [Outcome.bind_ok, Outcome.pure_ok] at h
          obtain ⟨base, hbase, reads, hreads, rfl⟩ := h
          exact ⟨parseCursorV2_ok hbase, parseNudgeReadState_ok hreads⟩
        · cases h

end

end Barbaro
