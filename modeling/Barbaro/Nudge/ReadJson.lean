import Barbaro.Nudge.ReadState

/-!
# The JSON form of the read state

The validator of the read state of a cursor, shared by the cursor store and the reader of
delivered output, and the form it is written in. The members of every object are in the
order of `stableStringify`.

* `NudgeReadState.Ok`: what the validator checks.
* `parseNudgeReadState_ok`: it accepts only such states.
* `parseNudgeReadState_toJson`: it reads every such state back.
-/

namespace Barbaro

/-! ## Members -/

/-- `typeof value === "string" && value.length > 0 && Buffer.byteLength(value) <= maximum` -/
def bounded (maximum : ℕ) (s : JsString) : Bool := 0 < s.length && byteLength s ≤ maximum

/-! ## Turns -/

def NudgeDeliveryTurn.toJson : NudgeDeliveryTurn → Json
  | .codex turnId => .obj [(js "kind", .str (js "codex")), (js "turn_id", .str turnId)]
  | .claude generation => .obj [(js "generation", natJson generation), (js "kind", .str (js "claude"))]

/-- A turn a cursor of this provider and generation may hold. -/
def NudgeDeliveryTurn.ok (provider : ParticipatingProvider) (generation : Option ℕ) :
    NudgeDeliveryTurn → Bool
  | .codex turnId => provider = .codex && isTurnId turnId
  | .claude g =>
    provider = .claude && 1 ≤ g && g ≤ maxSafeInteger &&
      (match generation with | some n => g ≤ n | none => false)

/-- The turn of a value, once its keys are checked. The texts of the errors differ between
the two places that read a turn. -/
def turnOfJson (provider : ParticipatingProvider) (generation : Option ℕ) (v : Json) :
    Option NudgeDeliveryTurn :=
  match provider with
  | .codex =>
    if equalsText (js "codex") (v.get (js "kind")) then
      match textAt? "turn_id" v with
      | some turnId => if isTurnId turnId then some (.codex turnId) else none
      | none => none
    else none
  | .claude =>
    if equalsText (js "claude") (v.get (js "kind")) then
      match natAt? "generation" v with
      | some g => if (NudgeDeliveryTurn.claude g).ok .claude generation then some (.claude g) else none
      | none => none
    else none

def turnKeys : ParticipatingProvider → List String
  | .codex => ["kind", "turn_id"]
  | .claude => ["kind", "generation"]

def parseReadTurn (provider : ParticipatingProvider) (generation : Option ℕ) (value : Option Json) :
    Except Failure NudgeDeliveryTurn :=
  match value with
  | some v =>
    if !isObject (some v) then .error (.typeError "invalid read delivery turn")
    else if unknownKeys (turnKeys provider) v then .error (.typeError "unknown nudge read field")
    else
      match turnOfJson provider generation v with
      | some t => .ok t
      | none =>
        match provider with
        | .codex => .error (.typeError "pending read belongs to another provider turn")
        | .claude => .error (.typeError "pending read has an invalid Claude generation")
  | none => .error (.typeError "invalid read delivery turn")

theorem turnOfJson_ok {provider : ParticipatingProvider} {generation : Option ℕ} {v : Json}
    {t : NudgeDeliveryTurn} (h : turnOfJson provider generation v = some t) :
    t.ok provider generation = true := by
  cases provider with
  | codex =>
    simp only [turnOfJson] at h
    split at h
    · split at h
      · split at h
        · next hid => cases h; simpa [NudgeDeliveryTurn.ok] using hid
        · cases h
      · cases h
    · cases h
  | claude =>
    simp only [turnOfJson] at h
    split at h
    · split at h
      · split at h
        · next hg => cases h; exact hg
        · cases h
      · cases h
    · cases h

theorem turnOfJson_toJson {provider : ParticipatingProvider} {generation : Option ℕ}
    {t : NudgeDeliveryTurn} (h : t.ok provider generation = true) :
    isObject (some t.toJson) = true ∧ unknownKeys (turnKeys provider) t.toJson = false ∧
      turnOfJson provider generation t.toJson = some t := by
  cases t with
  | codex turnId =>
    simp only [NudgeDeliveryTurn.ok, Bool.and_eq_true, decide_eq_true_eq] at h
    obtain ⟨rfl, hid⟩ := h
    simp [NudgeDeliveryTurn.toJson, isObject, unknownKeys, turnKeys, turnOfJson, Json.get, Json.lookup,
      equalsText, textAt?, hid]
  | claude g =>
    have hok := h
    simp only [NudgeDeliveryTurn.ok, Bool.and_eq_true, decide_eq_true_eq] at h
    obtain ⟨⟨⟨rfl, -⟩, hg⟩, -⟩ := h
    have hnat : natAt? "generation" (NudgeDeliveryTurn.claude g).toJson = some g :=
      natAt_natJson (by simp [NudgeDeliveryTurn.toJson, Json.get, Json.lookup]) hg
    refine ⟨rfl, by simp [NudgeDeliveryTurn.toJson, unknownKeys, turnKeys], ?_⟩
    rw [turnOfJson, hnat]
    simp [NudgeDeliveryTurn.toJson, Json.get, Json.lookup, equalsText, hok]

theorem parseReadTurn_ok {provider : ParticipatingProvider} {generation : Option ℕ}
    {value : Option Json} {t : NudgeDeliveryTurn}
    (h : parseReadTurn provider generation value = .ok t) : t.ok provider generation = true := by
  cases value with
  | none => cases h
  | some v =>
    simp only [parseReadTurn, Outcome.guard_ok] at h
    obtain ⟨-, -, h⟩ := h
    split at h
    · next t' ht => cases h; exact turnOfJson_ok ht
    · cases provider <;> cases h

theorem parseReadTurn_toJson {provider : ParticipatingProvider} {generation : Option ℕ}
    {t : NudgeDeliveryTurn} (h : t.ok provider generation = true) :
    parseReadTurn provider generation (some t.toJson) = .ok t := by
  obtain ⟨h1, h2, h3⟩ := turnOfJson_toJson h
  simp [parseReadTurn, h1, h2, h3]

/-! ## Coverage -/

def ReadField.ofText (s : JsString) : Option ReadField :=
  if s = js "record" then some .record
  else if s = js "request" then some .request
  else if s = js "response" then some .response
  else none

theorem ReadField.ofText_text (f : ReadField) : ReadField.ofText f.text = some f := by
  cases f <;> simp [ReadField.ofText, ReadField.text]

def rangeJson (r : NudgeReadRange) : Json := .obj [(js "end", natJson r.stop), (js "start", natJson r.start)]

def NudgeReadCoverage.toJson (e : NudgeReadCoverage) : Json :=
  .obj [
    (js "field", .str e.field.text), (js "field_sha256", .str e.fieldSha256),
    (js "provider", .str e.provider), (js "ranges", .arr (e.ranges.map rangeJson)),
    (js "record_sha256", .str e.recordSha256), (js "session_id", .str e.sessionId),
    (js "total_bytes", natJson e.totalBytes), (js "turn_id", .str e.turnId)]

def rangeError : Failure :=
  .typeError "delivered ranges must be disjoint, normalized and in bounds"

/-- The loop over the ranges of an entry, with the end of the one before. -/
def parseRanges (totalBytes : ℕ) : Option ℕ → List Json → Except Failure (List NudgeReadRange)
  | _, [] => .ok []
  | previous, v :: vs =>
    if !isObject (some v) then .error (.typeError "invalid delivered range")
    else if unknownKeys ["start", "end"] v then .error (.typeError "unknown nudge read field")
    else
      match natAt? "start" v, natAt? "end" v with
      | some start, some stop =>
        if !rangesOk totalBytes previous [⟨start, stop⟩] then .error rangeError
        else do
          let ranges ← parseRanges totalBytes (some stop) vs
          return ⟨start, stop⟩ :: ranges
      | _, _ => .error rangeError

/-- The fields of an entry; the ranges are still to be read. -/
def coverageFields (v : Json) : Option (NudgeReadCoverage × List Json) := do
  let provider ← textAt? "provider" v
  let sessionId ← textAt? "session_id" v
  let turnId ← textAt? "turn_id" v
  let recordSha256 ← textAt? "record_sha256" v
  let fieldSha256 ← textAt? "field_sha256" v
  let fieldText ← textAt? "field" v
  let field ← ReadField.ofText fieldText
  let totalBytes ← natAt? "total_bytes" v
  let ranges ← itemsAt? "ranges" v
  return ({ provider, sessionId, turnId, recordSha256, field, fieldSha256, totalBytes, ranges := [] },
    ranges)

/-- The identities of an entry are well formed. -/
def coverageBindingOk (e : NudgeReadCoverage) (rangeCount : ℕ) : Bool :=
  isProvider e.provider && isSessionId e.sessionId && isTurnId e.turnId &&
    isSha256Hex e.recordSha256 && isSha256Hex e.fieldSha256 && e.totalBytes ≤ maxSafeInteger &&
    rangeCount ≠ 0 && rangeCount ≤ maxReadCoverageRanges

def parseCoverage (v : Json) : Except Failure NudgeReadCoverage :=
  if !isObject (some v) then .error (.typeError "invalid delivered record coverage")
  else if unknownKeys ["provider", "session_id", "turn_id", "record_sha256", "field", "field_sha256",
      "total_bytes", "ranges"] v then .error (.typeError "unknown nudge read field")
  else
    match coverageFields v with
    | none => .error (.typeError "invalid delivered record coverage binding")
    | some (e, items) =>
      if !coverageBindingOk e items.length then
        .error (.typeError "invalid delivered record coverage binding")
      else do
        let ranges ← parseRanges e.totalBytes none items
        return { e with ranges }

theorem coverageOk_iff (e : NudgeReadCoverage) : coverageOk e = true ↔
    coverageBindingOk e e.ranges.length = true ∧ rangesOk e.totalBytes none e.ranges = true := by
  simp only [coverageOk, coverageBindingOk, Bool.and_eq_true, decide_eq_true_eq, ne_eq,
    List.length_eq_zero_iff]

theorem mapM_length {α β : Type} {f : α → Except Failure β} {xs : List α} {ys : List β}
    (h : xs.mapM f = .ok ys) : ys.length = xs.length := by
  induction xs generalizing ys with
  | nil => simp only [List.mapM_nil, Outcome.pure_ok] at h; subst h; rfl
  | cons x xs ih =>
    simp only [List.mapM_cons, Outcome.bind_ok, Outcome.pure_ok] at h
    obtain ⟨y, -, zs, hzs, rfl⟩ := h
    simp [ih hzs]

theorem mapM_map {α β : Type} {f : β → Except Failure α} {g : α → β} {xs : List α}
    (h : ∀ x ∈ xs, f (g x) = .ok x) : (xs.map g).mapM f = .ok xs := by
  induction xs with
  | nil => rfl
  | cons x xs ih =>
    rw [List.map_cons, List.mapM_cons, h x (by simp), ih (fun y hy => h y (List.mem_cons_of_mem _ hy))]
    rfl

theorem mapM_all {α β : Type} {f : α → Except Failure β} {p : β → Prop}
    (hf : ∀ x y, f x = .ok y → p y) {xs : List α} {ys : List β} (h : xs.mapM f = .ok ys) :
    ∀ y ∈ ys, p y := by
  induction xs generalizing ys with
  | nil => simp only [List.mapM_nil, Outcome.pure_ok] at h; subst h; simp
  | cons x xs ih =>
    simp only [List.mapM_cons, Outcome.bind_ok, Outcome.pure_ok] at h
    obtain ⟨y, hy, zs, hzs, rfl⟩ := h
    intro z hz
    rcases List.mem_cons.1 hz with rfl | hz
    · exact hf x _ hy
    · exact ih hzs z hz

theorem rangesOk_cons (n : ℕ) (previous : Option ℕ) (r : NudgeReadRange) (rs : List NudgeReadRange) :
    rangesOk n previous (r :: rs) = (rangesOk n previous [r] && rangesOk n (some r.stop) rs) := by
  simp [rangesOk]

theorem parseRanges_ok {n : ℕ} {previous : Option ℕ} {items : List Json} {rs : List NudgeReadRange}
    (h : parseRanges n previous items = .ok rs) :
    rangesOk n previous rs = true ∧ rs.length = items.length := by
  induction items generalizing previous rs with
  | nil => cases h; exact ⟨rfl, rfl⟩
  | cons v vs ih =>
    simp only [parseRanges, Outcome.guard_ok] at h
    obtain ⟨-, -, h⟩ := h
    split at h
    · simp only [Outcome.guard_ok, Outcome.bind_ok, Outcome.pure_ok, Bool.not_eq_true',
        Bool.not_eq_false] at h
      obtain ⟨hr, rest, hrest, rfl⟩ := h
      obtain ⟨h1, h2⟩ := ih hrest
      exact ⟨by rw [rangesOk_cons, hr, h1]; rfl, by simp [h2]⟩
    · cases h

theorem parseRanges_toJson {n : ℕ} (hn : n ≤ maxSafeInteger) {previous : Option ℕ}
    {rs : List NudgeReadRange} (h : rangesOk n previous rs = true) :
    parseRanges n previous (rs.map rangeJson) = .ok rs := by
  induction rs generalizing previous with
  | nil => rfl
  | cons r rs ih =>
    obtain ⟨hall, -⟩ := rangesOk_iff.1 h
    obtain ⟨hr1, hr2, -⟩ := hall r (by simp)
    rw [rangesOk_cons, Bool.and_eq_true] at h
    have hs : natAt? "start" (rangeJson r) = some r.start :=
      natAt_natJson (by simp [rangeJson, Json.get, Json.lookup]) (by omega)
    have he : natAt? "end" (rangeJson r) = some r.stop :=
      natAt_natJson (by simp [rangeJson, Json.get, Json.lookup]) (by omega)
    have hobj : isObject (some (rangeJson r)) = true := rfl
    have hkeys : unknownKeys ["start", "end"] (rangeJson r) = false := by simp [rangeJson, unknownKeys]
    simp only [List.map_cons, parseRanges, hobj, hkeys, hs, he, h.1, ih h.2, Outcome.ok_bind,
      Bool.not_true, Bool.false_eq_true, if_false]
    rfl

theorem parseCoverage_ok {v : Json} {e : NudgeReadCoverage} (h : parseCoverage v = .ok e) :
    coverageOk e = true := by
  simp only [parseCoverage, Outcome.guard_ok] at h
  obtain ⟨-, -, h⟩ := h
  split at h
  · cases h
  · next e' items _ =>
    simp only [Outcome.guard_ok, Outcome.bind_ok, Outcome.pure_ok, Bool.not_eq_true', Bool.not_eq_false] at h
    obtain ⟨hbind, ranges, hr, rfl⟩ := h
    obtain ⟨hok, hlen⟩ := parseRanges_ok hr
    rw [coverageOk_iff]
    exact ⟨by rw [hlen]; exact hbind, hok⟩

theorem parseCoverage_toJson {e : NudgeReadCoverage} (h : coverageOk e = true) :
    parseCoverage e.toJson = .ok e := by
  obtain ⟨hbind, hranges⟩ := (coverageOk_iff e).1 h
  have htotal : e.totalBytes ≤ maxSafeInteger := by
    simp only [coverageBindingOk, Bool.and_eq_true, decide_eq_true_eq] at hbind
    exact hbind.1.1.2
  have hnat : natAt? "total_bytes" e.toJson = some e.totalBytes :=
    natAt_natJson (by simp [NudgeReadCoverage.toJson, Json.get, Json.lookup]) htotal
  have hfields : coverageFields e.toJson = some ({ e with ranges := [] }, e.ranges.map rangeJson) := by
    rw [coverageFields, hnat]
    simp [NudgeReadCoverage.toJson, textAt?, itemsAt?, Json.get, Json.lookup, ReadField.ofText_text]
  have hitems : parseRanges e.totalBytes none (e.ranges.map rangeJson) = .ok e.ranges :=
    parseRanges_toJson htotal hranges
  have hbind' : coverageBindingOk { e with ranges := [] } (e.ranges.map rangeJson).length = true := by
    rw [List.length_map]
    exact hbind
  have hobj : isObject (some e.toJson) = true := rfl
  have hkeys : unknownKeys ["provider", "session_id", "turn_id", "record_sha256", "field",
      "field_sha256", "total_bytes", "ranges"] e.toJson = false := by
    simp [NudgeReadCoverage.toJson, unknownKeys]
  simp only [parseCoverage, hobj, hkeys, hfields, hbind', hitems, Outcome.ok_bind, Bool.not_true,
    Bool.false_eq_true, if_false]
  rfl

/-! ## Pending reads -/

section
variable (E : Host)

def NudgePendingRead.toJson (p : NudgePendingRead) : Json :=
  .obj ([(js "command", .str p.command), (js "created_at", .str p.createdAt),
      (js "expires_at", .str p.expiresAt), (js "nonce", .str p.nonce)] ++
    optionalMember "output" (p.output.map Json.str) ++
    [(js "project_root", .str p.projectRoot), (js "query_sha256", .str p.querySha256),
      (js "tool_input_sha256", .str p.toolInputSha256), (js "tool_use_id", .str p.toolUseId),
      (js "turn", p.turn.toJson)])

/-- `matches(value, /^[0-9a-f]{32}$/u)` -/
def isNonce (s : JsString) : Bool := s.length == 32 && s.all isHexDigit

/-- `bounded(value, 64) && Number.isFinite(Date.parse(value))` -/
def isTimestamp (s : JsString) : Bool := bounded 64 s && (E.dateParse s).isSome

/-- The read is in force from its creation for a bounded time. -/
def withinTtl (createdAt expiresAt : JsString) : Bool :=
  match E.dateParse createdAt, E.dateParse expiresAt with
  | some c, some e => c < e && e - c ≤ readInvocationTtlMs
  | _, _ => false

/-- The checks on a pending read other than the one on its turn. -/
def pendingBindingOk (p : NudgePendingRead) : Bool :=
  isNonce p.nonce && bounded 512 p.toolUseId && bounded 4096 p.projectRoot &&
    p.projectRoot.head? == some 47 && bounded 8192 p.command && isSha256Hex p.querySha256 &&
    isSha256Hex p.toolInputSha256 && isTimestamp E p.createdAt && isTimestamp E p.expiresAt &&
    withinTtl E p.createdAt p.expiresAt &&
    (match p.output with | some o => bounded readOutputCeilingBytes o | none => true)

/-- The string at a key, if the key is there. -/
def optionalText (key : String) (v : Json) : Option (Option JsString) :=
  match v.get (js key) with
  | none => some none
  | some (.str s) => some (some s)
  | some _ => none

/-- The fields of a pending read; the turn is still to be read. -/
def pendingFields (v : Json) : Option NudgePendingRead := do
  let nonce ← textAt? "nonce" v
  let toolUseId ← textAt? "tool_use_id" v
  let projectRoot ← textAt? "project_root" v
  let command ← textAt? "command" v
  let querySha256 ← textAt? "query_sha256" v
  let toolInputSha256 ← textAt? "tool_input_sha256" v
  let createdAt ← textAt? "created_at" v
  let expiresAt ← textAt? "expires_at" v
  let output ← optionalText "output" v
  return {
    nonce, toolUseId, projectRoot, command, querySha256, toolInputSha256, createdAt, expiresAt, output
    turn := .codex [] }

def parsePending (provider : ParticipatingProvider) (generation : Option ℕ) (v : Json) :
    Except Failure NudgePendingRead :=
  if !isObject (some v) then .error (.typeError "invalid pending read")
  else if unknownKeys ["nonce", "tool_use_id", "turn", "project_root", "command", "query_sha256",
      "tool_input_sha256", "created_at", "expires_at", "output"] v then
    .error (.typeError "unknown nudge read field")
  else
    match pendingFields v with
    | none => .error (.typeError "invalid pending read binding")
    | some p =>
      if !pendingBindingOk E p then .error (.typeError "invalid pending read binding")
      else do
        let turn ← parseReadTurn provider generation (v.get (js "turn"))
        return { p with turn }

/-- A pending read a cursor of this provider and generation may hold. -/
def NudgePendingRead.ok (provider : ParticipatingProvider) (generation : Option ℕ)
    (p : NudgePendingRead) : Bool :=
  pendingBindingOk E p && p.turn.ok provider generation

variable {E}

theorem parsePending_ok {provider : ParticipatingProvider} {generation : Option ℕ} {v : Json}
    {p : NudgePendingRead} (h : parsePending E provider generation v = .ok p) :
    p.ok E provider generation = true := by
  simp only [parsePending, Outcome.guard_ok] at h
  obtain ⟨-, -, h⟩ := h
  split at h
  · cases h
  · simp only [Outcome.guard_ok, Outcome.bind_ok, Outcome.pure_ok, Bool.not_eq_true', Bool.not_eq_false] at h
    obtain ⟨hbind, turn, hturn, rfl⟩ := h
    simp only [NudgePendingRead.ok, Bool.and_eq_true]
    exact ⟨hbind, parseReadTurn_ok hturn⟩

theorem parsePending_toJson {provider : ParticipatingProvider} {generation : Option ℕ}
    {p : NudgePendingRead} (h : p.ok E provider generation = true) :
    parsePending E provider generation p.toJson = .ok p := by
  simp only [NudgePendingRead.ok, Bool.and_eq_true] at h
  obtain ⟨hbind, hturn⟩ := h
  have hfields : pendingFields p.toJson = some { p with turn := .codex [] } := by
    rcases ho : p.output with _ | o <;>
      simp [pendingFields, optionalText, NudgePendingRead.toJson, optionalMember, textAt?, Json.get,
        Json.lookup, ho]
  have hkeys : unknownKeys ["nonce", "tool_use_id", "turn", "project_root", "command", "query_sha256",
      "tool_input_sha256", "created_at", "expires_at", "output"] p.toJson = false := by
    rcases ho : p.output with _ | o <;>
      simp [NudgePendingRead.toJson, optionalMember, unknownKeys, ho]
  have hget : p.toJson.get (js "turn") = some p.turn.toJson := by
    rcases ho : p.output with _ | o <;>
      simp [NudgePendingRead.toJson, optionalMember, Json.get, Json.lookup, ho]
  have hobj : isObject (some p.toJson) = true := rfl
  have hbind' : pendingBindingOk E { p with turn := .codex [] } = true := hbind
  simp only [parsePending, hobj, hkeys, hfields, hbind', hget, parseReadTurn_toJson hturn,
    Outcome.ok_bind, Bool.not_true, Bool.false_eq_true, if_false]
  rfl

/-! ## The read state -/

def NudgeReadState.toJson (s : NudgeReadState) : Json :=
  .obj ((js "coverage", .arr (s.coverage.map NudgeReadCoverage.toJson)) ::
    optionalMember "informed_turn" (s.informedTurn.map NudgeDeliveryTurn.toJson) ++
    [(js "outside_window", .bool s.outsideWindow),
      (js "pending", .arr (s.pending.map NudgePendingRead.toJson))])

/-- `new Set(values).size === values.length` -/
def unique {α : Type} [DecidableEq α] (values : List α) : Bool := decide values.Nodup

def duplicateIdentity : Failure := .typeError "duplicate nudge read identity"

/-- The lists of a read state, in bounds. -/
def readStateLists (v : Json) : Option (List Json × List Json × Bool) := do
  let pending ← itemsAt? "pending" v
  let coverage ← itemsAt? "coverage" v
  let outsideWindow ← boolAt? "outside_window" v
  if pending.length ≤ maxPendingReads ∧ coverage.length ≤ maxReadCoverageRecords then
    some (pending, coverage, outsideWindow)
  else none

/-- `value.informed_turn`, if it is there. -/
def parseInformedTurn (provider : ParticipatingProvider) (generation : Option ℕ) (v : Json) :
    Except Failure (Option NudgeDeliveryTurn) :=
  match v.get (js "informed_turn") with
  | none => .ok none
  | some t => do
    let turn ← parseReadTurn provider generation (some t)
    return some turn

variable (E)

/-- Shared strict decoder for the hook writer and the read-only cursor projections. -/
def parseNudgeReadState (provider : ParticipatingProvider) (generation : Option ℕ)
    (value : Option Json) : Except Failure NudgeReadState :=
  match value with
  | none => .error (.typeError "invalid nudge read state")
  | some v =>
    if !isObject (some v) then .error (.typeError "invalid nudge read state")
    else if unknownKeys ["pending", "coverage", "outside_window", "informed_turn"] v then
      .error (.typeError "unknown nudge read field")
    else
      match readStateLists v with
      | none => .error (.typeError "invalid nudge read state bounds")
      | some (pendingItems, coverageItems, outsideWindow) => do
        let pending ← pendingItems.mapM (parsePending E provider generation)
        if !unique (pending.map NudgePendingRead.nonce) ||
            !unique (pending.map NudgePendingRead.toolUseId) then .error duplicateIdentity
        else do
          let coverage ← coverageItems.mapM parseCoverage
          if !unique (coverage.map coverageKey) then .error duplicateIdentity
          else do
            let informedTurn ← parseInformedTurn provider generation v
            return { pending, coverage, outsideWindow, informedTurn }

/-- What the validator checks of a read state. -/
structure NudgeReadState.Ok (provider : ParticipatingProvider) (generation : Option ℕ)
    (s : NudgeReadState) : Prop where
  pending : ∀ p ∈ s.pending, p.ok E provider generation = true
  pendingBound : s.pending.length ≤ maxPendingReads
  nonces : (s.pending.map NudgePendingRead.nonce).Nodup
  toolUseIds : (s.pending.map NudgePendingRead.toolUseId).Nodup
  coverage : CoverageListOk s.coverage
  coverageBound : s.coverage.length ≤ maxReadCoverageRecords
  informedTurn : ∀ t, s.informedTurn = some t → t.ok provider generation = true

variable {E}

theorem parseNudgeReadState_ok {provider : ParticipatingProvider} {generation : Option ℕ}
    {value : Option Json} {s : NudgeReadState}
    (h : parseNudgeReadState E provider generation value = .ok s) : s.Ok E provider generation := by
  cases value with
  | none => cases h
  | some v =>
    simp only [parseNudgeReadState, Outcome.guard_ok] at h
    obtain ⟨-, -, h⟩ := h
    split at h
    · cases h
    · next pendingItems coverageItems outsideWindow hlists =>
      simp only [Outcome.bind_ok, Outcome.guard_ok, Outcome.pure_ok, unique, Bool.or_eq_true,
        Bool.not_eq_true', decide_eq_false_iff_not, not_or, not_not] at h
      obtain ⟨pending, hp, ⟨hn, ht⟩, coverage, hc, hu, informedTurn, hi, rfl⟩ := h
      simp only [readStateLists, Option.bind_eq_bind, Option.bind_eq_some_iff] at hlists
      obtain ⟨ps, -, cs, -, b, -, hlists⟩ := hlists
      split at hlists
      · next hb =>
        simp only [Option.some.injEq, Prod.mk.injEq] at hlists
        obtain ⟨rfl, rfl, rfl⟩ := hlists
        refine ⟨mapM_all (fun x y => parsePending_ok) hp, by rw [mapM_length hp]; exact hb.1, hn, ht,
          ⟨mapM_all (fun x y => parseCoverage_ok) hc, hu⟩, by rw [mapM_length hc]; exact hb.2, ?_⟩
        rintro t rfl
        rw [parseInformedTurn] at hi
        split at hi
        · cases hi
        · simp only [Outcome.bind_ok, Outcome.pure_ok, Option.some.injEq, exists_eq_right] at hi
          exact parseReadTurn_ok hi
      · cases hlists

/-- **The validator reads a valid read state back.** -/
theorem parseNudgeReadState_toJson {provider : ParticipatingProvider} {generation : Option ℕ}
    {s : NudgeReadState} (h : s.Ok E provider generation) :
    parseNudgeReadState E provider generation (some s.toJson) = .ok s := by
  have hlists : readStateLists s.toJson =
      some (s.pending.map NudgePendingRead.toJson, s.coverage.map NudgeReadCoverage.toJson,
        s.outsideWindow) := by
    have hb := And.intro h.pendingBound h.coverageBound
    rcases hi : s.informedTurn with _ | t <;>
      simp [readStateLists, NudgeReadState.toJson, optionalMember, itemsAt?, boolAt?, Json.get, Json.lookup, hi, hb]
  have hkeys : unknownKeys ["pending", "coverage", "outside_window", "informed_turn"] s.toJson = false := by
    rcases hi : s.informedTurn with _ | t <;>
      simp [NudgeReadState.toJson, optionalMember, unknownKeys, hi]
  have hturn : parseInformedTurn provider generation s.toJson = .ok s.informedTurn := by
    rcases hi : s.informedTurn with _ | t
    · simp [parseInformedTurn, NudgeReadState.toJson, optionalMember, Json.get, Json.lookup, hi]
    · have hget : s.toJson.get (js "informed_turn") = some t.toJson := by
        simp [NudgeReadState.toJson, optionalMember, Json.get, Json.lookup, hi]
      rw [parseInformedTurn, hget]
      simp only [parseReadTurn_toJson (h.informedTurn t hi), Outcome.ok_bind]
      rfl
  have hpending := mapM_map (f := parsePending E provider generation) (g := NudgePendingRead.toJson)
    (fun p hp => parsePending_toJson (h.pending p hp))
  have hcoverage := mapM_map (f := parseCoverage) (g := NudgeReadCoverage.toJson)
    (fun e he => parseCoverage_toJson (h.coverage.ok e he))
  have hobj : isObject (some s.toJson) = true := rfl
  simp only [parseNudgeReadState, hobj, hkeys, hlists, hpending, hcoverage, hturn, Outcome.ok_bind,
    unique, h.nonces, h.toolUseIds, h.coverage.unique, decide_true, Bool.not_true, Bool.or_self,
    Bool.false_eq_true, if_false]
  rfl

end

end Barbaro
