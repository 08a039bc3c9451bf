import Barbaro.Nudge.Types

/-!
# Consent records

A session that takes part has one consent record: when it joined, and the log of the
workstreams it has been in since. Three shapes of it are on disk: without workstreams
(v1), with the present workstream only (older v2), and with the whole log.

* `parseParticipation_ok`: the validator accepts only records whose log is in order.
* `nextMembershipFrom_after`: the instant of a move is after every earlier one.
* `readParticipation_written`: a record that was written is read back.
-/

namespace Barbaro

/-! ## Records -/

/-- A member of the log: a workstream, and when the session moved to it. The field `from`
of the source is called `start` here; the validator has found a date in it. -/
structure SessionWorkstreamMembership (E : Host) where
  workstreamId : JsString
  start : JsString
  workstreamId_ok : isWorkstreamId workstreamId = true
  start_ok : (E.dateParse start).isSome = true

section
variable {E : Host}

/-- `Date.parse(membership.from)` -/
def SessionWorkstreamMembership.startMs (m : SessionWorkstreamMembership E) : ℤ :=
  (E.dateParse m.start).get m.start_ok

theorem SessionWorkstreamMembership.startMs_of_parse {m : SessionWorkstreamMembership E} {t : ℤ}
    (h : E.dateParse m.start = some t) : m.startMs = t := by
  simp [SessionWorkstreamMembership.startMs, h]

@[ext] theorem SessionWorkstreamMembership.eq_of {a b : SessionWorkstreamMembership E}
    (hid : a.workstreamId = b.workstreamId) (hstart : a.start = b.start) : a = b := by
  cases a
  cases b
  simp_all

instance : DecidableEq (SessionWorkstreamMembership E) := fun a b =>
  decidable_of_iff (a.workstreamId = b.workstreamId ∧ a.start = b.start)
    ⟨fun h => SessionWorkstreamMembership.eq_of h.1 h.2, by rintro rfl; exact ⟨rfl, rfl⟩⟩

/-- The instants of a log, each after the one before it. -/
def Increasing (ms : List (SessionWorkstreamMembership E)) : Prop :=
  ms.Pairwise (fun a b => a.startMs < b.startMs)

instance (ms : List (SessionWorkstreamMembership E)) : Decidable (Increasing ms) :=
  inferInstanceAs (Decidable (List.Pairwise _ _))

theorem increasing_append_singleton {ms : List (SessionWorkstreamMembership E)}
    {m : SessionWorkstreamMembership E} (h : Increasing ms)
    (hlast : ∀ p, ms.getLast? = some p → p.startMs < m.startMs) : Increasing (ms ++ [m]) := by
  refine List.pairwise_append.2 ⟨h, List.pairwise_singleton _ _, fun a ha b hb => ?_⟩
  rw [List.mem_singleton] at hb
  subst hb
  -- every earlier instant is at or before the last one
  obtain ⟨front, p, rfl⟩ := List.eq_nil_or_concat ms |>.resolve_left (List.ne_nil_of_mem ha)
  have hp := hlast p (by simp)
  rw [List.concat_eq_append] at h ha
  rcases List.mem_append.1 ha with ha | ha
  · have := (List.pairwise_append.1 h).2.2 a ha p (by simp)
    omega
  · rw [List.mem_singleton] at ha
    rwa [ha]

end

/-- Either consent shape, with the fields both have. -/
structure SessionParticipation (E : Host) where
  provider : JsString
  sessionId : JsString
  joinedAt : JsString
  /-- `none` in a v1 record, which is unscoped until it moves forward. -/
  workstreamId : Option JsString
  /-- The log. Older v2 records omit it. -/
  memberships : Option (List (SessionWorkstreamMembership E))

section
variable {E : Host}

/-- What the validator has found out about a record. -/
structure SessionParticipation.Ok (provider : ParticipatingProvider) (sessionId : JsString)
    (p : SessionParticipation E) : Prop where
  provider_eq : p.provider = provider.text
  sessionId_eq : p.sessionId = sessionId
  joinedAt : (E.dateParse p.joinedAt).isSome = true
  workstream : ∀ id, p.workstreamId = some id → isWorkstreamId id = true
  unscoped : p.workstreamId = none → p.memberships = none
  log : ∀ ms, p.memberships = some ms →
    Increasing ms ∧ ms.getLast?.map (·.workstreamId) = p.workstreamId

/-- The log a record stands for. An older v2 record has one synthetic entry at its
original join time. -/
def participationMemberships (p : SessionParticipation E) : List (SessionWorkstreamMembership E) :=
  match p.workstreamId with
  | none => []
  | some id =>
    match p.memberships with
    | some ms => ms
    | none =>
      if h : isWorkstreamId id = true ∧ (E.dateParse p.joinedAt).isSome = true then
        [⟨id, p.joinedAt, h.1, h.2⟩]
      else []

/-- **The log of a valid record is in order, and ends in its present workstream.** -/
theorem SessionParticipation.Ok.memberships {provider : ParticipatingProvider} {sessionId : JsString}
    {p : SessionParticipation E} (h : p.Ok provider sessionId) :
    Increasing (participationMemberships p) ∧
      (participationMemberships p).getLast?.map (·.workstreamId) = p.workstreamId := by
  rcases hid : p.workstreamId with _ | id
  · rw [participationMemberships, hid]
    exact ⟨List.Pairwise.nil, rfl⟩
  · rcases hms : p.memberships with _ | ms
    · have hok : isWorkstreamId id = true ∧ (E.dateParse p.joinedAt).isSome = true :=
        ⟨h.workstream id hid, h.joinedAt⟩
      simp only [participationMemberships, hid, hms, dif_pos hok]
      exact ⟨List.pairwise_singleton _ _, rfl⟩
    · simp only [participationMemberships, hid, hms]
      rw [← hid]
      exact h.log ms hms

/-! ## The validator -/

def sessionParticipationSchema : JsString := js "barbaro.session-participation.v1"
def sessionParticipationSchemaV2 : JsString := js "barbaro.session-participation.v2"

def parseMembership (E : Host) (v : Json) : Except Failure (SessionWorkstreamMembership E) :=
  match v.get (js "workstream_id"), v.get (js "from") with
  | some (.str id), some (.str start) =>
    if hid : isWorkstreamId id = true then
      if hstart : (E.dateParse start).isSome = true then .ok ⟨id, start, hid, hstart⟩
      else .error (.typeError "Session participation membership times must be strictly increasing")
    else .error (.typeError "Session participation membership is invalid")
  | _, _ => .error (.typeError "Session participation membership is invalid")

/-- The loop over the log; `previous` is the instant of the entry before, if there is one. -/
def parseMembershipList (E : Host) : Option ℤ → List Json →
    Except Failure (List (SessionWorkstreamMembership E))
  | _, [] => .ok []
  | previous, v :: vs => do
    let m ← parseMembership E v
    if previous.any (fun t => m.startMs ≤ t) then
      .error (.typeError "Session participation membership times must be strictly increasing")
    else do
      let ms ← parseMembershipList E (some m.startMs) vs
      return m :: ms

def validateMemberships (E : Host) (value : Json) (currentWorkstreamId : JsString) :
    Except Failure (List (SessionWorkstreamMembership E)) :=
  match value with
  | .arr (v :: vs) => do
    let ms ← parseMembershipList E none (v :: vs)
    if ms.getLast?.map (·.workstreamId) ≠ some currentWorkstreamId then
      .error (.typeError "Session participation current workstream must equal its last membership")
    else return ms
  | _ => .error (.typeError "Session participation memberships must be non-empty")

/-- The members every shape has. -/
def participationBaseOk (E : Host) (provider : ParticipatingProvider) (sessionId : JsString)
    (v : Json) : Bool :=
  equalsText provider.text (v.get (js "provider")) && equalsText sessionId (v.get (js "session_id")) &&
    equalsText (js "user_prompt") (v.get (js "initiated_by")) &&
    (match v.get (js "joined_at") with
      | some (.str s) => (E.dateParse s).isSome
      | _ => false)

/-- The workstreams of a v2 record. -/
def parseScope (E : Host) (v : Json) :
    Except Failure (JsString × Option (List (SessionWorkstreamMembership E))) :=
  match v.get (js "workstream_id") with
  | some (.str id) =>
    if isWorkstreamId id then
      match v.get (js "memberships") with
      | none => .ok (id, none)
      | some value => do
        let ms ← validateMemberships E value id
        return (id, some ms)
    else .error (.typeError "Session participation v2 must name a valid workstream")
  | _ => .error (.typeError "Session participation v2 must name a valid workstream")

def parseParticipationValue (E : Host) (v : Json) (provider : ParticipatingProvider)
    (sessionId : JsString) : Except Failure (SessionParticipation E) :=
  if !isObject (some v) then .error (.typeError "Session participation must be a JSON object")
  else if !equalsText sessionParticipationSchema (v.get (js "schema")) &&
      !equalsText sessionParticipationSchemaV2 (v.get (js "schema")) then
    .error (.typeError "Unsupported session participation schema")
  else if !participationBaseOk E provider sessionId v then
    .error (.typeError "Session participation is structurally invalid")
  else
    let base (workstreamId : Option JsString)
        (memberships : Option (List (SessionWorkstreamMembership E))) : SessionParticipation E :=
      { provider := provider.text, sessionId, joinedAt := textAt "joined_at" v, workstreamId
        memberships }
    -- v1 is unscoped by definition; v2 always names its current workstream
    if equalsText sessionParticipationSchema (v.get (js "schema")) then
      if (v.get (js "workstream_id")).isSome ∨ (v.get (js "memberships")).isSome then
        .error (.typeError "Session participation v1 must not name workstream memberships")
      else .ok (base none none)
    else do
      let scope ← parseScope E v
      return base (some scope.1) scope.2

def parseParticipation (E : Host) (text : JsString) (provider : ParticipatingProvider)
    (sessionId : JsString) : Except Failure (SessionParticipation E) :=
  match Json.parse E.float text with
  | none => .error .syntaxError
  | some v => parseParticipationValue E v provider sessionId

theorem parseMembershipList_ok {previous : Option ℤ} {vs : List Json}
    {ms : List (SessionWorkstreamMembership E)} (h : parseMembershipList E previous vs = .ok ms) :
    Increasing ms ∧ ∀ t, previous = some t → ∀ m ∈ ms, t < m.startMs := by
  induction vs generalizing previous ms with
  | nil => cases h; simp [Increasing]
  | cons v vs ih =>
    simp only [parseMembershipList, Outcome.bind_ok, Outcome.guard_ok, Outcome.pure_ok] at h
    obtain ⟨m, -, hprev, rest, hrest, rfl⟩ := h
    obtain ⟨hinc, hafter⟩ := ih hrest
    refine ⟨List.pairwise_cons.2 ⟨hafter _ rfl, hinc⟩, ?_⟩
    rintro t rfl m' hm'
    have ht : t < m.startMs := by simpa using hprev
    rcases List.mem_cons.1 hm' with rfl | hm'
    · exact ht
    · exact ht.trans (hafter _ rfl m' hm')

theorem validateMemberships_ok {value : Json} {id : JsString}
    {ms : List (SessionWorkstreamMembership E)} (h : validateMemberships E value id = .ok ms) :
    Increasing ms ∧ ms.getLast?.map (·.workstreamId) = some id := by
  rw [validateMemberships.eq_def] at h
  split at h
  · simp only [Outcome.bind_ok, Outcome.guard_ok, Outcome.pure_ok, not_not] at h
    obtain ⟨ms', hms, hlast, rfl⟩ := h
    exact ⟨(parseMembershipList_ok hms).1, hlast⟩
  · cases h

theorem parseScope_ok {v : Json} {id : JsString}
    {memberships : Option (List (SessionWorkstreamMembership E))}
    (h : parseScope E v = .ok (id, memberships)) : isWorkstreamId id = true ∧
      ∀ ms, memberships = some ms → Increasing ms ∧ ms.getLast?.map (·.workstreamId) = some id := by
  rw [parseScope] at h
  split at h
  · rw [Outcome.guard_else] at h
    obtain ⟨hid, h⟩ := h
    split at h
    · cases h
      exact ⟨hid, by simp⟩
    · simp only [Outcome.bind_ok, Outcome.pure_ok, Prod.mk.injEq] at h
      obtain ⟨ms, hms, rfl, rfl⟩ := h
      refine ⟨hid, fun ms' hms' => ?_⟩
      obtain rfl : ms = ms' := Option.some.inj hms'
      exact validateMemberships_ok hms
  · cases h

/-- **The validator accepts only valid records.** -/
theorem parseParticipation_ok {text : JsString} {provider : ParticipatingProvider}
    {sessionId : JsString} {p : SessionParticipation E}
    (h : parseParticipation E text provider sessionId = .ok p) : p.Ok provider sessionId := by
  rw [parseParticipation] at h
  split at h
  · cases h
  · next v hv =>
    simp only [parseParticipationValue, Outcome.guard_ok, Bool.not_eq_true', Bool.not_eq_false] at h
    obtain ⟨-, -, hbase, h⟩ := h
    have hjoined : (E.dateParse (textAt "joined_at" v)).isSome = true := by
      simp only [participationBaseOk, Bool.and_eq_true] at hbase
      have hj := hbase.2
      rw [textAt]
      split at hj
      · next s hs => simpa [hs] using hj
      · cases hj
    split at h
    · simp only [Outcome.guard_ok] at h
      obtain ⟨-, h⟩ := h
      cases h
      exact ⟨rfl, rfl, hjoined, by simp, by simp, by simp⟩
    · simp only [Outcome.bind_ok, Outcome.pure_ok] at h
      obtain ⟨scope, hscope, rfl⟩ := h
      obtain ⟨hid, hlog⟩ := @parseScope_ok E _ scope.1 scope.2 hscope
      exact ⟨rfl, rfl, hjoined, by rintro id ⟨⟩; exact hid, by simp, hlog⟩

/-! ## Moves -/

/-- The instant of a move: the requested one, pushed forward when the clock is behind. -/
def nextMembershipFrom (memberships : List (SessionWorkstreamMembership E)) (requestedFrom : ℤ) :
    Except Failure JsString :=
  let start :=
    match memberships.getLast? with
    | none => requestedFrom
    | some previous =>
      if requestedFrom > previous.startMs then requestedFrom else previous.startMs + 1
  match E.isoString start with
  | some text => .ok text
  | none => .error (.typeError "membership time must be a valid date")

/-- **The instant of a move is a date after every earlier move.** -/
theorem nextMembershipFrom_after {ms : List (SessionWorkstreamMembership E)} {requestedFrom : ℤ}
    {text : JsString} (h : nextMembershipFrom ms requestedFrom = .ok text) :
    ∃ t, E.dateParse text = some t ∧ requestedFrom ≤ t ∧
      ∀ p, ms.getLast? = some p → p.startMs < t := by
  rw [nextMembershipFrom] at h
  split at h
  · next text' htext =>
    cases h
    have hparse := (E.isoString_parse _ _ htext).1
    refine ⟨_, hparse, ?_, ?_⟩
    · rcases ms.getLast? with _ | p
      · exact le_rfl
      · simp only
        split <;> omega
    · rintro p hp
      simp only [hp]
      split <;> omega
  · cases h

/-! ## Files -/

def SessionWorkstreamMembership.toJson (m : SessionWorkstreamMembership E) : Json :=
  .obj [(js "from", .str m.start), (js "workstream_id", .str m.workstreamId)]

/-- The JSON form of a record with its log, its keys in order. -/
def participationJson (provider : ParticipatingProvider) (sessionId joinedAt workstreamId : JsString)
    (memberships : List (SessionWorkstreamMembership E)) : Json :=
  .obj [(js "initiated_by", .str (js "user_prompt")), (js "joined_at", .str joinedAt),
    (js "memberships", .arr (memberships.map SessionWorkstreamMembership.toJson)),
    (js "provider", .str provider.text), (js "schema", .str sessionParticipationSchemaV2),
    (js "session_id", .str sessionId), (js "workstream_id", .str workstreamId)]

/-- `writeJsonFileAtomically`: the bytes of the file that replaces the old one. -/
def jsonFileBytes (value : Json) : Bytes := utf8 (stableJsonLine value)

def maxParticipationBytes : ℕ := 16 * 1024

/-- The consent record in a file, if there is a file. -/
def readParticipation (E : Host) (provider : ParticipatingProvider) (sessionId : JsString)
    (file : Option Bytes) : Except Failure (Option (SessionParticipation E)) :=
  match file with
  | none => .ok none
  | some bytes =>
    if bytes.length > maxParticipationBytes then
      .error (.inputLimit "Barbaro store file exceeds 16384 bytes" .file maxParticipationBytes none)
    else do
      let p ← parseParticipation E (bytesToString bytes) provider sessionId
      return some p

theorem membershipJson_written (m : SessionWorkstreamMembership E) : Written E.float m.toJson := by
  refine Written.obj rfl ?_
  simp [Written.str]

theorem participationJson_written (provider : ParticipatingProvider)
    (sessionId joinedAt workstreamId : JsString) (ms : List (SessionWorkstreamMembership E)) :
    Written E.float (participationJson provider sessionId joinedAt workstreamId ms) := by
  have hlog : Written E.float (.arr (ms.map SessionWorkstreamMembership.toJson)) := by
    refine Written.arr fun v hv => ?_
    obtain ⟨m, -, rfl⟩ := List.mem_map.1 hv
    exact membershipJson_written m
  refine Written.obj rfl ?_
  simp [Written.str, hlog]

theorem parseMembership_toJson (m : SessionWorkstreamMembership E) :
    parseMembership E m.toJson = .ok m := by
  have hid : m.toJson.get (js "workstream_id") = some (.str m.workstreamId) := by
    simp [SessionWorkstreamMembership.toJson, Json.get, Json.lookup]
  have hstart : m.toJson.get (js "from") = some (.str m.start) := by
    simp [SessionWorkstreamMembership.toJson, Json.get, Json.lookup]
  simp [parseMembership, hid, hstart, m.workstreamId_ok, m.start_ok]

theorem parseMembershipList_toJson {previous : Option ℤ}
    {ms : List (SessionWorkstreamMembership E)} (hinc : Increasing ms)
    (hprev : ∀ t, previous = some t → ∀ m ∈ ms, t < m.startMs) :
    parseMembershipList E previous (ms.map SessionWorkstreamMembership.toJson) = .ok ms := by
  induction ms generalizing previous with
  | nil => rfl
  | cons m ms ih =>
    obtain ⟨hafter, hinc⟩ := List.pairwise_cons.1 hinc
    have hguard : previous.any (fun t => m.startMs ≤ t) = false := by
      rcases previous with _ | t
      · rfl
      · have := hprev t rfl m (by simp)
        simpa using this
    have hrest := @ih (some m.startMs) hinc (by rintro t ⟨⟩; exact hafter)
    simp only [List.map_cons, parseMembershipList, parseMembership_toJson, Outcome.ok_bind, hguard,
      hrest, Bool.false_eq_true, if_false]
    rfl

/-- A record with its log. -/
def scopedParticipation (provider : ParticipatingProvider) (sessionId joinedAt workstreamId : JsString)
    (ms : List (SessionWorkstreamMembership E)) : SessionParticipation E where
  provider := provider.text
  sessionId := sessionId
  joinedAt := joinedAt
  workstreamId := some workstreamId
  memberships := some ms

/-- **A record that was written is parsed back.** -/
theorem parseParticipation_written {provider : ParticipatingProvider}
    {sessionId joinedAt workstreamId : JsString} {ms : List (SessionWorkstreamMembership E)}
    (h : (scopedParticipation provider sessionId joinedAt workstreamId ms).Ok provider sessionId)  :
    parseParticipation E (bytesToString (jsonFileBytes
        (participationJson provider sessionId joinedAt workstreamId ms))) provider sessionId =
      .ok (scopedParticipation provider sessionId joinedAt workstreamId ms) := by
  obtain ⟨hinc, hlast⟩ := h.log ms rfl
  have hjoined : (E.dateParse joinedAt).isSome = true := h.joinedAt
  have hid : isWorkstreamId workstreamId = true := h.workstream workstreamId rfl
  rw [parseParticipation, jsonFileBytes, (participationJson_written _ _ _ _ _).read_line]
  simp only
  set v := participationJson provider sessionId joinedAt workstreamId ms with hv
  have hget : ∀ key value, Json.lookup (js key) [(js "initiated_by", .str (js "user_prompt")),
      (js "joined_at", .str joinedAt), (js "memberships",
        .arr (ms.map SessionWorkstreamMembership.toJson)), (js "provider", .str provider.text),
      (js "schema", .str sessionParticipationSchemaV2), (js "session_id", .str sessionId),
      (js "workstream_id", .str workstreamId)] = value → v.get (js key) = value := by
    intro key value hvalue
    rw [hv, participationJson, Json.get, hvalue]
  have hschema : v.get (js "schema") = some (.str sessionParticipationSchemaV2) :=
    hget _ _ (by simp [Json.lookup])
  have hbase : participationBaseOk E provider sessionId v = true := by
    simp [participationBaseOk, hv, participationJson, Json.get, Json.lookup, equalsText, hjoined]
  have hlog : validateMemberships E (.arr (ms.map SessionWorkstreamMembership.toJson)) workstreamId =
      .ok ms := by
    rcases ms with _ | ⟨m, ms⟩
    · simp [scopedParticipation] at hlast
    · have hlist := @parseMembershipList_toJson E none _ hinc (by simp)
      simp only [List.map_cons] at hlist
      simp only [List.map_cons, validateMemberships, hlist, Outcome.ok_bind]
      rw [if_neg (by simpa [scopedParticipation] using hlast)]
      rfl
  have hscope : parseScope E v = .ok (workstreamId, some ms) := by
    rw [parseScope, hget "workstream_id" (some (.str workstreamId)) (by simp [Json.lookup]),
      hget "memberships" (some (.arr (ms.map SessionWorkstreamMembership.toJson)))
        (by simp [Json.lookup])]
    simp only [hid, if_true, hlog, Outcome.ok_bind]
    rfl
  have hv1 : equalsText sessionParticipationSchema (some (.str sessionParticipationSchemaV2)) = false := by
    decide
  have hv2 : equalsText sessionParticipationSchemaV2 (some (.str sessionParticipationSchemaV2)) = true := by
    decide
  have htext : textAt "joined_at" v = joinedAt := by
    simp [textAt, hv, participationJson, Json.get, Json.lookup]
  have hobject : isObject (some v) = true := rfl
  simp only [parseParticipationValue, hobject, hschema, hv1, hv2, hbase, hscope, htext,
    Outcome.ok_bind, Bool.not_true, Bool.not_false, Bool.and_false, Bool.false_eq_true, if_false]
  rfl

end

end Barbaro
