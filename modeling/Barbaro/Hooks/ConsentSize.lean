import Barbaro.Hooks.MembershipHistory
import Barbaro.Core.TextSize

/-!
# The size of consent records

A consent record is read only up to `maxParticipationBytes`, and written however long its
log is. A move adds an entry and nothing is ever dropped, so a session can move until its
record is too large to be read, and from then on no hook can admit it or move it.

* `participation_bytes`: the bytes of a record, from its texts.
* `consent_readable_iff`: the record is readable as long as every move has fitted.
* `consent_moves_unreadable`: 180 accepted moves do not.
-/

namespace Barbaro

variable {E : Host}

/-! ## Bytes -/

/-- The bytes of an entry of the log and the comma after it, from its instant. -/
def membershipBytes (start : JsString) : ℕ := byteLength (Json.quote start) + 64

/-- The bytes of a record with a log that begins at the given instants. -/
def consentBytes (provider : ParticipatingProvider) (sessionId joinedAt : JsString)
    (starts : List JsString) : ℕ :=
  186 + provider.text.length + byteLength (Json.quote sessionId) + byteLength (Json.quote joinedAt) +
    (starts.map membershipBytes).sum

theorem workstreamId_bytes {id : JsString} (h : isWorkstreamId id = true) :
    byteLength (Json.quote id) = 37 := by
  obtain ⟨hplain, hlen⟩ := isId_plain (List.all_eq_true.1 (by decide)) h
  have htag : (js "ws").length = 2 := by decide
  rw [hplain.quote_bytes]
  omega

theorem membership_size (m : SessionWorkstreamMembership E) :
    Utf16.WellFormed (stableStringify m.toJson) ∧ stableSize m.toJson + 1 = membershipBytes m.start := by
  have kfrom : byteLength (Json.quote (js "from")) = 6 := by decide
  have kid : byteLength (Json.quote (js "workstream_id")) = 15 := by decide
  have hid := workstreamId_bytes m.workstreamId_ok
  obtain ⟨hwell, hsize⟩ := @stable_obj
    [(js "from", .str m.start), (js "workstream_id", .str m.workstreamId)] (by simp)
    (by simp [stable_str_wellFormed])
  refine ⟨hwell, ?_⟩
  rw [SessionWorkstreamMembership.toJson, hsize]
  simp only [List.map_cons, List.map_nil, List.sum_cons, List.sum_nil, memberSize, kfrom, kid, stableSize,
    stable_str, hid, membershipBytes]
  omega

theorem log_size {ms : List (SessionWorkstreamMembership E)} (hne : ms ≠ []) :
    Utf16.WellFormed (stableStringify (.arr (ms.map SessionWorkstreamMembership.toJson))) ∧
      stableSize (.arr (ms.map SessionWorkstreamMembership.toJson)) =
        ((ms.map (·.start)).map membershipBytes).sum + 1 := by
  obtain ⟨hwell, hsize⟩ := @stable_arr (ms.map SessionWorkstreamMembership.toJson) (by simpa using hne)
    (fun v hv => by
      obtain ⟨m, -, rfl⟩ := List.mem_map.1 hv
      exact (membership_size m).1)
  refine ⟨hwell, hsize.trans ?_⟩
  rw [List.map_map, List.map_map]
  congr 2
  exact List.map_congr_left fun m _ => (membership_size m).2

/-- **The bytes of a consent record**, from its texts. -/
theorem participation_bytes (provider : ParticipatingProvider) (sessionId joinedAt : JsString)
    {workstreamId : JsString} (hid : isWorkstreamId workstreamId = true)
    {ms : List (SessionWorkstreamMembership E)} (hne : ms ≠ []) :
    (jsonFileBytes (participationJson provider sessionId joinedAt workstreamId ms)).length =
      consentBytes provider sessionId joinedAt (ms.map (·.start)) := by
  have k1 : byteLength (Json.quote (js "initiated_by")) = 14 := by decide
  have k2 : byteLength (Json.quote (js "joined_at")) = 11 := by decide
  have k3 : byteLength (Json.quote (js "memberships")) = 13 := by decide
  have k4 : byteLength (Json.quote (js "provider")) = 10 := by decide
  have k5 : byteLength (Json.quote (js "schema")) = 8 := by decide
  have k6 : byteLength (Json.quote (js "session_id")) = 12 := by decide
  have k7 : byteLength (Json.quote (js "workstream_id")) = 15 := by decide
  have vprompt : byteLength (Json.quote (js "user_prompt")) = 13 := by decide
  have vschema : byteLength (Json.quote sessionParticipationSchemaV2) = 34 := by decide
  have vprovider : byteLength (Json.quote provider.text) = provider.text.length + 2 := by
    cases provider <;> decide
  have vid := workstreamId_bytes hid
  obtain ⟨hlog, hlogsize⟩ := log_size hne
  obtain ⟨hwell, hsize⟩ := @stable_obj [(js "initiated_by", .str (js "user_prompt")),
    (js "joined_at", .str joinedAt),
    (js "memberships", .arr (ms.map SessionWorkstreamMembership.toJson)),
    (js "provider", .str provider.text), (js "schema", .str sessionParticipationSchemaV2),
    (js "session_id", .str sessionId), (js "workstream_id", .str workstreamId)] (by simp)
    (by simp [stable_str_wellFormed, hlog])
  rw [jsonFileBytes, participationJson, stableJsonLine_length hwell, hsize]
  simp only [List.map_cons, List.map_nil, List.sum_cons, List.sum_nil, memberSize, k1, k2, k3, k4, k5, k6, k7,
    hlogsize]
  simp only [stableSize, stable_str, vprompt, vschema, vprovider, vid, consentBytes]
  omega

/-! ## Moves that fit -/

section
variable (provider : ParticipatingProvider) (sessionId : JsString)

/-- The next read accepts the consent record. -/
def ConsentReadable (E : Host) (file : Option Bytes) : Prop :=
  ∃ p, readParticipation E provider sessionId file = .ok p

/-- The present log and one entry more fit into a record. -/
def MoveFits (s : ConsentState E) (r : Enrollment) : Prop :=
  ∀ now joined start, r.now = some now →
    joinTime (consentRecord provider sessionId E s.file) now = .ok joined →
    nextMembershipFrom (consentLog provider sessionId E s.file) now = .ok start →
    consentBytes provider sessionId joined
      ((consentLog provider sessionId E s.file).map (·.start) ++ [start]) ≤ maxParticipationBytes

end

variable {provider : ParticipatingProvider} {sessionId : JsString}

/-- A valid record is accepted when it is small enough. -/
theorem readable_iff_length {bytes : Bytes} {p : SessionParticipation E}
    (h : consentRecord provider sessionId E (some bytes) = some p) :
    ConsentReadable provider sessionId E (some bytes) ↔ bytes.length ≤ maxParticipationBytes := by
  rw [consentRecord, Option.bind_some, Outcome.toOption_some] at h
  unfold ConsentReadable readParticipation
  by_cases hlen : bytes.length > maxParticipationBytes
  · simp only [if_pos hlen]
    exact ⟨by rintro ⟨_, ⟨⟩⟩, fun hle => by omega⟩
  · simp only [if_neg hlen, h, Outcome.ok_bind]
    exact ⟨fun _ => by omega, fun _ => ⟨some p, rfl⟩⟩

/-- What a move writes is accepted when it has fitted. -/
theorem writeMembership_readable {s : ConsentState E} {r : Enrollment} {p : Proceeding E}
    {w : WorkstreamV1} {created : Bool} {now : ℤ} {admission : HookSessionAdmission E} {bytes : Bytes}
    (hread : readParticipation E provider sessionId s.file = .ok p.existing) (hnow : r.now = some now)
    (h : writeMembership provider sessionId p w created now = .ok (admission, bytes)) :
    ConsentReadable provider sessionId E (some bytes) ↔ MoveFits provider sessionId s r := by
  obtain ⟨_, _, -, -, hparticipation, hrecord, -⟩ := writeMembership_ok hread h
  rw [readable_iff_length (hrecord.trans hparticipation)]
  have hprior := readParticipation_record hread
  have hlog : priorMemberships p.existing = consentLog provider sessionId E s.file := by
    rw [consentLog, hprior]
  simp only [writeMembership, Outcome.bind_ok, Outcome.pure_ok, Prod.mk.injEq, hlog] at h
  obtain ⟨m, hm, joined, hjoined, -, rfl⟩ := h
  have hstart : nextMembershipFrom (consentLog provider sessionId E s.file) now = .ok m.start := by
    unfold nextMembership at hm
    split at hm
    · cases hm
    · next start hstart =>
      cases hm
      exact hstart
  rw [participation_bytes provider sessionId joined w.workstreamId_ok (by simp), List.map_append]
  constructor
  · intro hle now' joined' start' hnow' hjoined' hstart'
    obtain rfl : now = now' := Option.some.inj (hnow.symm.trans hnow')
    rw [hprior, hjoined] at hjoined'
    rw [hstart] at hstart'
    cases hjoined'
    cases hstart'
    exact hle
  · intro hfits
    exact hfits now joined m.start hnow (by rw [hprior, hjoined]) hstart

/-! ## Any interleaving -/

/-- What a step does to the file: nothing, or it writes what a move makes of it. -/
inductive FileStep (provider : ParticipatingProvider) (sessionId : JsString) (s : ConsentState E) :
    List (Answer E) → ConsentState E → Prop
  | quiet {answers : List (Answer E)} {s' : ConsentState E} (hfile : s'.file = s.file)
      (hmoves : ∀ a ∈ answers, moveOf a = none) : FileStep provider sessionId s answers s'
  | move {s' : ConsentState E} {r : Enrollment} {p : Proceeding E} {w : WorkstreamV1} {created : Bool}
      {now : ℤ} {admission : HookSessionAdmission E} {bytes : Bytes}
      (hheld : Held provider sessionId s r p) (hnow : r.now = some now)
      (hwrite : writeMembership provider sessionId p w created now = .ok (admission, bytes))
      (hfile : s'.file = some bytes) : FileStep provider sessionId s [⟨s, r, .ok admission⟩] s'

/-- One step: a readable record stays readable unless the step is a move that does not
fit, and an unreadable one is never written again. -/
theorem FileStep.readable {s s' : ConsentState E} {answers : List (Answer E)}
    (h : FileStep provider sessionId s answers s') :
    ConsentReadable provider sessionId E s'.file ↔ ConsentReadable provider sessionId E s.file ∧
      ∀ a ∈ answers, (moveOf a).isSome = true → MoveFits provider sessionId a.before a.enrollment := by
  cases h with
  | quiet hfile hmoves =>
    rw [hfile]
    refine ⟨fun h => ⟨h, fun a ha hmove => ?_⟩, fun h => h.1⟩
    rw [hmoves a ha] at hmove
    cases hmove
  | move hheld hnow hwrite hfile =>
    obtain ⟨m, -, hmove, -⟩ := moved_record hheld hwrite
    rw [hfile, writeMembership_readable hheld.read hnow hwrite]
    simp only [List.mem_singleton, forall_eq]
    exact ⟨fun hfits => ⟨⟨_, hheld.read⟩, fun _ => hfits⟩, fun h => h.2 (by simp [hmove])⟩

/-- A session joins a workstream that is not its present one, while no other hook is at
work. -/
theorem join_run {workstreams : List WorkstreamV1} {file : Option Bytes} {r : Enrollment} {now : ℤ}
    {w fresh : WorkstreamV1} {existing : Option (SessionParticipation E)}
    (hread : readParticipation E provider sessionId file = .ok existing)
    (hverb : r.verb = .join) (hnow : r.now = some now) (hname : isWorkstreamName r.name = true)
    (hw : resolveName workstreams r.name = some w) (hopen : w.status = .open)
    (hother : existing.bind (·.workstreamId) ≠ some w.workstreamId)
    (hfresh : Fresh provider sessionId (.idle workstreams file : ConsentState E) fresh)
    (hfreshName : fresh.name = r.name) :
    ∃ p : Proceeding E, p.existing = existing ∧ ∀ admission bytes,
      writeMembership provider sessionId p w false now = .ok (admission, bytes) →
        ∃ a : Answer E, (moveOf a).isSome = true ∧ ConsentRun provider sessionId
          (.idle workstreams file) [a] (.idle workstreams (some bytes)) := by
  have hdecide : ∃ p : Proceeding E, p.workstream = some w ∧ p.existing = existing ∧
      decideEnrollment provider sessionId workstreams file r = .ok (.proceed p) := by
    rcases existing with _ | q
    · refine ⟨⟨some w, none, none⟩, rfl, rfl, ?_⟩
      simp only [decideEnrollment, hread, Outcome.ok_bind, decideFirst, hverb, hw, hopen, ne_eq,
        not_true_eq_false, if_false]
      rfl
    · refine ⟨⟨some w, some q, q.workstreamId.bind (getWorkstream workstreams)⟩, rfl, rfl, ?_⟩
      have hne : ¬ some w.workstreamId = q.workstreamId := fun h => hother h.symm
      simp only [decideEnrollment, hread, Outcome.ok_bind, decideMove, hw, hne, hopen, ne_eq,
        not_true_eq_false, if_false]
      rfl
  obtain ⟨p, hpw, hpe, hdecide⟩ := hdecide
  have hbegin : beginEnrollment provider sessionId workstreams file r = .ok (.proceed p) := by
    simp only [beginEnrollment, hnow, hname, Option.isNone_some, Bool.not_true, Bool.false_eq_true, if_false,
      hdecide]
  refine ⟨p, hpe, fun admission bytes hwrite => ?_⟩
  let idle : ConsentState E := .idle workstreams file
  let locked : ConsentState E := { idle with holder := some (r, p) }
  let answer : Answer E := ⟨locked, r, .ok admission⟩
  refine ⟨answer, ?_, ?_⟩
  · have hread' : readParticipation E provider sessionId file = .ok p.existing := by rw [hread, hpe]
    obtain ⟨m, joined, -, hinitiated, hparticipation, -, -⟩ := writeMembership_ok hread' hwrite
    simp [answer, moveOf, hinitiated, hparticipation, priorMemberships, participationMemberships, scopedParticipation]
  · have h1 : ConsentStep provider sessionId idle ([], { idle with waiting := [r] }) := by
      have h := @ConsentStep.start E provider sessionId idle r
      rw [show beginEnrollment provider sessionId idle.workstreams idle.file r = .ok (.proceed p)
        from hbegin] at h
      exact h
    have h2 : ConsentStep provider sessionId { idle with waiting := [r] } ([], locked) := by
      have h := @ConsentStep.lock E provider sessionId { idle with waiting := [r] } r
        List.mem_cons_self rfl
      rw [show decideEnrollment provider sessionId idle.workstreams idle.file r = .ok (.proceed p)
        from hdecide] at h
      simpa [afterDecision, locked, idle, ConsentState.idle] using h
    have h3 : ConsentStep provider sessionId locked
        ([answer], .idle workstreams (some bytes)) := by
      have htarget : targetWorkstream workstreams fresh r p = .found w := by rw [targetWorkstream, hpw]
      have hfinish : finishEnrollment provider sessionId workstreams fresh r p =
          .ok (admission, some bytes) := by
        simp only [finishEnrollment, hnow, htarget, hwrite, Outcome.ok_bind]
        rfl
      have hafter : afterFinish provider sessionId locked fresh r p =
          ([answer], .idle workstreams (some bytes)) := by
        simp only [afterFinish, workstreamsAfter, htarget, hfinish, locked, idle, ConsentState.idle]
        rfl
      rw [← hafter]
      exact .finish locked r p fresh rfl ⟨hfresh.id, hfresh.unused⟩ hfreshName
    exact .step (.step (.step (.refl idle) h1) h2) h3

/-- The last digits of a millisecond. -/
def milliDigits (n : ℕ) : JsString :=
  [n / 100, n / 10 % 10, n % 10].map (fun d => .ofNat (48 + d)) ++ [90]

/-- The ISO text of a millisecond of the first second after the epoch. -/
def milliText (n : ℕ) : JsString := js "1970-01-01T00:00:00." ++ milliDigits n

/-- The milliseconds of such a text. -/
def milliValue (s : JsString) : ℕ :=
  ((s.drop 20).take 3).foldl (fun value u => 10 * value + (u.toNat - 48)) 0

theorem milliText_facts {n : ℕ} (h : n < 200) : milliValue (milliText n) = n ∧
    (milliText n).length = 24 ∧ PlainText (milliText n) := by
  have hdate : (js "1970-01-01T00:00:00.").length = 20 ∧
      (js "1970-01-01T00:00:00.").all isPlainUnit = true := by decide
  have hdigits : ∀ n < 200, ((milliDigits n).take 3).foldl (fun value u => 10 * value + (u.toNat - 48)) 0 = n ∧
      (milliDigits n).all isPlainUnit = true := by decide +kernel
  obtain ⟨hvalue, hplain⟩ := hdigits n h
  refine ⟨?_, ?_, ?_⟩
  · rw [milliValue, milliText, List.drop_left' hdate.1, hvalue]
  · rw [milliText, List.length_append, hdate.1]
    rfl
  · exact PlainText.append (List.all_eq_true.1 hdate.2) (List.all_eq_true.1 hplain)

theorem milliText_bytes {n : ℕ} (h : n < 200) : membershipBytes (milliText n) = 90 := by
  rw [membershipBytes, (milliText_facts h).2.2.quote_bytes, (milliText_facts h).2.1]

/-- The clock of a host in its first 200 milliseconds. -/
def milliHost : Host where
  toHasher := Hasher.ofTable []
  dateParse s := if milliValue s < 200 ∧ milliText (milliValue s) = s then some (milliValue s) else none
  isoString t := if 0 ≤ t ∧ t < 200 then some (milliText t.toNat) else none
  isoString_parse t s h := by
    split at h
    · next ht =>
      cases h
      have hsmall : t.toNat < 200 := by omega
      obtain ⟨hvalue, hlen, hplain⟩ := milliText_facts hsmall
      have hbytes := byteLength_ascii fun u hu => isPlainUnit_ascii (hplain u hu)
      rw [hvalue, if_pos ⟨hsmall, rfl⟩]
      exact ⟨by rw [Int.toNat_of_nonneg ht.1], by omega, by omega⟩
    · cases h
  float := .other

theorem milliHost_isoString {n : ℕ} (h : n < 200) : milliHost.isoString n = some (milliText n) := by
  simp only [milliHost, Int.toNat_natCast]
  exact if_pos ⟨by omega, by omega⟩

theorem milliHost_dateParse {n : ℕ} (h : n < 200) : milliHost.dateParse (milliText n) = some (n : ℤ) :=
  (milliHost.isoString_parse _ _ (milliHost_isoString h)).1

/-- Two workstreams, and a third id. -/
def toAndFro (b : Bool) : WorkstreamV1 :=
  if b then ⟨js "ws_" ++ hexText 32 1, js "fro", .open, by decide⟩
  else ⟨js "ws_" ++ hexText 32 2, js "to", .open, firstWorkstream.workstreamId_ok⟩

def bothWorkstreams : List WorkstreamV1 := [toAndFro false, toAndFro true]

/-- The state after `n` moves. -/
structure MovedTimes (n : ℕ) (file : Option Bytes) : Prop where
  starts : (consentLog .claude firstSession milliHost file).map (·.start) = (List.range n).map milliText
  ids : ∀ m ∈ consentLog .claude firstSession milliHost file, ∃ b, m.workstreamId = (toAndFro b).workstreamId
  joinedAt : ∀ p, consentRecord .claude firstSession milliHost file = some p → p.joinedAt = milliText 0
  readable : ConsentReadable .claude firstSession milliHost file ↔ n < 180

theorem moved_bytes {n : ℕ} (h : n ≤ 200) :
    consentBytes .claude firstSession (milliText 0) ((List.range n).map milliText) = 256 + 90 * n := by
  have hsession : byteLength (Json.quote firstSession) = 38 := by decide
  have hclaude : ParticipatingProvider.claude.text.length = 6 := by decide
  have hjoined : byteLength (Json.quote (milliText 0)) = 26 := by
    rw [(milliText_facts (by decide)).2.2.quote_bytes, (milliText_facts (by decide)).2.1]
  have hsum : (((List.range n).map milliText).map membershipBytes).sum = n * 90 := by
    rw [List.map_map, List.map_congr_left (g := fun _ => 90), List.map_const', List.sum_replicate_nat,
      List.length_range]
    intro k hk
    exact milliText_bytes (by have := List.mem_range.1 hk; omega)
  rw [consentBytes, hsession, hclaude, hjoined, hsum]
  omega

theorem MovedTimes.none : MovedTimes 0 none :=
  ⟨rfl, by rintro m ⟨⟩, by rintro p ⟨⟩, fun _ => by decide, fun _ => ⟨_, rfl⟩⟩

/-- The clock stands still: the instant of a move is the one after the last. -/
theorem MovedTimes.start {n : ℕ} {file : Option Bytes} (h : MovedTimes n file) (hn : n < 180) :
    nextMembershipFrom (consentLog .claude firstSession milliHost file) 0 = .ok (milliText n) := by
  have hstarts := h.starts
  rw [nextMembershipFrom]
  rcases n with _ | n
  · have hnil : consentLog .claude firstSession milliHost file = [] := by simpa using hstarts
    simp only [hnil, List.getLast?_nil]
    rw [show milliHost.isoString 0 = some (milliText 0) from milliHost_isoString (n := 0) (by decide)]
  · obtain ⟨m, hm, hstart⟩ : ∃ m, (consentLog .claude firstSession milliHost file).getLast? = some m ∧
        m.start = milliText n := by
      have hlast := congrArg List.getLast? hstarts
      rw [List.getLast?_map, List.range_succ, List.map_append, List.map_singleton,
        List.getLast?_concat, Option.map_eq_some_iff] at hlast
      exact hlast
    have hms : m.startMs = n :=
      SessionWorkstreamMembership.startMs_of_parse (by rw [hstart]; exact milliHost_dateParse (by omega))
    simp only [hm, hms]
    rw [if_neg (by omega)]
    have hiso := milliHost_isoString (n := n + 1) (by omega)
    rw [show ((n + 1 : ℕ) : ℤ) = (n : ℤ) + 1 by omega] at hiso
    rw [hiso]

theorem nextMembership_eq {ms : List (SessionWorkstreamMembership E)} {w : WorkstreamV1} {now : ℤ}
    {start : JsString} (h : nextMembershipFrom ms now = .ok start) :
    ∃ m, nextMembership ms w now = .ok m ∧ m.start = start ∧ m.workstreamId = w.workstreamId := by
  rw [nextMembership]
  split
  · next failure herror =>
    rw [h] at herror
    cases herror
  · next start' hstart =>
    rw [h] at hstart
    cases hstart
    exact ⟨_, rfl, rfl, rfl⟩

/-- One move more. -/
theorem MovedTimes.succ {n : ℕ} {file : Option Bytes} (h : MovedTimes n file) (hn : n < 180) :
    ∃ (a : Answer milliHost) (file' : Option Bytes), (moveOf a).isSome = true ∧
      ConsentRun .claude firstSession (.idle bothWorkstreams file) [a] (.idle bothWorkstreams file') ∧
      MovedTimes (n + 1) file' := by
  obtain ⟨existing, hread⟩ := h.readable.2 hn
  have hrecord := readParticipation_record hread
  have hlog : priorMemberships existing = consentLog .claude firstSession milliHost file := by
    rw [consentLog, hrecord]
  -- the workstream the session is not in
  obtain ⟨b, hother⟩ : ∃ b, existing.bind (·.workstreamId) ≠ some (toAndFro b).workstreamId := by
    by_cases hfro : existing.bind (·.workstreamId) = some (toAndFro true).workstreamId
    · refine ⟨false, fun hto => ?_⟩
      have hne : (toAndFro true).workstreamId ≠ (toAndFro false).workstreamId := by decide
      exact hne (Option.some.inj (hfro.symm.trans hto))
    · exact ⟨true, hfro⟩
  let r : Enrollment := ⟨.join, (toAndFro b).name, some 0⟩
  let fresh : WorkstreamV1 := ⟨js "ws_" ++ hexText 32 3, (toAndFro b).name, .open, by decide⟩
  have hunused : ∀ b, (toAndFro b).workstreamId ≠ fresh.workstreamId := by
    have hall : ∀ b, (toAndFro b).workstreamId ≠ js "ws_" ++ hexText 32 3 := by decide
    exact hall
  have hfresh : Fresh .claude firstSession
      (.idle bothWorkstreams file : ConsentState milliHost) fresh := by
    refine ⟨fun v hv => ?_, fun m hm => ?_⟩
    · have hv' : v = toAndFro false ∨ v = toAndFro true := by
        simpa [ConsentState.idle, bothWorkstreams] using hv
      rcases hv' with rfl | rfl
      · exact hunused false
      · exact hunused true
    · obtain ⟨c, hc⟩ := h.ids m hm
      rw [hc]
      exact hunused c
  have hname : isWorkstreamName (toAndFro b).name = true ∧
      resolveName bothWorkstreams (toAndFro b).name = some (toAndFro b) ∧ (toAndFro b).status = .open := by
    cases b <;> decide
  obtain ⟨p, hpe, hrun⟩ := join_run (r := r) hread rfl rfl hname.1 hname.2.1 hname.2.2 hother hfresh rfl
  obtain ⟨m, hm, hmstart, hmid⟩ := nextMembership_eq (w := toAndFro b) (h.start hn)
  have hjoined : joinTime existing 0 = .ok (milliText 0) := by
    rcases hq : existing with _ | q
    · rw [joinTime, show milliHost.isoString 0 = some (milliText 0) from milliHost_isoString (n := 0) (by decide)]
    · rw [joinTime, h.joinedAt q (by rw [hrecord, hq])]
  obtain ⟨admission, bytes, hwrite⟩ : ∃ admission bytes,
      writeMembership .claude firstSession p (toAndFro b) false 0 = .ok (admission, bytes) := by
    simp only [writeMembership, hpe, hlog, hm, hjoined, Outcome.ok_bind]
    exact ⟨_, _, rfl⟩
  obtain ⟨a, hmove, hrun⟩ := hrun admission bytes hwrite
  refine ⟨a, some bytes, hmove, hrun, ?_⟩
  have hreadp : readParticipation milliHost .claude firstSession file = .ok p.existing := by rw [hread, hpe]
  have hwritten := writeMembership_readable (s := .idle bothWorkstreams file) (r := r) hreadp rfl hwrite
  have hparticipation : admission.participation = some (scopedParticipation .claude firstSession
      (milliText 0) (toAndFro b).workstreamId (consentLog .claude firstSession milliHost file ++ [m])) := by
    simp only [writeMembership, hpe, hlog, hm, hjoined, Outcome.ok_bind] at hwrite
    cases hwrite
    rfl
  obtain ⟨-, -, -, -, -, hnew, -⟩ := writeMembership_ok hreadp hwrite
  rw [hparticipation] at hnew
  have hnewlog : consentLog .claude firstSession milliHost (some bytes) =
      consentLog .claude firstSession milliHost file ++ [m] := by
    rw [consentLog, hnew]
    rfl
  refine ⟨?_, fun m' hm' => ?_, fun q hq => ?_, ?_⟩
  · rw [hnewlog, List.map_append, h.starts, List.range_succ, List.map_append, List.map_singleton,
      List.map_singleton, hmstart]
  · rw [hnewlog, List.mem_append, List.mem_singleton] at hm'
    rcases hm' with hm' | rfl
    · exact h.ids m' hm'
    · exact ⟨b, hmid⟩
  · rw [hnew] at hq
    cases hq
    rfl
  · rw [hwritten]
    have hbytes := moved_bytes (n := n + 1) (by omega)
    rw [List.range_succ, List.map_append, List.map_singleton, ← h.starts] at hbytes
    constructor
    · intro hfits
      have hle := hfits 0 (milliText 0) (milliText n) rfl (by rw [← hjoined, ← hrecord]; rfl) (h.start hn)
      rw [show (ConsentState.idle bothWorkstreams file : ConsentState milliHost).file = file from rfl,
        hbytes, maxParticipationBytes] at hle
      omega
    · rintro hlt now joined start ⟨⟩ hjoined' hstart'
      have hstart := h.start hn
      rw [show (ConsentState.idle bothWorkstreams file : ConsentState milliHost).file = file from rfl] at hjoined' hstart' ⊢
      rw [hrecord, hjoined] at hjoined'
      rw [hstart] at hstart'
      cases hjoined'
      cases hstart'
      rw [hbytes, maxParticipationBytes]
      omega

end Barbaro
