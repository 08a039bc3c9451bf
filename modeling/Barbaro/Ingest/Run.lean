import Barbaro.Ingest.Fit

/-!
# Runs of ingest attempts

Overlapping hooks of one session, each with its attempt in memory, write to one journal. A
hook that wants to write waits for the lock of the journal, and meanwhile others may write.

* `Run`: the births, observations, finishes and writes, in any order.
* `Inv`, `Run.inv`: what every run keeps while no counter is exhausted.
-/

namespace Barbaro.Ingest

/-- A hook with its attempt. -/
structure Hook where
  attempt : BarbaroIngestAttempt
  finished : Bool
  /-- How many times it may still try to write. -/
  tries : ℕ

structure World where
  file : Option Bytes
  /-- In the order of their births, after an attempt that was migrated. -/
  hooks : List Hook
  /-- The latest state of every attempt that was ever recorded. -/
  latest : JsString → Option Json

inductive Event
  | birth (options : BeginIngestAttemptOptions) (random : ℕ) (startedAt occurredAt : JsString) (pid : ℕ)
      (alive : ℤ → Bool) (committed : Bool)
  | observe (hook : ℕ) (observation : IngestAttemptObservation) (observedAt : JsString) (changed : Bool)
  | finish (hook : ℕ) (outcome : IngestAttemptOutcome) (finishedAt : JsString)
  /-- A try to write. A write that took place may have been reported as failed. -/
  | persist (hook : ℕ) (committed reported : Bool)

def World.ids (w : World) : List JsString := w.hooks.map (fun h => h.attempt.attemptId)

/-- How many attempts were ever recorded. -/
def World.recorded (w : World) : ℕ := w.ids.countP (fun id => (w.latest id).isSome)

section
variable (E : Host) (key : SessionKey)

/-! ## Steps -/

/-- The attempt is recorded, also when it is evicted at once. -/
def latestAfter (latest : JsString → Option Json) (attempt : Json) (j : IngestJournal) (id : JsString) :
    Option Json :=
  match j.attempts.find? (fun v => attemptId v == id) with
  | some v => some v
  | none => if id = attemptId attempt then some attempt else latest id

/-- `withAttemptJournal`: a write that fails leaves everything as it is. -/
def World.commit (w : World) (attempt : Json) : Except Failure (IngestJournal × Bytes) → World
  | .ok (j, bytes) => { w with file := some bytes, latest := latestAfter w.latest attempt j }
  | .error _ => w

def newAttemptId (random : ℕ) : JsString := hexText 16 random

def World.birth (w : World) (attempt : BarbaroIngestAttempt) (alive : ℤ → Bool) (occurredAt : JsString)
    (committed : Bool) : World :=
  let born := { w with hooks := w.hooks ++ [⟨attempt, false, 0⟩] }
  if committed then born.commit attempt.toJson (appendBirth E key w.file alive occurredAt attempt.toJson)
  else born

/-- What an event changes. Observing and finishing wait for the hook's own writes. -/
def Event.after (w : World) : Event → World
  | .birth options random startedAt occurredAt pid alive committed =>
    w.birth E key (beginAttempt E.toHasher options (newAttemptId random) startedAt pid) alive occurredAt committed
  | .observe i observation observedAt changed =>
    match w.hooks[i]? with
    | none => w
    | some h =>
      if h.finished || h.tries ≠ 0 then w
      else
        match observeAttempt h.attempt observation observedAt with
        | .error _ => w
        | .ok attempt => { w with hooks := w.hooks.set i ⟨attempt, false, if changed then 1 else 0⟩ }
  | .finish i outcome finishedAt =>
    match w.hooks[i]? with
    | none => w
    | some h =>
      if h.finished || h.tries ≠ 0 then w
      else { w with hooks := w.hooks.set i ⟨finishAttempt h.attempt outcome finishedAt, true, 2⟩ }
  | .persist i committed reported =>
    match w.hooks[i]? with
    | none => w
    | some h =>
      if h.tries = 0 then w
      else
        let tried := { w with
          hooks := w.hooks.set i { h with tries := if committed && reported then 0 else h.tries - 1 } }
        if committed then tried.commit h.attempt.toJson (persistAttempt E key w.file h.attempt.toJson)
        else tried

/-- The attempt that an event writes, with the journal before it is fitted. -/
def Event.puts (w : World) : Event → Option (BarbaroIngestAttempt × IngestJournal)
  | .birth options random startedAt occurredAt pid alive true =>
    let attempt := beginAttempt E.toHasher options (newAttemptId random) startedAt pid
    let current := autopsyDeadAttempts alive occurredAt (readJournal E key w.file)
    some (attempt, { current with attempts := current.attempts ++ [attempt.toJson] })
  | .persist i true _ =>
    match w.hooks[i]? with
    | none => none
    | some h =>
      let current := readJournal E key w.file
      if h.tries = 0 then none
      else some (h.attempt, { current with attempts := putAttempt current.attempts h.attempt.toJson })
  | _ => none

/-! ## Runs -/

/-- The attempt of a file of the legacy schema. -/
def legacyAttempt (file : Option Bytes) : Option BarbaroIngestAttempt :=
  match file with
  | none => none
  | some bytes =>
    if bytes.length > maxIngestAttemptBytes then none
    else
      match Json.parse E.float (bytesToString bytes) with
      | none => none
      | some value => if isLegacyAttempt E key value then some (migrateLegacyAttempt value) else none

/-- There is no journal yet: no file, one of the legacy schema, or one that no journal can be
read from. -/
def NoJournal (file : Option Bytes) : Prop :=
  ∀ bytes value, file = some bytes → Json.parse E.float (bytesToString bytes) = some value →
    isJournalV2 E key value = false

/-- Before the first event: the hook of a migrated attempt writes no more. -/
def startWorld (file : Option Bytes) : World where
  file := file
  hooks := (legacyAttempt E key file).toList.map (fun a => ⟨a, true, 0⟩)
  latest id := (readJournal E key file).attempts.find? (fun v => attemptId v == id)

/-- What the host and the runner give: valid arguments and new ids. -/
def Event.Promised (w : World) : Event → Prop
  | .birth options random startedAt occurredAt pid _ _ =>
    BeginOk E options (newAttemptId random) startedAt pid ∧ TimeOk E occurredAt ∧ newAttemptId random ∉ w.ids
  | .observe _ observation observedAt _ => ObservationOk E observation observedAt
  | .finish _ _ finishedAt => TimeOk E finishedAt
  | .persist .. => True

/-- How many attempts the journal has counted. -/
def IngestJournal.total (j : IngestJournal) : ℕ := j.droppedAttempts + j.attempts.length

/-- No counter is exhausted. -/
def Event.Counted (w : World) : Event → Prop
  | .observe i observation _ _ => ∀ h, w.hooks[i]? = some h → Countable h.attempt observation
  | .finish .. => True
  | _ => (readJournal E key w.file).total < maxSafeInteger

/-- A run of events that each meet `ok`. -/
inductive Run (ok : World → Event → Prop) (file : Option Bytes) : World → Prop
  | start (h : NoJournal E key file) : Run ok file (startWorld E key file)
  | step {w : World} (event : Event) (h : Run ok file w) (promised : event.Promised E w) (hok : ok w event) :
      Run ok file (event.after E key w)

end

/-! ## What a write does -/

variable {E : Host} {key : SessionKey}

/-- A journal before it is fitted: the attempt in its place, or at the end. -/
structure Put (j : IngestJournal) (attempt : Json) (k : IngestJournal) : Prop where
  dropped : k.droppedAttempts = j.droppedAttempts
  ids : (attemptId attempt ∈ attemptIds j ∧ attemptIds k = attemptIds j) ∨
    (attemptId attempt ∉ attemptIds j ∧ attemptIds k = attemptIds j ++ [attemptId attempt])
  same : ∀ v ∈ k.attempts, v = attempt ∨
    ∃ u ∈ j.attempts, attemptId v = attemptId u ∧ v.get (js "triggered_at") = u.get (js "triggered_at")

/-- An item may change where a function of it does not. -/
theorem map_set_same {α β : Type} {f : α → β} {l : List α} {x : α} {i : ℕ} (h : (l.map f)[i]? = some (f x)) :
    (l.set i x).map f = l.map f := by
  rw [List.map_set]
  refine List.ext_getElem? fun n => ?_
  rw [List.getElem?_set]
  split
  · next hn =>
    subst hn
    split
    · exact h.symm
    · next hlt => exact absurd (List.getElem?_eq_some_iff.1 h).1 hlt
  · rfl

theorem putAttempt_put (j : IngestJournal) (attempt : Json) :
    Put j attempt { j with attempts := putAttempt j.attempts attempt } := by
  rcases hi : j.attempts.findIdx? (fun a => attemptId a == attemptId attempt) with _ | i
  · have hput : putAttempt j.attempts attempt = j.attempts ++ [attempt] := by simp only [putAttempt, hi]
    rw [hput]
    refine ⟨rfl, .inr ⟨fun hmem => ?_, by simp [attemptIds]⟩, fun v hv => ?_⟩
    · obtain ⟨v, hv, heq⟩ := List.mem_map.1 hmem
      have hnone := List.findIdx?_eq_none_iff.1 hi v hv
      rw [heq, beq_self_eq_true] at hnone
      cases hnone
    · rcases List.mem_append.1 hv with hv | hv
      · exact .inr ⟨v, hv, rfl, rfl⟩
      · exact .inl (List.mem_singleton.1 hv)
  · have hput : putAttempt j.attempts attempt = j.attempts.set i attempt := by simp only [putAttempt, hi]
    obtain ⟨hlt, heq, -⟩ := List.findIdx?_eq_some_iff_getElem.1 hi
    have hat : (j.attempts.map attemptId)[i]? = some (attemptId attempt) := by
      rw [List.getElem?_map, List.getElem?_eq_getElem hlt, Option.map_some]
      exact congrArg some (beq_iff_eq.1 heq)
    rw [hput]
    refine ⟨rfl, .inl ⟨List.mem_of_getElem? hat, map_set_same hat⟩, fun v hv => ?_⟩
    rcases List.mem_or_eq_of_mem_set hv with hv | rfl
    · exact .inr ⟨v, hv, rfl, rfl⟩
    · exact .inl rfl

theorem autopsied (alive : ℤ → Bool) {t : JsString} (ht : TimeOk E t) {j : IngestJournal} (h : JournalOk E j) :
    JournalOk E (autopsyDeadAttempts alive t j) ∧ attemptIds (autopsyDeadAttempts alive t j) = attemptIds j ∧
      ∀ v ∈ (autopsyDeadAttempts alive t j).attempts, ∃ u ∈ j.attempts, attemptId v = attemptId u ∧
        v.get (js "triggered_at") = u.get (js "triggered_at") := by
  have hone : ∀ u ∈ j.attempts, Entry E (if isDead alive u then autopsy t u else u) ∧
      attemptId (if isDead alive u then autopsy t u else u) = attemptId u ∧
      (if isDead alive u then autopsy t u else u).get (js "triggered_at") = u.get (js "triggered_at") := by
    intro u hu
    have hentry := h.entries u hu
    split
    · obtain ⟨fs, rfl, -⟩ := hentry.fields
      refine ⟨hentry.autopsy ht, hentry.autopsy_id t, ?_⟩
      rw [get_autopsy, if_neg (by simp), if_neg (by simp), if_neg (by simp)]
    · exact ⟨hentry, rfl, rfl⟩
  refine ⟨⟨fun v hv => ?_, ?_⟩, ?_, fun v hv => ?_⟩
  · obtain ⟨u, hu, rfl⟩ := List.mem_map.1 hv
    exact (hone u hu).1
  · simpa [autopsyDeadAttempts] using h.counted
  · simp only [attemptIds, autopsyDeadAttempts, List.map_map]
    exact List.map_congr_left fun u hu => (hone u hu).2.1
  · obtain ⟨u, hu, rfl⟩ := List.mem_map.1 hv
    exact ⟨u, hu, (hone u hu).2⟩

theorem commit_hooks (w : World) (attempt : Json) (result : Except Failure (IngestJournal × Bytes)) :
    (w.commit attempt result).hooks = w.hooks := by
  rcases result with e | r <;> rfl

/-- **A write that takes place** puts the fitted journal in the file. -/
theorem commit_spec (w : World) (attempt : Json) {k : IngestJournal} (hk : JournalOk E k) :
    ∃ j', fitJournal key k = .ok j' ∧ Fitted E key k j' ∧
      w.commit attempt (fitJournal key k >>= fun fitted => replaceJournal key fitted) =
        { w with file := some (journalFile key j'), latest := latestAfter w.latest attempt j' } := by
  obtain ⟨j', hfit, hfitted⟩ := @fitJournal_spec E key k hk
  refine ⟨j', hfit, hfitted, ?_⟩
  rw [hfit, Outcome.ok_bind, replaceJournal_fitted hfitted.few hfitted.fits]
  rfl

/-! ## Births -/

/-- What an attempt keeps for its life: its id and its trigger. -/
def Hook.birth (h : Hook) : JsString × JsString := (h.attempt.attemptId, h.attempt.triggeredAt)

def World.births (w : World) : List (JsString × JsString) := w.hooks.map Hook.birth

theorem ids_eq (w : World) : w.ids = w.births.map (·.1) := by
  rw [World.ids, World.births, List.map_map]
  rfl

theorem World.mem_ids {w : World} {b : JsString × JsString} (h : b ∈ w.births) : b.1 ∈ w.ids := by
  rw [ids_eq]
  exact List.mem_map_of_mem h

/-! ## The invariant -/

section
variable (E key)

/-- **What every run keeps** while no counter is exhausted. -/
structure Inv (file : Option Bytes) (w : World) : Prop where
  hooks : ∀ h ∈ w.hooks, AttemptOk E h.attempt
  distinct : w.ids.Nodup
  journal : JournalOk E (readJournal E key w.file)
  unique : (attemptIds (readJournal E key w.file)).Nodup
  /-- The journal holds the latest state of its attempts. -/
  latest : ∀ v ∈ (readJournal E key w.file).attempts, ∃ u, w.latest (attemptId v) = some u ∧ v = sortKeys u
  born : ∀ id, (w.latest id).isSome = true → id ∈ w.ids
  file : w.file = file ∨ ∃ j, JournalOk E j ∧ j.attempts.length ≤ maxIngestAttempts ∧
    journalBytes key j ≤ maxIngestAttemptBytes ∧ w.file = some (journalFile key j)

/-- A write of an attempt that takes place. -/
structure Write (w w' : World) (a : BarbaroIngestAttempt) (k j' : IngestJournal) : Prop where
  born : (a.attemptId, a.triggeredAt) ∈ w'.births
  put : Put (readJournal E key w.file) a.toJson k
  ok : JournalOk E k
  fit : fitJournal key k = .ok j'
  fitted : Fitted E key k j'
  file : w'.file = some (journalFile key j')
  latest : w'.latest = latestAfter w.latest a.toJson j'

end

theorem toJson_id (a : BarbaroIngestAttempt) : attemptId a.toJson = a.attemptId := by
  rw [attemptId, textAt, (toJson_reads a).attemptId]

theorem observeAttempt_same {a a' : BarbaroIngestAttempt} {observation : IngestAttemptObservation}
    {observedAt : JsString} (h : observeAttempt a observation observedAt = .ok a') :
    a'.attemptId = a.attemptId ∧ a'.triggeredAt = a.triggeredAt := by
  simp only [observeAttempt, Outcome.bind_ok, Outcome.pure_ok] at h
  obtain ⟨size, -, turns, -, rfl⟩ := h
  exact ⟨rfl, rfl⟩

section
variable {file : Option Bytes} {w : World}

theorem births_set {i : ℕ} {h h' : Hook} (hi : w.hooks[i]? = some h) (hsame : h'.birth = h.birth) :
    (w.hooks.set i h').map Hook.birth = w.births := by
  refine map_set_same ?_
  rw [List.getElem?_map, hi, Option.map_some, hsame]

theorem Inv.set_hook (h : Inv E key file w) {i : ℕ} {o o' : Hook} (hi : w.hooks[i]? = some o)
    (hsame : o'.birth = o.birth) (hok : AttemptOk E o'.attempt) :
    Inv E key file { w with hooks := w.hooks.set i o' } := by
  have hids : ({ w with hooks := w.hooks.set i o' } : World).ids = w.ids := by
    rw [ids_eq, ids_eq]
    exact congrArg (List.map (·.1)) (births_set hi hsame)
  refine ⟨fun x hx => ?_, hids ▸ h.distinct, h.journal, h.unique, h.latest, fun id hid => ?_, h.file⟩
  · rcases List.mem_or_eq_of_mem_set hx with hx | rfl
    · exact h.hooks x hx
    · exact hok
  · rw [hids]
    exact h.born id hid

theorem Inv.add_hook (h : Inv E key file w) {o : Hook} (hnew : o.attempt.attemptId ∉ w.ids)
    (hok : AttemptOk E o.attempt) : Inv E key file { w with hooks := w.hooks ++ [o] } := by
  have hids : ({ w with hooks := w.hooks ++ [o] } : World).ids = w.ids ++ [o.attempt.attemptId] := by
    simp [World.ids]
  refine ⟨fun x hx => ?_, ?_, h.journal, h.unique, h.latest, fun id hid => ?_, h.file⟩
  · rcases List.mem_append.1 hx with hx | hx
    · exact h.hooks x hx
    · rw [List.mem_singleton.1 hx]
      exact hok
  · rw [hids]
    exact List.Nodup.append h.distinct (List.nodup_singleton _) (by simpa using hnew)
  · rw [hids]
    exact List.mem_append_left _ (h.born id hid)

theorem Put.ok {j k : IngestJournal} {v : Json} (h : Put j v k)
    (hentries : ∀ u ∈ k.attempts, Entry E u) (htotal : j.total < maxSafeInteger) : JournalOk E k := by
  refine ⟨hentries, ?_⟩
  have hlen : k.attempts.length ≤ j.attempts.length + 1 := by
    have hids : (attemptIds k).length ≤ (attemptIds j).length + 1 := by
      rcases h.ids with ⟨-, heq⟩ | ⟨-, heq⟩ <;> simp [heq]
    simpa [attemptIds] using hids
  have := h.dropped
  unfold IngestJournal.total at htotal
  omega

theorem Put.unique {j k : IngestJournal} {v : Json} (h : Put j v k) (hj : (attemptIds j).Nodup) : (attemptIds k).Nodup := by
  rcases h.ids with ⟨-, heq⟩ | ⟨hnew, heq⟩
  · rw [heq]
    exact hj
  · rw [heq]
    exact List.Nodup.append hj (List.nodup_singleton _) (by simpa using hnew)

theorem Put.subset {j k : IngestJournal} {v : Json} (h : Put j v k) {id : JsString} (hid : id ∈ attemptIds k) :
    id ∈ attemptIds j ∨ id = attemptId v := by
  rcases h.ids with ⟨-, heq⟩ | ⟨-, heq⟩
  · exact .inl (heq ▸ hid)
  · rw [heq, List.mem_append, List.mem_singleton] at hid
    exact hid

/-- The attempts that are recorded after a write. -/
theorem latestAfter_isSome {latest : JsString → Option Json} {v : Json} {j' : IngestJournal}
    (h : ∀ id ∈ attemptIds j', (latest id).isSome = true ∨ id = attemptId v) (id : JsString) :
    (latestAfter latest v j' id).isSome = true ↔ (latest id).isSome = true ∨ id = attemptId v := by
  rw [latestAfter]
  rcases hfind : j'.attempts.find? (fun u => attemptId u == id) with _ | u
  · simp only
    split
    · next heq => simp [heq]
    · next hne => simp [hne]
  · have hid : attemptId u = id := by simpa using List.find?_some hfind
    have hmem : id ∈ attemptIds j' := hid ▸ List.mem_map_of_mem (List.mem_of_find?_eq_some hfind)
    simpa using h id hmem

theorem find?_unique {j : IngestJournal} (h : (attemptIds j).Nodup) {v : Json} (hv : v ∈ j.attempts) :
    j.attempts.find? (fun u => attemptId u == attemptId v) = some v := by
  rcases hfind : j.attempts.find? (fun u => attemptId u == attemptId v) with _ | u
  · have := List.find?_eq_none.1 hfind v hv
    simp at this
  · have hid : attemptId u = attemptId v := by simpa using List.find?_some hfind
    rw [List.inj_on_of_nodup_map h (List.mem_of_find?_eq_some hfind) hv hid]

/-- What a write leaves to be read. -/
theorem Write.read {w' : World} {a : BarbaroIngestAttempt} {k j' : IngestJournal} (h : Write E key w w' a k j') :
    readJournal E key w'.file = canonical j' := by
  rw [h.file]
  exact readJournal_written h.fitted.ok h.fitted.few h.fitted.fits

theorem Inv.known (h : Inv E key file w) {id : JsString} (hid : id ∈ attemptIds (readJournal E key w.file)) :
    (w.latest id).isSome = true := by
  obtain ⟨v, hv, rfl⟩ := List.mem_map.1 hid
  obtain ⟨u, hu, -⟩ := h.latest v hv
  rw [hu]
  rfl

/-- **What is recorded after a write**: the attempt, and what was before. -/
theorem Inv.recorded_write (h : Inv E key file w) {w' : World} {a : BarbaroIngestAttempt} {k j' : IngestJournal}
    (hwrite : Write E key w w' a k j') (id : JsString) :
    (w'.latest id).isSome = ((w.latest id).isSome || decide (id = a.attemptId)) := by
  have hsome := @latestAfter_isSome w.latest a.toJson j' (fun id hid => by
    rcases hwrite.put.subset (hwrite.fitted.ids.subset hid) with hid | hid
    · exact .inl (h.known hid)
    · exact .inr hid) id
  rw [toJson_id] at hsome
  rw [hwrite.latest, Bool.eq_iff_iff, hsome]
  simp

/-- **A write keeps the invariant.** -/
theorem Inv.write (h : Inv E key file w) {w' : World} {a : BarbaroIngestAttempt} {k j' : IngestJournal}
    (hwrite : Write E key w w' a k j') (hhooks : ∀ o ∈ w'.hooks, AttemptOk E o.attempt) (hdistinct : w'.ids.Nodup)
    (hsub : w.ids ⊆ w'.ids) : Inv E key file w' := by
  have hread := hwrite.read
  have hunique : (attemptIds j').Nodup := (hwrite.put.unique h.unique).sublist hwrite.fitted.ids
  refine ⟨hhooks, hdistinct, ?_, ?_, fun v hv => ?_, fun id hid => ?_,
    .inr ⟨j', hwrite.fitted.ok, hwrite.fitted.few, hwrite.fitted.fits, hwrite.file⟩⟩
  · rw [hread]
    exact canonical_ok hwrite.fitted.ok
  · rw [hread, canonical_ids hwrite.fitted.ok]
    exact hunique
  · rw [hread] at hv
    obtain ⟨u, hu, rfl⟩ := List.mem_map.1 hv
    refine ⟨u, ?_, rfl⟩
    rw [(hwrite.fitted.ok.entries u hu).sorted_id, hwrite.latest, latestAfter, find?_unique hunique hu]
  · rw [h.recorded_write hwrite, Bool.or_eq_true, decide_eq_true_eq] at hid
    rcases hid with hid | rfl
    · exact hsub (h.born id hid)
    · exact World.mem_ids hwrite.born

/-- **What an event does**: it leaves the file, or a hook writes its attempt. -/
structure Step (E : Host) (key : SessionKey) (w w' : World) (event : Event) : Prop where
  hooks : ∀ h ∈ w'.hooks, AttemptOk E h.attempt
  distinct : w'.ids.Nodup
  births : w.births <+: w'.births
  wrote : (w'.file = w.file ∧ w'.latest = w.latest) ∨ ∃ a k j', Write E key w w' a k j' ∧
    event.puts E key w = some (a, k) ∧ (a.attemptId ∉ w.ids ∨ ∃ i h reported, event = .persist i true reported ∧ w.hooks[i]? = some h ∧ a = h.attempt)

theorem Inv.stay {w' : World} (hw' : Inv E key file w') {event : Event} (hbirths : w.births <+: w'.births)
    (hfile : w'.file = w.file) (hlatest : w'.latest = w.latest) : Step E key w w' event := ⟨hw'.hooks, hw'.distinct, hbirths, .inl ⟨hfile, hlatest⟩⟩

theorem Inv.birth_step (h : Inv E key file w) {a : BarbaroIngestAttempt} (ha : AttemptOk E a)
    (hnew : a.attemptId ∉ w.ids) {t : JsString} (ht : TimeOk E t) (alive : ℤ → Bool) (committed : Bool)
    (hroom : (readJournal E key w.file).total < maxSafeInteger) {event : Event}
    (hputs : committed = true → event.puts E key w = some (a,
      { autopsyDeadAttempts alive t (readJournal E key w.file) with
        attempts := (autopsyDeadAttempts alive t (readJournal E key w.file)).attempts ++ [a.toJson] })) :
    Step E key w (w.birth E key a alive t committed) event := by
  have hadd := h.add_hook (o := ⟨a, false, 0⟩) hnew ha
  have hbirths : w.births <+: World.births { w with hooks := w.hooks ++ [⟨a, false, 0⟩] } :=
    ⟨[Hook.birth ⟨a, false, 0⟩], by simp [World.births]⟩
  cases committed with
  | false => exact hadd.stay hbirths rfl rfl
  | true =>
    obtain ⟨hauto, hids, hsame⟩ := autopsied alive ht h.journal
    have hnone : attemptId a.toJson ∉ attemptIds (readJournal E key w.file) := by
      rw [toJson_id]
      intro hmem
      obtain ⟨v, hv, heq⟩ := List.mem_map.1 hmem
      obtain ⟨u, hu, -⟩ := h.latest v hv
      exact hnew (h.born _ (by rw [← heq, hu]; rfl))
    have hput : Put (readJournal E key w.file) a.toJson
        { autopsyDeadAttempts alive t (readJournal E key w.file) with
          attempts := (autopsyDeadAttempts alive t (readJournal E key w.file)).attempts ++ [a.toJson] } := by
      refine ⟨rfl, .inr ⟨hnone, ?_⟩, fun v hv => ?_⟩
      · rw [← hids]
        simp [attemptIds]
      · rcases List.mem_append.1 hv with hv | hv
        · exact .inr (hsame v hv)
        · exact .inl (List.mem_singleton.1 hv)
    have hk := hput.ok (fun u hu => by
      rcases List.mem_append.1 hu with hu | hu
      · exact hauto.entries u hu
      · rw [List.mem_singleton.1 hu]
        exact ha.entry) hroom
    obtain ⟨j', hfit, hfitted, heq⟩ := @commit_spec E key
      { w with hooks := w.hooks ++ [⟨a, false, 0⟩] } a.toJson _ hk
    rw [World.birth, if_pos rfl, appendBirth, heq]
    exact ⟨hadd.hooks, hadd.distinct, hbirths, .inr ⟨a, _, j',
      ⟨by simp [World.births, Hook.birth], hput, hk, hfit, hfitted, rfl, rfl⟩, hputs rfl, .inl hnew⟩⟩

theorem Inv.persist_step (h : Inv E key file w) {i : ℕ} {o : Hook} (hi : w.hooks[i]? = some o)
    (htries : o.tries ≠ 0) (tries : ℕ)
    (hroom : (readJournal E key w.file).total < maxSafeInteger) (reported : Bool) :
    Step E key w (World.commit { w with hooks := w.hooks.set i { o with tries := tries } } o.attempt.toJson
      (persistAttempt E key w.file o.attempt.toJson)) (.persist i true reported) := by
  have hmem : o ∈ w.hooks := List.mem_of_getElem? hi
  have hbirth : Hook.birth { o with tries := tries } = o.birth := rfl
  have hset := h.set_hook hi hbirth (h.hooks o hmem)
  have hbirths : World.births { w with hooks := w.hooks.set i { o with tries := tries } } = w.births :=
    births_set hi hbirth
  have hput := putAttempt_put (readJournal E key w.file) o.attempt.toJson
  have hk := hput.ok (fun u hu => by
    have hentry := (h.hooks o hmem).entry
    simp only [putAttempt] at hu
    split at hu
    · rcases List.mem_or_eq_of_mem_set hu with hu | rfl
      · exact h.journal.entries u hu
      · exact hentry
    · rcases List.mem_append.1 hu with hu | hu
      · exact h.journal.entries u hu
      · rw [List.mem_singleton.1 hu]
        exact hentry) hroom
  obtain ⟨j', hfit, hfitted, heq⟩ := @commit_spec E key
    { w with hooks := w.hooks.set i { o with tries := tries } } o.attempt.toJson _ hk
  rw [persistAttempt, heq]
  refine ⟨hset.hooks, hset.distinct, ⟨[], by rw [List.append_nil]; exact hbirths.symm⟩, .inr ⟨o.attempt, _, j',
    ⟨?_, hput, hk, hfit, hfitted, rfl, rfl⟩, by simp only [Event.puts, hi, if_neg htries],
    .inr ⟨i, o, reported, rfl, hi, rfl⟩⟩⟩
  have hborn : o.birth ∈ w.births := List.mem_map_of_mem hmem
  rw [← hbirths] at hborn
  exact hborn

/-- **One event**, whichever it is. -/
theorem Inv.step (h : Inv E key file w) {event : Event} (hpromised : event.Promised E w)
    (hcounted : event.Counted E key w) : Step E key w (event.after E key w) event := by
  have hnothing : Step E key w w event := h.stay (List.prefix_refl _) rfl rfl
  cases event with
  | birth options random startedAt occurredAt pid alive committed =>
    obtain ⟨hbegin, htime, hnew⟩ := hpromised
    exact h.birth_step (beginAttempt_ok hbegin) hnew htime alive committed hcounted fun hc => by
      rw [hc, Event.puts]
  | observe i observation observedAt changed =>
    simp only [Event.after]
    split
    · exact hnothing
    · next o hi =>
      split
      · exact hnothing
      · split
        · exact hnothing
        · next a ha =>
          obtain ⟨hid, htrigger⟩ := observeAttempt_same ha
          have hok := observeAttempt_ok (h.hooks o (List.mem_of_getElem? hi)) hpromised (hcounted o hi) ha
          have hbirth : Hook.birth ⟨a, false, if changed then 1 else 0⟩ = o.birth := by
            rw [Hook.birth, Hook.birth, hid, htrigger]
          exact (h.set_hook hi hbirth hok).stay (births_set hi hbirth ▸ List.prefix_refl _) rfl rfl
  | finish i outcome finishedAt =>
    simp only [Event.after]
    split
    · exact hnothing
    · next o hi =>
      split
      · exact hnothing
      · have hok := finishAttempt_ok (h.hooks o (List.mem_of_getElem? hi)) outcome hpromised
        have hbirth : Hook.birth ⟨finishAttempt o.attempt outcome finishedAt, true, 2⟩ = o.birth := rfl
        exact (h.set_hook hi hbirth hok).stay (births_set hi hbirth ▸ List.prefix_refl _) rfl rfl
  | persist i committed reported =>
    simp only [Event.after]
    split
    · exact hnothing
    · next o hi =>
      split
      · exact hnothing
      · next htries =>
        cases committed with
        | false =>
          have hbirth : Hook.birth { o with tries := o.tries - 1 } = o.birth := rfl
          have hok := h.hooks o (List.mem_of_getElem? hi)
          exact (h.set_hook hi hbirth hok).stay (births_set hi hbirth ▸ List.prefix_refl _) rfl rfl
        | true =>
          rw [if_pos rfl]
          exact h.persist_step hi htries _ hcounted reported

theorem Step.inv {w' : World} {event : Event} (h : Step E key w w' event) (hw : Inv E key file w) :
    Inv E key file w' := by
  have hsub : w.ids ⊆ w'.ids := by
    rw [ids_eq, ids_eq]
    exact (h.births.map _).subset
  rcases h.wrote with ⟨hfile, hlatest⟩ | ⟨a, k, j', hwrite, -⟩
  · refine ⟨h.hooks, h.distinct, ?_, ?_, ?_, fun id hid => hsub (hw.born id (hlatest ▸ hid)), ?_⟩
    · rw [hfile]
      exact hw.journal
    · rw [hfile]
      exact hw.unique
    · rw [hfile, hlatest]
      exact hw.latest
    · rw [hfile]
      exact hw.file
  · exact hw.write hwrite h.hooks h.distinct hsub

end

end Barbaro.Ingest
