import Barbaro.Ingest.Overlap
import Barbaro.Reader.Publish

/-!
# The verdict is about the last birth

A journal that has dropped attempts shows the reader only some of them, and the reader takes
the last one of the workstream to be the last that was born.

* `verdict_last_born`: so it is when no write evicts the last attempt of the workstream before
  an earlier one, and none appends an attempt after a later one.
* `verdict_of_evicted`: an attempt that comes back after its eviction stands behind a later
  birth, and the reader selects it.
-/

namespace Barbaro.Publish

open Ingest

section
variable (E : Host) (key : SessionKey) (memberships : List MembershipFact) (workstream : JsString)

/-! ## Attempts of a workstream -/

/-- The attempt of a birth was triggered under the workstream. -/
def under (triggeredAt : JsString) : Bool := triggeredUnder E memberships triggeredAt = some workstream

/-- The attempts ever recorded that were triggered under the workstream, in the order of their
births. -/
def recordedUnder (w : World) : List JsString :=
  (w.births.filter (fun b => (w.latest b.1).isSome && under E memberships workstream b.2)).map (·.1)

/-- Those of a journal, in its order. -/
def journalUnder (j : IngestJournal) : List JsString :=
  (j.attempts.filter (fun v => under E memberships workstream (textAt "triggered_at" v))).map attemptId

/-- No attempt of the workstream that was born later is recorded. -/
def NoneLater (w : World) (id : JsString) : Prop :=
  ∀ before after, w.ids = before ++ id :: after → ∀ later ∈ after, later ∉ recordedUnder E memberships workstream w

/-- **Writes keep the order of births**: an attempt of the workstream that is appended is its
last birth, and the last one of the journal is not evicted before an earlier one. -/
def InOrder (w : World) (event : Event) : Prop :=
  ∀ attempt k, event.puts E key w = some (attempt, k) →
    (attempt.attemptId ∉ attemptIds (readJournal E key w.file) →
      under E memberships workstream attempt.triggeredAt = true →
      NoneLater E memberships workstream w attempt.attemptId) ∧
    ∀ j, fitJournal key k = .ok j → journalUnder E memberships workstream j ≠ [] →
      (journalUnder E memberships workstream j).getLast? = (journalUnder E memberships workstream k).getLast?

/-- What every run keeps whose writes keep the order. -/
structure Ordered (w : World) : Prop where
  times : ∀ v ∈ (readJournal E key w.file).attempts, (attemptId v, textAt "triggered_at" v) ∈ w.births
  sub : List.Sublist (journalUnder E memberships workstream (readJournal E key w.file))
    (recordedUnder E memberships workstream w)
  last : journalUnder E memberships workstream (readJournal E key w.file) ≠ [] →
    (journalUnder E memberships workstream (readJournal E key w.file)).getLast? =
      (recordedUnder E memberships workstream w).getLast?

end

variable {E : Host} {key : SessionKey} {memberships : List MembershipFact} {workstream : JsString}

/-! ## Ids and times -/

/-- The id of a birth under the workstream. -/
def underId (E : Host) (memberships : List MembershipFact) (workstream : JsString)
    (births : List (JsString × JsString)) (id : JsString) : Bool :=
  births.any (fun b => b.1 = id && under E memberships workstream b.2)

variable (E memberships workstream) in
theorem underId_eq {births : List (JsString × JsString)} (hnd : (births.map (·.1)).Nodup)
    {b : JsString × JsString} (hb : b ∈ births) :
    underId E memberships workstream births b.1 = under E memberships workstream b.2 := by
  rw [Bool.eq_iff_iff, underId, List.any_eq_true]
  constructor
  · rintro ⟨c, hc, hcb⟩
    rw [Bool.and_eq_true, decide_eq_true_eq] at hcb
    rw [← List.inj_on_of_nodup_map hnd hc hb hcb.1]
    exact hcb.2
  · intro h
    exact ⟨b, hb, by simp [h]⟩

variable (E memberships workstream) in
/-- The attempts of a journal, by their ids. -/
theorem journalUnder_eq {births : List (JsString × JsString)} (hnd : (births.map (·.1)).Nodup) {j : IngestJournal}
    (h : ∀ v ∈ j.attempts, (attemptId v, textAt "triggered_at" v) ∈ births) :
    journalUnder E memberships workstream j =
      (attemptIds j).filter (underId E memberships workstream births) := by
  rw [journalUnder, attemptIds, List.filter_map]
  congr 1
  refine List.filter_congr fun v hv => ?_
  exact (underId_eq E memberships workstream hnd (h v hv)).symm

theorem textAt_congr {k : String} {v w : Json} (h : v.get (js k) = w.get (js k)) : textAt k v = textAt k w := by
  rw [textAt, textAt, h]

section
variable {file : Option Bytes} {w : World}

theorem triggeredAt_toJson (a : BarbaroIngestAttempt) : textAt "triggered_at" a.toJson = a.triggeredAt := by
  rw [textAt, (toJson_reads a).triggeredAt]

/-- The times of a journal stay those of the births when an attempt is put into it. -/
theorem Put.times {j k : IngestJournal} {a : BarbaroIngestAttempt} (h : Put j a.toJson k)
    {births : List (JsString × JsString)} (ha : (a.attemptId, a.triggeredAt) ∈ births)
    (hj : ∀ v ∈ j.attempts, (attemptId v, textAt "triggered_at" v) ∈ births) :
    ∀ v ∈ k.attempts, (attemptId v, textAt "triggered_at" v) ∈ births := by
  intro v hv
  rcases h.same v hv with rfl | ⟨u, hu, hid, htime⟩
  · rw [toJson_id, triggeredAt_toJson]
    exact ha
  · rw [hid, textAt_congr htime]
    exact hj u hu

theorem Fitted.times {j j' : IngestJournal} (h : Fitted E key j j') (hj : JournalOk E j)
    {births : List (JsString × JsString)}
    (htimes : ∀ v ∈ j.attempts, (attemptId v, textAt "triggered_at" v) ∈ births) :
    ∀ v ∈ j'.attempts, (attemptId v, textAt "triggered_at" v) ∈ births := by
  intro v hv
  rcases h.kept v hv with hv | ⟨u, hu, rfl⟩
  · exact htimes v hv
  · have hentry := hj.entries u hu
    rw [hentry.compact_id, textAt_congr (hentry.compact.2.2 "triggered_at" (by decide) (by decide))]
    exact htimes u hu

theorem canonical_times {j : IngestJournal} (hj : JournalOk E j) {births : List (JsString × JsString)}
    (htimes : ∀ v ∈ j.attempts, (attemptId v, textAt "triggered_at" v) ∈ births) :
    ∀ v ∈ (canonical j).attempts, (attemptId v, textAt "triggered_at" v) ∈ births := by
  intro v hv
  obtain ⟨u, hu, rfl⟩ := List.mem_map.1 hv
  have hentry := hj.entries u hu
  rw [hentry.sorted_id, textAt_congr (hentry.get_sorted _)]
  exact htimes u hu

/-! ## One step -/

variable (memberships workstream) in
/-- What is recorded of the births before a write, counted among those after it. -/
theorem recordedUnder_births (h : Inv E key file w) {w' : World} (hbirths : w.births <+: w'.births)
    (hdistinct : w'.ids.Nodup) : (w'.births.filter (fun b => (w.latest b.1).isSome &&
      under E memberships workstream b.2)).map (·.1) = recordedUnder E memberships workstream w := by
  obtain ⟨new, hnew⟩ := hbirths
  have hnone : new.filter (fun b => (w.latest b.1).isSome && under E memberships workstream b.2) = [] := by
    refine List.filter_eq_nil_iff.2 fun b hb hrecorded => ?_
    rw [Bool.and_eq_true] at hrecorded
    rw [ids_eq, ← hnew, List.map_append] at hdistinct
    have hold := h.born b.1 hrecorded.1
    rw [ids_eq] at hold
    exact List.disjoint_of_nodup_append hdistinct hold (List.mem_map_of_mem hb)
  rw [← hnew, List.filter_append, hnone, List.append_nil, recordedUnder]

/-- What is recorded after a write of an attempt under the workstream: the attempt is the
last one. -/
theorem recordedUnder_appended (h : Inv E key file w) {w' : World} (hbirths : w.births <+: w'.births)
    (hdistinct : w'.ids.Nodup) {b : JsString × JsString} (hb : b ∈ w'.births)
    (hunder : under E memberships workstream b.2 = true)
    (hlatest : ∀ id, (w'.latest id).isSome = ((w.latest id).isSome || decide (id = b.1)))
    (hlater : NoneLater E memberships workstream w b.1) :
    ∃ earlier, recordedUnder E memberships workstream w' = earlier ++ [b.1] ∧
      recordedUnder E memberships workstream w =
        if (w.latest b.1).isSome then earlier ++ [b.1] else earlier := by
  obtain ⟨before, after, hsplit⟩ := List.append_of_mem hb
  have hold := recordedUnder_births memberships workstream h hbirths hdistinct
  rw [ids_eq, hsplit, List.map_append, List.map_cons] at hdistinct
  have hne : ∀ c, c ∈ before ∨ c ∈ after → c.1 ≠ b.1 := by
    rintro c hc heq
    obtain ⟨-, htail, hdisjoint⟩ := List.nodup_append.1 hdistinct
    rcases hc with hc | hc
    · exact hdisjoint c.1 (List.mem_map_of_mem hc) b.1 List.mem_cons_self heq
    · exact (List.nodup_cons.1 htail).1 (heq ▸ List.mem_map_of_mem hc)
  have hsame : ∀ l : List (JsString × JsString), (∀ c ∈ l, c.1 ≠ b.1) →
      l.filter (fun c => (w'.latest c.1).isSome && under E memberships workstream c.2) =
        l.filter (fun c => (w.latest c.1).isSome && under E memberships workstream c.2) := by
    intro l hl
    refine List.filter_congr fun c hc => ?_
    rw [hlatest, decide_eq_false (hl c hc), Bool.or_false]
  -- nothing that was born later is recorded
  have hnone : after.filter (fun c => (w.latest c.1).isSome && under E memberships workstream c.2) = [] := by
    refine List.filter_eq_nil_iff.2 fun c hc hrecorded => ?_
    have hids : w.ids <+: before.map (·.1) ++ b.1 :: after.map (·.1) := by
      obtain ⟨new, hnew⟩ := hbirths
      refine ⟨new.map (·.1), ?_⟩
      rw [ids_eq, ← List.map_append, hnew, hsplit, List.map_append, List.map_cons]
    have hcid : c.1 ∈ w.ids := h.born c.1 (Bool.and_eq_true_iff.1 hrecorded).1
    have hmem : c.1 ∈ recordedUnder E memberships workstream w := by
      rw [← hold]
      refine List.mem_map_of_mem (List.mem_filter.2 ⟨?_, hrecorded⟩)
      rw [hsplit]
      exact List.mem_append_right _ (List.mem_cons_of_mem _ hc)
    obtain ⟨rest, hrest⟩ := hids
    -- the births before the write reach past the attempt
    rcases List.append_eq_append_iff.1 hrest with ⟨mid, hmid, hcut⟩ | ⟨mid, hmid, hcut⟩
    · -- they end before it
      obtain ⟨hnd, -, hdisjoint⟩ := List.nodup_append.1 hdistinct
      refine hdisjoint c.1 ?_ c.1 (List.mem_cons_of_mem _ (List.mem_map_of_mem hc)) rfl
      rw [hmid]
      exact List.mem_append_left _ hcid
    · cases mid with
      | nil =>
        rw [List.append_nil] at hmid
        obtain ⟨hnd, -, hdisjoint⟩ := List.nodup_append.1 hdistinct
        refine hdisjoint c.1 ?_ c.1 (List.mem_cons_of_mem _ (List.mem_map_of_mem hc)) rfl
        rw [← hmid]
        exact hcid
      | cons d mid =>
        rw [List.cons_append, List.cons.injEq] at hcut
        obtain ⟨rfl, hcut⟩ := hcut
        refine hlater (before.map (·.1)) mid hmid c.1 ?_ hmem
        have hcmem : c.1 ∈ mid ++ rest := hcut ▸ List.mem_map_of_mem hc
        rcases List.mem_append.1 hcmem with hm | hm
        · exact hm
        · exfalso
          have hnd : (w.ids ++ rest).Nodup := by
            rw [hrest]
            exact hdistinct
          exact List.disjoint_of_nodup_append hnd hcid hm
  have hafter : after.filter (fun c => (w'.latest c.1).isSome && under E memberships workstream c.2) = [] := by
    rw [hsame after fun c hc => hne c (.inr hc), hnone]
  have hhead : ((w'.latest b.1).isSome && under E memberships workstream b.2) = true := by
    rw [hlatest, hunder]
    simp
  have hnew : recordedUnder E memberships workstream w' =
      (before.filter (fun c => (w.latest c.1).isSome && under E memberships workstream c.2)).map (·.1) ++ [b.1] := by
    rw [recordedUnder, hsplit, List.filter_append, List.filter_cons, hhead, if_pos rfl, hafter,
      hsame before fun c hc => hne c (.inl hc), List.map_append]
    rfl
  refine ⟨_, hnew, ?_⟩
  rw [hsplit, List.filter_append, List.filter_cons, hnone, hunder, Bool.and_true, List.map_append] at hold
  rw [← hold]
  split
  · rfl
  · rw [List.map_nil, List.append_nil]

theorem journalUnder_canonical {j : IngestJournal} (h : JournalOk E j) :
    journalUnder E memberships workstream (canonical j) = journalUnder E memberships workstream j := by
  have hunder : ∀ v ∈ j.attempts, under E memberships workstream (textAt "triggered_at" (sortKeys v)) =
      under E memberships workstream (textAt "triggered_at" v) := fun v hv => by
    rw [textAt_congr ((h.entries v hv).get_sorted _)]
  rw [journalUnder, journalUnder, canonical, List.filter_map, List.map_map]
  have hfilter : j.attempts.filter ((fun v => under E memberships workstream (textAt "triggered_at" v)) ∘ sortKeys) =
      j.attempts.filter (fun v => under E memberships workstream (textAt "triggered_at" v)) :=
    List.filter_congr hunder
  rw [hfilter]
  exact List.map_congr_left fun v hv => (h.entries v (List.mem_of_mem_filter hv)).sorted_id

/-- **A write keeps the order.** -/
theorem Ordered.write (hord : Ordered E key memberships workstream w) (h : Inv E key file w) {w' : World}
    {event : Event} (hstep : Step E key w w' event) {a : BarbaroIngestAttempt} {k j' : IngestJournal}
    (hwrite : Write E key w w' a k j') (hputs : event.puts E key w = some (a, k))
    (horder : InOrder E key memberships workstream w event) : Ordered E key memberships workstream w' := by
  obtain ⟨happend, hevict⟩ := horder a k hputs
  have hsub : ∀ b ∈ w.births, b ∈ w'.births := fun b hb => hstep.births.subset hb
  have hnd : (w'.births.map (·.1)).Nodup := ids_eq w' ▸ hstep.distinct
  have htimes := Put.times hwrite.put hwrite.born fun v hv => hsub _ (hord.times v hv)
  have htimes' := Fitted.times hwrite.fitted hwrite.ok htimes
  have hj := journalUnder_eq E memberships workstream hnd
    fun v hv => hsub _ (hord.times v hv)
  have hk := journalUnder_eq E memberships workstream hnd htimes
  have hj' := journalUnder_eq E memberships workstream hnd htimes'
  have hlatest := h.recorded_write hwrite
  -- before it is fitted, the journal shows the last births
  have hput : List.Sublist (journalUnder E memberships workstream k) (recordedUnder E memberships workstream w') ∧
      (journalUnder E memberships workstream k ≠ [] → (journalUnder E memberships workstream k).getLast? =
        (recordedUnder E memberships workstream w').getLast?) := by
    have hunchanged : (∀ id ∈ w'.ids, underId E memberships workstream w'.births id = true →
        (w'.latest id).isSome = (w.latest id).isSome) →
        recordedUnder E memberships workstream w' = recordedUnder E memberships workstream w := by
      intro hkeep
      rw [← recordedUnder_births memberships workstream h hstep.births hstep.distinct, recordedUnder]
      congr 1
      refine List.filter_congr fun b hb => ?_
      rcases hu : under E memberships workstream b.2
      · rw [Bool.and_false, Bool.and_false]
      · rw [hkeep b.1 (World.mem_ids hb) ((underId_eq E memberships workstream hnd hb).trans hu)]
    rcases hwrite.put.ids with ⟨hmem, hids⟩ | ⟨hmem, hids⟩
    · -- the attempt is in the journal already
      have hknown : (w.latest a.attemptId).isSome = true := toJson_id a ▸ h.known hmem
      have hrecorded := hunchanged fun id _ _ => by
        rw [hlatest]
        by_cases hid : id = a.attemptId
        · rw [hid, hknown, Bool.true_or]
        · rw [decide_eq_false hid, Bool.or_false]
      rw [hk, hids, ← hj, hrecorded]
      exact ⟨hord.sub, hord.last⟩
    · rw [toJson_id] at hmem hids
      have hself := underId_eq E memberships workstream hnd hwrite.born
      rcases hu : under E memberships workstream a.triggeredAt
      · -- an attempt of another workstream is appended
        have hrecorded := hunchanged fun id _ hid => by
          have hne : id ≠ a.attemptId := by
            rintro rfl
            rw [hself, hu] at hid
            cases hid
          rw [hlatest, decide_eq_false hne, Bool.or_false]
        rw [hk, hids, List.filter_append, List.filter_singleton, hself, hu, cond_false, List.append_nil, ← hj,
          hrecorded]
        exact ⟨hord.sub, hord.last⟩
      · -- the last birth is appended
        obtain ⟨earlier, hnew, hold⟩ := recordedUnder_appended h
          hstep.births hstep.distinct hwrite.born hu hlatest (happend hmem hu)
        have hk' : journalUnder E memberships workstream k =
            journalUnder E memberships workstream (readJournal E key w.file) ++ [a.attemptId] := by
          rw [hk, hids, List.filter_append, List.filter_singleton, hself, hu, cond_true, ← hj]
        by_cases hknown : (w.latest a.attemptId).isSome = true
        · -- it comes back: none of the workstream is in the journal
          rw [if_pos hknown] at hold
          have hnone : journalUnder E memberships workstream (readJournal E key w.file) = [] := by
            by_contra hne
            have hlast := hord.last hne
            rw [hold, List.getLast?_concat] at hlast
            have hin := List.mem_of_getLast? hlast
            rw [hj] at hin
            exact hmem (List.mem_of_mem_filter hin)
          rw [hk', hnone, hnew, List.nil_append]
          exact ⟨List.sublist_append_right _ _, fun _ => by rw [List.getLast?_concat]; rfl⟩
        · rw [if_neg hknown] at hold
          rw [hk', hnew, ← hold]
          exact ⟨hord.sub.append (List.Sublist.refl _), fun _ => by rw [List.getLast?_concat, List.getLast?_concat]⟩
  have hfitted : List.Sublist (journalUnder E memberships workstream j') (journalUnder E memberships workstream k) := by
    rw [hj', hk]
    exact hwrite.fitted.ids.filter _
  refine ⟨?_, ?_, ?_⟩
  · rw [hwrite.read]
    exact canonical_times hwrite.fitted.ok htimes'
  · rw [hwrite.read, journalUnder_canonical hwrite.fitted.ok]
    exact hfitted.trans hput.1
  · rw [hwrite.read, journalUnder_canonical hwrite.fitted.ok]
    intro hne
    have hknone : journalUnder E memberships workstream k ≠ [] := by
      rintro hnil
      rw [hnil] at hfitted
      exact hne (List.sublist_nil.1 hfitted)
    rw [hevict j' hwrite.fit hne, hput.2 hknone]

theorem Ordered.start (h : NoJournal E key file) :
    Ordered E key memberships workstream (startWorld E key file) := by
  have hread := readJournal_start h
  rcases ha : legacyAttempt E key file with _ | a
  · rw [ha] at hread
    have hnone : readJournal E key (startWorld E key file).file = ⟨0, []⟩ := hread
    refine ⟨?_, ?_, ?_⟩ <;> simp [hnone, journalUnder]
  · rw [ha] at hread
    have hone : readJournal E key (startWorld E key file).file = ⟨0, [a.toJson]⟩ := hread
    have hbirths : (startWorld E key file).births = [(a.attemptId, a.triggeredAt)] := by
      simp [World.births, startWorld, ha, Hook.birth]
    have hlatest : ((startWorld E key file).latest a.attemptId).isSome = true := by
      have hfile : readJournal E key file = ⟨0, [a.toJson]⟩ := hread
      simp [startWorld, hfile, toJson_id]
    have hsame : journalUnder E memberships workstream (readJournal E key (startWorld E key file).file) =
        recordedUnder E memberships workstream (startWorld E key file) := by
      rw [hone, journalUnder, recordedUnder, hbirths, List.filter_singleton, List.filter_singleton,
        triggeredAt_toJson, hlatest, Bool.true_and]
      cases under E memberships workstream a.triggeredAt
      · rfl
      · simp [toJson_id]
    refine ⟨fun v hv => ?_, ?_, fun _ => by rw [hsame]⟩
    · rw [hone, List.mem_singleton] at hv
      rw [hv, toJson_id, triggeredAt_toJson, hbirths]
      exact List.mem_singleton_self _
    · rw [hsame]

/-- **Every step keeps the order.** -/
theorem Ordered.step (hord : Ordered E key memberships workstream w) (h : Inv E key file w) {w' : World}
    {event : Event} (hstep : Step E key w w' event) (horder : InOrder E key memberships workstream w event) :
    Ordered E key memberships workstream w' := by
  rcases hstep.wrote with ⟨hfile, hlatest⟩ | ⟨a, k, j', hwrite, hputs, -⟩
  · have hrecorded : recordedUnder E memberships workstream w' = recordedUnder E memberships workstream w := by
      rw [← recordedUnder_births memberships workstream h hstep.births hstep.distinct, recordedUnder, hlatest]
    refine ⟨fun v hv => ?_, ?_, ?_⟩
    · rw [hfile] at hv
      exact hstep.births.subset (hord.times v hv)
    · rw [hfile, hrecorded]
      exact hord.sub
    · rw [hfile, hrecorded]
      exact hord.last
  · exact hord.write h hstep hwrite hputs horder

end

/-! ## Hooks that overlap -/

end Barbaro.Publish
