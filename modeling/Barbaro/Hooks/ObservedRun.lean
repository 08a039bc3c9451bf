import Barbaro.Core.SameJson
import Barbaro.Hooks.ObservedReads
import Barbaro.Lib.Loop
import Mathlib.Data.List.Induction

/-!
# Runs of the journal of observed reads

A call replaces the row of its invocation and keeps the last rows, so that the counter and
the rows add up and a committed row stays as it is. Of an invocation whose row was left
out nothing is known any more: where it comes back, the counter counts it again, and a
committed read may be shown as refused.

* `observe_step`: what a call does to the rows and the counter.
* `journal_faithful`: a run is faithful exactly if no invocation comes back.
* `observeRun_later`: the last rows of a run in order.
* `unfaithful_of_return`: a delivered read that comes back is shown as refused.
-/

namespace Barbaro.Observed

section
variable {E : Host} {localeCompare : JsString → JsString → Ordering} {provider : ParticipatingProvider}

/-! ## The new row -/

theorem find_row (invocation : JsString) (rs : List ReadObservation) :
    (rowsJson provider rs).find? (fun row => textAt "invocation_sha256" row == invocation) =
      (rs.find? (fun r => r.invocationSha256 == invocation)).map (·.toJson provider) := by
  rw [rowsJson, List.find?_map]
  congr 1
  exact congrArg (fun p => rs.find? p) (funext fun r => by simp only [Function.comp, invocationAt])

theorem createdAt_toJson (r : ReadObservation) : textAt "created_at" (r.toJson provider) = r.createdAt := by
  rw [textAt, (toJson_reads provider r).created]

theorem updatedAt_toJson (r : ReadObservation) : textAt "updated_at" (r.toJson provider) = r.updatedAt := by
  rw [textAt, (toJson_reads provider r).updated]

theorem HookReadCall.admitted_limit {call : HookReadCall} (h : call.admitted provider = true) :
    (call.reason == .nativeTraceLimit) = call.nativeLimit.isSome ∧
      ∀ l, call.nativeLimit = some l → provider = .codex ∧ validNativeTraceLimit (some l.toJson) = true := by
  simp only [HookReadCall.admitted, Bool.and_eq_true] at h
  refine ⟨by simpa using h.1.2, fun l hl => ?_⟩
  have hlimit := h.2
  simp only [hl, Bool.and_eq_true, beq_iff_eq] at hlimit
  exact ⟨hlimit.1.1, hlimit.2⟩

/-- A row that the checks of `observeHookRead` let through is well formed. -/
theorem newRow_ok {call : HookReadCall} {invocation now : JsString} {old : Option ReadObservation}
    (hadmitted : call.admitted provider = true) (hinv : isSha256Hex invocation = true)
    (hnow : E.isoString call.now = some now) (hold : ∀ r, old = some r → RowOk E provider r)
    (hlate : ∀ r, old = some r → compareUtf16CodeUnits now r.updatedAt ≠ .lt)
    (hproducer : provider = .codex → call.state = .committed →
      (call.producer provider (old.map (·.toJson provider))).isSome) :
    RowOk E provider (newRow E provider call invocation now (old.map (·.toJson provider))) where
  invocation := hinv
  created := by
    rcases old with _ | r
    · exact ⟨_, hnow⟩
    · rw [newRow, Option.map_some, Option.map_some, Option.getD_some, createdAt_toJson]
      exact (hold r rfl).created
  updated := ⟨_, hnow⟩
  ordered := by
    rcases old with _ | r
    · have heq : compareUtf16CodeUnits now now = .eq := compare_eq.2 rfl
      rw [newRow, Option.map_none, Option.map_none, Option.getD_none, heq]
      decide
    · rw [newRow, Option.map_some, Option.map_some, Option.getD_some, createdAt_toJson]
      refine compare_le_trans _ _ _ (hold r rfl).ordered fun hgt => ?_
      exact hlate r rfl ((compare_swap _ _).2 hgt)
  state := call.passed
  limit := (HookReadCall.admitted_limit hadmitted).1
  limitOk := (HookReadCall.admitted_limit hadmitted).2
  producer := by
    intro h
    cases provider with
    | codex => rfl
    | claude => cases h
  committed := hproducer
  cli := by
    intro s hs
    obtain ⟨b, -, rfl⟩ := Option.map_eq_some_iff.1 hs
    exact E.hex b
  build := by
    intro s hs
    obtain ⟨b, -, rfl⟩ := Option.map_eq_some_iff.1 hs
    exact E.hex b

/-! ## One call -/

/-- What a call that writes the journal does to its rows. -/
structure Replaced (invocation : JsString) (omitted : ℕ) (rs : List ReadObservation) (omitted' : ℕ)
    (rs' : List ReadObservation) (r : ReadObservation) (sorted : List ReadObservation) : Prop where
  named : r.invocationSha256 = invocation
  perm : sorted.Perm (rs.filter (fun x => x.invocationSha256 != invocation) ++ [r])
  kept : rs' = sorted.drop (sorted.length - maxReadObservations)
  total : omitted' = omitted + (sorted.length - maxReadObservations)
  /-- The row that was there is not a committed one. -/
  uncommitted : ∀ x ∈ rs, x.invocationSha256 = invocation → x.state ≠ .committed

theorem sortedRows_map (rs : List ReadObservation) (r : ReadObservation) :
    ∃ sorted, sortedRows localeCompare (rowsJson provider rs) (r.toJson provider) = rowsJson provider sorted ∧
      sorted.Perm (rs.filter (fun x => x.invocationSha256 != r.invocationSha256) ++ [r]) := by
  refine ⟨(rs.filter (fun x => x.invocationSha256 != r.invocationSha256) ++ [r]).mergeSort
    (fun a b => compareRows localeCompare (a.toJson provider) (b.toJson provider) != .gt), ?_,
    List.mergeSort_perm _ _⟩
  have hsame : (fun v => textAt "invocation_sha256" v != textAt "invocation_sha256" (r.toJson provider)) ∘
      (·.toJson provider) = fun x : ReadObservation => x.invocationSha256 != r.invocationSha256 := by
    funext x
    simp only [Function.comp, invocationAt]
  have hsort := @List.map_mergeSort _ _
    (fun a b => compareRows localeCompare (a.toJson provider) (b.toJson provider) != .gt)
    (fun a b => compareRows localeCompare a b != .gt) (·.toJson provider)
    (rs.filter (fun x => x.invocationSha256 != r.invocationSha256) ++ [r]) (fun a _ b _ => rfl)
  rw [sortedRows, rowsJson, rowsJson, List.filter_map, hsame, hsort, List.map_append]
  rfl

/-- Distinct rows, of which one is taken out. -/
theorem length_filter_ne {rs : List ReadObservation} (h : (rs.map (·.invocationSha256)).Nodup) (invocation : JsString) :
    (rs.filter (fun x => x.invocationSha256 != invocation)).length +
      (if invocation ∈ rs.map (·.invocationSha256) then 1 else 0) = rs.length := by
  have herase := h.erase_eq_filter invocation
  rw [List.filter_map] at herase
  have hlen := congrArg List.length herase
  rw [List.length_map] at hlen
  have hcomp : ((fun x => x != invocation) ∘ fun x : ReadObservation => x.invocationSha256) =
      fun x => x.invocationSha256 != invocation := rfl
  rw [hcomp] at hlen
  rw [← hlen, List.length_erase, List.length_map]
  split
  · next hmem =>
    have hpos : 0 < (rs.map (·.invocationSha256)).length := List.length_pos_of_mem hmem
    rw [List.length_map] at hpos
    omega
  · rfl

section
variable {invocation : JsString} {omitted omitted' : ℕ} {rs rs' sorted : List ReadObservation} {r : ReadObservation}

/-- **The counter and the rows** grow by one where the invocation had no row. -/
theorem Replaced.length (h : Replaced invocation omitted rs omitted' rs' r sorted)
    (hd : (rs.map (·.invocationSha256)).Nodup) :
    omitted' + rs'.length = omitted + rs.length + (if invocation ∈ rs.map (·.invocationSha256) then 0 else 1) := by
  have hlen := h.perm.length_eq
  have hrs := length_filter_ne hd invocation
  rw [List.length_append, List.length_singleton] at hlen
  rw [h.total, h.kept, List.length_drop]
  split at hrs
  · next hmem =>
    rw [if_pos hmem]
    omega
  · next hmem =>
    rw [if_neg hmem]
    omega

theorem Replaced.mem (h : Replaced invocation omitted rs omitted' rs' r sorted) {x : ReadObservation}
    (hx : x ∈ rs') : x = r ∨ x ∈ rs ∧ x.invocationSha256 ≠ invocation := by
  rw [h.kept] at hx
  rcases List.mem_append.1 (h.perm.subset (List.mem_of_mem_drop hx)) with hold | hnew
  · obtain ⟨hmem, hne⟩ := List.mem_filter.1 hold
    exact Or.inr ⟨hmem, by simpa using hne⟩
  · exact Or.inl (by simpa using hnew)

theorem Replaced.ok (h : Replaced invocation omitted rs omitted' rs' r sorted) (hr : RowOk E provider r)
    (hok : JournalOk E provider omitted rs) (hcounted : omitted' ≤ maxSafeInteger) :
    JournalOk E provider omitted' rs' where
  rows := by
    intro x hx
    rcases h.mem hx with rfl | ⟨hmem, -⟩
    · exact hr
    · exact hok.rows x hmem
  distinct := by
    have hfull : (sorted.map (·.invocationSha256)).Nodup := by
      refine (h.perm.map _).nodup_iff.2 ?_
      rw [List.map_append, List.nodup_append]
      refine ⟨hok.distinct.sublist (List.filter_sublist.map _), by simp, fun a ha b hb => ?_⟩
      obtain ⟨x, hx, rfl⟩ := List.mem_map.1 ha
      have hne : x.invocationSha256 ≠ invocation := by simpa using (List.mem_filter.1 hx).2
      rw [List.map_singleton, List.mem_singleton] at hb
      rw [hb, h.named]
      exact hne
    rw [h.kept]
    exact hfull.sublist ((List.drop_sublist _ _).map _)
  few := by
    rw [h.kept, List.length_drop]
    omega
  counted := hcounted

end

/-- **A call that writes the journal** replaces the row of its invocation. -/
theorem observeRows_replaced {call : HookReadCall} {invocation : JsString} {omitted omitted' : ℕ}
    {rs : List ReadObservation} {rows' : List Json} (hadmitted : call.admitted provider = true)
    (hinv : isSha256Hex invocation = true) (hok : JournalOk E provider omitted rs)
    (h : observeRows E localeCompare provider call invocation omitted (rowsJson provider rs) = some (omitted', rows')) :
    ∃ rs' r sorted, rows' = rowsJson provider rs' ∧ JournalOk E provider omitted' rs' ∧
      Replaced invocation omitted rs omitted' rs' r sorted := by
  simp only [observeRows, find_row] at h
  set old := rs.find? (fun r => r.invocationSha256 == invocation) with hfind
  have hold : ∀ r, old = some r → r ∈ rs ∧ r.invocationSha256 = invocation := by
    intro r hr
    exact ⟨List.mem_of_find?_eq_some hr, by simpa using List.find?_some hr⟩
  cases hnow : E.isoString call.now with
  | none =>
    rw [hnow] at h
    cases h
  | some now =>
    rw [hnow] at h
    simp only at h
    split at h
    · cases h
    next hcommitted =>
    split at h
    · cases h
    next hlate =>
    split at h
    · cases h
    next hproducer =>
    split at h
    swap
    · cases h
    next hcounted =>
    cases h
    have hrow := @newRow_ok E provider call invocation now old hadmitted hinv hnow
      (fun r hr => hok.rows r (hold r hr).1)
      (fun r hr hlt => hlate (by simp [hr, updatedAt_toJson, hlt]))
      (fun hp hc => by
        rw [Option.isSome_iff_ne_none]
        simpa [hp, hc] using hproducer)
    obtain ⟨sorted, hsorted, hperm⟩ := @sortedRows_map localeCompare provider rs
      (newRow E provider call invocation now (old.map (·.toJson provider)))
    have hlen : (rowsJson provider sorted).length = sorted.length := List.length_map _
    have hreplaced : Replaced invocation omitted rs (omitted + (sorted.length - maxReadObservations))
        (sorted.drop (sorted.length - maxReadObservations))
        (newRow E provider call invocation now (old.map (·.toJson provider))) sorted := by
      refine ⟨rfl, hperm, rfl, rfl, fun x hx hxi hxc => hcommitted ?_⟩
      -- rows are distinct, so that the row found is this one
      have hsome : old.isSome := by
        rw [hfind, List.find?_isSome]
        exact ⟨x, hx, by simpa using hxi⟩
      obtain ⟨y, hy⟩ := Option.isSome_iff_exists.1 hsome
      have hyx : y = x := List.inj_on_of_nodup_map hok.distinct (hold y hy).1 hx ((hold y hy).2.trans hxi.symm)
      rw [hy, Option.map_some, Option.any_some, stateAt, hyx, hxc]
      rfl
    rw [hsorted, hlen] at hcounted ⊢
    refine ⟨_, _, sorted, ?_, hreplaced.ok hrow hok hcounted, hreplaced⟩
    rw [rowsJson, rowsJson, List.map_drop]

/-- Where the invocation has no row, its first row is added. -/
theorem observeRows_fresh {call : HookReadCall} {invocation now : JsString} {omitted : ℕ} {rs : List ReadObservation}
    (hnow : E.isoString call.now = some now) (hnone : ∀ x ∈ rs, x.invocationSha256 ≠ invocation) :
    observeRows E localeCompare provider call invocation omitted (rowsJson provider rs) =
      if (!(provider == .codex && call.state == .committed && call.pinnedProducer.isNone) &&
          decide (omitted + (rs.length + 1 - maxReadObservations) ≤ maxSafeInteger)) = true then
        some (omitted + (rs.length + 1 - maxReadObservations),
          (sortedRows localeCompare (rowsJson provider rs)
            ((newRow E provider call invocation now none).toJson provider)).drop (rs.length + 1 - maxReadObservations))
      else none := by
  have hfind : rs.find? (fun r => r.invocationSha256 == invocation) = none := by
    rw [List.find?_eq_none]
    exact fun x hx => by simpa using hnone x hx
  have hproducer : (provider == .codex && call.state == .committed && (call.producer provider none).isNone) =
      (provider == .codex && call.state == .committed && call.pinnedProducer.isNone) := by
    cases provider <;> simp [HookReadCall.producer]
  obtain ⟨sorted, hsorted, hperm⟩ := @sortedRows_map localeCompare provider rs
    (newRow E provider call invocation now none)
  have hlen : (rowsJson provider sorted).length = rs.length + 1 := by
    have hall : rs.filter (fun x => x.invocationSha256 != invocation) = rs := by
      rw [List.filter_eq_self]
      exact fun x hx => by simpa using hnone x hx
    have hnamed : (newRow E provider call invocation now none).invocationSha256 = invocation := rfl
    rw [hnamed, hall] at hperm
    rw [rowsJson, List.length_map, hperm.length_eq, List.length_append, List.length_singleton]
  simp only [observeRows, find_row, hfind, hnow, Option.map_none, Option.any_none, hproducer, hsorted, hlen,
    Bool.false_eq_true, if_false]
  cases provider == .codex && call.state == .committed && call.pinnedProducer.isNone
  · simp
  · simp

/-- Where the invocation has no row, three checks decide whether the journal is written. -/
theorem observeRows_new {call : HookReadCall} {invocation : JsString} {omitted : ℕ} {rs : List ReadObservation}
    (hnone : ∀ x ∈ rs, x.invocationSha256 ≠ invocation) :
    (observeRows E localeCompare provider call invocation omitted (rowsJson provider rs)).isSome =
      ((E.isoString call.now).isSome &&
        !(provider == .codex && call.state == .committed && call.pinnedProducer.isNone) &&
        decide (omitted + (rs.length + 1 - maxReadObservations) ≤ maxSafeInteger)) := by
  cases hnow : E.isoString call.now with
  | none => rw [observeRows, hnow]; rfl
  | some now =>
    rw [observeRows_fresh hnow hnone, Option.isSome_some, Bool.true_and]
    split
    · next h => exact h.symm
    · next h => exact ((Bool.not_eq_true _).mp h).symm

end

/-! ## Runs -/

/-- The file of the journal, and the invocations that were recorded. -/
structure ObservedState where
  file : Option Bytes := none
  recorded : List JsString := []

section
variable (E : Host) (localeCompare : JsString → JsString → Ordering) (provider : ParticipatingProvider)
  (native : JsString)

/-- The session whose journal it is. -/
def sessionOf : JsString := createSessionId E.toHasher provider.text native

/-- What the journal's file shows: the counter and the rows. -/
def journalOn (file : Option Bytes) : ℕ × List Json :=
  match readReadObservations E provider (sessionOf E provider native) file with
  | .ok omitted rows => (omitted, rows)
  | _ => (0, [])

def observeStep (s : ObservedState) (call : HookReadCall) : ObservedState :=
  match observeHookRead E localeCompare provider (sessionOf E provider native) call s.file with
  | some (invocation, file) => { file := some file, recorded := Loop.add s.recorded invocation }
  | none => s

/-- The calls of a session, one after the other. -/
def observeRun (calls : List HookReadCall) : ObservedState := calls.foldl (observeStep E localeCompare provider native) {}

/-- A call whose invocation is written down if it is a new one. -/
def HookReadCall.recordable (call : HookReadCall) : Bool :=
  call.admitted provider && (E.isoString call.now).isSome &&
    !(provider == .codex && call.state == .committed && call.pinnedProducer.isNone)

/-- A call brings back an invocation that was recorded and of which no row is left. -/
def Returning (s : ObservedState) (call : HookReadCall) : Prop :=
  call.recordable E provider = true ∧
    ∃ toolUseId, call.toolUseId = some toolUseId ∧ invocationOf E toolUseId call.turn ∈ s.recorded ∧
      (∀ row ∈ (journalOn E provider native s.file).2,
        textAt "invocation_sha256" row ≠ invocationOf E toolUseId call.turn) ∧
      (journalOn E provider native s.file).1 +
        ((journalOn E provider native s.file).2.length + 1 - maxReadObservations) ≤ maxSafeInteger

/-- What a run says of the session's reads. -/
structure FaithfulRun (calls : List HookReadCall) : Prop where
  /-- Every journal written is accepted, has few rows and distinct ones. -/
  accepted : ∀ before after, calls = before ++ after → ∀ file,
    (observeRun E localeCompare provider native before).file = some file →
      ∃ omitted rows, readReadObservations E provider (sessionOf E provider native) (some file) =
          .ok omitted rows ∧
        rows.length ≤ maxReadObservations ∧ (rows.map (textAt "invocation_sha256")).Nodup
  /-- The counter and the rows are the invocations ever recorded. -/
  counted : ∀ before after, calls = before ++ after →
    (journalOn E provider native (observeRun E localeCompare provider native before).file).1 +
        (journalOn E provider native (observeRun E localeCompare provider native before).file).2.length =
      (observeRun E localeCompare provider native before).recorded.length
  /-- What was shown as committed is never shown as anything else. -/
  kept : ∀ before middle after, calls = before ++ middle ++ after →
    ∀ row ∈ (journalOn E provider native (observeRun E localeCompare provider native before).file).2,
      equalsText (js "committed") (row.get (js "state")) = true →
    ∀ row' ∈ (journalOn E provider native (observeRun E localeCompare provider native (before ++ middle)).file).2,
      textAt "invocation_sha256" row' = textAt "invocation_sha256" row →
      equalsText (js "committed") (row'.get (js "state")) = true

end

section
variable {E : Host} {localeCompare : JsString → JsString → Ordering} {provider : ParticipatingProvider}
  {native : JsString}

theorem sessionOf_ok : isSessionId (sessionOf E provider native) = true := createSessionId_ok _ _ _

/-- What holds of a state in a run. -/
structure Held (E : Host) (provider : ParticipatingProvider) (native : JsString) (s : ObservedState) (omitted : ℕ)
    (rs : List ReadObservation) : Prop where
  ok : JournalOk E provider omitted rs
  file : s.file = some (journalFile provider (sessionOf E provider native) omitted (rowsJson provider rs)) ∨
    s.file = none ∧ omitted = 0 ∧ rs = []
  within : ∀ r ∈ rs, r.invocationSha256 ∈ s.recorded

theorem Held.initial : Held E provider native {} 0 [] where
  ok := { rows := by simp, distinct := by simp, few := by simp, counted := by simp }
  file := Or.inr ⟨rfl, rfl, rfl⟩
  within := by simp

section
variable {s : ObservedState} {omitted : ℕ} {rs : List ReadObservation}

theorem Held.journalOn (hiso : IsoDates E) (h : Held E provider native s omitted rs) :
    journalOn E provider native s.file = (omitted, rowsJson provider rs) := by
  rcases h.file with hfile | ⟨hfile, rfl, rfl⟩
  · rw [Observed.journalOn, hfile, readReadObservations_written hiso (sessionOf_ok) h.ok]
  · rw [Observed.journalOn, hfile]
    rfl

/-- The first call meets no journal, and does as with an empty one. -/
theorem Held.observe (hiso : IsoDates E) (h : Held E provider native s omitted rs) (call : HookReadCall) :
    observeHookRead E localeCompare provider (sessionOf E provider native) call s.file =
      match call.toolUseId with
      | none => none
      | some toolUseId =>
        if call.admitted provider then
          (observeRows E localeCompare provider call (invocationOf E toolUseId call.turn) omitted
            (rowsJson provider rs)).map
              (fun j => (invocationOf E toolUseId call.turn,
                journalFile provider (sessionOf E provider native) j.1 j.2))
        else none := by
  rw [observeHookRead]
  rcases h.file with hfile | ⟨hfile, rfl, rfl⟩
  · rewrite [hfile, readReadObservations_written hiso sessionOf_ok h.ok]
    cases call.toolUseId <;> rfl
  · rw [hfile]
    rfl

/-- **A call that writes** replaces the row of its invocation. -/
theorem observe_written (hiso : IsoDates E) (h : Held E provider native s omitted rs) {call : HookReadCall}
    {toolUseId : JsString} (htool : call.toolUseId = some toolUseId) (hadmitted : call.admitted provider = true)
    (hsome : (observeRows E localeCompare provider call (invocationOf E toolUseId call.turn) omitted
      (rowsJson provider rs)).isSome) :
    ∃ omitted' rs' r sorted,
      (observeStep E localeCompare provider native s call).recorded =
          Loop.add s.recorded (invocationOf E toolUseId call.turn) ∧
        Replaced (invocationOf E toolUseId call.turn) omitted rs omitted' rs' r sorted ∧
        Held E provider native (observeStep E localeCompare provider native s call) omitted' rs' := by
  obtain ⟨⟨omitted', rows'⟩, hrows⟩ := Option.isSome_iff_exists.1 hsome
  obtain ⟨rs', r, sorted, rfl, hok, hreplaced⟩ := observeRows_replaced hadmitted (E.hex _) h.ok hrows
  have hstep : observeStep E localeCompare provider native s call =
      { file := some (journalFile provider (sessionOf E provider native) omitted' (rowsJson provider rs')),
        recorded := Loop.add s.recorded (invocationOf E toolUseId call.turn) } := by
    rw [observeStep, h.observe hiso, htool]
    simp only [if_pos hadmitted, hrows, Option.map_some]
  refine ⟨omitted', rs', r, sorted, by rw [hstep], hreplaced, ?_⟩
  rw [hstep]
  refine ⟨hok, Or.inl rfl, fun x hx => Loop.mem_add.2 ?_⟩
  rcases hreplaced.mem hx with rfl | ⟨hmem, -⟩
  · exact Or.inr hreplaced.named
  · exact Or.inl (h.within x hmem)

/-- **One call**: nothing is written, or the row of the call's invocation is replaced. -/
theorem observe_step (hiso : IsoDates E) (h : Held E provider native s omitted rs) (call : HookReadCall) :
    observeStep E localeCompare provider native s call = s ∨
      ∃ toolUseId omitted' rs' r sorted, call.toolUseId = some toolUseId ∧ call.admitted provider = true ∧
        (observeRows E localeCompare provider call (invocationOf E toolUseId call.turn) omitted
          (rowsJson provider rs)).isSome ∧
        (observeStep E localeCompare provider native s call).recorded =
          Loop.add s.recorded (invocationOf E toolUseId call.turn) ∧
        Replaced (invocationOf E toolUseId call.turn) omitted rs omitted' rs' r sorted ∧
        Held E provider native (observeStep E localeCompare provider native s call) omitted' rs' := by
  cases htool : call.toolUseId with
  | none =>
    left
    rw [observeStep, h.observe hiso, htool]
  | some toolUseId =>
    by_cases hadmitted : call.admitted provider = true
    swap
    · left
      rw [observeStep, h.observe hiso, htool]
      simp only [if_neg hadmitted]
    by_cases hsome : (observeRows E localeCompare provider call (invocationOf E toolUseId call.turn) omitted
        (rowsJson provider rs)).isSome
    · right
      obtain ⟨omitted', rs', r, sorted, hwritten⟩ := observe_written hiso h htool hadmitted hsome
      exact ⟨toolUseId, omitted', rs', r, sorted, rfl, hadmitted, hsome, hwritten⟩
    · left
      rw [Bool.not_eq_true, Option.isSome_eq_false_iff, Option.isNone_iff_eq_none] at hsome
      rw [observeStep, h.observe hiso, htool]
      simp only [if_pos hadmitted, hsome, Option.map_none]

end

theorem observeRun_append (calls : List HookReadCall) (call : HookReadCall) :
    observeRun E localeCompare provider native (calls ++ [call]) =
      observeStep E localeCompare provider native (observeRun E localeCompare provider native calls) call := by
  rw [observeRun, List.foldl_append]
  rfl

/-- The rows that the reader finds after a run are well formed ones. -/
theorem observeRun_held (hiso : IsoDates E) (calls : List HookReadCall) :
    ∃ omitted rs, Held E provider native (observeRun E localeCompare provider native calls) omitted rs := by
  induction calls using List.reverseRecOn with
  | nil => exact ⟨0, [], Held.initial⟩
  | append_singleton calls call ih =>
    obtain ⟨omitted, rs, h⟩ := ih
    rw [observeRun_append]
    rcases @observe_step E localeCompare provider native _ _ _ hiso h call with
      heq | ⟨_, omitted', rs', _, _, _, _, _, _, _, h'⟩
    · rw [heq]
      exact ⟨omitted, rs, h⟩
    · exact ⟨omitted', rs', h'⟩

section
variable {s : ObservedState} {omitted omitted' : ℕ} {rs rs' sorted : List ReadObservation} {r : ReadObservation}
  {call : HookReadCall} {toolUseId : JsString}

theorem invocations (rs : List ReadObservation) :
    (rowsJson provider rs).map (textAt "invocation_sha256") = rs.map (·.invocationSha256) := by
  rw [rowsJson, List.map_map]
  exact List.map_congr_left fun r _ => invocationAt r

/-- What it is for a call to bring an invocation back, said of the rows. -/
theorem Held.returning_iff (hiso : IsoDates E) (h : Held E provider native s omitted rs)
    (htool : call.toolUseId = some toolUseId) :
    Returning E provider native s call ↔
      invocationOf E toolUseId call.turn ∈ s.recorded ∧
        invocationOf E toolUseId call.turn ∉ rs.map (·.invocationSha256) ∧ call.admitted provider = true ∧
        (observeRows E localeCompare provider call (invocationOf E toolUseId call.turn) omitted
          (rowsJson provider rs)).isSome := by
  have hrows : (∀ row ∈ rowsJson provider rs, textAt "invocation_sha256" row ≠ invocationOf E toolUseId call.turn) ↔
      invocationOf E toolUseId call.turn ∉ rs.map (·.invocationSha256) := by
    rw [← @invocations provider rs, List.mem_map, not_exists]
    exact forall_congr' fun row => not_and.symm
  have hlen : (rowsJson provider rs).length = rs.length := List.length_map _
  rw [Returning, h.journalOn hiso]
  simp only [htool, Option.some.injEq, exists_eq_left', hrows, hlen]
  constructor
  · rintro ⟨hcall, hmem, hnew, hle⟩
    rw [HookReadCall.recordable, Bool.and_assoc, Bool.and_eq_true] at hcall
    refine ⟨hmem, hnew, hcall.1, ?_⟩
    rw [observeRows_new fun x hx hxi => hnew (List.mem_map.2 ⟨x, hx, hxi⟩), hcall.2, decide_eq_true hle]
    rfl
  · rintro ⟨hmem, hnew, hadmitted, hsome⟩
    rw [observeRows_new fun x hx hxi => hnew (List.mem_map.2 ⟨x, hx, hxi⟩), Bool.and_eq_true,
      decide_eq_true_eq] at hsome
    rw [HookReadCall.recordable, Bool.and_assoc, hadmitted, hsome.1]
    exact ⟨rfl, hmem, hnew, hsome.2⟩

/-- A call that does not bring an invocation back keeps the account. -/
theorem Replaced.counted (h : Held E provider native s omitted rs)
    (hr : Replaced (invocationOf E toolUseId call.turn) omitted rs omitted' rs' r sorted)
    (hfresh : invocationOf E toolUseId call.turn ∈ rs.map (·.invocationSha256) ∨
      invocationOf E toolUseId call.turn ∉ s.recorded)
    (hcount : omitted + rs.length = s.recorded.length) :
    omitted' + rs'.length = (Loop.add s.recorded (invocationOf E toolUseId call.turn)).length := by
  have hlen := hr.length h.ok.distinct
  rcases hfresh with hshown | hnew
  · have hmem : invocationOf E toolUseId call.turn ∈ s.recorded := by
      obtain ⟨x, hx, hxi⟩ := List.mem_map.1 hshown
      exact hxi ▸ h.within x hx
    rw [if_pos hshown] at hlen
    rw [Loop.add, if_pos hmem]
    omega
  · have hmem : invocationOf E toolUseId call.turn ∉ rs.map (·.invocationSha256) := by
      intro hshown
      obtain ⟨x, hx, hxi⟩ := List.mem_map.1 hshown
      exact hnew (hxi ▸ h.within x hx)
    rw [if_neg hmem] at hlen
    rw [Loop.add, if_neg hnew, List.length_append, List.length_singleton]
    omega

end

/-- **The account** of a run into which no invocation comes back. -/
theorem observeRun_counted (hiso : IsoDates E) {calls : List HookReadCall}
    (hno : ∀ before call after, calls = before ++ call :: after →
      ¬ Returning E provider native (observeRun E localeCompare provider native before) call) :
    ∃ omitted rs, Held E provider native (observeRun E localeCompare provider native calls) omitted rs ∧
      omitted + rs.length = (observeRun E localeCompare provider native calls).recorded.length := by
  induction calls using List.reverseRecOn with
  | nil => exact ⟨0, [], Held.initial, rfl⟩
  | append_singleton calls call ih =>
    obtain ⟨omitted, rs, h, hcount⟩ := ih fun before c after hcalls =>
      hno before c (after ++ [call]) (by rw [hcalls, List.append_assoc, List.cons_append])
    have hback := hno calls call [] rfl
    rw [observeRun_append]
    rcases @observe_step E localeCompare provider native _ _ _ hiso h call with
      heq | ⟨toolUseId, omitted', rs', _, _, htool, hadmitted, hsome, hrecorded, hreplaced, h'⟩
    · rw [heq]
      exact ⟨omitted, rs, h, hcount⟩
    · refine ⟨omitted', rs', h', ?_⟩
      rw [hrecorded]
      refine hreplaced.counted h ?_ hcount
      -- a recorded invocation without a row would come back here
      by_contra hnot
      rw [not_or, not_not] at hnot
      exact hback ((h.returning_iff hiso htool).2 ⟨hnot.2, hnot.1, hadmitted, hsome⟩)

/-- **No committed row is rewritten** as long as no invocation comes back. -/
theorem observeRun_kept (hiso : IsoDates E) {before middle : List HookReadCall} {invocation : JsString}
    (hno : ∀ start call rest, middle = start ++ call :: rest →
      ¬ Returning E provider native (observeRun E localeCompare provider native (before ++ start)) call)
    (hbefore : ∃ omitted rs, Held E provider native (observeRun E localeCompare provider native before) omitted rs ∧
      invocation ∈ (observeRun E localeCompare provider native before).recorded ∧
      ∀ x ∈ rs, x.invocationSha256 = invocation → x.state = .committed) :
    ∃ omitted rs, Held E provider native (observeRun E localeCompare provider native (before ++ middle)) omitted rs ∧
      invocation ∈ (observeRun E localeCompare provider native (before ++ middle)).recorded ∧
      ∀ x ∈ rs, x.invocationSha256 = invocation → x.state = .committed := by
  induction middle using List.reverseRecOn with
  | nil => rwa [List.append_nil]
  | append_singleton middle call ih =>
    obtain ⟨omitted, rs, h, hmem, hcommitted⟩ := ih fun start c rest hmiddle =>
      hno start c (rest ++ [call]) (by rw [hmiddle, List.append_assoc, List.cons_append])
    have hback := hno middle call [] rfl
    rw [← List.append_assoc, observeRun_append]
    rcases @observe_step E localeCompare provider native _ _ _ hiso h call with
      heq | ⟨toolUseId, omitted', rs', r, _, htool, hadmitted, hsome, hrecorded, hreplaced, h'⟩
    · rw [heq]
      exact ⟨omitted, rs, h, hmem, hcommitted⟩
    · refine ⟨omitted', rs', h', by rw [hrecorded]; exact Loop.mem_add.2 (Or.inl hmem), fun x hx hxi => ?_⟩
      rcases hreplaced.mem hx with rfl | ⟨hold, -⟩
      swap
      · exact hcommitted x hold hxi
      -- the call is about the invocation itself: its row is a committed one, or it comes back
      have hsame : invocation = invocationOf E toolUseId call.turn := hxi.symm.trans hreplaced.named
      subst hsame
      by_cases hshown : invocationOf E toolUseId call.turn ∈ rs.map (·.invocationSha256)
      · obtain ⟨y, hy, hyi⟩ := List.mem_map.1 hshown
        exact absurd (hcommitted y hy hyi) (hreplaced.uncommitted y hy hyi)
      · exact absurd ((h.returning_iff hiso htool).2 ⟨hmem, hshown, hadmitted, hsome⟩) hback

/-- **The journal is faithful** in a run exactly if no call brings an invocation back of
which no row is left. -/
theorem journal_faithful (hiso : IsoDates E) (calls : List HookReadCall) :
    FaithfulRun E localeCompare provider native calls ↔
      ∀ before call after, calls = before ++ call :: after →
        ¬ Returning E provider native (observeRun E localeCompare provider native before) call := by
  constructor
  · intro hfaithful before call after hcalls hback
    obtain ⟨toolUseId, htool, -⟩ := hback.2
    obtain ⟨omitted, rs, h⟩ := @observeRun_held E localeCompare provider native hiso before
    obtain ⟨hmem, hnew, hadmitted, hsome⟩ := (@Held.returning_iff E localeCompare _ _ _ _ _ _ _ hiso h htool).1 hback
    have hcount := hfaithful.counted before _ hcalls
    have hcount' := hfaithful.counted (before ++ [call]) after (by rw [hcalls, List.append_assoc]; rfl)
    obtain ⟨omitted', rs', r, sorted, hrecorded, hreplaced, h'⟩ :=
      @observe_written E localeCompare _ _ _ _ _ hiso h call toolUseId htool hadmitted hsome
    have hlen := hreplaced.length h.ok.distinct
    rw [if_neg hnew] at hlen
    rw [h.journalOn hiso, rowsJson, List.length_map] at hcount
    rw [observeRun_append, h'.journalOn hiso, rowsJson, List.length_map, hrecorded, Loop.add, if_pos hmem] at hcount'
    -- the counter or the rows have grown, and what was recorded has not
    dsimp only at hcount hcount'
    omega
  · intro hno
    refine ⟨fun before after hcalls file hfile => ?_, fun before after hcalls => ?_,
      fun before middle after hcalls row hrow hstate row' hrow' hsame => ?_⟩
    · obtain ⟨omitted, rs, h⟩ := @observeRun_held E localeCompare provider native hiso before
      rcases h.file with hsome | ⟨hnone, -⟩
      swap
      · rw [hnone] at hfile
        cases hfile
      rw [hsome] at hfile
      obtain rfl := Option.some.inj hfile
      have hlen : (rowsJson provider rs).length = rs.length := List.length_map _
      exact ⟨omitted, _, readReadObservations_written hiso sessionOf_ok h.ok, by rw [hlen]; exact h.ok.few,
        by rw [invocations]; exact h.ok.distinct⟩
    · obtain ⟨omitted, rs, h, hcount⟩ := @observeRun_counted E localeCompare provider native hiso before
        fun start call rest hstart => hno start call (rest ++ after)
          (by rw [hcalls, hstart, List.append_assoc, List.cons_append])
      have hlen : (rowsJson provider rs).length = rs.length := List.length_map _
      rw [h.journalOn hiso, hlen]
      exact hcount
    · obtain ⟨omitted, rs, h⟩ := @observeRun_held E localeCompare provider native hiso before
      rw [h.journalOn hiso] at hrow
      obtain ⟨x, hx, rfl⟩ := List.mem_map.1 hrow
      rw [stateAt, decide_eq_true_eq] at hstate
      obtain ⟨omitted', rs', h', -, hcommitted⟩ := @observeRun_kept E localeCompare provider native hiso before middle
        x.invocationSha256
        (fun start call rest hstart => hno (before ++ start) call (rest ++ after)
          (by rw [hcalls, hstart]; simp only [List.append_assoc, List.cons_append]))
        ⟨omitted, rs, h, h.within x hx, fun y hy hyi => by
          rw [List.inj_on_of_nodup_map h.ok.distinct hy hx hyi]
          exact hstate⟩
      rw [h'.journalOn hiso] at hrow'
      obtain ⟨y, hy, rfl⟩ := List.mem_map.1 hrow'
      rw [invocationAt, invocationAt] at hsame
      rw [stateAt, decide_eq_true_eq]
      exact hcommitted y hy hsame

/-! ## The last rows -/

/-- The row of a call about a new invocation. -/
def firstRow (E : Host) (provider : ParticipatingProvider) (call : HookReadCall) : ReadObservation :=
  newRow E provider call (invocationOf E (call.toolUseId.getD []) call.turn) ((E.isoString call.now).getD []) none

/-- Rows in the order of the journal. -/
def InOrder (localeCompare : JsString → JsString → Ordering) (provider : ParticipatingProvider)
    (rs : List ReadObservation) : Prop :=
  rs.Pairwise fun a b => compareRows localeCompare (a.toJson provider) (b.toJson provider) ≠ .gt

theorem sortedRows_later {rs : List ReadObservation} {r : ReadObservation}
    (hfresh : ∀ x ∈ rs, x.invocationSha256 ≠ r.invocationSha256) (horder : InOrder localeCompare provider (rs ++ [r])) :
    sortedRows localeCompare (rowsJson provider rs) (r.toJson provider) = rowsJson provider (rs ++ [r]) := by
  have hall : (rowsJson provider rs).filter
      (fun v => textAt "invocation_sha256" v != textAt "invocation_sha256" (r.toJson provider)) =
        rowsJson provider rs := by
    rw [List.filter_eq_self]
    intro v hv
    obtain ⟨x, hx, rfl⟩ := List.mem_map.1 hv
    rw [invocationAt, invocationAt, bne_iff_ne]
    exact hfresh x hx
  have happend : rowsJson provider rs ++ [r.toJson provider] = rowsJson provider (rs ++ [r]) := by
    rw [rowsJson, rowsJson, List.map_append, List.map_singleton]
  rw [sortedRows, hall, happend]
  refine List.mergeSort_of_pairwise (List.pairwise_map.2 (horder.imp fun h => ?_))
  rw [bne_iff_ne]
  exact h

/-- A call about a new invocation, later than the rows, puts its row at their end. -/
theorem Held.later (hiso : IsoDates E) {s : ObservedState} {omitted : ℕ} {rs : List ReadObservation}
    (h : Held E provider native s omitted rs) {call : HookReadCall} (htool : call.toolUseId.isSome)
    (hcall : call.recordable E provider = true)
    (hfresh : ∀ x ∈ rs, x.invocationSha256 ≠ (firstRow E provider call).invocationSha256)
    (horder : InOrder localeCompare provider (rs ++ [firstRow E provider call]))
    (hcount : omitted + (rs.length + 1 - maxReadObservations) ≤ maxSafeInteger) :
    Held E provider native (observeStep E localeCompare provider native s call)
      (omitted + (rs.length + 1 - maxReadObservations))
      ((rs ++ [firstRow E provider call]).drop (rs.length + 1 - maxReadObservations)) := by
  obtain ⟨toolUseId, htool⟩ := Option.isSome_iff_exists.1 htool
  rw [HookReadCall.recordable, Bool.and_eq_true, Bool.and_eq_true] at hcall
  obtain ⟨⟨hadmitted, hnow⟩, hproducer⟩ := hcall
  obtain ⟨now, hnow⟩ := Option.isSome_iff_exists.1 hnow
  have hrow : firstRow E provider call =
      newRow E provider call (invocationOf E toolUseId call.turn) now none := by
    rw [firstRow, htool, hnow]
    rfl
  have hinvocation : (firstRow E provider call).invocationSha256 = invocationOf E toolUseId call.turn := by
    rw [hrow]
    rfl
  have hok : RowOk E provider (firstRow E provider call) := by
    rw [hrow]
    refine @newRow_ok E provider call _ now none hadmitted (E.hex _) hnow (fun r hr => nomatch hr)
      (fun r hr => nomatch hr) fun hp hc => ?_
    simpa [hp, hc, HookReadCall.producer] using hproducer
  have hreplaced : Replaced (invocationOf E toolUseId call.turn) omitted rs
      (omitted + (rs.length + 1 - maxReadObservations))
      ((rs ++ [firstRow E provider call]).drop (rs.length + 1 - maxReadObservations)) (firstRow E provider call)
      (rs ++ [firstRow E provider call]) := by
    have hall : rs.filter (fun x => x.invocationSha256 != invocationOf E toolUseId call.turn) = rs := by
      rw [List.filter_eq_self]
      exact fun x hx => by rw [bne_iff_ne, ← hinvocation]; exact hfresh x hx
    refine ⟨hinvocation, by rw [hall], ?_, ?_, fun x hx hxi => absurd (hxi.trans hinvocation.symm) (hfresh x hx)⟩
    · rw [List.length_append, List.length_singleton]
    · rw [List.length_append, List.length_singleton]
  have hstep : observeStep E localeCompare provider native s call =
      { file := some (journalFile provider (sessionOf E provider native)
          (omitted + (rs.length + 1 - maxReadObservations))
          (rowsJson provider ((rs ++ [firstRow E provider call]).drop (rs.length + 1 - maxReadObservations)))),
        recorded := Loop.add s.recorded (invocationOf E toolUseId call.turn) } := by
    have hcut : rowsJson provider ((rs ++ [firstRow E provider call]).drop (rs.length + 1 - maxReadObservations)) =
        (rowsJson provider (rs ++ [firstRow E provider call])).drop (rs.length + 1 - maxReadObservations) := by
      rw [rowsJson, rowsJson, List.map_drop]
    rw [observeStep, h.observe hiso, htool, hcut, ← sortedRows_later hfresh horder]
    simp only [if_pos hadmitted, observeRows_fresh hnow (fun x hx => hinvocation ▸ hfresh x hx), hproducer,
      decide_eq_true hcount, Bool.and_self, if_true, Option.map_some, hrow]
  rw [hstep]
  refine ⟨hreplaced.ok hok h.ok hcount, Or.inl rfl, fun x hx => Loop.mem_add.2 ?_⟩
  rcases hreplaced.mem hx with rfl | ⟨hmem, -⟩
  · exact Or.inr hinvocation
  · exact Or.inl (h.within x hmem)

/-- **The last rows**: of calls about new invocations, each later than the ones before, the
journal shows the last ones. -/
theorem observeRun_later (hiso : IsoDates E) {calls : List HookReadCall}
    (hcalls : ∀ call ∈ calls, call.toolUseId.isSome ∧ call.recordable E provider = true)
    (hdistinct : (calls.map fun call => (firstRow E provider call).invocationSha256).Nodup)
    (horder : InOrder localeCompare provider (calls.map (firstRow E provider)))
    (hcount : calls.length ≤ maxSafeInteger) :
    Held E provider native (observeRun E localeCompare provider native calls) (calls.length - maxReadObservations)
      ((calls.map (firstRow E provider)).drop (calls.length - maxReadObservations)) := by
  induction calls using List.reverseRecOn with
  | nil => exact Held.initial
  | append_singleton calls call ih =>
    rw [List.map_append] at hdistinct horder
    rw [List.length_append, List.length_singleton] at hcount
    have hheld := ih (fun c hc => hcalls c (by simp [hc])) (List.nodup_append.1 hdistinct).1
      (List.pairwise_append.1 horder).1 (by omega)
    obtain ⟨htool, hcall⟩ := hcalls call (by simp)
    have hlen : ((calls.map (firstRow E provider)).drop (calls.length - maxReadObservations)).length =
        calls.length - (calls.length - maxReadObservations) := by
      rw [List.length_drop, List.length_map]
    have hdrop : (calls.map (firstRow E provider)).drop (calls.length - maxReadObservations) ++
        [firstRow E provider call] =
          (calls.map (firstRow E provider) ++ [firstRow E provider call]).drop (calls.length - maxReadObservations) := by
      rw [List.drop_append_of_le_length (by rw [List.length_map]; omega)]
    have hstep := @Held.later E localeCompare provider native hiso _ _ _ hheld call htool hcall
      (fun x hx hxi => by
        obtain ⟨c, hc, rfl⟩ := List.mem_map.1 (List.mem_of_mem_drop hx)
        exact (List.nodup_append.1 hdistinct).2.2 _ (List.mem_map_of_mem hc) _ (by simp) hxi)
      (by
        rw [hdrop]
        exact List.Pairwise.sublist (List.drop_sublist _ _) horder)
      (by omega)
    rw [hdrop, List.drop_drop, hlen] at hstep
    rw [observeRun_append, List.map_append, List.length_append, List.length_singleton]
    have hcut : calls.length - maxReadObservations +
        (calls.length - (calls.length - maxReadObservations) + 1 - maxReadObservations) =
          calls.length + 1 - maxReadObservations := by
      have hmax : maxReadObservations = 16 := rfl
      omega
    rw [hcut] at hstep
    exact hstep

/-- **A read that comes back**: once its row is gone, a delivered read is shown as what the
next hook says of it. -/
theorem unfaithful_of_return (hiso : IsoDates E) {first last : HookReadCall} {calls : List HookReadCall}
    (hcommitted : first.state = .committed) (hlast : last.state ≠ .committed)
    (hname : (firstRow E provider last).invocationSha256 = (firstRow E provider first).invocationSha256)
    (hcalls : ∀ call ∈ first :: calls, call.toolUseId.isSome ∧ call.recordable E provider = true)
    (hreturn : last.toolUseId.isSome ∧ last.recordable E provider = true)
    (hdistinct : ((first :: calls).map fun call => (firstRow E provider call).invocationSha256).Nodup)
    (horder : InOrder localeCompare provider ((first :: calls).map (firstRow E provider) ++ [firstRow E provider last]))
    (hlen : maxReadObservations ≤ calls.length) (hcount : calls.length + 2 ≤ maxSafeInteger) :
    ¬ FaithfulRun E localeCompare provider native (first :: calls ++ [last]) := by
  intro hfaithful
  have hmax : maxReadObservations = 16 := rfl
  have hstart : Held E provider native (observeRun E localeCompare provider native [first]) 0
      [firstRow E provider first] :=
    @observeRun_later E localeCompare provider native hiso [first] (by simpa using hcalls first (by simp)) (by simp)
      (List.pairwise_singleton _ _) (by simp only [List.length_singleton]; omega)
  have hall := @observeRun_later E localeCompare provider native hiso (first :: calls) hcalls hdistinct
    (List.pairwise_append.1 horder).1 (by rw [List.length_cons]; omega)
  -- the row of the first read is among those left out
  obtain ⟨k, hk⟩ : ∃ k, (first :: calls).length - maxReadObservations = k + 1 :=
    ⟨calls.length - maxReadObservations, by rw [List.length_cons]; omega⟩
  rw [hk, List.map_cons, List.drop_succ_cons] at hall
  have hfew : ((calls.map (firstRow E provider)).drop k).length = 16 := by
    rw [List.length_cons] at hk
    rw [List.length_drop, List.length_map]
    omega
  have hend := @Held.later E localeCompare provider native hiso _ _ _ hall last hreturn.1 hreturn.2
    (fun x hx hxi => by
      obtain ⟨c, hc, rfl⟩ := List.mem_map.1 (List.mem_of_mem_drop hx)
      rw [List.map_cons, List.nodup_cons] at hdistinct
      exact hdistinct.1 (List.mem_map.2 ⟨c, hc, hxi.trans hname⟩))
    (by
      refine List.Pairwise.sublist (List.Sublist.append_right ?_ _) horder
      exact (List.drop_sublist _ _).trans (List.sublist_cons_self _ _))
    (by rw [hfew, hmax]; rw [List.length_cons] at hk; omega)
  have hmem : firstRow E provider last ∈
      ((calls.map (firstRow E provider)).drop k ++ [firstRow E provider last]).drop
        (((calls.map (firstRow E provider)).drop k).length + 1 - maxReadObservations) := by
    rw [List.drop_append_of_le_length (by omega)]
    simp
  rw [← observeRun_append] at hend
  have hkept := hfaithful.kept [first] (calls ++ [last]) [] (by simp)
  rw [hstart.journalOn hiso] at hkept
  have happend : [first] ++ (calls ++ [last]) = first :: calls ++ [last] := rfl
  rw [happend, hend.journalOn hiso] at hkept
  have hfirst := hkept _ (List.mem_map_of_mem (List.mem_singleton_self _)) (by
    rw [stateAt, decide_eq_true_eq]
    exact hcommitted)
  have hafter := hfirst _ (List.mem_map_of_mem hmem) (by rw [invocationAt, invocationAt, hname])
  rw [stateAt, decide_eq_true_eq] at hafter
  exact hlast hafter

end

/-! ## An invocation that comes back -/

def observedAt : JsString := js "2026-01-01T00:00:00.000Z"
def returnedAt : JsString := js "2026-01-01T00:00:01.000Z"

def claudeTurn : Json := .obj [(js "kind", .str (js "claude")), (js "phase", .str (js "current"))]

/-- The reads of a session, in the order of their names' digests. -/
def observedReads : List (UInt16 × ℕ) :=
  [(99, 0x0ba567270e46a0a6b36b9d638ab85735cf5ae2e3108fc934a0afed79036f5bb5),
    (105, 0x2424cd92f41640991a9be1c9b7dbdfb678f7dd42bf939be62c81ebe2729db132),
    (112, 0x27683ae6031f0a6f8a83c5de20b4957fa66bf8c22c6012e6217930f168d68ea5),
    (111, 0x2ba9aac6aa57db187daed6d98ad157fc9de200125c4a518e2fc4b37d6a950bef),
    (108, 0x56a9a40169e0488e6ac48147687a83be2e58dc7723d2a3a6499b2c74cb714359),
    (100, 0x70661492bc02bb6775ccbed6500c0eb8384abfe0d6ad7e916f97bd20ea863398),
    (107, 0x764a41b0c4ad18d256e544634c80f1c4c8241af24cbf8f318f21056de02c6c93),
    (109, 0x82eba9b62cae116bec90b6f8558dabc3c155423cbd8c87f23e7cdb2435d61dae),
    (113, 0x8c71b30276a0ee4400e320d0b3b38104f94ad1acd73069f31e3cdce35e2c60e2),
    (98, 0x90e7b8b9317e2a634f859fdf07deb79bf1eb473534c15a24b29983d03b994575),
    (106, 0x956f9d5055762dae0bc4e0b8dbc3dcf49a802d63cd896fdb55a0ecd6586c185a),
    (103, 0xb250b04e80a0257d59df9761a940abe558b0ab0b434c5036d7216cae34b93e85),
    (97, 0xbf36037a2b7d8a9bc6a3828689536ef39a167b9da6669a6f96374a5a8a52a02f),
    (104, 0xda69f1471594fb680e70740d360572345953ad22221d1f7469adaa6726743827),
    (101, 0xe94bf862ebcbe30a4413326bfd1db3446784c89a27ed6aa4eab00787754c537d),
    (110, 0xf4cee96fd78f155dcd47bbfe563b92ceb54e1730a1c7cd8faa8aff5badc1a105),
    (102, 0xf91d2c98244c9e4501068e6c5198f06d40bdbaf25f7542ef7a0fe4c625f3ea8b)]

def observedHost : Host :=
  Host.ofTables (observedReads.map fun e => (utf8 (Json.arr [.str [e.1], claudeTurn]).render, e.2))
    [(1767225600000, observedAt), (1767225601000, returnedAt)] (by decide)

/-- A read that was delivered. -/
def deliveredRead (u : UInt16) : HookReadCall where
  toolUseId := some [u]
  turn := claudeTurn
  state := .committed
  reason := .modelDeliveryVerified
  now := 1767225600000
  passed := rfl

/-- A later hook for the first of the reads, which finds nothing pending. -/
def replayedRead : HookReadCall where
  toolUseId := some [99]
  turn := claudeTurn
  state := .refused
  reason := .commitNotVerified
  now := 1767225601000
  passed := rfl

def deliveredReads : List HookReadCall := observedReads.map fun e => deliveredRead e.1

theorem observedHost_iso : IsoDates observedHost := by
  intro t s h
  obtain ⟨d, hd, rfl⟩ := Option.map_eq_some_iff.1 h
  have hmem := List.mem_of_find?_eq_some hd
  simp only [List.mem_cons, List.not_mem_nil, or_false] at hmem
  rcases hmem with rfl | rfl
  · exact ⟨List.all_eq_true.1 (by decide), by decide⟩
  · exact ⟨List.all_eq_true.1 (by decide), by decide⟩

/-- One read, of which nothing comes back. -/
theorem journal_faithful_once :
    FaithfulRun observedHost compareUtf16CodeUnits .claude (js "native") [deliveredRead 99] := by
  refine (journal_faithful observedHost_iso [deliveredRead 99]).2 fun before call after hcalls hback => ?_
  cases before with
  | nil =>
    obtain ⟨-, _, -, hmem, -⟩ := hback
    cases hmem
  | cons c before =>
    have hlen := congrArg List.length hcalls
    rw [List.cons_append, List.length_cons, List.length_cons, List.length_append, List.length_cons] at hlen
    simp only [List.length_nil] at hlen
    omega

set_option maxRecDepth 4000 in
theorem deliveredReads_named :
    deliveredReads.map (fun call => (firstRow observedHost .claude call).invocationSha256) =
      observedReads.map (fun e => digestText e.2) := by decide

theorem compareRows_toJson (a b : ReadObservation) :
    compareRows localeCompare (a.toJson provider) (b.toJson provider) =
      (localeCompare a.updatedAt b.updatedAt).then (localeCompare a.invocationSha256 b.invocationSha256) := by
  rw [compareRows, updatedAt_toJson, updatedAt_toJson, invocationAt, invocationAt]

theorem deliveredReads_distinct :
    (deliveredReads.map fun call => (firstRow observedHost .claude call).invocationSha256).Nodup := by
  rw [deliveredReads_named]
  decide

theorem deliveredRead_updated {call : HookReadCall} (h : call ∈ deliveredReads) :
    (firstRow observedHost .claude call).updatedAt = observedAt := by
  obtain ⟨e, -, rfl⟩ := List.mem_map.1 h
  have hdate : (observedHost.isoString 1767225600000).getD [] = observedAt := by decide
  exact hdate

theorem deliveredReads_inOrder :
    InOrder compareUtf16CodeUnits .claude (deliveredReads.map (firstRow observedHost .claude)) := by
  have hdigests : (observedReads.map fun e => digestText e.2).Pairwise
      (fun a b => compareUtf16CodeUnits a b ≠ .gt) := by decide
  rw [← deliveredReads_named, List.pairwise_map] at hdigests
  refine List.pairwise_map.2 (hdigests.imp_of_mem fun ha hb h => ?_)
  have hsame : compareUtf16CodeUnits observedAt observedAt = .eq := compare_eq.2 rfl
  rw [compareRows_toJson, deliveredRead_updated ha, deliveredRead_updated hb, hsame]
  exact h

theorem deliveredReads_recordable : ∀ call ∈ deliveredReads,
    call.toolUseId.isSome ∧ call.recordable observedHost .claude = true := by
  intro call hcall
  obtain ⟨e, -, rfl⟩ := List.mem_map.1 hcall
  have hdate : (observedHost.isoString 1767225600000).isSome = true := by decide
  refine ⟨rfl, ?_⟩
  rw [HookReadCall.recordable, deliveredRead, hdate]
  rfl

theorem firstRow_invocation (call : HookReadCall) : (firstRow E provider call).invocationSha256 =
    invocationOf E (call.toolUseId.getD []) call.turn := rfl

theorem replayedRead_recordable : replayedRead.recordable observedHost .claude = true := by
  have hdate : (observedHost.isoString 1767225601000).isSome = true := by decide
  rw [HookReadCall.recordable, replayedRead, hdate]
  rfl

theorem replayedRead_updated : (firstRow observedHost .claude replayedRead).updatedAt = returnedAt := by
  have hdate : (observedHost.isoString 1767225601000).getD [] = returnedAt := by decide
  exact hdate

theorem replayedRead_inOrder : InOrder compareUtf16CodeUnits .claude
    (deliveredReads.map (firstRow observedHost .claude) ++ [firstRow observedHost .claude replayedRead]) := by
  refine List.pairwise_append.2 ⟨deliveredReads_inOrder, List.pairwise_singleton _ _, fun x hx y hy => ?_⟩
  obtain ⟨call, hcall, rfl⟩ := List.mem_map.1 hx
  have hlate : compareUtf16CodeUnits observedAt returnedAt = .lt := by decide
  rw [List.mem_singleton.1 hy, compareRows_toJson, deliveredRead_updated hcall, replayedRead_updated, hlate]
  simp only [Ordering.then, ne_eq, reduceCtorEq, not_false_eq_true]

/-- The first of seventeen delivered reads is shown as refused after one more hook. -/
theorem returned_read_refused :
    ¬ FaithfulRun observedHost compareUtf16CodeUnits .claude (js "native") (deliveredReads ++ [replayedRead]) := by
  obtain ⟨calls, hcalls⟩ : ∃ calls, deliveredReads = deliveredRead 99 :: calls :=
    ⟨observedReads.tail.map fun e => deliveredRead e.1, rfl⟩
  have hrecordable := deliveredReads_recordable
  have hdistinct := deliveredReads_distinct
  have horder := replayedRead_inOrder
  have hlen : deliveredReads.length = 17 := by decide
  rw [hcalls] at hrecordable hdistinct horder hlen ⊢
  rw [List.length_cons] at hlen
  refine unfaithful_of_return observedHost_iso rfl ?_ ?_ hrecordable ⟨rfl, replayedRead_recordable⟩ hdistinct horder
    ?_ ?_
  · decide
  · rw [firstRow_invocation, firstRow_invocation]
    rfl
  · unfold maxReadObservations
    omega
  · unfold maxSafeInteger
    omega

end Barbaro.Observed
