import Barbaro.Lib.Rotation
import Barbaro.Tui.NewsTicker

/-!
# The news ticker rotates

The ticker of the open Home shows one recipient at a time. It keeps the order of the cycle in
progress while catalogues come and go: what vanished is taken out, what is new is put at the
end, and a fresh order is taken only when the cycle is over.

* `syncHomeNewsTicker`: one catalogue, with the next recipient shown or the same.
* `sync_shows`: the order is one of the recipients with news, and one of them is shown.
* `stretch_shown`: as long as the recipients stay the same, a cycle shows each of them once.
-/

namespace Barbaro.Tui

open Rotation

/-- `homeNewsTickerOrder` and `homeNewsTickerKey` -/
structure NewsTicker where
  order : List JsString := []
  key : Option JsString := none
  deriving DecidableEq

namespace NewsTicker

/-! ## The ticker -/

/-- A cycle that begins with this order. -/
def start (order : List JsString) : NewsTicker := { order, key := order.head? }

/-- The order without the key that vanished: what comes after it first, then what came before. -/
def retained (order available : List JsString) (key : JsString) : List JsString :=
  let missingIndex := order.idxOf key
  extend ((order.drop (missingIndex + 1) ++ order.take missingIndex).filter (· ∈ available)) available

/-- The key after this one, or a fresh cycle that begins after it. -/
def advanced (order available : List JsString) (key : JsString) : NewsTicker :=
  let currentIndex := order.idxOf key
  match order[currentIndex + 1]? with
  | some next => { order, key := some next }
  | none =>
    let previousIndex := available.idxOf key
    let nextIndex := if available.length = 1 then 0 else (previousIndex + 1) % available.length
    start (available.drop nextIndex ++ available.take nextIndex)

/-- `syncHomeNewsTicker`, where the keys of the catalogue are these. -/
def sync (motionAllowed : Bool) (available : List JsString) (advance : Bool) (t : NewsTicker) : NewsTicker :=
  if available = [] then {}
  else if motionAllowed = false then start available
  else
    match t.key with
    | none => start available
    | some key =>
      if key ∉ available then
        if key ∈ t.order ∧ (retained t.order available key).length > 0 then
          start (retained t.order available key)
        else start available
      else
        let nextOrder := extend (t.order.filter (· ∈ available)) available
        if advance = false then { order := nextOrder, key := some key } else advanced nextOrder available key

end NewsTicker

section
variable (dateParse : JsString → Option ℤ)

def syncHomeNewsTicker (motionAllowed : Bool) (catalogue : ReaderCatalogue) (advance : Bool) (t : NewsTicker) :
    NewsTicker :=
  t.sync motionAllowed (hubNewsTickerKeys dateParse catalogue) advance

/-- The key that is shown, and its place in the order; none outside the open Home. -/
def homeNewsTickerSelection (filter : HubFilter) (t : NewsTicker) : Option (JsString × ℕ) :=
  if filter ≠ .open then none
  else
    match t.key with
    | none => none
    | some key => if key ∈ t.order then some (key, t.order.idxOf key) else none

/-- What happens to the ticker: a catalogue is shown, or the store turns out to be absent. -/
inductive TickerEvent
  | sync (catalogue : ReaderCatalogue) (advance : Bool)
  | absent

def tickerStep (t : NewsTicker) : TickerEvent → NewsTicker
  | .sync catalogue advance => syncHomeNewsTicker dateParse true catalogue advance t
  | .absent => {}

/-- A run of the ticker, with motion. -/
def tickerRun (t : NewsTicker) (events : List TickerEvent) : NewsTicker := events.foldl (tickerStep dateParse) t

/-! ## What is shown -/

/-- The order is one of these keys without duplicates, and one of them is shown if there are any. -/
structure Shows (available : List JsString) (t : NewsTicker) : Prop where
  nodup : t.order.Nodup
  perm : t.order.Perm available
  shown : t.key.elim (available = []) (· ∈ available)

variable {dateParse}

theorem start_shows {order available : List JsString} (horder : order.Nodup) (hperm : order.Perm available) :
    Shows available (.start order) := by
  refine ⟨horder, hperm, ?_⟩
  cases order with
  | nil => exact hperm.nil_eq.symm
  | cons k order => exact hperm.subset List.mem_cons_self

theorem retained_perm {order available : List JsString} (horder : order.Nodup) (havailable : available.Nodup)
    (key : JsString) : (NewsTicker.retained order available key).Nodup ∧
      (NewsTicker.retained order available key).Perm available := by
  have hsplit : (order.drop (order.idxOf key + 1) ++ order.take (order.idxOf key)).Nodup := by
    have hsub : (order.take (order.idxOf key) ++ order.drop (order.idxOf key + 1)).Sublist order := by
      conv_rhs => rw [← List.take_append_drop (order.idxOf key) order]
      refine List.Sublist.append_left ?_ _
      rw [← List.tail_drop]
      exact List.tail_sublist _
    exact (List.perm_append_comm.nodup_iff).1 (horder.sublist hsub)
  have hfilter := hsplit.filter (fun k => decide (k ∈ available))
  exact ⟨nodup_extend hfilter available, extend_perm hfilter havailable fun k hk => by
    simpa using (List.mem_filter.1 hk).2⟩

theorem advanced_shows {order available : List JsString} (horder : order.Nodup) (havailable : available.Nodup)
    (hperm : order.Perm available) (key : JsString) : Shows available (NewsTicker.advanced order available key) := by
  rw [NewsTicker.advanced]
  cases hnext : order[order.idxOf key + 1]? with
  | some next => exact ⟨horder, hperm, hperm.subset (List.mem_of_getElem? hnext)⟩
  | none =>
    have hswap : ∀ i, (available.drop i ++ available.take i).Perm available := by
      intro i
      have h : (available.drop i ++ available.take i).Perm (available.take i ++ available.drop i) :=
        List.perm_append_comm
      rwa [List.take_append_drop] at h
    exact start_shows ((hswap _).nodup_iff.2 havailable) (hswap _)

/-- **What a sync shows**: an order of the available keys, and one of them. -/
theorem sync_shows {t : NewsTicker} {available : List JsString} (ht : t.order.Nodup) (havailable : available.Nodup)
    (motionAllowed advance : Bool) : Shows available (t.sync motionAllowed available advance) := by
  have hfresh := start_shows havailable (List.Perm.refl available)
  rw [NewsTicker.sync]
  by_cases hnone : available = []
  · rw [if_pos hnone, hnone]
    exact ⟨List.nodup_nil, .nil, rfl⟩
  rw [if_neg hnone]
  split
  · exact hfresh
  cases hkey : t.key with
  | none => exact hfresh
  | some key =>
    dsimp only
    split
    · split
      · obtain ⟨hnodup, hperm⟩ := retained_perm ht havailable key
        exact start_shows hnodup hperm
      · exact hfresh
    · next hmem =>
      have hfilter := ht.filter (fun k => decide (k ∈ available))
      have horder := nodup_extend hfilter available
      have hperm := extend_perm hfilter havailable fun k hk => by simpa using (List.mem_filter.1 hk).2
      split
      · exact ⟨horder, hperm, not_not.1 hmem⟩
      · exact advanced_shows horder havailable hperm key

/-- A sync that does not advance leaves what is shown, as long as it is available. -/
theorem sync_keeps {t : NewsTicker} {available : List JsString} {key : JsString} (hkey : t.key = some key)
    (hmem : key ∈ available) : (t.sync true available false).key = some key := by
  have hne : available ≠ [] := List.ne_nil_of_mem hmem
  rw [NewsTicker.sync, if_neg hne, if_neg (by decide), hkey]
  dsimp only
  rw [if_neg (not_not.2 hmem), if_pos rfl]

/-! ## A stretch with the same recipients -/

/-- The ticker is in this cycle. -/
def InCycle (t : NewsTicker) (c : Rotation.Cycle JsString) : Prop := t.order = c.members ∧ t.key = some c.now

section
variable {t : NewsTicker} {c : Rotation.Cycle JsString} {available : List JsString}

/-- The recipients are the same, so the order is. -/
theorem sync_same (ht : InCycle t c) (hsame : ∀ k, k ∈ available ↔ k ∈ c.members) (advance : Bool) :
    t.sync true available advance =
      if advance = false then t else NewsTicker.advanced c.members available c.now := by
  obtain ⟨horder, hkey⟩ := ht
  have hmem : c.now ∈ available := (hsame _).2 (by simp [Rotation.Cycle.members])
  have hfilter : c.members.filter (fun k => decide (k ∈ available)) = c.members :=
    List.filter_eq_self.2 fun k hk => by simpa using (hsame k).2 hk
  have hextend : extend c.members available = c.members := extend_of_subset fun k hk => (hsame k).1 hk
  rw [NewsTicker.sync, if_neg (List.ne_nil_of_mem hmem), if_neg (by decide), hkey]
  dsimp only
  rw [if_neg (not_not.2 hmem), horder, hfilter, hextend, ← horder, ← hkey]

theorem advanced_next {c' : Rotation.Cycle JsString} (hnext : c.next = some c') :
    InCycle (NewsTicker.advanced c.members available c.now) c' := by
  have hat : c.members[c.members.idxOf c.now + 1]? = some c'.now := by
    rw [c.idxOf_now, Rotation.Cycle.members, Rotation.Cycle.next_some hnext]
    simp
  rw [NewsTicker.advanced, hat]
  exact ⟨(Rotation.Cycle.next_members hnext).symm, rfl⟩

/-- At its end the next cycle begins, in a fresh order. -/
theorem advanced_end (hnext : c.next = none) :
    NewsTicker.advanced c.members available c.now = .start (fresh available c.now) := by
  have hat : c.members[c.members.idxOf c.now + 1]? = none := by
    rw [c.idxOf_now, Rotation.Cycle.members, Rotation.Cycle.next_none.1 hnext]
    simp
  have hindex : (if available.length = 1 then 0 else (available.idxOf c.now + 1) % available.length) =
      (available.idxOf c.now + 1) % available.length := by
    split
    · next hone => rw [hone, Nat.mod_one]
    · rfl
  rw [NewsTicker.advanced, hat]
  dsimp only
  rw [hindex, fresh]

end

def TickerEvent.advances : TickerEvent → Bool
  | .sync _ advance => advance
  | .absent => false

/-- The event is a catalogue with these recipients. -/
def SameRecipients (dateParse : JsString → Option ℤ) (recipients : List JsString) : TickerEvent → Prop
  | .sync catalogue _ => ∀ k, k ∈ hubNewsTickerKeys dateParse catalogue ↔ k ∈ recipients
  | .absent => False

/-- The keys shown after each advance. -/
def shownKeys (dateParse : JsString → Option ℤ) (t : NewsTicker) : List TickerEvent → List (Option JsString)
  | [] => []
  | e :: events =>
    let t' := tickerStep dateParse t e
    if e.advances then t'.key :: shownKeys dateParse t' events else shownKeys dateParse t' events

def advances (events : List TickerEvent) : ℕ := events.countP TickerEvent.advances

/-- **A stretch of a cycle** shows, advance by advance, what is ahead. -/
theorem stretch_shown {t : NewsTicker} {c : Rotation.Cycle JsString} {events : List TickerEvent} (ht : InCycle t c)
    (hsame : ∀ e ∈ events, SameRecipients dateParse c.members e) (hle : advances events ≤ c.ahead.length) :
    shownKeys dateParse t events = (c.ahead.take (advances events)).map some ∧
      ∃ c', InCycle (tickerRun dateParse t events) c' ∧ c'.members = c.members ∧
        c'.ahead = c.ahead.drop (advances events) := by
  induction events generalizing t c with
  | nil => exact ⟨rfl, c, ht, rfl, rfl⟩
  | cons e events ih =>
    have hhead := hsame e List.mem_cons_self
    have hrest := fun e' he' => hsame e' (List.mem_cons_of_mem _ he')
    cases e with
    | absent => exact hhead.elim
    | sync catalogue advance =>
      have hstep : tickerStep dateParse t (.sync catalogue advance) = _ := sync_same ht hhead advance
      cases advance with
      | false =>
        have hcount : advances (.sync catalogue false :: events) = advances events :=
          List.countP_cons_of_neg (by simp [TickerEvent.advances])
        rw [if_pos rfl] at hstep
        rw [hcount] at hle
        rw [shownKeys, hcount, tickerRun, List.foldl_cons, hstep]
        exact ih ht hrest hle
      | true =>
        have hcount : advances (.sync catalogue true :: events) = advances events + 1 :=
          List.countP_cons_of_pos rfl
        rw [hcount] at hle
        cases hnext : c.next with
        | none =>
          rw [Rotation.Cycle.next_none.1 hnext] at hle
          exact absurd hle (by simp)
        | some c' =>
          have hahead := Rotation.Cycle.next_some hnext
          have hin : InCycle (tickerStep dateParse t (.sync catalogue true)) c' := by
            rw [hstep, if_neg (by decide)]
            exact advanced_next hnext
          have hmembers := Rotation.Cycle.next_members hnext
          rw [hahead, List.length_cons] at hle
          obtain ⟨hshown, c'', hin', hmembers', hahead'⟩ :=
            ih hin (fun e he => hmembers.symm ▸ hrest e he) (by omega)
          refine ⟨?_, c'', hin', hmembers'.trans hmembers, ?_⟩
          · rw [shownKeys, hcount, hahead, List.take_succ_cons, List.map_cons, ← hshown, ← hin.2]
            rfl
          · rw [hcount, hahead, List.drop_succ_cons, hahead']

/-! ## Runs -/

/-- Every catalogue names each recipient once. -/
def DistinctRecipients (events : List TickerEvent) : Prop :=
  ∀ catalogue advance, .sync catalogue advance ∈ events → (newsRecipients catalogue).Nodup

/-- The order has no duplicates in any state of a run. -/
theorem tickerRun_nodup (dateParse : JsString → Option ℤ) {t : NewsTicker} {events : List TickerEvent} (ht : t.order.Nodup)
    (hdistinct : DistinctRecipients events) : (tickerRun dateParse t events).order.Nodup := by
  induction events generalizing t with
  | nil => exact ht
  | cons e events ih =>
    refine ih ?_ fun catalogue advance h => hdistinct catalogue advance (List.mem_cons_of_mem _ h)
    cases e with
    | absent => exact List.nodup_nil
    | sync catalogue advance =>
      have havailable := hubNewsTickerKeys_nodup dateParse
        (hdistinct catalogue advance List.mem_cons_self)
      exact (sync_shows ht havailable true advance).nodup

/-- What a run from a cycle's start shows, up to that many advances. -/
theorem cycle_of_start {t : NewsTicker} (hnodup : t.order.Nodup) (hnone : t.order ≠ [])
    (hstart : t.key = t.order.head?) :
    ∃ c, InCycle t c ∧ t.order = c.now :: c.ahead := by
  obtain ⟨order, key⟩ := t
  cases order with
  | nil => exact absurd rfl hnone
  | cons now ahead => exact ⟨⟨[], now, ahead, hnodup⟩, ⟨rfl, hstart⟩, rfl⟩

/-- **The ticker rotates fairly.** After every sync it shows one of the recipients, in an order of them all;
a sync that does not advance keeps the one it shows. From the start of a cycle on, as long as the recipients
are the same, it shows each of them once, and then begins the next cycle with another one. -/
theorem news_rotates_fairly (dateParse : JsString → Option ℤ) (events : List TickerEvent) (hdistinct : DistinctRecipients events) :
    (∀ before catalogue advance after, events = before ++ .sync catalogue advance :: after →
      Shows (hubNewsTickerKeys dateParse catalogue)
        (tickerRun dateParse {} (before ++ [.sync catalogue advance])) ∧
      (advance = false → ∀ key ∈ hubNewsTickerKeys dateParse catalogue,
        (tickerRun dateParse {} before).key = some key →
        (tickerRun dateParse {} (before ++ [.sync catalogue advance])).key = some key)) ∧
    ∀ before stretch after, events = before ++ stretch ++ after →
      let t := tickerRun dateParse {} before
      t.order ≠ [] → t.key = t.order.head? → (∀ e ∈ stretch, SameRecipients dateParse t.order e) →
      t.order.Nodup ∧
      (advances stretch + 1 = t.order.length → t.key :: shownKeys dateParse t stretch = t.order.map some) ∧
      ∀ cycle catalogue, stretch = cycle ++ [.sync catalogue true] → advances cycle + 1 = t.order.length →
        let last := tickerRun dateParse t cycle
        let next := tickerRun dateParse t stretch
        next.order.Perm t.order ∧ next.key = next.order.head? ∧
          (1 < t.order.length → next.key ≠ last.key) := by
  have hempty : ({} : NewsTicker).order.Nodup := List.nodup_nil
  refine ⟨fun before catalogue advance after hevents => ?_, fun before stretch after hevents => ?_⟩
  · have hbefore : DistinctRecipients before := fun c a h => hdistinct c a (hevents ▸ List.mem_append_left _ h)
    have hnodup := tickerRun_nodup dateParse hempty hbefore
    have havailable := hubNewsTickerKeys_nodup dateParse
      (hdistinct catalogue advance (by rw [hevents]; simp))
    have hlast : tickerRun dateParse {} (before ++ [.sync catalogue advance]) =
        (tickerRun dateParse {} before).sync true (hubNewsTickerKeys dateParse catalogue) advance := by
      rw [tickerRun, List.foldl_append]
      rfl
    rw [hlast]
    refine ⟨sync_shows hnodup havailable true advance, ?_⟩
    rintro rfl key hmem hkey
    exact sync_keeps hkey hmem
  · intro t hnone hstart hsame
    have hbefore : DistinctRecipients before := fun c a h => hdistinct c a (by
      rw [hevents, List.append_assoc]
      exact List.mem_append_left _ h)
    have hnodup : t.order.Nodup := tickerRun_nodup dateParse hempty hbefore
    obtain ⟨c, hin, hcycle⟩ := cycle_of_start hnodup hnone hstart
    have hlength : t.order.length = c.ahead.length + 1 := by rw [hcycle, List.length_cons]
    refine ⟨hnodup, fun hcount => ?_, fun cycle catalogue hstretch hcount => ?_⟩
    · obtain ⟨hshown, -⟩ := stretch_shown hin (fun e he => hin.1 ▸ hsame e he) (by omega)
      rw [hshown, List.take_of_length_le (by omega), hin.2, hcycle, List.map_cons]
    · intro last next
      have hcycleSame : ∀ e ∈ cycle, SameRecipients dateParse c.members e := fun e he =>
        hin.1 ▸ hsame e (hstretch ▸ List.mem_append_left _ he)
      obtain ⟨-, c', hin', hmembers, hahead⟩ := stretch_shown hin hcycleSame (by omega)
      have hend : c'.next = none := by
        rw [Rotation.Cycle.next_none, hahead, List.drop_eq_nil_iff]
        omega
      have hsync : SameRecipients dateParse c'.members (.sync catalogue true) := by
        rw [hmembers, ← hin.1]
        exact hsame _ (by rw [hstretch]; simp)
      have hnext : next = .start (fresh (hubNewsTickerKeys dateParse catalogue) c'.now) := by
        have hstep := sync_same hin' hsync true
        rw [if_neg (by decide), advanced_end hend] at hstep
        rw [← hstep]
        change tickerRun dateParse t stretch = _
        rw [hstretch, tickerRun, List.foldl_append]
        rfl
      have havailable := hubNewsTickerKeys_nodup dateParse
        (hdistinct catalogue true (by rw [hevents, hstretch]; simp))
      have hperm : (hubNewsTickerKeys dateParse catalogue).Perm t.order := by
        refine (List.perm_ext_iff_of_nodup havailable hnodup).2 fun k => ?_
        rw [hin.1, ← hmembers]
        exact hsync k
      rw [hnext]
      refine ⟨(fresh_perm _ _).trans hperm, rfl, fun hlen => ?_⟩
      have hkey : last.key = some c'.now := hin'.2
      rw [hkey]
      refine fresh_head_ne havailable ((hsync _).2 ?_) ?_
      · simp [Rotation.Cycle.members]
      · rw [hperm.length_eq]
        exact hlen

/-- What is selected on the open Home after a sync has a place among the recipients. -/
theorem selection_place {available : List JsString} {t : NewsTicker} (h : Shows available t) {key : JsString}
    {position : ℕ} (hselect : homeNewsTickerSelection .open t = some (key, position)) :
    t.key = some key ∧ key ∈ available ∧ position < available.length := by
  rw [homeNewsTickerSelection, if_neg (by decide)] at hselect
  split at hselect
  · cases hselect
  · next shown hkey =>
    split at hselect
    · next hmem =>
      cases hselect
      refine ⟨hkey, h.perm.subset hmem, ?_⟩
      rw [← h.perm.length_eq]
      exact List.idxOf_lt_length_of_mem hmem
    · cases hselect

/-! ## Two sessions with news -/

def wholeOf {α : Type} (items : List α) : ReaderCollection α :=
  { shown := items.length, total := items.length, hidden := 0, items, readState := .ok,
    coverage := { state := .complete } }

def twoSessions : ReaderCatalogue where
  referenceAt := js "-"
  statusCounts := { «open» := 1, completed := 0, readState := .ok, coverage := { state := .complete } }
  workstreams := wholeOf [{
    workstreamId := js "w", name := js "n", status := .open, updatedAt := js "-", members := wholeOf [],
    rolls := wholeOf [], turnsCoverage := { state := .complete }, lastKnownActivityAt := none,
    unread := some (wholeOf [.ready ⟨js "codex", js "a", js "m"⟩ 1, .ready ⟨js "claude", js "b", js "m"⟩ 2]) }]
  diagnostics := ⟨0, 0, 0⟩

theorem twoSessions_keys : hubNewsTickerKeys (fun _ => none) twoSessions =
    [js "w\x00codex\x00a\x00m", js "w\x00claude\x00b\x00m"] := by
  have hitems : selectableHubWorkstreams (fun _ => none) twoSessions .open = twoSessions.workstreams.items := by
    rw [selectableHubWorkstreams, orderHubWorkstreams]
    exact List.mergeSort_singleton _
  have hcomplete : hubActivityIncomplete twoSessions twoSessions.workstreams.items = false := by decide
  rw [hubNewsTickerKeys, hitems, hcomplete, if_neg (by decide), hubNewsTickerEntries]
  rw [List.mergeSort_of_pairwise (by decide)]
  decide

/-- Both are shown in one cycle, and then the first again. -/
theorem news_rotates_fairly_two : ∃ a b, a ≠ b ∧
    let t := tickerRun (fun _ => none) {} [.sync twoSessions false]
    t.key :: shownKeys (fun _ => none) t [.sync twoSessions true] = [some a, some b] ∧
      Shows [a, b] (tickerRun (fun _ => none) {} [.sync twoSessions false, .sync twoSessions true]) := by
  have hdistinct : DistinctRecipients [.sync twoSessions false, .sync twoSessions true] := by
    have hnodup : (newsRecipients twoSessions).Nodup := by decide
    intro catalogue advance h
    rcases List.mem_cons.1 h with h | h
    · cases h
      exact hnodup
    · cases List.mem_singleton.1 h
      exact hnodup
  obtain ⟨hsyncs, hcycles⟩ := news_rotates_fairly (fun _ => none) _ hdistinct
  have hshows := (hsyncs [.sync twoSessions false] twoSessions true [] rfl).1
  have hstart : tickerRun (fun _ => none) {} [.sync twoSessions false] =
      .start (hubNewsTickerKeys (fun _ => none) twoSessions) := by
    change syncHomeNewsTicker (fun _ => none) true twoSessions false {} = _
    rw [syncHomeNewsTicker, twoSessions_keys]
    rfl
  have hcycle := hcycles [.sync twoSessions false] [.sync twoSessions true] [] rfl
  rw [hstart, twoSessions_keys] at hcycle
  rw [twoSessions_keys] at hshows
  refine ⟨_, _, by decide, ?_, hshows⟩
  rw [hstart, twoSessions_keys]
  refine (hcycle (by decide) rfl ?_).2.1 rfl
  intro e he
  cases List.mem_singleton.1 he
  intro k
  rw [twoSessions_keys]
  rfl

end

end Barbaro.Tui
