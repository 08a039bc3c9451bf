import Barbaro.Runner.ActiveMembership
import Mathlib.Tactic.Ring

/-!
# The graph of a trace

What the maps of the graph hold of the rows they were filled from, and that every loop over
the graph ends within its rounds.

* `ofRows_row`: the map holds the last row of each uuid.
* `BranchGraph.mem_children`: an edge is the parent link of its row, or the row is a duplicate.
* `walkBranch_total`: branch selection ends on every graph.
-/

namespace Barbaro.Claude

open Loop

/-! ## The maps -/

theorem find_map_inPlaceOf {rows : List BranchRow} {new : BranchRow} {u : JsString} :
    (rows.map fun old => if old.uuid = new.uuid then new.inPlaceOf old else old).find? (·.uuid = u) =
      if new.uuid = u then (rows.find? (·.uuid = u)).map new.inPlaceOf else rows.find? (·.uuid = u) := by
  induction rows with
  | nil => simp
  | cons old rows ih =>
    rw [List.map_cons]
    by_cases hold : old.uuid = new.uuid
    · by_cases hu : new.uuid = u
      · rw [if_pos hold, if_pos hu, List.find?_cons_of_pos (by simp [BranchRow.inPlaceOf, hu]),
          List.find?_cons_of_pos (by simp [hold, hu]), Option.map_some]
      · rw [if_pos hold, List.find?_cons_of_neg (by simp [BranchRow.inPlaceOf, hu]), ih, if_neg hu, if_neg hu,
          List.find?_cons_of_neg (by simp [hold, hu])]
    · rw [if_neg hold]
      by_cases hu : old.uuid = u
      · have hne : new.uuid ≠ u := fun h => hold (hu.trans h.symm)
        rw [List.find?_cons_of_pos (by simp [hu]), if_neg hne, List.find?_cons_of_pos (by simp [hu])]
      · rw [List.find?_cons_of_neg (by simp [hu]), ih, List.find?_cons_of_neg (by simp [hu])]

/-- A row is set in place of one of its uuid, or at the end. -/
theorem find_setRow {rows : List BranchRow} {new : BranchRow} {u : JsString} :
    (setRow rows new).find? (·.uuid = u) =
      if new.uuid = u then
        some (match rows.find? (·.uuid = u) with
          | some old => new.inPlaceOf old
          | none => new)
      else rows.find? (·.uuid = u) := by
  rw [setRow]
  split
  · next hany =>
    rw [find_map_inPlaceOf]
    split
    · next hu =>
      cases hfind : rows.find? (·.uuid = u) with
      | none =>
        rw [List.find?_eq_none] at hfind
        obtain ⟨old, hold, hsame⟩ := List.any_eq_true.1 hany
        exact absurd (by simpa [hu] using hsame) (hfind old hold)
      | some old => rfl
    · rfl
  · next hany =>
    rw [List.find?_append]
    split
    · next hu =>
      have hnone : rows.find? (·.uuid = u) = none := by
        rw [List.find?_eq_none]
        intro old hold hsame
        exact hany (List.any_eq_true.2 ⟨old, hold, by simpa [hu] using hsame⟩)
      rw [hnone, Option.none_or, List.find?_cons_of_pos (by simp [hu])]
    · next hu => rw [List.find?_cons_of_neg (by simp [hu]), List.find?_nil, Option.or_none]

/-- The uuid of a row that is no pointer. -/
def uuidOf (row : TraceRow) : Option JsString :=
  match pointerLeaf row.value with
  | some _ => none
  | none => textAt? "uuid" row.value

/-- The rows of a uuid. -/
def rowsOf (rows : List TraceRow) (u : JsString) : List TraceRow := rows.filter fun row => uuidOf row = some u

def lastRow (rows : List TraceRow) (u : JsString) : Option TraceRow := (rowsOf rows u).getLast?

/-- The leaf and the line of the last pointer. -/
def lastPointer (rows : List TraceRow) : Option (JsString × ℕ) :=
  (rows.filterMap fun row => (pointerLeaf row.value).map fun leaf => (leaf, row.lineNumber)).getLast?

theorem rowsOf_append (rows : List TraceRow) (row : TraceRow) (u : JsString) :
    rowsOf (rows ++ [row]) u = rowsOf rows u ++ if uuidOf row = some u then [row] else [] := by
  rw [rowsOf, List.filter_append, List.filter_singleton]
  simp [rowsOf]

/-- What is read of a row into the maps, the message id aside. -/
def BranchRow.core (r : BranchRow) : ℕ × Option JsString × Option JsString × Json :=
  (r.line, r.type, r.parent, r.record)

def TraceRow.core (row : TraceRow) : ℕ × Option JsString × Option JsString × Json :=
  (row.lineNumber, textAt? "type" row.value, effectiveParent row.value, row.value)

/-- What one pass over the rows has filled the maps with. -/
structure BranchGraph.Of (rows : List TraceRow) (G : BranchGraph) : Prop where
  row : ∀ u, (G.row? u).map BranchRow.core = (lastRow rows u).map TraceRow.core
  uuid : ∀ u r, G.row? u = some r → r.uuid = u
  pointer : G.pointer = lastPointer rows
  duplicates : ∀ u, u ∈ G.duplicates ↔ 2 ≤ (rowsOf rows u).length
  edges : ∀ e ∈ G.edges, (G.row? e.2).isSome ∧ (e.2 ∈ G.duplicates ∨ G.parent e.2 = some e.1)

theorem row_some_iff {G : BranchGraph} {rows : List TraceRow}
    (hrow : ∀ u, (G.row? u).map BranchRow.core = (lastRow rows u).map TraceRow.core) (u : JsString) :
    (G.row? u).isSome = true ↔ rowsOf rows u ≠ [] := by
  have h := congrArg Option.isSome (hrow u)
  rw [Option.isSome_map, Option.isSome_map] at h
  rw [h, lastRow]
  simp [List.getLast?_eq_none_iff, Option.isSome_iff_ne_none]

theorem any_uuid {G : BranchGraph} {u : JsString} : G.rows.any (·.uuid = u) = (G.row? u).isSome := by
  rw [Bool.eq_iff_iff, BranchGraph.row?, List.find?_isSome, List.any_eq_true]

theorem note_of {G : BranchGraph} {rows : List TraceRow} (h : G.Of rows) (row : TraceRow) :
    (G.note row).Of (rows ++ [row]) := by
  rw [BranchGraph.note]
  cases hleaf : pointerLeaf row.value with
  | some leaf =>
    have hnone : uuidOf row = none := by rw [uuidOf, hleaf]
    have hrows : ∀ u, rowsOf (rows ++ [row]) u = rowsOf rows u := by
      intro u
      rw [rowsOf_append, hnone, if_neg (by simp), List.append_nil]
    refine ⟨?_, h.uuid, ?_, ?_, h.edges⟩
    · intro u
      rw [lastRow, hrows]
      exact h.row u
    · simp [lastPointer, hleaf]
    · intro u
      rw [hrows]
      exact h.duplicates u
  | none =>
    have huuid : uuidOf row = textAt? "uuid" row.value := by rw [uuidOf, hleaf]
    have hpointer : lastPointer (rows ++ [row]) = lastPointer rows := by
      simp [lastPointer, hleaf]
    dsimp only
    cases hid : textAt? "uuid" row.value with
    | none =>
      have hrows : ∀ u, rowsOf (rows ++ [row]) u = rowsOf rows u := by
        intro u
        rw [rowsOf_append, huuid, hid, if_neg (by simp), List.append_nil]
      refine ⟨?_, h.uuid, h.pointer.trans hpointer.symm, ?_, h.edges⟩
      · intro u
        rw [lastRow, hrows]
        exact h.row u
      · intro u
        rw [hrows]
        exact h.duplicates u
    | some id =>
      have hrows : ∀ u, rowsOf (rows ++ [row]) u = rowsOf rows u ++ if id = u then [row] else [] := by
        intro u
        rw [rowsOf_append, huuid, hid]
        simp
      have hfind : ∀ u, (setRow G.rows (branchRow id row)).find? (·.uuid = u) =
          if id = u then
            some (match G.row? u with
              | some old => (branchRow id row).inPlaceOf old
              | none => branchRow id row)
          else G.row? u := fun u => find_setRow
      have hcore : ∀ u, ((setRow G.rows (branchRow id row)).find? (·.uuid = u)).map BranchRow.core =
          if id = u then some row.core else (G.row? u).map BranchRow.core := by
        intro u
        rw [hfind]
        split
        · cases G.row? u with
          | none => rfl
          | some old => rfl
        · rfl
      have hparent : ∀ u, ((setRow G.rows (branchRow id row)).find? (·.uuid = u)).bind BranchRow.parent =
          if id = u then effectiveParent row.value else G.parent u := by
        intro u
        rw [hfind]
        split
        · cases G.row? u with
          | none => rfl
          | some old => rfl
        · rfl
      have hdup : ∀ u, u ∈ (if G.rows.any (·.uuid = id) then add G.duplicates id else G.duplicates) ↔
          u ∈ G.duplicates ∨ u = id ∧ (G.row? u).isSome = true := by
        intro u
        rw [any_uuid]
        split
        · next hsome =>
          rw [mem_add]
          constructor
          · rintro (hu | rfl)
            · exact Or.inl hu
            · exact Or.inr ⟨rfl, hsome⟩
          · rintro (hu | ⟨rfl, -⟩)
            · exact Or.inl hu
            · exact Or.inr rfl
        · next hnone =>
          constructor
          · exact Or.inl
          · rintro (hu | ⟨rfl, hsome⟩)
            · exact hu
            · exact absurd hsome hnone
      refine ⟨?_, ?_, h.pointer.trans hpointer.symm, ?_, ?_⟩
      · intro u
        refine (hcore u).trans ?_
        rw [lastRow, hrows]
        split
        · simp
        · rw [List.append_nil]
          exact h.row u
      · intro u r hr
        have hr := (hfind u).symm.trans hr
        split_ifs at hr with hu
        · rw [← Option.some.inj hr, ← hu]
          cases G.row? id with
          | none => rfl
          | some old => rfl
        · exact h.uuid u r hr
      · intro u
        rw [hdup, h.duplicates, hrows, row_some_iff h.row]
        split
        · next hu =>
          rw [List.length_append, List.length_singleton]
          constructor
          · rintro (hlen | ⟨-, hne⟩)
            · omega
            · have := List.length_pos_iff.2 hne
              omega
          · intro hlen
            exact Or.inr ⟨hu.symm, List.length_pos_iff.1 (by omega)⟩
        · next hu =>
          rw [List.append_nil]
          constructor
          · rintro (hlen | ⟨rfl, -⟩)
            · exact hlen
            · exact absurd rfl hu
          · exact Or.inl
      · intro e he
        rcases List.mem_append.1 he with he | he
        · obtain ⟨hsome, hlink⟩ := h.edges e he
          refine ⟨?_, ?_⟩
          · have hiff := congrArg Option.isSome (hcore e.2)
            rw [Option.isSome_map] at hiff
            refine hiff.trans ?_
            split
            · rfl
            · rwa [Option.isSome_map]
          · by_cases hu : e.2 = id
            · exact Or.inl ((hdup e.2).2 (Or.inr ⟨hu, hsome⟩))
            · rcases hlink with hlink | hlink
              · exact Or.inl ((hdup e.2).2 (Or.inl hlink))
              · refine Or.inr ((hparent e.2).trans ?_)
                rw [if_neg (Ne.symm hu)]
                exact hlink
        · obtain ⟨parent, hp, rfl⟩ : ∃ parent, effectiveParent row.value = some parent ∧ e = (parent, id) := by
            obtain ⟨parent, hp, heq⟩ := Option.map_eq_some_iff.1 (Option.mem_toList.1 he)
            exact ⟨parent, hp, heq.symm⟩
          refine ⟨?_, Or.inr ((hparent id).trans ?_)⟩
          · have hiff := congrArg Option.isSome (hcore id)
            rw [Option.isSome_map, if_pos rfl] at hiff
            exact hiff
          · rw [if_pos rfl]
            exact hp

/-- **The maps of a trace** hold the last row of each uuid. -/
theorem ofRows_of (rows : List TraceRow) : (BranchGraph.ofRows rows).Of rows := by
  have hall : ∀ (done rest : List TraceRow) (G : BranchGraph), G.Of done →
      (rest.foldl BranchGraph.note G).Of (done ++ rest) := by
    intro done rest
    induction rest generalizing done with
    | nil =>
      intro G hG
      simpa using hG
    | cons row rest ih =>
      intro G hG
      have := ih (done ++ [row]) (G.note row) (note_of hG row)
      rwa [List.append_assoc] at this
  exact hall [] rows {} ⟨by simp [BranchGraph.row?, lastRow, rowsOf], by simp [BranchGraph.row?], rfl,
    by simp [rowsOf], by simp⟩

section
variable {E : Host} {G : BranchGraph} {rows : List TraceRow}

def BranchGraph.uuids (G : BranchGraph) : List JsString := G.rows.map BranchRow.uuid

theorem mem_uuids {u : JsString} : u ∈ G.uuids ↔ (G.row? u).isSome = true := by
  rw [← any_uuid, List.any_eq_true, BranchGraph.uuids, List.mem_map]
  simp

theorem length_uuids : G.uuids.length = G.rows.length := List.length_map _

theorem has_of_type {u t : JsString} (h : G.type u = some t) : u ∈ G.uuids := by
  obtain ⟨r, hr, -⟩ := Option.bind_eq_some_iff.1 h
  exact mem_uuids.2 (by rw [hr]; rfl)

theorem has_of_attachment {u : JsString} (h : G.isAttachment u = true) : u ∈ G.uuids :=
  has_of_type (by simpa [BranchGraph.isAttachment] using h)

theorem has_of_group {u g : JsString} (h : G.groupOf u = some g) : u ∈ G.uuids := by
  rw [BranchGraph.groupOf] at h
  split at h
  · next htype => exact has_of_type htype
  · cases h

theorem has_of_after {u : JsString} (h : G.after u = true) : u ∈ G.uuids := by
  rw [BranchGraph.after] at h
  split at h
  · next r _ _ hr _ => exact mem_uuids.2 (by rw [hr]; rfl)
  · cases h

theorem mem_children {u child : JsString} : child ∈ G.children u ↔ (u, child) ∈ G.edges := by
  rw [BranchGraph.children, mem_addAll, List.mem_map]
  constructor
  · rintro (h | ⟨e, he, rfl⟩)
    · cases h
    · obtain ⟨he, hu⟩ := List.mem_filter.1 he
      rw [decide_eq_true_eq] at hu
      rwa [← hu]
  · intro h
    exact Or.inr ⟨(u, child), List.mem_filter.2 ⟨h, by simp⟩, rfl⟩

theorem has_of_children (hG : G.Of rows) {u child : JsString} (h : child ∈ G.children u) : child ∈ G.uuids :=
  mem_uuids.2 (hG.edges _ (mem_children.1 h)).1

/-- An edge is the parent link of its row, or the row is a duplicate. -/
theorem parent_of_children (hG : G.Of rows) {u child : JsString} (h : child ∈ G.children u) :
    child ∈ G.duplicates ∨ G.parent child = some u :=
  (hG.edges _ (mem_children.1 h)).2

theorem children_length (hG : G.Of rows) (u : JsString) : (G.children u).length ≤ G.rows.length := by
  have hnodup : (G.children u).Nodup := nodup_addAll List.nodup_nil
  rw [← length_uuids]
  exact (hnodup.subperm fun child hchild => has_of_children hG hchild).length_le

/-! ## Every loop ends -/

/-- A worklist gets smaller when an element is done that was missing, whatever it adds. -/
theorem worklist_lt {m m' k K rest : ℕ} (hm : m' < m) (hk : k ≤ K) :
    m' * (K + 1) + (k + rest) < m * (K + 1) + (rest + 1) := by
  have hmul : (m' + 1) * (K + 1) ≤ m * (K + 1) := Nat.mul_le_mul_right _ hm
  rw [Nat.succ_mul] at hmul
  omega

theorem rounds_gt (G : BranchGraph) : G.rows.length * (2 * G.rows.length + 2) + G.rows.length + 2 < G.rounds := by
  have h : G.rounds = 2 * (G.rows.length * G.rows.length) + 8 * G.rows.length + 8 := by
    unfold BranchGraph.rounds
    ring
  have h' : G.rows.length * (2 * G.rows.length + 2) = 2 * (G.rows.length * G.rows.length) + 2 * G.rows.length := by
    ring
  omega

theorem missing_uuids_le (A : List JsString) : missing G.uuids A ≤ G.rows.length :=
  length_uuids (G := G) ▸ missing_le G.uuids A

theorem missing_append {A : List JsString} {u : JsString} (hu : u ∈ G.uuids) (hA : u ∉ A) :
    missing G.uuids (A ++ [u]) < missing G.uuids A :=
  missing_lt (fun _ hv => List.mem_append_left _ hv) hu hA (List.mem_append_right _ (List.mem_singleton_self u))

theorem ancestry_total (leaf : JsString) :
    ∃ r, run (ancestryRound G) G.rounds ([], some leaf) = some r := by
  have hbound := rounds_gt G
  have hmissing := missing_uuids_le (G := G) []
  refine run_total (I := fun _ => True)
    (μ := fun s => missing G.uuids s.1 + if s.2.isSome then 1 else 0) ?_ trivial ?_
  · rintro ⟨A, cursor⟩ -
    cases cursor with
    | none => exact Or.inl ⟨_, rfl⟩
    | some cursor =>
      by_cases hA : cursor ∈ A
      · exact Or.inl ⟨_, by rw [ancestryRound, if_pos hA]⟩
      · refine Or.inr ⟨_, by rw [ancestryRound, if_neg hA], trivial, ?_⟩
        by_cases hu : cursor ∈ G.uuids
        · have hlt := missing_append hu hA
          dsimp only [Option.isSome_some]
          split
          · simp only [if_true]
            omega
          · simp only [if_true]
            omega
        · have hnone : G.parent cursor = none := by
            rw [BranchGraph.parent, Option.not_isSome_iff_eq_none.1 fun h => hu (mem_uuids.2 h)]
            rfl
          have hle := @missing_anti _ _ G.uuids A (A ++ [cursor]) fun v hv =>
            List.mem_append_left _ hv
          simp only [hnone, Option.isSome_none, Option.isSome_some, if_true]
          simp only [Bool.false_eq_true, if_false]
          omega
  · simp only [Option.isSome_some, if_true]
    have : G.rows.length ≤ G.rows.length * (2 * G.rows.length + 2) + G.rows.length := Nat.le_add_left _ _
    omega

theorem attachmentOnly_total (hG : G.Of rows) (u : JsString) : ∃ b, G.isAttachmentOnlySubtree u = some b := by
  have hbound := rounds_gt G
  have hmissing := missing_uuids_le (G := G) []
  refine run_total (I := fun _ => True)
    (μ := fun s => missing G.uuids s.2 * (G.rows.length + 1) + s.1.length) ?_ trivial ?_
  · rintro ⟨pending, visited⟩ -
    cases pending with
    | nil => exact Or.inl ⟨_, rfl⟩
    | cons uuid pending =>
      by_cases hvisited : uuid ∈ visited
      · exact Or.inl ⟨_, by rw [attachmentRound, if_pos hvisited]⟩
      by_cases htype : G.isAttachment uuid = true
      · refine Or.inr ⟨_, by rw [attachmentRound, if_neg hvisited, htype]; rfl, trivial, ?_⟩
        rw [List.length_append, List.length_reverse, List.length_cons]
        exact worklist_lt (missing_append (has_of_attachment htype) hvisited) (children_length hG uuid)
      · refine Or.inl ⟨false, ?_⟩
        rw [Bool.not_eq_true] at htype
        rw [attachmentRound, if_neg hvisited, htype]
        rfl
  · dsimp only
    have hmul : missing G.uuids [] * (G.rows.length + 1) ≤ G.rows.length * (2 * G.rows.length + 2) :=
      Nat.mul_le_mul hmissing (by omega)
    rw [List.length_singleton]
    omega

theorem continuing_total (hG : G.Of rows) (us : List JsString) : ∃ children, G.continuing us = some children := by
  refine keep_total fun u _ => ?_
  obtain ⟨b, hb⟩ := attachmentOnly_total hG u
  exact ⟨!b, by rw [hb]; rfl⟩

section
variable {anchor : ResponseAnchor} {ancestry : List JsString}

theorem has_of_response {u : JsString} (h : sameResponse G anchor u = true) : u ∈ G.uuids := by
  rw [sameResponse, Bool.and_eq_true, decide_eq_true_eq] at h
  exact has_of_group h.1

theorem has_of_candidate {u : JsString} (h : candidateResult G anchor u = true) : u ∈ G.uuids := by
  rw [candidateResult] at h
  split at h
  · cases h
  · next r hr => exact mem_uuids.2 (by rw [hr]; rfl)

/-- What a discovery admits is a row of the trace. -/
theorem has_of_admitted {u : JsString}
    (h : ¬ (!sameResponse G anchor u && !G.isAttachment u && !candidateResult G anchor u) = true) :
    u ∈ G.uuids := by
  simp only [Bool.and_eq_true, Bool.not_eq_true', not_and, Bool.not_eq_false] at h
  by_cases hresponse : sameResponse G anchor u = true
  · exact has_of_response hresponse
  by_cases hattachment : G.isAttachment u = true
  · exact has_of_attachment hattachment
  · rw [Bool.not_eq_true] at hresponse hattachment
    exact has_of_candidate (h ⟨hresponse, hattachment⟩)

theorem discoverFrom_length (hG : G.Of rows) (u : JsString) :
    (discoverFrom G anchor u).length ≤ 2 * G.rows.length + 1 := by
  have hchildren := children_length hG u
  rw [discoverFrom, List.length_append]
  split
  · rw [List.length_nil]
    omega
  · next parent _ =>
    have hsiblings := children_length hG parent
    rw [List.length_cons]
    split
    · omega
    · rw [List.length_nil]
      omega

/-- One round of the discovery: an element of the stack is dropped, or admitted. -/
theorem discoveryRound_next {s s' : Discovery} (h : discoveryRound G anchor ancestry s = some (.next s')) :
    ∃ u pending, s.pending = u :: pending ∧
      (s' = { s with pending } ∨
        u ∈ G.uuids ∧ u ∉ s.component ∧ s' = {
          pending := (discoverFrom G anchor u).reverse ++ pending
          component := s.component ++ [u]
          group := if sameResponse G anchor u then s.group ++ [u] else s.group }) := by
  rw [discoveryRound] at h
  split at h
  · cases h
  · next u pending hpending =>
    refine ⟨u, pending, hpending, ?_⟩
    split at h
    · cases h
      exact Or.inl rfl
    · next hcomponent =>
      split at h
      · cases h
        exact Or.inl rfl
      · next hadmitted =>
        obtain ⟨side, -, h⟩ := Option.map_eq_some_iff.1 h
        cases side with
        | true =>
          cases h
          exact Or.inl rfl
        | false =>
          cases h
          exact Or.inr ⟨has_of_admitted hadmitted, hcomponent, rfl⟩

theorem sideBranch_total (hG : G.Of rows) (u : JsString) : ∃ b, isSideBranch G ancestry u = some b := by
  rw [isSideBranch]
  split
  · exact ⟨false, rfl⟩
  · exact attachmentOnly_total hG u

theorem discoveryRound_total (hG : G.Of rows) (s : Discovery) : ∃ x, discoveryRound G anchor ancestry s = some x := by
  rw [discoveryRound]
  split
  · exact ⟨_, rfl⟩
  · next u pending _ =>
    split
    · exact ⟨_, rfl⟩
    · split
      · exact ⟨_, rfl⟩
      · obtain ⟨b, hb⟩ := @sideBranch_total _ _ ancestry hG u
        exact ⟨_, by rw [hb]; rfl⟩

theorem discovery_total (hG : G.Of rows) (u : JsString) :
    ∃ d, run (discoveryRound G anchor ancestry) G.rounds { pending := [u] } = some d := by
  have hbound := rounds_gt G
  have hmissing := missing_uuids_le (G := G) []
  refine run_total (I := fun _ => True)
    (μ := fun s => missing G.uuids s.component * (2 * G.rows.length + 1 + 1) + s.pending.length) ?_ trivial ?_
  · intro s _
    obtain ⟨x, hx⟩ := @discoveryRound_total _ _ anchor ancestry hG s
    cases x with
    | done d => exact Or.inl ⟨d, hx⟩
    | next s' =>
      refine Or.inr ⟨s', hx, trivial, ?_⟩
      obtain ⟨v, pending, hpending, rfl | ⟨hv, hcomponent, rfl⟩⟩ := discoveryRound_next hx
      · rw [hpending, List.length_cons]
        exact Nat.lt_succ_self _
      · rw [hpending, List.length_cons, List.length_append, List.length_reverse]
        exact worklist_lt (missing_append hv hcomponent) (discoverFrom_length hG v)
  · dsimp only
    have hmul : missing G.uuids [] * (2 * G.rows.length + 1 + 1) ≤ G.rows.length * (2 * G.rows.length + 2) :=
      Nat.mul_le_mul hmissing (by omega)
    rw [List.length_singleton]
    omega

/-- What a discovery returns: rows of the trace, those of the response apart. -/
structure Discovery.Ok (G : BranchGraph) (anchor : ResponseAnchor) (d : Discovery) : Prop where
  component : ∀ u ∈ d.component, u ∈ G.uuids
  group : ∀ u, u ∈ d.group ↔ u ∈ d.component ∧ sameResponse G anchor u = true

theorem discovery_ok {u : JsString} {d : Discovery}
    (h : run (discoveryRound G anchor ancestry) G.rounds { pending := [u] } = some d) : d.Ok G anchor := by
  refine run_invariant (I := Discovery.Ok G anchor) ?_ ?_ ⟨by simp, by simp⟩ h
  · intro s s' hs hround
    obtain ⟨v, pending, -, rfl | ⟨hv, -, rfl⟩⟩ := discoveryRound_next hround
    · exact ⟨hs.component, hs.group⟩
    · refine ⟨?_, ?_⟩
      · intro w hw
        rcases List.mem_append.1 hw with hw | hw
        · exact hs.component w hw
        · rw [List.mem_singleton.1 hw]
          exact hv
      · intro w
        have hgroup := hs.group w
        by_cases hwv : w = v
        · subst hwv
          by_cases hresponse : sameResponse G anchor w = true
          · simp [hresponse]
          · rw [Bool.not_eq_true] at hresponse
            simp [hresponse] at hgroup ⊢
            exact hgroup
        · by_cases hresponse : sameResponse G anchor v = true
          · simp [hresponse, hwv, hgroup]
          · rw [Bool.not_eq_true] at hresponse
            simp [hresponse, hwv, hgroup]
  · intro s r hs hround
    rw [discoveryRound] at hround
    split at hround
    · cases hround
      exact hs
    · split at hround
      · cases hround
      · split at hround
        · cases hround
        · obtain ⟨side, -, hround⟩ := Option.map_eq_some_iff.1 hround
          cases side <;> cases hround

/-- A way up ends that passes no row twice. -/
theorem climb_total {component : List JsString} (hcomponent : ∀ u ∈ component, u ∈ G.uuids) (u : JsString) :
    ∃ b, run (climbRound G component) G.rounds { cursor := some u } = some b := by
  have hbound := rounds_gt G
  have hmissing := missing_uuids_le (G := G) []
  refine run_total (I := fun _ => True) (μ := fun s => missing G.uuids s.seen) ?_ trivial (by dsimp only; omega)
  rintro ⟨seen, cursor, flagged⟩ -
  rw [climbRound]
  dsimp only
  cases cursor with
  | none => exact Or.inl ⟨_, rfl⟩
  | some cursor =>
    by_cases hin : cursor ∈ component
    · by_cases hseen : cursor ∈ seen
      · exact Or.inl ⟨true, by simp [hin, hseen]⟩
      · exact Or.inr ⟨_, by simp only [hin, hseen, not_true_eq_false, if_false]; rfl, trivial,
          missing_append (hcomponent cursor hin) hseen⟩
    · exact Or.inl ⟨flagged, by simp [hin]⟩

theorem bridge_total {component group : List JsString} (hcomponent : ∀ u ∈ component, u ∈ G.uuids)
    (start : Option JsString) : ∃ seen, run (bridgeRound G component group) G.rounds ([], start) = some seen := by
  have hbound := rounds_gt G
  have hmissing := missing_uuids_le (G := G) []
  refine run_total (I := fun _ => True) (μ := fun s => missing G.uuids s.1) ?_ trivial (by dsimp only; omega)
  rintro ⟨seen, cursor⟩ -
  cases cursor with
  | none => exact Or.inl ⟨seen, rfl⟩
  | some cursor =>
    rw [bridgeRound]
    by_cases hin : cursor ∈ component ∧ cursor ∉ group ∧ cursor ∉ seen
    · exact Or.inr ⟨_, if_pos hin, trivial, missing_append (hcomponent cursor hin.1) hin.2.2⟩
    · exact Or.inl ⟨seen, if_neg hin⟩

theorem result_total {group results : List JsString} (hresults : ∀ u ∈ results, u ∈ G.uuids) (u : JsString) :
    ∃ way, run (resultRound G group results) G.rounds ([], some u) = some way := by
  have hbound := rounds_gt G
  have hmissing := missing_uuids_le (G := G) []
  refine run_total (I := fun _ => True) (μ := fun s => missing G.uuids s.1) ?_ trivial (by dsimp only; omega)
  rintro ⟨seen, cursor⟩ -
  cases cursor with
  | none => exact Or.inl ⟨(seen, true), rfl⟩
  | some cursor =>
    rw [resultRound]
    by_cases hgroup : cursor ∈ group
    · exact Or.inl ⟨(seen, false), if_pos hgroup⟩
    by_cases hstop : cursor ∈ seen ∨ cursor ∈ G.duplicates ∨ (cursor ∉ results ∧ G.isAttachment cursor = false)
    · exact Or.inl ⟨(seen, true), by rw [if_neg hgroup, if_pos hstop]⟩
    · refine Or.inr ⟨_, by rw [if_neg hgroup, if_neg hstop], trivial, ?_⟩
      simp only [not_or, not_and, Bool.not_eq_false] at hstop
      refine missing_append ?_ hstop.1
      by_cases hresult : cursor ∈ results
      · exact hresults cursor hresult
      · exact has_of_attachment (hstop.2.2 hresult)

theorem resultRows_has {calls : List JsString} {u : JsString} (h : u ∈ resultRowsOf G calls) : u ∈ G.uuids := by
  obtain ⟨r, hr, rfl⟩ := List.mem_map.1 h
  exact List.mem_map_of_mem (List.mem_of_mem_filter hr)

theorem settle_total (hG : G.Of rows) (leaf : JsString) (start : Walk) :
    ∃ walk, settleAnchor G anchor leaf start = some walk := by
  obtain ⟨d, hd⟩ := @discovery_total _ _ anchor start.ancestry hG anchor.uuid
  have hok := discovery_ok hd
  rw [settleAnchor, hd, Option.bind_eq_bind, Option.bind_some, settleComponent]
  split
  · exact ⟨start, rfl⟩
  · obtain ⟨climbs, hclimbs⟩ := mapM_total fun u (_ : u ∈ d.component) => climb_total hok.component u
    obtain ⟨bridges, hbridges⟩ := mapM_total fun u (_ : u ∈ d.group) =>
      @bridge_total _ d.component d.group hok.component (G.parent u)
    have hresults : ∀ u ∈ resultRowsOf G (d.group.flatMap G.callIds), u ∈ G.uuids := fun u hu => resultRows_has hu
    obtain ⟨ways, hways⟩ := mapM_total fun u (_ : u ∈ resultRowsOf G (d.group.flatMap G.callIds)) =>
      @result_total G d.group _ hresults u
    dsimp only
    rw [hclimbs, hbridges, hways]
    exact ⟨_, rfl⟩

end

theorem mem_continuing {us children : List JsString} (h : G.continuing us = some children) {u : JsString}
    (hu : u ∈ children) : u ∈ us ∧ G.after u = true := by
  rw [keep_eq h] at hu
  exact List.mem_filter.1 (List.mem_of_mem_filter hu)

/-- What is gathered is not in the branch yet. -/
structure Gathering.Ok (G : BranchGraph) (s : Gathering) : Prop where
  pending : ∀ u ∈ s.pending, u ∈ G.uuids
  semantic : ∀ u ∈ s.semantic, u ∈ G.uuids ∧ u ∉ s.ancestry ∧ G.isAttachment u = false

/-- One round of the flattening: a semantic row is set aside, an attachment followed. -/
theorem flattenRound_next {s s' : Gathering} (h : flattenRound G s = some (.next s')) :
    ∃ child pending, s.pending = child :: pending ∧ child ∉ s.ancestry ∧
      ((G.isAttachment child = false ∧ s' = { s with pending, semantic := s.semantic ++ [child] }) ∨
        (G.isAttachment child = true ∧ ∃ children, G.continuing (G.children child) = some children ∧
          s' = { s with pending := pending ++ children, ancestry := s.ancestry ++ [child] })) := by
  rw [flattenRound] at h
  split at h
  · cases h
  · next child pending hpending =>
    split at h
    · cases h
    · next hancestry =>
      refine ⟨child, pending, hpending, hancestry, ?_⟩
      split at h
      · next htype =>
        cases h
        exact Or.inl ⟨by simpa using htype, rfl⟩
      · next htype =>
        obtain ⟨children, hchildren, h⟩ := Option.map_eq_some_iff.1 h
        cases h
        exact Or.inr ⟨by simpa using htype, children, hchildren, rfl⟩

theorem flattenRound_done {s r : Gathering} (h : flattenRound G s = some (.done r)) :
    (s.pending = [] ∧ r = s) ∨ ∃ pending, r = { s with pending, ambiguous := true } ∧
      ∀ u ∈ pending, u ∈ s.pending := by
  rw [flattenRound] at h
  split at h
  · next hpending =>
    cases h
    exact Or.inl ⟨hpending, rfl⟩
  · next child pending hpending =>
    split at h
    · cases h
      refine Or.inr ⟨pending, rfl, fun u hu => ?_⟩
      rw [hpending]
      exact List.mem_cons_of_mem _ hu
    · split at h
      · cases h
      · obtain ⟨children, -, h⟩ := Option.map_eq_some_iff.1 h
        cases h

theorem flattenStep_ok {s s' : Gathering} (hs : s.Ok G)
    (h : flattenRound G s = some (.next s')) : s'.Ok G ∧ ∀ u ∈ s.ancestry, u ∈ s'.ancestry := by
  obtain ⟨child, pending, hpending, hchild, ⟨htype, rfl⟩ | ⟨htype, children, hchildren, rfl⟩⟩ := flattenRound_next h
  · have hrest := hs.pending
    rw [hpending] at hrest
    refine ⟨⟨fun u hu => hrest u (List.mem_cons_of_mem _ hu), ?_⟩, fun u hu => hu⟩
    intro u hu
    rcases List.mem_append.1 hu with hu | hu
    · exact hs.semantic u hu
    · rw [List.mem_singleton.1 hu]
      exact ⟨hrest child List.mem_cons_self, hchild, htype⟩
  · have hrest := hs.pending
    rw [hpending] at hrest
    refine ⟨⟨?_, ?_⟩, fun u hu => List.mem_append_left _ hu⟩
    · intro u hu
      rcases List.mem_append.1 hu with hu | hu
      · exact hrest u (List.mem_cons_of_mem _ hu)
      · exact has_of_after (mem_continuing hchildren hu).2
    · intro u hu
      obtain ⟨huuid, hancestry, hother⟩ := hs.semantic u hu
      refine ⟨huuid, ?_, hother⟩
      -- a semantic row is no attachment, so it is not the one that was followed
      intro hmem
      rcases List.mem_append.1 hmem with hmem | hmem
      · exact hancestry hmem
      · rw [List.mem_singleton.1 hmem, htype] at hother
        cases hother

theorem flatten_ok {n : ℕ} {s r : Gathering} (hs : s.Ok G)
    (h : run (flattenRound G) n s = some r) : r.Ok G ∧ ∀ u ∈ s.ancestry, u ∈ r.ancestry := by
  refine run_invariant (I := fun t : Gathering => t.Ok G ∧ ∀ u ∈ s.ancestry, u ∈ t.ancestry)
    (Q := fun t : Gathering => t.Ok G ∧ ∀ u ∈ s.ancestry, u ∈ t.ancestry) ?_ ?_ ⟨hs, fun u hu => hu⟩ h
  · rintro t t' ⟨ht, hsub⟩ hround
    obtain ⟨ht', hsub'⟩ := flattenStep_ok ht hround
    exact ⟨ht', fun u hu => hsub' u (hsub u hu)⟩
  · rintro t t' ⟨ht, hsub⟩ hround
    rcases flattenRound_done hround with ⟨-, rfl⟩ | ⟨pending, rfl, hpending⟩
    · exact ⟨ht, hsub⟩
    · exact ⟨⟨fun u hu => ht.pending u (hpending u hu), ht.semantic⟩, hsub⟩

theorem flatten_total (hG : G.Of rows) (s : Gathering) :
    ∃ r, run (flattenRound G) (G.rounds + s.pending.length) s = some r := by
  have hbound := rounds_gt G
  have hmissing := missing_uuids_le (G := G) s.ancestry
  refine run_total (I := fun _ => True)
    (μ := fun s => missing G.uuids s.ancestry * (G.rows.length + 1) + s.pending.length) ?_ trivial ?_
  · intro t _
    have htotal : ∃ x, flattenRound G t = some x := by
      rw [flattenRound]
      split
      · exact ⟨_, rfl⟩
      · next child _ _ =>
        split
        · exact ⟨_, rfl⟩
        · split
          · exact ⟨_, rfl⟩
          · obtain ⟨children, hchildren⟩ := continuing_total hG (G.children child)
            exact ⟨_, by rw [hchildren]; rfl⟩
    obtain ⟨x, hx⟩ := htotal
    cases x with
    | done r => exact Or.inl ⟨r, hx⟩
    | next t' =>
      refine Or.inr ⟨t', hx, trivial, ?_⟩
      obtain ⟨child, pending, hpending, hchild, ⟨-, rfl⟩ | ⟨htype, children, hchildren, rfl⟩⟩ := flattenRound_next hx
      · rw [hpending, List.length_cons]
        exact Nat.lt_succ_self _
      · have hle : children.length ≤ G.rows.length := by
          rw [keep_eq hchildren]
          exact ((List.length_filter_le _ _).trans (List.length_filter_le _ _)).trans (children_length hG child)
        rw [hpending, List.length_cons, List.length_append, Nat.add_comm pending.length]
        exact worklist_lt (missing_append (has_of_attachment htype) hchild) hle
  · have hmul : missing G.uuids s.ancestry * (G.rows.length + 1) ≤ G.rows.length * (2 * G.rows.length + 2) :=
      Nat.mul_le_mul hmissing (by omega)
    omega

/-- One round of the gathering that goes on: what was flattened, and the rows of the current
response that are consumed. -/
theorem gatherRound_next {group : Option JsString} {request : RequestKey} {s s' : Gathering}
    (h : gatherRound G group request s = some (.next s')) :
    ∃ g responseRows children, run (flattenRound G) (G.rounds + s.pending.length) s = some g ∧
      g.ambiguous = false ∧ responseRows ≠ [] ∧ (∀ u ∈ responseRows, u ∈ g.semantic) ∧
      responseRows.mapM (fun u => G.continuing (G.children u)) = some children ∧
      s' = { g with
        pending := children.flatten
        semantic := g.semantic.filter (· ∉ responseRows)
        ancestry := addAll g.ancestry responseRows
        extended := true } := by
  rw [gatherRound, Option.bind_eq_bind, Option.bind_eq_some_iff] at h
  obtain ⟨g, hg, h⟩ := h
  dsimp only at h
  split at h
  · cases h
  · next hopen =>
    split at h
    · cases h
    · obtain ⟨t, ht, h⟩ := Option.map_eq_some_iff.1 h
      cases h
      rw [consumeResponse] at ht
      obtain ⟨children, hchildren, rfl⟩ := Option.map_eq_some_iff.1 ht
      simp only [Bool.or_eq_true, decide_eq_true_eq, not_or, Bool.not_eq_true] at hopen
      exact ⟨g, _, children, hg, hopen.1, hopen.2, fun u hu => List.mem_of_mem_filter hu, hchildren, rfl⟩

/-- A gathering ends with what was flattened last. -/
theorem gatherRound_done {group : Option JsString} {request : RequestKey} {s r : Gathering}
    (h : gatherRound G group request s = some (.done r)) :
    ∃ g, run (flattenRound G) (G.rounds + s.pending.length) s = some g ∧
      (r = g ∨ r = { g with ambiguous := true }) := by
  rw [gatherRound, Option.bind_eq_bind, Option.bind_eq_some_iff] at h
  obtain ⟨g, hg, h⟩ := h
  dsimp only at h
  split at h
  · cases h
    exact ⟨r, hg, Or.inl rfl⟩
  · split at h
    · cases h
      exact ⟨g, hg, Or.inr rfl⟩
    · obtain ⟨t, -, h⟩ := Option.map_eq_some_iff.1 h
      cases h

theorem gatherStep_ok {group : Option JsString} {request : RequestKey} {s s' : Gathering}
    (hs : s.Ok G) (h : gatherRound G group request s = some (.next s')) :
    s'.Ok G ∧ (∀ u ∈ s.ancestry, u ∈ s'.ancestry) ∧ missing G.uuids s'.ancestry < missing G.uuids s.ancestry := by
  obtain ⟨g, responseRows, children, hg, -, hne, hrows, hchildren, rfl⟩ := gatherRound_next h
  obtain ⟨hok, hsub⟩ := flatten_ok hs hg
  have hgrow : ∀ u ∈ s.ancestry, u ∈ addAll g.ancestry responseRows := fun u hu => mem_addAll.2 (Or.inl (hsub u hu))
  refine ⟨⟨?_, ?_⟩, hgrow, ?_⟩
  · intro u hu
    obtain ⟨list, hlist, hu⟩ := List.mem_flatten.1 hu
    obtain ⟨v, -, hv⟩ := (mapM_mem hchildren).2 list hlist
    exact has_of_after (mem_continuing hv hu).2
  · intro u hu
    obtain ⟨hu, hout⟩ := List.mem_filter.1 hu
    obtain ⟨huuid, hancestry, hother⟩ := hok.semantic u hu
    refine ⟨huuid, ?_, hother⟩
    rw [mem_addAll, not_or]
    exact ⟨hancestry, by simpa using hout⟩
  · obtain ⟨u, hu⟩ := List.exists_mem_of_ne_nil _ hne
    obtain ⟨huuid, hancestry, -⟩ := hok.semantic u (hrows u hu)
    exact missing_lt hgrow huuid (fun h => hancestry (hsub u h)) (mem_addAll.2 (Or.inr hu))

theorem gather_ok {group : Option JsString} {request : RequestKey} {n : ℕ} {s r : Gathering}
    (hs : s.Ok G) (h : run (gatherRound G group request) n s = some r) :
    r.Ok G ∧ ∀ u ∈ s.ancestry, u ∈ r.ancestry := by
  refine run_invariant (I := fun t : Gathering => t.Ok G ∧ ∀ u ∈ s.ancestry, u ∈ t.ancestry)
    (Q := fun t : Gathering => t.Ok G ∧ ∀ u ∈ s.ancestry, u ∈ t.ancestry) ?_ ?_ ⟨hs, fun u hu => hu⟩ h
  · rintro t t' ⟨ht, hsub⟩ hround
    obtain ⟨ht', hsub', -⟩ := gatherStep_ok ht hround
    exact ⟨ht', fun u hu => hsub' u (hsub u hu)⟩
  · rintro t t' ⟨ht, hsub⟩ hround
    obtain ⟨g, hg, hr⟩ := gatherRound_done hround
    obtain ⟨hok, hsub'⟩ := flatten_ok ht hg
    rcases hr with rfl | rfl
    · exact ⟨hok, fun u hu => hsub' u (hsub u hu)⟩
    · exact ⟨⟨hok.pending, hok.semantic⟩, fun u hu => hsub' u (hsub u hu)⟩

theorem gather_total (hG : G.Of rows) (group : Option JsString) (request : RequestKey) {s : Gathering}
    (hs : s.Ok G) : ∃ r, run (gatherRound G group request) G.rounds s = some r := by
  have hbound := rounds_gt G
  have hmissing := missing_uuids_le (G := G) s.ancestry
  refine run_total (I := Gathering.Ok G) (μ := fun t => missing G.uuids t.ancestry) ?_ hs (by omega)
  intro t ht
  have htotal : ∃ x, gatherRound G group request t = some x := by
    obtain ⟨g, hg⟩ := flatten_total hG t
    rw [gatherRound, hg, Option.bind_eq_bind, Option.bind_some]
    dsimp only
    split
    · exact ⟨_, rfl⟩
    · split
      · exact ⟨_, rfl⟩
      · rw [consumeResponse]
        obtain ⟨children, hchildren⟩ := mapM_total
          fun u (_ : u ∈ g.semantic.filter fun u => group.isSome && G.groupOf u = group) =>
            continuing_total hG (G.children u)
        exact ⟨_, by rw [hchildren]; rfl⟩
  obtain ⟨x, hx⟩ := htotal
  cases x with
  | done r => exact Or.inl ⟨r, hx⟩
  | next t' =>
    obtain ⟨ht', -, hlt⟩ := gatherStep_ok ht hx
    exact Or.inr ⟨t', hx, ht', hlt⟩

/-- One round of the walk: it ends, flagged or not, or what was gathered is the new frontier. -/
theorem walkRound_cases (hG : G.Of rows) (s : Walk) :
    ((s.ambiguous || s.unsettled) = true ∧ walkRound E G s = some (.done s)) ∨
      (s.ambiguous || s.unsettled) = false ∧ ∃ children, nextChildren G s = some children ∧
        ((children = [] ∧ walkRound E G s = some (.done { s with seeded := false })) ∨
          ∃ g, run (gatherRound G s.group s.request) G.rounds { pending := children, ancestry := s.ancestry } = some g ∧
            g.Ok G ∧ (∀ u ∈ s.ancestry, u ∈ g.ancestry) ∧
            ((∃ ambiguous, (ambiguous = false → g.semantic = []) ∧
              walkRound E G s = some (.done { s with ancestry := g.ancestry, seeded := false, ambiguous })) ∨
            ∃ group request, g.semantic ≠ [] ∧ walkRound E G s = some (.next {
              ancestry := addAll g.ancestry g.semantic
              frontier := g.semantic
              group
              request
              ambiguous := g.ambiguous }))) := by
  by_cases hstop : (s.ambiguous || s.unsettled) = true
  · exact Or.inl ⟨hstop, by rw [walkRound, if_pos hstop]⟩
  rw [Bool.not_eq_true] at hstop
  refine Or.inr ⟨hstop, ?_⟩
  obtain ⟨children, hchildren⟩ := continuing_total hG
    ((addAll [] (s.frontier.flatMap G.children)).filter fun u => !(s.seeded && u ∈ s.ancestry))
  have hnext : nextChildren G s = some children := hchildren
  refine ⟨children, hnext, ?_⟩
  rw [walkRound, hstop, if_neg (by simp), hnext, Option.bind_eq_bind, Option.bind_some]
  by_cases hnil : children = []
  · exact Or.inl ⟨hnil, by rw [if_pos hnil]; rfl⟩
  refine Or.inr ?_
  have hstart : Gathering.Ok G { pending := children, ancestry := s.ancestry } :=
    ⟨fun u hu => has_of_after (mem_continuing hchildren hu).2, by simp⟩
  obtain ⟨g, hg⟩ := gather_total hG s.group s.request hstart
  obtain ⟨hok, hsub⟩ := gather_ok hstart hg
  refine ⟨g, hg, hok, hsub, ?_⟩
  rw [if_neg hnil, hg, Option.bind_eq_bind, Option.bind_some]
  by_cases hrefused : refusedGathering G s.group s.request g = true
  · exact Or.inl ⟨true, by simp, by rw [if_pos hrefused]; rfl⟩
  · rw [if_neg hrefused]
    cases hsemantic : g.semantic with
    | nil => exact Or.inl ⟨g.ambiguous, fun _ => rfl, rfl⟩
    | cons first rest => exact Or.inr ⟨_, _, by simp, rfl⟩

theorem walk_total (hG : G.Of rows) (s : Walk) : ∃ r, run (walkRound E G) G.rounds s = some r := by
  have hbound := rounds_gt G
  have hmissing := missing_uuids_le (G := G) s.ancestry
  refine run_total (I := fun _ => True) (μ := fun t => missing G.uuids t.ancestry) ?_ trivial (by omega)
  intro t _
  rcases walkRound_cases (E := E) hG t with ⟨-, hdone⟩ | ⟨-, children, -, ⟨-, hdone⟩ | ⟨g, -, hok, hsub, h⟩⟩
  · exact Or.inl ⟨_, hdone⟩
  · exact Or.inl ⟨_, hdone⟩
  · rcases h with ⟨ambiguous, -, hdone⟩ | ⟨group, request, hne, hnext⟩
    · exact Or.inl ⟨_, hdone⟩
    · refine Or.inr ⟨_, hnext, trivial, ?_⟩
      obtain ⟨u, hu⟩ := List.exists_mem_of_ne_nil _ hne
      obtain ⟨huuid, hancestry, -⟩ := hok.semantic u hu
      exact missing_lt (fun v hv => mem_addAll.2 (Or.inl (hsub v hv))) huuid (fun h => hancestry (hsub u h))
        (mem_addAll.2 (Or.inr hu))

/-- **Branch selection ends** on every graph. -/
theorem walkBranch_total (hG : G.Of rows) (leaf : JsString) : ∃ walk, walkBranch E G leaf = some walk := by
  obtain ⟨⟨ancestry, cycle⟩, hancestry⟩ := ancestry_total (G := G) leaf
  rw [walkBranch, hancestry, Option.bind_eq_bind, Option.bind_some]
  dsimp only
  split
  · obtain ⟨walk, hwalk⟩ := walk_total (E := E) hG
      { ancestry, frontier := [leaf], group := none, request := .missing,
        ambiguous := cycle.isSome || G.duplicates.any G.after }
    exact ⟨_, by rw [Option.bind_eq_bind, Option.bind_some, hwalk]; rfl⟩
  · next anchor _ =>
    obtain ⟨seeded, hseeded⟩ := @settle_total _ _ anchor hG leaf
      { ancestry, frontier := [leaf], group := some anchor.group, request := anchor.request,
        ambiguous := cycle.isSome || G.duplicates.any G.after }
    obtain ⟨walk, hwalk⟩ := walk_total (E := E) hG seeded
    exact ⟨_, by rw [hseeded, Option.bind_eq_bind, Option.bind_some, hwalk]; rfl⟩

end

end Barbaro.Claude
