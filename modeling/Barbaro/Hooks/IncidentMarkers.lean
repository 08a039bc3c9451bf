import Barbaro.Hooks.Incidents

/-!
# What becomes of a condition

A marker that has been written to its end passes the reader and is listed once, and nothing
touches it any more. What silences a condition is a marker that its maker left unfinished:
its mere existence ends every later call.

* `step_cases`: what one step does, under any interleaving.
* `incident_reported`: if no call finds an unfinished marker, every condition is reported.
* `tornState_silent`: what a crash between `open` and the writes leaves.
-/

namespace Barbaro.Incidents

variable {E : Host}

/-! ## A marker that is whole -/

theorem natJson_wellFormed {n : ℕ} (h : n ≤ maxSafeInteger) : (natJson n).WellFormed E.float :=
  (Written.int (by simpa using h)).wellFormed

theorem excerptContent_wellFormed {text : JsString} (h : byteLength text ≤ maxSafeInteger) (maxUtf8Bytes : ℕ) :
    (excerptContent text maxUtf8Bytes).WellFormed E.float := by
  have hkeys : (["text", "fidelity", "truncated", "original_utf8_bytes", "redactions"].map js).Nodup := by decide
  refine ⟨hkeys, wellFormedFields_iff.2 ?_⟩
  simp only [List.mem_cons, List.not_mem_nil, or_false, forall_eq_or_imp, forall_eq]
  exact ⟨trivial, trivial, trivial, natJson_wellFormed h, trivial⟩

namespace IncidentCall

variable (c : IncidentCall E)

theorem ordered : orderedKeys (["detail", "event", "kind", "occurred_at", "provider", "schema", "workstream_id"].map js) =
    true := by decide

theorem wellFormed : c.toJson.WellFormed E.float := by
  refine wellFormed_objectOf ?_ ordered
  have hopt : ∀ {o : Option JsString} v, o.map Json.str = some v → v.WellFormed E.float := by
    intro o v hv
    obtain ⟨s, -, rfl⟩ := Option.map_eq_some_iff.1 hv
    trivial
  simp only [List.mem_cons, List.not_mem_nil, or_false, forall_eq_or_imp, forall_eq, Option.some.injEq]
  refine ⟨fun v hv => ?_, hopt, fun v hv => hv ▸ trivial, fun v hv => hv ▸ trivial, fun v hv => hv ▸ trivial,
    fun v hv => hv ▸ trivial, hopt⟩
  obtain ⟨d, hd, rfl⟩ := Option.map_eq_some_iff.1 hv
  exact excerptContent_wellFormed (c.countable d hd) _

/-- What is read of a marker. -/
def record : Json := sortKeys c.toJson

theorem get_record {k : String} {v : Option Json} (h : c.toJson.get (js k) = v) :
    c.record.get (js k) = v.map sortKeys := by
  obtain ⟨fs, hfs, hsub⟩ : ∃ fs, c.toJson = .obj fs ∧ _ := keys_objectOf
  have hnd : (fs.map (·.1)).Nodup := by
    have hwell := c.wellFormed
    rw [hfs] at hwell
    exact hwell.1
  rw [record, hfs, get_sortKeys hnd, ← hfs, h]

theorem digest_ok : c.digest.length = 32 ∧ c.digest.all isHexDigit = true := by
  have hhex := E.hex c.keyBytes
  rw [isSha256Hex, Bool.and_eq_true, beq_iff_eq] at hhex
  refine ⟨by rw [digest, digestOf, List.length_take, hhex.1]; rfl, ?_⟩
  rw [List.all_eq_true] at hhex ⊢
  exact fun u hu => hhex.2 u (List.mem_of_mem_take hu)

theorem filename : incidentFilename (c.digest ++ js ".json") = some c.digest := by
  obtain ⟨hlen, hhex⟩ := c.digest_ok
  rw [incidentFilename, List.take_left' hlen, List.drop_left' hlen, if_pos ⟨hlen, hhex, rfl⟩]

theorem parse_marker : Json.parse E.float (bytesToString c.marker) = some c.record := by
  have hline : stableJsonLine c.toJson = stableJsonLine c.record := by
    rw [stableJsonLine, stableJsonLine, record, stableStringify_sortKeys c.wellFormed]
  rw [marker, hline]
  exact (sortKeys_written c.wellFormed).read_line

/-- **A whole marker** is accepted. -/
theorem parseIncident_marker : parseIncident E (bytesToString c.marker) c.provider.text = some c.record := by
  have hget : ∀ {k : String} {v : Option Json}, (k, v) ∈
      [("detail", c.content), ("event", c.event.map .str), ("kind", some (.str (js c.kind.text))),
        ("occurred_at", some (.str c.occurredAt)), ("provider", some (.str c.provider.text)),
        ("schema", some (.str incidentSchema)), ("workstream_id", c.workstreamId.map Json.str)] →
      c.record.get (js k) = v.map sortKeys := fun h => c.get_record (get_objectOf h ordered)
  have hschema := hget (k := "schema") (v := some (.str incidentSchema)) (by simp)
  have hprovider := hget (k := "provider") (v := some (.str c.provider.text)) (by simp)
  have hkind := hget (k := "kind") (v := some (.str (js c.kind.text))) (by simp)
  have hoccurred := hget (k := "occurred_at") (v := some (.str c.occurredAt)) (by simp)
  have hevent := hget (k := "event") (v := c.event.map .str) (by simp)
  have hworkstream := hget (k := "workstream_id") (v := c.workstreamId.map .str) (by simp)
  simp only [Option.map_some, sortKeys] at hschema hprovider hkind hoccurred
  have hobject : isObject (some c.record) = true := by
    obtain ⟨fs, hfs, -⟩ := @keys_objectOf [("detail", c.content), ("event", c.event.map .str),
      ("kind", some (.str (js c.kind.text))), ("occurred_at", some (.str c.occurredAt)),
      ("provider", some (.str c.provider.text)), ("schema", some (.str incidentSchema)),
      ("workstream_id", c.workstreamId.map .str)]
    rw [record, toJson, hfs, sortKeys]
    rfl
  have hknown : incidentKinds.any (fun k => equalsText (js k) (some (.str (js c.kind.text)))) = true := by
    cases c.kind <;> decide
  have hdate : isPattern (fun s => (E.dateParse s).isSome) (some (.str c.occurredAt)) = true := by
    have hiso : E.isoString c.now = some c.occurredAt := (Option.some_get c.dated).symm
    rw [isPattern, (E.isoString_parse _ _ hiso).1]
    rfl
  have hstring : isOptional isString ((c.event.map Json.str).map sortKeys) = true := by
    cases c.event <;> rfl
  have hjoined : isOptional (isPattern isWorkstreamId) ((c.workstreamId.map Json.str).map sortKeys) = true := by
    cases hw : c.workstreamId with
    | none => rfl
    | some w => exact c.joined w hw
  have hsame : ∀ s : JsString, equalsText s (some (.str s)) = true := fun s => by simp [equalsText]
  simp only [parseIncident, c.parse_marker, hobject, hschema, hprovider, hkind, hoccurred, hevent, hworkstream, hknown,
    hdate, hstring, hjoined, hsame, Bool.and_self, if_true]

/-- The file of a whole marker. -/
def file : MarkerFile := ⟨c.path.1, c.path.2, c.marker⟩

theorem readMarker_file (h : c.marker.length ≤ maxIncidentBytes) :
    readMarker E c.file = some ⟨c.digest, c.record⟩ := by
  have hname : c.file.name = c.digest ++ js ".json" := rfl
  have hbytes : c.file.bytes = c.marker := rfl
  have hprovider : c.file.provider = c.provider := rfl
  rw [readMarker, hname, c.filename]
  simp only [hbytes, hprovider, if_pos h, c.parseIncident_marker, Option.map_some]

end IncidentCall

/-- What is read of a file is named as the file is. -/
theorem readMarker_id {f : MarkerFile} {r : IncidentRecord} (h : readMarker E f = some r) :
    f.name = r.incidentId ++ js ".json" ∧ equalsText f.provider.text (r.incident.get (js "provider")) = true := by
  rw [readMarker] at h
  split at h
  · cases h
  next id hid =>
  split at h
  swap
  · cases h
  obtain ⟨v, hv, rfl⟩ := Option.map_eq_some_iff.1 h
  rw [incidentFilename] at hid
  split at hid
  swap
  · cases hid
  next hname =>
  cases hid
  rw [parseIncident] at hv
  split at hv
  · cases hv
  split at hv
  swap
  · cases hv
  next hchecks =>
  cases hv
  simp only [Bool.and_eq_true] at hchecks
  refine ⟨?_, hchecks.1.1.1.1.2⟩
  rw [← hname.2.2, List.take_append_drop]

/-! ## Listings -/

/-- A marker, if it is that of a call. -/
def recordOfFile (call : IncidentCall E) (f : MarkerFile) : Option IncidentRecord :=
  (readMarker E f).filter
    (fun r => r.incidentId == call.digest && equalsText call.provider.text (r.incident.get (js "provider")))

theorem listIncidents_perm (files : List MarkerFile) :
    (listIncidents E true files).Perm (files.filterMap (readMarker E)) := by
  have hmarkers : ∀ p, ((markersOf files p).filterMap (readMarker E)).Perm
      ((files.filter (fun f => f.provider = p)).filterMap (readMarker E)) :=
    fun p => (List.mergeSort_perm _ _).filterMap _
  have hother : files.filter (fun f => f.provider = .codex) = files.filter (fun f => !decide (f.provider = .claude)) := by
    refine List.filter_congr fun f _ => ?_
    cases f.provider <;> rfl
  rw [listIncidents, if_pos rfl, List.flatMap_cons, List.flatMap_cons, List.flatMap_nil, List.append_nil]
  refine ((hmarkers .claude).append (hmarkers .codex)).trans ?_
  rw [← List.filterMap_append, hother]
  exact (List.filter_append_perm _ _).filterMap _

theorem recordsFor_perm {s : IncidentState E} (hexists : s.storeExists = true) (call : IncidentCall E) :
    (s.recordsFor call).Perm (s.files.filterMap (recordOfFile call)) := by
  rw [IncidentState.recordsFor, hexists]
  refine ((listIncidents_perm s.files).filter _).trans (List.Perm.of_eq ?_)
  rw [List.filter_filterMap]
  rfl

/-- Only the file at a call's path counts for the call. -/
theorem recordOfFile_path {call : IncidentCall E} {f : MarkerFile} {r : IncidentRecord}
    (h : recordOfFile call f = some r) : f.path = call.path := by
  obtain ⟨hread, hsame⟩ := Option.filter_eq_some_iff.1 h
  obtain ⟨hname, hprovider⟩ := readMarker_id hread
  simp only [Bool.and_eq_true, beq_iff_eq] at hsame
  have hproviders : f.provider = call.provider := by
    have htexts : f.provider.text = call.provider.text := by
      obtain ⟨-, hcall⟩ := hsame
      unfold equalsText at hprovider hcall
      split at hprovider
      · next t ht =>
        rw [ht] at hcall
        exact (beq_iff_eq.1 hprovider).symm.trans (beq_iff_eq.1 hcall)
      · cases hprovider
    cases hf : f.provider <;> cases hc : call.provider <;> rw [hf, hc] at htexts <;>
      simp [ParticipatingProvider.text] at htexts ⊢
  rw [MarkerFile.path, IncidentCall.path, hname, hproviders, hsame.1]

/-- **A whole marker is listed**, once. -/
theorem recordsFor_whole {s : IncidentState E} (hexists : s.storeExists = true)
    (hnodup : (s.files.map MarkerFile.path).Nodup) {c call : IncidentCall E} (hpath : c.path = call.path)
    (hfile : c.file ∈ s.files) (hfits : c.marker.length ≤ maxIncidentBytes) :
    s.recordsFor call = [⟨call.digest, c.record⟩] := by
  have hdigest : c.digest = call.digest := List.append_cancel_right (Prod.ext_iff.1 hpath).2
  have hprovider : c.provider = call.provider := (Prod.ext_iff.1 hpath).1
  have hread := c.readMarker_file hfits
  have hself : recordOfFile call c.file = some ⟨call.digest, c.record⟩ := by
    have hmarker := (readMarker_id hread).2
    have hfile : c.file.provider = call.provider := hprovider
    rw [hfile] at hmarker
    rw [recordOfFile, hread, Option.filter_some, hdigest]
    simp only [beq_self_eq_true, Bool.true_and]
    rw [if_pos hmarker]
  obtain ⟨before, after, hsplit⟩ := List.append_of_mem hfile
  rw [hsplit, List.map_append, List.map_cons] at hnodup
  have hbefore : before.filterMap (recordOfFile call) = [] := by
    refine List.filterMap_eq_nil_iff.2 fun f hf => ?_
    by_contra hne
    obtain ⟨r, hr⟩ := Option.ne_none_iff_exists'.1 hne
    exact (List.nodup_append.1 hnodup).2.2 _ (List.mem_map_of_mem hf) c.file.path (by simp)
      ((recordOfFile_path hr).trans hpath.symm)
  have hafter : after.filterMap (recordOfFile call) = [] := by
    refine List.filterMap_eq_nil_iff.2 fun f hf => ?_
    by_contra hne
    obtain ⟨r, hr⟩ := Option.ne_none_iff_exists'.1 hne
    have hmem : c.file.path ∈ after.map MarkerFile.path :=
      List.mem_map.2 ⟨f, hf, (recordOfFile_path hr).trans hpath.symm⟩
    exact (List.nodup_cons.1 (List.nodup_append.1 hnodup).2.1).1 hmem
  have hall := recordsFor_perm hexists call
  rw [hsplit, List.filterMap_append, List.filterMap_cons, hself, hbefore, hafter] at hall
  exact List.perm_singleton.1 hall

/-! ## Steps -/

/-- A call's file, once it has created it. -/
def IncidentProcess.file (p : IncidentProcess E) : Option MarkerFile :=
  p.written.map (fun w => ⟨p.call.path.1, p.call.path.2, p.call.marker.take w⟩)

/-- What a call has written only grows. -/
structure Grows (p p' : IncidentProcess E) : Prop where
  call : p'.call = p.call
  /-- A whole marker stays as it is. -/
  whole : p.written = some p.call.marker.length → p'.written = p.written

/-- What holds of the files in every state. -/
structure Consistent (s : IncidentState E) : Prop where
  files : s.files.Perm (s.processes.filterMap IncidentProcess.file)
  nodup : (s.files.map MarkerFile.path).Nodup

theorem split_at {α : Type} {l : List α} {i : ℕ} {x : α} (h : l[i]? = some x) :
    ∃ before after, l = before ++ x :: after ∧ ∀ y, l.set i y = before ++ y :: after := by
  obtain ⟨hi, rfl⟩ := List.getElem?_eq_some_iff.1 h
  refine ⟨l.take i, l.drop (i + 1), ?_, fun y => List.set_eq_take_append_cons_drop.trans (if_pos hi)⟩
  rw [← List.drop_eq_getElem_cons hi, List.take_append_drop]

/-- A step of one process leaves the others. -/
theorem at_cases {s s' : IncidentState E} {i : ℕ}
    {f : IncidentProcess E → List MarkerFile → Option (IncidentProcess E × List MarkerFile)} (h : s.at i f = some s') :
    ∃ before p p' after files', s.processes[i]? = some p ∧ s.processes = before ++ p :: after ∧
      f p s.files = some (p', files') ∧
      s' = { s with files := files', processes := before ++ p' :: after } := by
  rw [IncidentState.at] at h
  split at h
  swap
  · cases h
  next p hp =>
  obtain ⟨⟨p', files'⟩, hf, rfl⟩ := Option.map_eq_some_iff.1 h
  obtain ⟨before, after, hsplit, hset⟩ := split_at hp
  exact ⟨before, p, p', after, files', hp, hsplit, hf, by rw [hset]⟩

/-- The files of the calls are at different paths. -/
theorem Consistent.split {s : IncidentState E} (h : Consistent s) {before after : List (IncidentProcess E)}
    {p : IncidentProcess E} {f : MarkerFile} (hsplit : s.processes = before ++ p :: after) (hf : p.file = some f) :
    s.files.Perm (before.filterMap IncidentProcess.file ++ f :: after.filterMap IncidentProcess.file) ∧
      (∀ g ∈ before.filterMap IncidentProcess.file, g.path ≠ f.path) ∧
      ∀ g ∈ after.filterMap IncidentProcess.file, g.path ≠ f.path := by
  have hperm := h.files
  rw [hsplit, List.filterMap_append, List.filterMap_cons, hf] at hperm
  have hnodup := ((hperm.map MarkerFile.path).nodup_iff).1 h.nodup
  rw [List.map_append, List.map_cons] at hnodup
  obtain ⟨-, hcons, hcross⟩ := List.nodup_append.1 hnodup
  refine ⟨hperm, fun g hg => hcross _ (List.mem_map_of_mem hg) _ (by simp), fun g hg heq => ?_⟩
  exact (List.nodup_cons.1 hcons).1 (heq ▸ List.mem_map_of_mem hg)

/-- More bytes of one file are more bytes of no other. -/
theorem map_append_other {files : List MarkerFile} {path : ParticipatingProvider × JsString} {more : Bytes}
    (h : ∀ g ∈ files, g.path ≠ path) : files.map (MarkerFile.append path more) = files := by
  refine (List.map_congr_left fun g hg => ?_).trans (List.map_id _)
  rw [MarkerFile.append, if_neg (h g hg)]
  rfl

theorem append_path (path : ParticipatingProvider × JsString) (more : Bytes) (f : MarkerFile) :
    (f.append path more).path = f.path := by
  rw [MarkerFile.append]
  split <;> rfl

section
variable {s s' : IncidentState E} {before after : List (IncidentProcess E)} {p p' : IncidentProcess E}
  {files' : List MarkerFile}

/-- A step that leaves the files, and what the call has written. -/
theorem Consistent.same (h : Consistent s) (hsplit : s.processes = before ++ p :: after)
    (hcall : p'.call = p.call) (hwritten : p'.written = p.written) :
    Consistent { s with processes := before ++ p' :: after } := by
  refine ⟨?_, h.nodup⟩
  have hfile : p'.file = p.file := by rw [IncidentProcess.file, IncidentProcess.file, hcall, hwritten]
  have hperm := h.files
  rw [hsplit, List.filterMap_append, List.filterMap_cons] at hperm
  rw [List.filterMap_append, List.filterMap_cons, hfile]
  exact hperm

/-- **`open`** ends the call where the file is there, and creates it otherwise. -/
theorem Consistent.create (h : Consistent s) (hsplit : s.processes = before ++ p :: after)
    (hstep : p.create s.files = some (p', files')) :
    Consistent { s with files := files', processes := before ++ p' :: after } ∧ Grows p p' ∧
      (p'.status = .ended → ∃ f ∈ s.files, f.path = p.call.path) := by
  rw [IncidentProcess.create] at hstep
  split at hstep
  swap
  · cases hstep
  next hfirst =>
  split at hstep
  · next hthere =>
    cases hstep
    rw [List.any_eq_true] at hthere
    obtain ⟨f, hf, hpath⟩ := hthere
    exact ⟨h.same hsplit rfl rfl, ⟨rfl, fun _ => rfl⟩, fun _ => ⟨f, hf, of_decide_eq_true hpath⟩⟩
  · next hthere =>
    cases hstep
    refine ⟨⟨?_, ?_⟩, ⟨rfl, fun hwhole => ?_⟩, fun hended => ?_⟩
    · have hperm := h.files
      have hnone : p.file = none := by rw [IncidentProcess.file, hfirst.2]; rfl
      rw [hsplit, List.filterMap_append, List.filterMap_cons, hnone] at hperm
      have hnew : ({ p with written := some 0 } : IncidentProcess E).file =
          some ⟨p.call.path.1, p.call.path.2, []⟩ := rfl
      rw [List.filterMap_append, List.filterMap_cons, hnew]
      exact (hperm.append_right _).trans ((List.perm_append_singleton _ _).trans List.perm_middle.symm)
    · rw [List.map_append, List.nodup_append]
      refine ⟨h.nodup, by simp, fun path hpath path' hpath' heq => hthere ?_⟩
      rw [List.map_singleton, List.mem_singleton] at hpath'
      obtain ⟨f, hf, rfl⟩ := List.mem_map.1 hpath
      exact List.any_eq_true.2 ⟨f, hf, decide_eq_true (heq.trans hpath')⟩
    · rw [hfirst.2] at hwhole
      cases hwhole
    · exact absurd (hfirst.1.symm.trans hended) (by decide)

/-- **A write** puts the next bytes into the call's own file. -/
theorem Consistent.write (h : Consistent s) {n : ℕ} (hsplit : s.processes = before ++ p :: after)
    (hstep : p.write n s.files = some (p', files')) :
    Consistent { s with files := files', processes := before ++ p' :: after } ∧ Grows p p' ∧
      p'.status = .running := by
  rw [IncidentProcess.write] at hstep
  split at hstep
  swap
  · cases hstep
  next w hw =>
  split at hstep
  swap
  · cases hstep
  next hroom =>
  cases hstep
  refine ⟨⟨?_, ?_⟩, ⟨rfl, fun hwhole => ?_⟩, hroom.1⟩
  · have hold : p.file = some ⟨p.call.path.1, p.call.path.2, p.call.marker.take w⟩ := by
      rw [IncidentProcess.file, hw]
      rfl
    have hnew : ({ p with written := some (w + n) } : IncidentProcess E).file =
        some ⟨p.call.path.1, p.call.path.2, p.call.marker.take (w + n)⟩ := rfl
    obtain ⟨hperm, hbefore, hafter⟩ := h.split hsplit hold
    have hmore := hperm.map (MarkerFile.append p.call.path ((p.call.marker.drop w).take n))
    have hown : MarkerFile.append p.call.path ((p.call.marker.drop w).take n)
        ⟨p.call.path.1, p.call.path.2, p.call.marker.take w⟩ =
          ⟨p.call.path.1, p.call.path.2, p.call.marker.take (w + n)⟩ := by
      have hpath : (⟨p.call.path.1, p.call.path.2, p.call.marker.take w⟩ : MarkerFile).path = p.call.path := rfl
      rw [MarkerFile.append, if_pos hpath, List.take_add]
    rw [List.map_append, List.map_cons, hown, @map_append_other _ p.call.path _ hbefore,
      @map_append_other _ p.call.path _ hafter] at hmore
    rw [List.filterMap_append, List.filterMap_cons, hnew]
    exact hmore
  · have hpaths : (s.files.map (MarkerFile.append p.call.path ((p.call.marker.drop w).take n))).map MarkerFile.path =
        s.files.map MarkerFile.path := by
      rw [List.map_map]
      exact List.map_congr_left fun f _ => append_path _ _ f
    rw [hpaths]
    exact h.nodup
  · rw [hw, Option.some.injEq] at hwhole
    omega

end

/-! ## Runs -/

/-- A call's marker has been written to its end. -/
def Whole (s : IncidentState E) (c : IncidentCall E) : Prop :=
  ∃ p ∈ s.processes, p.call = c ∧ p.written = some c.marker.length

/-- The condition on a step: a call does not find a marker that its maker has not written to
the end; a marker is not larger than its reader's bound; different conditions have different
texts. -/
def Orderly (s : IncidentState E) : IncidentStep E → Prop
  | .start call => call.marker.length ≤ maxIncidentBytes ∧
      ∀ p ∈ s.processes, p.call.keyBytes = call.keyBytes → p.call.condition = call.condition
  | .create i => ∀ p, s.processes[i]? = some p → ∀ q ∈ s.processes, q.call.path = p.call.path →
      ∀ w, q.written = some w → w = q.call.marker.length
  | _ => True

/-- What holds of every state of an orderly run. -/
structure Reporting (s : IncidentState E) : Prop extends Consistent s where
  fits : ∀ p ∈ s.processes, p.call.marker.length ≤ maxIncidentBytes
  apart : ∀ p ∈ s.processes, ∀ q ∈ s.processes, p.call.keyBytes = q.call.keyBytes → p.call.condition = q.call.condition
  ended : ∀ p ∈ s.processes, p.status = .ended → ∃ c, Whole s c ∧ c.path = p.call.path

/-- **A step** of a call, and what it leaves of the others. -/
theorem step_cases {s s' : IncidentState E} {a : IncidentStep E} (h : Consistent s) (hstep : s.step a = some s') :
    s'.storeExists = s.storeExists ∧ Consistent s' ∧
      ((∃ call, a = .start call ∧ s'.processes =
          s.processes ++ [{ call, status := if s.storeExists then .running else .ended }]) ∨
        ∃ before p p' after, s.processes = before ++ p :: after ∧ s'.processes = before ++ p' :: after ∧ Grows p p' ∧
          (p'.status = .ended → p'.written = some p.call.marker.length ∨
            ∃ i, a = .create i ∧ s.processes[i]? = some p ∧ ∃ f ∈ s.files, f.path = p.call.path)) := by
  cases a with
  | start call =>
    cases hstep
    refine ⟨rfl, ⟨?_, h.nodup⟩, Or.inl ⟨call, rfl, rfl⟩⟩
    have hnone : ∀ status, IncidentProcess.file ({ call, status } : IncidentProcess E) = none := fun _ => rfl
    rw [List.filterMap_append, List.filterMap_cons, hnone, List.filterMap_nil, List.append_nil]
    exact h.files
  | create i =>
    obtain ⟨before, p, p', after, files', hi, hsplit, hcreate, rfl⟩ := at_cases hstep
    obtain ⟨hok, hgrows, hended⟩ := h.create hsplit hcreate
    exact ⟨rfl, hok, Or.inr ⟨before, p, p', after, hsplit, rfl, hgrows, fun hp => Or.inr ⟨i, rfl, hi, hended hp⟩⟩⟩
  | write i n =>
    obtain ⟨before, p, p', after, files', -, hsplit, hwrite, rfl⟩ := at_cases hstep
    obtain ⟨hok, hgrows, hrunning⟩ := h.write hsplit hwrite
    exact ⟨rfl, hok, Or.inr ⟨before, p, p', after, hsplit, rfl, hgrows, fun hp =>
      absurd (hrunning.symm.trans hp) (by decide)⟩⟩
  | close i =>
    obtain ⟨before, p, p', after, files', -, hsplit, hclose, rfl⟩ := at_cases hstep
    rw [IncidentProcess.close] at hclose
    split at hclose
    swap
    · cases hclose
    next hall =>
    cases hclose
    exact ⟨rfl, h.same hsplit rfl rfl, Or.inr ⟨before, p, _, after, hsplit, rfl, ⟨rfl, fun _ => rfl⟩, fun _ =>
      Or.inl hall.2⟩⟩
  | crash i =>
    obtain ⟨before, p, p', after, files', -, hsplit, hcrash, rfl⟩ := at_cases hstep
    rw [IncidentProcess.crash] at hcrash
    split at hcrash
    swap
    · cases hcrash
    cases hcrash
    exact ⟨rfl, h.same hsplit rfl rfl, Or.inr ⟨before, p, _, after, hsplit, rfl, ⟨rfl, fun _ => rfl⟩, fun hp =>
      CallStatus.noConfusion hp⟩⟩

/-- A marker that is whole stays so. -/
theorem Whole.step {s s' : IncidentState E} {a : IncidentStep E} {c : IncidentCall E} (hs : Consistent s)
    (hstep : s.step a = some s') (h : Whole s c) : Whole s' c := by
  obtain ⟨q, hq, rfl, hwritten⟩ := h
  obtain ⟨-, -, ⟨call, -, hproc⟩ | ⟨before, p, p', after, hsplit, hproc, hgrows, -⟩⟩ := step_cases hs hstep
  · exact ⟨q, by rw [hproc]; exact List.mem_append_left _ hq, rfl, hwritten⟩
  · rw [hsplit, List.mem_append, List.mem_cons] at hq
    rcases hq with hq | rfl | hq
    · exact ⟨q, by rw [hproc]; simp [hq], rfl, hwritten⟩
    · exact ⟨p', by rw [hproc]; simp, hgrows.call, (hgrows.whole hwritten).trans hwritten⟩
    · exact ⟨q, by rw [hproc]; simp [hq], rfl, hwritten⟩

theorem Whole.file {s : IncidentState E} {c : IncidentCall E} (hs : Consistent s) (h : Whole s c) :
    c.file ∈ s.files := by
  obtain ⟨p, hp, rfl, hwritten⟩ := h
  refine hs.files.symm.subset (List.mem_filterMap.2 ⟨p, hp, ?_⟩)
  rw [IncidentProcess.file, hwritten, Option.map_some, List.take_length]
  rfl

/-- **What an orderly step keeps.** -/
theorem Reporting.step {s s' : IncidentState E} {a : IncidentStep E} (h : Reporting s) (hexists : s.storeExists = true)
    (hstep : s.step a = some s') (horderly : Orderly s a) : Reporting s' := by
  have hwhole : ∀ {c}, Whole s c → Whole s' c := fun hc => hc.step h.toConsistent hstep
  obtain ⟨-, hok, ⟨call, rfl, hproc⟩ | ⟨before, p, p', after, hsplit, hproc, hgrows, hended⟩⟩ :=
    step_cases h.toConsistent hstep
  · have hmem : ∀ q ∈ s'.processes, q ∈ s.processes ∨ q = { call, status := .running } := by
      intro q hq
      rw [hproc, hexists, if_pos rfl] at hq
      simpa using hq
    refine ⟨hok, fun q hq => ?_, fun q hq r hr hkeys => ?_, fun q hq hqe => ?_⟩
    · rcases hmem q hq with hold | rfl
      · exact h.fits q hold
      · exact horderly.1
    · rcases hmem q hq with hq | rfl <;> rcases hmem r hr with hr | rfl
      · exact h.apart q hq r hr hkeys
      · exact horderly.2 q hq hkeys
      · exact (horderly.2 r hr hkeys.symm).symm
      · rfl
    · rcases hmem q hq with hold | rfl
      · obtain ⟨c, hc, hpath⟩ := h.ended q hold hqe
        exact ⟨c, hwhole hc, hpath⟩
      · cases hqe
  · -- the calls are the ones there were
    have hp : p ∈ s.processes := by rw [hsplit]; simp
    have hmem : ∀ q ∈ s'.processes, (q ∈ s.processes ∨ q = p') ∧ ∃ r ∈ s.processes, r.call = q.call := by
      intro q hq
      rw [hproc, List.mem_append, List.mem_cons] at hq
      rcases hq with hq | rfl | hq
      · exact ⟨Or.inl (by rw [hsplit]; simp [hq]), q, by rw [hsplit]; simp [hq], rfl⟩
      · exact ⟨Or.inr rfl, p, hp, hgrows.call.symm⟩
      · exact ⟨Or.inl (by rw [hsplit]; simp [hq]), q, by rw [hsplit]; simp [hq], rfl⟩
    refine ⟨hok, fun q hq => ?_, fun q hq r hr hkeys => ?_, fun q hq hqe => ?_⟩
    · obtain ⟨-, o, ho, hcall⟩ := hmem q hq
      exact hcall ▸ h.fits o ho
    · obtain ⟨-, o, ho, hqcall⟩ := hmem q hq
      obtain ⟨-, o', ho', hrcall⟩ := hmem r hr
      rw [← hqcall, ← hrcall] at hkeys ⊢
      exact h.apart o ho o' ho' hkeys
    · rcases (hmem q hq).1 with hold | rfl
      · obtain ⟨c, hc, hpath⟩ := h.ended q hold hqe
        exact ⟨c, hwhole hc, hpath⟩
      · rw [hgrows.call]
        rcases hended hqe with hall | ⟨i, rfl, hi, f, hf, hpath⟩
        · exact ⟨p.call, ⟨q, by rw [hproc]; simp, hgrows.call, hall⟩, rfl⟩
        · -- the file found is that of a call which has written all of it
          obtain ⟨r, hr, hfile⟩ := List.mem_filterMap.1 (h.files.subset hf)
          obtain ⟨w, hw, rfl⟩ := Option.map_eq_some_iff.1 hfile
          have hlen := horderly p hi r hr hpath w hw
          exact ⟨r.call, hwhole ⟨r, hr, rfl, by rw [hw, hlen]⟩, hpath⟩

/-- Every step of a run meets the condition, in the state before it. -/
def OrderlyRun (s : IncidentState E) (steps : List (IncidentStep E)) : Prop :=
  ∀ before a after, steps = before ++ a :: after → ∀ t, s.run before = some t → Orderly t a

theorem orderlyRun_cons {s : IncidentState E} {a : IncidentStep E} {steps : List (IncidentStep E)} :
    OrderlyRun s (a :: steps) ↔ Orderly s a ∧ ∀ t, s.step a = some t → OrderlyRun t steps := by
  constructor
  · intro h
    refine ⟨h [] a steps rfl s rfl, fun t hstep before b after hsplit t' ht' => ?_⟩
    refine h (a :: before) b after (by rw [hsplit, List.cons_append]) t' ?_
    rw [IncidentState.run, hstep]
    exact ht'
  · rintro ⟨hfirst, hrest⟩ before b after hsplit t ht
    cases before with
    | nil =>
      cases hsplit
      cases ht
      exact hfirst
    | cons c before =>
      rw [List.cons_append, List.cons.injEq] at hsplit
      obtain ⟨rfl, hsplit⟩ := hsplit
      rw [IncidentState.run] at ht
      split at ht
      · next t' hstep => exact hrest t' hstep before b after hsplit t ht
      · cases ht

theorem Reporting.run {s s' : IncidentState E} {steps : List (IncidentStep E)} (h : Reporting s)
    (hexists : s.storeExists = true) (hrun : s.run steps = some s') (horderly : OrderlyRun s steps) :
    Reporting s' ∧ s'.storeExists = true := by
  induction steps generalizing s with
  | nil =>
    cases hrun
    exact ⟨h, hexists⟩
  | cons a steps ih =>
    rw [IncidentState.run] at hrun
    split at hrun
    swap
    · cases hrun
    next t hstep =>
    obtain ⟨hfirst, hrest⟩ := orderlyRun_cons.1 horderly
    exact ih (h.step hexists hstep hfirst) ((step_cases h.toConsistent hstep).1.trans hexists) hrun (hrest t hstep)

/-- Whatever comes later, a whole marker is the one record of its path. -/
theorem Whole.listed {s s' : IncidentState E} {steps : List (IncidentStep E)} {c call : IncidentCall E}
    (hs : Consistent s) (hexists : s.storeExists = true) (hc : Whole s c) (hfits : c.marker.length ≤ maxIncidentBytes)
    (hpath : c.path = call.path) (hrun : s.run steps = some s') : s'.recordsFor call = [⟨call.digest, c.record⟩] := by
  induction steps generalizing s with
  | nil =>
    cases hrun
    exact recordsFor_whole hexists hs.nodup hpath (hc.file hs) hfits
  | cons a steps ih =>
    rw [IncidentState.run] at hrun
    split at hrun
    swap
    · cases hrun
    next t hstep =>
    obtain ⟨hkept, hok, -⟩ := step_cases hs hstep
    exact ih hok (hkept.trans hexists) (hc.step hs hstep) hrun

/-- Two texts with one digest. -/
def Collision (E : Host) (keyBytes keyBytes' : Bytes) : Prop :=
  keyBytes ≠ keyBytes' ∧ digestOf E keyBytes = digestOf E keyBytes'

/-- `listIncidents` has one record of a call's condition, now and ever after. -/
def Reported (s : IncidentState E) (call : IncidentCall E) : Prop :=
  ∃ c : IncidentCall E, (c.condition = call.condition ∨ Collision E c.keyBytes call.keyBytes) ∧
    ∀ steps s', s.run steps = some s' → s'.recordsFor call = [⟨call.digest, c.record⟩]

theorem Reporting.shared {s : IncidentState E} (h : Reporting s) {p q : IncidentProcess E} (hp : p ∈ s.processes)
    (hq : q ∈ s.processes) (hpath : p.call.path = q.call.path) :
    p.call.condition = q.call.condition ∨ Collision E p.call.keyBytes q.call.keyBytes := by
  by_cases hkeys : p.call.keyBytes = q.call.keyBytes
  · exact Or.inl (h.apart p hp q hq hkeys)
  · exact Or.inr ⟨hkeys, List.append_cancel_right (Prod.ext_iff.1 hpath).2⟩

/-- **In an orderly run every condition of a call that has ended is reported**, once and for
all, and conditions share a marker only by a collision of digests. -/
theorem incident_reported {steps : List (IncidentStep E)} {s : IncidentState E}
    (hrun : ({ storeExists := true } : IncidentState E).run steps = some s)
    (horderly : OrderlyRun { storeExists := true } steps) :
    (∀ p ∈ s.processes, p.status = .ended → Reported s p.call) ∧
      ∀ p ∈ s.processes, ∀ q ∈ s.processes, p.call.path = q.call.path →
        p.call.condition = q.call.condition ∨ Collision E p.call.keyBytes q.call.keyBytes := by
  have hfirst : Reporting ({ storeExists := true } : IncidentState E) :=
    ⟨⟨List.Perm.refl _, List.nodup_nil⟩, by simp, by simp, by simp⟩
  obtain ⟨h, hexists⟩ := hfirst.run rfl hrun horderly
  refine ⟨fun p hp hended => ?_, fun p hp q hq => h.shared hp hq⟩
  obtain ⟨c, hc, hpath⟩ := h.ended p hp hended
  obtain ⟨q, hq, rfl, -⟩ := id hc
  exact ⟨q.call, h.shared hq hp hpath, fun steps s' hmore =>
    hc.listed h.toConsistent hexists (h.fits q hq) hpath hmore⟩

/-! ## A torn marker -/

/-- A call creates its marker and crashes; the next call for the condition runs to its end. -/
def tornSteps (c : IncidentCall E) : List (IncidentStep E) :=
  [.start c, .create 0, .crash 0, .start c, .create 1]

def tornState (c : IncidentCall E) : IncidentState E where
  storeExists := true
  files := [⟨c.path.1, c.path.2, []⟩]
  processes := [⟨c, .crashed, some 0⟩, ⟨c, .ended, none⟩]

theorem run_tornSteps (c : IncidentCall E) :
    ({ storeExists := true } : IncidentState E).run (tornSteps c) = some (tornState c) := by
  simp [tornSteps, tornState, IncidentState.run, IncidentState.step, IncidentState.at, IncidentProcess.create,
    IncidentProcess.crash, MarkerFile.path]

/-- **A torn marker** silences its condition. -/
theorem tornState_silent (c : IncidentCall E) : (tornState c).recordsFor c = [] := by
  have hparse : Json.parse E.float (bytesToString []) = none := rfl
  have hread : readMarker E ⟨c.path.1, c.path.2, []⟩ = none := by
    rw [readMarker]
    split
    · rfl
    · simp only [parseIncident, hparse, Option.map_none, ite_self]
  have hperm := @recordsFor_perm E (tornState c) rfl c
  rw [tornState, List.filterMap_cons, recordOfFile, hread] at hperm
  exact List.perm_nil.1 hperm

def incidentHost : Host := Host.ofTables [] [(0, js "1970-01-01T00:00:00.000Z")] epochDate_ok

/-- A hook of a session that never joined. -/
def dormantCall : IncidentCall incidentHost where
  provider := .claude
  kind := .sessionDormant
  event := some (js "SessionStart")
  dedupKey := some (js "s")
  now := 0
  joined := by simp
  dated := by decide
  countable := by simp

/-- A call that runs to its end alone. -/
def wholeSteps (c : IncidentCall E) : List (IncidentStep E) :=
  [.start c, .create 0, .write 0 c.marker.length, .close 0]

def wholeState (c : IncidentCall E) : IncidentState E where
  storeExists := true
  files := [c.file]
  processes := [⟨c, .ended, some c.marker.length⟩]

theorem run_wholeSteps (c : IncidentCall E) :
    ({ storeExists := true } : IncidentState E).run (wholeSteps c) = some (wholeState c) := by
  have hpos : 0 < c.marker.length := by
    have hsome : c.marker ≠ [] := by
      intro hnil
      have hparse := c.parse_marker
      rw [hnil] at hparse
      cases hparse
    exact List.length_pos_iff.2 hsome
  simp [wholeSteps, wholeState, IncidentState.run, IncidentState.step, IncidentState.at, IncidentProcess.create,
    IncidentProcess.write, IncidentProcess.close, MarkerFile.path, MarkerFile.append, IncidentCall.file, hpos]

theorem orderly_wholeSteps {c : IncidentCall E} (h : c.marker.length ≤ maxIncidentBytes) :
    OrderlyRun { storeExists := true } (wholeSteps c) := by
  refine orderlyRun_cons.2 ⟨⟨h, by simp⟩, fun t ht => ?_⟩
  cases ht
  refine orderlyRun_cons.2 ⟨fun p hp q hq _ w hw => ?_, fun t _ => ?_⟩
  · simp only [List.nil_append, List.mem_singleton] at hq
    rw [hq] at hw
    cases hw
  · exact orderlyRun_cons.2 ⟨trivial, fun t _ => orderlyRun_cons.2 ⟨trivial, fun t _ before a after hsplit => by
      simp at hsplit⟩⟩

set_option maxRecDepth 4000 in
theorem dormantCall_reported : Reported (wholeState dormantCall) dormantCall :=
  (incident_reported (run_wholeSteps dormantCall) (orderly_wholeSteps (by decide))).1 _ (List.mem_singleton_self _) rfl

/-- The second hook of a dormant session has ended, and nothing is reported. -/
theorem torn_marker_unreported : ∃ s, ({ storeExists := true } : IncidentState incidentHost).run
      (tornSteps dormantCall) = some s ∧
    ∃ p ∈ s.processes, p.status = .ended ∧ p.call = dormantCall ∧ ¬ Reported s p.call := by
  refine ⟨tornState dormantCall, run_tornSteps dormantCall, ⟨dormantCall, .ended, none⟩, by simp [tornState], rfl, rfl,
    ?_⟩
  rintro ⟨c, -, hlisted⟩
  have hrecords := hlisted [] _ rfl
  rw [tornState_silent] at hrecords
  cases hrecords

end Barbaro.Incidents
