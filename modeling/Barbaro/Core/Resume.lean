import Barbaro.Core.JsonlReader

/-!
# Resuming a growing file

A reader consumes a file in a sequence of reads. Each read resolves the checkpoint
the one before it created, starts where the resolution says, and creates the next
checkpoint from its summary. Between and during the reads the file only grows.

* `Reading`: the sequences of reads, with what they yielded.
* `Reading.consistent`: after any such sequence the lines yielded so far are the
  complete lines of the bytes delivered so far, placed from line 1 and offset 0,
  and the checkpoint is the one a single read would have created.
* `reading_exactly_once`: no resolution ever resets, and one read of the final file
  yields the same lines and leaves the same checkpoint.
-/

namespace Barbaro

section
variable {α : Type} (parse : JsString → Except JsonlLineError α) (H : Hasher)
variable (base : JsonlReadOptions) (resolveOptions : CheckpointReadOptions)

/-- What a sequence of reads has produced. -/
structure Progress (α : Type) where
  events : List (JsonlLine α) := []
  /-- The decision on the checkpoint before each read. -/
  decisions : List CheckpointResolutionStatus := []
  checkpoint : Option JsonlCheckpoint := none
  /-- The file when the last read closed it. -/
  file : FileState
  /-- The offset the last read's stream ended at. -/
  delivered : ℕ := 0

/-- The options of a resumed read: those of every read, from where the checkpoint was
resolved to, with an end offset of its own. -/
def resumedOptions (resolution : CheckpointResolution) (endOffset : Option ℕ) : JsonlReadOptions :=
  { base with
    startOffset := resolution.startOffset
    nextLineNumber := resolution.nextLineNumber
    endOffset }

/-- What the file system does during one read: the file is opened, its bytes from the
start offset are delivered in some chunks, perhaps not to the end, and it may grow
while this goes on. -/
structure FollowsFile (seen : FileState) (options : JsonlReadOptions) (source : JsonlSource) :
    Prop where
  opened : ∃ handle, source.opened = .file handle ∧ Grows seen handle ∧ Grows handle source.final
  delivered : source.chunks.flatten <+: source.final.bytes.drop options.startOffset
  withinEnd : source.WithinEnd options

/-- The sequences of reads of a file that only grows. -/
inductive Reading : Progress α → Prop
  | start (file : FileState) : Reading { file }
  | read {p : Progress α} (hp : Reading p)
      {seen : FileState} (hseen : Grows p.file seen) {resolution : CheckpointResolution}
      (hresolve : resolveJsonlCheckpoint H (.file seen) p.checkpoint resolveOptions = .ok resolution)
      {endOffset : Option ℕ} {source : JsonlSource}
      (hfile : FollowsFile seen (resumedOptions base resolution endOffset) source)
      {events : List (JsonlLine α)} {summary : JsonlReadSummary}
      (hread : iterateJsonlForward parse H (resumedOptions base resolution endOffset) source =
        { events, result := .ok summary })
      {checkpoint : JsonlCheckpoint}
      (hcreate : createJsonlCheckpoint summary.position = .ok checkpoint) :
      Reading {
        events := p.events ++ events
        decisions := p.decisions ++ [resolution.status]
        checkpoint := some checkpoint
        file := source.final
        delivered := resolution.startOffset + source.chunks.flatten.length }

variable {parse H base resolveOptions}

/-! ## The invariant -/

/-- The checkpoint is at the end of the complete lines of what was delivered of the
file, with the file's identity, size and anchor. -/
structure CheckpointOf (H : Hasher) (file : FileState) (delivered : ℕ) (c : JsonlCheckpoint) :
    Prop where
  valid : c.Valid
  identity : ∃ snapshot, snapshotFromStats file = .ok snapshot ∧ c.fileIdentity = snapshot.identity
  observedSize : c.observedSize = file.size
  byteOffset : c.byteOffset = Lines.doneLength LF (file.bytes.take delivered)
  nextLineNumber : c.nextLineNumber = 1 + (Lines.cut LF (file.bytes.take delivered)).1.length
  anchor : readCheckpointAnchor H file c.byteOffset = .ok c.anchor

/-- The options of one read of the whole file. -/
def wholeOptions (base : JsonlReadOptions) : JsonlReadOptions :=
  { base with startOffset := 0, nextLineNumber := 1, endOffset := none }

/-- The options are well formed, and the file passes the checks they ask for. -/
structure Admits (base : JsonlReadOptions) (file : FileState) : Prop where
  options : checkReadOptions (wholeOptions base) = .ok ()
  link : ¬ (base.requireSingleLink ∧ file.nlink ≠ 1)
  limit : ∃ snapshot, snapshotFromStats file = .ok snapshot ∧
    assertFileWithinLimit "JSONL path" snapshot.size base.maxFileBytes (some snapshot.size) = .ok ()

/-- What holds after any sequence of reads. -/
structure Progress.Consistent (parse : JsString → Except JsonlLineError α) (H : Hasher)
    (base : JsonlReadOptions) (p : Progress α) : Prop where
  within : p.delivered ≤ p.file.size
  events : p.events = placeLines parse 1 0 (Lines.cut LF (p.file.bytes.take p.delivered)).1
  fits : p.checkpoint ≠ none →
    AllFit base.maxLineBytes (Lines.cut LF (p.file.bytes.take p.delivered)) ∧ Admits base p.file
  checkpoint : ∀ c, p.checkpoint = some c → CheckpointOf H p.file p.delivered c
  fresh : p.checkpoint = none → p.delivered = 0 ∧ p.decisions = []
  decisions : p.checkpoint ≠ none →
    ∃ n, p.decisions = .start :: List.replicate n .resume

theorem Progress.Consistent.linesFit {p : Progress α} (hp : p.Consistent parse H base) :
    ∀ l ∈ (Lines.cut LF (p.file.bytes.take p.delivered)).1, Fits base.maxLineBytes l.length := by
  rcases hc : p.checkpoint with _ | c
  · simp [(hp.fresh hc).1]
  · exact (hp.fits (by simp [hc])).1.1

/-- The checks a resumed read passes are those of a read of the whole file. -/
theorem admits_of_read {resolution : CheckpointResolution} {endOffset e : Option ℕ}
    {opened : Opened} {final : FileState} {snapshot : FileSnapshot}
    (hopen : openChecks (resumedOptions base resolution endOffset) opened = .ok e)
    (hlink : ¬ (base.requireSingleLink ∧ final.nlink ≠ 1))
    (hsnap : snapshotFromStats final = .ok snapshot)
    (hlimit : assertFileWithinLimit "JSONL path" snapshot.size base.maxFileBytes
      (some snapshot.size) = .ok ()) : Admits base final := by
  refine ⟨?_, hlink, snapshot, hsnap, hlimit⟩
  simp only [openChecks, Outcome.bind_ok, Outcome.exists_unit] at hopen
  have hchecks := hopen.1
  simp only [checkReadOptions, Outcome.bind_ok, Outcome.exists_unit,
    assertSafeNonNegativeInteger_ok, assertSafePositiveInteger_ok] at hchecks ⊢
  obtain ⟨-, -, -, hlimits⟩ := hchecks
  exact ⟨by simp [wholeOptions], by simp [wholeOptions, maxSafeInteger], rfl, hlimits⟩

/-- Where the next read starts: at the end of the complete lines delivered so far. -/
theorem Progress.Consistent.resolution {p : Progress α} (hp : p.Consistent parse H base)
    {seen : FileState} (hseen : Grows p.file seen) {resolution : CheckpointResolution}
    (h : resolveJsonlCheckpoint H (.file seen) p.checkpoint resolveOptions = .ok resolution) :
    resolution.startOffset = Lines.doneLength LF (p.file.bytes.take p.delivered) ∧
      resolution.nextLineNumber = 1 + (Lines.cut LF (p.file.bytes.take p.delivered)).1.length ∧
      ∃ n, p.decisions ++ [resolution.status] = .start :: List.replicate n .resume := by
  rcases hc : p.checkpoint with _ | c
  · obtain ⟨hd, hn⟩ := hp.fresh hc
    rw [hc] at h
    simp only [resolveJsonlCheckpoint, Outcome.bind_ok, Outcome.exists_unit, Outcome.guard_ok,
      Outcome.pure_ok] at h
    obtain ⟨-, -, -, t, -, -, rfl⟩ := h
    simp only [hd, hn, List.take_zero, Lines.doneLength, Lines.cut_nil, Lines.join_nil,
      List.length_nil, List.nil_append, true_and]
    exact ⟨0, rfl⟩
  · have hcp := hp.checkpoint c hc
    obtain ⟨snapshot, hs, hid⟩ := hcp.identity
    rw [hc] at h
    obtain ⟨h1, h2, h3, -⟩ := resolve_of_grows H hseen hcp.valid hs hid
      (by rw [hcp.observedSize]) hcp.anchor h
    obtain ⟨n, hn⟩ := hp.decisions (by simp [hc])
    refine ⟨by rw [h2, hcp.byteOffset], by rw [h3, hcp.nextLineNumber], n + 1, ?_⟩
    rw [hn, h1, List.cons_append, List.replicate_succ']

/-- The bytes delivered after a resumed read are the complete lines delivered before
it, followed by what it delivered. -/
theorem delivered_append {f g : Bytes} (hfg : f <+: g) {n : ℕ} {d : Bytes} (hn : n ≤ f.length)
    (hd : d <+: g.drop (Lines.doneLength LF (f.take n))) :
    g.take (Lines.doneLength LF (f.take n) + d.length) =
      Lines.join LF (Lines.cut LF (f.take n)).1 ++ d := by
  have hle : Lines.doneLength LF (f.take n) ≤ n := by
    have := Lines.doneLength_le LF (f.take n)
    rw [List.length_take] at this
    omega
  have htake : g.take (Lines.doneLength LF (f.take n)) =
      Lines.join LF (Lines.cut LF (f.take n)).1 := by
    obtain ⟨r, rfl⟩ := hfg
    rw [← Lines.take_doneLength, List.take_append_of_le_length (by omega), List.take_take,
      Nat.min_eq_left hle]
  rw [List.take_add, htake, ← List.prefix_iff_eq_take.1 hd]

/-- One read keeps the invariant. -/
theorem Progress.Consistent.read {p : Progress α} (hp : p.Consistent parse H base)
    {seen : FileState} (hseen : Grows p.file seen) {resolution : CheckpointResolution}
    (hresolve : resolveJsonlCheckpoint H (.file seen) p.checkpoint resolveOptions = .ok resolution)
    {endOffset : Option ℕ} {source : JsonlSource}
    (hfile : FollowsFile seen (resumedOptions base resolution endOffset) source)
    {events : List (JsonlLine α)} {summary : JsonlReadSummary}
    (hread : iterateJsonlForward parse H (resumedOptions base resolution endOffset) source =
      { events, result := .ok summary })
    {checkpoint : JsonlCheckpoint}
    (hcreate : createJsonlCheckpoint summary.position = .ok checkpoint) :
    Progress.Consistent parse H base {
      events := p.events ++ events
      decisions := p.decisions ++ [resolution.status]
      checkpoint := some checkpoint
      file := source.final
      delivered := resolution.startOffset + source.chunks.flatten.length } := by
  obtain ⟨hstart, hline, hdecisions⟩ := hp.resolution hseen hresolve
  obtain ⟨handle, -, hopened, hgrows⟩ := hfile.opened
  have hall := (hseen.trans hopened).trans hgrows
  obtain ⟨⟨e, hopen⟩, hfit, hevents, hclose⟩ := (read_ok parse H hfile.withinEnd).1 hread
  obtain ⟨hlink, snapshot, anchor, hsnap, hlimit, hsize, hanchor, rfl⟩ := closeRead_ok.1 hclose
  obtain ⟨hvalid, hid, hoff, hnext, hobs, hanc⟩ := createJsonlCheckpoint_ok.1 hcreate
  have hdeliv := hfile.delivered
  simp only [resumedOptions] at hdeliv hevents hfit
  rw [hstart] at hdeliv hevents
  rw [hline] at hevents
  have htake := delivered_append hall.bytes hp.within hdeliv
  -- the lines delivered in all are the earlier ones and the new ones
  have hcut : Lines.cut LF
      (source.final.bytes.take (resolution.startOffset + source.chunks.flatten.length)) =
      ((Lines.cut LF (p.file.bytes.take p.delivered)).1 ++ (Lines.cut LF source.chunks.flatten).1,
        (Lines.cut LF source.chunks.flatten).2) := by
    rw [hstart, htake, Lines.cut_join (Lines.cut_free LF (p.file.bytes.take p.delivered)).1]
  have hfeed : Lines.cut LF ((ScanState.initial (resumedOptions base resolution endOffset) :
      ScanState α).fragments ++ source.chunks.flatten) = Lines.cut LF source.chunks.flatten := rfl
  refine ⟨?_, ?_, ?_, ?_, ?_, ?_⟩
  · have h1 := hdeliv.length_le
    have h2 := Lines.doneLength_le LF (p.file.bytes.take p.delivered)
    have h3 := hp.within
    have h4 := hall.size_le
    rw [List.length_drop] at h1
    rw [List.length_take] at h2
    simp only [FileState.size] at h3 h4 ⊢
    omega
  · simp only [hcut, placeLines_append, hp.events, hevents, Nat.zero_add, Lines.doneLength]
  · refine fun _ => ⟨?_, admits_of_read hopen hlink hsnap hlimit⟩
    simp only [hcut, AllFit, List.mem_append, or_imp, forall_and]
    exact ⟨⟨hp.linesFit, hfit.1⟩, hfit.2⟩
  · rintro c ⟨⟩
    refine ⟨hvalid, ⟨snapshot, hsnap, hid⟩, ?_, ?_, ?_, ?_⟩
    · rw [hobs]; exact (snapshotFromStats_ok hsnap).1
    · rw [hoff, Lines.doneLength, hcut, Lines.join_append, List.length_append]
      simp only [JsonlReadSummary.position, feed, advance, hfeed]
      simp only [ScanState.initial, resumedOptions, hstart, Lines.doneLength]
    · rw [hnext, hcut, List.length_append]
      simp only [JsonlReadSummary.position, feed, advance, hfeed]
      simp only [ScanState.initial, resumedOptions, hline, Nat.add_assoc]
    · rw [hoff, hanc]; exact hanchor
  · simp
  · exact fun _ => hdecisions

/-- **After any sequence of reads** the lines yielded are those of the bytes delivered. -/
theorem Reading.consistent {p : Progress α} (h : Reading parse H base resolveOptions p) :
    p.Consistent parse H base := by
  induction h with
  | start file =>
    refine ⟨Nat.zero_le _, ?_, fun h => absurd rfl h, ?_, fun _ => ⟨rfl, rfl⟩, fun h => absurd rfl h⟩
    · simp [placeLines]
    · rintro c ⟨⟩
  | read _ hseen hresolve hfile hread hcreate ih => exact ih.read hseen hresolve hfile hread hcreate

/-! ## One read of the final file -/

/-- One read of the file as the last read left it, delivering the same bytes. -/
def wholeSource (file : FileState) (chunks : List Bytes) : JsonlSource :=
  { opened := .file file, chunks, final := file }

/-- A file that passes the checks is opened for a whole read. -/
theorem Admits.openChecks {file : FileState} (h : Admits base file) :
    openChecks (wholeOptions base) (.file file) =
      .ok (if base.pinEnd then some file.size else none) := by
  obtain ⟨snapshot, hsnap, hlimit⟩ := h.limit
  have hsize := (snapshotFromStats_ok hsnap).1
  rw [hsize] at hlimit
  have hlink := h.link
  have hoptions := h.options
  simp only [Barbaro.openChecks, hoptions, Outcome.ok_bind]
  simp only [wholeOptions, if_neg hlink, hsnap, hlimit, Outcome.ok_bind, Nat.not_lt_zero, gt_iff_lt,
    if_false, and_true, hsize]
  rfl

/-- **Resuming is exactly-once.** Let a file only grow, and let a sequence of reads
each resume from the checkpoint created after the one before. Then no decision is to
reset: the first is to start, every later one to resume. And one read of the final
file that is delivered the same bytes, in any chunks, yields the concatenation of the
lines of all reads, with their numbers and offsets, and leaves the same checkpoint. -/
theorem reading_exactly_once {p : Progress α} (h : Reading parse H base resolveOptions p)
    {c : JsonlCheckpoint} (hc : p.checkpoint = some c) {chunks : List Bytes}
    (hchunks : chunks.flatten = p.file.bytes.take p.delivered) :
    (∃ n, p.decisions = .start :: List.replicate n .resume) ∧
      ∃ summary, iterateJsonlForward parse H (wholeOptions base) (wholeSource p.file chunks) =
          { events := p.events, result := .ok summary } ∧
        createJsonlCheckpoint summary.position = .ok c := by
  have hp := h.consistent
  refine ⟨hp.decisions (by simp [hc]), ?_⟩
  obtain ⟨hfit, hadmits⟩ := hp.fits (by simp [hc])
  have hcp := hp.checkpoint c hc
  obtain ⟨snapshot, hsnap, hlimit⟩ := hadmits.limit
  obtain ⟨snapshot', hsnap', hid⟩ := hcp.identity
  obtain rfl : snapshot = snapshot' := by rw [hsnap] at hsnap'; exact Except.ok.inj hsnap'
  have hsize := (snapshotFromStats_ok hsnap).1
  have hend : (wholeSource p.file chunks).WithinEnd (wholeOptions base) := by
    intro e he
    simp only [wholeSource, hadmits.openChecks] at he
    simp only [wholeSource, hchunks, List.length_take]
    split at he
    · cases he
      simp only [wholeOptions, FileState.size]
      omega
    · cases he
  set st : ScanState α := feed parse (.initial (wholeOptions base)) chunks.flatten with hst
  have hfeed : Lines.cut LF ((ScanState.initial (wholeOptions base) : ScanState α).fragments ++
      chunks.flatten) = Lines.cut LF (p.file.bytes.take p.delivered) := by
    rw [← hchunks]; rfl
  have hoff : st.checkpointOffset = c.byteOffset := by
    rw [hcp.byteOffset, hst]
    simp only [feed, advance, hfeed, Lines.doneLength]
    simp only [ScanState.initial, wholeOptions, Nat.zero_add]
  have hnext : st.nextLineNumber = c.nextLineNumber := by
    rw [hcp.nextLineNumber, hst]
    simp only [feed, advance, hfeed]
    simp only [ScanState.initial, wholeOptions]
  have hevents : p.events = placeLines parse 1 0 (Lines.cut LF chunks.flatten).1 := by
    rw [hp.events, hchunks]
  have hwithin : c.byteOffset ≤ snapshot.size := by
    have := hcp.valid.byteOffset
    rw [hcp.observedSize] at this
    omega
  have hclose : closeRead H (wholeOptions base) p.file st = .ok _ := closeRead_ok.2
    ⟨hadmits.link, snapshot, c.anchor, hsnap, hlimit, by rw [hoff]; exact hwithin,
      by rw [hoff]; exact hcp.anchor, rfl⟩
  refine ⟨_, (read_ok parse H hend).2 ⟨⟨_, hadmits.openChecks⟩, ?_, hevents, hclose⟩, ?_⟩
  · rw [wholeSource, hchunks]; exact hfit
  · exact createJsonlCheckpoint_ok.2
      ⟨hcp.valid, hid, hoff.symm, hnext.symm, by rw [hcp.observedSize]; exact hsize.symm, rfl⟩

/-! ## A file that is caught in the middle of a line -/

def tornHasher : Hasher :=
  .ofTable [([97, 10], 0x87428fc522803d31065e7bce3cf03fe475096631e5e07bbd7a0fde60c4cf25c7)]

def tornFile (bytes : Bytes) : FileState :=
  { dev := 1, ino := 2, birthtimeNs := 3, mtimeNs := 4, bytes }

def tornProgress₁ : Progress JsString where
  decisions := [.start]
  checkpoint := some ⟨checkpointSchema, ⟨js "1", js "2", js "3"⟩, 0, 1, 1, ⟨0, emptyDigest⟩⟩
  file := tornFile [97]
  delivered := 1

/-- The first read finds `a` without its LF; the second one finds `a`, LF, `b`. -/
def tornProgress : Progress JsString where
  events := [⟨1, 0, 2, 2, js "a", .record (js "a")⟩]
  decisions := [.start, .resume]
  checkpoint := some ⟨checkpointSchema, ⟨js "1", js "2", js "3"⟩, 2, 2, 3,
    ⟨2, tornHasher.sha256 [97, 10]⟩⟩
  file := tornFile [97, 10, 98]
  delivered := 3

/-- The two reads: of the first byte, and of the whole file in two chunks. -/
def tornSource₁ : JsonlSource := ⟨.file (tornFile [97]), [[97]], tornFile [97]⟩
def tornSource₂ : JsonlSource :=
  ⟨.file (tornFile [97, 10, 98]), [[97], [10, 98]], tornFile [97, 10, 98]⟩

theorem tornReading : Reading (fun raw => .ok raw) tornHasher {} {} tornProgress := by
  have h0 : Reading (fun raw => .ok raw) tornHasher {} {}
    ({ file := tornFile [97] } : Progress JsString) := .start _
  -- the first read yields nothing and stays at the beginning
  have hresolve₁ : resolveJsonlCheckpoint tornHasher (.file (tornFile [97])) none {} =
      .ok ⟨.start, 0, 1, some ⟨⟨js "1", js "2", js "3"⟩, 1, js "4"⟩⟩ := rfl
  have hfile₁ : FollowsFile (tornFile [97]) (resumedOptions {} ⟨.start, 0, 1, none⟩ none)
      tornSource₁ :=
    ⟨⟨_, rfl, Grows.refl _, Grows.refl _⟩, by decide, by intro e he; cases he⟩
  have h1 : Reading (fun raw => .ok raw) tornHasher {} {} tornProgress₁ :=
    h0.read (Grows.refl _) hresolve₁ hfile₁ rfl rfl
  -- the second one resumes there
  have hresolve₂ : resolveJsonlCheckpoint tornHasher (.file (tornFile [97, 10, 98]))
      (some ⟨checkpointSchema, ⟨js "1", js "2", js "3"⟩, 0, 1, 1, ⟨0, emptyDigest⟩⟩) {} =
      .ok ⟨.resume, 0, 1, some ⟨⟨js "1", js "2", js "3"⟩, 3, js "4"⟩⟩ := rfl
  have hfile₂ : FollowsFile (tornFile [97, 10, 98]) (resumedOptions {} ⟨.resume, 0, 1, none⟩ none)
      tornSource₂ :=
    ⟨⟨_, rfl, Grows.refl _, Grows.refl _⟩, by decide, by intro e he; cases he⟩
  have hgrown : Grows (tornFile [97]) (tornFile [97, 10, 98]) := ⟨rfl, rfl, rfl, rfl, by decide⟩
  exact h1.read hgrown hresolve₂ hfile₂ rfl rfl

theorem reading_exactly_once_torn :
    (∃ n, tornProgress.decisions = .start :: List.replicate n .resume) ∧
      ∃ summary, iterateJsonlForward (fun raw => .ok raw) tornHasher (wholeOptions {})
          (wholeSource tornProgress.file [[97, 10, 98]]) =
          { events := tornProgress.events, result := .ok summary } ∧
        createJsonlCheckpoint summary.position =
          .ok ⟨checkpointSchema, ⟨js "1", js "2", js "3"⟩, 2, 2, 3,
            ⟨2, tornHasher.sha256 [97, 10]⟩⟩ :=
  reading_exactly_once tornReading rfl rfl

end

end Barbaro
