import Mathlib.Data.List.TakeWhile
import Barbaro.Nudge.ScanLines

/-!
# Scanning one growing feed

A feed only grows. `CheckpointAt` says of a saved checkpoint that it is at the end of a
line of the feed; `FeedShows` says what a scan may see of the feed while it grows.

* `CheckpointAt.mono`: growth keeps a checkpoint.
* `scanFeed_ok`: a scan that succeeds resumes at the checkpoint, counts the unread lines
  up to the size it found, and its own checkpoint is at the end of their read prefix.
-/

namespace Barbaro

section
variable (E : Host)

/-- The complete lines among the first bytes of a file, as a reader places them. -/
def linesOf (f : FileState) (n : ℕ) : List (JsonlLine Json) :=
  placeLines (parseJson E) 1 0 (Lines.cut LF (f.bytes.take n)).1

/-- The checkpoint was made on this file, at the end of a line. -/
structure CheckpointMade (f : FileState) (c : JsonlCheckpoint) : Prop where
  valid : c.Valid
  identity : ∃ s, snapshotFromStats f = .ok s ∧ c.fileIdentity = s.identity
  observedSize : c.observedSize = f.size
  boundary : (Lines.cut LF (f.bytes.take c.byteOffset)).2 = []
  nextLineNumber : c.nextLineNumber = 1 + (Lines.cut LF (f.bytes.take c.byteOffset)).1.length
  anchor : readCheckpointAnchor E.toHasher f c.byteOffset = .ok c.anchor

/-- The checkpoint was made on this file, perhaps before it grew. -/
def CheckpointAt (f : FileState) (c : JsonlCheckpoint) : Prop :=
  ∃ f₀, Grows f₀ f ∧ CheckpointMade E f₀ c

variable {E}

theorem CheckpointAt.mono {f g : FileState} {c : JsonlCheckpoint} (h : CheckpointAt E f c)
    (hg : Grows f g) : CheckpointAt E g c := by
  obtain ⟨f₀, h₀, hm⟩ := h
  exact ⟨f₀, h₀.trans hg, hm⟩

theorem Grows.take {f g : FileState} (h : Grows f g) {n : ℕ} (hn : n ≤ f.size) :
    g.bytes.take n = f.bytes.take n := by
  obtain ⟨r, hr⟩ := h.bytes
  rw [← hr, List.take_append_of_le_length hn]

theorem linesOf_grows {f g : FileState} (h : Grows f g) {n : ℕ} (hn : n ≤ f.size) :
    linesOf E g n = linesOf E f n := by
  rw [linesOf, h.take hn, linesOf]

theorem CheckpointAt.offset_le {f : FileState} {c : JsonlCheckpoint} (h : CheckpointAt E f c) :
    c.byteOffset ≤ f.size := by
  obtain ⟨f₀, h₀, hm⟩ := h
  have h1 := hm.valid.byteOffset
  have h2 := h₀.size_le
  rw [hm.observedSize] at h1
  omega

/-- The lines up to a checkpoint, and nothing after them. -/
theorem CheckpointAt.cut {f : FileState} {c : JsonlCheckpoint} (h : CheckpointAt E f c) :
    (Lines.cut LF (f.bytes.take c.byteOffset)).2 = [] ∧
      c.nextLineNumber = 1 + (Lines.cut LF (f.bytes.take c.byteOffset)).1.length := by
  obtain ⟨f₀, h₀, hm⟩ := h
  have h1 := hm.valid.byteOffset
  rw [hm.observedSize] at h1
  rw [h₀.take h1]
  exact ⟨hm.boundary, hm.nextLineNumber⟩

/-! ## Where lines end -/

section
variable {α : Type} (parse : JsString → Except JsonlLineError α)

theorem placeLines_take (n o k : ℕ) (bs : List Bytes) :
    (placeLines parse n o bs).take k = placeLines parse n o (bs.take k) := by
  induction bs generalizing n o k with
  | nil => simp [placeLines]
  | cons b bs ih => cases k <;> simp [placeLines, ih]

theorem placeLines_length (n o : ℕ) (bs : List Bytes) :
    (placeLines parse n o bs).length = bs.length := by
  induction bs generalizing n o with
  | nil => rfl
  | cons b bs ih => simp [placeLines, ih]

/-- The offset and the line number after some placed lines. -/
theorem placeLines_last (n o : ℕ) (bs : List Bytes) :
    (((placeLines parse n o bs).getLast?.map JsonlLine.nextOffset).getD o =
      o + (Lines.join LF bs).length) ∧
    (((placeLines parse n o bs).getLast?.map (fun l => l.lineNumber + 1)).getD n =
      n + bs.length) := by
  induction bs generalizing n o with
  | nil => simp [placeLines]
  | cons b bs ih =>
    have hev : (lineEvent parse n o b).nextOffset = o + b.length + 1 ∧
        (lineEvent parse n o b).lineNumber = n := by
      unfold lineEvent
      cases textDecode (contentBytes b) with
      | none => exact ⟨rfl, rfl⟩
      | some raw => cases hp : parse raw <;> simp [hp]
    have ih := ih (n + 1) (o + b.length + 1)
    cases bs with
    | nil =>
      simp [placeLines, hev.1, hev.2]
      omega
    | cons c cs =>
      simp only [placeLines, List.getLast?_cons_cons] at ih ⊢
      simp only [List.getLast?_cons, Option.map_some, Option.getD_some] at ih ⊢
      simp only [Lines.join_cons, List.length_append, List.length_cons] at ih ⊢
      omega

end

/-- The bytes of a grown file after a line end. -/
theorem take_boundary {f : FileState} {a n : ℕ} (hb : (Lines.cut LF (f.bytes.take a)).2 = [])
    (han : a ≤ n) (ha : a ≤ f.size) :
    Lines.cut LF (f.bytes.take n) =
      ((Lines.cut LF (f.bytes.take a)).1 ++
          (Lines.cut LF ((f.bytes.drop a).take (n - a))).1,
        (Lines.cut LF ((f.bytes.drop a).take (n - a))).2) ∧
      (Lines.join LF (Lines.cut LF (f.bytes.take a)).1).length = a := by
  have hjoin := Lines.cut_eq LF (f.bytes.take a)
  rw [hb, List.append_nil] at hjoin
  have hsplit : f.bytes.take n = f.bytes.take a ++ (f.bytes.drop a).take (n - a) := by
    rw [← List.take_add]
    congr 1
    omega
  refine ⟨?_, ?_⟩
  · conv_lhs => rw [hsplit, ← hjoin]
    exact Lines.cut_join (Lines.cut_free LF (f.bytes.take a)).1 _
  · rw [hjoin, List.length_take]
    exact Nat.min_eq_left ha

/-! ## What a scan sees -/

/-- One read between two states of a growing file: it is opened and closed in between,
and its stream delivers the bytes of its range. -/
structure SourceShows (f g : FileState) (start stop : ℕ) (source : JsonlSource) : Prop where
  opened : ∀ h, source.opened = .file h → Grows f h ∧ Grows h source.final
  final : Grows source.final g
  delivered : source.chunks.flatten = (source.final.bytes.drop start).take (stop - start)

/-- What one scan sees of a feed that grows from `f` to `g` during it. A feed that cannot
be opened shows nothing. -/
structure FeedShows (f g : FileState) (file : BarbaroFeedFile) : Prop where
  path : ∀ p, file.path = .file p → Grows f p ∧ Grows p g
  scan : ∀ p, file.path = .file p → ∀ start stop,
    SourceShows p g start stop (file.scan start stop)
  anchor : ∀ p, file.path = .file p → ∀ offset,
    SourceShows p g offset offset (file.anchor offset)

/-- Where a scan starts. -/
def startOf (c : Option JsonlCheckpoint) : ℕ := (c.map JsonlCheckpoint.byteOffset).getD 0

/-- A checkpoint of a growing feed is resumed. -/
theorem resolve_checkpoint {f p : FileState} (hg : Grows f p) {c : Option JsonlCheckpoint}
    (hc : ∀ x, c = some x → CheckpointAt E f x) {options : CheckpointReadOptions}
    {r : CheckpointResolution}
    (h : resolveJsonlCheckpoint E.toHasher (.file p) c options = .ok r) :
    r.startOffset = startOf c ∧
      r.nextLineNumber = 1 + (Lines.cut LF (p.bytes.take (startOf c))).1.length ∧
      ∃ s, snapshotFromStats p = .ok s ∧ r.snapshot = some s := by
  cases c with
  | none =>
    simp only [resolveJsonlCheckpoint, Outcome.bind_ok, Outcome.exists_unit, Outcome.guard_ok,
      Outcome.pure_ok] at h
    obtain ⟨-, -, -, t, ht, -, rfl⟩ := h
    exact ⟨rfl, by simp [startOf], t, ht, rfl⟩
  | some x =>
    have hx := (hc x rfl).mono hg
    obtain ⟨f₀, h₀, hm⟩ := hx
    obtain ⟨s, hs, hid⟩ := hm.identity
    obtain ⟨-, h2, h3, h4⟩ := resolve_of_grows E.toHasher h₀ hm.valid hs hid
      (le_of_eq hm.observedSize) hm.anchor h
    exact ⟨h2, by rw [h3]; exact ((hc x rfl).mono hg).cut.2, h4⟩

theorem startOf_boundary {f : FileState} {c : Option JsonlCheckpoint}
    (hc : ∀ x, c = some x → CheckpointAt E f x) :
    startOf c ≤ f.size ∧ (Lines.cut LF (f.bytes.take (startOf c))).2 = [] := by
  cases c with
  | none => exact ⟨Nat.zero_le _, by simp [startOf]⟩
  | some x => exact ⟨(hc x rfl).offset_le, (hc x rfl).cut.1⟩

/-- A summary that is turned into a checkpoint at the end of a line. -/
theorem checkpointAt_of_read {f : FileState} {summary : JsonlReadSummary}
    {c : JsonlCheckpoint} (hcreate : createJsonlCheckpoint summary.position = .ok c)
    (hid : ∃ s, snapshotFromStats f = .ok s ∧ summary.fileIdentity = s.identity)
    (hsize : summary.observedSize = f.size)
    (hanchor : readCheckpointAnchor E.toHasher f summary.checkpointOffset =
      .ok summary.checkpointAnchor)
    (hboundary : (Lines.cut LF (f.bytes.take summary.checkpointOffset)).2 = [])
    (hline : summary.nextLineNumber =
      1 + (Lines.cut LF (f.bytes.take summary.checkpointOffset)).1.length) :
    CheckpointMade E f c := by
  obtain ⟨hvalid, hi, hoff, hnext, hobs, hanc⟩ := createJsonlCheckpoint_ok.1 hcreate
  obtain ⟨s, hs, hsi⟩ := hid
  exact ⟨hvalid, ⟨s, hs, hi.trans hsi⟩, hobs.trans hsize, by rw [hoff]; exact hboundary,
    by rw [hoff, hnext]; exact hline, by rw [hoff, hanc]; exact hanchor⟩

/-- The lines after a line end, up to `n`, as the whole file's lines continue there. -/
theorem linesOf_from {f : FileState} {a n : ℕ} (hb : (Lines.cut LF (f.bytes.take a)).2 = [])
    (han : a ≤ n) (ha : a ≤ f.size) :
    linesOf E f n = linesOf E f a ++
      placeLines (parseJson E) (1 + (Lines.cut LF (f.bytes.take a)).1.length) a
        (Lines.cut LF ((f.bytes.drop a).take (n - a))).1 := by
  obtain ⟨hcut, hlen⟩ := take_boundary hb han ha
  rw [linesOf, hcut, placeLines_append, hlen, Nat.zero_add, linesOf]

theorem Grows.slice {f g : FileState} (h : Grows f g) {a n : ℕ} (hn : n ≤ f.size) :
    (g.bytes.drop a).take (n - a) = (f.bytes.drop a).take (n - a) := by
  rw [← List.drop_take, h.take hn, List.drop_take]

/-- A read of a bounded range of a growing feed. -/
theorem boundedRead_ok {p g : FileState} {start stop line : ℕ} (hle : start ≤ stop)
    (hstop : stop ≤ p.size) {source : JsonlSource} (hshow : SourceShows p g start stop source)
    {options : JsonlReadOptions} (hstart : options.startOffset = start)
    (hline : options.nextLineNumber = line) (hend : options.endOffset = some stop)
    {summary : JsonlReadSummary}
    (h : (iterateJsonlForward (parseJson E) E.toHasher options source).result = .ok summary) :
    let segment := (p.bytes.drop start).take (stop - start)
    (iterateJsonlForward (parseJson E) E.toHasher options source).events =
        placeLines (parseJson E) line start (Lines.cut LF segment).1 ∧
      Grows p source.final ∧
      (∃ s, snapshotFromStats source.final = .ok s ∧ summary.fileIdentity = s.identity) ∧
      summary.observedSize = source.final.size ∧
      readCheckpointAnchor E.toHasher source.final summary.checkpointOffset =
        .ok summary.checkpointAnchor ∧
      summary.checkpointOffset = start + (Lines.join LF (Lines.cut LF segment).1).length ∧
      summary.nextLineNumber = line + (Lines.cut LF segment).1.length := by
  intro segment
  have hwithin : source.WithinEnd options := by
    intro e he
    have hee : e = stop := by
      simp only [openChecks, Outcome.bind_ok, Outcome.exists_unit] at he
      obtain ⟨-, he⟩ := he
      cases hop : source.opened with
      | missing => rw [hop] at he; cases he
      | refused code => rw [hop] at he; cases he
      | file handle =>
        rw [hop] at he
        simp only [Outcome.guard_ok, Outcome.bind_ok, Outcome.exists_unit, Outcome.pure_ok, hend] at he
        obtain ⟨-, s, -, -, -, he⟩ := he
        simpa using he.symm
    rw [hstart, hshow.delivered, hee]
    have := List.length_take_le (stop - start) (source.final.bytes.drop start)
    omega
  have hok : iterateJsonlForward (parseJson E) E.toHasher options source =
      { events := (iterateJsonlForward (parseJson E) E.toHasher options source).events
        result := .ok summary } := by rw [← h]
  obtain ⟨⟨e, hopen⟩, -, hevents, hclose⟩ := (read_ok (parseJson E) E.toHasher hwithin).1 hok
  have hgrow : Grows p source.final := by
    cases hop : source.opened with
    | missing => rw [hop] at hopen; simp [openChecks] at hopen
    | refused code => rw [hop] at hopen; simp [openChecks] at hopen
    | file handle => exact (hshow.opened handle hop).1.trans (hshow.opened handle hop).2
  have hseg : source.chunks.flatten = segment := by
    rw [hshow.delivered, hgrow.slice hstop]
  obtain ⟨-, snapshot, anchor, hsnap, -, -, hanchor, rfl⟩ := closeRead_ok.1 hclose
  rw [hseg, hstart, hline] at hevents
  have hcut : Lines.cut LF ((ScanState.initial options : ScanState Json).fragments ++
      source.chunks.flatten) = Lines.cut LF segment := by rw [hseg]; rfl
  refine ⟨hevents, hgrow, ⟨snapshot, hsnap, rfl⟩, (snapshotFromStats_ok hsnap).1, hanchor, ?_, ?_⟩
  · simp only [feed, advance, hcut]
    rw [ScanState.initial, hstart]
  · simp only [feed, advance, hcut]
    rw [ScanState.initial, hline]

/-- The end of the first `k` lines after a line end is a line end. -/
theorem boundary_at {f : FileState} {a n : ℕ} (hb : (Lines.cut LF (f.bytes.take a)).2 = [])
    (han : a ≤ n) (hn : n ≤ f.size) (k : ℕ) :
    let bs := (Lines.cut LF ((f.bytes.drop a).take (n - a))).1
    let off := a + (Lines.join LF (bs.take k)).length
    off ≤ n ∧ Lines.cut LF (f.bytes.take off) =
      ((Lines.cut LF (f.bytes.take a)).1 ++ bs.take k, []) := by
  intro bs off
  set segment := (f.bytes.drop a).take (n - a) with hsegment
  have hlen : segment.length = n - a := by
    rw [hsegment, List.length_take, List.length_drop]
    simp only [FileState.size] at hn
    omega
  have hseg : segment = Lines.join LF (bs.take k) ++ (Lines.join LF (bs.drop k) ++
      (Lines.cut LF segment).2) := by
    rw [← List.append_assoc, ← Lines.join_append, List.take_append_drop]
    exact (Lines.cut_eq LF segment).symm
  have hoff : off ≤ n := by
    have := congrArg List.length hseg
    simp only [List.length_append] at this
    omega
  refine ⟨hoff, ?_⟩
  have htake : f.bytes.take off = f.bytes.take a ++ Lines.join LF (bs.take k) := by
    rw [show off = a + (Lines.join LF (bs.take k)).length from rfl, List.take_add]
    congr 1
    have hsub : (f.bytes.drop a).take (Lines.join LF (bs.take k)).length =
        segment.take (Lines.join LF (bs.take k)).length := by
      rw [hsegment, List.take_take, Nat.min_eq_left (by omega)]
    rw [hsub, hseg, List.take_left]
  have hjoin := Lines.cut_eq LF (f.bytes.take a)
  rw [hb, List.append_nil] at hjoin
  have hfree : ∀ l ∈ (Lines.cut LF (f.bytes.take a)).1 ++ bs.take k, LF ∉ l := by
    intro l hl
    rcases List.mem_append.1 hl with hl | hl
    · exact (Lines.cut_free LF _).1 l hl
    · exact (Lines.cut_free LF segment).1 l (List.mem_of_mem_take hl)
  have := Lines.cut_unique hfree (t := []) (by simp)
  rw [List.append_nil, Lines.join_append, hjoin, ← htake] at this
  exact this

variable (epoch : MembershipEpoch E) (key : FeedKey) (reads : NudgeReadState)
  (targets : Option (List RecordKey))

/-- What a scan of a feed did, when it found `n` bytes of it and the lines `ls` after
its checkpoint. -/
structure ScannedFeed (f g : FileState) (cp : Option JsonlCheckpoint) (scan : FeedScan E) (n : ℕ)
    (ls : List (JsonlLine Json)) : Prop where
  seen : f.size ≤ n
  within : n ≤ g.size
  start : startOf cp ≤ n
  lines : linesOf E g n = linesOf E g (startOf cp) ++ ls
  count : scan.unreadCount = ls.countP (unreadLine epoch key reads)
  covered : CheckpointAt E g scan.coveredCheckpoint
  coveredStart : startOf cp ≤ scan.coveredCheckpoint.byteOffset
  coveredLines : linesOf E g scan.coveredCheckpoint.byteOffset =
    linesOf E g (startOf cp) ++ readPrefix epoch key reads ls
  collapsed : scan.collapsedRecordKeys =
    recordKeys E ((readPrefix epoch key reads ls).filter (acknowledgedLine epoch key reads))
  keys : ∀ k, k ∈ scan.unreadRecordKeys ↔ targets.any (fun ks => k ∈ ks) = true ∧
    k ∈ recordKeys E (ls.filter (unreadLine epoch key reads))
  latest : scan.latest = (unreadTurns epoch key reads ls).foldl newer none

variable {epoch key reads targets}

/-- A checkpoint made after the first `k` lines of a scan. -/
theorem covered_at {p h g : FileState} {a n k : ℕ}
    (hb : (Lines.cut LF (p.bytes.take a)).2 = []) (han : a ≤ n) (hn : n ≤ p.size)
    (hph : Grows p h) (hhg : Grows h g) {bs : List Bytes}
    (hbs : bs = (Lines.cut LF ((p.bytes.drop a).take (n - a))).1)
    {ls : List (JsonlLine Json)}
    (hls : ls = placeLines (parseJson E) (1 + (Lines.cut LF (p.bytes.take a)).1.length) a bs)
    {pre : JsonlReadSummary} {c : JsonlCheckpoint} (hcreate : createJsonlCheckpoint pre.position = .ok c)
    (hid : ∃ s, snapshotFromStats h = .ok s ∧ pre.fileIdentity = s.identity)
    (hobs : pre.observedSize = h.size)
    (hanchor : readCheckpointAnchor E.toHasher h pre.checkpointOffset = .ok pre.checkpointAnchor)
    (hoff : pre.checkpointOffset = a + (Lines.join LF (bs.take k)).length)
    (hline : pre.nextLineNumber =
      1 + (Lines.cut LF (p.bytes.take a)).1.length + (bs.take k).length) :
    CheckpointAt E g c ∧ a ≤ c.byteOffset ∧ c.byteOffset ≤ n ∧
      linesOf E g c.byteOffset = linesOf E g a ++ ls.take k := by
  subst hbs
  obtain ⟨hle, hcut⟩ := boundary_at hb han hn k
  rw [← hoff] at hle hcut
  have hcut' : Lines.cut LF (h.bytes.take pre.checkpointOffset) = _ :=
    (congrArg (Lines.cut LF) (hph.take (hle.trans hn))).trans hcut
  have hmade : CheckpointMade E h c := by
    refine checkpointAt_of_read hcreate hid hobs hanchor ?_ ?_
    · rw [hcut']
    · rw [hcut', hline, List.length_append]
      omega
  have hcoff : c.byteOffset = pre.checkpointOffset := (createJsonlCheckpoint_ok.1 hcreate).2.2.1
  have hlen := (take_boundary hb han (han.trans hn)).2
  refine ⟨⟨h, hhg, hmade⟩, by omega, by omega, ?_⟩
  have hpg := hph.trans hhg
  rw [hcoff, linesOf_grows hpg (hle.trans hn), linesOf_grows hpg (han.trans hn), linesOf, hcut, hls,
    placeLines_take, placeLines_append, linesOf, hlen, Nat.zero_add]

variable (epoch key reads) in
/-- The prefix of a scan of placed lines ends after its lines. -/
theorem prefix_end {a line : ℕ} {bs : List Bytes} {ls : List (JsonlLine Json)}
    (hls : ls = placeLines (parseJson E) line a bs) :
    readPrefix epoch key reads ls = ls.take (readPrefix epoch key reads ls).length ∧
      ((readPrefix epoch key reads ls).getLast?.map JsonlLine.nextOffset).getD a =
        a + (Lines.join LF (bs.take (readPrefix epoch key reads ls).length)).length ∧
      ((readPrefix epoch key reads ls).getLast?.map (fun l => l.lineNumber + 1)).getD line =
        line + (bs.take (readPrefix epoch key reads ls).length).length := by
  have htake : readPrefix epoch key reads ls = ls.take (readPrefix epoch key reads ls).length :=
    List.prefix_iff_eq_take.1 (List.takeWhile_prefix _)
  have hplace := htake
  rw [hls, placeLines_take, ← hls] at hplace
  obtain ⟨h1, h2⟩ :=
    placeLines_last (parseJson E) line a (bs.take (readPrefix epoch key reads ls).length)
  rw [← hplace] at h1 h2
  exact ⟨htake, h1, h2⟩

theorem closeScan_ok {file : BarbaroFeedFile} {snapshot : FileSnapshot}
    {summary : JsonlReadSummary} {st : LineScan E} {scan : FeedScan E}
    (h : closeScan file snapshot summary st = .ok scan) :
    ∃ pre, prefixSummary file summary st = .ok pre ∧
      createJsonlCheckpoint pre.position = .ok scan.coveredCheckpoint ∧
      scan.unreadCount = st.unreadCount ∧ scan.latest = st.latest ∧
      scan.collapsedRecordKeys = st.collapsedRecordKeys ∧
      scan.unreadRecordKeys = st.unreadRecordKeys := by
  simp only [closeScan, Outcome.guard_ok, Outcome.bind_ok, Outcome.pure_ok] at h
  obtain ⟨-, pre, hpre, -, -, -, c, hc, rfl⟩ := h
  exact ⟨pre, hpre, hc, rfl, rfl, rfl, rfl⟩

/-- **A scan that succeeds** counts the unread lines after its checkpoint up to the size it
found, and covers their read prefix. -/
theorem scanFeed_ok {f g : FileState} {file : BarbaroFeedFile} (hshow : FeedShows f g file)
    {cp : Option JsonlCheckpoint} (hcp : ∀ c, cp = some c → CheckpointAt E f c) {scan : FeedScan E}
    (h : scanFeed epoch key reads targets file cp = .ok scan) :
    ∃ p ls, file.path = .file p ∧ ScannedFeed epoch key reads targets f g cp scan p.size ls := by
  simp only [scanFeed, Outcome.bind_ok] at h
  obtain ⟨resolution, hresolve, h⟩ := h
  cases hpath : file.path with
  | missing =>
    rw [hpath] at hresolve
    simp only [resolveJsonlCheckpoint, Outcome.bind_ok, Outcome.exists_unit, Outcome.pure_ok] at hresolve
    obtain ⟨-, -, rfl⟩ := hresolve
    simp at h
  | refused code =>
    rw [hpath] at hresolve
    simp [resolveJsonlCheckpoint] at hresolve
  | file p =>
    rw [hpath] at hresolve
    obtain ⟨hfp, hpg⟩ := hshow.path p hpath
    obtain ⟨hstart, hline, snapshot, hsnap, hrsnap⟩ := resolve_checkpoint hfp hcp hresolve
    have hsize : snapshot.size = p.size := (snapshotFromStats_ok hsnap).1
    obtain ⟨hbf, hb⟩ := startOf_boundary (fun x hx => (hcp x hx).mono hfp)
    rw [hrsnap] at h
    simp only [Outcome.bind_ok] at h
    obtain ⟨summary, hsummary, hclose⟩ := h
    rw [hstart, hline, hsize] at hsummary hclose
    obtain ⟨hevents, hgrow, hid, hobs, hanchor, hoff, hnext⟩ := boundedRead_ok hbf le_rfl
      (hshow.scan p hpath _ _) rfl rfl rfl hsummary
    rw [hevents] at hclose
    set a := startOf cp with ha
    obtain ⟨bs, hbs⟩ : ∃ bs, bs = (Lines.cut LF ((p.bytes.drop a).take (p.size - a))).1 := ⟨_, rfl⟩
    rw [← hbs] at hclose hoff hnext
    obtain ⟨ls, hls⟩ : ∃ ls, ls =
      placeLines (parseJson E) (1 + (Lines.cut LF (p.bytes.take a)).1.length) a bs := ⟨_, rfl⟩
    rw [← hls] at hclose
    obtain ⟨htake, hpoff, hpline⟩ := prefix_end epoch key reads hls
    obtain ⟨pre, hpre, hcreate, hcount, hlatest, hcollapsed, hkeys⟩ := closeScan_ok hclose
    obtain ⟨hopen, hprefix, hpl, hcol⟩ := scanLines_prefix epoch key reads targets ls
      { prefixOffset := a, prefixLine := 1 + (Lines.cut LF (p.bytes.take a)).1.length } rfl
    rw [prefixSummary, hprefix, hpl, hopen, hpoff, hpline] at hpre
    have hcovered : CheckpointAt E g scan.coveredCheckpoint ∧ a ≤ scan.coveredCheckpoint.byteOffset ∧
        scan.coveredCheckpoint.byteOffset ≤ p.size ∧
        linesOf E g scan.coveredCheckpoint.byteOffset =
          linesOf E g a ++ readPrefix epoch key reads ls := by
      rw [htake]
      split at hpre
      · -- no turn on the way is unread: the prefix is all lines
        next hall =>
        cases hpre
        have hfull : readPrefix epoch key reads ls = ls := by
          rw [readPrefix, List.takeWhile_eq_self_iff]
          exact fun l hl => List.all_eq_true.1 hall l hl
        have hlen : bs.length = ls.length := by rw [hls, placeLines_length]
        rw [hfull]
        refine covered_at hb hbf le_rfl hgrow (hshow.scan p hpath _ _).final hbs hls hcreate hid hobs
          hanchor ?_ ?_
        · rw [hoff, ← hlen, List.take_length]
        · rw [hnext, ← hlen, List.take_length]
      · -- the first unread turn: a read of no bytes takes the anchor before it
        set k := (readPrefix epoch key reads ls).length
        obtain ⟨hle, -⟩ := boundary_at hb hbf le_rfl k
        rw [← hbs] at hle
        obtain ⟨-, hgrow', hid', hobs', hanchor', hoff', hnext'⟩ := boundedRead_ok le_rfl hle
          (hshow.anchor p hpath _) rfl rfl rfl hpre
        rw [Nat.sub_self, List.take_zero, Lines.cut_nil] at hoff' hnext'
        exact covered_at hb hbf le_rfl hgrow' (hshow.anchor p hpath _).final hbs hls hcreate hid'
          hobs' hanchor' hoff' hnext'
    obtain ⟨hat, hge, hle, hlines⟩ := hcovered
    refine ⟨p, ls, rfl, hfp.size_le, hpg.size_le, hbf, ?_, ?_, hat, hge, hlines, ?_, ?_, ?_⟩
    · rw [linesOf_grows hpg le_rfl, linesOf_grows hpg hbf, linesOf_from hb hbf hbf, hls, hbs]
    · rw [hcount, scanLines_count, Nat.zero_add]
    · rw [hcollapsed, hcol, List.nil_append]
    · intro k
      rw [hkeys, scanLines_keys]
      simp
    · rw [hlatest, scanLines_latest]

end

end Barbaro
