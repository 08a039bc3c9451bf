import Barbaro.Core.Host
import Barbaro.Lib.Outcome

/-!
# Checkpoints of a JSONL reader

A checkpoint records how far one forward reader has consumed a file, with the
file's identity, its size, and the digest of the (at most 64) bytes before the
offset. `resolveJsonlCheckpoint` decides whether a later reader may resume there.

* `createJsonlCheckpoint_valid`: a checkpoint the program creates passes the
  validation it runs before it uses one.
* `resolve_of_grows`: if the file has only grown since, the decision is to resume,
  at the checkpoint's offset and line number.
-/

namespace Barbaro

/-! ## Files -/

/-- A file as `stat(2)` and `read(2)` show it at one moment. -/
structure FileState where
  isFile : Bool := true
  dev : ℤ
  ino : ℤ
  birthtimeNs : ℤ
  mtimeNs : ℤ
  nlink : ℕ := 1
  bytes : Bytes

/-- `stats.size` -/
def FileState.size (f : FileState) : ℕ := f.bytes.length

/-- What `open` on a path gives: nothing there, another refusal of the operating
system (a symbolic link under `O_NOFOLLOW`, missing permission), or a handle. -/
inductive Opened
  | missing
  | refused (code : String)
  | file (f : FileState)

/-- The file has only grown by appended bytes from `f` to `g`. -/
structure Grows (f g : FileState) : Prop where
  isFile : f.isFile = g.isFile
  dev : f.dev = g.dev
  ino : f.ino = g.ino
  birthtimeNs : f.birthtimeNs = g.birthtimeNs
  bytes : f.bytes <+: g.bytes

theorem Grows.refl (f : FileState) : Grows f f := ⟨rfl, rfl, rfl, rfl, List.prefix_rfl⟩

theorem Grows.trans {f g h : FileState} (a : Grows f g) (b : Grows g h) : Grows f h :=
  ⟨a.isFile.trans b.isFile, a.dev.trans b.dev, a.ino.trans b.ino,
    a.birthtimeNs.trans b.birthtimeNs, a.bytes.trans b.bytes⟩

theorem Grows.size_le {f g : FileState} (h : Grows f g) : f.size ≤ g.size := h.bytes.length_le

/-! ## Checkpoint data -/

def checkpointSchema : JsString := js "barbaro.jsonl-checkpoint.v1"

/-- `CHECKPOINT_ANCHOR_BYTES` -/
def checkpointAnchorBytes : ℕ := 64

structure FileIdentity where
  device : JsString
  inode : JsString
  birthtimeNs : JsString
  deriving DecidableEq, Repr

structure FileSnapshot where
  identity : FileIdentity
  size : ℕ
  mtimeNs : JsString
  deriving DecidableEq, Repr

structure CheckpointAnchor where
  byteLength : ℕ
  sha256 : JsString
  deriving DecidableEq, Repr

structure JsonlCheckpoint where
  schema : JsString
  fileIdentity : FileIdentity
  /-- First byte that has not been committed. -/
  byteOffset : ℕ
  /-- One-based physical line number at `byteOffset`. -/
  nextLineNumber : ℕ
  /-- File size observed after the read, an uncommitted partial line included. -/
  observedSize : ℕ
  /-- Digest of up to 64 bytes immediately before `byteOffset`. -/
  anchor : CheckpointAnchor
  deriving DecidableEq, Repr

structure JsonlCheckpointPosition where
  fileIdentity : FileIdentity
  checkpointOffset : ℕ
  nextLineNumber : ℕ
  observedSize : ℕ
  checkpointAnchor : CheckpointAnchor

inductive CheckpointResolutionStatus
  | start
  | resume
  | rotated
  | truncated
  | rewritten
  | missing
  deriving DecidableEq, Repr

structure CheckpointResolution where
  status : CheckpointResolutionStatus
  startOffset : ℕ
  nextLineNumber : ℕ
  snapshot : Option FileSnapshot
  deriving DecidableEq, Repr

structure CheckpointReadOptions where
  requireSingleLink : Bool := false
  maxFileBytes : Option ℕ := none

/-! ## Validation -/

def assertSafeNonNegativeInteger (value : ℕ) (name : String) : Except Failure Unit :=
  if value ≤ maxSafeInteger then .ok ()
  else .error (.rangeError s!"{name} must be a non-negative safe integer")

def assertSafePositiveInteger (value : ℕ) (name : String) : Except Failure Unit :=
  if 1 ≤ value ∧ value ≤ maxSafeInteger then .ok ()
  else .error (.rangeError s!"{name} must be a positive safe integer")

def isDecimalDigit (u : UInt16) : Bool := 48 ≤ u.toNat && u.toNat ≤ 57

/-- `/^(?:0|[1-9][0-9]*)$/` -/
def isDecimal : JsString → Bool
  | [] => false
  | [u] => isDecimalDigit u
  | u :: us => isDecimalDigit u && u.toNat ≠ 48 && us.all isDecimalDigit

def validateFileIdentity (identity : FileIdentity) : Except Failure Unit :=
  if !isDecimal identity.device then
    .error (.typeError "device must be a decimal non-negative integer")
  else if !isDecimal identity.inode then
    .error (.typeError "inode must be a decimal non-negative integer")
  else if !isDecimal identity.birthtimeNs then
    .error (.typeError "birthtime_ns must be a decimal non-negative integer")
  else .ok ()

def validateAnchor (anchor : CheckpointAnchor) (byteOffset : ℕ) : Except Failure Unit := do
  assertSafeNonNegativeInteger anchor.byteLength "anchor.byte_length"
  if anchor.byteLength ≠ min checkpointAnchorBytes byteOffset then
    .error (.rangeError "anchor.byte_length does not match byte_offset")
  else if !isSha256Hex anchor.sha256 then
    .error (.typeError "anchor.sha256 must be a lowercase SHA-256 hex digest")
  else .ok ()

def validateJsonlCheckpoint (checkpoint : JsonlCheckpoint) : Except Failure Unit := do
  if checkpoint.schema ≠ checkpointSchema then
    .error (.typeError "Unsupported checkpoint schema")
  else do
    validateFileIdentity checkpoint.fileIdentity
    assertSafeNonNegativeInteger checkpoint.byteOffset "byte_offset"
    assertSafePositiveInteger checkpoint.nextLineNumber "next_line_number"
    assertSafeNonNegativeInteger checkpoint.observedSize "observed_size"
    if checkpoint.byteOffset > checkpoint.observedSize then
      .error (.rangeError "byte_offset cannot exceed observed_size")
    else validateAnchor checkpoint.anchor checkpoint.byteOffset

def createJsonlCheckpoint (position : JsonlCheckpointPosition) :
    Except Failure JsonlCheckpoint := do
  assertSafeNonNegativeInteger position.checkpointOffset "checkpointOffset"
  assertSafePositiveInteger position.nextLineNumber "nextLineNumber"
  assertSafeNonNegativeInteger position.observedSize "observedSize"
  if position.checkpointOffset > position.observedSize then
    .error (.rangeError "checkpointOffset cannot exceed observedSize")
  else do
    validateFileIdentity position.fileIdentity
    validateAnchor position.checkpointAnchor position.checkpointOffset
    return {
      schema := checkpointSchema
      fileIdentity := position.fileIdentity
      byteOffset := position.checkpointOffset
      nextLineNumber := position.nextLineNumber
      observedSize := position.observedSize
      anchor := position.checkpointAnchor }

/-! ## Resolution -/

def snapshotFromStats (stats : FileState) : Except Failure FileSnapshot :=
  if !stats.isFile then .error (.typeError "JSONL trace path is not a regular file")
  else if stats.size > maxSafeInteger then
    .error (.rangeError "JSONL trace is too large for a safe byte offset")
  else .ok {
    identity := {
      device := js (toString stats.dev)
      inode := js (toString stats.ino)
      birthtimeNs := js (toString stats.birthtimeNs) }
    size := stats.size
    mtimeNs := js (toString stats.mtimeNs) }

def fileIdentityEquals (left right : FileIdentity) : Bool :=
  left.device == right.device && left.inode == right.inode && left.birthtimeNs == right.birthtimeNs

@[simp] theorem fileIdentityEquals_iff {l r : FileIdentity} : fileIdentityEquals l r = true ↔ l = r := by
  cases l; cases r; simp [fileIdentityEquals, and_assoc]

def resetResolution (status : CheckpointResolutionStatus) (snapshot : FileSnapshot) :
    CheckpointResolution :=
  { status, startOffset := 0, nextLineNumber := 1, snapshot := some snapshot }

section
variable (H : Hasher)

/-- The digest of the bytes immediately before an offset of the open file. -/
def readCheckpointAnchor (handle : FileState) (byteOffset : ℕ) :
    Except Failure CheckpointAnchor := do
  assertSafeNonNegativeInteger byteOffset "byteOffset"
  let byteLength := min checkpointAnchorBytes byteOffset
  let bytes := (handle.bytes.drop (byteOffset - byteLength)).take byteLength
  if bytes.length ≠ byteLength then
    .error (.rangeError "File became shorter while reading checkpoint anchor")
  else return { byteLength, sha256 := H.sha256 bytes }

/-- `validateReadOptions` -/
def validateReadOptions (options : CheckpointReadOptions) : Except Failure Unit :=
  match options.maxFileBytes with
  | none => .ok ()
  | some n =>
    if n ≤ maxSafeInteger then .ok ()
    else .error (.typeError "maxFileBytes must be a non-negative safe integer")

/-- Refuse a file larger than the caller's bound. -/
def assertFileWithinLimit (what : String) (size : ℕ) (maxFileBytes observed : Option ℕ) :
    Except Failure Unit :=
  match maxFileBytes with
  | none => .ok ()
  | some n =>
    if size > n then .error (.inputLimit s!"{what} exceeds {n} bytes" .file n observed) else .ok ()

/-- Resolve a saved checkpoint against the file now at a path. Another identity is a
rotation, a smaller size a truncation, and another anchor a rewrite in place. -/
def resolveJsonlCheckpoint (path : Opened) (checkpoint : Option JsonlCheckpoint)
    (options : CheckpointReadOptions) : Except Failure CheckpointResolution := do
  checkpoint.forM validateJsonlCheckpoint
  validateReadOptions options
  match path with
  | .missing =>
    return { status := .missing, startOffset := 0, nextLineNumber := 1, snapshot := none }
  | .refused code => .error (.system code)
  | .file handle =>
    if options.requireSingleLink ∧ handle.nlink ≠ 1 then
      .error (.typeError "JSONL checkpoint path has multiple hard links")
    else do
      let snapshot ← snapshotFromStats handle
      assertFileWithinLimit "JSONL checkpoint path" snapshot.size options.maxFileBytes none
      match checkpoint with
      | none =>
        return { status := .start, startOffset := 0, nextLineNumber := 1, snapshot := some snapshot }
      | some c =>
        if !fileIdentityEquals snapshot.identity c.fileIdentity then return resetResolution .rotated snapshot
        else if snapshot.size < c.byteOffset ∨ snapshot.size < c.observedSize then
          return resetResolution .truncated snapshot
        else do
          let currentAnchor ← readCheckpointAnchor H handle c.byteOffset
          if currentAnchor.byteLength ≠ c.anchor.byteLength ∨
              currentAnchor.sha256 ≠ c.anchor.sha256 then
            return resetResolution .rewritten snapshot
          else
            return {
              status := .resume
              startOffset := c.byteOffset
              nextLineNumber := c.nextLineNumber
              snapshot := some snapshot }

/-! ## What the checks guarantee -/

@[simp] theorem assertSafeNonNegativeInteger_ok {v : ℕ} {n : String} :
    assertSafeNonNegativeInteger v n = .ok () ↔ v ≤ maxSafeInteger := by
  simp [assertSafeNonNegativeInteger]

@[simp] theorem assertSafePositiveInteger_ok {v : ℕ} {n : String} :
    assertSafePositiveInteger v n = .ok () ↔ 1 ≤ v ∧ v ≤ maxSafeInteger := by
  simp [assertSafePositiveInteger]

/-- What `validateJsonlCheckpoint` accepts. -/
structure JsonlCheckpoint.Valid (c : JsonlCheckpoint) : Prop where
  schema : c.schema = checkpointSchema
  identity : validateFileIdentity c.fileIdentity = .ok ()
  byteOffset : c.byteOffset ≤ c.observedSize
  nextLineNumber : 1 ≤ c.nextLineNumber ∧ c.nextLineNumber ≤ maxSafeInteger
  observedSize : c.observedSize ≤ maxSafeInteger
  anchor : validateAnchor c.anchor c.byteOffset = .ok ()

theorem validateJsonlCheckpoint_ok {c : JsonlCheckpoint} :
    validateJsonlCheckpoint c = .ok () ↔ c.Valid := by
  simp only [validateJsonlCheckpoint, ne_eq, Outcome.guard_ok, not_not, Outcome.bind_ok, Outcome.exists_unit,
    assertSafeNonNegativeInteger_ok, assertSafePositiveInteger_ok, not_lt, gt_iff_lt]
  constructor
  · rintro ⟨h1, h2, -, h4, h5, h6, h7⟩
    exact ⟨h1, h2, h6, h4, h5, h7⟩
  · rintro ⟨h1, h2, h3, h4, h5, h6⟩
    exact ⟨h1, h2, by omega, h4, h5, h3, h6⟩

/-- **A created checkpoint passes the validation** that later runs check it with, and
any checkpoint that does is created from its own position. -/
theorem createJsonlCheckpoint_ok {p : JsonlCheckpointPosition} {c : JsonlCheckpoint} :
    createJsonlCheckpoint p = .ok c ↔ c.Valid ∧ c.fileIdentity = p.fileIdentity ∧
      c.byteOffset = p.checkpointOffset ∧ c.nextLineNumber = p.nextLineNumber ∧
      c.observedSize = p.observedSize ∧ c.anchor = p.checkpointAnchor := by
  simp only [createJsonlCheckpoint, Outcome.guard_ok, Outcome.bind_ok, Outcome.exists_unit, Outcome.pure_ok,
    assertSafeNonNegativeInteger_ok, assertSafePositiveInteger_ok, not_lt,
    gt_iff_lt]
  constructor
  · rintro ⟨-, h2, h3, h4, h5, h6, rfl⟩
    exact ⟨⟨rfl, h5, h4, h2, h3, h6⟩, rfl, rfl, rfl, rfl, rfl⟩
  · rintro ⟨⟨h1, h2, h3, h4, h5, h6⟩, e1, e2, e3, e4, e5⟩
    rw [← e1, ← e2, ← e3, ← e4, ← e5]
    refine ⟨by omega, h4, h5, h3, h2, h6, ?_⟩
    rw [← h1]

theorem snapshotFromStats_ok {f : FileState} {s : FileSnapshot} (h : snapshotFromStats f = .ok s) :
    s.size = f.size ∧ f.isFile = true ∧ f.size ≤ maxSafeInteger := by
  simp only [snapshotFromStats, Outcome.guard_ok, gt_iff_lt, not_lt, Except.ok.injEq,
    Bool.not_eq_true', Bool.not_eq_false] at h
  obtain ⟨h1, h2, rfl⟩ := h
  exact ⟨rfl, h1, h2⟩

/-- A file keeps its identity while it grows. -/
theorem Grows.identity {f g : FileState} (h : Grows f g) {s t : FileSnapshot}
    (hs : snapshotFromStats f = .ok s) (ht : snapshotFromStats g = .ok t) :
    s.identity = t.identity := by
  simp only [snapshotFromStats, Outcome.guard_ok, Except.ok.injEq] at hs ht
  obtain ⟨-, -, rfl⟩ := hs
  obtain ⟨-, -, rfl⟩ := ht
  simp [h.dev, h.ino, h.birthtimeNs]

/-- The anchor of an offset the file already had does not change while it grows. -/
theorem Grows.anchor {f g : FileState} (h : Grows f g) {n : ℕ} (hn : n ≤ f.size) :
    readCheckpointAnchor H g n = readCheckpointAnchor H f n := by
  obtain ⟨r, hr⟩ := h.bytes
  have hk : min checkpointAnchorBytes n ≤ n := Nat.min_le_right _ _
  have hsl : (g.bytes.drop (n - min checkpointAnchorBytes n)).take (min checkpointAnchorBytes n) =
      (f.bytes.drop (n - min checkpointAnchorBytes n)).take (min checkpointAnchorBytes n) := by
    unfold FileState.size at hn
    rw [← hr, List.drop_append_of_le_length (by omega), List.take_append_of_le_length]
    simp only [List.length_drop]
    omega
  simp only [readCheckpointAnchor, hsl]

/-- **A file that has only grown is resumed.** The checkpoint was created on `f` at
an offset inside it; the file is now `g`, still within the limits. Then the
resolution is to resume there. -/
theorem resolve_of_grows {f g : FileState} (hg : Grows f g) {c : JsonlCheckpoint} (hc : c.Valid)
    {s : FileSnapshot} (hs : snapshotFromStats f = .ok s) (hid : c.fileIdentity = s.identity)
    (hsz : c.observedSize ≤ f.size) (ha : readCheckpointAnchor H f c.byteOffset = .ok c.anchor)
    {options : CheckpointReadOptions} {r : CheckpointResolution}
    (h : resolveJsonlCheckpoint H (.file g) (some c) options = .ok r) :
    r.status = .resume ∧ r.startOffset = c.byteOffset ∧ r.nextLineNumber = c.nextLineNumber ∧
      ∃ t, snapshotFromStats g = .ok t ∧ r.snapshot = some t := by
  have hoff : c.byteOffset ≤ f.size := le_trans hc.byteOffset hsz
  simp only [resolveJsonlCheckpoint, Outcome.bind_ok, Outcome.exists_unit, Outcome.guard_ok] at h
  obtain ⟨-, -, -, t, ht, -, h⟩ := h
  have hti : t.identity = c.fileIdentity := by rw [hid, hg.identity hs ht]
  have hts := (snapshotFromStats_ok ht).1
  have hsz' := hg.size_le
  rw [if_neg (by simp [hti]), if_neg (by omega), hg.anchor H hoff, ha] at h
  simp only [Outcome.ok_bind, ne_eq, not_true_eq_false, or_self, if_false, Outcome.pure_ok] at h
  subst h
  exact ⟨rfl, rfl, rfl, t, ht, rfl⟩

end

end Barbaro
