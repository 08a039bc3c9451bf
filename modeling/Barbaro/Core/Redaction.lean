import Barbaro.Core.Content

/-!
# Failure excerpts

A bounded excerpt of what a tool has said, scrubbed of a deliberately small set of credential
shapes. The shapes are looked for one after the other, each in what the one before has left.

* `replaceAll`: a replacement at every place of a text where a shape begins.
* `redactedExcerptContent`: the excerpt, with how often each shape was found.
-/

namespace Barbaro

/-- `verbatimContent` of a text. -/
def verbatimContent (text : JsString) : Json :=
  .obj [(js "text", .str text), (js "fidelity", .str (js "verbatim")), (js "truncated", .bool false),
    (js "original_utf8_bytes", natJson (byteLength text)), (js "redactions", .arr [])]

/-! ## Classes of characters -/

def isUpperUnit (u : UInt16) : Bool := 65 ≤ u.toNat && u.toNat ≤ 90

def isDigitUnit (u : UInt16) : Bool := 48 ≤ u.toNat && u.toNat ≤ 57

def isAlnumUnit (u : UInt16) : Bool := isUpperUnit u || isLowerLetter u || isDigitUnit u

/-- `\w` -/
def isWordUnit (u : UInt16) : Bool := isAlnumUnit u || u == 95

/-- `\b` between two neighbours. -/
def isBoundary (left right : Option UInt16) : Bool := left.any isWordUnit != right.any isWordUnit

/-- The letters as the `i` flag compares them with those of a pattern. -/
def lowerUnit (u : UInt16) : UInt16 := if isUpperUnit u then u + 32 else u

/-- The text begins with the word, in letters of either case. -/
def startsIgnoringCase (word : String) (text : JsString) : Bool :=
  (text.take word.length).map lowerUnit == js word

/-- The text has the word somewhere, in letters of either case. -/
def hasIgnoringCase (word : String) (text : JsString) : Bool :=
  text.tails.any (startsIgnoringCase word)

/-! ## Replacements -/

/-- What stands for a shape that begins here, and its length. The first argument is the character before. -/
abbrev Shape : Type := Option UInt16 → JsString → Option (JsString × ℕ)

/-- `text.replace` from a place on, which may lie in a shape that was found. -/
def replaceFrom (shape : Shape) : ℕ → Option UInt16 → JsString → JsString × ℕ
  | _, _, [] => ([], 0)
  | skip + 1, _, u :: s => replaceFrom shape skip (some u) s
  | 0, previous, u :: s =>
    match shape previous (u :: s) with
    | none =>
      let rest := replaceFrom shape 0 (some u) s
      (u :: rest.1, rest.2)
    | some (replacement, length) =>
      let rest := replaceFrom shape (length - 1) (some u) s
      (replacement ++ rest.1, rest.2 + 1)

/-- The text with its replacements, and how many there were. -/
def replaceAll (shape : Shape) (text : JsString) : JsString × ℕ := replaceFrom shape 0 none text

/-- The length of `-----BEGIN … PRIVATE KEY-----`, or of the line that ends it. -/
def keyLine (kind : String) (text : JsString) : Option ℕ :=
  let opening := js "-----" ++ js kind ++ [32]
  if !opening.isPrefixOf text then none
  else
    let body := text.drop opening.length
    let name := body.takeWhile fun u => u != 45 && u != 13 && u != 10
    if (js "PRIVATE KEY").isSuffixOf name && (js "-----").isPrefixOf (body.drop name.length) then
      some (opening.length + name.length + 5)
    else none

/-- The end of the first line that ends a key. -/
def keyEnd : JsString → Option ℕ
  | [] => none
  | u :: s =>
    match keyLine "END" (u :: s) with
    | some length => some length
    | none => (keyEnd s).map (· + 1)

def privateKey : Shape := fun _ text => do
  let length ← keyLine "BEGIN" text
  let rest ← keyEnd (text.drop length)
  return (js "[REDACTED PRIVATE KEY]", length + rest)

/-- `[A-Za-z0-9._~+/=-]` -/
def isTokenUnit (u : UInt16) : Bool := isAlnumUnit u || (js "._~+/=-").contains u

def bearerToken : Shape := fun previous text =>
  if previous.any isWordUnit || !startsIgnoringCase "bearer" text then none
  else
    let blanks := (text.drop 6).takeWhile isTrimUnit
    let token := (text.drop (6 + blanks.length)).takeWhile isTokenUnit
    if blanks.isEmpty || token.length < 8 then none
    else some (text.take (6 + blanks.length) ++ js "[REDACTED]", 6 + blanks.length + token.length)

def credentialNames : List String :=
  ["api_key", "api-key", "apikey", "access_token", "access-token", "accesstoken", "auth_token", "auth-token", "authtoken",
    "secret", "password", "passwd"]

def isQuote (u : UInt16) : Bool := u == 34 || u == 39

/-- `[^\s"',;}\]]` -/
def isValueUnit (u : UInt16) : Bool := !(isTrimUnit u || (js "\"',;\x7d]").contains u)

def credentialAssignment : Shape := fun previous text => do
  let name ← credentialNames.find? fun name => startsIgnoringCase name text
  let blanks := (text.drop name.length).takeWhile isTrimUnit
  let sign := text.drop (name.length + blanks.length)
  if previous.any isWordUnit || !(sign.head?.any fun u => u == 58 || u == 61) then none
  else
    let more := (sign.drop 1).takeWhile isTrimUnit
    let separated := name.length + blanks.length + 1 + more.length
    let quote := ((text.drop separated).take 1).filter isQuote
    let value := (text.drop (separated + quote.length)).takeWhile isValueUnit
    let closing := ((text.drop (separated + quote.length + value.length)).take 1).filter isQuote
    if value.isEmpty then none
    else return (text.take separated ++ quote ++ js "[REDACTED]" ++ quote,
      separated + quote.length + value.length + closing.length)

/-- The longest part of a run of at least this length that ends at a boundary. -/
def boundedRun (run rest : JsString) (least : ℕ) : Option ℕ :=
  (List.range (run.length + 1)).reverse.find? fun n =>
    least ≤ n && isBoundary (run.take n).getLast? ((run.drop n ++ rest).head?)

/-- The rest of a token of the given class, after its first characters. -/
def tokenOf (opening : ℕ) (unit : UInt16 → Bool) (least : ℕ) (text : JsString) : Option ℕ :=
  let run := (text.drop opening).takeWhile unit
  (boundedRun run (text.drop (opening + run.length)) least).map (· + opening)

def credentialToken : Shape := fun previous text =>
  let length :=
    if (js "sk-").isPrefixOf text then tokenOf 3 (fun u => isWordUnit u || u == 45) 20 text
    else if (js "gh").isPrefixOf text && ((text.drop 2).head?.any (js "pousr").contains) && (text.drop 3).head? == some 95 then
      tokenOf 4 isAlnumUnit 20 text
    else if (js "AKIA").isPrefixOf text then
      let key := (text.drop 4).take 16
      if key.length == 16 && key.all (fun u => isUpperUnit u || isDigitUnit u) &&
          !((text.drop 20).head?.any isWordUnit) then some 20
      else none
    else none
  if previous.any isWordUnit then none else length.map fun n => (js "[REDACTED TOKEN]", n)

/-! ## The excerpt -/

def redactionJson (kind : String) (count : ℕ) : Json := .obj [(js "kind", .str (js kind)), (js "count", natJson count)]

/-- `redactedExcerptContent` of a text. -/
def redactedExcerptContent (text : JsString) (maxUtf8Bytes : ℕ) : Json :=
  let keys := replaceAll privateKey text
  let bearers := replaceAll bearerToken keys.1
  let assignments := replaceAll credentialAssignment bearers.1
  let tokens := replaceAll credentialToken assignments.1
  let counts := [("bearer_token", bearers.2), ("credential_assignment", assignments.2), ("credential_token", tokens.2),
    ("private_key", keys.2)].filter fun entry => 0 < entry.2
  .obj [(js "text", .str (truncateUtf8 tokens.1 maxUtf8Bytes)),
    (js "fidelity", .str (js (if counts.isEmpty then "excerpt" else "redacted"))),
    (js "truncated", .bool (decide (maxUtf8Bytes < byteLength tokens.1))),
    (js "original_utf8_bytes", natJson (byteLength text)),
    (js "redactions", .arr (counts.map fun entry => redactionJson entry.1 entry.2))]

end Barbaro
