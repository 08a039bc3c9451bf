import Barbaro.Lib.Json
import Barbaro.Lib.Utf16
import Mathlib.Data.List.Infix
import Mathlib.Data.List.Lex

/-!
# What the host gives the program

The values the language and its standard library supply: bytes, strings (lists of
UTF-16 code units), the exceptions the code throws, SHA-256, dates and doubles.

The digest is a parameter (`Hasher`): nothing depends on which function it is,
only on every digest being 64 lowercase hex digits. `Host` adds `Date.parse`,
`toISOString`, which it reads back, and the rounding of a decimal text to a double, also
as parameters.
-/

namespace Barbaro

abbrev Bytes := List UInt8

/-- The text of a string value: its UTF-16 code units. -/
abbrev JsString := List UInt16

instance : LawfulBEq JsString := inferInstance

/-- A string literal of the source. -/
def js (s : String) : JsString := s.toList.flatMap (fun c => Utf16.unitsOne c.toNat)

/-- Different literals are different strings. -/
@[simp] theorem js_inj {s t : String} : js s = js t ↔ s = t := by
  refine ⟨fun h => ?_, fun h => by rw [h]⟩
  have hunits : ∀ s : String, js s = Utf16.units (s.toList.map Char.toNat) := by
    intro s
    simp [js, Utf16.units, List.flatMap_map]
  have hpoints : ∀ s : String, Utf16.codePoints (js s) = s.toList.map Char.toNat := by
    intro s
    rw [hunits]
    refine Utf16.codePoints_units fun c hc => ?_
    obtain ⟨ch, -, rfl⟩ := List.mem_map.1 hc
    have hv : ch.toNat < 0xD800 ∨ (0xDFFF < ch.toNat ∧ ch.toNat < 0x110000) := ch.valid
    exact hv.imp id (fun h => ⟨by omega, h.2⟩)
  have hlist : s.toList.map Char.toNat = t.toList.map Char.toNat := by rw [← hpoints, h, hpoints]
  exact String.toList_injective (List.map_injective_iff.2 (fun a b => Char.toNat_inj.1) hlist)

/-- `Buffer.from(text, "utf8")`. -/
abbrev utf8 (s : JsString) : Bytes := Utf16.utf8 s

/-- `Buffer.byteLength(text, "utf8")`. -/
def byteLength (s : JsString) : ℕ := (utf8 s).length

/-- `buffer.toString("utf8")`: ill-formed pieces become U+FFFD. -/
def bytesToString (b : Bytes) : JsString :=
  Utf16.units ((Utf8.decode b).map (fun c => c.getD 0xFFFD))

/-- `new TextDecoder("utf-8", { fatal: true }).decode(buffer)`: ill-formed input is
refused, a byte order mark at the start is dropped. -/
def textDecode (b : Bytes) : Option JsString :=
  if (Utf8.decode b).all Option.isSome then
    match (Utf8.decode b).map (fun c => c.getD 0xFFFD) with
    | 0xFEFF :: t => some (Utf16.units t)
    | t => some (Utf16.units t)
  else none

/-- A string as it appears in a message. -/
def messageText (s : JsString) : String := String.ofList ((Utf16.codePoints s).map Char.ofNat)

def LF : UInt8 := 0x0A
def CR : UInt8 := 0x0D

/-- `Number.MAX_SAFE_INTEGER` -/
def maxSafeInteger : ℕ := 2 ^ 53 - 1

/-- What an `InputLimitError` bounds. -/
inductive LimitKind
  | file
  | record
  deriving DecidableEq, Repr

/-- The exceptions the modelled code throws. -/
inductive Failure
  | error (message : String)
  | typeError (message : String)
  | rangeError (message : String)
  /-- What `JSON.parse` throws. -/
  | syntaxError
  /-- `InputLimitError`: a physical input bound, distinct from bad options or
  corrupt state. -/
  | inputLimit (message : String) (kind : LimitKind) (maximumBytes : ℕ) (observedBytes : Option ℕ)
  /-- `ReadCoverageCapacityError` -/
  | coverageCapacity (message : String)
  /-- An error of the operating system, with its code. -/
  | system (code : String)
  deriving DecidableEq, Repr

/-- A lowercase hexadecimal digit. -/
def isHexDigit (u : UInt16) : Bool :=
  (48 ≤ u.toNat && u.toNat ≤ 57) || (97 ≤ u.toNat && u.toNat ≤ 102)

/-- `/^[0-9a-f]{64}$/` -/
def isSha256Hex (s : JsString) : Bool := s.length == 64 && s.all isHexDigit

/-- SHA-256, as a hex digest. -/
structure Hasher where
  sha256 : Bytes → JsString
  hex : ∀ b, isSha256Hex (sha256 b) = true

/-- What else the host computes and nothing here depends on in detail. -/
structure Host extends Hasher where
  /-- `Date.parse`, in milliseconds; nothing for NaN. -/
  dateParse : JsString → Option ℤ
  /-- `new Date(ms).toISOString()`; nothing for a time no `Date` can hold. -/
  isoString : ℤ → Option JsString
  isoString_parse : ∀ t s, isoString t = some s → dateParse s = some t ∧ 0 < s.length ∧ byteLength s ≤ 64
  /-- `Number(text)` for a number token that is no plain safe integer. -/
  float : JsString → Json.Number

/-- The last digits of a number, in hexadecimal. -/
def hexText (digits n : ℕ) : JsString :=
  (List.range digits).reverse.map (fun i => Json.hexDigit (n / 16 ^ i % 16))

/-- A digest, as a number. -/
def digestText (n : ℕ) : JsString := hexText 64 n

theorem isSha256Hex_digestText (n : ℕ) : isSha256Hex (digestText n) = true := by
  have hdigit : ∀ d < 16, isHexDigit (Json.hexDigit d) = true := by decide
  simp only [isSha256Hex, digestText, hexText, List.length_map, List.length_reverse, List.length_range,
    beq_self_eq_true, Bool.true_and, List.all_map, List.all_eq_true, Function.comp]
  intro i hi
  exact hdigit _ (Nat.mod_lt _ (by decide))

/-- The digest of no bytes. -/
def emptyDigest : JsString :=
  digestText 0xe3b0c44298fc1c149afbf4c8996fb92427ae41e4649b934ca495991b7852b855

/-- SHA-256 given by its values at the listed inputs, for running the definitions on
examples. -/
def Hasher.ofTable (table : List (Bytes × ℕ)) : Hasher where
  sha256 b :=
    match table.find? (fun e => e.1 == b) with
    | some e => digestText e.2
    | none => emptyDigest
  hex b := by
    split
    · exact isSha256Hex_digestText _
    · exact isSha256Hex_digestText _

/-- A host given by tables of digests and dates. -/
def Host.ofTables (hashes : List (Bytes × ℕ)) (dates : List (ℤ × JsString))
    (hdates : ∀ e ∈ dates, (dates.find? (fun d => d.2 == e.2)).map Prod.fst = some e.1 ∧
      0 < e.2.length ∧ byteLength e.2 ≤ 64) : Host where
  toHasher := Hasher.ofTable hashes
  dateParse s := (dates.find? (fun d => d.2 == s)).map Prod.fst
  isoString t := (dates.find? (fun d => d.1 == t)).map Prod.snd
  isoString_parse t s h := by
    obtain ⟨d, hd, rfl⟩ := Option.map_eq_some_iff.1 h
    obtain ⟨hparse, hlen⟩ := hdates d (List.mem_of_find?_eq_some hd)
    have ht : d.1 = t := by simpa using List.find?_some hd
    exact ⟨by rw [hparse, ht], hlen⟩
  float := .other

theorem epochDate_ok : ∀ e ∈ [((0 : ℤ), js "1970-01-01T00:00:00.000Z")],
    ([((0 : ℤ), js "1970-01-01T00:00:00.000Z")].find? (fun d => d.2 == e.2)).map Prod.fst = some e.1 ∧
      0 < e.2.length ∧ byteLength e.2 ≤ 64 := by
  decide

end Barbaro
