import Barbaro.Core.StableJson

/-!
# Identifiers and checks on JSON values

The patterns of the contract's identifiers, and the small type checks the validators
are made of. A property that is absent is `none`, as `undefined` in the source.

* `slash_not_mem_provider`, `slash_not_mem_id`: no identifier contains `/`, so keys
  joined with it can be told apart.
-/

namespace Barbaro

/-- `<tag>_` and 32 lowercase hex digits, `/^<tag>_[0-9a-f]{32}$/`. -/
def isId (tag : String) (s : JsString) : Bool :=
  s.take (tag.length + 1) == js tag ++ [95] && (s.drop (tag.length + 1)).length == 32 &&
    (s.drop (tag.length + 1)).all isHexDigit

def isSessionId (s : JsString) : Bool := isId "ses" s
def isWorkstreamId (s : JsString) : Bool := isId "ws" s
def isTurnId (s : JsString) : Bool := isId "turn" s
def isEvidenceId (s : JsString) : Bool := isId "ev" s
def isActionId (s : JsString) : Bool := isId "act" s

def isLowerLetter (u : UInt16) : Bool := 97 ≤ u.toNat && u.toNat ≤ 122

/-- `[a-z0-9_-]` -/
def isProviderUnit (u : UInt16) : Bool :=
  isLowerLetter u || (48 ≤ u.toNat && u.toNat ≤ 57) || u == 95 || u == 45

/-- `/^[a-z][a-z0-9_-]*$/` -/
def isProvider : JsString → Bool
  | [] => false
  | u :: us => isLowerLetter u && us.all isProviderUnit

theorem slash_not_mem_provider {s : JsString} (h : isProvider s = true) : (47 : UInt16) ∉ s := by
  cases s with
  | nil => simp
  | cons u us =>
    simp only [isProvider, Bool.and_eq_true, List.all_eq_true] at h
    intro hmem
    rcases List.mem_cons.1 hmem with rfl | hmem
    · exact absurd h.1 (by decide)
    · exact absurd (h.2 _ hmem) (by decide)

/-! ## White space -/

/-- White space and line terminators, as `trim` removes them. -/
def isTrimUnit (u : UInt16) : Bool :=
  (9 ≤ u.toNat && u.toNat ≤ 13) || (0x2000 ≤ u.toNat && u.toNat ≤ 0x200A) ||
    [0x20, 0xA0, 0x1680, 0x2028, 0x2029, 0x202F, 0x205F, 0x3000, 0xFEFF].contains u.toNat

/-- `text.trim()` -/
def trim (s : JsString) : JsString :=
  ((s.dropWhile isTrimUnit).reverse.dropWhile isTrimUnit).reverse

/-! ## Checks on values -/

def isString : Option Json → Bool
  | some (.str _) => true
  | _ => false

def isNonEmptyString : Option Json → Bool
  | some (.str s) => s ≠ []
  | _ => false

def isPattern (pattern : JsString → Bool) : Option Json → Bool
  | some (.str s) => pattern s
  | _ => false

/-- `Number.isSafeInteger(value) && value >= minimum` -/
def isSafeInteger (minimum : ℤ) : Option Json → Bool
  | some (.num (.int z)) => minimum ≤ z && z ≤ maxSafeInteger
  | _ => false

def isSafeNonNegativeInteger : Option Json → Bool := isSafeInteger 0
def isSafePositiveInteger : Option Json → Bool := isSafeInteger 1

def isBoolean : Option Json → Bool
  | some (.bool _) => true
  | _ => false

/-- `Array.isArray(value) && value.every(check)` -/
def isArrayOf (check : Json → Bool) : Option Json → Bool
  | some (.arr vs) => vs.all check
  | _ => false

def isObject : Option Json → Bool
  | some (.obj _) => true
  | _ => false

/-- `value === undefined || check(value)` -/
def isOptional (check : Option Json → Bool) : Option Json → Bool
  | none => true
  | v => check v

/-- `value === text` -/
def equalsText (text : JsString) : Option Json → Bool
  | some (.str s) => s == text
  | _ => false

mutual

/-- `String(value)` of a value that is not `undefined`. -/
def toText : Json → JsString
  | .null => js "null"
  | .bool true => js "true"
  | .bool false => js "false"
  | .num n => n.text
  | .str s => s
  | .arr vs => toTextItems vs
  | .obj _ => js "[object Object]"

/-- `items.join(",")`, where `null` is empty. -/
def toTextItems : List Json → JsString
  | [] => []
  | [v] => toTextItem v
  | v :: vs => toTextItem v ++ 44 :: toTextItems vs

def toTextItem : Json → JsString
  | .null => []
  | .bool true => js "true"
  | .bool false => js "false"
  | .num n => n.text
  | .str s => s
  | .arr vs => toTextItems vs
  | .obj _ => js "[object Object]"

end

/-- `texts.includes(String(value))` -/
def isOneOf (texts : List String) : Option Json → Bool
  | some v => texts.any (fun t => js t == toText v)
  | none => texts.any (fun t => t == "undefined")

/-- The string at a key, where the validator has found one. -/
def textAt (key : String) (v : Json) : JsString :=
  match v.get (js key) with
  | some (.str s) => s
  | _ => []

/-- The string at a key, if there is one. -/
def textAt? (key : String) (v : Json) : Option JsString :=
  match v.get (js key) with
  | some (.str s) => some s
  | _ => none

/-- The integer at a key, where the validator has found one. -/
def intAt (key : String) (v : Json) : ℤ :=
  match v.get (js key) with
  | some (.num (.int z)) => z
  | _ => 0

/-! ## Members -/

/-- A member that is left out when there is no value. -/
def optionalMember (key : String) : Option Json → List (JsString × Json)
  | some v => [(js key, v)]
  | none => []

/-- A member is not among the allowed ones. -/
def unknownKeys (allowed : List String) : Json → Bool
  | .obj fs => fs.any (fun f => !allowed.any (fun k => js k == f.1))
  | _ => false

/-- The non-negative safe integer at a key. -/
def natAt? (key : String) (v : Json) : Option ℕ :=
  match v.get (js key) with
  | some (.num (.int z)) => if 0 ≤ z ∧ z ≤ maxSafeInteger then some z.toNat else none
  | _ => none

/-- The elements of the array at a key. -/
def itemsAt? (key : String) (v : Json) : Option (List Json) :=
  match v.get (js key) with
  | some (.arr vs) => some vs
  | _ => none

def boolAt? (key : String) (v : Json) : Option Bool :=
  match v.get (js key) with
  | some (.bool b) => some b
  | _ => none

def natJson (n : ℕ) : Json := .num (.int n)

theorem natAt_ok {key : String} {v : Json} {n : ℕ} (h : natAt? key v = some n) : n ≤ maxSafeInteger := by
  rw [natAt?] at h
  split at h
  · split at h
    · next z hz =>
      simp only [Option.some.injEq] at h
      omega
    · cases h
  · cases h

theorem natAt_natJson {key : String} {v : Json} {n : ℕ} (h : v.get (js key) = some (natJson n))
    (hn : n ≤ maxSafeInteger) : natAt? key v = some n := by
  rw [natAt?, h]
  simp only [natJson]
  rw [if_pos ⟨by omega, by exact_mod_cast hn⟩, Int.toNat_natCast]

end Barbaro
