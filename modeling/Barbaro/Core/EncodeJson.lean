import Barbaro.Core.SameJson
import Barbaro.Lib.Outcome

/-!
# The canonical serializer

`stableStringify` takes any value of the language. What JSON cannot express is left out of
objects and is `null` in arrays, or is refused.

* `JsValue.stableStringify`: the serializer.
* `encodeJson_json`: a JSON value is written as the canonical text of itself.
* `stable_canonical`: the text is that of the value, in whatever order its members stand.
-/

namespace Barbaro

/-! ## Values of the language -/

inductive JsNumber
  | finite (n : Json.Number)
  | negativeZero
  | nonFinite
  deriving DecidableEq, Repr

inductive JsValue
  | null
  | undefined
  | boolean (b : Bool)
  | number (n : JsNumber)
  | string (s : JsString)
  | function
  | symbol
  | bigint
  /-- An object that is one of those it stands in. -/
  | circular
  /-- An object that is neither an array nor a plain one. -/
  | exotic
  | array (items : List JsValue)
  /-- The members in the order of `Object.keys`. -/
  | object (members : List (JsString × JsValue))

namespace JsValue

/-! ## The serializer -/

/-- `items.join(",")` -/
def joinComma : List JsString → JsString
  | [] => []
  | [s] => s
  | s :: t :: rest => s ++ 44 :: joinComma (t :: rest)

/-- The properties that are written, up to the first that is refused. -/
def collectProperties : List (JsString × Except Failure (Option JsString)) → Except Failure (List JsString)
  | [] => .ok []
  | (key, encoded) :: rest => do
    match ← encoded with
    | none => collectProperties rest
    | some text =>
      let properties ← collectProperties rest
      return (Json.quote key ++ 58 :: text) :: properties

/-- The keys are sorted before the properties are written. -/
def encodeObject (encoded : List (JsString × Except Failure (Option JsString))) : Except Failure JsString := do
  let properties ← collectProperties
    (encoded.mergeSort (fun a b => compareUtf16CodeUnits a.1 b.1 ≠ .gt))
  return 123 :: joinComma properties ++ [125]

mutual

def encodeJson : JsValue → String → Bool → Except Failure (Option JsString)
  | .null, _, _ => .ok (some (js "null"))
  | .string s, _, _ => .ok (some (Json.quote s))
  | .boolean b, _, _ => .ok (some (if b then js "true" else js "false"))
  | .number .nonFinite, path, _ => .error (.typeError s!"Non-finite number at {path}")
  | .number .negativeZero, _, _ => .ok (some (js "0"))
  | .number (.finite n), _, _ => .ok (some n.text)
  | .undefined, _, arrayElement => .ok (if arrayElement then some (js "null") else none)
  | .function, _, arrayElement => .ok (if arrayElement then some (js "null") else none)
  | .symbol, _, arrayElement => .ok (if arrayElement then some (js "null") else none)
  | .bigint, path, _ => .error (.typeError s!"BigInt is not valid JSON at {path}")
  | .circular, path, _ => .error (.typeError s!"Circular JSON value at {path}")
  | .exotic, path, _ => .error (.typeError s!"Non-plain object is not valid stable JSON at {path}")
  | .array items, path, _ => do
    let texts ← encodeItems items path 0
    return some (91 :: joinComma texts ++ [93])
  | .object members, path, _ => do
    let text ← encodeObject (encodeMembers members path)
    return some text

def encodeItems : List JsValue → String → ℕ → Except Failure (List JsString)
  | [], _, _ => .ok []
  | v :: vs, path, index => do
    let text ← encodeJson v s!"{path}[{index}]" true
    let texts ← encodeItems vs path (index + 1)
    return text.getD (js "null") :: texts

def encodeMembers : List (JsString × JsValue) → String → List (JsString × Except Failure (Option JsString))
  | [], _ => []
  | (key, v) :: members, path =>
    (key, encodeJson v s!"{path}.{messageText key}" false) :: encodeMembers members path

end

/-- Objects are written with their keys sorted at every depth, arrays in source order. -/
def stableStringify (value : JsValue) : Except Failure JsString := do
  match ← encodeJson value "$" false with
  | none => .error (.typeError "The top-level value is not JSON-serializable")
  | some encoded => return encoded

/-- One deterministic, newline-terminated record. -/
def stableJsonLine (value : JsValue) : Except Failure JsString := do
  let text ← stableStringify value
  return text ++ [10]

/-! ## JSON values -/

def isUndefined : JsValue → Bool
  | .undefined => true
  | _ => false

mutual

/-- A JSON value: its numbers are finite doubles, a member may be undefined, and no object has
a key twice. -/
def IsJson (float : JsString → Json.Number) : JsValue → Prop
  | .null => True
  | .boolean _ => True
  | .string _ => True
  | .number .negativeZero => True
  | .number (.finite n) => n.Canonical float
  | .array items => IsJsonItems float items
  | .object members => (members.map (·.1)).Nodup ∧ IsJsonMembers float members
  | _ => False

def IsJsonItems (float : JsString → Json.Number) : List JsValue → Prop
  | [] => True
  | v :: vs => IsJson float v ∧ IsJsonItems float vs

def IsJsonMembers (float : JsString → Json.Number) : List (JsString × JsValue) → Prop
  | [] => True
  | (_, v) :: members => (isUndefined v = true ∨ IsJson float v) ∧ IsJsonMembers float members

end

mutual

/-- The value without its undefined members, and with no sign on a zero. -/
def json : JsValue → Json
  | .boolean b => .bool b
  | .string s => .str s
  | .number (.finite n) => .num n
  | .number _ => .num (.int 0)
  | .array items => .arr (jsonItems items)
  | .object members => .obj (jsonMembers members)
  | _ => .null

def jsonItems : List JsValue → List Json
  | [] => []
  | v :: vs => json v :: jsonItems vs

def jsonMembers : List (JsString × JsValue) → List (JsString × Json)
  | [] => []
  | (key, v) :: members => if isUndefined v then jsonMembers members else (key, json v) :: jsonMembers members

end

/-- The same value, with members of objects in it put in another order. -/
inductive Reorders : JsValue → JsValue → Prop
  | members {members members' : List (JsString × JsValue)} (h : members.Perm members') :
      Reorders (.object members) (.object members')
  | item (before after : List JsValue) {v w : JsValue} (h : Reorders v w) :
      Reorders (.array (before ++ v :: after)) (.array (before ++ w :: after))
  | member (before after : List (JsString × JsValue)) (key : JsString) {v w : JsValue} (h : Reorders v w) :
      Reorders (.object (before ++ (key, v) :: after)) (.object (before ++ (key, w) :: after))
  | refl (v : JsValue) : Reorders v v
  | trans {u v w : JsValue} (huv : Reorders u v) (hvw : Reorders v w) : Reorders u w

/-! ## The text of a JSON value -/

theorem render_arr (vs : List Json) : (Json.arr vs).render = 91 :: joinComma (vs.map Json.render) ++ [93] := by
  have hitems : ∀ v : Json, ∀ vs : List Json,
      v.render ++ Json.renderItems vs = joinComma ((v :: vs).map Json.render) ++ [93] := by
    intro v vs
    induction vs generalizing v with
    | nil => rfl
    | cons w ws ih =>
      rw [Json.renderItems, List.cons_append, ih w]
      simp [joinComma]
  cases vs with
  | nil => rfl
  | cons v vs =>
    rw [Json.render, List.cons_append, hitems]
    rfl

/-- One property. -/
def property (f : JsString × JsString) : JsString := Json.quote f.1 ++ 58 :: f.2

theorem render_obj (fs : List (JsString × Json)) : (Json.obj fs).render =
    123 :: joinComma (fs.map (fun f => property (f.1, f.2.render))) ++ [125] := by
  have hfields : ∀ (f : JsString × Json) (fs : List (JsString × Json)),
      property (f.1, f.2.render) ++ Json.renderFields fs =
        joinComma ((f :: fs).map (fun f => property (f.1, f.2.render))) ++ [125] := by
    intro f fs
    induction fs generalizing f with
    | nil => rfl
    | cons g gs ih =>
      have hg := ih g
      simp only [property, List.append_assoc, List.cons_append] at hg
      simp only [Json.renderFields, List.map_cons, joinComma, property, List.append_assoc, List.cons_append] at hg ⊢
      rw [hg]
  cases fs with
  | nil => rfl
  | cons f fs =>
    have hf := hfields f fs
    simp only [property, List.append_assoc, List.cons_append] at hf
    simp only [Json.render, List.append_assoc, List.cons_append, List.cons.injEq, true_and]
    rw [hf]
    rfl

/-- What is written of a member of a JSON object. -/
def memberText (f : JsString × JsValue) : Option (JsString × JsString) :=
  if isUndefined f.2 then none else some (f.1, Barbaro.stableStringify (json f.2))

theorem jsonMembers_texts (members : List (JsString × JsValue)) :
    members.filterMap memberText = (jsonMembers members).map (fun f => (f.1, Barbaro.stableStringify f.2)) := by
  induction members with
  | nil => rfl
  | cons f members ih =>
    obtain ⟨key, v⟩ := f
    by_cases h : isUndefined v = true
    · rw [List.filterMap_cons_none (by simp [memberText, h]), ih, jsonMembers, if_pos h]
    · rw [List.filterMap_cons_some (b := (key, Barbaro.stableStringify (json v))) (by simp [memberText, h]), ih,
        jsonMembers, if_neg h, List.map_cons]

theorem jsonMembers_keys (members : List (JsString × JsValue)) :
    ((jsonMembers members).map (·.1)).Sublist (members.map (·.1)) := by
  induction members with
  | nil => exact .slnil
  | cons f members ih =>
    obtain ⟨key, v⟩ := f
    rw [jsonMembers]
    split
    · exact ih.cons _
    · exact ih.cons_cons _

/-- Sorting and leaving out may be exchanged. -/
theorem sorted_texts {float : JsString → Json.Number} {members : List (JsString × JsValue)}
    (hkeys : (members.map (·.1)).Nodup) (hwell : (Json.obj (jsonMembers members)).WellFormed float) :
    (members.mergeSort (fun a b => compareUtf16CodeUnits a.1 b.1 ≠ .gt)).filterMap memberText =
      (sortKeysFields (jsonMembers members)).map (fun f => (f.1, f.2.render)) := by
  refine ordered_unique ?_ ?_ ?_
  · have hsorted := sortedBy_strict (fun f : JsString × JsValue => f.1) hkeys
    rw [List.pairwise_map]
    refine hsorted.filterMap _ fun f g hfg a ha b hb => ?_
    simp only [memberText, Option.ite_none_left_eq_some, Option.some.injEq] at ha hb
    rw [← ha.2, ← hb.2]
    exact hfg
  · rw [List.map_map]
    exact sortKeysFields_ordered hwell
  · have hleft := (List.mergeSort_perm members (fun a b => compareUtf16CodeUnits a.1 b.1 ≠ .gt)).filterMap memberText
    have hright := (sortKeysFields_perm (jsonMembers members)).map (fun f => (f.1, f.2.render))
    rw [jsonMembers_texts members] at hleft
    rw [List.map_map] at hright
    exact hleft.trans hright.symm

section
variable {float : JsString → Json.Number}

mutual

theorem json_wellFormed : ∀ {v : JsValue}, v.IsJson float → (json v).WellFormed float
  | .null, _ => trivial
  | .boolean _, _ => trivial
  | .string _, _ => trivial
  | .number .negativeZero, _ => Nat.zero_le _
  | .number (.finite _), h => h
  | .array _, h => jsonItems_wellFormed h
  | .object members, h => ⟨h.1.sublist (jsonMembers_keys members), jsonMembers_wellFormed h.2⟩

theorem jsonItems_wellFormed : ∀ {vs : List JsValue}, IsJsonItems float vs →
    Json.WellFormedItems float (jsonItems vs)
  | [], _ => trivial
  | _ :: _, h => ⟨json_wellFormed h.1, jsonItems_wellFormed h.2⟩

theorem jsonMembers_wellFormed : ∀ {members : List (JsString × JsValue)}, IsJsonMembers float members →
    Json.WellFormedFields float (jsonMembers members)
  | [], _ => trivial
  | (_, v) :: _, h => by
    rw [jsonMembers]
    split
    · exact jsonMembers_wellFormed h.2
    · next hundefined => exact ⟨json_wellFormed (h.1.resolve_left hundefined), jsonMembers_wellFormed h.2⟩

end

/-- What is collected, if nothing is refused. -/
theorem collectProperties_ok (members : List (JsString × JsValue)) :
    collectProperties (members.map (fun f => (f.1, .ok ((memberText f).map (·.2))))) =
      .ok ((members.filterMap memberText).map property) := by
  induction members with
  | nil => rfl
  | cons f members ih =>
    rw [List.map_cons, collectProperties, Outcome.ok_bind]
    by_cases h : isUndefined f.2 = true
    · have hnone : memberText f = none := if_pos h
      rw [hnone, List.filterMap_cons_none hnone]
      exact ih
    · have hsome : memberText f = some (f.1, Barbaro.stableStringify (json f.2)) := if_neg h
      rw [hsome, List.filterMap_cons_some hsome, List.map_cons]
      simp only [Option.map_some, ih, Outcome.ok_bind]
      rfl

theorem encodeJson_undefined {v : JsValue} (h : isUndefined v = true) (path : String) :
    encodeJson v path false = .ok none := by
  cases v with
  | undefined => rfl
  | _ => cases h

mutual

/-- **A JSON value is written as its canonical text.** -/
theorem encodeJson_json : ∀ {v : JsValue}, v.IsJson float → ∀ (path : String) (arrayElement : Bool),
    encodeJson v path arrayElement = .ok (some (Barbaro.stableStringify (json v)))
  | .null, _, _, _ => rfl
  | .boolean b, _, _, _ => by
    cases b
    · rfl
    · rfl
  | .string _, _, _, _ => rfl
  | .number .negativeZero, _, _, _ => rfl
  | .number (.finite _), _, _, _ => rfl
  | .array items, h, path, _ => by
    rw [encodeJson, encodeItems_json h path 0, Outcome.ok_bind, json, Barbaro.stableStringify, sortKeys,
      render_arr, sortKeysItems_eq, List.map_map]
    rfl
  | .object members, h, path, _ => by
    have hwell : (Json.obj (jsonMembers members)).WellFormed float := json_wellFormed (v := .object members) h
    have hsort : (encodeMembers members path).mergeSort (fun a b => compareUtf16CodeUnits a.1 b.1 ≠ .gt) =
        (members.mergeSort (fun a b => compareUtf16CodeUnits a.1 b.1 ≠ .gt)).map
          (fun f => (f.1, .ok ((memberText f).map (·.2)))) := by
      rw [encodeMembers_json h.2 path]
      refine (List.map_mergeSort ?_).symm
      intro f _ g _
      rfl
    rw [encodeJson, encodeObject, hsort, collectProperties_ok, sorted_texts h.1 hwell, json,
      Barbaro.stableStringify, sortKeys, render_obj, List.map_map]
    rfl

theorem encodeItems_json : ∀ {vs : List JsValue}, IsJsonItems float vs → ∀ (path : String) (index : ℕ),
    encodeItems vs path index = .ok ((jsonItems vs).map Barbaro.stableStringify)
  | [], _, _, _ => rfl
  | v :: vs, h, path, index => by
    rw [encodeItems, encodeJson_json h.1, Outcome.ok_bind, encodeItems_json h.2 path (index + 1), Outcome.ok_bind,
      jsonItems, List.map_cons]
    rfl

theorem encodeMembers_json : ∀ {members : List (JsString × JsValue)}, IsJsonMembers float members →
    ∀ path : String, encodeMembers members path =
      members.map (fun f => (f.1, .ok ((memberText f).map (·.2))))
  | [], _, _ => rfl
  | (key, v) :: members, h, path => by
    rw [encodeMembers, encodeMembers_json h.2 path, List.map_cons]
    by_cases hundefined : isUndefined v = true
    · rw [encodeJson_undefined hundefined, memberText, if_pos hundefined]
      rfl
    · rw [encodeJson_json (h.1.resolve_left hundefined), memberText, if_neg hundefined]
      rfl

end

theorem stableStringify_json {v : JsValue} (h : v.IsJson float) :
    v.stableStringify = .ok (Barbaro.stableStringify (json v)) := by
  rw [stableStringify, encodeJson_json h, Outcome.ok_bind]
  rfl

/-! ## Another order -/

theorem isJsonMembers_iff {members : List (JsString × JsValue)} : IsJsonMembers float members ↔
    ∀ f ∈ members, isUndefined f.2 = true ∨ IsJson float f.2 := by
  induction members with
  | nil => simp [IsJsonMembers]
  | cons f members ih => simp [IsJsonMembers, ih]

theorem isJsonItems_iff {vs : List JsValue} : IsJsonItems float vs ↔ ∀ v ∈ vs, IsJson float v := by
  induction vs with
  | nil => simp [IsJsonItems]
  | cons v vs ih => simp [IsJsonItems, ih]

theorem jsonItems_eq (vs : List JsValue) : jsonItems vs = vs.map json := by
  induction vs with
  | nil => rfl
  | cons v vs ih => rw [jsonItems, ih, List.map_cons]

/-- A member, if it is written. -/
def memberJson (f : JsString × JsValue) : Option (JsString × Json) :=
  if isUndefined f.2 then none else some (f.1, json f.2)

theorem filterMap_undefined {key : JsString} {v : JsValue} (h : isUndefined v = true)
    (members : List (JsString × JsValue)) :
    ((key, v) :: members).filterMap memberJson = members.filterMap memberJson :=
  List.filterMap_cons_none (if_pos h)

theorem filterMap_defined {key : JsString} {v : JsValue} (h : ¬ isUndefined v = true)
    (members : List (JsString × JsValue)) :
    ((key, v) :: members).filterMap memberJson = (key, json v) :: members.filterMap memberJson :=
  List.filterMap_cons_some (if_neg h)

theorem jsonMembers_eq (members : List (JsString × JsValue)) : jsonMembers members = members.filterMap memberJson := by
  induction members with
  | nil => rfl
  | cons f members ih =>
    obtain ⟨key, v⟩ := f
    by_cases h : isUndefined v = true
    · rw [jsonMembers, if_pos h, ih, filterMap_undefined h]
    · rw [jsonMembers, if_neg h, ih, filterMap_defined h]

/-- The canonical form of an object is made from those of its members. -/
theorem sortKeysFields_congr {fs gs : List (JsString × Json)}
    (h : fs.map (fun f => (f.1, sortKeys f.2)) = gs.map (fun f => (f.1, sortKeys f.2))) :
    sortKeysFields fs = sortKeysFields gs := by
  have hfold : ∀ fs : List (JsString × Json),
      sortKeysFields fs = (fs.map (fun f => (f.1, sortKeys f.2))).foldr insertField [] := by
    intro fs
    induction fs with
    | nil => rfl
    | cons f fs ih => rw [sortKeysFields, ih, List.map_cons, List.foldr_cons]
  rw [hfold, h, hfold]

theorem sortKeysFields_of_perm {fs gs : List (JsString × Json)} (hfs : (Json.obj fs).WellFormed float)
    (hgs : (Json.obj gs).WellFormed float) (h : fs.Perm gs) : sortKeysFields fs = sortKeysFields gs := by
  refine ordered_unique (sortKeysFields_ordered hfs) (sortKeysFields_ordered hgs) ?_
  have hmap := h.map (fun f : JsString × Json => (f.1, sortKeys f.2))
  exact (sortKeysFields_perm fs).trans (hmap.trans (sortKeysFields_perm gs).symm)

theorem Reorders.isUndefined_eq {v w : JsValue} (h : Reorders v w) : isUndefined v = isUndefined w := by
  induction h with
  | members | item | member | refl => rfl
  | trans _ _ huv hvw => rw [huv, hvw]

/-- **Another order of members is the same JSON value**, with the same canonical form. -/
theorem Reorders.canonical {v w : JsValue} (h : Reorders v w) (hv : v.IsJson float) :
    w.IsJson float ∧ sortKeys (json v) = sortKeys (json w) := by
  induction h with
  | refl v => exact ⟨hv, rfl⟩
  | trans _ _ huv hvw =>
    obtain ⟨hv', heq⟩ := huv hv
    obtain ⟨hw, heq'⟩ := hvw hv'
    exact ⟨hw, heq.trans heq'⟩
  | @members members members' h =>
    have hw : (JsValue.object members').IsJson float := by
      refine ⟨(h.map (·.1)).nodup_iff.1 hv.1, isJsonMembers_iff.2 fun f hf => ?_⟩
      exact isJsonMembers_iff.1 hv.2 f (h.mem_iff.2 hf)
    have hperm : (jsonMembers members).Perm (jsonMembers members') := by
      rw [jsonMembers_eq, jsonMembers_eq]
      exact h.filterMap memberJson
    refine ⟨hw, ?_⟩
    rw [json, json, sortKeys, sortKeys, sortKeysFields_of_perm (json_wellFormed (v := .object members) hv)
      (json_wellFormed (v := .object members') hw) hperm]
  | item before after h ih =>
    have hitems := isJsonItems_iff.1 hv
    obtain ⟨hw, heq⟩ := ih (hitems _ (by simp))
    refine ⟨isJsonItems_iff.2 fun u hu => ?_, ?_⟩
    · simp only [List.mem_append, List.mem_cons] at hu
      rcases hu with hu | rfl | hu
      · exact hitems u (by simp [hu])
      · exact hw
      · exact hitems u (by simp [hu])
    · simp only [json, sortKeys, jsonItems_eq, sortKeysItems_eq, List.map_append, List.map_cons, heq]
  | @member before after key v w h ih =>
    have hmembers := isJsonMembers_iff.1 hv.2
    have hkeys : ((before ++ (key, v) :: after).map (·.1)) = ((before ++ (key, w) :: after).map (·.1)) := by
      simp
    have hvalue : isUndefined v = true ∨ IsJson float v := hmembers (key, v) (by simp)
    have hmember : isUndefined w = true ∨ IsJson float w := by
      rcases hvalue with hundefined | hjson
      · exact .inl (h.isUndefined_eq ▸ hundefined)
      · exact .inr (ih hjson).1
    refine ⟨⟨hkeys ▸ hv.1, isJsonMembers_iff.2 fun f hf => ?_⟩, ?_⟩
    · simp only [List.mem_append, List.mem_cons] at hf
      rcases hf with hf | rfl | hf
      · exact hmembers f (by simp [hf])
      · exact hmember
      · exact hmembers f (by simp [hf])
    · rw [json, json, sortKeys, sortKeys]
      refine congrArg Json.obj (sortKeysFields_congr ?_)
      rw [jsonMembers_eq, jsonMembers_eq, List.filterMap_append, List.filterMap_append, List.map_append,
        List.map_append]
      refine congrArg _ ?_
      by_cases hundefined : isUndefined v = true
      · have hw : isUndefined w = true := h.isUndefined_eq ▸ hundefined
        rw [filterMap_undefined hundefined, filterMap_undefined hw]
      · have hw : isUndefined w ≠ true := h.isUndefined_eq ▸ hundefined
        rw [filterMap_defined hundefined, filterMap_defined hw, List.map_cons, List.map_cons,
          (ih (hvalue.resolve_left hundefined)).2]

end

/-- **Canonical JSON is canonical.** The text of a JSON value does not depend on the order in
which its members were set; it is read back as the value, its undefined members and the sign
of a zero aside; and two values have one text exactly if they are equal as JSON values. -/
theorem stable_canonical (E : Host) {v w : JsValue} (hv : v.IsJson E.float) (hw : w.IsJson E.float) :
    ∃ s t, v.stableStringify = .ok s ∧ w.stableStringify = .ok t ∧
      (Reorders v w → s = t) ∧
      (∃ parsed, Json.parse E.float s = some parsed ∧ Json.Same parsed v.json) ∧
      (s = t ↔ Json.Same v.json w.json) := by
  refine ⟨_, _, stableStringify_json hv, stableStringify_json hw, fun h => ?_, parse_same (json_wellFormed hv), ?_⟩
  · rw [Barbaro.stableStringify, (h.canonical hv).2, Barbaro.stableStringify]
  · exact stableStringify_eq_iff (json_wellFormed hv) (json_wellFormed hw)

/-! ## A value in two orders -/

/-- An object whose keys look like integers, with an undefined member and a negative zero. -/
def keyedValue : JsValue :=
  .object [(js "10", .number .negativeZero), (js "2", .array [.string [0xD800], .null]), (js "u", .undefined)]

/-- The same, set in another order. -/
def keyedValueAgain : JsValue :=
  .object [(js "u", .undefined), (js "2", .array [.string [0xD800], .null]), (js "10", .number .negativeZero)]

theorem keyedValue_json (float : JsString → Json.Number) :
    keyedValue.IsJson float ∧ keyedValueAgain.IsJson float := by
  constructor
  · exact ⟨by decide, .inr trivial, .inr ⟨trivial, trivial, trivial⟩, .inl rfl, trivial⟩
  · exact ⟨by decide, .inl rfl, .inr ⟨trivial, trivial, trivial⟩, .inr trivial, trivial⟩

theorem stable_canonical_keyed : ∃ s t, keyedValue.stableStringify = .ok s ∧
    keyedValueAgain.stableStringify = .ok t ∧ s = t ∧
    (∃ parsed, Json.parse (Host.ofTables [] [] (by simp)).float s = some parsed ∧
      Json.Same parsed keyedValue.json) := by
  have hreorders : Reorders keyedValue keyedValueAgain := by
    refine .members ?_
    exact (List.reverse_perm _).symm
  obtain ⟨s, t, hs, ht, hsame, hparsed, -⟩ := stable_canonical (Host.ofTables [] [] (by simp))
    (keyedValue_json _).1 (keyedValue_json _).2
  exact ⟨s, t, hs, ht, hsame hreorders, hparsed⟩

end JsValue

end Barbaro
