import Barbaro.Core.EncodeJson
import Barbaro.Reader.Budget

/-!
# Envelopes that tell their size

`wrapReaderProjection` takes any value of the language, not only JSON. A value that the serializer
refuses is refused by the first round; any other has a text, or is left out of the envelope,
and then the rounds are those of `Json.sizeRounds`.

* `wrapReaderProjection`: the loop over any value.
* `readerEnvelope_size`: what a round measures, by the size it tells.
* `projection_size_settles`: the rounds settle within their bound, the size told is the size,
  and a larger value has no smaller one.
-/

namespace Barbaro.SelfSize

open JsValue

/-! ## The loop -/

/-- `{ byte_budget, utf8_bytes, value }` -/
def readerEnvelope (byteBudget utf8Bytes : ℕ) (value : JsValue) : JsValue :=
  .object [(js "byte_budget", .number (.finite (.int byteBudget))),
    (js "utf8_bytes", .number (.finite (.int utf8Bytes))), (js "value", value)]

def stableJsonUtf8Bytes (value : JsValue) : Except Failure ℕ := do
  let text ← value.stableStringify
  return byteLength text

def didNotConverge : Failure := .error "Reader projection byte-size metadata did not converge"

/-- The rounds; `reportedBytes` is the size of the one before. -/
def wrapLoop (value : JsValue) (byteBudget : ℕ) :
    ℕ → ℕ → Except ProjectionFailure (ReaderProjection JsValue)
  | 0, _ => .error (.other didNotConverge)
  | attempts + 1, reportedBytes =>
    match stableJsonUtf8Bytes (readerEnvelope byteBudget reportedBytes value) with
    | .error failure => .error (.other failure)
    | .ok actualBytes =>
      if actualBytes = reportedBytes then
        if actualBytes > byteBudget then .error (.budgetTooSmall byteBudget actualBytes)
        else .ok { byteBudget, utf8Bytes := reportedBytes, value }
      else wrapLoop value byteBudget attempts actualBytes

def wrapReaderProjection (value : JsValue) (byteBudget : ℕ) :
    Except ProjectionFailure (ReaderProjection JsValue) :=
  match assertReaderByteBudget byteBudget with
  | .error failure => .error (.other failure)
  | .ok () => wrapLoop value byteBudget 16 0

/-! ## What a round measures -/

/-- The text of the value, as the member of an envelope; a value that JSON cannot express is left out. -/
def valueText (value : JsValue) : Except Failure (Option JsString) := encodeJson value "$.value" false

/-- The bytes that the member of a value takes. -/
def memberBytes : Option JsString → ℕ
  | none => 0
  | some text => byteLength text + 9

/-- The bytes of an envelope without the digits of its size. -/
def restBytes (byteBudget : ℕ) (text : Option JsString) : ℕ := Json.digitCount byteBudget + memberBytes text + 30

/-- The text of an envelope, by that of its value. -/
def envelopeTail : Option JsString → JsString
  | none => [125]
  | some text => js ",\"value\":" ++ (text ++ [125])

theorem readerEnvelope_text (byteBudget told : ℕ) (value : JsValue) :
    (readerEnvelope byteBudget told value).stableStringify = do
      let text ← valueText value
      return envelopeHead byteBudget told ++ envelopeTail text := by
  have hnat : ∀ (n : ℕ) (path : String),
      encodeJson (.number (.finite (.int n))) path false = .ok (some (Json.decDigits n)) := by
    intro n path
    rw [encodeJson, ← stable_nat n]
    rfl
  have hsorted : ∀ a b c : Except Failure (Option JsString),
      [(js "byte_budget", a), (js "utf8_bytes", b), (js "value", c)].mergeSort
        (fun a b => compareUtf16CodeUnits a.1 b.1 ≠ .gt) =
      [(js "byte_budget", a), (js "utf8_bytes", b), (js "value", c)] := by
    intro a b c
    have h₁ : compareUtf16CodeUnits (js "byte_budget") (js "utf8_bytes") ≠ .gt := by decide
    have h₂ : compareUtf16CodeUnits (js "byte_budget") (js "value") ≠ .gt := by decide
    have h₃ : compareUtf16CodeUnits (js "utf8_bytes") (js "value") ≠ .gt := by decide
    apply List.mergeSort_of_pairwise
    simp [h₁, h₂, h₃]
  have hkeys : 123 :: (Json.quote (js "byte_budget") ++ [58]) = js "\x7b\"byte_budget\":" ∧
      44 :: (Json.quote (js "utf8_bytes") ++ [58]) = js ",\"utf8_bytes\":" ∧
      44 :: (Json.quote (js "value") ++ [58]) = js ",\"value\":" := by
    decide
  obtain ⟨h₁, h₂, h₃⟩ := hkeys
  have hpath : ∀ path key, path = "$" → key = messageText (js "value") → s!"{path}.{key}" = "$.value" := by
    rintro _ _ rfl rfl
    decide
  rw [readerEnvelope, JsValue.stableStringify, encodeJson, encodeMembers, encodeMembers, encodeMembers, encodeMembers,
    hpath _ _ rfl rfl, hnat, hnat, encodeObject, hsorted, valueText]
  rcases encodeJson value "$.value" false with failure | text
  · rfl
  cases text with
  | none =>
    change Except.ok _ = Except.ok _
    rw [envelopeHead, ← h₁, ← h₂]
    simp [joinComma, envelopeTail]
  | some text =>
    change Except.ok _ = Except.ok _
    rw [envelopeHead, envelopeTail, ← h₁, ← h₂, ← h₃]
    simp [joinComma]

/-- What a round measures, by the size it tells. -/
theorem readerEnvelope_size (byteBudget told : ℕ) (value : JsValue) :
    stableJsonUtf8Bytes (readerEnvelope byteBudget told value) = do
      let text ← valueText value
      return Json.tellSize (restBytes byteBudget text) told := by
  rw [stableJsonUtf8Bytes, readerEnvelope_text]
  rcases valueText value with failure | text
  · rfl
  have htail : byteLength (envelopeTail text) = memberBytes text + 1 := by
    cases text with
    | none => rfl
    | some text => exact member_size text
  change Except.ok _ = Except.ok _
  rw [byteLength_append (envelopeHead_wellFormed byteBudget told), envelopeHead_size, htail, Json.tellSize, restBytes]
  congr 1
  omega

/-! ## The rounds -/

theorem wrapLoop_refused {value : JsValue} {failure : Failure} (h : valueText value = .error failure)
    (byteBudget attempts told : ℕ) : wrapLoop value byteBudget (attempts + 1) told = .error (.other failure) := by
  rw [wrapLoop, readerEnvelope_size, h]
  rfl

/-- The loop is a run of such rounds. -/
theorem wrapLoop_rounds {value : JsValue} {text : Option JsString} (htext : valueText value = .ok text)
    {byteBudget attempts told size : ℕ}
    (h : Json.sizeRounds (Json.tellSize (restBytes byteBudget text)) attempts told = some size) :
    wrapLoop value byteBudget attempts told =
      if size > byteBudget then .error (.budgetTooSmall byteBudget size) else .ok ⟨byteBudget, size, value⟩ := by
  induction attempts generalizing told with
  | zero => cases h
  | succ attempts ih =>
    have hsize : stableJsonUtf8Bytes (readerEnvelope byteBudget told value) =
        .ok (Json.tellSize (restBytes byteBudget text) told) := by
      rw [readerEnvelope_size, htext]
      rfl
    rw [Json.sizeRounds_succ] at h
    rw [wrapLoop, hsize]
    dsimp only
    by_cases htold : Json.tellSize (restBytes byteBudget text) told = told
    · rw [if_pos htold, Option.some.injEq] at h
      rw [if_pos htold, htold, h]
    · rw [if_neg htold] at h
      rw [if_neg htold]
      exact ih h

/-- A refusal of the serializer is never the one of the rounds. -/
theorem collectProperties_refused {encoded : List (JsString × Except Failure (Option JsString))}
    (h : ∀ f ∈ encoded, f.2 ≠ .error didNotConverge) : collectProperties encoded ≠ .error didNotConverge := by
  induction encoded with
  | nil =>
    intro h
    cases h
  | cons f encoded ih =>
    obtain ⟨key, e⟩ := f
    have hrest := ih fun g hg => h g (List.mem_cons_of_mem _ hg)
    have hhead := h _ List.mem_cons_self
    rw [collectProperties]
    refine Outcome.bind_ne_error hhead fun text => ?_
    cases text with
    | none => exact hrest
    | some text =>
      refine Outcome.bind_ne_error hrest fun properties h => ?_
      cases h

mutual

theorem encodeJson_refused : ∀ (v : JsValue) (path : String) (arrayElement : Bool),
    encodeJson v path arrayElement ≠ .error didNotConverge
  | .null, _, _ => fun h => nomatch h
  | .string _, _, _ => fun h => nomatch h
  | .boolean _, _, _ => fun h => nomatch h
  | .number .nonFinite, _, _ => fun h => nomatch h
  | .number .negativeZero, _, _ => fun h => nomatch h
  | .number (.finite _), _, _ => fun h => nomatch h
  | .undefined, _, _ => fun h => nomatch h
  | .function, _, _ => fun h => nomatch h
  | .symbol, _, _ => fun h => nomatch h
  | .bigint, _, _ => fun h => nomatch h
  | .circular, _, _ => fun h => nomatch h
  | .exotic, _, _ => fun h => nomatch h
  | .array items, path, _ => by
    rw [encodeJson]
    exact Outcome.bind_ne_error (encodeItems_refused items path 0) fun texts h => nomatch h
  | .object members, path, _ => by
    have hcollected : collectProperties ((encodeMembers members path).mergeSort
        (fun a b => compareUtf16CodeUnits a.1 b.1 ≠ .gt)) ≠ .error didNotConverge :=
      collectProperties_refused fun f hf => encodeMembers_refused members path f (List.mem_mergeSort.1 hf)
    rw [encodeJson, encodeObject]
    refine Outcome.bind_ne_error (Outcome.bind_ne_error hcollected ?_) fun text h => nomatch h
    exact fun properties h => nomatch h

theorem encodeItems_refused : ∀ (vs : List JsValue) (path : String) (index : ℕ),
    encodeItems vs path index ≠ .error didNotConverge
  | [], _, _ => fun h => nomatch h
  | v :: vs, path, index => by
    rw [encodeItems]
    refine Outcome.bind_ne_error (encodeJson_refused v _ true) fun text => ?_
    exact Outcome.bind_ne_error (encodeItems_refused vs path (index + 1)) fun texts h => nomatch h

theorem encodeMembers_refused : ∀ (members : List (JsString × JsValue)) (path : String),
    ∀ f ∈ encodeMembers members path, f.2 ≠ .error didNotConverge
  | [], _, _, hf => absurd hf List.not_mem_nil
  | (key, v) :: members, path, f, hf => by
    rw [encodeMembers] at hf
    rcases List.mem_cons.1 hf with rfl | hf
    · exact encodeJson_refused v _ false
    · exact encodeMembers_refused members path f hf

end

/-! ## The size told -/

/-- The size told of a value, none if the serializer refuses it. -/
def toldSize (byteBudget : ℕ) (value : JsValue) : Option ℕ :=
  (valueText value).toOption.map fun text => Json.ownSize (restBytes byteBudget text)

/-- **The size told settles**: within the bound of the loop, as the size of the whole, and larger for larger
values. -/
theorem projection_size_settles {byteBudget : ℕ} (hbudget : assertReaderByteBudget byteBudget = .ok ()) :
    (∀ value : JsValue,
      wrapReaderProjection value byteBudget ≠ .error (.other didNotConverge) ∧
      (∀ failure, valueText value = .error failure → wrapReaderProjection value byteBudget = .error (.other failure)) ∧
      ∀ text, valueText value = .ok text → ∃ size, toldSize byteBudget value = some size ∧
        stableJsonUtf8Bytes (readerEnvelope byteBudget size value) = .ok size ∧
        wrapReaderProjection value byteBudget =
          if size > byteBudget then .error (.budgetTooSmall byteBudget size)
          else .ok { byteBudget, utf8Bytes := size, value }) ∧
    ∀ (value value' : JsValue) (text text' : Option JsString) (size size' : ℕ),
      valueText value = .ok text → valueText value' = .ok text' → memberBytes text ≤ memberBytes text' →
      toldSize byteBudget value = some size → toldSize byteBudget value' = some size' → size ≤ size' := by
  have hwrap : ∀ value, wrapReaderProjection value byteBudget = wrapLoop value byteBudget 16 0 := by
    intro value
    rw [wrapReaderProjection, hbudget]
  have hsettled : ∀ value text, valueText value = .ok text → wrapReaderProjection value byteBudget =
      if Json.ownSize (restBytes byteBudget text) > byteBudget then
        .error (.budgetTooSmall byteBudget (Json.ownSize (restBytes byteBudget text)))
      else .ok ⟨byteBudget, Json.ownSize (restBytes byteBudget text), value⟩ := by
    intro value text htext
    rw [hwrap]
    exact wrapLoop_rounds htext (Json.sizeRounds_settle (restBytes byteBudget text) 12)
  refine ⟨fun value => ⟨?_, ?_, ?_⟩, ?_⟩
  · rcases hvalue : valueText value with failure | text
    · rw [hwrap, wrapLoop_refused hvalue byteBudget 15 0]
      intro heq
      simp only [Except.error.injEq, ProjectionFailure.other.injEq] at heq
      exact encodeJson_refused value "$.value" false (heq ▸ hvalue)
    · rw [hsettled value text hvalue]
      split
      · exact fun heq => by simp at heq
      · exact fun heq => by simp at heq
  · intro failure hvalue
    rw [hwrap]
    exact wrapLoop_refused hvalue byteBudget 15 0
  · intro text htext
    refine ⟨Json.ownSize (restBytes byteBudget text), ?_, ?_, hsettled value text htext⟩
    · rw [toldSize, htext]
      rfl
    · rw [readerEnvelope_size, htext]
      exact congrArg Except.ok (Json.ownSize_fixed (restBytes byteBudget text))
  · intro value value' text text' size size' htext htext' hle hsize hsize'
    rw [toldSize, htext] at hsize
    rw [toldSize, htext'] at hsize'
    cases hsize
    cases hsize'
    apply Json.ownSize_mono
    unfold restBytes
    omega

/-- At a power of ten: the rounds tell 0, 99, 100, 101. -/
theorem projection_size_settles_hundred :
    stableJsonUtf8Bytes (readerEnvelope 200 101 (.string (List.replicate 54 97))) = .ok 101 ∧
      wrapReaderProjection (.string (List.replicate 54 97)) 200 =
        .ok { byteBudget := 200, utf8Bytes := 101, value := .string (List.replicate 54 97) } := by
  have hbudget : assertReaderByteBudget 200 = .ok () := by decide
  have htext : valueText (.string (List.replicate 54 97)) = .ok (some (Json.quote (List.replicate 54 97))) := rfl
  obtain ⟨size, htold, hsize, hwrap⟩ := ((projection_size_settles hbudget).1 _).2.2 _ htext
  have hhundred : size = 101 := by
    rw [toldSize, htext] at htold
    cases htold
    decide
  subst hhundred
  exact ⟨hsize, hwrap⟩

end Barbaro.SelfSize
