import Barbaro.Core.Patterns
import Barbaro.Core.TextSize

/-!
# Projections that fit a budget

A reader hands out values in an envelope that tells the budget and the size of the whole.
The size is written by rounds until it is the size of the round before.

* `wrapReaderProjection`: the envelope, or the refusal that tells the size it would need.
* `wrapReaderProjection_eq`: it is refused exactly if its size exceeds the budget.
-/

namespace Barbaro

structure ReaderProjection (T : Type) where
  byteBudget : ℕ
  utf8Bytes : ℕ
  value : T

/-- Why there is no projection; the first refusal is told from all others. -/
inductive ProjectionFailure
  | budgetTooSmall (byteBudget requiredBytes : ℕ)
  | other (failure : Failure)
  deriving DecidableEq, Repr

def ProjectionFailure.failure : ProjectionFailure → Failure
  | .budgetTooSmall byteBudget requiredBytes =>
    .rangeError
      s!"Reader byte budget {byteBudget} cannot hold the minimum {requiredBytes}-byte projection"
  | .other failure => failure

def assertReaderByteBudget (value : ℕ) : Except Failure Unit :=
  if value = 0 ∨ value > maxSafeInteger then
    .error (.rangeError "byteBudget must be a positive safe integer")
  else .ok ()

def assertReaderPositiveInteger (value : ℕ) (name : String) : Except Failure Unit :=
  if value = 0 ∨ value > maxSafeInteger then
    .error (.rangeError s!"{name} must be a positive safe integer")
  else .ok ()

/-- The JSON of an envelope. -/
def envelopeJson (byteBudget utf8Bytes : ℕ) (value : Json) : Json :=
  .obj [(js "byte_budget", natJson byteBudget), (js "utf8_bytes", natJson utf8Bytes), (js "value", value)]

section
variable {T : Type} (json : T → Json)

def ReaderProjection.toJson (p : ReaderProjection T) : Json :=
  envelopeJson p.byteBudget p.utf8Bytes (json p.value)

/-- The rounds; each writes down the size of the one before. -/
def wrapLoop (value : T) (byteBudget : ℕ) : ℕ → ℕ → Except ProjectionFailure (ReaderProjection T)
  | 0, _ => .error (.other (.error "Reader projection byte-size metadata did not converge"))
  | attempts + 1, reportedBytes =>
    let actualBytes := stableSize (envelopeJson byteBudget reportedBytes (json value))
    if actualBytes = reportedBytes then
      if actualBytes > byteBudget then .error (.budgetTooSmall byteBudget actualBytes)
      else .ok { byteBudget, utf8Bytes := reportedBytes, value }
    else wrapLoop value byteBudget attempts actualBytes

/-- Add exact size metadata and enforce the caller's total serialized byte cap. -/
def wrapReaderProjection (value : T) (byteBudget : ℕ) :
    Except ProjectionFailure (ReaderProjection T) :=
  match assertReaderByteBudget byteBudget with
  | .error failure => .error (.other failure)
  | .ok () => wrapLoop json value byteBudget 16 0

/-! ## The size of an envelope -/

/-- The bytes of an envelope without the digits of its size. -/
def envelopeRest (byteBudget valueSize : ℕ) : ℕ := Json.digitCount byteBudget + valueSize + 39

/-- The size an envelope tells. -/
def envelopeSize (byteBudget valueSize : ℕ) : ℕ := Json.ownSize (envelopeRest byteBudget valueSize)

variable {json}

/-- The text of an envelope before its value. -/
def envelopeHead (byteBudget told : ℕ) : JsString :=
  js "\x7b\"byte_budget\":" ++ Json.decDigits byteBudget ++ js ",\"utf8_bytes\":" ++ Json.decDigits told

theorem envelopeHead_wellFormed (byteBudget told : ℕ) : Utf16.WellFormed (envelopeHead byteBudget told) := by
  have hall : [js "\x7b\"byte_budget\":", js ",\"utf8_bytes\":"].all
      (fun s => s.all fun u => decide (u.toNat < 0xD800)) = true := by decide
  have hascii : ∀ s ∈ [js "\x7b\"byte_budget\":", js ",\"utf8_bytes\":"], Utf16.WellFormed s :=
    fun s hs => .plain fun u hu => by
      simpa using List.all_eq_true.1 (List.all_eq_true.1 hall s hs) u hu
  have hdigits : ∀ n, Utf16.WellFormed (Json.decDigits n) := fun n => stable_nat n ▸ stable_nat_wellFormed n
  have h₁ := hascii _ List.mem_cons_self
  have h₂ := hascii (js ",\"utf8_bytes\":") (by simp)
  exact ((h₁.append (hdigits byteBudget)).append h₂).append (hdigits told)

theorem envelopeHead_size (byteBudget told : ℕ) :
    byteLength (envelopeHead byteBudget told) = Json.digitCount byteBudget + Json.digitCount told + 29 := by
  have hascii : ∀ u ∈ envelopeHead byteBudget told, u.toNat < 128 := by
    have hall : (js "\x7b\"byte_budget\":" ++ js ",\"utf8_bytes\":").all
        (fun u => decide (u.toNat < 128)) = true := by decide
    have htexts : ∀ u ∈ js "\x7b\"byte_budget\":" ++ js ",\"utf8_bytes\":", u.toNat < 128 := fun u hu => by
      simpa using List.all_eq_true.1 hall u hu
    intro u hu
    simp only [envelopeHead, List.mem_append] at hu
    rcases hu with ((hu | hu) | hu) | hu
    · exact htexts u (List.mem_append_left _ hu)
    · exact decDigits_ascii _ u hu
    · exact htexts u (List.mem_append_right _ hu)
    · exact decDigits_ascii _ u hu
  have hlengths : (js "\x7b\"byte_budget\":").length = 15 ∧ (js ",\"utf8_bytes\":").length = 14 := by decide
  rw [byteLength_ascii hascii, envelopeHead]
  simp only [List.length_append, hlengths.1, hlengths.2, Json.length_decDigits]
  omega

/-- The text of an envelope around the text of its value. -/
theorem envelope_text (byteBudget told : ℕ) (value : Json) :
    stableStringify (envelopeJson byteBudget told value) =
      envelopeHead byteBudget told ++ (js ",\"value\":" ++ (stableStringify value ++ [125])) := by
  have hsorted : sortKeysFields [(js "byte_budget", natJson byteBudget), (js "utf8_bytes", natJson told),
      (js "value", value)] = [(js "byte_budget", natJson byteBudget), (js "utf8_bytes", natJson told),
        (js "value", sortKeys value)] := by
    have h₁ : compareUtf16CodeUnits (js "utf8_bytes") (js "value") ≠ .gt := by decide
    have h₂ : compareUtf16CodeUnits (js "byte_budget") (js "utf8_bytes") ≠ .gt := by decide
    simp only [sortKeysFields, insertField, if_neg h₁, if_neg h₂]
    rfl
  have hkeys : 123 :: (Json.quote (js "byte_budget") ++ [58]) = js "\x7b\"byte_budget\":" ∧
      44 :: (Json.quote (js "utf8_bytes") ++ [58]) = js ",\"utf8_bytes\":" ∧
      44 :: (Json.quote (js "value") ++ [58]) = js ",\"value\":" := by
    decide
  obtain ⟨h₁, h₂, h₃⟩ := hkeys
  have hnat : ∀ n : ℕ, (natJson n).render = Json.decDigits n := stable_nat
  rw [envelopeJson, stableStringify, sortKeys, hsorted, envelopeHead, ← h₁, ← h₂, ← h₃]
  simp only [Json.render, Json.renderFields, hnat, stableStringify, List.cons_append, List.append_assoc,
    List.nil_append]

/-- The bytes of a member that is the last of its object. -/
theorem member_size (text : JsString) : byteLength (js ",\"value\":" ++ (text ++ [125])) = byteLength text + 10 := by
  have hend : ¬ Utf16.IsLow 125 := by decide
  have hclose : byteLength (text ++ [125]) = byteLength text + 1 := by
    rw [byteLength, utf8, Utf16.utf8_append_cons hend, List.length_append]
    rfl
  have hkey : ∀ u ∈ js ",\"value\":", u.toNat < 128 := by
    have hall : (js ",\"value\":").all (fun u => decide (u.toNat < 128)) = true := by decide
    intro u hu
    simpa using List.all_eq_true.1 hall u hu
  have hlength : (js ",\"value\":").length = 9 := by decide
  rw [byteLength_append (.plain fun u hu => by have := hkey u hu; omega), byteLength_ascii hkey, hclose, hlength]
  omega

theorem envelope_size (byteBudget told : ℕ) (value : Json) :
    stableSize (envelopeJson byteBudget told value) =
      Json.tellSize (envelopeRest byteBudget (stableSize value)) told := by
  rw [stableSize, envelope_text, byteLength_append (envelopeHead_wellFormed byteBudget told), envelopeHead_size,
    member_size, Json.tellSize, envelopeRest, stableSize]
  omega

/-- The loop is a run of such rounds. -/
theorem wrapLoop_rounds {rest : ℕ} (value : T) (byteBudget : ℕ)
    (hsize : ∀ told, stableSize (envelopeJson byteBudget told (json value)) = Json.tellSize rest told)
    {attempts told size : ℕ} (h : Json.sizeRounds (Json.tellSize rest) attempts told = some size) :
    wrapLoop json value byteBudget attempts told =
      if size > byteBudget then .error (.budgetTooSmall byteBudget size) else .ok ⟨byteBudget, size, value⟩ := by
  induction attempts generalizing told with
  | zero => cases h
  | succ attempts ih =>
    rw [Json.sizeRounds_succ] at h
    rw [wrapLoop, hsize]
    by_cases htold : Json.tellSize rest told = told
    · rw [if_pos htold, Option.some.injEq] at h
      rw [if_pos htold, htold, h]
    · rw [if_neg htold] at h
      rw [if_neg htold]
      exact ih h

/-- **The rounds settle**: a projection is refused exactly if its size exceeds the budget. -/
theorem wrapReaderProjection_eq {value : T} {byteBudget : ℕ}
    (hbudget : assertReaderByteBudget byteBudget = .ok ()) :
    wrapReaderProjection json value byteBudget =
      if envelopeSize byteBudget (stableSize (json value)) > byteBudget then
        .error (.budgetTooSmall byteBudget (envelopeSize byteBudget (stableSize (json value))))
      else .ok ⟨byteBudget, envelopeSize byteBudget (stableSize (json value)), value⟩ := by
  rw [wrapReaderProjection, hbudget]
  exact wrapLoop_rounds value byteBudget (fun told => envelope_size byteBudget told (json value))
    (Json.sizeRounds_settle _ 12)

end

end Barbaro
