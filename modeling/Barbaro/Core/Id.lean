import Barbaro.Core.TextSize
import Barbaro.Lib.Framing

/-!
# Typed identifiers

An identifier is a digest of a domain, a type and the parts of an identity, each of them
framed by its length.

* `encodeTypedIdInput`: the bytes that are digested.
* `typedId_injective`: two identities have one identifier only if two inputs have one digest.
-/

namespace Barbaro

def barbaroIdDomain : String := "barbaro-id-v1"

inductive BarbaroIdType
  | session
  | turn
  | action
  | evidence
  | lease
  deriving DecidableEq, Repr

def BarbaroIdType.text : BarbaroIdType → String
  | .session => "session"
  | .turn => "turn"
  | .action => "action"
  | .evidence => "evidence"
  | .lease => "lease"

/-- `BARBARO_ID_PREFIX` -/
def barbaroIdPrefix : BarbaroIdType → String
  | .session => "ses"
  | .turn => "turn"
  | .action => "act"
  | .evidence => "ev"
  | .lease => "lease"

/-- A part of an identity; `null` and `undefined` are a missing one. -/
abbrev BarbaroIdPart := Option JsString

/-- What stands before the colon of a frame. -/
def partLabel : BarbaroIdPart → JsString
  | none => js "-1"
  | some part => Json.decDigits (byteLength part)

def partBytes : BarbaroIdPart → Bytes
  | none => []
  | some part => utf8 part

/-- A missing part is framed with a length of -1, an empty one with 0. -/
def framePart (part : BarbaroIdPart) : Bytes := utf8 (partLabel part) ++ 58 :: partBytes part

/-- The exact byte sequence that is digested. -/
def encodeTypedIdInput (type : BarbaroIdType) (parts : List BarbaroIdPart) : Bytes :=
  utf8 (js barbaroIdDomain) ++ 0 :: (utf8 (js type.text) ++ Framing.framed 0 framePart parts)

section
variable (E : Hasher)

/-- The first 16 bytes of the digest, in hexadecimal. -/
def typedIdDigest (input : Bytes) : JsString := (E.sha256 input).take 32

def createTypedId (type : BarbaroIdType) (parts : List BarbaroIdPart) : JsString :=
  js (barbaroIdPrefix type) ++ 95 :: typedIdDigest E (encodeTypedIdInput type parts)

def createSessionId (provider nativeSessionId : JsString) : JsString :=
  createTypedId E .session [some provider, some nativeSessionId]

def createTurnId (provider nativeSessionId actorId nativeTurnKey : JsString) : JsString :=
  createTypedId E .turn [some provider, some nativeSessionId, some actorId, some nativeTurnKey]

/-- `assertOccurrenceIndex` -/
def assertOccurrenceIndex (value : ℤ) : Except Failure ℕ :=
  if value < 0 ∨ (maxSafeInteger : ℤ) < value then
    .error (.rangeError "occurrenceIndex must be a non-negative safe integer")
  else .ok value.toNat

def createActionId (stableTurnId stableSourceRecordIdentity : JsString) (occurrenceIndex : ℤ) :
    Except Failure JsString := do
  let index ← assertOccurrenceIndex occurrenceIndex
  return createTypedId E .action [some stableTurnId, some stableSourceRecordIdentity, some (Json.decDigits index)]

def createEvidenceId (stableTurnId stableSourceRecordIdentity : JsString) (occurrenceIndex : ℤ) :
    Except Failure JsString := do
  let index ← assertOccurrenceIndex occurrenceIndex
  return createTypedId E .evidence [some stableTurnId, some stableSourceRecordIdentity, some (Json.decDigits index)]

def createLeaseId (provider nativeSessionId actorId : JsString) : JsString :=
  createTypedId E .lease [some provider, some nativeSessionId, some actorId]

end

/-! ## The frames -/

theorem utf8_injective {s t : JsString} (hs : Utf16.WellFormed s) (ht : Utf16.WellFormed t)
    (h : utf8 s = utf8 t) : s = t := by
  rw [← bytesToString_utf8 hs, h, bytesToString_utf8 ht]

theorem decDigits_wellFormed (n : ℕ) : Utf16.WellFormed (Json.decDigits n) := by
  refine .plain fun u hu => ?_
  have := decDigits_ascii n u hu
  omega

/-- A part that is there is well-formed text. -/
def IsText (part : BarbaroIdPart) : Prop := ∀ s ∈ part, Utf16.WellFormed s

theorem partLabel_wellFormed (part : BarbaroIdPart) : Utf16.WellFormed (partLabel part) := by
  cases part with
  | none => exact .of_all (by decide)
  | some s => exact decDigits_wellFormed _

/-- No colon stands in a length. -/
theorem colon_not_mem_label (part : BarbaroIdPart) : (58 : UInt8) ∉ utf8 (partLabel part) := by
  intro hmem
  obtain ⟨u, hu, heq⟩ := Utf16.ascii_mem_utf8 (by decide) hmem
  cases part with
  | none =>
    have hfree : (partLabel none).all (fun u => u.toNat != 58) = true := by decide
    exact bne_iff_ne.1 (List.all_eq_true.1 hfree u hu) heq
  | some s =>
    have hdigit := Json.decLoop_digits _ _ u hu
    simp only [Json.isDigit, Bool.and_eq_true, decide_eq_true_eq] at hdigit
    have h58 : (58 : UInt8).toNat = 58 := rfl
    omega

theorem decDigits_injective {m n : ℕ} (h : Json.decDigits m = Json.decDigits n) : m = n := by
  have hm : Json.ofDigits (Json.decDigits m) = m := Json.ofDigits_decLoop (Nat.lt_succ_self m)
  rw [← hm, h]
  exact Json.ofDigits_decLoop (Nat.lt_succ_self n)

/-- A missing part has a label that no length is written as. -/
theorem label_missing (s : JsString) : partLabel (some s) ≠ partLabel none := by
  intro h
  obtain ⟨u, rest, hhead, hdigit⟩ := Json.decDigits_head (byteLength s)
  rw [partLabel, partLabel, hhead] at h
  obtain rfl : u = 45 := (List.cons.inj h).1
  cases hdigit

theorem label_eq {p q : BarbaroIdPart} (h : utf8 (partLabel p) = utf8 (partLabel q)) :
    (partBytes p).length = (partBytes q).length ∧ (p = none ↔ q = none) := by
  have hlabel := utf8_injective (partLabel_wellFormed p) (partLabel_wellFormed q) h
  cases p with
  | none =>
    cases q with
    | none => exact ⟨rfl, Iff.rfl⟩
    | some t => exact absurd hlabel.symm (label_missing t)
  | some s =>
    cases q with
    | none => exact absurd hlabel (label_missing s)
    | some t => exact ⟨decDigits_injective hlabel, by simp⟩

/-- **The frame of a part tells where it ends.** -/
theorem framePart_selfDelimiting : Framing.SelfDelimiting framePart IsText := by
  refine Framing.selfDelimiting_label colon_not_mem_label (fun p q h => (label_eq h).1) ?_
  intro p q hp hq hlabel hbody
  have hmissing := (label_eq hlabel).2
  cases p with
  | none => rw [hmissing.1 rfl]
  | some s =>
    cases q with
    | none => cases hmissing.2 rfl
    | some t => rw [utf8_injective (hp s rfl) (hq t rfl) hbody]

theorem framed_head (parts : List BarbaroIdPart) :
    Framing.framed 0 framePart parts = [] ∨ ∃ rest, Framing.framed 0 framePart parts = 0 :: rest := by
  cases parts with
  | nil => exact .inl rfl
  | cons p parts => exact .inr ⟨_, Framing.framed_cons 0 framePart p parts⟩

/-- The type is told by what stands before the first frame. -/
theorem type_of_input {t t' : BarbaroIdType} {ps qs : List BarbaroIdPart}
    (h : utf8 (js t.text) ++ Framing.framed 0 framePart ps = utf8 (js t'.text) ++ Framing.framed 0 framePart qs) :
    t = t' ∧ Framing.framed 0 framePart ps = Framing.framed 0 framePart qs := by
  have hfree : ∀ t : BarbaroIdType, ∀ b ∈ utf8 (js t.text), (b != 0) = true := by
    intro t
    refine List.all_eq_true.1 ?_
    cases t <;> decide
  have hword : ∀ (t : BarbaroIdType) (ps : List BarbaroIdPart),
      (utf8 (js t.text) ++ Framing.framed 0 framePart ps).takeWhile (· != 0) = utf8 (js t.text) := by
    intro t ps
    rw [List.takeWhile_append_of_pos (hfree t)]
    rcases framed_head ps with hnil | ⟨rest, hrest⟩
    · rw [hnil, List.takeWhile_nil, List.append_nil]
    · rw [hrest, List.takeWhile_cons_of_neg (by simp), List.append_nil]
  have htext : utf8 (js t.text) = utf8 (js t'.text) := by
    rw [← hword t ps, h, hword]
  have hsame : t = t' := by
    revert htext
    cases t <;> cases t' <;> decide
  rw [htext] at h
  exact ⟨hsame, List.append_cancel_left h⟩

/-- The input of the digest tells the identity. -/
theorem encodeTypedIdInput_injective {t t' : BarbaroIdType} {ps qs : List BarbaroIdPart}
    (hps : ∀ p ∈ ps, IsText p) (hqs : ∀ q ∈ qs, IsText q)
    (h : encodeTypedIdInput t ps = encodeTypedIdInput t' qs) : t = t' ∧ ps = qs := by
  obtain ⟨htype, hframes⟩ := type_of_input (List.cons.inj (List.append_cancel_left h)).2
  exact ⟨htype, framePart_selfDelimiting.sequence 0 hps hqs hframes⟩

/-- **Two identities never share an identifier but by a collision**: the bytes that are digested
are equal only if the type and all parts are, and so is the identifier unless two inputs have
one digest. -/
theorem typedId_injective (E : Hasher) (t t' : BarbaroIdType) (ps qs : List BarbaroIdPart)
    (hps : ∀ p ∈ ps, IsText p) (hqs : ∀ q ∈ qs, IsText q) :
    (encodeTypedIdInput t ps = encodeTypedIdInput t' qs → t = t' ∧ ps = qs) ∧
      (createTypedId E t ps = createTypedId E t' qs → (t = t' ∧ ps = qs) ∨
        (encodeTypedIdInput t ps ≠ encodeTypedIdInput t' qs ∧
          typedIdDigest E (encodeTypedIdInput t ps) = typedIdDigest E (encodeTypedIdInput t' qs))) := by
  refine ⟨encodeTypedIdInput_injective hps hqs, fun h => ?_⟩
  by_cases hinput : encodeTypedIdInput t ps = encodeTypedIdInput t' qs
  · exact .inl (encodeTypedIdInput_injective hps hqs hinput)
  · have hfree : ∀ t : BarbaroIdType, (95 : UInt16) ∉ js (barbaroIdPrefix t) := by
      intro t
      cases t <;> decide
    exact .inr ⟨hinput, (Framing.split_at_stop (hfree t) (hfree t') h).2⟩

/-- A missing part and an empty one make two inputs. -/
theorem typedId_injective_missing :
    (encodeTypedIdInput .session [some (js "claude"), none] =
      encodeTypedIdInput .session [some (js "claude"), some []] →
        BarbaroIdType.session = .session ∧ [some (js "claude"), none] = [some (js "claude"), some []]) ∧
      (createTypedId (.ofTable []) .session [some (js "claude"), none] =
        createTypedId (.ofTable []) .session [some (js "claude"), some []] →
          (BarbaroIdType.session = .session ∧ [some (js "claude"), none] = [some (js "claude"), some []]) ∨
          (encodeTypedIdInput .session [some (js "claude"), none] ≠
              encodeTypedIdInput .session [some (js "claude"), some []] ∧
            typedIdDigest (.ofTable []) (encodeTypedIdInput .session [some (js "claude"), none]) =
              typedIdDigest (.ofTable []) (encodeTypedIdInput .session [some (js "claude"), some []]))) := by
  have hname : IsText (some (js "claude")) := by
    rintro s ⟨⟩
    exact .of_all (by decide)
  have hmissing : IsText none := by rintro s ⟨⟩
  have hempty : IsText (some []) := by
    rintro s ⟨⟩
    exact .nil
  exact typedId_injective (.ofTable []) .session .session [some (js "claude"), none] [some (js "claude"), some []]
    (by simp [hname, hmissing]) (by simp [hname, hempty])

end Barbaro
