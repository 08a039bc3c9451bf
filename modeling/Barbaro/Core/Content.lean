import Barbaro.Core.TextSize

/-!
# Bounded text

`truncateUtf8` keeps the characters of a text up to the first that no longer fits, and
`excerptContent` says how much there was.

* `truncateUtf8_le`: what it keeps fits.
-/

namespace Barbaro

/-- The characters that fit, one after the other. -/
def takeFitting : ℕ → List ℕ → List ℕ
  | _, [] => []
  | room, c :: cs =>
    if (Utf8.encodeOne (Utf16.scalarOf c)).length ≤ room then
      c :: takeFitting (room - (Utf8.encodeOne (Utf16.scalarOf c)).length) cs
    else []

def truncateUtf8 (value : JsString) (maxUtf8Bytes : ℕ) : JsString :=
  Utf16.units (takeFitting maxUtf8Bytes (Utf16.codePoints value))

/-- `excerptContent` of a text. -/
def excerptContent (text : JsString) (maxUtf8Bytes : ℕ) : Json :=
  let cut := decide (maxUtf8Bytes < byteLength text)
  .obj [
    (js "text", .str (if cut then truncateUtf8 text maxUtf8Bytes else text)),
    (js "fidelity", .str (js "excerpt")), (js "truncated", .bool cut),
    (js "original_utf8_bytes", natJson (byteLength text)), (js "redactions", .arr [])]

/-- No two neighbours are the two halves of a pair. -/
def Unpaired : List ℕ → Prop
  | [] => True
  | [c] => c < 0x110000
  | c :: d :: cs => c < 0x110000 ∧ ¬ ((0xD800 ≤ c ∧ c ≤ 0xDBFF) ∧ 0xDC00 ≤ d ∧ d ≤ 0xDFFF) ∧ Unpaired (d :: cs)

theorem Unpaired.tail {c : ℕ} {cs : List ℕ} (h : Unpaired (c :: cs)) : c < 0x110000 ∧ Unpaired cs := by
  cases cs with
  | nil => exact ⟨h, trivial⟩
  | cons d cs => exact ⟨h.1, h.2.2⟩

theorem codePoints_unpaired (s : JsString) : Unpaired (Utf16.codePoints s) := by
  induction s using Utf16.codePoints.induct with
  | case1 => trivial
  | case2 u =>
    have := u.toNat_lt
    simp only [Utf16.codePoints, Unpaired]
    omega
  | case3 u v us h ih =>
    rw [Utf16.codePoints, if_pos h]
    obtain ⟨hu, hv⟩ := h
    unfold Utf16.IsHigh at hu
    unfold Utf16.IsLow at hv
    rcases hcs : Utf16.codePoints us with _ | ⟨d, cs⟩
    · simp only [Unpaired]
      omega
    · rw [hcs] at ih
      exact ⟨by omega, by omega, ih⟩
  | case4 u v us h ih =>
    rw [Utf16.codePoints, if_neg h]
    have hu := u.toNat_lt
    rcases hcs : Utf16.codePoints (v :: us) with _ | ⟨d, cs⟩
    · simp only [Unpaired]
      omega
    · rw [hcs] at ih
      refine ⟨by omega, fun hpair => ?_, ih⟩
      -- a low surrogate at the head of the rest is its first unit
      have hd : d = v.toNat := by
        cases us with
        | nil =>
          rw [Utf16.codePoints] at hcs
          exact (List.cons.inj hcs).1.symm
        | cons w us =>
          rw [Utf16.codePoints] at hcs
          split at hcs
          · have := (List.cons.inj hcs).1
            omega
          · exact (List.cons.inj hcs).1.symm
      refine h ⟨?_, ?_⟩
      · unfold Utf16.IsHigh
        omega
      · unfold Utf16.IsLow
        omega

theorem takeFitting_unpaired {cs : List ℕ} (h : Unpaired cs) (room : ℕ) :
    Unpaired (takeFitting room cs) := by
  induction cs generalizing room with
  | nil => trivial
  | cons c cs ih =>
    rw [takeFitting]
    split
    · have hrest := ih h.tail.2 (room - (Utf8.encodeOne (Utf16.scalarOf c)).length)
      cases cs with
      | nil => exact h
      | cons d cs =>
        rw [takeFitting] at hrest ⊢
        split at hrest
        · next hfits =>
          rw [if_pos hfits]
          exact ⟨h.1, h.2.1, hrest⟩
        · next hfits =>
          rw [if_neg hfits]
          exact h.1
    · trivial

/-- Such characters are read back from their units. -/
theorem codePoints_units_unpaired {cs : List ℕ} (h : Unpaired cs) :
    Utf16.codePoints (Utf16.units cs) = cs := by
  induction cs with
  | nil => rfl
  | cons c cs ih =>
    obtain ⟨hc, htail⟩ := h.tail
    have hunits : Utf16.units (c :: cs) = Utf16.unitsOne c ++ Utf16.units cs := rfl
    by_cases hscalar : Utf8.Scalar c
    · rw [hunits, Utf16.codePoints_unitsOne hscalar, ih htail]
    · have hsurrogate : 0xD800 ≤ c ∧ c ≤ 0xDFFF := by
        unfold Utf8.Scalar at hscalar
        omega
      have hone : Utf16.unitsOne c = [UInt16.ofNat c] := by
        rw [Utf16.unitsOne, if_pos (by omega)]
      have hval := Utf16.toNat_ofNat (show c < 65536 by omega)
      rw [hunits, hone, List.singleton_append]
      by_cases hhigh : Utf16.IsHigh (UInt16.ofNat c)
      · -- the next unit does not complete the pair
        cases cs with
        | nil => simp [Utf16.units, Utf16.codePoints, hval]
        | cons d cs =>
          obtain ⟨hd, -⟩ := htail.tail
          have hpair := h.2.1
          unfold Utf16.IsHigh at hhigh
          rw [hval] at hhigh
          have hunits' : ∃ v us, Utf16.units (d :: cs) = v :: us ∧ ¬ Utf16.IsLow v := by
            have hcons : Utf16.units (d :: cs) = Utf16.unitsOne d ++ Utf16.units cs := rfl
            rw [hcons, Utf16.unitsOne]
            split
            · refine ⟨_, _, rfl, ?_⟩
              unfold Utf16.IsLow
              rw [Utf16.toNat_ofNat (by omega)]
              omega
            · refine ⟨_, _, rfl, ?_⟩
              unfold Utf16.IsLow
              rw [Utf16.toNat_ofNat (by omega)]
              omega
          obtain ⟨v, us, hvus, hlow⟩ := hunits'
          have ih := ih htail
          rw [hvus] at ih ⊢
          rw [Utf16.codePoints, if_neg (fun hand => hlow hand.2), ih, hval]
      · rw [Utf16.codePoints_cons hhigh, ih htail, hval]

theorem takeFitting_length (room : ℕ) (cs : List ℕ) :
    (Utf8.encode ((takeFitting room cs).map Utf16.scalarOf)).length ≤ room := by
  induction cs generalizing room with
  | nil => exact Nat.zero_le _
  | cons c cs ih =>
    rw [takeFitting]
    split
    · next hfits =>
      have := ih (room - (Utf8.encodeOne (Utf16.scalarOf c)).length)
      rw [List.map_cons, Utf8.encode, List.flatMap_cons, List.length_append]
      unfold Utf8.encode at this
      omega
    · exact Nat.zero_le _

/-- **A truncated text fits.** -/
theorem truncateUtf8_le (value : JsString) (maxUtf8Bytes : ℕ) :
    byteLength (truncateUtf8 value maxUtf8Bytes) ≤ maxUtf8Bytes := by
  have hback := codePoints_units_unpaired
    (takeFitting_unpaired (codePoints_unpaired value) maxUtf8Bytes)
  rw [byteLength, utf8, Utf16.utf8, truncateUtf8, hback]
  exact takeFitting_length _ _

/-- Some of a text is kept. -/
theorem truncateUtf8_nonempty {value : JsString} {maxUtf8Bytes : ℕ} (h : value ≠ [])
    (hroom : 4 ≤ maxUtf8Bytes) : truncateUtf8 value maxUtf8Bytes ≠ [] := by
  have hpoints : ∃ c cs, Utf16.codePoints value = c :: cs := by
    rcases value with _ | ⟨u, _ | ⟨v, us⟩⟩
    · exact absurd rfl h
    · exact ⟨_, _, rfl⟩
    · rw [Utf16.codePoints]
      split
      · exact ⟨_, _, rfl⟩
      · exact ⟨_, _, rfl⟩
  obtain ⟨c, cs, hcs⟩ := hpoints
  have hwidth : (Utf8.encodeOne (Utf16.scalarOf c)).length ≤ maxUtf8Bytes := by
    have hone := encodeOne_length (Utf16.scalarOf c)
    rcases Nat.lt_or_ge (Utf16.scalarOf c) 0x10000 with hlt | hge
    · have := hone.2.1 hlt
      omega
    · have := hone.2.2 hge
      omega
  rw [truncateUtf8, hcs, takeFitting, if_pos hwidth]
  simp only [Utf16.units, List.flatMap_cons]
  unfold Utf16.unitsOne
  split <;> simp

end Barbaro
