import Barbaro.Lib.Utf8

/-!
# UTF-16 code units

A string of a UTF-16 language is any list of code units: it may hold surrogates
that have lost their partner. `codePoints` reads such a string as ECMAScript does
(a high and a low surrogate in a row are one code point, any other unit stands for
itself), and `utf8` is the byte sequence `Buffer.from(text, "utf8")` writes, with
U+FFFD for a surrogate that stands alone.

`codePoints_units`: writing scalar values as units and reading them back gives the
same values.
-/

namespace Utf16

/-- The code units of one code point. -/
def unitsOne (c : ℕ) : List UInt16 :=
  if c < 0x10000 then [.ofNat c]
  else [.ofNat (0xD800 + (c - 0x10000) / 0x400), .ofNat (0xDC00 + (c - 0x10000) % 0x400)]

/-- The code units of a text. -/
def units (t : List ℕ) : List UInt16 := t.flatMap unitsOne

/-- The unit opens a surrogate pair. -/
def IsHigh (u : UInt16) : Prop := 0xD800 ≤ u.toNat ∧ u.toNat ≤ 0xDBFF

/-- The unit closes a surrogate pair. -/
def IsLow (u : UInt16) : Prop := 0xDC00 ≤ u.toNat ∧ u.toNat ≤ 0xDFFF

instance : DecidablePred IsHigh := fun _ => inferInstanceAs (Decidable (_ ∧ _))
instance : DecidablePred IsLow := fun _ => inferInstanceAs (Decidable (_ ∧ _))

/-- The code points of a string: pairs are joined, a lone surrogate stands for itself. -/
def codePoints : List UInt16 → List ℕ
  | [] => []
  | [u] => [u.toNat]
  | u :: v :: us =>
    if IsHigh u ∧ IsLow v then
      (0x10000 + (u.toNat - 0xD800) * 0x400 + (v.toNat - 0xDC00)) :: codePoints us
    else u.toNat :: codePoints (v :: us)

/-- What is encoded for a code point: a lone surrogate has no encoding. -/
def scalarOf (c : ℕ) : ℕ := if 0xD800 ≤ c ∧ c ≤ 0xDFFF then 0xFFFD else c

/-- The UTF-8 bytes of a string. -/
def utf8 (s : List UInt16) : List UInt8 := Utf8.encode ((codePoints s).map scalarOf)

theorem toNat_ofNat {n : ℕ} (h : n < 65536) : (UInt16.ofNat n).toNat = n := by
  simp [UInt16.toNat_ofNat', Nat.mod_eq_of_lt h]

/-- A unit that closes no pair is read on its own, whatever follows. -/
theorem codePoints_cons {u : UInt16} (hu : ¬ IsHigh u) (us : List UInt16) :
    codePoints (u :: us) = u.toNat :: codePoints us := by
  cases us with
  | nil => rfl
  | cons v us => rw [codePoints, if_neg (fun h => hu h.1)]

theorem codePoints_pair {u v : UInt16} (hu : IsHigh u) (hv : IsLow v) (us : List UInt16) :
    codePoints (u :: v :: us) =
      (0x10000 + (u.toNat - 0xD800) * 0x400 + (v.toNat - 0xDC00)) :: codePoints us := by
  rw [codePoints, if_pos ⟨hu, hv⟩]

theorem codePoints_unitsOne {c : ℕ} (hc : Utf8.Scalar c) (us : List UInt16) :
    codePoints (unitsOne c ++ us) = c :: codePoints us := by
  unfold unitsOne
  unfold Utf8.Scalar at hc
  split_ifs with h
  · have e := toNat_ofNat h
    rw [List.singleton_append, codePoints_cons (by unfold IsHigh; rw [e]; omega), e]
  · have e1 := toNat_ofNat (show 0xD800 + (c - 0x10000) / 0x400 < 65536 by omega)
    have e2 := toNat_ofNat (show 0xDC00 + (c - 0x10000) % 0x400 < 65536 by omega)
    rw [List.cons_append, List.singleton_append,
      codePoints_pair (by unfold IsHigh; rw [e1]; omega) (by unfold IsLow; rw [e2]; omega), e1, e2]
    have hc' : 0x10000 + (0xD800 + (c - 0x10000) / 0x400 - 0xD800) * 0x400 +
        (0xDC00 + (c - 0x10000) % 0x400 - 0xDC00) = c := by omega
    rw [hc']

/-- **Scalar values survive UTF-16.** -/
theorem codePoints_units {t : List ℕ} (ht : ∀ c ∈ t, Utf8.Scalar c) : codePoints (units t) = t := by
  induction t with
  | nil => rfl
  | cons c t ih =>
    rw [units, List.flatMap_cons, codePoints_unitsOne (ht c (by simp))]
    congr 1
    exact ih (fun d hd => ht d (by simp [hd]))

theorem scalarOf_scalar {c : ℕ} (hc : Utf8.Scalar c) : scalarOf c = c := by
  unfold Utf8.Scalar at hc
  rw [scalarOf, if_neg (by omega)]

/-- The bytes of a text of scalar values decode to that text. -/
theorem decode_utf8_units {t : List ℕ} (ht : ∀ c ∈ t, Utf8.Scalar c) :
    Utf8.decode (utf8 (units t)) = t.map some := by
  rw [utf8, codePoints_units ht, List.map_congr_left (fun c hc => scalarOf_scalar (ht c hc)),
    List.map_id', Utf8.decode_encode ht]

end Utf16
