import Barbaro.Lib.JsonRoundTrip
import Barbaro.Lib.Utf16

/-!
# The bytes of JSON text

The text the JSON writer makes has no control characters and no lone surrogates, so it
survives UTF-8, and a line feed never occurs in it.

* `Utf16.decode_utf8`: a text without lone surrogates is decoded from its bytes.
* `Json.render_wellFormed`, `Json.render_no_control`.
-/

namespace Utf16

/-- The text of some scalar values: it has no lone surrogate. -/
def WellFormed (s : List UInt16) : Prop := ∃ cs, (∀ c ∈ cs, Utf8.Scalar c) ∧ s = units cs

theorem WellFormed.nil : WellFormed [] := ⟨[], by simp, rfl⟩

theorem WellFormed.append {s t : List UInt16} (hs : WellFormed s) (ht : WellFormed t) :
    WellFormed (s ++ t) := by
  obtain ⟨cs, hcs, rfl⟩ := hs
  obtain ⟨ds, hds, rfl⟩ := ht
  refine ⟨cs ++ ds, fun c hc => ?_, by simp [units]⟩
  rcases List.mem_append.1 hc with hc | hc
  · exact hcs c hc
  · exact hds c hc

/-- Units that are no surrogates. -/
theorem WellFormed.plain {s : List UInt16} (h : ∀ u ∈ s, u.toNat < 0xD800) : WellFormed s := by
  induction s with
  | nil => exact .nil
  | cons u s ih =>
    have hu := h u (by simp)
    have hone : WellFormed [u] := by
      refine ⟨[u.toNat], by simpa using .inl hu, ?_⟩
      simp only [units, List.flatMap_cons, List.flatMap_nil, List.append_nil, unitsOne]
      rw [if_pos (by omega)]
      simp
    exact hone.append (ih (fun v hv => h v (List.mem_cons_of_mem _ hv)))

theorem WellFormed.of_all {s : List UInt16} (h : s.all (fun u => decide (u.toNat < 0xD800)) = true) :
    WellFormed s :=
  .plain fun u hu => of_decide_eq_true (List.all_eq_true.1 h u hu)

theorem WellFormed.pair {u v : UInt16} (hu : IsHigh u) (hv : IsLow v) : WellFormed [u, v] := by
  obtain ⟨hu1, hu2⟩ := hu
  obtain ⟨hv1, hv2⟩ := hv
  refine ⟨[0x10000 + (u.toNat - 0xD800) * 0x400 + (v.toNat - 0xDC00)], ?_, ?_⟩
  · simp only [List.mem_singleton, forall_eq, Utf8.Scalar]
    omega
  · simp only [units, List.flatMap_cons, List.flatMap_nil, List.append_nil, unitsOne]
    rw [if_neg (by omega)]
    have e1 : 0xD800 + (0x10000 + (u.toNat - 0xD800) * 0x400 + (v.toNat - 0xDC00) - 0x10000) / 0x400 =
        u.toNat := by omega
    have e2 : 0xDC00 + (0x10000 + (u.toNat - 0xD800) * 0x400 + (v.toNat - 0xDC00) - 0x10000) % 0x400 =
        v.toNat := by omega
    rw [e1, e2]
    simp

/-- **A text without lone surrogates is decoded from its bytes.** -/
theorem decode_utf8 {s : List UInt16} (h : WellFormed s) :
    Utf8.decode (utf8 s) = (codePoints s).map some ∧ units (codePoints s) = s := by
  obtain ⟨cs, hcs, rfl⟩ := h
  rw [codePoints_units hcs]
  exact ⟨decode_utf8_units hcs, rfl⟩

theorem codePoints_mem {s : List UInt16} {c : ℕ} (hc : c ∈ codePoints s) (h : c < 0xD800) :
    ∃ u ∈ s, u.toNat = c := by
  induction s using codePoints.induct with
  | case1 => cases hc
  | case2 u =>
    rw [codePoints, List.mem_singleton] at hc
    exact ⟨u, by simp, hc.symm⟩
  | case3 u v us hp ih =>
    rw [codePoints, if_pos hp, List.mem_cons] at hc
    rcases hc with hc | hc
    · omega
    · obtain ⟨w, hw, rfl⟩ := ih hc
      exact ⟨w, by simp [hw], rfl⟩
  | case4 u v us hp ih =>
    rw [codePoints, if_neg hp, List.mem_cons] at hc
    rcases hc with rfl | hc
    · exact ⟨u, by simp, rfl⟩
    · obtain ⟨w, hw, rfl⟩ := ih hc
      exact ⟨w, List.mem_cons_of_mem _ hw, rfl⟩

theorem codePoints_lt (s : List UInt16) : ∀ c ∈ codePoints s, c < 0x110000 := by
  induction s using codePoints.induct with
  | case1 => simp [codePoints]
  | case2 u =>
    have := u.toNat_lt
    simp only [codePoints, List.mem_singleton, forall_eq]
    omega
  | case3 u v us hp ih =>
    obtain ⟨⟨h1, h2⟩, h3, h4⟩ := hp
    rw [codePoints, if_pos ⟨⟨h1, h2⟩, h3, h4⟩]
    intro c hc
    rcases List.mem_cons.1 hc with hc | hc
    · omega
    · exact ih c hc
  | case4 u v us hp ih =>
    rw [codePoints, if_neg hp]
    intro c hc
    rcases List.mem_cons.1 hc with hc | hc
    · have := u.toNat_lt
      omega
    · exact ih c hc

theorem byte_ofNat {n : ℕ} (h : n < 256) : (UInt8.ofNat n).toNat = n := by
  simp [UInt8.toNat_ofNat', Nat.mod_eq_of_lt h]

/-- The only code point with an ASCII byte is the ASCII character. -/
theorem ascii_mem_encodeOne {c : ℕ} (hc : c < 0x110000) {b : UInt8} (hb : b.toNat < 0x80)
    (h : b ∈ Utf8.encodeOne c) : c = b.toNat := by
  unfold Utf8.encodeOne at h
  split_ifs at h with h1 h2 h3
  · rw [List.mem_singleton] at h
    rw [h, byte_ofNat (by omega)]
  · simp only [List.mem_cons, List.not_mem_nil, or_false] at h
    rcases h with rfl | rfl
    · rw [byte_ofNat (by omega)] at hb; omega
    · rw [byte_ofNat (by omega)] at hb; omega
  · simp only [List.mem_cons, List.not_mem_nil, or_false] at h
    rcases h with rfl | rfl | rfl
    · rw [byte_ofNat (by omega)] at hb; omega
    · rw [byte_ofNat (by omega)] at hb; omega
    · rw [byte_ofNat (by omega)] at hb; omega
  · simp only [List.mem_cons, List.not_mem_nil, or_false] at h
    rcases h with rfl | rfl | rfl | rfl
    · rw [byte_ofNat (by omega)] at hb; omega
    · rw [byte_ofNat (by omega)] at hb; omega
    · rw [byte_ofNat (by omega)] at hb; omega
    · rw [byte_ofNat (by omega)] at hb; omega

/-- An ASCII byte of an encoded text is a unit of it. -/
theorem ascii_mem_utf8 {s : List UInt16} {b : UInt8} (hb : b.toNat < 0x80) (h : b ∈ utf8 s) :
    ∃ u ∈ s, u.toNat = b.toNat := by
  rw [utf8, Utf8.encode, List.mem_flatMap] at h
  obtain ⟨c, hc, hmem⟩ := h
  obtain ⟨d, hd, rfl⟩ := List.mem_map.1 hc
  have hlt : scalarOf d < 0x110000 := by
    have := codePoints_lt s d hd
    unfold scalarOf
    split <;> omega
  have hcb := ascii_mem_encodeOne hlt hb hmem
  unfold scalarOf at hcb
  split at hcb
  · omega
  · obtain ⟨u, hu, hud⟩ := codePoints_mem hd (by omega)
    exact ⟨u, hu, hud.trans hcb⟩

end Utf16

namespace Json

/-! ## String literals -/

theorem hexDigit_printable {n : ℕ} (h : n < 16) : 32 ≤ (hexDigit n).toNat ∧ (hexDigit n).toNat < 128 := by
  have : ∀ n, n < 16 → 32 ≤ (hexDigit n).toNat ∧ (hexDigit n).toNat < 128 := by decide
  exact this n h

theorem unicodeEscape_printable (u : UInt16) : Printable (unicodeEscape u) := by
  have hu := u.toNat_lt
  intro w hw
  simp only [unicodeEscape, List.mem_cons, List.not_mem_nil, or_false] at hw
  rcases hw with rfl | rfl | rfl | rfl | rfl | rfl
  · decide
  · decide
  all_goals exact hexDigit_printable (by omega)

/-- Text without control characters and without lone surrogates. -/
structure Clean (s : Text) : Prop where
  noControl : ∀ u ∈ s, 32 ≤ u.toNat
  wellFormed : Utf16.WellFormed s

theorem Clean.nil : Clean [] := ⟨by simp, .nil⟩

theorem Clean.append {s t : Text} (hs : Clean s) (ht : Clean t) : Clean (s ++ t) := by
  refine ⟨fun u hu => ?_, hs.wellFormed.append ht.wellFormed⟩
  rcases List.mem_append.1 hu with hu | hu
  · exact hs.noControl u hu
  · exact ht.noControl u hu

theorem Printable.clean {s : Text} (h : Printable s) : Clean s :=
  ⟨fun u hu => (h u hu).1, .plain (fun u hu => by have := (h u hu).2; omega)⟩

theorem ascii_clean (s : Text) (h : s.all (fun u => 32 ≤ u.toNat && u.toNat < 128) = true) :
    Clean s :=
  Printable.clean fun u hu => by simpa using List.all_eq_true.1 h u hu

theorem clean_cons {u : UInt16} {s : Text} (h1 : 32 ≤ u.toNat) (h2 : u.toNat < 128) (hs : Clean s) :
    Clean (u :: s) := by
  have : Clean [u] := Printable.clean (by simpa [Printable] using ⟨h1, h2⟩)
  exact this.append hs

theorem isHigh_iff {u : UInt16} : isHigh u = true ↔ Utf16.IsHigh u := by
  simp [isHigh, Utf16.IsHigh]

theorem isLow_iff {u : UInt16} : isLow u = true ↔ Utf16.IsLow u := by
  simp [isLow, Utf16.IsLow]

theorem plain_clean {u : UInt16} (h : ¬ (isHigh u || isLow u) = true) (h8 : 32 ≤ u.toNat) : Clean [u] := by
  refine ⟨by simpa using h8, ?_⟩
  simp only [Bool.or_eq_true, isHigh_iff, isLow_iff, not_or, Utf16.IsHigh, Utf16.IsLow] at h
  have hlt := u.toNat_lt
  refine ⟨[u.toNat], by simp only [List.mem_singleton, forall_eq, Utf8.Scalar]; omega, ?_⟩
  simp only [Utf16.units, List.flatMap_cons, List.flatMap_nil, List.append_nil, Utf16.unitsOne]
  rw [if_pos (by omega)]
  simp

/-- A one-letter escape. -/
theorem letter_clean {e : UInt16} (h1 : 32 ≤ e.toNat) (h2 : e.toNat < 128) : Clean [92, e] :=
  clean_cons (by decide) (by decide) (clean_cons h1 h2 .nil)

theorem escapeUnit_clean {u : UInt16} (h : ¬ (isHigh u || isLow u) = true) : Clean (escapeUnit u) := by
  unfold escapeUnit
  split_ifs with h1 h2 h3 h4 h5 h6 h7 h8
  · exact letter_clean (by decide) (by decide)
  · exact letter_clean (by decide) (by decide)
  · exact letter_clean (by decide) (by decide)
  · exact letter_clean (by decide) (by decide)
  · exact letter_clean (by decide) (by decide)
  · exact letter_clean (by decide) (by decide)
  · exact letter_clean (by decide) (by decide)
  · exact (unicodeEscape_printable u).clean
  · exact plain_clean h (Nat.le_of_not_lt h8)

theorem escape_clean (s : Text) : Clean (escape s) := by
  induction s using escape.induct with
  | case1 => exact .nil
  | case2 u h => rw [escape, if_pos h]; exact (unicodeEscape_printable u).clean
  | case3 u h => rw [escape, if_neg h]; exact escapeUnit_clean h
  | case4 u v s h ih =>
    rw [escape, if_pos h]
    obtain ⟨hu, hv⟩ := Bool.and_eq_true_iff.1 h
    have hpair : Clean [u, v] := by
      refine ⟨?_, .pair (isHigh_iff.1 hu) (isLow_iff.1 hv)⟩
      simp only [List.mem_cons, List.not_mem_nil, or_false, forall_eq_or_imp, forall_eq]
      exact ⟨(surrogate_plain (.inl hu)).2.2, (surrogate_plain (.inr hv)).2.2⟩
    exact hpair.append ih
  | case5 u v s h h' ih =>
    rw [escape, if_neg h, if_pos h']
    exact (unicodeEscape_printable u).clean.append ih
  | case6 u v s h h' ih =>
    rw [escape, if_neg h, if_neg h']
    exact (escapeUnit_clean h').append ih

theorem quote_clean (s : Text) : Clean (quote s) :=
  (clean_cons (by decide) (by decide) (escape_clean s)).append (clean_cons (by decide) (by decide) .nil)

theorem number_clean {float : Text → Number} {n : Number} (h : n.Canonical float) : Clean n.text := by
  cases n with
  | int z =>
    have hd : Printable (decDigits z.natAbs) := by
      intro u hu
      have := decLoop_digits _ _ u hu
      simp only [isDigit, Bool.and_eq_true, decide_eq_true_eq] at this
      omega
    rw [Number.text]
    split
    · exact clean_cons (by decide) (by decide) hd.clean
    · exact hd.clean
  | other t => exact h.1.clean

/-! ## Values -/

mutual

theorem render_clean {float : Text → Number} : ∀ {v : Json}, v.WellFormed float → Clean (render v)
  | .null, _ => ascii_clean _ (by decide)
  | .bool true, _ => ascii_clean _ (by decide)
  | .bool false, _ => ascii_clean _ (by decide)
  | .num _, h => number_clean h
  | .str s, _ => quote_clean s
  | .arr [], _ => ascii_clean _ (by decide)
  | .arr (v :: vs), h => by
    rw [render]
    exact clean_cons (by decide) (by decide) ((render_clean h.1).append (renderItems_clean h.2))
  | .obj [], _ => ascii_clean _ (by decide)
  | .obj ((k, v) :: fs), h => by
    rw [render]
    have hv := clean_cons (u := 58) (by decide) (by decide) (render_clean h.2.1)
    exact clean_cons (by decide) (by decide) (((quote_clean k).append hv).append
      (renderFields_clean h.2.2))

theorem renderItems_clean {float : Text → Number} :
    ∀ {vs : List Json}, WellFormedItems float vs → Clean (renderItems vs)
  | [], _ => ascii_clean _ (by decide)
  | v :: vs, h => by
    rw [renderItems]
    exact clean_cons (by decide) (by decide) ((render_clean h.1).append (renderItems_clean h.2))

theorem renderFields_clean {float : Text → Number} :
    ∀ {fs : List (Text × Json)}, WellFormedFields float fs → Clean (renderFields fs)
  | [], _ => ascii_clean _ (by decide)
  | (k, v) :: fs, h => by
    rw [renderFields]
    have hv := clean_cons (u := 58) (by decide) (by decide) (render_clean h.1)
    exact clean_cons (by decide) (by decide) (((quote_clean k).append hv).append
      (renderFields_clean h.2))

end

end Json
