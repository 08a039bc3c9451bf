import Barbaro.Core.Patterns
import Barbaro.Core.TextLines
import Barbaro.Lib.DecimalSize

/-!
# The size of canonical text

* `stable_obj`: the bytes of an object are those of its members, in any order.
* `stableSize_nat`: the bytes of a number are its digits.
* `quote_size`: the bytes of a quoted ASCII text, by its units that need no escape.
-/

namespace Barbaro

/-- `stableJsonUtf8Bytes` -/
def stableSize (v : Json) : ℕ := byteLength (stableStringify v)

theorem byteLength_append {s : JsString} (h : Utf16.WellFormed s) (t : JsString) :
    byteLength (s ++ t) = byteLength s + byteLength t := by
  rw [byteLength, byteLength, byteLength, utf8, Utf16.utf8_append h, List.length_append]

/-- An ASCII text has as many bytes as units. -/
theorem byteLength_ascii {s : JsString} (h : ∀ u ∈ s, u.toNat < 128) : byteLength s = s.length := by
  induction s with
  | nil => rfl
  | cons u s ih =>
    have hu := h u (by simp)
    have hone : byteLength [u] = 1 := by
      rw [byteLength, utf8, Utf16.utf8, Utf16.codePoints, List.map_singleton, Utf16.scalarOf,
        if_neg (by omega), Utf8.encode, List.flatMap_singleton, Utf8.encodeOne, if_pos hu]
      rfl
    have hplain : Utf16.WellFormed [u] := .plain (by simp; omega)
    have hcut := byteLength_append hplain s
    rw [List.singleton_append, hone, ih (fun v hv => h v (by simp [hv]))] at hcut
    rw [hcut, List.length_cons]
    omega

theorem byteLength_cons {u : UInt16} (hu : u.toNat < 128) (s : JsString) :
    byteLength (u :: s) = byteLength s + 1 := by
  have hplain : Utf16.WellFormed [u] := .plain (by simp; omega)
  have hcut := byteLength_append hplain s
  rw [byteLength_ascii (s := [u]) (by simpa using hu), List.singleton_append] at hcut
  rw [hcut, List.length_singleton]
  omega

/-! ## Members -/

/-- The bytes of a member, with its colon and the comma or the brace before it. -/
def memberSize (f : JsString × Json) : ℕ := byteLength (Json.quote f.1) + stableSize f.2 + 2

/-- The members of an object, each after a comma. -/
theorem renderFields_eq {fs : List (JsString × Json)} (h : ∀ f ∈ fs, Utf16.WellFormed f.2.render) :
    Utf16.WellFormed (Json.renderFields fs) ∧ byteLength (Json.renderFields fs) =
      (fs.map (fun f => byteLength (Json.quote f.1) + byteLength f.2.render + 2)).sum + 1 := by
  induction fs with
  | nil => exact ⟨.plain (by simp [Json.renderFields]), rfl⟩
  | cons f fs ih =>
    obtain ⟨k, v⟩ := f
    have hv : Utf16.WellFormed v.render := h (k, v) (by simp)
    obtain ⟨hrest, hsize⟩ := ih (fun f hf => h f (by simp [hf]))
    have hquote := (Json.quote_clean k).wellFormed
    have hcomma : Utf16.WellFormed [44] := .plain (by simp)
    have hcolon : Utf16.WellFormed [58] := .plain (by simp)
    simp only [Json.renderFields, List.cons_append, List.append_assoc, List.map_cons, List.sum_cons]
    refine ⟨hcomma.append (hquote.append (hcolon.append (hv.append hrest))), ?_⟩
    rw [byteLength_cons (u := 44) (by decide), byteLength_append hquote,
      byteLength_cons (u := 58) (by decide), byteLength_append hv, hsize]
    omega

theorem render_obj_eq {fs : List (JsString × Json)} (hne : fs ≠ [])
    (h : ∀ f ∈ fs, Utf16.WellFormed f.2.render) : Utf16.WellFormed (Json.obj fs).render ∧
      byteLength (Json.obj fs).render =
        (fs.map (fun f => byteLength (Json.quote f.1) + byteLength f.2.render + 2)).sum + 1 := by
  cases fs with
  | nil => exact absurd rfl hne
  | cons f fs =>
    obtain ⟨k, v⟩ := f
    have hv : Utf16.WellFormed v.render := h (k, v) (by simp)
    obtain ⟨hrest, hsize⟩ := renderFields_eq (fun f hf => h f (List.mem_cons_of_mem _ hf))
    have hquote := (Json.quote_clean k).wellFormed
    have hbrace : Utf16.WellFormed [123] := .plain (by simp)
    have hcolon : Utf16.WellFormed [58] := .plain (by simp)
    simp only [Json.render, List.cons_append, List.append_assoc, List.map_cons, List.sum_cons]
    refine ⟨hbrace.append (hquote.append (hcolon.append (hv.append hrest))), ?_⟩
    rw [byteLength_cons (u := 123) (by decide), byteLength_append hquote,
      byteLength_cons (u := 58) (by decide), byteLength_append hv, hsize]
    omega

/-- **The bytes of an object** are those of its members, in whatever order they are. -/
theorem stable_obj {fs : List (JsString × Json)} (hne : fs ≠ [])
    (h : ∀ f ∈ fs, Utf16.WellFormed (stableStringify f.2)) :
    Utf16.WellFormed (stableStringify (.obj fs)) ∧
      stableSize (.obj fs) = (fs.map memberSize).sum + 1 := by
  have hperm := sortKeysFields_perm fs
  have hne' : sortKeysFields fs ≠ [] := by
    intro hnil
    have hlen := hperm.length_eq
    rw [hnil, List.length_map] at hlen
    exact hne (List.eq_nil_of_length_eq_zero hlen.symm)
  have hmembers : ∀ f ∈ sortKeysFields fs, Utf16.WellFormed f.2.render := by
    intro f hf
    obtain ⟨g, hg, rfl⟩ := List.mem_map.1 (hperm.subset hf)
    exact h g hg
  have hsum := (hperm.map
    (fun f : JsString × Json => byteLength (Json.quote f.1) + byteLength f.2.render + 2)).sum_nat
  obtain ⟨hwell, hsize⟩ := render_obj_eq hne' hmembers
  rw [stableSize, stableStringify, sortKeys, hsize, hsum, List.map_map]
  exact ⟨hwell, rfl⟩

/-- The elements of an array, each after a comma. -/
theorem renderItems_eq {vs : List Json} (h : ∀ v ∈ vs, Utf16.WellFormed v.render) :
    Utf16.WellFormed (Json.renderItems vs) ∧ byteLength (Json.renderItems vs) =
      (vs.map (fun v => byteLength v.render + 1)).sum + 1 := by
  induction vs with
  | nil => exact ⟨.plain (by simp [Json.renderItems]), rfl⟩
  | cons v vs ih =>
    have hv := h v (by simp)
    obtain ⟨hrest, hsize⟩ := ih (fun w hw => h w (by simp [hw]))
    have hcomma : Utf16.WellFormed [44] := .plain (by simp)
    simp only [Json.renderItems, List.cons_append, List.map_cons, List.sum_cons]
    refine ⟨hcomma.append (hv.append hrest), ?_⟩
    rw [byteLength_cons (u := 44) (by decide), byteLength_append hv, hsize]
    omega

/-- **The bytes of an array** are those of its elements. -/
theorem stable_arr {vs : List Json} (hne : vs ≠ [])
    (h : ∀ v ∈ vs, Utf16.WellFormed (stableStringify v)) :
    Utf16.WellFormed (stableStringify (.arr vs)) ∧
      stableSize (.arr vs) = (vs.map (fun v => stableSize v + 1)).sum + 1 := by
  cases vs with
  | nil => exact absurd rfl hne
  | cons v vs =>
    have hv : Utf16.WellFormed (sortKeys v).render := h v (by simp)
    obtain ⟨hrest, hsize⟩ := @renderItems_eq (vs.map sortKeys) (fun w hw => by
      obtain ⟨x, hx, rfl⟩ := List.mem_map.1 hw
      exact h x (List.mem_cons_of_mem _ hx))
    have hopen : Utf16.WellFormed [91] := .plain (by simp)
    rw [stableSize, stableStringify, sortKeys, sortKeysItems_eq, List.map_cons, Json.render,
      List.cons_append]
    refine ⟨hopen.append (hv.append hrest), ?_⟩
    rw [byteLength_cons (u := 91) (by decide), byteLength_append hv, hsize, List.map_map]
    simp only [List.map_cons, List.sum_cons]
    change byteLength (sortKeys v).render + ((vs.map (fun v => stableSize v + 1)).sum + 1) + 1 =
      byteLength (sortKeys v).render + 1 + (vs.map (fun v => stableSize v + 1)).sum + 1
    omega

/-- A member that gets another value changes the size by the difference of the values. -/
theorem stableSize_setField {float : JsString → Json.Number} {k : JsString} {old v : Json}
    {fs : List (JsString × Json)} (h : (Json.obj fs).WellFormed float) (hv : v.WellFormed float)
    (hold : Json.lookup k fs = some old) :
    stableSize (.obj (Json.setField k v fs)) + stableSize old = stableSize (.obj fs) + stableSize v := by
  have hsum : ∀ {fs : List (JsString × Json)}, Json.lookup k fs = some old →
      ((Json.setField k v fs).map memberSize).sum + stableSize old =
        (fs.map memberSize).sum + stableSize v := by
    intro fs hold
    induction fs with
    | nil => cases hold
    | cons f fs ih =>
      obtain ⟨key, w⟩ := f
      rw [Json.lookup] at hold
      rw [Json.setField]
      split at hold
      · next hk =>
        obtain rfl : w = old := Option.some.inj hold
        rw [if_pos hk, List.map_cons, List.map_cons, List.sum_cons, List.sum_cons, hk]
        simp only [memberSize]
        omega
      · next hk =>
        have := ih hold
        rw [if_neg hk, List.map_cons, List.map_cons, List.sum_cons, List.sum_cons]
        omega
  have hclean : ∀ {fs : List (JsString × Json)}, (Json.obj fs).WellFormed float →
      ∀ f ∈ fs, Utf16.WellFormed (stableStringify f.2) := fun h f hf =>
    (stableStringify_clean (wellFormedFields_iff.1 h.2 f hf)).wellFormed
  have hne : fs ≠ [] := by rintro rfl; cases hold
  have hne' : Json.setField k v fs ≠ [] := by
    intro hnil
    have := (@Json.mem_keys_setField k k v fs).2 (.inl rfl)
    rw [hnil] at this
    cases this
  have hwell : (Json.obj (Json.setField k v fs)).WellFormed float := Json.setField_wellFormed hv h
  have := hsum hold
  rw [(stable_obj hne (hclean h)).2, (stable_obj hne' (hclean hwell)).2]
  omega

/-! ## Plain values -/

theorem stable_str (s : JsString) : stableStringify (.str s) = Json.quote s := by
  rw [stableStringify, sortKeys]
  · rfl
  all_goals simp

theorem stable_nat (n : ℕ) : stableStringify (.num (.int n)) = Json.decDigits n := by
  rw [stableStringify, sortKeys, Json.render, Json.Number.text, if_neg (by omega), Int.natAbs_natCast]
  all_goals simp

theorem decDigits_ascii (n : ℕ) : ∀ u ∈ Json.decDigits n, u.toNat < 128 := by
  intro u hu
  have := Json.decLoop_digits _ _ u hu
  simp only [Json.isDigit, Bool.and_eq_true, decide_eq_true_eq] at this
  omega

theorem stableSize_nat (n : ℕ) : stableSize (.num (.int n)) = Json.digitCount n := by
  rw [stableSize, stable_nat, byteLength_ascii (decDigits_ascii n), Json.length_decDigits]

theorem stable_str_wellFormed (s : JsString) : Utf16.WellFormed (stableStringify (.str s)) := by
  rw [stable_str]
  exact (Json.quote_clean s).wellFormed

theorem stable_nat_wellFormed (n : ℕ) : Utf16.WellFormed (stableStringify (.num (.int n))) := by
  rw [stable_nat]
  exact .plain fun u hu => by have := decDigits_ascii n u hu; omega

theorem stable_bool_wellFormed (b : Bool) : Utf16.WellFormed (stableStringify (.bool b)) := by
  refine .plain fun u hu => ?_
  cases b with
  | true =>
    have htrue : u ∈ ([116, 114, 117, 101] : JsString) := hu
    simp only [List.mem_cons, List.not_mem_nil, or_false] at htrue
    rcases htrue with rfl | rfl | rfl | rfl <;> decide
  | false =>
    have hfalse : u ∈ ([102, 97, 108, 115, 101] : JsString) := hu
    simp only [List.mem_cons, List.not_mem_nil, or_false] at hfalse
    rcases hfalse with rfl | rfl | rfl | rfl | rfl <;> decide

/-- A line has one byte more than its value. -/
theorem stableJsonLine_length {v : Json} (h : Utf16.WellFormed (stableStringify v)) :
    (utf8 (stableJsonLine v)).length = stableSize v + 1 := by
  have hcut := byteLength_append h [10]
  rw [byteLength_ascii (s := [10]) (by simp)] at hcut
  exact hcut

/-! ## Quoted text -/

/-- A unit that a string literal holds as it is, in one byte. -/
def isPlainUnit (u : UInt16) : Bool := 32 ≤ u.toNat && u.toNat < 127 && u != 34 && u != 92

/-- A text that a string literal holds as it is. -/
def PlainText (s : JsString) : Prop := ∀ u ∈ s, isPlainUnit u = true

theorem isPlainUnit_ascii {u : UInt16} (h : isPlainUnit u = true) : u.toNat < 128 := by
  simp only [isPlainUnit, Bool.and_eq_true, decide_eq_true_eq] at h
  omega

theorem escapeUnit_ascii {u : UInt16} (hu : u.toNat < 128) : (∀ x ∈ Json.escapeUnit u, x.toNat < 128) ∧
    (Json.escapeUnit u).length ≤ 6 ∧ (isPlainUnit u = true → (Json.escapeUnit u).length = 1) := by
  have hall : ∀ n < 128, ((Json.escapeUnit (.ofNat n)).all (fun x => x.toNat < 128) &&
      decide ((Json.escapeUnit (.ofNat n)).length ≤ 6) &&
      (!isPlainUnit (.ofNat n) || decide ((Json.escapeUnit (.ofNat n)).length = 1))) = true := by
    decide
  have h := hall u.toNat hu
  rw [UInt16.ofNat_toNat] at h
  simp only [Bool.and_eq_true, List.all_eq_true, decide_eq_true_eq, Bool.or_eq_true, Bool.not_eq_true'] at h
  obtain ⟨⟨hascii, hlen⟩, hone⟩ := h
  refine ⟨hascii, hlen, fun hplain => ?_⟩
  rcases hone with hnot | hone
  · rw [hplain] at hnot
    cases hnot
  · exact hone

theorem escape_ascii_cons {u : UInt16} (hu : u.toNat < 128) (s : JsString) :
    Json.escape (u :: s) = Json.escapeUnit u ++ Json.escape s := by
  have hhigh : Json.isHigh u = false := by simp [Json.isHigh]; omega
  have hlow : Json.isLow u = false := by simp [Json.isLow]; omega
  cases s with
  | nil => simp [Json.escape, hhigh, hlow]
  | cons v s => simp [Json.escape, hhigh, hlow]

/-- **The bytes of a quoted ASCII text**: one for a plain unit, at most six for another. -/
theorem quote_size {s : JsString} (h : ∀ u ∈ s, u.toNat < 128) :
    byteLength (Json.quote s) ≤ s.length + 5 * s.countP (fun u => !isPlainUnit u) + 2 := by
  have hescape : (∀ x ∈ Json.escape s, x.toNat < 128) ∧
      (Json.escape s).length ≤ s.length + 5 * s.countP (fun u => !isPlainUnit u) := by
    induction s with
    | nil => exact ⟨by simp [Json.escape], by simp [Json.escape]⟩
    | cons u s ih =>
      obtain ⟨hascii, hlen⟩ := ih (fun v hv => h v (List.mem_cons_of_mem _ hv))
      obtain ⟨h1, h2, h3⟩ := escapeUnit_ascii (h u List.mem_cons_self)
      rw [escape_ascii_cons (h u List.mem_cons_self)]
      refine ⟨fun x hx => ?_, ?_⟩
      · rcases List.mem_append.1 hx with hx | hx
        · exact h1 x hx
        · exact hascii x hx
      · rw [List.length_append, List.length_cons]
        cases hp : isPlainUnit u with
        | true =>
          have hone := h3 hp
          rw [List.countP_cons_of_neg (by simp [hp])]
          omega
        | false =>
          rw [List.countP_cons_of_pos (by simp [hp])]
          omega
  obtain ⟨hascii, hlen⟩ := hescape
  have hquote : ∀ x ∈ Json.quote s, x.toNat < 128 := by
    intro x hx
    simp only [Json.quote, List.mem_append, List.mem_cons, List.not_mem_nil, or_false] at hx
    rcases hx with (rfl | hx) | rfl
    · decide
    · exact hascii x hx
    · decide
  rw [byteLength_ascii hquote]
  simp only [Json.quote, List.length_append, List.length_cons, List.length_nil]
  omega

/-! ## Any text -/

theorem encodeOne_length (c : ℕ) : 1 ≤ (Utf8.encodeOne c).length ∧
    (c < 0x10000 → (Utf8.encodeOne c).length ≤ 3) ∧ (0x10000 ≤ c → (Utf8.encodeOne c).length = 4) := by
  unfold Utf8.encodeOne
  split
  · refine ⟨by simp, fun _ => by simp, fun h => by omega⟩
  · split
    · refine ⟨by simp, fun _ => by simp, fun h => by omega⟩
    · split
      · refine ⟨by simp, fun _ => by simp, fun h => by omega⟩
      · refine ⟨by simp, fun h => by omega, fun _ => by simp⟩

theorem byteLength_unit (u : UInt16) : byteLength [u] ≤ 3 := by
  have hlt : Utf16.scalarOf u.toNat < 0x10000 := by
    have := u.toNat_lt
    unfold Utf16.scalarOf
    split
    · decide
    · exact this
  have hle := (encodeOne_length (Utf16.scalarOf u.toNat)).2.1 hlt
  simpa [byteLength, utf8, Utf16.utf8, Utf16.codePoints, Utf8.encode] using hle

/-- A string has at least a byte for each unit. -/
theorem length_le_byteLength (s : JsString) : s.length ≤ byteLength s := by
  have hcons : ∀ (c : ℕ) (cs : List ℕ), (Utf8.encode ((c :: cs).map Utf16.scalarOf)).length =
      (Utf8.encodeOne (Utf16.scalarOf c)).length + (Utf8.encode (cs.map Utf16.scalarOf)).length := by
    intro c cs
    rw [List.map_cons, Utf8.encode, List.flatMap_cons, List.length_append]
    rfl
  unfold byteLength utf8 Utf16.utf8
  induction s using Utf16.codePoints.induct with
  | case1 => exact Nat.zero_le _
  | case2 u =>
    rw [Utf16.codePoints, hcons]
    have := (encodeOne_length (Utf16.scalarOf u.toNat)).1
    simp only [List.length_cons, List.length_nil]
    omega
  | case3 u v us h ih =>
    rw [Utf16.codePoints, if_pos h, hcons]
    have hscalar : Utf16.scalarOf (0x10000 + (u.toNat - 0xD800) * 0x400 + (v.toNat - 0xDC00)) =
        0x10000 + (u.toNat - 0xD800) * 0x400 + (v.toNat - 0xDC00) := by
      rw [Utf16.scalarOf, if_neg (by omega)]
    have := (encodeOne_length (0x10000 + (u.toNat - 0xD800) * 0x400 + (v.toNat - 0xDC00))).2.2 (by omega)
    rw [hscalar]
    simp only [List.length_cons]
    omega
  | case4 u v us h ih =>
    rw [Utf16.codePoints, if_neg h, hcons]
    have := (encodeOne_length (Utf16.scalarOf u.toNat)).1
    simp only [List.length_cons] at ih ⊢
    omega

theorem unicodeEscape_size (u : UInt16) : byteLength (Json.unicodeEscape u) = 6 := by
  have hascii : ∀ x ∈ Json.unicodeEscape u, x.toNat < 128 := fun x hx =>
    (Json.unicodeEscape_printable u x hx).2
  rw [byteLength_ascii hascii]
  rfl

theorem escapeUnit_size (u : UInt16) : byteLength (Json.escapeUnit u) ≤ 6 := by
  by_cases hu : u.toNat < 128
  · obtain ⟨hascii, hlen, -⟩ := escapeUnit_ascii hu
    rw [byteLength_ascii hascii]
    exact hlen
  · have hself : Json.escapeUnit u = [u] := by
      have hne : ∀ n : UInt16, n.toNat < 128 → u ≠ n := by
        rintro n hn rfl
        exact hu hn
      rw [Json.escapeUnit, if_neg (hne _ (by decide)), if_neg (hne _ (by decide)),
        if_neg (hne _ (by decide)), if_neg (hne _ (by decide)), if_neg (hne _ (by decide)),
        if_neg (hne _ (by decide)), if_neg (hne _ (by decide)), if_neg (by omega)]
    rw [hself]
    have := byteLength_unit u
    omega

theorem escape_size (s : JsString) : byteLength (Json.escape s) ≤ 6 * s.length := by
  induction s using Json.escape.induct with
  | case1 => exact Nat.zero_le _
  | case2 u h =>
    rw [Json.escape, if_pos h, unicodeEscape_size]
    simp
  | case3 u h =>
    rw [Json.escape, if_neg h]
    have := escapeUnit_size u
    simp only [List.length_cons, List.length_nil]
    omega
  | case4 u v s h ih =>
    obtain ⟨hu, hv⟩ := Bool.and_eq_true_iff.1 h
    have hpair : Utf16.WellFormed [u, v] := .pair (Json.isHigh_iff.1 hu) (Json.isLow_iff.1 hv)
    have hcut := byteLength_append hpair (Json.escape s)
    have hfour : byteLength [u, v] = 4 := by
      have hlen := (encodeOne_length (0x10000 + (u.toNat - 0xD800) * 0x400 + (v.toNat - 0xDC00))).2.2 (by omega)
      have hpoints := Utf16.codePoints_pair (Json.isHigh_iff.1 hu) (Json.isLow_iff.1 hv) []
      have hscalar : Utf16.scalarOf (0x10000 + (u.toNat - 0xD800) * 0x400 + (v.toNat - 0xDC00)) =
          0x10000 + (u.toNat - 0xD800) * 0x400 + (v.toNat - 0xDC00) := by
        rw [Utf16.scalarOf, if_neg (by omega)]
      rw [byteLength, utf8, Utf16.utf8, hpoints, List.map_cons, hscalar]
      simpa [Utf16.codePoints, Utf8.encode] using hlen
    have hescape : Json.escape (u :: v :: s) = [u, v] ++ Json.escape s := by
      rw [Json.escape, if_pos h]
      rfl
    rw [hescape, hcut, hfour]
    simp only [List.length_cons]
    omega
  | case5 u v s h h' ih =>
    have hcut := byteLength_append (Json.unicodeEscape_printable u).clean.wellFormed (Json.escape (v :: s))
    rw [Json.escape, if_neg h, if_pos h', hcut, unicodeEscape_size]
    simp only [List.length_cons] at *
    omega
  | case6 u v s h h' ih =>
    have hcut := byteLength_append (Json.escapeUnit_clean h').wellFormed (Json.escape (v :: s))
    have := escapeUnit_size u
    rw [Json.escape, if_neg h, if_neg h', hcut]
    simp only [List.length_cons] at *
    omega

/-- A text does not get shorter. -/
theorem escape_length (s : JsString) : s.length ≤ (Json.escape s).length := by
  have hunit : ∀ u, 1 ≤ (Json.escapeUnit u).length := by
    intro u
    unfold Json.escapeUnit
    split_ifs <;> simp [Json.unicodeEscape]
  have hsix : ∀ u, (Json.unicodeEscape u).length = 6 := fun _ => rfl
  induction s using Json.escape.induct with
  | case1 => exact Nat.zero_le _
  | case2 u h =>
    rw [Json.escape, if_pos h, hsix]
    simp
  | case3 u h =>
    rw [Json.escape, if_neg h]
    exact hunit u
  | case4 u v s h ih =>
    rw [Json.escape, if_pos h]
    simp only [List.length_cons]
    omega
  | case5 u v s h h' ih =>
    rw [Json.escape, if_neg h, if_pos h', List.length_append, hsix]
    simp only [List.length_cons] at ih ⊢
    omega
  | case6 u v s h h' ih =>
    rw [Json.escape, if_neg h, if_neg h', List.length_append]
    have := hunit u
    simp only [List.length_cons] at ih ⊢
    omega

/-- **The bytes of a quoted text**: at most six for each byte of the text. -/
theorem quote_size_le (s : JsString) : byteLength (Json.quote s) ≤ 6 * byteLength s + 2 := by
  have hcut := byteLength_append (Json.escape_clean s).wellFormed [34]
  have hopen : byteLength (Json.quote s) = 1 + byteLength (Json.escape s ++ [34]) :=
    (byteLength_cons (by decide) _).trans (Nat.add_comm _ _)
  rw [byteLength_ascii (s := [34]) (by simp)] at hcut
  have hescape := escape_size s
  have hlen := length_le_byteLength s
  simp only [List.length_cons, List.length_nil] at hcut
  omega

/-- A plain text is quoted without any escape. -/
theorem PlainText.quote_size {s : JsString} (h : PlainText s) : byteLength (Json.quote s) ≤ s.length + 2 := by
  have hascii : ∀ u ∈ s, u.toNat < 128 := fun u hu => isPlainUnit_ascii (h u hu)
  have hcount : s.countP (fun u => !isPlainUnit u) = 0 := by
    rw [List.countP_eq_zero]
    intro u hu
    simp [h u hu]
  have hsize := Barbaro.quote_size hascii
  omega

/-- The quoted text is the text and its two quotes. -/
theorem PlainText.quote_bytes {s : JsString} (h : PlainText s) : byteLength (Json.quote s) = s.length + 2 := by
  have hle := h.quote_size
  have hlen := escape_length s
  have hascii : ∀ x ∈ Json.escape s, x.toNat < 128 := by
    clear hle hlen
    induction s with
    | nil => simp [Json.escape]
    | cons u s ih =>
      have hu := isPlainUnit_ascii (h u List.mem_cons_self)
      intro x hx
      rw [escape_ascii_cons hu] at hx
      rcases List.mem_append.1 hx with hx | hx
      · exact (escapeUnit_ascii hu).1 x hx
      · exact ih (fun v hv => h v (List.mem_cons_of_mem _ hv)) x hx
  have hquote : byteLength (Json.quote s) = (Json.escape s).length + 2 := by
    have hcut := byteLength_append (Json.escape_clean s).wellFormed [34]
    have hopen : byteLength (Json.quote s) = byteLength (Json.escape s ++ [34]) + 1 :=
      byteLength_cons (by decide) _
    rw [byteLength_ascii (s := [34]) (by simp), byteLength_ascii hascii] at hcut
    rw [hopen, hcut, List.length_singleton]
  omega

/-- Two plain texts with one more unit between them. -/
theorem PlainText.join {s t : JsString} (hs : PlainText s) (ht : PlainText t) {u : UInt16}
    (hu : u.toNat < 128) : (∀ x ∈ s ++ u :: t, x.toNat < 128) ∧
      (s ++ u :: t).countP (fun x => !isPlainUnit x) ≤ 1 := by
  have hnone : ∀ {r : JsString}, PlainText r → r.countP (fun x => !isPlainUnit x) = 0 := by
    intro r hr
    rw [List.countP_eq_zero]
    intro x hx
    simp [hr x hx]
  refine ⟨fun x hx => ?_, ?_⟩
  · simp only [List.mem_append, List.mem_cons] at hx
    rcases hx with hx | rfl | hx
    · exact isPlainUnit_ascii (hs x hx)
    · exact hu
    · exact isPlainUnit_ascii (ht x hx)
  · have hone := List.countP_cons (p := fun x => !isPlainUnit x) (a := u) (l := t)
    rw [List.countP_append, hnone hs, hone, hnone ht]
    split
    · omega
    · omega

theorem PlainText.append {s t : JsString} (hs : PlainText s) (ht : PlainText t) : PlainText (s ++ t) := by
  intro u hu
  rcases List.mem_append.1 hu with hu | hu
  · exact hs u hu
  · exact ht u hu

theorem plain_of_toNat {u : UInt16} (h : 32 ≤ u.toNat) (h' : u.toNat < 127) (h34 : u.toNat ≠ 34)
    (h92 : u.toNat ≠ 92) : isPlainUnit u = true := by
  have hne : u ≠ 34 ∧ u ≠ 92 := by
    refine ⟨?_, ?_⟩
    · rintro rfl
      exact h34 rfl
    · rintro rfl
      exact h92 rfl
  simp [isPlainUnit, h, h', hne.1, hne.2]

theorem hexDigit_plain {u : UInt16} (h : isHexDigit u = true) : isPlainUnit u = true := by
  simp only [isHexDigit, Bool.or_eq_true, Bool.and_eq_true, decide_eq_true_eq] at h
  exact plain_of_toNat (by omega) (by omega) (by omega) (by omega)

theorem stableSize_nat_le {n : ℕ} (h : n ≤ maxSafeInteger) : stableSize (natJson n) ≤ 16 := by
  have hmax : maxSafeInteger < 10 ^ 16 := by decide
  rw [natJson, stableSize_nat]
  exact Json.digitCount_le (by decide) (by omega)

/-- A text with few escapes is short as JSON. -/
theorem stableSize_str_le {s : JsString} {n k : ℕ} (hascii : ∀ u ∈ s, u.toNat < 128) (hlen : s.length ≤ n)
    (hcount : s.countP (fun u => !isPlainUnit u) ≤ k) : stableSize (.str s) ≤ n + 5 * k + 2 := by
  have hsize := quote_size hascii
  rw [stableSize, stable_str]
  omega

theorem stableSize_plain_le {s : JsString} {n : ℕ} (h : PlainText s) (hlen : s.length ≤ n) :
    stableSize (.str s) ≤ n + 2 := by
  have hsize := h.quote_size
  rw [stableSize, stable_str]
  omega

/-! ## Identifiers -/

/-- An identifier is its tag and 32 digits. -/
theorem isId_cut {tag : String} {s : JsString} (h : isId tag s = true) :
    ∃ digits : JsString, s = js tag ++ 95 :: digits ∧ digits.length = 32 ∧ digits.all isHexDigit = true := by
  simp only [isId, Bool.and_eq_true, beq_iff_eq] at h
  obtain ⟨⟨htag, hlen⟩, hhex⟩ := h
  refine ⟨s.drop (tag.length + 1), ?_, hlen, hhex⟩
  have hcut := List.take_append_drop (tag.length + 1) s
  rw [htag] at hcut
  rw [← List.singleton_append, ← List.append_assoc]
  exact hcut.symm

theorem hex_plain {s : JsString} (h : s.all isHexDigit = true) : PlainText s := fun u hu =>
  hexDigit_plain (List.all_eq_true.1 h u hu)

theorem isId_plain {tag : String} (htag : PlainText (js tag)) {s : JsString} (h : isId tag s = true) :
    PlainText s ∧ s.length = (js tag).length + 33 := by
  obtain ⟨digits, rfl, hlen, hhex⟩ := isId_cut h
  refine ⟨htag.append (fun u hu => ?_), ?_⟩
  · rcases List.mem_cons.1 hu with rfl | hu
    · decide
    · exact hex_plain hhex u hu
  · rw [List.length_append, List.length_cons, hlen]

theorem isSha256Hex_plain {s : JsString} (h : isSha256Hex s = true) : PlainText s ∧ s.length = 64 := by
  simp only [isSha256Hex, Bool.and_eq_true, beq_iff_eq] at h
  exact ⟨hex_plain h.2, h.1⟩

theorem isProviderUnit_plain {u : UInt16} (h : isProviderUnit u = true) : isPlainUnit u = true := by
  simp only [isProviderUnit, isLowerLetter, Bool.or_eq_true, Bool.and_eq_true, decide_eq_true_eq,
    beq_iff_eq] at h
  rcases h with ((h | h) | rfl) | rfl
  · exact plain_of_toNat (by omega) (by omega) (by omega) (by omega)
  · exact plain_of_toNat (by omega) (by omega) (by omega) (by omega)
  · decide
  · decide

theorem isProvider_plain {s : JsString} (h : isProvider s = true) : PlainText s := by
  cases s with
  | nil => cases h
  | cons u us =>
    simp only [isProvider, Bool.and_eq_true, List.all_eq_true] at h
    intro x hx
    rcases List.mem_cons.1 hx with rfl | hx
    · exact isProviderUnit_plain (by simp [isProviderUnit, h.1])
    · exact isProviderUnit_plain (h.2 x hx)

end Barbaro
