import Barbaro.Lib.Utf8

/-!
# Cutting UTF-8 between code points

The bytes of a text are cut at offsets. An offset is between two code points exactly if
it is an end of the bytes or no continuation byte follows it, so a cutter that looks at
single bytes never parts a code point.

* `isBoundary_iff`: the offsets at which a text may be cut.
-/

namespace Utf8

/-- `10xxxxxx` -/
def isContinuation (b : UInt8) : Bool := b &&& 0xC0 == 0x80

theorem isContinuation_iff (b : UInt8) : isContinuation b = true ↔ 0x80 ≤ b.toNat ∧ b.toNat < 0xC0 := by
  have hall : ∀ n < 256, isContinuation (.ofNat n) = true ↔ 0x80 ≤ n ∧ n < 0xC0 := by
    decide +kernel
  have h := hall b.toNat b.toNat_lt
  rwa [UInt8.ofNat_toNat] at h

/-- A code point is one byte that is no continuation, and continuations. -/
theorem encodeOne_shape {c : ℕ} (hc : Scalar c) : ∃ b bs, encodeOne c = b :: bs ∧
    isContinuation b = false ∧ ∀ x ∈ bs, isContinuation x = true := by
  have hlead : ∀ n < 256, n < 0x80 ∨ 0xC0 ≤ n → isContinuation (.ofNat n) = false := by
    intro n hn h
    rw [Bool.eq_false_iff, ne_eq, isContinuation_iff, toNat_ofNat hn]
    omega
  have hnext : ∀ n < 64, isContinuation (.ofNat (0x80 + n)) = true := by
    intro n hn
    rw [isContinuation_iff, toNat_ofNat (by omega)]
    omega
  unfold Scalar at hc
  unfold encodeOne
  split_ifs with h1 h2 h3
  · exact ⟨_, [], rfl, hlead c (by omega) (by omega), by simp⟩
  · refine ⟨_, _, rfl, hlead _ (by omega) (by omega), ?_⟩
    simp only [List.mem_singleton, forall_eq]
    exact hnext _ (by omega)
  · refine ⟨_, _, rfl, hlead _ (by omega) (by omega), ?_⟩
    simp only [List.mem_cons, List.not_mem_nil, or_false, forall_eq_or_imp, forall_eq]
    exact ⟨hnext _ (by omega), hnext _ (by omega)⟩
  · refine ⟨_, _, rfl, hlead _ (by omega) (by omega), ?_⟩
    simp only [List.mem_cons, List.not_mem_nil, or_false, forall_eq_or_imp, forall_eq]
    exact ⟨hnext _ (by omega), hnext _ (by omega), hnext _ (by omega)⟩

theorem encodeOne_pos {c : ℕ} (hc : Scalar c) : 0 < (encodeOne c).length := by
  obtain ⟨b, bs, h, -⟩ := encodeOne_shape hc
  rw [h]
  simp

theorem encode_append (a b : List ℕ) : encode (a ++ b) = encode a ++ encode b := by
  simp [encode]

@[simp] theorem encode_cons (c : ℕ) (cs : List ℕ) : encode (c :: cs) = encodeOne c ++ encode cs := rfl

@[simp] theorem encode_nil : encode [] = [] := rfl

/-! ## Offsets -/

/-- An offset at which some bytes may be cut. -/
def isBoundary (bytes : List UInt8) (offset : ℕ) : Bool :=
  offset == 0 || offset == bytes.length ||
    match bytes[offset]? with
    | some b => !isContinuation b
    | none => true

/-- No text starts with a continuation byte. -/
theorem encode_head {cs : List ℕ} (hcs : ∀ c ∈ cs, Scalar c) {b : UInt8} (h : (encode cs)[0]? = some b) :
    isContinuation b = false := by
  cases cs with
  | nil => cases h
  | cons c cs =>
    obtain ⟨b', bs, hshape, hlead, -⟩ := encodeOne_shape (hcs c (by simp))
    rw [encode_cons, hshape, List.cons_append, List.getElem?_cons_zero, Option.some.injEq] at h
    rw [← h]
    exact hlead

/-- Inside its first code point a text may not be cut. -/
theorem isBoundary_inside {c : ℕ} (hc : Scalar c) (cs : List ℕ) {offset : ℕ} (hpos : 0 < offset)
    (hin : offset < (encodeOne c).length) : isBoundary (encode (c :: cs)) offset = false := by
  obtain ⟨b, bs, hshape, -, hnext⟩ := encodeOne_shape hc
  obtain ⟨i, rfl⟩ : ∃ i, offset = i + 1 := ⟨offset - 1, by omega⟩
  rw [hshape, List.length_cons] at hin
  have hi : i < bs.length := by omega
  have hbyte : (encode (c :: cs))[i + 1]? = some bs[i] := by
    rw [encode_cons, hshape, List.cons_append, List.getElem?_cons_succ,
      List.getElem?_append_left (by omega), List.getElem?_eq_getElem]
  have hlen : (i + 1 == (encode (c :: cs)).length) = false := by
    rw [encode_cons, hshape, List.length_append, List.length_cons, beq_eq_false_iff_ne]
    omega
  rw [isBoundary, hbyte, hlen]
  simp [hnext _ (List.getElem_mem _)]

/-- Past its first code point a text may be cut where the rest may be. -/
theorem isBoundary_past {c : ℕ} {cs : List ℕ} (hc : Scalar c) (hcs : ∀ d ∈ cs, Scalar d) (o : ℕ) :
    isBoundary (encode (c :: cs)) ((encodeOne c).length + o) = isBoundary (encode cs) o := by
  have hone := encodeOne_pos hc
  have hbyte : (encode (c :: cs))[(encodeOne c).length + o]? = (encode cs)[o]? := by
    rw [encode_cons, List.getElem?_append_right (by omega), Nat.add_sub_cancel_left]
  rcases Nat.eq_zero_or_pos o with rfl | ho
  · rw [isBoundary, hbyte]
    cases hhead : (encode cs)[0]? with
    | none => simp [isBoundary]
    | some x => simp [isBoundary, encode_head hcs hhead]
  · have hzero : ((encodeOne c).length + o == 0) = (o == 0) := by
      rw [Bool.eq_iff_iff, beq_iff_eq, beq_iff_eq]
      omega
    have hlast : ((encodeOne c).length + o == (encodeOne c).length + (encode cs).length) =
        (o == (encode cs).length) := by
      rw [Bool.eq_iff_iff, beq_iff_eq, beq_iff_eq]
      omega
    rw [isBoundary, isBoundary, hbyte, encode_cons, List.length_append, hzero, hlast]

/-- **The offsets at which a text may be cut** are the ends of its first code points. -/
theorem isBoundary_iff {cs : List ℕ} (hcs : ∀ c ∈ cs, Scalar c) {offset : ℕ}
    (hle : offset ≤ (encode cs).length) : isBoundary (encode cs) offset = true ↔
      ∃ a b, cs = a ++ b ∧ (encode a).length = offset := by
  induction cs generalizing offset with
  | nil =>
    obtain rfl : offset = 0 := by simpa using hle
    exact ⟨fun _ => ⟨[], [], rfl, rfl⟩, fun _ => rfl⟩
  | cons c cs ih =>
    have hc : Scalar c := hcs c (by simp)
    have hcs' : ∀ d ∈ cs, Scalar d := fun d hd => hcs d (by simp [hd])
    rw [encode_cons, List.length_append] at hle
    rcases Nat.eq_zero_or_pos offset with rfl | hpos
    · exact ⟨fun _ => ⟨[], c :: cs, rfl, rfl⟩, fun _ => rfl⟩
    rcases Nat.lt_or_ge offset (encodeOne c).length with hin | hout
    · rw [isBoundary_inside hc cs hpos hin]
      refine ⟨by simp, ?_⟩
      rintro ⟨a, d, heq, hlen⟩
      cases a with
      | nil => rw [encode_nil, List.length_nil] at hlen; omega
      | cons x a =>
        obtain ⟨rfl, -⟩ : c = x ∧ cs = a ++ d := by simpa using heq
        rw [encode_cons, List.length_append] at hlen
        omega
    · obtain ⟨o, rfl⟩ : ∃ o, offset = (encodeOne c).length + o :=
        ⟨offset - (encodeOne c).length, by omega⟩
      rw [isBoundary_past hc hcs', ih hcs' (by omega)]
      constructor
      · rintro ⟨a, d, rfl, rfl⟩
        exact ⟨c :: a, d, rfl, by rw [encode_cons, List.length_append]⟩
      · rintro ⟨a, d, heq, hlen⟩
        cases a with
        | nil => rw [encode_nil, List.length_nil] at hlen; omega
        | cons x a =>
          obtain ⟨rfl, rfl⟩ : c = x ∧ cs = a ++ d := by simpa using heq
          rw [encode_cons, List.length_append] at hlen
          exact ⟨a, d, rfl, by omega⟩

/-! ## Steps -/

/-- The number of continuation bytes at the beginning. -/
def continuations : List UInt8 → ℕ
  | [] => 0
  | b :: bs => if isContinuation b then continuations bs + 1 else 0

/-- The end of the code point that starts at an offset. -/
def nextEnd (bytes : List UInt8) (start : ℕ) : ℕ := start + 1 + continuations (bytes.drop (start + 1))

/-- The last cut at or before an offset, but none before a minimum. -/
def lastBoundary (bytes : List UInt8) (minimum : ℕ) : ℕ → ℕ
  | 0 => 0
  | n + 1 => if minimum < n + 1 ∧ isBoundary bytes (n + 1) = false then lastBoundary bytes minimum n else n + 1

theorem lastBoundary_spec {bytes : List UInt8} {minimum n : ℕ} (hmin : minimum ≤ n)
    (hb : isBoundary bytes minimum = true) :
    minimum ≤ lastBoundary bytes minimum n ∧ lastBoundary bytes minimum n ≤ n ∧
      isBoundary bytes (lastBoundary bytes minimum n) = true ∧
      ∀ b, isBoundary bytes b = true → b ≤ n → minimum ≤ b → b ≤ lastBoundary bytes minimum n := by
  induction n with
  | zero =>
    obtain rfl : minimum = 0 := by omega
    exact ⟨Nat.le_refl _, Nat.le_refl _, rfl, fun b _ h _ => h⟩
  | succ n ih =>
    rw [lastBoundary]
    split
    · next hpast =>
      obtain ⟨h1, h2, h3, h4⟩ := ih (by omega)
      refine ⟨h1, by omega, h3, fun b hbb hbn hbm => h4 b hbb ?_ hbm⟩
      -- the offset itself is no cut
      rcases Nat.lt_or_ge b (n + 1) with hlt | hge
      · omega
      · obtain rfl : b = n + 1 := by omega
        rw [hpast.2] at hbb
        cases hbb
    · next hstop =>
      refine ⟨hmin, Nat.le_refl _, ?_, fun b _ hbn _ => hbn⟩
      rcases Nat.lt_or_ge minimum (n + 1) with hlt | hge
      · simpa using fun h => hstop ⟨hlt, h⟩
      · obtain rfl : minimum = n + 1 := by omega
        exact hb

end Utf8
