import Mathlib.Data.List.Basic
import Mathlib.Tactic.Common

/-!
# Base64 with the URL alphabet, without padding

* `encode`: the text of some bytes.
* `decode`: the bytes of a text; characters outside the alphabet are skipped, and a
  character that is left over at the end is dropped.
* `decode_encode`: decoding inverts encoding.
-/

namespace Base64

/-! ## Groups of six bits -/

/-- The six-bit groups of some bytes; the last is filled up with zeros. -/
def sextets : List UInt8 → List ℕ
  | [] => []
  | [a] => [a.toNat / 4, a.toNat % 4 * 16]
  | [a, b] => [a.toNat / 4, a.toNat % 4 * 16 + b.toNat / 16, b.toNat % 16 * 4]
  | a :: b :: c :: bs =>
    a.toNat / 4 :: (a.toNat % 4 * 16 + b.toNat / 16) :: (b.toNat % 16 * 4 + c.toNat / 64) ::
      (c.toNat % 64) :: sextets bs

/-- The bytes of some six-bit groups. -/
def octets : List ℕ → List UInt8
  | a :: b :: c :: d :: ns =>
    .ofNat (a * 4 + b / 16) :: .ofNat (b % 16 * 16 + c / 4) :: .ofNat (c % 4 * 64 + d) :: octets ns
  | [a, b, c] => [.ofNat (a * 4 + b / 16), .ofNat (b % 16 * 16 + c / 4)]
  | [a, b] => [.ofNat (a * 4 + b / 16)]
  | _ => []

theorem octets_sextets (bs : List UInt8) : octets (sextets bs) = bs := by
  induction bs using sextets.induct with
  | case1 => rfl
  | case2 a =>
    have ha : a.toNat / 4 * 4 + a.toNat % 4 * 16 / 16 = a.toNat := by omega
    simp only [sextets, octets, ha, UInt8.ofNat_toNat]
  | case3 a b =>
    have hb := b.toNat_lt
    have e1 : a.toNat / 4 * 4 + (a.toNat % 4 * 16 + b.toNat / 16) / 16 = a.toNat := by omega
    have e2 : (a.toNat % 4 * 16 + b.toNat / 16) % 16 * 16 + b.toNat % 16 * 4 / 4 = b.toNat := by omega
    simp only [sextets, octets, e1, e2, UInt8.ofNat_toNat]
  | case4 a b c bs ih =>
    have hb := b.toNat_lt
    have hc := c.toNat_lt
    have e1 : a.toNat / 4 * 4 + (a.toNat % 4 * 16 + b.toNat / 16) / 16 = a.toNat := by omega
    have e2 : (a.toNat % 4 * 16 + b.toNat / 16) % 16 * 16 + (b.toNat % 16 * 4 + c.toNat / 64) / 4 =
        b.toNat := by omega
    have e3 : (b.toNat % 16 * 4 + c.toNat / 64) % 4 * 64 + c.toNat % 64 = c.toNat := by omega
    simp only [sextets, octets, e1, e2, e3, UInt8.ofNat_toNat, ih]

theorem sextets_lt (bs : List UInt8) : ∀ n ∈ sextets bs, n < 64 := by
  induction bs using sextets.induct with
  | case1 => simp [sextets]
  | case2 a =>
    have ha := a.toNat_lt
    simp only [sextets, List.mem_cons, List.not_mem_nil, or_false, forall_eq_or_imp, forall_eq]
    omega
  | case3 a b =>
    have ha := a.toNat_lt
    have hb := b.toNat_lt
    simp only [sextets, List.mem_cons, List.not_mem_nil, or_false, forall_eq_or_imp, forall_eq]
    omega
  | case4 a b c bs ih =>
    have ha := a.toNat_lt
    have hb := b.toNat_lt
    have hc := c.toNat_lt
    simp only [sextets, List.mem_cons, forall_eq_or_imp]
    refine ⟨by omega, by omega, by omega, by omega, ih⟩

/-- Three bytes make four groups. -/
theorem length_sextets (bs : List UInt8) : (sextets bs).length = (4 * bs.length + 2) / 3 := by
  induction bs using sextets.induct with
  | case1 => rfl
  | case2 a => simp [sextets]
  | case3 a b => simp [sextets]
  | case4 a b c bs ih =>
    simp only [sextets, List.length_cons, ih]
    omega

/-! ## The alphabet -/

/-- `A-Z`, `a-z`, `0-9`, `-` and `_`. -/
def char (n : ℕ) : UInt16 :=
  if n < 26 then (65 + n).toUInt16
  else if n < 52 then (71 + n).toUInt16
  else if n < 62 then (n - 4).toUInt16
  else if n = 62 then 45
  else 95

/-- The group a character stands for. -/
def value (u : UInt16) : Option ℕ :=
  let n := u.toNat
  if 65 ≤ n ∧ n ≤ 90 then some (n - 65)
  else if 97 ≤ n ∧ n ≤ 122 then some (n - 71)
  else if 48 ≤ n ∧ n ≤ 57 then some (n + 4)
  else if n = 45 then some 62
  else if n = 95 then some 63
  else none

theorem value_char {n : ℕ} (h : n < 64) : value (char n) = some n := by
  have hall : ∀ n < 64, value (char n) = some n := by decide
  exact hall n h

/-- `[A-Za-z0-9_-]` -/
def inAlphabet (u : UInt16) : Bool := (value u).isSome

def encode (bs : List UInt8) : List UInt16 := (sextets bs).map char

def decode (s : List UInt16) : List UInt8 := octets (s.filterMap value)

/-- **Decoding inverts encoding.** -/
theorem decode_encode (bs : List UInt8) : decode (encode bs) = bs := by
  have hvalues : ∀ ns : List ℕ, (∀ n ∈ ns, n < 64) → (ns.map char).filterMap value = ns := by
    intro ns hns
    induction ns with
    | nil => rfl
    | cons n ns ih =>
      rw [List.map_cons, List.filterMap_cons, value_char (hns n (by simp))]
      rw [ih (fun m hm => hns m (by simp [hm]))]
  rw [decode, encode, hvalues _ (sextets_lt bs), octets_sextets]

theorem length_encode (bs : List UInt8) : (encode bs).length = (4 * bs.length + 2) / 3 := by
  rw [encode, List.length_map, length_sextets]

theorem encode_inAlphabet (bs : List UInt8) : (encode bs).all inAlphabet = true := by
  rw [encode, List.all_map, List.all_eq_true]
  intro n hn
  simp only [Function.comp, inAlphabet, value_char (sextets_lt bs n hn), Option.isSome_some]

/-- A character of the alphabet is one byte of UTF-8. -/
theorem inAlphabet_ascii {u : UInt16} (h : inAlphabet u = true) : u.toNat < 128 := by
  unfold inAlphabet value at h
  dsimp only at h
  split_ifs at h
  · omega
  · omega
  · omega
  · omega
  · omega
  · cases h

end Base64
