import Barbaro.Lib.Json
import Mathlib.Data.Nat.Log

/-!
# Texts that tell their own size

A text that holds its own size in decimal digits is longer the more digits the size has.
Writing down the size of the text before, from zero on, settles after three rounds.

* `length_decDigits`: the number of decimal digits.
* `ownSize`: the size of such a text, given the size of the rest of it.
* `ownSize_fixed`: the size it tells is its size.
* `sizeRounds_settle`: rounds that write down the size of the round before find it.
-/

namespace Json

/-- The number of decimal digits of a number. -/
def digitCount (n : ℕ) : ℕ := Nat.log 10 n + 1

theorem length_decLoop {fuel n : ℕ} (h : n < fuel) : (decLoop fuel n).length = digitCount n := by
  induction fuel generalizing n with
  | zero => omega
  | succ fuel ih =>
    rw [decLoop]
    split
    · next hsmall => rw [digitCount, Nat.log_of_lt hsmall]; rfl
    · next hlarge =>
      have hlog : Nat.log 10 n = Nat.log 10 (n / 10) + 1 :=
        Nat.log_of_one_lt_of_le (by decide) (by omega)
      rw [List.length_append, ih (by omega), digitCount, digitCount, hlog]
      rfl

theorem length_decDigits (n : ℕ) : (decDigits n).length = digitCount n :=
  length_decLoop (Nat.lt_succ_self n)

theorem digitCount_pos (n : ℕ) : 0 < digitCount n := Nat.succ_pos _

theorem digitCount_mono {m n : ℕ} (h : m ≤ n) : digitCount m ≤ digitCount n :=
  Nat.succ_le_succ (Nat.log_mono_right h)

theorem lt_pow_digitCount (n : ℕ) : n < 10 ^ digitCount n :=
  Nat.lt_pow_succ_log_self (by decide) n

theorem digitCount_le {n k : ℕ} (hk : 0 < k) (h : n < 10 ^ k) : digitCount n ≤ k :=
  Nat.log_lt_of_lt_pow' (by omega) h

theorem le_pow (k : ℕ) : k ≤ 10 ^ k := (Nat.lt_pow_self (by decide)).le

/-! ## The size of a text that tells it -/

/-- The size of a text that tells the size of the round before. -/
def tellSize (rest told : ℕ) : ℕ := rest + digitCount told

/-- The size of a text that tells its size, where the rest of the text is this large. -/
def ownSize (rest : ℕ) : ℕ := tellSize rest (tellSize rest (tellSize rest 0))

theorem tellSize_mono {rest rest' told told' : ℕ} (hrest : rest ≤ rest') (htold : told ≤ told') :
    tellSize rest told ≤ tellSize rest' told' := by
  have hdigits := digitCount_mono htold
  unfold tellSize
  omega

theorem ownSize_mono {rest rest' : ℕ} (h : rest ≤ rest') : ownSize rest ≤ ownSize rest' :=
  tellSize_mono h (tellSize_mono h (tellSize_mono h (Nat.le_refl 0)))

/-- **The size a text tells settles** after three rounds. -/
theorem ownSize_fixed (rest : ℕ) : tellSize rest (ownSize rest) = ownSize rest := by
  have hzero : digitCount 0 = 1 := rfl
  set m := digitCount (rest + 1) with hm
  have hfirst : tellSize rest (tellSize rest 0) = rest + m := by
    rw [tellSize, tellSize, hzero]
  have hlow : m ≤ digitCount (rest + m) := digitCount_mono (by have := digitCount_pos (rest + 1); omega)
  have hpow := lt_pow_digitCount (rest + 1)
  rw [← hm] at hpow
  have hsmall := le_pow m
  -- a second digit is not gained
  have hhigh : ∀ k ≤ m + 1, digitCount (rest + k) ≤ m + 1 := by
    intro k hk
    refine digitCount_le (by omega) ?_
    rw [Nat.pow_succ]
    omega
  have hsecond : ownSize rest = rest + digitCount (rest + m) := by
    rw [ownSize, hfirst, tellSize]
  rw [hsecond, tellSize]
  rcases Nat.lt_or_ge m (digitCount (rest + m)) with hmore | hsame
  · have heq : digitCount (rest + m) = m + 1 := by
      have := hhigh m (by omega)
      omega
    have hlast : digitCount (rest + (m + 1)) = m + 1 := by
      have h1 := hhigh (m + 1) le_rfl
      have h2 : digitCount (rest + m) ≤ digitCount (rest + (m + 1)) := digitCount_mono (by omega)
      omega
    rw [heq, hlast]
  · have heq : digitCount (rest + m) = m := by omega
    rw [heq, heq]

/-- The size that is told is told only of the text that has it. -/
theorem ownSize_unique {rest told : ℕ} (h : tellSize rest told = told) : ownSize rest ≤ told := by
  have h1 : tellSize rest 0 ≤ told := by
    have := tellSize_mono (Nat.le_refl rest) (Nat.zero_le told)
    omega
  have h2 : tellSize rest (tellSize rest 0) ≤ told := by
    have := tellSize_mono (Nat.le_refl rest) h1
    omega
  have h3 := tellSize_mono (Nat.le_refl rest) h2
  unfold ownSize
  omega

/-! ## Rounds -/

/-- Write down the size of the round before, until it is the size that was told. -/
def sizeRounds (size : ℕ → ℕ) : ℕ → ℕ → Option ℕ
  | 0, _ => none
  | attempts + 1, told => if size told = told then some told else sizeRounds size attempts (size told)

theorem sizeRounds_succ (size : ℕ → ℕ) (attempts told : ℕ) : sizeRounds size (attempts + 1) told =
    if size told = told then some told else sizeRounds size attempts (size told) := rfl

/-- **The rounds settle**: from zero on, the fourth round at the latest tells its own size. -/
theorem sizeRounds_settle (rest attempts : ℕ) :
    sizeRounds (tellSize rest) (attempts + 4) 0 = some (ownSize rest) := by
  have hlast : ∀ attempts, sizeRounds (tellSize rest) (attempts + 1) (ownSize rest) = some (ownSize rest) := by
    intro attempts
    rw [sizeRounds_succ, if_pos (ownSize_fixed rest)]
  -- a round that tells its size before the fourth tells the same size
  have hsettled : ∀ told, tellSize rest told = told → told ≤ ownSize rest → told = ownSize rest := by
    intro told htold hle
    exact Nat.le_antisymm hle (ownSize_unique htold)
  have hround : ∀ attempts told, told ≤ ownSize rest →
      sizeRounds (tellSize rest) (attempts + 1) (tellSize rest told) = some (ownSize rest) →
      sizeRounds (tellSize rest) (attempts + 2) told = some (ownSize rest) := by
    intro attempts told hle hnext
    rw [sizeRounds_succ]
    by_cases htold : tellSize rest told = told
    · rw [if_pos htold, hsettled told htold hle]
    · rw [if_neg htold]
      exact hnext
  have hfirst : tellSize rest 0 ≤ ownSize rest := tellSize_mono le_rfl (Nat.zero_le _)
  have hsecond : tellSize rest (tellSize rest 0) ≤ ownSize rest :=
    tellSize_mono le_rfl (tellSize_mono le_rfl (Nat.zero_le _))
  refine hround (attempts + 2) 0 (Nat.zero_le _) ?_
  refine hround (attempts + 1) _ hfirst ?_
  exact hround attempts _ hsecond (hlast attempts)

end Json
