import Barbaro.Lib.Json
import Mathlib.Data.List.TakeWhile

/-!
# Reading back what was written

* `parseString_quote`: the body of a quoted string is read as the string.
* `scanNumber_int`: a written integer is read as one token.
* `parse_render`: a well-formed value is read back from its text.
* `render_injective`: so two well-formed values with the same text are equal.
-/

namespace Json

/-! ## Digits -/

theorem toNat_digit {n : ℕ} (h : n < 10) : (digit n).toNat = 48 + n := by
  simp only [digit, Nat.toUInt16, UInt16.toNat_ofNat']
  omega

theorem isDigit_digit {n : ℕ} (h : n < 10) : isDigit (digit n) = true := by
  simp only [isDigit, toNat_digit h, Bool.and_eq_true, decide_eq_true_eq]
  omega

theorem decLoop_digits (fuel n : ℕ) : ∀ u ∈ decLoop fuel n, isDigit u = true := by
  induction fuel generalizing n with
  | zero => simp [decLoop]
  | succ fuel ih =>
    intro u hu
    rw [decLoop] at hu
    split at hu
    · next h => rw [List.mem_singleton.1 hu]; exact isDigit_digit h
    · rcases List.mem_append.1 hu with hu | hu
      · exact ih _ u hu
      · rw [List.mem_singleton.1 hu]
        exact isDigit_digit (Nat.mod_lt _ (by omega))

theorem ofDigits_append (a : Text) (u : UInt16) :
    ofDigits (a ++ [u]) = 10 * ofDigits a + (u.toNat - 48) := by
  simp [ofDigits]

theorem ofDigits_decLoop {fuel n : ℕ} (h : n < fuel) : ofDigits (decLoop fuel n) = n := by
  induction fuel generalizing n with
  | zero => omega
  | succ fuel ih =>
    rw [decLoop]
    split
    · next hn =>
      simp only [ofDigits, List.foldl_cons, List.foldl_nil, toNat_digit hn]
      omega
    · next hn =>
      rw [ofDigits_append, ih (by omega), toNat_digit (Nat.mod_lt _ (by omega))]
      omega

theorem decLoop_head {fuel n : ℕ} (h : n < fuel) (hn : 0 < n) :
    ∃ u s, decLoop fuel n = u :: s ∧ u ≠ 48 := by
  induction fuel generalizing n with
  | zero => omega
  | succ fuel ih =>
    rw [decLoop]
    split
    · next hlt =>
      refine ⟨digit n, [], rfl, fun h0 => ?_⟩
      have := congrArg UInt16.toNat h0
      rw [toNat_digit hlt] at this
      change 48 + n = 48 at this
      omega
    · next hlt =>
      obtain ⟨u, s, he, hu⟩ := @ih (n / 10) (by omega) (by omega)
      exact ⟨u, s ++ [digit (n % 10)], by rw [he]; rfl, hu⟩

/-! ## Numbers -/

/-- The text after a number does not go on with it. -/
def Follows (r : Text) : Prop :=
  ∀ u s, r = u :: s → isDigit u = false ∧ u ≠ 46 ∧ u ≠ 101 ∧ u ≠ 69

theorem follows_nil : Follows [] := by intro u s h; cases h

theorem Follows.cons {u : UInt16} {s : Text} (h : u = 44 ∨ u = 93 ∨ u = 125) : Follows (u :: s) := by
  rintro u s ⟨⟩
  rcases h with rfl | rfl | rfl <;> decide

theorem scanDigits_append (ds : Text) {r : Text} (hne : ds ≠ []) (hd : ∀ u ∈ ds, isDigit u = true)
    (hr : Follows r) : scanDigits (ds ++ r) = some (ds, r) := by
  have hhead : r.takeWhile isDigit = [] ∧ r.dropWhile isDigit = r := by
    cases r with
    | nil => exact ⟨rfl, rfl⟩
    | cons u s =>
      have := (hr u s rfl).1
      simp [this]
  have htake : (ds ++ r).takeWhile isDigit = ds := by
    rw [List.takeWhile_append_of_pos hd, hhead.1, List.append_nil]
  have hdrop : (ds ++ r).dropWhile isDigit = r := by
    rw [List.dropWhile_append_of_pos hd, hhead.2]
  rw [scanDigits, htake, hdrop]
  cases ds with
  | nil => exact absurd rfl hne
  | cons u s => rfl

theorem scanInt_decDigits (n : ℕ) {r : Text} (hr : Follows r) :
    scanInt (decDigits n ++ r) = some (decDigits n, r) := by
  rcases Nat.eq_zero_or_pos n with rfl | hn
  · rfl
  · obtain ⟨u, s, he, hu⟩ := decLoop_head (Nat.lt_succ_self n) hn
    have hs := scanDigits_append (decDigits n) (by rw [decDigits, he]; simp)
      (decLoop_digits _ _) hr
    rw [decDigits, he] at hs ⊢
    rw [← hs, List.cons_append]
    unfold scanInt
    split
    · next h => simp only [List.cons.injEq] at h; exact absurd h.1 hu
    · rfl

theorem scanFrac_follows {r : Text} (hr : Follows r) : scanFrac r = some ([], r) := by
  unfold scanFrac
  split
  · next s => exact absurd rfl (hr 46 s rfl).2.1
  · rfl

theorem scanExp_follows {r : Text} (hr : Follows r) : scanExp r = some ([], r) := by
  cases r with
  | nil => rfl
  | cons u s =>
    obtain ⟨-, -, h1, h2⟩ := hr u s rfl
    rw [scanExp, if_neg (fun h => h.elim h1 h2)]

theorem decDigits_head (n : ℕ) : ∃ u s, decDigits n = u :: s ∧ isDigit u = true := by
  have hd := decLoop_digits (n + 1) n
  rcases Nat.eq_zero_or_pos n with rfl | hn
  · exact ⟨48, [], rfl, by decide⟩
  · obtain ⟨u, s, he, -⟩ := decLoop_head (Nat.lt_succ_self n) hn
    exact ⟨u, s, he, hd u (by rw [he]; simp)⟩

theorem scanUnsigned_decDigits (n : ℕ) {r : Text} (hr : Follows r) :
    scanUnsigned (decDigits n ++ r) = some ((decDigits n, []), r) := by
  simp only [scanUnsigned, scanInt_decDigits n hr, Option.bind_eq_bind, Option.bind_some,
    scanFrac_follows hr, scanExp_follows hr]
  rfl

/-- A written integer is read as one token. -/
theorem scanNumber_int (z : ℤ) {r : Text} (hr : Follows r) :
    scanNumber ((Number.int z).text ++ r) =
      some ((decide (z < 0), decDigits z.natAbs, []), r) := by
  have hu := scanUnsigned_decDigits z.natAbs hr
  rw [Number.text]
  split
  · next h =>
    rw [List.cons_append, scanNumber, if_pos rfl, hu]
    simp [h]
  · next h =>
    obtain ⟨u, s, he, hd⟩ := decDigits_head z.natAbs
    have h45 : u ≠ 45 := by rintro rfl; exact absurd hd (by decide)
    rw [he, List.cons_append] at hu ⊢
    rw [scanNumber, if_neg h45, hu]
    simp [h]

/-- The units of a number's text: printable ASCII. -/
def Printable (t : Text) : Prop := ∀ u ∈ t, 32 ≤ u.toNat ∧ u.toNat < 128

/-- A number as the reader of its own text gives it back: a safe integer, or a double
whose text is one token that is read as it. -/
def Number.Canonical (float : Text → Number) : Number → Prop
  | .int z => z.natAbs ≤ maxSafe
  | .other t => Printable t ∧ ∃ negative i f, t = tokenText negative i f ∧
      (∀ r, Follows r → scanNumber (t ++ r) = some ((negative, i, f), r)) ∧
      ofToken float negative i f = .other t

theorem scanNumber_text {float : Text → Number} {n : Number} (h : n.Canonical float) {r : Text}
    (hr : Follows r) : ∃ negative i f,
      scanNumber (n.text ++ r) = some ((negative, i, f), r) ∧ ofToken float negative i f = n := by
  cases n with
  | int z =>
    refine ⟨_, _, _, scanNumber_int z hr, ?_⟩
    have hz : ofDigits (decDigits z.natAbs) = z.natAbs := ofDigits_decLoop (Nat.lt_succ_self _)
    rw [ofToken, hz, if_pos ⟨rfl, h⟩]
    split
    · next hneg => simp only [decide_eq_true_eq] at hneg; congr 1; omega
    · next hneg => simp only [decide_eq_true_eq] at hneg; congr 1; omega
  | other t =>
    obtain ⟨-, negative, i, f, -, h2, h3⟩ := h
    exact ⟨negative, i, f, h2 r hr, h3⟩

/-- A number token starts with a sign or a digit. -/
theorem scanNumber_head {s : Text} {p : (Bool × Text × Text) × Text} (h : scanNumber s = some p) :
    ∃ u r, s = u :: r ∧ (u = 45 ∨ isDigit u = true) := by
  cases s with
  | nil => cases h
  | cons u r =>
    refine ⟨u, r, rfl, ?_⟩
    by_cases h45 : u = 45
    · exact .inl h45
    · right
      rw [scanNumber, if_neg h45] at h
      by_contra hd
      have hint : scanInt (u :: r) = none := by
        unfold scanInt
        split
        · next heq => simp only [List.cons.injEq] at heq; rw [heq.1] at hd; exact absurd rfl hd
        · simp [scanDigits, hd]
      simp [scanUnsigned, hint] at h

/-! ## Strings -/

theorem unhex_unicodeEscape (u : UInt16) :
    unhex (hexDigit (u.toNat / 4096)) (hexDigit (u.toNat / 256 % 16))
      (hexDigit (u.toNat / 16 % 16)) (hexDigit (u.toNat % 16)) = some u := by
  have hu := u.toNat_lt
  have hex : ∀ n, n < 16 → hexVal (hexDigit n) = some n := by decide
  simp only [unhex, hex _ (show u.toNat / 4096 < 16 by omega), hex _ (Nat.mod_lt _ (by omega : 0 < 16)),
    Option.bind_eq_bind, Option.bind_some, Option.pure_def, Option.some.injEq]
  apply UInt16.toNat_inj.1
  simp only [Nat.toUInt16, UInt16.toNat_ofNat']
  omega

theorem parseString_close (r : Text) : parseString (34 :: r) = some ([], r) := by
  rw [parseString.eq_def]
  simp only [if_true]

theorem parseString_plain {u : UInt16} (h1 : u ≠ 34) (h2 : u ≠ 92) (h3 : 32 ≤ u.toNat) (s : Text) :
    parseString (u :: s) = (parseString s).map (fun r => (u :: r.1, r.2)) := by
  rw [parseString.eq_def]
  simp only [if_neg h1, if_neg h2, if_neg (show ¬ u.toNat < 32 by omega)]

theorem parseString_letter {e v : UInt16} (h : unescape e = some v) (he : e ≠ 117) (s : Text) :
    parseString (92 :: e :: s) = (parseString s).map (fun r => (v :: r.1, r.2)) := by
  rw [parseString.eq_def]
  simp only [if_neg (show (92 : UInt16) ≠ 34 by decide), if_true, if_neg he, h]

theorem parseString_unicodeEscape (u : UInt16) (s : Text) :
    parseString (unicodeEscape u ++ s) = (parseString s).map (fun r => (u :: r.1, r.2)) := by
  rw [unicodeEscape, parseString.eq_def]
  simp only [List.cons_append, List.nil_append, if_neg (show (92 : UInt16) ≠ 34 by decide), if_true,
    unhex_unicodeEscape]

theorem parseString_escapeUnit (u : UInt16) (s : Text) :
    parseString (escapeUnit u ++ s) = (parseString s).map (fun r => (u :: r.1, r.2)) := by
  unfold escapeUnit
  split
  · next h => subst h; exact parseString_letter rfl (by decide) s
  split
  · next h => subst h; exact parseString_letter rfl (by decide) s
  split
  · next h => subst h; exact parseString_letter rfl (by decide) s
  split
  · next h => subst h; exact parseString_letter rfl (by decide) s
  split
  · next h => subst h; exact parseString_letter rfl (by decide) s
  split
  · next h => subst h; exact parseString_letter rfl (by decide) s
  split
  · next h => subst h; exact parseString_letter rfl (by decide) s
  split
  · exact parseString_unicodeEscape u s
  · next h1 h2 _ _ _ _ _ h8 => exact parseString_plain h1 h2 (by omega) s

theorem surrogate_plain {u : UInt16} (h : isHigh u = true ∨ isLow u = true) :
    u ≠ 34 ∧ u ≠ 92 ∧ 32 ≤ u.toNat := by
  have hn : 0xD800 ≤ u.toNat := by
    simp only [isHigh, isLow, Bool.and_eq_true, decide_eq_true_eq] at h
    omega
  refine ⟨?_, ?_, by omega⟩
  · rintro rfl; exact absurd hn (by decide)
  · rintro rfl; exact absurd hn (by decide)

/-- **A quoted string is read back.** -/
theorem parseString_escape (s : Text) (r : Text) :
    parseString (escape s ++ 34 :: r) = some (s, r) := by
  induction s using escape.induct with
  | case1 => exact parseString_close r
  | case2 u h =>
    rw [escape, if_pos h, parseString_unicodeEscape, parseString_close]; rfl
  | case3 u h =>
    rw [escape, if_neg h, parseString_escapeUnit, parseString_close]; rfl
  | case4 u v s h ih =>
    have hu := surrogate_plain (.inl (Bool.and_eq_true_iff.1 h).1)
    have hv := surrogate_plain (.inr (Bool.and_eq_true_iff.1 h).2)
    rw [escape, if_pos h, List.cons_append, List.cons_append, parseString_plain hu.1 hu.2.1 hu.2.2,
      parseString_plain hv.1 hv.2.1 hv.2.2, ih]
    rfl
  | case5 u v s h h' ih =>
    rw [escape, if_neg h, if_pos h', List.append_assoc, parseString_unicodeEscape, ih]; rfl
  | case6 u v s h h' ih =>
    rw [escape, if_neg h, if_neg h', List.append_assoc, parseString_escapeUnit, ih]; rfl

theorem parseString_quote (s r : Text) : quote s ++ r = 34 :: (escape s ++ 34 :: r) := by
  simp [quote]

/-! ## Values -/

mutual

/-- Every number is canonical and no object has a key twice. -/
def WellFormed (float : Text → Number) : Json → Prop
  | .num n => n.Canonical float
  | .arr vs => WellFormedItems float vs
  | .obj fs => (fs.map (·.1)).Nodup ∧ WellFormedFields float fs
  | _ => True

def WellFormedItems (float : Text → Number) : List Json → Prop
  | [] => True
  | v :: vs => WellFormed float v ∧ WellFormedItems float vs

def WellFormedFields (float : Text → Number) : List (Text × Json) → Prop
  | [] => True
  | (_, v) :: fs => WellFormed float v ∧ WellFormedFields float fs

end

mutual

/-- The nesting the reader needs. -/
def size : Json → ℕ
  | .arr vs => 1 + sizeItems vs
  | .obj fs => 1 + sizeFields fs
  | _ => 1

def sizeItems : List Json → ℕ
  | [] => 0
  | v :: vs => 1 + size v + sizeItems vs

def sizeFields : List (Text × Json) → ℕ
  | [] => 0
  | (_, v) :: fs => 1 + size v + sizeFields fs

end

theorem setField_new {k : Text} {fs : List (Text × Json)} (h : k ∉ fs.map (·.1)) (v : Json) :
    setField k v fs = fs ++ [(k, v)] := by
  induction fs with
  | nil => rfl
  | cons f fs ih =>
    simp only [List.map_cons, List.mem_cons, not_or] at h
    rw [setField, if_neg (Ne.symm h.1), ih h.2, List.cons_append]

/-- Members without a repeated key are the object. -/
theorem assign_of_nodup {fs : List (Text × Json)} (h : (fs.map (·.1)).Nodup) : assign fs = fs := by
  have key : ∀ (done fs : List (Text × Json)), ((done ++ fs).map (·.1)).Nodup →
      fs.foldl (fun o f => setField f.1 f.2 o) done = done ++ fs := by
    intro done fs
    induction fs generalizing done with
    | nil => simp
    | cons f fs ih =>
      intro hnd
      have hf : f.1 ∉ done.map (·.1) := by
        rw [List.map_append, List.nodup_append] at hnd
        intro hmem
        exact hnd.2.2 f.1 hmem f.1 (by simp) rfl
      rw [List.foldl_cons, setField_new hf, ih _ (by simpa using hnd)]
      simp
  simpa [assign] using key [] fs (by simpa using h)

theorem skipWs_cons {u : UInt16} (h : isWs u = false) (s : Text) : skipWs (u :: s) = u :: s := by
  simp [skipWs, h]

theorem not_isWs_number {u : UInt16} (h : u = 45 ∨ isDigit u = true) : isWs u = false := by
  have : 45 ≤ u.toNat := by
    rcases h with rfl | h
    · decide
    · simp only [isDigit, Bool.and_eq_true, decide_eq_true_eq] at h; omega
  simp only [isWs, Bool.or_eq_false_iff, beq_eq_false_iff_ne, ne_eq]
  refine ⟨⟨⟨?_, ?_⟩, ?_⟩, ?_⟩ <;> (rintro rfl; exact absurd this (by decide))

/-- The text of a value starts with a character that is no white space, and that closes nothing. -/
theorem render_head {float : Text → Number} {v : Json} (hv : v.WellFormed float) :
    ∃ u s, render v = u :: s ∧ isWs u = false ∧ u ≠ 93 ∧ u ≠ 125 := by
  cases v with
  | null => exact ⟨_, _, rfl, by decide, by decide, by decide⟩
  | bool b => cases b <;> exact ⟨_, _, rfl, by decide, by decide, by decide⟩
  | num n =>
    obtain ⟨neg, i, f, hs, -⟩ := scanNumber_text (n := n) hv follows_nil
    rw [List.append_nil] at hs
    obtain ⟨u, r, he, hu⟩ := scanNumber_head hs
    refine ⟨u, r, by rw [render, he], not_isWs_number hu, ?_, ?_⟩ <;>
      (rintro rfl; exact absurd hu (by decide))
  | str s => exact ⟨_, _, rfl, by decide, by decide, by decide⟩
  | arr vs => cases vs <;> exact ⟨_, _, rfl, by decide, by decide, by decide⟩
  | obj fs => rcases fs with _ | ⟨⟨k, v⟩, fs⟩ <;> exact ⟨_, _, rfl, by decide, by decide, by decide⟩

theorem keyword_append {k : Text} {v : Json} (r : Text) : keyword k v (k ++ r) = some (v, r) := by
  rw [keyword, if_pos List.take_left, List.drop_left]

theorem parseKey_quote (k r : Text) : parseKey (quote k ++ 58 :: r) = some (k, r) := by
  rw [parseString_quote, parseKey, if_pos rfl, parseString_escape]
  simp only [skipWs_cons (show isWs 58 = false by decide), if_true]

section
variable (float : Text → Number) (n : ℕ)

/-! What `parseValue` does on each first character. -/

theorem parseValue_null (r : Text) :
    parseValue float (n + 1) (110 :: r) = keyword [117, 108, 108] .null r := by
  rw [parseValue, skipWs_cons (by decide)]; simp

theorem parseValue_true (r : Text) :
    parseValue float (n + 1) (116 :: r) = keyword [114, 117, 101] (.bool true) r := by
  rw [parseValue, skipWs_cons (by decide)]; simp

theorem parseValue_false (r : Text) :
    parseValue float (n + 1) (102 :: r) = keyword [97, 108, 115, 101] (.bool false) r := by
  rw [parseValue, skipWs_cons (by decide)]; simp

theorem parseValue_string (r : Text) :
    parseValue float (n + 1) (34 :: r) = (parseString r).map (fun p => (.str p.1, p.2)) := by
  rw [parseValue, skipWs_cons (by decide)]; simp

theorem parseValue_number {u : UInt16} (h : u = 45 ∨ isDigit u = true) (r : Text) :
    parseValue float (n + 1) (u :: r) = (scanNumber (u :: r)).map
      (fun p => (.num (ofToken float p.1.1 p.1.2.1 p.1.2.2), p.2)) := by
  have hu : ∀ w : UInt16, isDigit w = false → w ≠ 45 → u ≠ w := by
    rintro w hw h45 rfl
    rcases h with h | h
    · exact h45 h
    · rw [hw] at h; cases h
  rw [parseValue, skipWs_cons (not_isWs_number h)]
  simp only [if_neg (hu 34 (by decide) (by decide)), if_neg (hu 91 (by decide) (by decide)),
    if_neg (hu 123 (by decide) (by decide)), if_neg (hu 110 (by decide) (by decide)),
    if_neg (hu 116 (by decide) (by decide)), if_neg (hu 102 (by decide) (by decide))]

theorem parseValue_emptyArr (r : Text) :
    parseValue float (n + 1) (91 :: 93 :: r) = some (.arr [], r) := by
  rw [parseValue, skipWs_cons (by decide)]
  simp [skipWs_cons (show isWs 93 = false by decide)]

theorem parseValue_emptyObj (r : Text) :
    parseValue float (n + 1) (123 :: 125 :: r) = some (.obj [], r) := by
  rw [parseValue, skipWs_cons (by decide)]
  simp [skipWs_cons (show isWs 125 = false by decide)]

theorem parseValue_arr {u : UInt16} (h : isWs u = false) (hu : u ≠ 93) (r : Text) :
    parseValue float (n + 1) (91 :: u :: r) =
      (parseItems float n (u :: r)).map (fun p => (.arr p.1, p.2)) := by
  rw [parseValue, skipWs_cons (by decide)]
  simp [skipWs_cons h, hu]

theorem parseValue_obj {u : UInt16} (h : isWs u = false) (hu : u ≠ 125) (r : Text) :
    parseValue float (n + 1) (123 :: u :: r) =
      (parseFields float n (u :: r)).map (fun p => (.obj (assign p.1), p.2)) := by
  rw [parseValue, skipWs_cons (by decide)]
  simp [skipWs_cons h, hu]

end

theorem renderItems_follows (vs : List Json) (r : Text) : Follows (renderItems vs ++ r) := by
  cases vs <;> exact Follows.cons (by simp)

theorem renderFields_follows (fs : List (Text × Json)) (r : Text) :
    Follows (renderFields fs ++ r) := by
  rcases fs with _ | ⟨⟨k, v⟩, fs⟩ <;> exact Follows.cons (by simp)

/-- The reader on the text of a value, of the rest of an array and of the rest of an
object, by induction on the nesting it may go into. -/
theorem parseValue_render (float : Text → Number) (n : ℕ) :
    (∀ v : Json, v.WellFormed float → size v ≤ n → ∀ r, Follows r →
      parseValue float n (render v ++ r) = some (v, r)) ∧
    (∀ v vs, WellFormedItems float (v :: vs) → sizeItems (v :: vs) ≤ n → ∀ r,
      parseItems float n (render v ++ (renderItems vs ++ r)) = some (v :: vs, r)) ∧
    (∀ k v fs, WellFormedFields float ((k, v) :: fs) → sizeFields ((k, v) :: fs) ≤ n → ∀ r,
      parseFields float n (quote k ++ 58 :: (render v ++ (renderFields fs ++ r))) =
        some ((k, v) :: fs, r)) := by
  induction n with
  | zero =>
    refine ⟨fun v _ hn => ?_, fun v vs _ hn => ?_, fun k v fs _ hn => ?_⟩
    · cases v <;> simp [size] at hn
    · simp [sizeItems] at hn
    · simp [sizeFields] at hn
  | succ n ih =>
    obtain ⟨ihv, iha, iho⟩ := ih
    refine ⟨fun v hv hn r hr => ?_, fun v vs hv hn r => ?_, fun k v fs hv hn r => ?_⟩
    · cases v with
      | null => exact (parseValue_null float n _).trans (keyword_append r)
      | bool b =>
        cases b
        · exact (parseValue_false float n _).trans (keyword_append r)
        · exact (parseValue_true float n _).trans (keyword_append r)
      | num m =>
        obtain ⟨neg, i, f, hs, ht⟩ := scanNumber_text (n := m) hv hr
        obtain ⟨u, s, he, hu⟩ := scanNumber_head hs
        rw [render, he, parseValue_number float n hu, ← he, hs, Option.map_some, ht]
      | str s => rw [render, parseString_quote, parseValue_string, parseString_escape]; rfl
      | arr vs =>
        cases vs with
        | nil => exact parseValue_emptyArr float n r
        | cons v vs =>
          obtain ⟨u, s, he, hws, h93, -⟩ := render_head hv.1
          have hit := iha v vs hv (by rw [size] at hn; omega) r
          simp only [render, he, List.cons_append, List.append_assoc] at hit ⊢
          rw [parseValue_arr float n hws h93, hit]
          rfl
      | obj fs =>
        rcases fs with _ | ⟨⟨k, v⟩, fs⟩
        · exact parseValue_emptyObj float n r
        · have hit := iho k v fs hv.2 (by rw [size] at hn; omega) r
          rw [parseString_quote] at hit
          simp only [render, List.cons_append, List.append_assoc]
          rw [parseString_quote, parseValue_obj float n (by decide) (by decide), hit,
            Option.map_some, assign_of_nodup hv.1]
    · rw [sizeItems] at hn
      rw [parseItems, ihv v hv.1 (by omega) _ (renderItems_follows vs r)]
      cases vs with
      | nil =>
        simp only [renderItems, List.cons_append, List.nil_append,
          skipWs_cons (show isWs 93 = false by decide)]
        simp
      | cons w ws =>
        have hrest := iha w ws hv.2 (by omega) r
        simp only [renderItems, List.cons_append, List.append_assoc,
          skipWs_cons (show isWs 44 = false by decide), if_true, hrest, Option.map_some]
    · rw [sizeFields] at hn
      rw [parseFields, show skipWs (quote k ++ 58 :: (render v ++ (renderFields fs ++ r))) =
        quote k ++ 58 :: (render v ++ (renderFields fs ++ r)) from skipWs_cons (by decide) _,
        parseKey_quote]
      simp only [ihv v hv.1 (by omega) _ (renderFields_follows fs r)]
      rcases fs with _ | ⟨⟨k', v'⟩, fs⟩
      · simp only [renderFields, List.cons_append, List.nil_append,
          skipWs_cons (show isWs 125 = false by decide)]
        simp
      · have hrest := iho k' v' fs hv.2 (by omega) r
        simp only [renderFields, List.cons_append, List.append_assoc,
          skipWs_cons (show isWs 44 = false by decide), if_true, hrest, Option.map_some]

/-- The nesting the reader needs is at most the length of the text. -/
theorem size_le_render (float : Text → Number) (n : ℕ) :
    (∀ v : Json, v.WellFormed float → size v ≤ n → size v ≤ (render v).length) ∧
    (∀ vs, WellFormedItems float vs → sizeItems vs ≤ n →
      sizeItems vs + 1 ≤ (renderItems vs).length) ∧
    (∀ fs, WellFormedFields float fs → sizeFields fs ≤ n →
      sizeFields fs + 1 ≤ (renderFields fs).length) := by
  induction n with
  | zero =>
    refine ⟨fun v _ hn => by omega, fun vs _ hn => ?_, fun fs _ hn => ?_⟩
    · cases vs with
      | nil => simp [sizeItems, renderItems]
      | cons v vs => simp [sizeItems] at hn
    · rcases fs with _ | ⟨⟨k, v⟩, fs⟩
      · simp [sizeFields, renderFields]
      · simp [sizeFields] at hn
  | succ n ih =>
    obtain ⟨ihv, iha, iho⟩ := ih
    refine ⟨fun v hv hn => ?_, fun vs hv hn => ?_, fun fs hv hn => ?_⟩
    · cases v with
      | null => simp [size, render]
      | bool b => cases b <;> simp [size, render]
      | num m =>
        obtain ⟨u, s, he, -⟩ := render_head hv
        simp [he, size]
      | str s => simp [size, render, quote]
      | arr vs =>
        cases vs with
        | nil => simp [size, sizeItems, render]
        | cons v vs =>
          simp only [size, sizeItems] at hn
          have h1 := ihv v hv.1 (by omega)
          have h2 := iha vs hv.2 (by omega)
          simp only [size, sizeItems, render, List.length_append, List.length_cons]
          omega
      | obj fs =>
        rcases fs with _ | ⟨⟨k, v⟩, fs⟩
        · simp [size, sizeFields, render]
        · simp only [size, sizeFields] at hn
          have h1 := ihv v hv.2.1 (by omega)
          have h2 := iho fs hv.2.2 (by omega)
          simp only [size, sizeFields, render, List.length_append, List.length_cons]
          omega
    · cases vs with
      | nil => simp [sizeItems, renderItems]
      | cons v vs =>
        simp only [sizeItems] at hn
        have h1 := ihv v hv.1 (by omega)
        have h2 := iha vs hv.2 (by omega)
        simp only [sizeItems, renderItems, List.length_append, List.length_cons]
        omega
    · rcases fs with _ | ⟨⟨k, v⟩, fs⟩
      · simp [sizeFields, renderFields]
      · simp only [sizeFields] at hn
        have h1 := ihv v hv.1 (by omega)
        have h2 := iho fs hv.2 (by omega)
        simp only [sizeFields, renderFields, List.length_append, List.length_cons]
        omega

/-- **What is written is read back**, also with whitespace after it. -/
theorem parse_render_append {float : Text → Number} {v : Json} (hv : v.WellFormed float) {w : Text}
    (hw : Follows w) (hs : skipWs w = []) : parse float (render v ++ w) = some v := by
  have h := (parseValue_render float ((render v ++ w).length + 1)).1 v hv
    (by
      have := (size_le_render float (size v)).1 v hv le_rfl
      rw [List.length_append]
      omega) w hw
  rw [parse, h]
  simp only [hs, if_true]

theorem parse_render {float : Text → Number} {v : Json} (hv : v.WellFormed float) :
    parse float (render v) = some v := by
  have h := parse_render_append hv follows_nil rfl
  rwa [List.append_nil] at h

/-- One line of JSON is read with its line feed. -/
theorem parse_render_line {float : Text → Number} {v : Json} (hv : v.WellFormed float) :
    parse float (render v ++ [10]) = some v := by
  refine parse_render_append hv ?_ rfl
  rintro u s ⟨⟩
  decide

/-- Two well-formed values with the same text are equal. -/
theorem render_injective {float : Text → Number} {v w : Json} (hv : v.WellFormed float)
    (hw : w.WellFormed float) (h : render v = render w) : v = w := by
  have hp := parse_render hv
  rw [h, parse_render hw] at hp
  exact (Option.some.inj hp).symm

/-! ## Setting a member -/

theorem lookup_setField (k k' : Text) (v : Json) (fs : List (Text × Json)) :
    lookup k' (setField k v fs) = if k = k' then some v else lookup k' fs := by
  induction fs with
  | nil => simp only [setField, lookup]
  | cons f fs ih =>
    by_cases hf : f.1 = k
    · rw [setField, if_pos hf, lookup, lookup, hf]
      split
      · rfl
      · rfl
    · rw [setField, if_neg hf, lookup, ih, lookup]
      by_cases hk : f.1 = k'
      · rw [if_pos hk, if_pos hk, if_neg]
        rintro rfl
        exact hf hk
      · rw [if_neg hk, if_neg hk]

theorem mem_keys_setField {k k' : Text} {v : Json} {fs : List (Text × Json)} :
    k' ∈ (setField k v fs).map (·.1) ↔ k' = k ∨ k' ∈ fs.map (·.1) := by
  induction fs with
  | nil => simp [setField]
  | cons f fs ih =>
    by_cases hf : f.1 = k
    · rw [setField, if_pos hf]
      simp [hf]
    · rw [setField, if_neg hf, List.map_cons, List.mem_cons, ih, List.map_cons, List.mem_cons]
      exact or_left_comm

theorem setField_nodup {k : Text} {v : Json} {fs : List (Text × Json)} (h : (fs.map (·.1)).Nodup) :
    ((setField k v fs).map (·.1)).Nodup := by
  induction fs with
  | nil => simp [setField]
  | cons f fs ih =>
    rw [List.map_cons, List.nodup_cons] at h
    by_cases hf : f.1 = k
    · rw [setField, if_pos hf, List.map_cons, List.nodup_cons, ← hf]
      exact h
    · rw [setField, if_neg hf, List.map_cons, List.nodup_cons]
      refine ⟨fun hmem => ?_, ih h.2⟩
      rcases mem_keys_setField.1 hmem with heq | hmem
      · exact hf heq
      · exact h.1 hmem

theorem setField_wellFormedFields {float : Text → Number} {k : Text} {v : Json}
    {fs : List (Text × Json)} (hv : v.WellFormed float) (h : WellFormedFields float fs) :
    WellFormedFields float (setField k v fs) := by
  induction fs with
  | nil => exact ⟨hv, trivial⟩
  | cons f fs ih =>
    by_cases hf : f.1 = k
    · rw [setField, if_pos hf]
      exact ⟨hv, h.2⟩
    · rw [setField, if_neg hf]
      exact ⟨h.1, ih h.2⟩

theorem setField_wellFormed {float : Text → Number} {k : Text} {v : Json} {fs : List (Text × Json)}
    (hv : v.WellFormed float) (h : (Json.obj fs).WellFormed float) :
    (Json.obj (setField k v fs)).WellFormed float :=
  ⟨setField_nodup h.1, setField_wellFormedFields hv h.2⟩

end Json
