import Barbaro.Lib.JsonExtent
import Mathlib.Data.List.TakeWhile

/-!
# The end of an object in a text

The closing brace of an object can be found without parsing it: braces are counted, and those in string literals
are left out. On the text of an object this finds the brace that the parser stops at.

* `balance`: the text up to the closing brace, and what follows it.
* `parse_passes`: what the parser takes leaves the count as it was.
* `balance_object`: the text of an object is found whole.
-/

namespace Json

/-- The text up to the brace that closes the depth, and what follows it. A literal is open, or not; in one the next
unit is escaped, or not. -/
def balance (depth : ℕ) (inString escaped : Bool) : Text → Option (Text × Text)
  | [] => none
  | u :: s =>
    let go depth inString escaped := (balance depth inString escaped s).map (fun q => (u :: q.1, q.2))
    if inString then
      if escaped then go depth true false
      else if u = 92 then go depth true true
      else if u = 34 then go depth false false
      else go depth true false
    else if u = 34 then go depth true false
    else if u = 123 then go (depth + 1) false false
    else if u = 125 then if depth ≤ 1 then some ([u], s) else go (depth - 1) false false
    else go depth false false

/-- The text that was passed, before what is found after it. -/
def prepend (p : Text) (q : Option (Text × Text)) : Option (Text × Text) := q.map (fun q => (p ++ q.1, q.2))

theorem prepend_nil (q : Option (Text × Text)) : prepend [] q = q := by
  cases q <;> rfl

theorem prepend_cons (u : UInt16) (p : Text) (q : Option (Text × Text)) :
    prepend (u :: p) q = (prepend p q).map (fun q => (u :: q.1, q.2)) := by
  cases q <;> rfl

theorem prepend_append (p p' : Text) (q : Option (Text × Text)) : prepend (p ++ p') q = prepend p (prepend p' q) := by
  cases q <;> simp [prepend]

/-! ## Texts that leave the count -/

/-- Outside of literals the text leaves every open depth as it is. -/
def Passes (p : Text) : Prop :=
  ∀ depth r, 1 ≤ depth → balance depth false false (p ++ r) = prepend p (balance depth false false r)

/-- The same within a literal. -/
def PassesIn (p : Text) : Prop :=
  ∀ depth r, balance depth true false (p ++ r) = prepend p (balance depth true false r)

theorem Passes.nil : Passes [] := fun _ _ _ => (prepend_nil _).symm

theorem Passes.append {p p' : Text} (h : Passes p) (h' : Passes p') : Passes (p ++ p') := by
  intro depth r hdepth
  rw [List.append_assoc, h depth _ hdepth, h' depth r hdepth, prepend_append]

theorem PassesIn.append {p p' : Text} (h : PassesIn p) (h' : PassesIn p') : PassesIn (p ++ p') := by
  intro depth r
  rw [List.append_assoc, h, h', prepend_append]

theorem PassesIn.plain {u : UInt16} (h : u ≠ 34) (h' : u ≠ 92) : PassesIn [u] := by
  intro depth r
  simp [balance, h, h', prepend]

/-- An escape takes the unit after it, whatever it is. -/
theorem PassesIn.escape (e : UInt16) : PassesIn [92, e] := by
  intro depth r
  simp [balance, prepend, Function.comp_def]

/-- No quote and no brace. -/
def Bare (u : UInt16) : Prop := u ≠ 34 ∧ u ≠ 123 ∧ u ≠ 125

instance : DecidablePred Bare := fun _ => inferInstanceAs (Decidable (_ ∧ _))

theorem Passes.bare {p : Text} (h : ∀ u ∈ p, Bare u) : Passes p := by
  induction p with
  | nil => exact .nil
  | cons u p ih =>
    intro depth r hdepth
    obtain ⟨h₁, h₂, h₃⟩ := h u List.mem_cons_self
    have hrest := ih (fun w hw => h w (List.mem_cons_of_mem _ hw)) depth r hdepth
    rw [List.cons_append, balance, prepend_cons, ← hrest]
    simp [h₁, h₂, h₃]

/-- A literal. -/
theorem Passes.string {b : Text} (h : PassesIn b) : Passes (34 :: b ++ [34]) := by
  intro depth r hdepth
  have hclose : balance depth true false (34 :: r) = prepend [34] (balance depth false false r) := by
    simp [balance, prepend]
  have hbody : 34 :: b ++ [34] ++ r = 34 :: (b ++ 34 :: r) := by simp
  have hopen : balance depth false false (34 :: (b ++ 34 :: r)) =
      prepend [34] (balance depth true false (b ++ 34 :: r)) := by
    rw [balance]
    simp [prepend]
  rw [hbody, hopen, h, hclose, ← prepend_append, ← prepend_append]
  simp

theorem balance_open (depth : ℕ) (s : Text) :
    balance depth false false (123 :: s) = prepend [123] (balance (depth + 1) false false s) := by
  rw [balance]
  simp [prepend]

/-- An object in another one. -/
theorem Passes.object {p : Text} (h : Passes p) : Passes (123 :: p ++ [125]) := by
  intro depth r hdepth
  have hbody : 123 :: p ++ [125] ++ r = 123 :: (p ++ 125 :: r) := by simp
  have hclose : balance (depth + 1) false false (125 :: r) = prepend [125] (balance depth false false r) := by
    have hinner : ¬ depth + 1 ≤ 1 := by omega
    rw [balance]
    simp [prepend, hinner]
  rw [hbody, balance_open, h (depth + 1) _ (by omega), hclose, ← prepend_append, ← prepend_append]
  simp

/-- **The outermost object** is closed by the brace after what it holds. -/
theorem balance_outer {p : Text} (h : Passes p) (r : Text) :
    balance 0 false false (123 :: p ++ [125] ++ r) = some (123 :: p ++ [125], r) := by
  have hbody : 123 :: p ++ [125] ++ r = 123 :: (p ++ 125 :: r) := by simp
  have hclose : balance 1 false false (125 :: r) = some ([125], r) := by
    rw [balance]
    simp
  rw [hbody, balance_open, h 1 _ (Nat.le_refl 1), hclose]
  simp [prepend]

/-! ## What the parser takes -/

/-- What is taken from a text, up to the rest of it, leaves the count. -/
def Takes (s r : Text) : Prop := ∃ p, s = p ++ r ∧ Passes p

theorem Takes.refl (s : Text) : Takes s s := ⟨[], rfl, .nil⟩

theorem Takes.trans {s r t : Text} (h : Takes s r) (h' : Takes r t) : Takes s t := by
  obtain ⟨p, rfl, hp⟩ := h
  obtain ⟨p', rfl, hp'⟩ := h'
  exact ⟨p ++ p', (List.append_assoc _ _ _).symm, hp.append hp'⟩

theorem Takes.bare {u : UInt16} {s : Text} (h : Bare u) : Takes (u :: s) s :=
  ⟨[u], rfl, .bare fun _ hw => by rw [List.mem_singleton.1 hw]; exact h⟩

/-- What a predicate without quotes and braces takes. -/
theorem Takes.while (q : UInt16 → Bool) (h : ∀ u, q u = true → Bare u) (s : Text) : Takes s (s.dropWhile q) :=
  ⟨s.takeWhile q, (List.takeWhile_append_dropWhile).symm, .bare fun u hu => h u (List.mem_takeWhile_imp hu)⟩

theorem skipWs_takes (s : Text) : Takes s (skipWs s) := by
  refine .while isWs (fun u hu => ⟨?_, ?_, ?_⟩) s
  all_goals
    rintro rfl
    exact absurd hu (by decide)

theorem hexVal_plain {u : UInt16} {n : ℕ} (h : hexVal u = some n) : PassesIn [u] := by
  refine .plain ?_ ?_
  all_goals
    rintro rfl
    exact absurd h (by simp [hexVal])

theorem unhex_passes {a b c d v : UInt16} (h : unhex a b c d = some v) : PassesIn [a, b, c, d] := by
  simp only [unhex, Option.bind_eq_bind, Option.bind_eq_some_iff] at h
  obtain ⟨a', ha, b', hb, c', hc, d', hd, -⟩ := h
  exact (hexVal_plain ha).append ((hexVal_plain hb).append ((hexVal_plain hc).append (hexVal_plain hd)))

theorem parseString_passes {s t r : Text} (h : parseString s = some (t, r)) : ∃ b, s = b ++ 34 :: r ∧ PassesIn b := by
  induction hn : s.length using Nat.strongRecOn generalizing s t r with
  | ind n ih =>
    cases s with
    | nil => cases h
    | cons u s =>
      rw [List.length_cons] at hn
      -- what stands before the rest of the literal
      have hstep : ∀ {v : UInt16} {p s' : Text}, s'.length < n → PassesIn p →
          (parseString s').map (fun q => (v :: q.1, q.2)) = some (t, r) →
            ∃ b, p ++ s' = b ++ 34 :: r ∧ PassesIn b := by
        intro v p s' hlt hp hmap
        obtain ⟨⟨t', r'⟩, hq, heq⟩ := Option.map_eq_some_iff.1 hmap
        obtain rfl : r' = r := congrArg Prod.snd heq
        obtain ⟨b, hb, hpass⟩ := ih _ hlt hq rfl
        exact ⟨p ++ b, by rw [hb, List.append_assoc], hp.append hpass⟩
      unfold parseString at h
      split at h
      · next hquote =>
        cases h
        exact ⟨[], by rw [hquote]; rfl, fun _ _ => (prepend_nil _).symm⟩
      · next hquote =>
        split at h
        · next hescape =>
          rw [hescape]
          split at h
          · cases h
          · next e s =>
            rw [List.length_cons] at hn
            split at h
            · split at h
              · next a b c d s =>
                simp only [List.length_cons] at hn
                split at h
                · next v hv =>
                  exact hstep (p := [92, e, a, b, c, d]) (by omega) ((PassesIn.escape e).append (unhex_passes hv)) h
                · cases h
              · cases h
            · split at h
              · exact hstep (p := [92, e]) (by omega) (.escape e) h
              · cases h
        · next hescape =>
          split at h
          · cases h
          · exact hstep (p := [u]) (by omega) (.plain hquote hescape) h

theorem string_takes {s t r : Text} (h : parseString s = some (t, r)) : Takes (34 :: s) r := by
  obtain ⟨b, rfl, hb⟩ := parseString_passes h
  exact ⟨34 :: b ++ [34], by simp, .string hb⟩

/-! ### Numbers and keywords -/

theorem isDigit_bare {u : UInt16} (h : isDigit u = true) : Bare u := by
  refine ⟨?_, ?_, ?_⟩
  all_goals
    rintro rfl
    exact absurd h (by decide)

theorem scanDigits_takes {s ds r : Text} (h : scanDigits s = some (ds, r)) : Takes s r := by
  unfold scanDigits at h
  split at h
  · cases h
  · cases h
    exact .while isDigit (fun _ => isDigit_bare) s

theorem scanInt_takes {s ds r : Text} (h : scanInt s = some (ds, r)) : Takes s r := by
  unfold scanInt at h
  split at h
  · cases h
    exact .bare (by decide)
  · exact scanDigits_takes h

theorem scanFrac_takes {s ds r : Text} (h : scanFrac s = some (ds, r)) : Takes s r := by
  unfold scanFrac at h
  split at h
  · obtain ⟨⟨ds', r'⟩, hq, heq⟩ := Option.map_eq_some_iff.1 h
    obtain rfl : r' = r := congrArg Prod.snd heq
    exact .trans (.bare (by decide)) (scanDigits_takes hq)
  · cases h
    exact .refl _

theorem scanSign_takes (s : Text) : Takes s (scanSign s).2 := by
  unfold scanSign
  split
  · exact .refl _
  · split
    · next hsign =>
      rcases hsign with rfl | rfl
      · exact .bare (by decide)
      · exact .bare (by decide)
    · exact .refl _

theorem scanExp_takes {s ds r : Text} (h : scanExp s = some (ds, r)) : Takes s r := by
  unfold scanExp at h
  split at h
  · cases h
    exact .refl _
  · next e s =>
    split at h
    · next hexp =>
      obtain ⟨⟨ds', r'⟩, hq, heq⟩ := Option.map_eq_some_iff.1 h
      obtain rfl : r' = r := congrArg Prod.snd heq
      refine .trans (.bare ?_) ((scanSign_takes s).trans (scanDigits_takes hq))
      rcases hexp with rfl | rfl
      · decide
      · decide
    · cases h
      exact .refl _

theorem scanUnsigned_takes {s r : Text} {p : Text × Text} (h : scanUnsigned s = some (p, r)) : Takes s r := by
  simp only [scanUnsigned, Option.bind_eq_bind, Option.bind_eq_some_iff] at h
  obtain ⟨⟨i, s₁⟩, hi, ⟨f, s₂⟩, hf, ⟨e, s₃⟩, he, heq⟩ := h
  cases heq
  exact (scanInt_takes hi).trans ((scanFrac_takes hf).trans (scanExp_takes he))

theorem scanNumber_takes {s r : Text} {p : Bool × Text × Text} (h : scanNumber s = some (p, r)) : Takes s r := by
  unfold scanNumber at h
  split at h
  · cases h
  · split at h
    · next hminus =>
      obtain ⟨⟨q, r'⟩, hq, heq⟩ := Option.map_eq_some_iff.1 h
      obtain rfl : r' = r := congrArg Prod.snd heq
      rw [hminus]
      exact .trans (.bare (by decide)) (scanUnsigned_takes hq)
    · obtain ⟨⟨q, r'⟩, hq, heq⟩ := Option.map_eq_some_iff.1 h
      obtain rfl : r' = r := congrArg Prod.snd heq
      exact scanUnsigned_takes hq

theorem keyword_takes {k s r : Text} {v w : Json} (hk : ∀ u ∈ k, Bare u) (h : keyword k v s = some (w, r)) :
    Takes s r := by
  unfold keyword at h
  split at h
  · next htake =>
    cases h
    have hsplit := List.take_append_drop k.length s
    rw [htake] at hsplit
    exact ⟨k, hsplit.symm, .bare hk⟩
  · cases h

/-! ### Values -/

theorem parseKey_takes {s k r : Text} (h : parseKey s = some (k, r)) : Takes s r := by
  unfold parseKey at h
  split at h
  · cases h
  · next u s =>
    split at h
    · next hquote =>
      split at h
      · cases h
      · next k' t hk =>
        have hws := skipWs_takes t
        split at h
        · cases h
        · next w t' ht =>
          rw [ht] at hws
          split at h
          · next hcolon =>
            cases h
            rw [hquote]
            exact (string_takes hk).trans (hws.trans (.bare (by rw [hcolon]; decide)))
          · cases h
    · cases h

variable {float : Text → Number}

/-- What stands between the braces of an object. -/
theorem parseObject_takes {n : ℕ} (hfields : ∀ s fs r, parseFields float n s = some (fs, r) → Takes s (125 :: r))
    {s r : Text} {v : Json}
    (h : (match skipWs s with
      | [] => none
      | w :: t =>
        if w = 125 then some (.obj [], t)
        else (parseFields float n (w :: t)).map (fun p => (.obj (assign p.1), p.2))) = some (v, r)) :
    Takes s (125 :: r) := by
  have hws := skipWs_takes s
  split at h
  · cases h
  · next w t ht =>
    rw [ht] at hws
    split at h
    · next hbrace =>
      cases h
      rwa [hbrace] at hws
    · obtain ⟨⟨fs, r'⟩, hq, heq⟩ := Option.map_eq_some_iff.1 h
      obtain rfl : r' = r := congrArg Prod.snd heq
      exact hws.trans (hfields _ _ _ hq)

theorem object_takes {s r : Text} (h : Takes s (125 :: r)) : Takes (123 :: s) r := by
  obtain ⟨p, rfl, hp⟩ := h
  exact ⟨123 :: p ++ [125], by simp, .object hp⟩

/-- **What the parser takes** leaves the count: a value, the elements of an array, the members of an object. -/
theorem parse_takes (n : ℕ) :
    (∀ s v r, parseValue float n s = some (v, r) → Takes s r) ∧
    (∀ s vs r, parseItems float n s = some (vs, r) → Takes s r) ∧
    (∀ s fs r, parseFields float n s = some (fs, r) → Takes s (125 :: r)) := by
  induction n with
  | zero =>
    refine ⟨fun s v r h => ?_, fun s vs r h => ?_, fun s fs r h => ?_⟩
    · rw [parseValue] at h; cases h
    · rw [parseItems] at h; cases h
    · rw [parseFields] at h; cases h
  | succ n ih =>
    obtain ⟨ihv, ihi, ihf⟩ := ih
    refine ⟨fun s v r h => ?_, fun s vs r h => ?_, fun s fs r h => ?_⟩
    · rw [parseValue] at h
      have hs := skipWs_takes s
      split at h
      · cases h
      · next u t ht =>
        rw [ht] at hs
        refine hs.trans ?_
        split at h
        · next hquote =>
          obtain ⟨⟨a, r'⟩, hq, heq⟩ := Option.map_eq_some_iff.1 h
          obtain rfl : r' = r := congrArg Prod.snd heq
          rw [hquote]
          exact string_takes hq
        · split at h
          · next hbracket =>
            have hws := skipWs_takes t
            have hopen : Takes (u :: t) t := .bare (by rw [hbracket]; decide)
            split at h
            · cases h
            · next w t' ht' =>
              rw [ht'] at hws
              split at h
              · next hclose =>
                cases h
                exact hopen.trans (hws.trans (.bare (by rw [hclose]; decide)))
              · obtain ⟨⟨a, r'⟩, hq, heq⟩ := Option.map_eq_some_iff.1 h
                obtain rfl : r' = r := congrArg Prod.snd heq
                exact hopen.trans (hws.trans (ihi _ _ _ hq))
          · split at h
            · next hbrace =>
              rw [hbrace]
              exact object_takes (parseObject_takes ihf h)
            · split at h
              · next hnull =>
                rw [hnull]
                exact .trans (.bare (by decide)) (keyword_takes (by simp [Bare]) h)
              · split at h
                · next htrue =>
                  rw [htrue]
                  exact .trans (.bare (by decide)) (keyword_takes (by simp [Bare]) h)
                · split at h
                  · next hfalse =>
                    rw [hfalse]
                    exact .trans (.bare (by decide)) (keyword_takes (by simp [Bare]) h)
                  · obtain ⟨⟨p, r'⟩, hq, heq⟩ := Option.map_eq_some_iff.1 h
                    obtain rfl : r' = r := congrArg Prod.snd heq
                    exact scanNumber_takes hq
    · rw [parseItems] at h
      split at h
      · cases h
      · next v t ht =>
        have hws := skipWs_takes t
        refine (ihv _ _ _ ht).trans ?_
        split at h
        · cases h
        · next w t' ht' =>
          rw [ht'] at hws
          refine hws.trans ?_
          split at h
          · next hcomma =>
            obtain ⟨⟨a, r'⟩, hq, heq⟩ := Option.map_eq_some_iff.1 h
            obtain rfl : r' = r := congrArg Prod.snd heq
            exact .trans (.bare (by rw [hcomma]; decide)) (ihi _ _ _ hq)
          · split at h
            · next hclose =>
              cases h
              exact .bare (by rw [hclose]; decide)
            · cases h
    · rw [parseFields] at h
      split at h
      · cases h
      · next k t ht =>
        refine (skipWs_takes s).trans ((parseKey_takes ht).trans ?_)
        split at h
        · cases h
        · next v t' hv =>
          have hws := skipWs_takes t'
          refine (ihv _ _ _ hv).trans ?_
          split at h
          · cases h
          · next w t'' hw =>
            rw [hw] at hws
            split at h
            · next hcomma =>
              obtain ⟨⟨a, r'⟩, hq, heq⟩ := Option.map_eq_some_iff.1 h
              obtain rfl : r' = r := congrArg Prod.snd heq
              exact hws.trans (.trans (.bare (by rw [hcomma]; decide)) (ihf _ _ _ hq))
            · split at h
              · next hclose =>
                cases h
                rwa [hclose] at hws
              · cases h

/-- **The text of an object is found whole**, from its first brace to its last. -/
theorem balance_object {s : Text} {v : Json} (h : parse float (123 :: s) = some v) (hlast : s.getLast? = some 125)
    (r : Text) : balance 0 false false (123 :: s ++ r) = some (123 :: s, r) := by
  have hwhole : ∃ r₀, Takes s (125 :: r₀) ∧ skipWs r₀ = [] := by
    rw [parse, List.length_cons, parseValue] at h
    split at h
    · next v' r₀ hvalue =>
      have hfirst : skipWs (123 :: s) = 123 :: s := rfl
      rw [hfirst] at hvalue
      refine ⟨r₀, parseObject_takes (parse_takes _).2.2 hvalue, ?_⟩
      split at h
      · assumption
      · cases h
    · cases h
  obtain ⟨r₀, ⟨p, rfl, hp⟩, hrest⟩ := hwhole
  -- nothing but white space follows the brace, and the text ends with it
  have hnone : r₀ = [] := by
    rcases List.eq_nil_or_concat r₀ with hnil | ⟨front, last, rfl⟩
    · exact hnil
    · have hall := List.dropWhile_eq_nil_iff.1 hrest
      have hws := hall last (by simp)
      rw [List.concat_eq_append, ← List.cons_append, ← List.append_assoc, List.getLast?_concat] at hlast
      rw [Option.some.inj hlast] at hws
      exact absurd hws (by decide)
  rw [hnone]
  exact balance_outer hp r

end Json
