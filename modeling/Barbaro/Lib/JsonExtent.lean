import Barbaro.Lib.Json

/-!
# The text of a value is at least as long as its strings

A reader takes every unit of a string from its text, so the strings of a value that was
read are no longer than the text.

* `parseValue_length`: what is read is taken from the beginning.
* `parse_member_length`: the strings among the members of an object that was read.
-/

namespace Json

theorem skipWs_length (s : Text) : (skipWs s).length ≤ s.length :=
  (List.dropWhile_suffix _).length_le

theorem dropDigits_length (s : Text) : (s.dropWhile isDigit).length ≤ s.length :=
  (List.dropWhile_suffix _).length_le

theorem scanDigits_length {s ds r : Text} (h : scanDigits s = some (ds, r)) : r.length ≤ s.length := by
  unfold scanDigits at h
  split at h
  · cases h
  · simp only [Option.some.injEq, Prod.mk.injEq] at h
    rw [← h.2]
    exact dropDigits_length s

theorem scanInt_length {s ds r : Text} (h : scanInt s = some (ds, r)) : r.length ≤ s.length := by
  unfold scanInt at h
  split at h
  · simp only [Option.some.injEq, Prod.mk.injEq] at h
    rw [← h.2, List.length_cons]
    omega
  · exact scanDigits_length h

theorem scanFrac_length {s ds r : Text} (h : scanFrac s = some (ds, r)) : r.length ≤ s.length := by
  unfold scanFrac at h
  split at h
  · obtain ⟨⟨d, t⟩, hd, heq⟩ := Option.map_eq_some_iff.1 h
    have hle := scanDigits_length hd
    obtain rfl : t = r := congrArg Prod.snd heq
    rw [List.length_cons]
    omega
  · simp only [Option.some.injEq, Prod.mk.injEq] at h
    exact Nat.le_of_eq (congrArg List.length h.2.symm)

theorem scanSign_length (s : Text) : (scanSign s).2.length ≤ s.length := by
  unfold scanSign
  split
  · simp
  · split
    · simp
    · simp

theorem scanExp_length {s ds r : Text} (h : scanExp s = some (ds, r)) : r.length ≤ s.length := by
  unfold scanExp at h
  split at h
  · simp only [Option.some.injEq, Prod.mk.injEq] at h
    exact Nat.le_of_eq (congrArg List.length h.2.symm)
  · next e s =>
    split at h
    · obtain ⟨⟨d, t⟩, hd, heq⟩ := Option.map_eq_some_iff.1 h
      have hle := scanDigits_length hd
      have hsign := scanSign_length s
      obtain rfl : t = r := congrArg Prod.snd heq
      rw [List.length_cons]
      omega
    · simp only [Option.some.injEq, Prod.mk.injEq] at h
      exact Nat.le_of_eq (congrArg List.length h.2.symm)

theorem scanUnsigned_length {s r : Text} {p : Text × Text} (h : scanUnsigned s = some (p, r)) :
    r.length ≤ s.length := by
  simp only [scanUnsigned, Option.bind_eq_bind, Option.bind_eq_some_iff] at h
  obtain ⟨⟨i, s₁⟩, hi, ⟨f, s₂⟩, hf, ⟨e, s₃⟩, he, heq⟩ := h
  have h₁ := scanInt_length hi
  have h₂ := scanFrac_length hf
  have h₃ := scanExp_length he
  dsimp only at h₂ h₃
  obtain rfl : s₃ = r := congrArg Prod.snd (Option.some.inj heq)
  omega

theorem scanNumber_length {s r : Text} {p : Bool × Text × Text} (h : scanNumber s = some (p, r)) :
    r.length ≤ s.length := by
  unfold scanNumber at h
  split at h
  · cases h
  · next u s =>
    rw [List.length_cons]
    split at h
    · obtain ⟨⟨q, t⟩, hq, heq⟩ := Option.map_eq_some_iff.1 h
      have hle := scanUnsigned_length hq
      obtain rfl : t = r := congrArg Prod.snd heq
      omega
    · obtain ⟨⟨q, t⟩, hq, heq⟩ := Option.map_eq_some_iff.1 h
      have hle := scanUnsigned_length hq
      obtain rfl : t = r := congrArg Prod.snd heq
      rwa [List.length_cons] at hle

theorem keyword_length {k s r : Text} {v w : Json} (h : keyword k v s = some (w, r)) :
    r.length ≤ s.length := by
  unfold keyword at h
  split at h
  · simp only [Option.some.injEq, Prod.mk.injEq] at h
    rw [← h.2, List.length_drop]
    omega
  · cases h

/-- A string and what follows it are no longer than the text, the closing quote aside. -/
theorem parseString_length {s t r : Text} (h : parseString s = some (t, r)) :
    t.length + r.length < s.length := by
  induction hn : s.length using Nat.strongRecOn generalizing s t r with
  | ind n ih =>
    cases s with
    | nil => cases h
    | cons u s =>
      rw [List.length_cons] at hn
      -- one unit more in front
      have hstep : ∀ {v : UInt16} {s' : Text}, s'.length < n →
          (parseString s').map (fun q => (v :: q.1, q.2)) = some (t, r) → t.length + r.length < s'.length + 1 := by
        intro v s' hlt hmap
        obtain ⟨⟨t', r'⟩, hq, heq⟩ := Option.map_eq_some_iff.1 hmap
        have hle := ih _ hlt hq rfl
        obtain ⟨rfl, rfl⟩ : v :: t' = t ∧ r' = r := Prod.mk.inj heq
        rw [List.length_cons]
        omega
      unfold parseString at h
      split at h
      · simp only [Option.some.injEq, Prod.mk.injEq] at h
        rw [← h.1, ← h.2, List.length_nil]
        omega
      · split at h
        · split at h
          · cases h
          · next e s =>
            rw [List.length_cons] at hn
            split at h
            · split at h
              · next a b c d s =>
                simp only [List.length_cons] at hn
                split at h
                · have := hstep (by omega) h
                  omega
                · cases h
              · cases h
            · split at h
              · have := hstep (by omega) h
                omega
              · cases h
        · split at h
          · cases h
          · have := hstep (by omega) h
            omega

theorem parseKey_length {s k r : Text} (h : parseKey s = some (k, r)) : r.length ≤ s.length := by
  unfold parseKey at h
  split at h
  · cases h
  · next u s =>
    split at h
    · split at h
      · cases h
      · next k' t hk =>
        have hle := parseString_length hk
        have hws := skipWs_length t
        split at h
        · cases h
        · next w t' ht =>
          rw [ht, List.length_cons] at hws
          split at h
          · simp only [Option.some.injEq, Prod.mk.injEq] at h
            rw [← h.2, List.length_cons]
            omega
          · cases h
    · cases h

variable {float : Text → Number}

/-- **What is read is taken from the beginning** of the text: by values, by the elements
of an array and by the members of an object. -/
theorem parse_length (n : ℕ) :
    (∀ s v r, parseValue float n s = some (v, r) → r.length ≤ s.length) ∧
    (∀ s vs r, parseItems float n s = some (vs, r) → r.length ≤ s.length) ∧
    (∀ s fs r, parseFields float n s = some (fs, r) → r.length ≤ s.length) := by
  induction n with
  | zero =>
    refine ⟨fun s v r h => ?_, fun s vs r h => ?_, fun s fs r h => ?_⟩
    · rw [parseValue] at h; cases h
    · rw [parseItems] at h; cases h
    · rw [parseFields] at h; cases h
  | succ n ih =>
    obtain ⟨ihv, ihi, ihf⟩ := ih
    have hmap : ∀ {α β : Type} {p : Option (α × Text)} {f : α → β} {s r : Text} {b : β},
        (∀ a t, p = some (a, t) → t.length ≤ s.length) →
          p.map (fun q => (f q.1, q.2)) = some (b, r) → r.length ≤ s.length := by
      intro α β p f s r b hp h
      obtain ⟨⟨a, t⟩, hq, heq⟩ := Option.map_eq_some_iff.1 h
      obtain rfl : t = r := congrArg Prod.snd heq
      exact hp a t hq
    refine ⟨fun s v r h => ?_, fun s vs r h => ?_, fun s fs r h => ?_⟩
    · rw [parseValue] at h
      have hs := skipWs_length s
      split at h
      · cases h
      · next u t ht =>
        rw [ht, List.length_cons] at hs
        have hws := skipWs_length t
        refine Nat.le_trans (m := t.length + 1) ?_ hs
        split at h
        · have := hmap (s := t) (fun a r' hr => by have := parseString_length hr; omega) h
          omega
        · split at h
          · split at h
            · cases h
            · next w t' ht' =>
              rw [ht', List.length_cons] at hws
              split at h
              · simp only [Option.some.injEq, Prod.mk.injEq] at h
                rw [← h.2]
                omega
              · have := hmap (fun a r' hr => ihi _ _ _ hr) h
                rw [List.length_cons] at this
                omega
          · split at h
            · split at h
              · cases h
              · next w t' ht' =>
                rw [ht', List.length_cons] at hws
                split at h
                · simp only [Option.some.injEq, Prod.mk.injEq] at h
                  rw [← h.2]
                  omega
                · have := hmap (f := fun fs => obj (assign fs)) (fun a r' hr => ihf _ _ _ hr) h
                  rw [List.length_cons] at this
                  omega
            · split at h
              · have := keyword_length h
                omega
              · split at h
                · have := keyword_length h
                  omega
                · split at h
                  · have := keyword_length h
                    omega
                  · obtain ⟨⟨p, t'⟩, hq, heq⟩ := Option.map_eq_some_iff.1 h
                    obtain rfl : t' = r := congrArg Prod.snd heq
                    have := scanNumber_length hq
                    rwa [List.length_cons] at this
    · rw [parseItems] at h
      split at h
      · cases h
      · next v t ht =>
        have hv := ihv _ _ _ ht
        have hws := skipWs_length t
        split at h
        · cases h
        · next w t' ht' =>
          rw [ht', List.length_cons] at hws
          split at h
          · have := hmap (fun a r' hr => ihi _ _ _ hr) h
            omega
          · split at h
            · simp only [Option.some.injEq, Prod.mk.injEq] at h
              rw [← h.2]
              omega
            · cases h
    · rw [parseFields] at h
      split at h
      · cases h
      · next k t ht =>
        have hk := parseKey_length ht
        have hs := skipWs_length s
        split at h
        · cases h
        · next v t' hv =>
          have hval := ihv _ _ _ hv
          have hws := skipWs_length t'
          split at h
          · cases h
          · next w t'' hw =>
            rw [hw, List.length_cons] at hws
            split at h
            · have := hmap (f := fun fs => (k, v) :: fs) (fun a r' hr => ihf _ _ _ hr) h
              omega
            · split at h
              · simp only [Option.some.injEq, Prod.mk.injEq] at h
                rw [← h.2]
                omega
              · cases h

theorem parseValue_length {n : ℕ} {s r : Text} {v : Json} (h : parseValue float n s = some (v, r)) :
    r.length ≤ s.length := (parse_length n).1 s v r h

/-! ## Strings -/

/-- A string that was read is no longer than the text. -/
theorem parseValue_str {n : ℕ} {s t r : Text} (h : parseValue float n s = some (.str t, r)) :
    t.length ≤ s.length := by
  cases n with
  | zero => rw [parseValue] at h; cases h
  | succ n =>
    rw [parseValue] at h
    have hs := skipWs_length s
    split at h
    · cases h
    · next u q hq =>
      rw [hq, List.length_cons] at hs
      split at h
      · obtain ⟨⟨t', r'⟩, hp, heq⟩ := Option.map_eq_some_iff.1 h
        have hlt := parseString_length hp
        simp only [Prod.mk.injEq, str.injEq] at heq
        obtain ⟨rfl, -⟩ := heq
        omega
      · -- every other first unit starts a value that is no string
        exfalso
        have hkeyword : ∀ k (v : Json), (∀ t, v ≠ .str t) → keyword k v q ≠ some (.str t, r) := by
          intro k v hv hk
          unfold keyword at hk
          split at hk
          · simp only [Option.some.injEq, Prod.mk.injEq] at hk
            exact hv t hk.1
          · cases hk
        split at h
        · split at h
          · cases h
          · split at h
            · cases h
            · obtain ⟨p, -, heq⟩ := Option.map_eq_some_iff.1 h
              cases heq
        · split at h
          · split at h
            · cases h
            · split at h
              · cases h
              · obtain ⟨p, -, heq⟩ := Option.map_eq_some_iff.1 h
                cases heq
          · split at h
            · exact hkeyword _ _ (by simp) h
            · split at h
              · exact hkeyword _ _ (by simp) h
              · split at h
                · exact hkeyword _ _ (by simp) h
                · obtain ⟨p, -, heq⟩ := Option.map_eq_some_iff.1 h
                  cases heq

theorem mem_setField {k : Text} {v : Json} {fs : List (Text × Json)} {f : Text × Json}
    (h : f ∈ setField k v fs) : f = (k, v) ∨ f ∈ fs := by
  induction fs with
  | nil => simpa [setField] using h
  | cons g fs ih =>
    rw [setField] at h
    split at h
    · rcases List.mem_cons.1 h with rfl | h
      · exact .inl rfl
      · exact .inr (List.mem_cons_of_mem _ h)
    · rcases List.mem_cons.1 h with rfl | h
      · exact .inr (by simp)
      · exact (ih h).imp id (List.mem_cons_of_mem _)

/-- The members of an object literal are among those of its text. -/
theorem mem_assign {fs : List (Text × Json)} {f : Text × Json} (h : f ∈ assign fs) : f ∈ fs := by
  have hfold : ∀ (fs o : List (Text × Json)),
      f ∈ fs.foldl (fun o g => setField g.1 g.2 o) o → f ∈ o ∨ f ∈ fs := by
    intro fs
    induction fs with
    | nil => exact fun o h => .inl h
    | cons g fs ih =>
      intro o h
      rcases ih _ h with h | h
      · rcases mem_setField h with rfl | h
        · exact .inr (by simp)
        · exact .inl h
      · exact .inr (List.mem_cons_of_mem _ h)
  rcases hfold fs [] h with h | h
  · cases h
  · exact h

theorem mem_of_lookup {k : Text} {v : Json} {fs : List (Text × Json)} (h : lookup k fs = some v) :
    (k, v) ∈ fs := by
  induction fs with
  | nil => cases h
  | cons g fs ih =>
    obtain ⟨k', v'⟩ := g
    rw [lookup] at h
    split at h
    · next hk =>
      cases h
      rw [hk]
      simp
    · exact List.mem_cons_of_mem _ (ih h)

theorem parseFields_str {n : ℕ} {s r : Text} {fs : List (Text × Json)}
    (h : parseFields float n s = some (fs, r)) {k t : Text} (hmem : (k, Json.str t) ∈ fs) :
    t.length ≤ s.length := by
  induction n generalizing s r fs with
  | zero => rw [parseFields] at h; cases h
  | succ n ih =>
    rw [parseFields] at h
    split at h
    · cases h
    · next k' q hq =>
      have hk := parseKey_length hq
      have hs := skipWs_length s
      split at h
      · cases h
      · next v q' hv =>
        have hval := parseValue_length hv
        have hws := skipWs_length q'
        split at h
        · cases h
        · next w q'' hw =>
          rw [hw, List.length_cons] at hws
          -- the first member, or one of the rest
          have hfirst : (k, Json.str t) = (k', v) → t.length ≤ s.length := by
            intro heq
            obtain ⟨-, rfl⟩ := Prod.mk.inj heq
            have := parseValue_str hv
            omega
          split at h
          · obtain ⟨⟨gs, r'⟩, hgs, heq⟩ := Option.map_eq_some_iff.1 h
            obtain ⟨rfl, -⟩ : (k', v) :: gs = fs ∧ r' = r := Prod.mk.inj heq
            rcases List.mem_cons.1 hmem with hmem | hmem
            · exact hfirst hmem
            · have := ih hgs hmem
              omega
          · split at h
            · simp only [Option.some.injEq, Prod.mk.injEq] at h
              obtain ⟨rfl, -⟩ := h
              exact hfirst (List.mem_singleton.1 hmem)
            · cases h

/-- **The strings among the members of an object are no longer than its text.** -/
theorem parse_member_length {s k t : Text} {v : Json} (h : parse float s = some v)
    (hget : v.get k = some (.str t)) : t.length ≤ s.length := by
  unfold parse at h
  split at h
  · next v' r hv =>
    split at h
    · cases h
      rw [parseValue] at hv
      have hs := skipWs_length s
      -- only an object has members
      have hobj : ∀ (w : Json), (∀ fs, w ≠ .obj fs) → v ≠ w := by
        rintro w hw rfl
        cases v with
        | obj fs => exact hw fs rfl
        | _ => cases hget
      have hkeyword : ∀ {key q : Text} {w : Json}, (∀ fs, w ≠ .obj fs) → keyword key w q ≠ some (v, r) := by
        intro key q w hw hk
        unfold keyword at hk
        split at hk
        · simp only [Option.some.injEq, Prod.mk.injEq] at hk
          exact hobj w hw hk.1.symm
        · cases hk
      have hother : ∀ {α : Type} {p : Option (α × Text)} {f : α → Json}, (∀ a fs, f a ≠ .obj fs) →
          p.map (fun q => (f q.1, q.2)) ≠ some (v, r) := by
        intro α p f hf hp
        obtain ⟨q, -, heq⟩ := Option.map_eq_some_iff.1 hp
        exact hobj (f q.1) (hf q.1) (congrArg Prod.fst heq).symm
      split at hv
      · cases hv
      · next u q hq =>
        rw [hq, List.length_cons] at hs
        have hws := skipWs_length q
        split at hv
        · exact absurd hv (hother (fun _ _ => by simp))
        · split at hv
          · split at hv
            · cases hv
            · split at hv
              · simp only [Option.some.injEq, Prod.mk.injEq] at hv
                exact absurd hv.1.symm (hobj _ (by simp))
              · exact absurd hv (hother (fun _ _ => by simp))
          · split at hv
            · split at hv
              · cases hv
              · next w q' hw =>
                rw [hw, List.length_cons] at hws
                split at hv
                · simp only [Option.some.injEq, Prod.mk.injEq] at hv
                  rw [← hv.1] at hget
                  cases hget
                · obtain ⟨⟨fs, r'⟩, hfs, heq⟩ := Option.map_eq_some_iff.1 hv
                  obtain ⟨rfl, -⟩ : obj (assign fs) = v ∧ r' = r := Prod.mk.inj heq
                  have hmem := mem_assign (mem_of_lookup hget)
                  have := parseFields_str hfs hmem
                  rw [List.length_cons] at this
                  omega
            · split at hv
              · exact absurd hv (hkeyword (by simp))
              · split at hv
                · exact absurd hv (hkeyword (by simp))
                · split at hv
                  · exact absurd hv (hkeyword (by simp))
                  · obtain ⟨p, -, heq⟩ := Option.map_eq_some_iff.1 hv
                    exact absurd (congrArg Prod.fst heq).symm (hobj _ (by simp))
    · cases h
  · cases h

end Json
