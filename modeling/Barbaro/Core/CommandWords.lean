import Barbaro.Core.BarbaroCommand
import Barbaro.Lib.ShellWords

/-!
# The words of a command, as the shell reads them

The hooks read the words of a command with a scanner of their own. On a simple command of the
shell it finds the words that quote removal leaves, but for one character: a carriage return
outside quotes ends a command for the hooks, and is a plain character of a word for the shell.

* `scanToken_run`: the scan of one word takes its pieces and stops at the blank behind them.
* `leadingSimpleCommandTokens_words`: the scanner finds the words of the shell, and reads them all.
-/

namespace Barbaro

open Shell

/-! ## Pieces -/

/-- Of the operators that end a command, only the carriage return is nothing special to the shell. -/
theorem special_of_control {u : UInt16} (hcontrol : isShellControl u = true) (hreturn : u ≠ 13) : isSpecial u = true := by
  simp only [isShellControl, Bool.or_eq_true, beq_iff_eq, hreturn, or_false] at hcontrol
  rcases hcontrol with ((((rfl | rfl) | rfl) | rfl) | rfl) | rfl
  all_goals decide

/-- A text in single quotes is taken as it is. -/
theorem scanToken_single {body : JsString} (h : 39 ∉ body) (token : JsString) (started : Bool) (rest : JsString) :
    scanToken .single token started (body ++ 39 :: rest) = scanToken .plain (token ++ body) true rest := by
  induction body generalizing token started with
  | nil =>
    rw [List.nil_append, scanToken, if_pos rfl, List.append_nil]
  | cons u body ih =>
    rw [List.mem_cons, not_or] at h
    rw [List.cons_append, scanToken, if_neg (Ne.symm h.1), ih h.2, List.append_assoc, List.singleton_append]

theorem quotedEscape_value {u : UInt16} (hu : u ≠ 10) : quotedEscape u = Quoted.value (.escaped u) := by
  rw [quotedEscape, Quoted.value, if_neg hu]
  simp only [isEscapable, Bool.or_eq_true, beq_iff_eq, or_assoc]

/-- A text in double quotes is taken as what its characters stand for. -/
theorem scanToken_double {items : List Quoted} (hok : items.all Quoted.ok = true) (token rest : JsString) :
    scanToken .double token true (items.flatMap Quoted.spell ++ 34 :: rest) =
      scanToken .plain (token ++ items.flatMap Quoted.value) true rest := by
  induction items generalizing token with
  | nil => rw [List.flatMap_nil, List.nil_append, scanToken, if_pos rfl, List.flatMap_nil, List.append_nil]
  | cons item items ih =>
    rw [List.all_cons, Bool.and_eq_true] at hok
    rw [List.flatMap_cons, List.flatMap_cons, List.append_assoc]
    cases item with
    | plain u =>
      have hquote : u ≠ 34 := by
        rintro rfl
        exact absurd hok.1 (by decide)
      have hslash : u ≠ 92 := by
        rintro rfl
        exact absurd hok.1 (by decide)
      rw [Quoted.spell, List.singleton_append, scanToken, if_neg hquote, if_neg hslash, ih hok.2, Quoted.value,
        List.append_assoc]
    | escaped u =>
      have hquote : ¬ (92 : UInt16) = 34 := by decide
      rw [Quoted.spell, List.cons_append, List.singleton_append, scanToken, if_neg hquote, if_pos rfl, scanToken]
      by_cases hu : u = 10
      · rw [if_pos hu, ih hok.2, Quoted.value, if_pos hu, List.nil_append]
      · rw [if_neg hu, ih hok.2, quotedEscape_value hu, List.append_assoc]

/-- What a piece of a word is to the scan. -/
theorem scanToken_piece {p : Piece} (hok : p.ok = true) (hblank : Piece.parts isBlank p = false)
    (hreturn : p ≠ .bare 13) (token : JsString) (started : Bool) (rest : JsString) :
    scanToken .plain token started (p.spell ++ rest) =
      scanToken .plain (token ++ p.value) (started || p.visible) rest := by
  cases p with
  | bare u =>
    have hplain : isSpecial u = false := by simpa [Piece.ok] using hok
    have hstop : (isHorizontalWhitespace u || isShellControl u) = false := by
      rw [Bool.or_eq_false_iff]
      refine ⟨hblank, ?_⟩
      rw [← Bool.not_eq_true]
      intro hcontrol
      rw [special_of_control hcontrol (fun h => hreturn (h ▸ rfl))] at hplain
      cases hplain
    have hne : ∀ v, isSpecial v = true → u ≠ v := by
      rintro v hv rfl
      rw [hv] at hplain
      cases hplain
    have hvisible : (Piece.bare u).visible = true := rfl
    rw [Piece.spell, List.singleton_append, scanToken, if_neg (hne 39 (by decide)), if_neg (hne 34 (by decide)),
      if_neg (hne 92 (by decide)), hstop, if_neg Bool.false_ne_true, Piece.value, hvisible, Bool.or_true]
  | escaped u =>
    have hsingle : ¬ (92 : UInt16) = 39 := by decide
    have hdouble : ¬ (92 : UInt16) = 34 := by decide
    rw [Piece.spell, List.cons_append, List.singleton_append, scanToken, if_neg hsingle, if_neg hdouble, if_pos rfl,
      scanToken, Piece.value, Piece.visible]
    by_cases hu : u = 10
    · rw [if_pos hu, if_pos hu, hu, List.append_nil, bne_self_eq_false, Bool.or_false]
    · rw [if_neg hu, if_neg hu, bne_iff_ne.2 hu, Bool.or_true]
  | single text =>
    have htext : 39 ∉ text := by simpa [Piece.ok] using hok
    have hvisible : (Piece.single text).visible = true := rfl
    rw [Piece.spell, List.cons_append, List.cons_append, List.append_assoc, List.singleton_append, scanToken,
      if_pos rfl, scanToken_single htext, Piece.value, hvisible, Bool.or_true]
  | double items =>
    have hsingle : ¬ (34 : UInt16) = 39 := by decide
    have hvisible : (Piece.double items).visible = true := rfl
    rw [Piece.spell, List.cons_append, List.cons_append, List.append_assoc, List.singleton_append, scanToken,
      if_neg hsingle, if_pos rfl, scanToken_double hok, Piece.value, hvisible, Bool.or_true]

/-- **The scan of a word** takes its pieces and stops at the blank behind them. -/
theorem scanToken_run {run : List Piece} (hok : run.all Piece.ok = true)
    (hblank : ∀ p ∈ run, Piece.parts isBlank p = false) (hreturn : .bare 13 ∉ run) {rest : JsString}
    (hrest : ∀ u ∈ rest.head?, isHorizontalWhitespace u = true) (token : JsString) (started : Bool) :
    scanToken .plain token started (spell run ++ rest) =
      ⟨token ++ value run, started || run.any Piece.visible, true, rest⟩ := by
  induction run generalizing token started with
  | nil =>
    rw [spell, List.flatMap_nil, List.nil_append, value, List.flatMap_nil, List.append_nil, List.any_nil, Bool.or_false]
    cases rest with
    | nil => rfl
    | cons v rest =>
      have hv : isHorizontalWhitespace v = true := hrest v rfl
      have hne : ∀ w, isHorizontalWhitespace w = false → v ≠ w := by
        rintro w hw rfl
        rw [hw] at hv
        cases hv
      rw [scanToken, if_neg (hne 39 (by decide)), if_neg (hne 34 (by decide)), if_neg (hne 92 (by decide)), hv,
        Bool.true_or, if_pos rfl]
  | cons p run ih =>
    rw [List.all_cons, Bool.and_eq_true] at hok
    rw [List.mem_cons, not_or] at hreturn
    rw [spell_cons, List.append_assoc, scanToken_piece hok.1 (hblank p (List.mem_cons_self ..)) (Ne.symm hreturn.1),
      ih hok.2 (fun q hq => hblank q (List.mem_cons_of_mem _ hq)) hreturn.2, value_cons, List.append_assoc,
      List.any_cons, Bool.or_assoc]

/-! ## Commands -/

/-- Skipping what `skip` names skips the blanks in front, where it names no beginning of another piece. -/
theorem spell_dropWhile {skip : UInt16 → Bool} {pieces : List Piece}
    (hbare : ∀ u, Piece.bare u ∈ pieces → skip u = isBlank u)
    (hother : skip 92 = false ∧ skip 39 = false ∧ skip 34 = false) :
    (spell pieces).dropWhile skip = spell (pieces.dropWhile (Piece.parts isBlank)) := by
  induction pieces with
  | nil => rfl
  | cons p pieces ih =>
    rw [spell_cons]
    cases p with
    | bare u =>
      have hparts : Piece.parts isBlank (.bare u) = isBlank u := rfl
      rw [Piece.spell, List.singleton_append, List.dropWhile_cons, List.dropWhile_cons, hbare u (List.mem_cons_self ..),
        ih (fun v hv => hbare v (List.mem_cons_of_mem _ hv)), hparts]
      split
      · rfl
      · rw [spell_cons, Piece.spell, List.singleton_append]
    | escaped u =>
      have hparts : Piece.parts isBlank (.escaped u) = false := rfl
      rw [Piece.spell, List.cons_append, List.dropWhile_cons, hother.1, if_neg Bool.false_ne_true,
        List.dropWhile_cons, hparts, if_neg Bool.false_ne_true, spell_cons, Piece.spell, List.cons_append]
      rfl
    | single text =>
      have hparts : Piece.parts isBlank (.single text) = false := rfl
      rw [Piece.spell, List.cons_append, List.cons_append, List.dropWhile_cons, hother.2.1, if_neg Bool.false_ne_true,
        List.dropWhile_cons, hparts, if_neg Bool.false_ne_true, spell_cons, Piece.spell, List.cons_append,
        List.cons_append]
    | double items =>
      have hparts : Piece.parts isBlank (.double items) = false := rfl
      rw [Piece.spell, List.cons_append, List.cons_append, List.dropWhile_cons, hother.2.2, if_neg Bool.false_ne_true,
        List.dropWhile_cons, hparts, if_neg Bool.false_ne_true, spell_cons, Piece.spell, List.cons_append,
        List.cons_append]

theorem words_cons_blank {p : Piece} (hp : Piece.parts isBlank p = true) (pieces : List Piece) :
    words isBlank (p :: pieces) = words isBlank pieces := by
  have h := @words_parted isBlank [] (by simp) _ hp pieces
  simpa using h

theorem words_dropWhile (pieces : List Piece) :
    words isBlank (pieces.dropWhile (Piece.parts isBlank)) = words isBlank pieces := by
  induction pieces with
  | nil => rfl
  | cons p pieces ih =>
    rw [List.dropWhile_cons]
    split
    · next hp => rw [ih, words_cons_blank hp]
    · rfl

/-- The words of a run of pieces and of what follows the blank behind it. -/
theorem words_append {run after : List Piece} (hrun : ∀ p ∈ run, Piece.parts isBlank p = false)
    (hafter : ∀ q ∈ after.head?, Piece.parts isBlank q = true) :
    words isBlank (run ++ after) = (if run.any Piece.visible = true then [run] else []) ++ words isBlank after := by
  cases after with
  | nil =>
    have hnone : words isBlank [] = [] := words_run (by simp)
    rw [List.append_nil, words_run hrun, hnone, List.append_nil]
  | cons q after =>
    have hq := hafter q rfl
    rw [words_parted hrun hq, words_cons_blank hq]

theorem spell_after {after : List Piece} (hafter : ∀ q ∈ after.head?, Piece.parts isBlank q = true) :
    ∀ u ∈ (spell after).head?, isHorizontalWhitespace u = true := by
  intro u hu
  cases after with
  | nil => cases hu
  | cons q after =>
    have hq := hafter q rfl
    cases q with
    | bare v =>
      cases hu
      exact hq
    | _ => cases hq

theorem blank_plain {u : UInt16} (hu : isBlank u = true) : isShellControl u = false := by
  simp only [isBlank, Bool.or_eq_true, beq_iff_eq] at hu
  rcases hu with rfl | rfl
  all_goals decide

/-- The first piece of a word begins a word for the scan too. -/
theorem spell_begins {p : Piece} (hok : p.ok = true) (hblank : Piece.parts isBlank p = false) (hreturn : p ≠ .bare 13)
    (hcomment : p ≠ .bare 35) : ∃ u s, p.spell = u :: s ∧ isShellControl u = false ∧ u ≠ 35 := by
  cases p with
  | bare u =>
    refine ⟨u, [], rfl, ?_, fun h => hcomment (h ▸ rfl)⟩
    rw [← Bool.not_eq_true]
    intro hcontrol
    have hspecial := special_of_control hcontrol (fun h => hreturn (h ▸ rfl))
    simp [Piece.ok, hspecial] at hok
  | escaped u => exact ⟨92, [u], rfl, by decide, by decide⟩
  | single text => exact ⟨39, text ++ [39], rfl, by decide, by decide⟩
  | double items => exact ⟨34, items.flatMap Quoted.spell ++ [34], rfl, by decide, by decide⟩

/-- **Word after word**, by induction on what is left of the command. -/
theorem leadingLoop_words {fuel : ℕ} : ∀ (tokens : List JsString) {pieces : List Piece},
    (spell pieces).length < fuel → pieces.all Piece.ok = true → .bare 13 ∉ pieces →
    (words isBlank pieces).all (fun word => !startsWith 35 word) = true →
    leadingLoop fuel tokens (spell pieces) = ⟨tokens ++ (words isBlank pieces).map value, true, true⟩ := by
  induction fuel with
  | zero =>
    intro tokens pieces hfuel
    exact absurd hfuel (Nat.not_lt_zero _)
  | succ fuel ih =>
    intro tokens pieces hfuel hok hreturn hwords
    have hskip : (spell pieces).dropWhile isHorizontalWhitespace =
        spell (pieces.dropWhile (Piece.parts isBlank)) :=
      spell_dropWhile (fun u _ => rfl) ⟨by decide, by decide, by decide⟩
    have hlength : (spell (pieces.dropWhile (Piece.parts isBlank))).length ≤ (spell pieces).length := by
      rw [← hskip]
      exact (List.dropWhile_suffix _).length_le
    have hsub := List.dropWhile_suffix (l := pieces) (Piece.parts isBlank)
    rw [← words_dropWhile] at hwords ⊢
    rw [leadingLoop, hskip]
    have hhead := List.head?_dropWhile_not (Piece.parts isBlank) pieces
    generalize pieces.dropWhile (Piece.parts isBlank) = ps at hwords hlength hsub hhead ⊢
    have hok : ∀ p ∈ ps, p.ok = true := fun p hp => List.all_eq_true.1 hok p (hsub.mem hp)
    have hreturn : .bare 13 ∉ ps := fun h => hreturn (hsub.mem h)
    cases ps with
    | nil =>
      have hnone : words isBlank [] = [] := words_run (by simp)
      rw [hnone, List.map_nil, List.append_nil]
      rfl
    | cons p ps =>
      have hp : Piece.parts isBlank p = false := by simpa using hhead
      -- the word that begins here, and what follows it
      obtain ⟨run, after, hsplit, hrun, hafter⟩ : ∃ run after, p :: ps = (p :: run) ++ after ∧
          (∀ q ∈ p :: run, Piece.parts isBlank q = false) ∧
          (∀ q ∈ after.head?, Piece.parts isBlank q = true) := by
        refine ⟨ps.takeWhile (fun q => !Piece.parts isBlank q), ps.dropWhile (fun q => !Piece.parts isBlank q), ?_, ?_, ?_⟩
        · rw [List.cons_append, List.takeWhile_append_dropWhile]
        · intro q hq
          rcases List.mem_cons.1 hq with rfl | hq
          · exact hp
          · simpa using List.mem_takeWhile_imp hq
        · intro q hq
          have := List.head?_dropWhile_not (fun q => !Piece.parts isBlank q) ps
          rw [Option.mem_def.1 hq] at this
          simpa using this
      have hsplitOk : ∀ q ∈ (p :: run) ++ after, q.ok = true := hsplit ▸ hok
      have hsplitReturn : .bare 13 ∉ (p :: run) ++ after := hsplit ▸ hreturn
      rw [hsplit, words_append hrun hafter] at hwords
      have hcomment : p ≠ .bare 35 := by
        rintro rfl
        have hvisible : (Piece.bare 35).visible = true := rfl
        rw [List.any_cons, hvisible, Bool.true_or, if_pos rfl, List.cons_append, List.all_cons, Bool.and_eq_true] at hwords
        exact absurd hwords.1 (by simp [startsWith, Piece.visible])
      obtain ⟨u, s, hspell, hcontrol, hne⟩ := spell_begins (hok p (List.mem_cons_self ..)) hp
        (fun h => hreturn (h ▸ List.mem_cons_self ..)) hcomment
      have hbegin : spell (p :: ps) = u :: (s ++ spell ps) := by
        rw [spell_cons, hspell, List.cons_append]
      have hscan : scanToken .plain [] false (u :: (s ++ spell ps)) =
          ⟨value (p :: run), (p :: run).any Piece.visible, true, spell after⟩ := by
        rw [← hbegin, hsplit, spell_append, scanToken_run (List.all_eq_true.2 fun q hq => hsplitOk q (List.mem_append_left _ hq))
          hrun (fun h => hsplitReturn (List.mem_append_left _ h)) (spell_after hafter), List.nil_append, Bool.false_or]
      rw [hsplit, words_append hrun hafter, ← hsplit]
      simp only [hbegin, hcontrol, hne, hscan, Bool.false_eq_true, if_false, Bool.not_true]
      have hall : (words isBlank after).all (fun word => !startsWith 35 word) = true := by
        rw [List.all_append, Bool.and_eq_true] at hwords
        exact hwords.2
      have htokens : ∀ more : List (List Piece),
          (if (p :: run).any Piece.visible = true then tokens ++ [value (p :: run)] else tokens) ++ more.map value =
            tokens ++ ((if (p :: run).any Piece.visible = true then [p :: run] else []) ++ more).map value := by
        intro more
        split
        · rw [List.map_append, List.append_assoc, List.map_singleton]
        · rw [List.nil_append]
      rw [← htokens]
      cases after with
      | nil =>
        have hnone : words isBlank [] = [] := words_run (by simp)
        rw [hnone, List.map_nil, List.append_nil]
        rfl
      | cons q qs =>
        have hq := hafter q rfl
        cases q with
        | bare v =>
          have hv : isShellControl v = false := blank_plain hq
          rw [spell_cons, Piece.spell, List.singleton_append]
          simp only [hv, Bool.false_eq_true, if_false]
          have hshorter : (spell (.bare v :: qs)).length < fuel := by
            rw [hsplit, spell_append, List.length_append, spell_cons, hspell, List.length_append, List.length_cons] at hlength
            omega
          have hmore := fun tokens => ih tokens hshorter (List.all_eq_true.2 fun r hr => hsplitOk r (List.mem_append_right _ hr))
            (fun h => hsplitReturn (List.mem_append_right _ h)) hall
          rw [spell_cons, Piece.spell, List.singleton_append] at hmore
          exact hmore _
        | escaped v => cases hq
        | single text => cases hq
        | double items => cases hq

/-- **The words of a simple command** are the words that the shell reads, and all of it is read. -/
theorem leadingSimpleCommandTokens_words {pieces : List Piece} (hok : pieces.all Piece.ok = true)
    (hreturn : .bare 13 ∉ pieces) (hwords : (words isBlank pieces).all (fun word => !startsWith 35 word) = true) :
    leadingSimpleCommandTokens (spell pieces) = ⟨(words isBlank pieces).map value, true, true⟩ := by
  have htrim : trimLeadingShellSpacing (spell pieces) = spell (pieces.dropWhile (Piece.parts isBlank)) := by
    refine spell_dropWhile ?_ ⟨by decide, by decide, by decide⟩
    intro u hu
    have hne : u ≠ 13 := fun h => hreturn (h ▸ hu)
    have hline : u ≠ 10 := by
      rintro rfl
      exact absurd (List.all_eq_true.1 hok _ hu) (by decide)
    simp only [beq_eq_false_iff_ne.2 hne, beq_eq_false_iff_ne.2 hline, Bool.or_false]
    rfl
  have hsub := List.dropWhile_suffix (l := pieces) (Piece.parts isBlank)
  have hlength : (spell (pieces.dropWhile (Piece.parts isBlank))).length ≤ (spell pieces).length := by
    rw [← htrim]
    exact (List.dropWhile_suffix _).length_le
  rw [leadingSimpleCommandTokens, htrim, leadingLoop_words [] (by omega)
    (List.all_eq_true.2 fun p hp => List.all_eq_true.1 hok p (hsub.mem hp)) (fun h => hreturn (hsub.mem h))
    (by rw [words_dropWhile]; exact hwords), words_dropWhile, List.nil_append]

/-- A shell text of these arguments: pieces of one simple command whose words, after quote removal, they are. -/
structure SpelledWords (args : List JsString) (pieces : List Piece) : Prop where
  ok : pieces.all Piece.ok = true
  reads : (words isBlank pieces).map value = args
  /-- No word is the beginning of a comment. -/
  comment : (words isBlank pieces).all (fun word => !startsWith 35 word) = true

end Barbaro
