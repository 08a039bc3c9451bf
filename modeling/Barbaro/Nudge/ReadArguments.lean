import Barbaro.Core.Content
import Barbaro.Core.CommandWords

/-!
# The arguments of a read command

A hook that is to bind a read to what the model was shown reads the command that asked for it.
It has a tokenizer of its own, which refuses what the shell may expand or chain, and takes only
the variables it knows itself.

* `readCommandArguments`: the arguments of `barbaro read`, if the whole command is one.
* `readCommand_tokens`: the digests read the same words in it, so the command stays out of them.
* `readCommand_quoted`: however the arguments are quoted, they are read back.
-/

namespace Barbaro.Nudge

open Shell

/-! ## The tokenizer -/

def readVariables : List String := ["PWD", "CODEX_SESSION_ID", "CLAUDE_CODE_SESSION_ID"]

/-- The variable that follows a `$`, in braces or not, and how much of the text it takes. -/
def variableAt (text : JsString) : Option (JsString × ℕ) :=
  (readVariables.findSome? fun name =>
    let braced := 123 :: js name ++ [125]
    if braced.isPrefixOf text then some (js name, braced.length) else none) <|>
  (readVariables.findSome? fun name =>
    if (js name).isPrefixOf text && !(text.drop (js name).length).head?.any isNameUnit then
      some (js name, (js name).length)
    else none)

/-- What no command may hold: the ends of lines, `;`, `|`, `&`, `<`, `>`, the backquote, `#` and NUL. -/
def isReadRefused (u : UInt16) : Bool :=
  u == 13 || u == 10 || u == 59 || u == 124 || u == 38 || u == 60 || u == 62 || u == 96 || u == 35 || u == 0

/-- What may not stand outside quotes: parentheses, patterns, braces, `~` and `!`. -/
def isReadBare (u : UInt16) : Bool :=
  u == 40 || u == 41 || u == 42 || u == 63 || u == 91 || u == 93 || u == 123 || u == 125 || u == 126 || u == 33

/-- What outside quotes would be split or matched after its expansion. -/
def isExpanded (u : UInt16) : Bool := isTrimUnit u || u == 42 || u == 63 || u == 91 || u == 93

section
variable (known : JsString → Option JsString)

/-- The loop over the characters. The number is of characters that an expansion has taken; a
backslash is kept in mind until the character it escapes. -/
def readTokens : ShellMode → List JsString → JsString → Bool → ℕ → JsString → Option (List JsString)
  | mode, tokens, token, started, _, [] =>
    if mode = .plain then some (if started then tokens ++ [token] else tokens) else none
  | mode, tokens, token, started, skip + 1, _ :: s => readTokens mode tokens token started skip s
  | .plain, tokens, token, started, 0, u :: s =>
    if u = 39 then readTokens .single tokens token true 0 s
    else if u = 34 then readTokens .double tokens token true 0 s
    else if u = 36 then
      match variableAt s with
      | none => none
      | some (name, length) =>
        match known name with
        | none => none
        | some value =>
          -- an expansion outside quotes may split or match, and is refused instead
          if value.any isExpanded then none else readTokens .plain tokens (token ++ value) true length s
    else if u = 92 then readTokens .escaped tokens token started 0 s
    else if isReadBare u then none
    else if isHorizontalWhitespace u then readTokens .plain (if started then tokens ++ [token] else tokens) [] false 0 s
    else readTokens .plain tokens (token ++ [u]) true 0 s
  | .escaped, tokens, token, _, 0, u :: s => readTokens .plain tokens (token ++ [u]) true 0 s
  | .single, tokens, token, started, 0, u :: s =>
    if u = 39 then readTokens .plain tokens token started 0 s else readTokens .single tokens (token ++ [u]) true 0 s
  | .double, tokens, token, started, 0, u :: s =>
    if u = 34 then readTokens .plain tokens token started 0 s
    else if u = 36 then
      match variableAt s with
      | none => none
      | some (name, length) =>
        match known name with
        | none => none
        | some value => readTokens .double tokens (token ++ value) true length s
    else if u = 92 then readTokens .doubleEscaped tokens token started 0 s
    else readTokens .double tokens (token ++ [u]) true 0 s
  | .doubleEscaped, tokens, token, _, 0, u :: s => readTokens .double tokens (token ++ quotedEscape u) true 0 s

/-- Admit one foreground shell invocation. -/
def readCommandArguments (command : JsString) : Option (List JsString) :=
  if byteLength command > 8192 || command.any isReadRefused then none
  else
    match readTokens known .plain [] [] false 0 command with
    | none => none
    | some tokens =>
      if tokens[0]? ≠ some (js "barbaro") ∨ tokens[1]? ≠ some (js "read") then none else some (tokens.drop 2)

end

/-! ## The other tokenizer -/

/-- The words, with the one that was read last. -/
def ended (tokens : List JsString) (word : TokenScan) : List JsString :=
  if word.started then tokens ++ [word.token] else tokens

/-- Where the loop stands after a word: at the end, or behind a blank. -/
structure WordEnd (known : JsString → Option JsString) (tokens : List JsString) (word : TokenScan) (s : JsString)
    (result : List JsString) : Prop where
  valid : word.valid = true
  suffix : word.rest <:+ s
  goes : (word.rest = [] ∧ result = ended tokens word) ∨
    ∃ v rest, word.rest = v :: rest ∧ isHorizontalWhitespace v = true ∧
      readTokens known .plain (ended tokens word) [] false 0 rest = some result

section
variable {known : JsString → Option JsString}

theorem WordEnd.cons {tokens : List JsString} {word : TokenScan} {s : JsString} {result : List JsString}
    (h : WordEnd known tokens word s result) (u : UInt16) : WordEnd known tokens word (u :: s) result :=
  ⟨h.valid, h.suffix.trans (List.suffix_cons u s), h.goes⟩

/-- What neither expands nor ends a command for the other tokenizer. -/
def Plain (s : JsString) : Prop := ∀ u ∈ s, u ≠ 36 ∧ isReadRefused u = false

theorem plain_control {u : UInt16} (h : isReadRefused u = false) : isShellControl u = false ∧ u ≠ 35 ∧ u ≠ 10 := by
  simp only [isReadRefused, Bool.or_eq_false_iff, beq_eq_false_iff_ne] at h
  simp only [isShellControl, Bool.or_eq_false_iff, beq_eq_false_iff_ne]
  tauto

/-- Between quotes a word has begun. -/
def Begun (mode : ShellMode) (started : Bool) : Prop :=
  mode = .single ∨ mode = .double ∨ mode = .doubleEscaped → started = true

theorem Begun.true (mode : ShellMode) : Begun mode true := fun _ => rfl

/-- **Both tokenizers read a word alike**, character by character. -/
theorem readTokens_word {tokens : List JsString} {result : List JsString} : ∀ {s : JsString} {mode : ShellMode}
    {token : JsString} {started : Bool}, Plain s → Begun mode started →
    readTokens known mode tokens token started 0 s = some result →
    WordEnd known tokens (scanToken mode token started s) s result := by
  intro s
  induction s with
  | nil =>
    intro mode token started hplain hbegun h
    rw [readTokens] at h
    split at h
    · next hmode =>
      subst hmode
      exact ⟨rfl, List.suffix_rfl, .inl ⟨rfl, (Option.some.inj h).symm⟩⟩
    · cases h
  | cons u s ih =>
    intro mode token started hplain hbegun h
    obtain ⟨hdollar, hrefused⟩ := hplain u (List.mem_cons_self ..)
    obtain ⟨hcontrol, -, hline⟩ := plain_control hrefused
    have hrest : Plain s := fun v hv => hplain v (List.mem_cons_of_mem _ hv)
    cases mode with
    | plain =>
      rw [readTokens] at h
      rw [scanToken]
      by_cases hsingle : u = 39
      · rw [if_pos hsingle] at h ⊢
        exact (ih hrest (.true _) h).cons u
      by_cases hdouble : u = 34
      · rw [if_neg hsingle, if_pos hdouble] at h ⊢
        exact (ih hrest (.true _) h).cons u
      by_cases hslash : u = 92
      · rw [if_neg hsingle, if_neg hdouble, if_neg hdollar, if_pos hslash] at h
        rw [if_neg hsingle, if_neg hdouble, if_pos hslash]
        refine (ih hrest ?_ h).cons u
        intro hmode
        rcases hmode with hmode | hmode | hmode
        all_goals cases hmode
      rw [if_neg hsingle, if_neg hdouble, if_neg hdollar, if_neg hslash] at h
      rw [if_neg hsingle, if_neg hdouble, if_neg hslash, hcontrol, Bool.or_false]
      by_cases hbare : isReadBare u = true
      · rw [if_pos hbare] at h
        cases h
      rw [if_neg hbare] at h
      by_cases hblank : isHorizontalWhitespace u = true
      · rw [if_pos hblank] at h ⊢
        exact ⟨rfl, List.suffix_rfl, .inr ⟨u, s, rfl, hblank, h⟩⟩
      · rw [if_neg hblank] at h ⊢
        exact (ih hrest (.true _) h).cons u
    | escaped =>
      rw [readTokens] at h
      rw [scanToken, if_neg hline]
      exact (ih hrest (.true _) h).cons u
    | single =>
      have hstarted : started = true := hbegun (.inl rfl)
      subst hstarted
      rw [readTokens] at h
      rw [scanToken]
      by_cases hsingle : u = 39
      · rw [if_pos hsingle] at h ⊢
        exact (ih hrest (.true _) h).cons u
      · rw [if_neg hsingle] at h ⊢
        exact (ih hrest (.true _) h).cons u
    | double =>
      have hstarted : started = true := hbegun (.inr (.inl rfl))
      subst hstarted
      rw [readTokens] at h
      rw [scanToken]
      by_cases hdouble : u = 34
      · rw [if_pos hdouble] at h ⊢
        exact (ih hrest (.true _) h).cons u
      by_cases hslash : u = 92
      · rw [if_neg hdouble, if_neg hdollar, if_pos hslash] at h
        rw [if_neg hdouble, if_pos hslash]
        exact (ih hrest (.true _) h).cons u
      · rw [if_neg hdouble, if_neg hdollar, if_neg hslash] at h
        rw [if_neg hdouble, if_neg hslash]
        exact (ih hrest (.true _) h).cons u
    | doubleEscaped =>
      rw [readTokens] at h
      rw [scanToken, if_neg hline]
      exact (ih hrest (.true _) h).cons u

theorem blank_bare {u : UInt16} (hu : isHorizontalWhitespace u = true) : isReadBare u = false := by
  simp only [isHorizontalWhitespace, Bool.or_eq_true, beq_iff_eq] at hu
  rcases hu with rfl | rfl
  all_goals decide

theorem readTokens_blanks (tokens : List JsString) (s : JsString) :
    readTokens known .plain tokens [] false 0 (s.dropWhile isHorizontalWhitespace) =
      readTokens known .plain tokens [] false 0 s := by
  induction s with
  | nil => rfl
  | cons u s ih =>
    rw [List.dropWhile_cons]
    split
    · next hu =>
      have hne : ∀ v, isHorizontalWhitespace v = false → u ≠ v := by
        rintro v hv rfl
        rw [hv] at hu
        cases hu
      have hbare := blank_bare hu
      rw [ih, readTokens, if_neg (hne 39 (by decide)), if_neg (hne 34 (by decide)), if_neg (hne 36 (by decide)),
        if_neg (hne 92 (by decide)), hbare, if_neg Bool.false_ne_true, if_pos hu, if_neg Bool.false_ne_true]
    · rfl

/-- **The digests read the same words**, one after the other. -/
theorem readTokens_leading {result : List JsString} {fuel : ℕ} : ∀ {tokens : List JsString} {s : JsString},
    s.length < fuel → Plain s → readTokens known .plain tokens [] false 0 s = some result →
    leadingLoop fuel tokens s = ⟨result, true, true⟩ := by
  induction fuel with
  | zero =>
    intro tokens s hfuel
    exact absurd hfuel (Nat.not_lt_zero _)
  | succ fuel ih =>
    intro tokens s hfuel hplain h
    have hsub := List.dropWhile_suffix (l := s) isHorizontalWhitespace
    have hhead := List.head?_dropWhile_not isHorizontalWhitespace s
    rw [← readTokens_blanks] at h
    rw [leadingLoop]
    have hlength := hsub.length_le
    have hplain : Plain (s.dropWhile isHorizontalWhitespace) := fun u hu => hplain u (hsub.mem hu)
    generalize s.dropWhile isHorizontalWhitespace = text at h hlength hhead hplain ⊢
    cases text with
    | nil =>
      rw [readTokens, if_pos rfl, if_neg Bool.false_ne_true] at h
      rw [Option.some.inj h]
    | cons u s' =>
      have hblank : isHorizontalWhitespace u = false := by simpa using hhead
      obtain ⟨hcontrol, hcomment, -⟩ := plain_control (hplain u (List.mem_cons_self ..)).2
      have hword := readTokens_word hplain (fun hmode => by rcases hmode with hmode | hmode | hmode <;> cases hmode) h
      have hprogress := scanToken_progress (s := s') hblank hcontrol
      simp only [hcontrol, hcomment, Bool.false_eq_true, if_false, hword.valid, Bool.not_true]
      rcases hword.goes with ⟨hend, rfl⟩ | ⟨v, rest, hrest, hv, hmore⟩
      · simp only [hend]
        rfl
      · have hcontrol' : isShellControl v = false := blank_plain hv
        have hsuffix := hword.suffix
        simp only [hrest, hcontrol', Bool.false_eq_true, if_false]
        rw [hrest] at hprogress hsuffix
        rw [List.length_cons] at hprogress hlength
        refine ih (by rw [List.length_cons]; omega) (fun w hw => hplain w (hsuffix.mem hw)) ?_
        rw [← readTokens_blanks, List.dropWhile_cons, if_pos hv, readTokens_blanks]
        exact hmore

/-- What the digests leave out of the reads. -/
def isDigestRead (args : List JsString) : Bool :=
  args[0]? == some (js "context") || (args[0]? == some (js "turn") && args[1]? == some (js "show"))

theorem plain_of_refused {command : JsString} (hdollar : 36 ∉ command)
    (hrefused : ¬ command.any isReadRefused = true) : Plain command := by
  intro u hu
  rw [List.any_eq_true, not_exists] at hrefused
  refine ⟨fun h => hdollar (h ▸ hu), ?_⟩
  rw [← Bool.not_eq_true]
  exact fun h => hrefused u ⟨hu, h⟩

theorem plain_safe {command : JsString} (h : Plain command) : hasDigestUnsafeShellSyntax command = false := by
  have hne : ∀ u, u = 36 ∨ isReadRefused u = true → u ∉ command := by
    rintro u hu hmem
    obtain ⟨hdollar, hrefused⟩ := h u hmem
    rcases hu with rfl | hu
    · exact hdollar rfl
    · rw [hu] at hrefused
      cases hrefused
  simp only [hasDigestUnsafeShellSyntax, Bool.or_eq_false_iff, List.any_eq_false]
  rw [← Bool.not_eq_true, ← Bool.not_eq_true, List.contains_iff_mem, List.contains_iff_mem]
  refine ⟨⟨?_, ?_⟩, hne 96 (.inr (by decide))⟩
  · intro u hu hcontrol
    have hshell : isShellControl u = true := by
      simp only [isShellControl, Bool.or_eq_true] at hcontrol ⊢
      tauto
    rw [(plain_control (h u hu).2).1] at hshell
    cases hshell
  · intro hpair
    exact hne 36 (.inl rfl) (List.of_mem_zip hpair).1

theorem trim_plain {command : JsString} (h : Plain command) :
    trimLeadingShellSpacing command = command.dropWhile isHorizontalWhitespace := by
  unfold trimLeadingShellSpacing
  induction command with
  | nil => rfl
  | cons u s ih =>
    have hrefused := (h u (List.mem_cons_self ..)).2
    have hreturn : (u == 13) = false := by
      rw [beq_eq_false_iff_ne]
      rintro rfl
      exact absurd hrefused (by decide)
    have hline : (u == 10) = false := beq_eq_false_iff_ne.2 (plain_control hrefused).2.2
    rw [List.dropWhile_cons, List.dropWhile_cons, hreturn, hline, Bool.or_false, Bool.or_false,
      ih (fun v hv => h v (List.mem_cons_of_mem _ hv))]

/-- **The digests read the same words in a read command**, and the whole of it: so a command without
expansions stays out of them, if it asks for a context or a turn. -/
theorem readCommand_tokens {command : JsString} {args : List JsString}
    (h : readCommandArguments known command = some args) (hdollar : 36 ∉ command) :
    leadingSimpleCommandTokens command = ⟨js "barbaro" :: js "read" :: args, true, true⟩ ∧
      isDigestExcludedBarbaroCommand command = isDigestRead args := by
  rw [readCommandArguments] at h
  split at h
  · cases h
  next hsize =>
  rw [Bool.or_eq_true, not_or] at hsize
  have hplain := plain_of_refused hdollar hsize.2
  split at h
  · cases h
  next tokens htokens =>
  split at h
  · cases h
  next hwords =>
  rw [not_or, not_not, not_not] at hwords
  have hread : tokens = js "barbaro" :: js "read" :: args := by
    rw [← Option.some.inj h]
    rcases tokens with _ | ⟨first, _ | ⟨second, rest⟩⟩
    · cases hwords.1
    · cases hwords.2
    · rw [Option.some.inj hwords.1, Option.some.inj hwords.2]
      rfl
  have htrim := trim_plain hplain
  have hleading : leadingSimpleCommandTokens command = ⟨js "barbaro" :: js "read" :: args, true, true⟩ := by
    have hsub := List.dropWhile_suffix (l := command) isHorizontalWhitespace
    rw [← readTokens_blanks, hread] at htokens
    rw [leadingSimpleCommandTokens, htrim]
    refine readTokens_leading (Nat.lt_succ_of_le hsub.length_le) (fun u hu => hplain u (hsub.mem hu)) htokens
  refine ⟨hleading, ?_⟩
  simp only [isDigestExcludedBarbaroCommand, plain_safe hplain, hleading]
  rfl

theorem readCommand_tokens_context :
    leadingSimpleCommandTokens (js "barbaro read 'context'") = ⟨[js "barbaro", js "read", js "context"], true, true⟩ ∧
      isDigestExcludedBarbaroCommand (js "barbaro read 'context'") = isDigestRead [js "context"] :=
  @readCommand_tokens (fun _ => none) _ [js "context"] (by decide) (by decide)

/-! ## Quoting -/

theorem readTokens_single {body : JsString} (h : 39 ∉ body) (tokens : List JsString) (token rest : JsString) :
    readTokens known .single tokens token true 0 (body ++ 39 :: rest) =
      readTokens known .plain tokens (token ++ body) true 0 rest := by
  induction body generalizing token with
  | nil => rw [List.nil_append, readTokens, if_pos rfl, List.append_nil]
  | cons u body ih =>
    rw [List.mem_cons, not_or] at h
    rw [List.cons_append, readTokens, if_neg (Ne.symm h.1), ih h.2, List.append_assoc, List.singleton_append]

theorem readTokens_double {items : List Quoted} (hok : items.all Quoted.ok = true)
    (hline : .escaped 10 ∉ items) (tokens : List JsString) (token rest : JsString) :
    readTokens known .double tokens token true 0 (items.flatMap Quoted.spell ++ 34 :: rest) =
      readTokens known .plain tokens (token ++ items.flatMap Quoted.value) true 0 rest := by
  induction items generalizing token with
  | nil => rw [List.flatMap_nil, List.nil_append, readTokens, if_pos rfl, List.flatMap_nil, List.append_nil]
  | cons item items ih =>
    rw [List.all_cons, Bool.and_eq_true] at hok
    rw [List.mem_cons, not_or] at hline
    rw [List.flatMap_cons, List.flatMap_cons, List.append_assoc]
    cases item with
    | plain u =>
      have hne : ∀ v, isEscapable v = true → u ≠ v := by
        rintro v hv rfl
        exact absurd hok.1 (by simp [Quoted.ok, hv])
      rw [Quoted.spell, List.singleton_append, readTokens, if_neg (hne 34 (by decide)), if_neg (hne 36 (by decide)),
        if_neg (hne 92 (by decide)), ih hok.2 hline.2, Quoted.value, List.append_assoc]
    | escaped u =>
      have hquote : ¬ (92 : UInt16) = 34 := by decide
      have hdollar : ¬ (92 : UInt16) = 36 := by decide
      have hu : u ≠ 10 := fun h => hline.1 (h ▸ rfl)
      rw [Quoted.spell, List.cons_append, List.singleton_append, readTokens, if_neg hquote, if_neg hdollar, if_pos rfl,
        readTokens, ih hok.2 hline.2, quotedEscape_value hu, List.append_assoc]

/-- What a piece of a word is to the tokenizer. -/
theorem readTokens_piece {p : Piece} (hok : p.ok = true) (hblank : Piece.parts isBlank p = false)
    (hrefused : ∀ u ∈ p.spell, isReadRefused u = false) (hbare : ∀ u, p = .bare u → isReadBare u = false)
    (tokens : List JsString) (token : JsString) (started : Bool) (rest : JsString) :
    readTokens known .plain tokens token started 0 (p.spell ++ rest) =
      readTokens known .plain tokens (token ++ p.value) (started || p.visible) 0 rest := by
  have hline : 10 ∉ p.spell := fun h => absurd (hrefused 10 h) (by decide)
  cases p with
  | bare u =>
    have hplain : isSpecial u = false := by simpa [Piece.ok] using hok
    have hne : ∀ v, isSpecial v = true → u ≠ v := by
      rintro v hv rfl
      rw [hv] at hplain
      cases hplain
    have hspace : isHorizontalWhitespace u = false := hblank
    have hvisible : (Piece.bare u).visible = true := rfl
    rw [Piece.spell, List.singleton_append, readTokens, if_neg (hne 39 (by decide)), if_neg (hne 34 (by decide)),
      if_neg (hne 36 (by decide)), if_neg (hne 92 (by decide)), hbare u rfl, if_neg Bool.false_ne_true, hspace,
      if_neg Bool.false_ne_true, Piece.value, hvisible, Bool.or_true]
  | escaped u =>
    have hsingle : ¬ (92 : UInt16) = 39 := by decide
    have hdouble : ¬ (92 : UInt16) = 34 := by decide
    have hdollar : ¬ (92 : UInt16) = 36 := by decide
    have hu : u ≠ 10 := fun h => hline (h ▸ List.mem_cons_of_mem _ (List.mem_cons_self ..))
    have hvisible : (Piece.escaped u).visible = true := bne_iff_ne.2 hu
    rw [Piece.spell, List.cons_append, List.singleton_append, readTokens, if_neg hsingle, if_neg hdouble,
      if_neg hdollar, if_pos rfl, readTokens, Piece.value, if_neg hu, hvisible, Bool.or_true]
  | single text =>
    have htext : 39 ∉ text := by simpa [Piece.ok] using hok
    have hvisible : (Piece.single text).visible = true := rfl
    rw [Piece.spell, List.cons_append, List.cons_append, List.append_assoc, List.singleton_append, readTokens,
      if_pos rfl, readTokens_single htext, Piece.value, hvisible, Bool.or_true]
  | double items =>
    have hsingle : ¬ (34 : UInt16) = 39 := by decide
    have hvisible : (Piece.double items).visible = true := rfl
    have hitems : .escaped 10 ∉ items := by
      intro h
      refine hline ?_
      rw [Piece.spell, List.mem_append, List.mem_cons, List.mem_flatMap]
      exact .inl (.inr ⟨_, h, List.mem_cons_of_mem _ (List.mem_cons_self ..)⟩)
    rw [Piece.spell, List.cons_append, List.cons_append, List.append_assoc, List.singleton_append, readTokens,
      if_neg hsingle, if_pos rfl, readTokens_double hok hitems, Piece.value, hvisible, Bool.or_true]

/-- **The tokenizer reads the words of the shell**, by induction on the pieces behind a run of one word. -/
theorem readTokens_words {pieces : List Piece} (hok : pieces.all Piece.ok = true)
    (hrefused : ∀ u ∈ spell pieces, isReadRefused u = false) (hbare : ∀ u, .bare u ∈ pieces → isReadBare u = false)
    (tokens : List JsString) {run : List Piece} (hrun : ∀ p ∈ run, Piece.parts isBlank p = false) :
    readTokens known .plain tokens (value run) (run.any Piece.visible) 0 (spell pieces) =
      some (tokens ++ (words isBlank (run ++ pieces)).map value) := by
  have hended : ∀ (tokens : List JsString) (run : List Piece),
      (if run.any Piece.visible = true then tokens ++ [value run] else tokens) =
        tokens ++ (if run.any Piece.visible = true then [run] else []).map value := by
    intro tokens run
    split
    · rfl
    · exact (List.append_nil tokens).symm
  induction pieces generalizing tokens run with
  | nil =>
    rw [spell, List.flatMap_nil, readTokens, if_pos rfl, hended, List.append_nil, words_run hrun]
  | cons p pieces ih =>
    rw [List.all_cons, Bool.and_eq_true] at hok
    rw [spell_cons] at hrefused
    have hmore := fun u (hu : u ∈ spell pieces) => hrefused u (List.mem_append_right _ hu)
    have hbare' := fun u (hu : .bare u ∈ pieces) => hbare u (List.mem_cons_of_mem _ hu)
    rw [spell_cons]
    by_cases hp : Piece.parts isBlank p = true
    · cases p with
      | bare u =>
        have hne : ∀ v, isHorizontalWhitespace v = false → u ≠ v := by
          rintro v hv rfl
          rw [show isHorizontalWhitespace u = true from hp] at hv
          cases hv
        have hspace : isHorizontalWhitespace u = true := hp
        have hplain := blank_bare hspace
        have hnext := @ih hok.2 hmore hbare' (if run.any Piece.visible = true then tokens ++ [value run] else tokens)
          [] (by simp)
        rw [Piece.spell, List.singleton_append, readTokens, if_neg (hne 39 (by decide)), if_neg (hne 34 (by decide)),
          if_neg (hne 36 (by decide)), if_neg (hne 92 (by decide)), hplain, if_neg Bool.false_ne_true, if_pos hspace]
        rw [words_parted hrun hp, List.map_append, ← List.append_assoc, ← hended]
        exact hnext
      | _ => cases hp
    · rw [Bool.not_eq_true] at hp
      have hlonger : ∀ q ∈ run ++ [p], Piece.parts isBlank q = false := by
        intro q hq
        rcases List.mem_append.1 hq with hq | hq
        · exact hrun q hq
        · rw [List.mem_singleton.1 hq]
          exact hp
      have hnext := ih hok.2 hmore hbare' tokens hlonger
      rw [readTokens_piece hok.1 hp (fun u hu => hrefused u (List.mem_append_left _ hu))
        (fun u hu => hbare u (hu ▸ List.mem_cons_self ..))]
      have hvalue : value [p] = p.value := List.flatMap_singleton ..
      rw [value_append, hvalue, List.any_append, List.any_cons, List.any_nil, Bool.or_false, List.append_assoc,
        List.singleton_append] at hnext
      exact hnext

/-- **However the arguments are quoted, they are read back**: where nothing is written that no
command may hold, and nothing outside quotes that the shell may expand. -/
theorem readCommand_quoted {args : List JsString} {pieces : List Piece}
    (hwritten : SpelledWords (js "barbaro" :: js "read" :: args) pieces)
    (hrefused : (spell pieces).any isReadRefused = false) (hbare : pieces.any (Piece.isBare isReadBare) = false)
    (hsize : byteLength (spell pieces) ≤ 8192) (known : JsString → Option JsString) :
    readCommandArguments known (spell pieces) = some args := by
  have hplain : ∀ u ∈ spell pieces, isReadRefused u = false := by
    intro u hu
    rw [← Bool.not_eq_true]
    exact List.any_eq_false.1 hrefused u hu
  have hquoted : ∀ u, .bare u ∈ pieces → isReadBare u = false := by
    intro u hu
    rw [← Bool.not_eq_true]
    exact List.any_eq_false.1 hbare _ hu
  have htokens : readTokens known .plain [] [] false 0 (spell pieces) = some (js "barbaro" :: js "read" :: args) := by
    have hwords := @readTokens_words known _ hwritten.ok hplain hquoted [] [] (by simp)
    rw [List.nil_append, List.nil_append, hwritten.reads] at hwords
    exact hwords
  rw [readCommandArguments, hrefused, Bool.or_false, if_neg (by simpa using hsize), htokens]
  rfl

/-- A project whose path has a blank, quoted as the guidance quotes it. -/
def quotedRoot : List Piece :=
  (js "barbaro read context --project-root ").map .bare ++ [.double ((js "/a b").map .plain)]

theorem quotedRoot_words : SpelledWords [js "barbaro", js "read", js "context", js "--project-root", js "/a b"] quotedRoot :=
  ⟨by decide, by decide, by decide⟩

theorem readCommand_quoted_root : readCommandArguments (fun _ => none) (spell quotedRoot) =
    some [js "context", js "--project-root", js "/a b"] :=
  readCommand_quoted quotedRoot_words (by decide) (by decide) (by decide) _

end

end Barbaro.Nudge
