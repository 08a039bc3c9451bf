import Barbaro.Lib.ShellWords
import Barbaro.Setup.HookCommand

/-!
# The words a shell makes of a hook command

A hook is run by a shell, and the doctor reads its command with a tokenizer of its own. The
two agree piece by piece (`tokenizeLoop_piece`), but for the white space: the tokenizer parts
words at every character that `\s` matches, the shell at spaces and tabs. It also takes an
open quote for a closed one and knows no comment, pattern or assignment.

* `tokenize_spell`: the tokens of a line, from its pieces.
* `hook_command_words`: a resolved command is run as reported when it is a literal one.
* `open_quote_resolved`: a command the shell refuses, reported as resolved.
-/

namespace Barbaro.Setup

open Shell (Piece Quoted spell value words IsCommand piecesOf)

/-! ## The tokenizer and the pieces -/

section
variable {current : JsString} {started : Bool} {rest : JsString}

theorem tokenizeLoop_quoted {quote : UInt16} {body : JsString} (h : quote ∉ body) :
    tokenizeLoop (some quote) current started (body ++ quote :: rest) =
      tokenizeLoop none (current ++ body) started rest := by
  induction body generalizing current with
  | nil => simp [tokenizeLoop]
  | cons u body ih =>
    have hu : u ≠ quote := fun heq => h (heq ▸ List.mem_cons_self ..)
    rw [List.cons_append, tokenizeLoop, if_neg hu, ih (fun hmem => h (List.mem_cons_of_mem _ hmem)),
      List.append_assoc, List.singleton_append]

/-- What the tokenizer does with a piece. -/
theorem tokenizeLoop_piece {p : Piece} (hok : p.ok = true) (hslash : 92 ∉ p.spell) :
    tokenizeLoop none current started (p.spell ++ rest) =
      if Piece.parts isTrimUnit p then
        if started then current :: tokenizeLoop none [] false rest else tokenizeLoop none current started rest
      else tokenizeLoop none (current ++ p.value) true rest := by
  cases p with
  | bare u =>
    have hu : ¬ (u = 34 ∨ u = 39) := by
      rintro (rfl | rfl)
      · exact absurd hok (by decide)
      · exact absurd hok (by decide)
    rw [Piece.spell, List.singleton_append, tokenizeLoop, if_neg hu]
    rfl
  | escaped u => exact absurd (by simp [Piece.spell]) hslash
  | single text =>
    have htext : 39 ∉ text := by simpa [Piece.ok] using hok
    rw [Piece.spell, List.cons_append, List.cons_append, List.append_assoc, List.singleton_append, tokenizeLoop,
      if_pos (Or.inr rfl), tokenizeLoop_quoted htext]
    rfl
  | double items =>
    have hinner : 92 ∉ items.flatMap Quoted.spell := fun h => hslash (by simp [Piece.spell, h])
    obtain ⟨hplain, hquote⟩ := Shell.quoted_plain (by simpa [Piece.ok] using hok) hinner
    have hvalue : items.flatMap Quoted.value = items.flatMap Quoted.spell := by
      rw [← hplain, List.flatMap_map, List.flatMap_map]
      rfl
    rw [Piece.spell, List.cons_append, List.cons_append, List.append_assoc, List.singleton_append, tokenizeLoop,
      if_pos (Or.inl rfl), tokenizeLoop_quoted hquote, Piece.value, hvalue]
    rfl

end

/-- **The tokens of a line** are the values of its words, parted at white space. -/
theorem tokenize_spell {pieces : List Piece} (hok : pieces.all Piece.ok = true) (hslash : 92 ∉ spell pieces) :
    tokenizeCommand (spell pieces) = (words isTrimUnit pieces).map value := by
  -- the induction goes over the pieces with the run of pieces the token has begun with
  suffices h : ∀ run : List Piece, (∀ p ∈ run, Piece.parts isTrimUnit p = false) → (∀ p ∈ run, p.visible = true) →
      tokenizeLoop none (value run) (run.any Piece.visible) (spell pieces) =
        (words isTrimUnit (run ++ pieces)).map value by
    have := h [] (by simp) (by simp)
    rw [tokenizeCommand]
    simpa [value] using this
  induction pieces with
  | nil =>
    intro run hrun _
    rw [List.append_nil, Shell.words_run hrun, spell, List.flatMap_nil, tokenizeLoop.eq_def]
    simp only
    split <;> rfl
  | cons p pieces ih =>
    intro run hrun hvisible
    rw [List.all_cons, Bool.and_eq_true] at hok
    rw [Shell.spell_cons, List.mem_append, not_or] at hslash
    have hnext := ih hok.2 hslash.2
    rw [Shell.spell_cons, tokenizeLoop_piece hok.1 hslash.1]
    by_cases hp : Piece.parts isTrimUnit p = true
    · have hstart := hnext [] (by simp) (by simp)
      rw [value, List.flatMap_nil, List.any_nil, List.nil_append] at hstart
      rw [if_pos hp, Shell.words_parted hrun hp, hstart]
      rcases hrun' : run.any Piece.visible with _ | _
      · -- a run of visible pieces that shows nothing is empty
        have hnil : run = [] := by
          rw [List.eq_nil_iff_forall_not_mem]
          intro q hq
          exact List.any_eq_false.1 hrun' q hq (hvisible q hq)
        subst hnil
        simpa [value] using hstart
      · rfl
    · rw [if_neg hp]
      rw [Bool.not_eq_true] at hp
      have hseen : p.visible = true := by
        cases p with
        | escaped u => exact absurd (by simp [Piece.spell]) hslash.1
        | _ => rfl
      have hmore := hnext (run ++ [p])
        (by
          intro q hq
          rcases List.mem_append.1 hq with hq | hq
          · exact hrun q hq
          · rw [List.mem_singleton.1 hq]
            exact hp)
        (by
          intro q hq
          rcases List.mem_append.1 hq with hq | hq
          · exact hvisible q hq
          · rw [List.mem_singleton.1 hq]
            exact hseen)
      rw [Shell.value_append, List.any_append, List.append_assoc, List.singleton_append] at hmore
      rw [← hmore]
      simp [hseen, value]

/-! ## Comments -/

/-- What a token begins with stays in it. -/
theorem count_started (u : UInt16) (quote : Option UInt16) (current : JsString) (command : JsString) :
    current.count u ≤ (tokenizeLoop quote current true command).flatten.count u := by
  induction command generalizing quote current with
  | nil => simp [tokenizeLoop]
  | cons v command ih =>
    have hgrow : current.count u ≤ (current ++ [v]).count u := by
      rw [List.count_append]
      omega
    cases quote with
    | some q =>
      rw [tokenizeLoop]
      split
      · exact ih _ _
      · exact le_trans hgrow (ih _ _)
    | none =>
      rw [tokenizeLoop]
      split
      · exact ih _ _
      · split
        · rw [if_pos rfl, List.flatten_cons, List.count_append]
          omega
        · exact le_trans hgrow (ih _ _)

/-- Every character of the pieces that parts no words is in a token, and the one after them. -/
theorem count_tokens {u : UInt16} (hspace : isTrimUnit u = false) (hquote : u ≠ 34 ∧ u ≠ 39) {pieces : List Piece}
    (hok : pieces.all Piece.ok = true) (hslash : 92 ∉ spell pieces) (current : JsString) (started : Bool)
    (text : JsString) :
    (if started then current.count u else 0) +
        (value (pieces.filter (fun p => !Piece.parts isTrimUnit p))).count u + 1 ≤
      (tokenizeLoop none current started (spell pieces ++ u :: text)).flatten.count u := by
  induction pieces generalizing current started with
  | nil =>
    have hkept := count_started u none (current ++ [u]) text
    rw [List.count_append, List.count_singleton_self] at hkept
    have hu : ¬ (u = 34 ∨ u = 39) := by
      rintro (h | h)
      · exact hquote.1 h
      · exact hquote.2 h
    rw [spell, List.flatMap_nil, List.nil_append, tokenizeLoop, if_neg hu,
      if_neg (show ¬ isTrimUnit u = true by simp [hspace]), List.filter_nil, value, List.flatMap_nil, List.count_nil]
    split
    · omega
    · omega
  | cons p pieces ih =>
    rw [List.all_cons, Bool.and_eq_true] at hok
    rw [Shell.spell_cons, List.mem_append, not_or] at hslash
    rw [Shell.spell_cons, List.append_assoc, tokenizeLoop_piece hok.1 hslash.1, List.filter_cons]
    by_cases hp : Piece.parts isTrimUnit p = true
    · rw [if_pos hp, if_neg (show ¬ (!Piece.parts isTrimUnit p) = true by simp [hp])]
      cases started with
      | true =>
        have := ih hok.2 hslash.2 [] false
        rw [if_pos rfl, if_pos rfl, List.flatten_cons, List.count_append]
        simp only [Bool.false_eq_true, if_false] at this
        omega
      | false => exact ih hok.2 hslash.2 _ _
    · have := ih hok.2 hslash.2 (current ++ p.value) true
      rw [if_pos rfl, List.count_append] at this
      rw [if_neg hp, if_pos (show (!Piece.parts isTrimUnit p) = true by simp [hp]), Shell.value_cons,
        List.count_append]
      split
      · omega
      · omega

/-! ## Literal commands -/

/-- The quotes are closed, outside them white space is spaces and tabs, no word begins a
comment, and the shell expands none. -/
def isLiteralCommand (command : JsString) : Bool :=
  match piecesOf command with
  | none => false
  | some pieces =>
    pieces.all (fun p => !Piece.parts isTrimUnit p || Piece.parts Shell.isBlank p) &&
      (words Shell.isBlank pieces).all (fun word => !Shell.startsWith 35 word) &&
      Shell.literal (words Shell.isBlank pieces)

/-- A shell runs the text as one simple command of these words, with nothing to expand. -/
def ShellRuns (command : JsString) (ws : List JsString) : Prop :=
  ∃ pieces, IsCommand command pieces ∧ Shell.literal (words Shell.isBlank pieces) = true ∧
    (words Shell.isBlank pieces).map value = ws

section
variable {command : JsString} (hplain : command.any isRefused = false)
include hplain

theorem refused_free {u : UInt16} (hu : u ∈ command) : isRefused u = false := by
  rw [← Bool.not_eq_true]
  exact List.any_eq_false.1 hplain u hu

/-- Of the characters that mean something to a shell, only quotes are left. -/
theorem special_quotes : ∀ u ∈ command, Shell.isSpecial u = true → u = 34 ∨ u = 39 := by
  intro u hu hspecial
  have hnot := refused_free hplain hu
  simp only [Shell.isSpecial, Bool.or_eq_true, beq_iff_eq] at hspecial
  by_contra hquote
  rw [not_or] at hquote
  simp only [isRefused, Bool.or_eq_false_iff, beq_eq_false_iff_ne] at hnot
  grind

theorem slash_free : 92 ∉ command := by
  intro h
  exact absurd (refused_free hplain h) (by decide)

/-- **A command without refused characters is run as its tokens** when it is literal, and only then. -/
theorem runs_tokens_iff : ShellRuns command (tokenizeCommand command) ↔ isLiteralCommand command = true := by
  have hsub : ∀ u, Shell.isBlank u = true → isTrimUnit u = true := by
    intro u hu
    simp only [Shell.isBlank, Bool.or_eq_true, beq_iff_eq] at hu
    rcases hu with rfl | rfl
    · decide
    · decide
  have hslash := slash_free hplain
  constructor
  · rintro ⟨pieces, hcommand, hliteral, hwords⟩
    cases hcommand with
    | plain hok hopen =>
      rw [tokenize_spell hok hslash, eq_comm] at hwords
      have hblank := (Shell.words_eq_iff hsub).1 hwords
      rw [isLiteralCommand, Shell.piecesOf_spell hok hslash]
      simp only [hliteral, hopen, Bool.and_true, List.all_eq_true]
      intro p hp
      cases p with
      | bare u =>
        rcases hu : isTrimUnit u with _ | _
        · simp [Piece.parts, hu]
        · simp [Piece.parts, hblank u hp hu]
      | _ => rfl
    | @comment pieces hok hopen hend text htext =>
      -- the words of the shell miss the `#`, which is in a token
      rw [List.mem_append, not_or] at hslash
      have hspace : isTrimUnit 35 = false := by decide
      have hcount := count_tokens hspace (by decide) hok hslash.1 [] false text
      have hmissed := congrArg (fun ws => ws.flatten.count 35) hwords
      simp only [Shell.words_values] at hmissed
      rw [Shell.count_values hsub hspace] at hmissed
      rw [tokenizeCommand] at hmissed
      simp only [Bool.false_eq_true, if_false] at hcount
      omega
  · intro h
    rw [isLiteralCommand] at h
    split at h
    · cases h
    next pieces hpieces =>
    rw [Bool.and_eq_true, Bool.and_eq_true] at h
    obtain ⟨⟨hblank, hopen⟩, hliteral⟩ := h
    obtain ⟨rfl, hok⟩ := Shell.piecesOf_ok (special_quotes hplain) hpieces
    refine ⟨pieces, .plain hok hopen, hliteral, ?_⟩
    rw [tokenize_spell hok hslash, eq_comm, Shell.words_eq_iff hsub]
    intro u hu ht
    have hpart := List.all_eq_true.1 hblank _ hu
    simpa [Piece.parts, ht] using hpart

end

/-! ## What is resolved -/

section
variable {M : Machine} {projectRoot : List JsString} {provider : HookProvider} {command : JsString}

/-- The words that the reported programs are found by. -/
structure Reported (M : Machine) (projectRoot : List JsString) (interpreter : Option JsString) (cli cliPath : JsString)
    (interpreterPath : Option JsString) : Prop where
  cli : locateCli M projectRoot interpreter.isSome cli = .ok (some cliPath)
  bare : interpreter = none → interpreterPath = none
  node : ∀ word, interpreter = some word → isNodeName (basename word) = true ∧
    ∃ path, locateInterpreter M projectRoot word = .ok (some path) ∧ interpreterPath = some path

theorem resolveHookCommand_resolved {cliPath : JsString} {interpreterPath : Option JsString}
    (h : resolveHookCommand M projectRoot command provider = .ok (.resolved cliPath interpreterPath)) :
    command.any isRefused = false ∧ ∃ interpreter cli role,
      tokenizeCommand command = interpreter.toList ++ [cli, provider.name, role] ∧ role ∈ subcommands ∧
        Reported M projectRoot interpreter cli cliPath interpreterPath := by
  rw [resolveHookCommand] at h
  split at h
  · cases h
  next hplain =>
  rw [Bool.not_eq_true] at hplain
  refine ⟨hplain, ?_⟩
  dsimp only at h
  split at h
  · cases h
  next hargs =>
  rw [not_or, not_not, not_not] at hargs
  -- the last two tokens are the provider and the role
  obtain ⟨role, hlast, hrole⟩ : ∃ role,
      (tokenizeCommand command).drop ((tokenizeCommand command).length - 2) = [provider.name, role] ∧
        role ∈ subcommands := by
    have hshort : ((tokenizeCommand command).drop ((tokenizeCommand command).length - 2)).length ≤ 2 := by
      rw [List.length_drop]
      omega
    generalize (tokenizeCommand command).drop ((tokenizeCommand command).length - 2) = args at hargs hshort
    rcases args with _ | ⟨a, _ | ⟨b, _ | ⟨c, args⟩⟩⟩
    · cases hargs.1
    · have hempty : js "" ∈ subcommands := hargs.2
      simp [subcommands] at hempty
    · refine ⟨b, ?_, hargs.2⟩
      rw [Option.some.inj hargs.1]
    · simp only [List.length_cons] at hshort
      omega
  have htokens := List.take_append_drop ((tokenizeCommand command).length - 2) (tokenizeCommand command)
  rw [hlast] at htokens
  split at h
  · next cli htokens_init =>
    rw [htokens_init] at htokens
    cases hcli : locateCli M projectRoot false cli with
    | error e =>
      rw [hcli] at h
      cases h
    | ok found =>
      rw [hcli] at h
      cases found with
      | none => cases h
      | some path =>
        cases h
        exact ⟨none, cli, role, htokens.symm, hrole, hcli, fun _ => rfl, fun _ hword => by cases hword⟩
  · next word cli htokens_init =>
    rw [htokens_init] at htokens
    split at h
    · cases h
    next hnode =>
    cases hword : locateInterpreter M projectRoot word with
    | error e =>
      rw [hword] at h
      cases h
    | ok found =>
      rw [hword] at h
      cases found with
      | none => cases h
      | some interpreter =>
        cases hcli : locateCli M projectRoot true cli with
        | error e =>
          simp only [hcli] at h
          cases h
        | ok found =>
          simp only [hcli] at h
          cases found with
          | none => cases h
          | some path =>
            cases h
            refine ⟨some word, cli, role, htokens.symm, hrole, hcli, ?_, ?_⟩
            · intro hnone
              cases hnone
            · intro w hw
              cases hw
              exact ⟨by simpa using hnode, interpreter, hword, rfl⟩
  · cases h

end

/-! ## Renderings -/

/-- A word as it is written on a command line. -/
inductive WrittenWord (word : JsString) : JsString → Prop
  | single : WrittenWord word (39 :: word ++ [39])
  | double : WrittenWord word (34 :: word ++ [34])
  | bare (hne : word ≠ []) (hspace : word.any isTrimUnit = false) : WrittenWord word word

/-- The words of a command line with spaces between them. -/
inductive WrittenLine : List JsString → JsString → Prop
  | one {word text : JsString} (h : WrittenWord word text) : WrittenLine [word] text
  | more {word text : JsString} {ws : List JsString} {line : JsString} (n : ℕ) (h : WrittenWord word text)
      (hline : WrittenLine ws line) : WrittenLine (word :: ws) (text ++ (List.replicate (n + 1) 32 ++ line))

/-- No quotes. -/
def isUnquoted (word : JsString) : Bool := !word.contains 34 && !word.contains 39

section
variable {word text : JsString}

theorem tokenizeLoop_bare {current rest : JsString} {started : Bool} (hquote : isUnquoted word = true)
    (hspace : word.any isTrimUnit = false) (hne : word ≠ []) :
    tokenizeLoop none current started (word ++ rest) = tokenizeLoop none (current ++ word) true rest := by
  induction word generalizing current started with
  | nil => exact absurd rfl hne
  | cons u word ih =>
    simp only [isUnquoted, List.contains_cons, Bool.and_eq_true, Bool.not_eq_true', Bool.or_eq_false_iff,
      beq_eq_false_iff_ne] at hquote
    rw [List.any_cons, Bool.or_eq_false_iff] at hspace
    have hu : ¬ (u = 34 ∨ u = 39) := by
      rintro (rfl | rfl)
      · exact hquote.1.1 rfl
      · exact hquote.2.1 rfl
    rw [List.cons_append, tokenizeLoop, if_neg hu, if_neg (by simp [hspace.1])]
    rcases List.eq_nil_or_concat word with rfl | hmore
    · simp
    · have hword : word ≠ [] := by
        obtain ⟨init, last, rfl⟩ := hmore
        simp
      rw [ih (by simp only [isUnquoted, hquote.1.2, hquote.2.2]; rfl) hspace.2 hword, List.append_assoc,
        List.singleton_append]

/-- A written word is read up to its end. -/
theorem tokenizeLoop_written (hquote : isUnquoted word = true) (h : WrittenWord word text) (rest : JsString) :
    tokenizeLoop none [] false (text ++ rest) = tokenizeLoop none word true rest := by
  have hfree := hquote
  rw [isUnquoted, Bool.and_eq_true, Bool.not_eq_true', Bool.not_eq_true', List.contains_eq_mem, List.contains_eq_mem,
    decide_eq_false_iff_not, decide_eq_false_iff_not] at hfree
  cases h with
  | single =>
    rw [List.cons_append, List.cons_append, List.append_assoc, List.singleton_append, tokenizeLoop,
      if_pos (Or.inr rfl), tokenizeLoop_quoted hfree.2, List.nil_append]
  | double =>
    rw [List.cons_append, List.cons_append, List.append_assoc, List.singleton_append, tokenizeLoop,
      if_pos (Or.inl rfl), tokenizeLoop_quoted hfree.1, List.nil_append]
  | bare hne hspace =>
    rw [tokenizeLoop_bare hquote hspace hne]
    rfl

/-- Spaces after a word end it. -/
theorem tokenizeLoop_spaces (n : ℕ) (current line : JsString) :
    tokenizeLoop none current true (List.replicate (n + 1) 32 ++ line) =
      current :: tokenizeLoop none [] false line := by
  have hskip : ∀ n, tokenizeLoop none [] false (List.replicate n 32 ++ line) = tokenizeLoop none [] false line := by
    intro n
    induction n with
    | zero => rfl
    | succ n ih =>
      rw [List.replicate_succ, List.cons_append, tokenizeLoop, if_neg (by decide), if_pos (by decide), if_neg (by decide)]
      exact ih
  rw [List.replicate_succ, List.cons_append, tokenizeLoop, if_neg (by decide), if_pos (by decide), if_pos rfl, hskip]

/-- **A written line is read as its words.** -/
theorem tokenize_written {ws : List JsString} {line : JsString} (h : WrittenLine ws line)
    (hquote : ∀ word ∈ ws, isUnquoted word = true) : tokenizeCommand line = ws := by
  rw [tokenizeCommand]
  induction h with
  | @one word text h =>
    have hword := tokenizeLoop_written (hquote word (List.mem_cons_self ..)) h []
    rw [List.append_nil] at hword
    rw [hword]
    rfl
  | @more word text ws line n h _ ih =>
    rw [tokenizeLoop_written (hquote word (List.mem_cons_self ..)) h, tokenizeLoop_spaces,
      ih (fun w hw => hquote w (List.mem_cons_of_mem _ hw))]

end

/-- **The words of an invocation** are found where the CLI is not the interpreter. -/
theorem analyze_tokens (event : JsString) {command : JsString} {provider : HookProvider} {interpreter : Option JsString}
    {cli role : JsString} (hrole : role ∈ subcommands) (hcli : cli = js "barbaro" ∨ 47 ∈ cli)
    (htokens : tokenizeCommand command = interpreter.toList ++ [cli, provider.name, role]) :
    analyzeHookCommand event command provider =
      { event, command, subcommand := some (provider.name ++ 32 :: role), cliToken := some cli,
        interpreterToken := if interpreter = some cli then none else interpreter } := by
  have htoken : isBarbaroCliToken cli = true := by
    rcases hcli with rfl | hcli
    · simp [isBarbaroCliToken]
    · simp [isBarbaroCliToken, hcli]
  have hprovider : cli ≠ provider.name := by
    have hname : 47 ∉ provider.name := by
      cases provider
      · decide
      · decide
    rcases hcli with rfl | hcli
    · cases provider
      · simp [HookProvider.name]
      · simp [HookProvider.name]
    · intro heq
      rw [heq] at hcli
      exact hname hcli
  have hfound : findInvocation provider none (interpreter.toList ++ [cli, provider.name, role]) = some (role, cli) := by
    cases interpreter with
    | none => simp [findInvocation, hrole, htoken]
    | some word => simp [findInvocation, hrole, htoken, hprovider]
  rw [analyzeHookCommand, htokens]
  simp only [hfound, Option.map_some]
  cases interpreter with
  | none => simp
  | some word => simp [eq_comm]

/-! ## What the doctor reports -/

/-- **A resolved command is run as reported** if and only if it is a literal command: with its
quotes closed, no other white space than spaces and tabs outside them, and nothing outside
them that begins a comment, is expanded or makes an assignment or a keyword of a word. A
written command line is analysed to its words if and only if the CLI is not the interpreter. -/
theorem hook_command_words (M : Machine) (projectRoot : List JsString) (provider : HookProvider) :
    (∀ command cliPath interpreterPath,
      resolveHookCommand M projectRoot command provider = .ok (.resolved cliPath interpreterPath) →
        ∃ interpreter cli role, role ∈ subcommands ∧
          tokenizeCommand command = interpreter.toList ++ [cli, provider.name, role] ∧
          Reported M projectRoot interpreter cli cliPath interpreterPath ∧
          (ShellRuns command (interpreter.toList ++ [cli, provider.name, role]) ↔ isLiteralCommand command = true)) ∧
    ∀ event command interpreter cli role, role ∈ subcommands → (cli = js "barbaro" ∨ 47 ∈ cli) →
      isUnquoted cli = true → (∀ word, interpreter = some word → isUnquoted word = true) →
        WrittenLine (interpreter.toList ++ [cli, provider.name, role]) command →
          (analyzeHookCommand event command provider =
              { event, command, subcommand := some (provider.name ++ 32 :: role), cliToken := some cli,
                interpreterToken := interpreter } ↔
            interpreter ≠ some cli) := by
  constructor
  · intro command cliPath interpreterPath h
    obtain ⟨hplain, interpreter, cli, role, htokens, hrole, hreported⟩ := resolveHookCommand_resolved h
    refine ⟨interpreter, cli, role, hrole, htokens, hreported, ?_⟩
    rw [← htokens]
    exact runs_tokens_iff hplain
  · intro event command interpreter cli role hrole hcli hquote hquotes hwritten
    have hunquoted : ∀ word ∈ interpreter.toList ++ [cli, provider.name, role], isUnquoted word = true := by
      intro word hword
      rw [List.mem_append, Option.mem_toList] at hword
      rcases hword with hword | hword
      · exact hquotes word hword
      · rcases List.mem_cons.1 hword with rfl | hword
        · exact hquote
        · rcases List.mem_pair.1 hword with rfl | rfl
          · cases provider
            · decide
            · decide
          · rcases List.mem_pair.1 hrole with rfl | rfl
            · decide
            · decide
    rw [analyze_tokens event hrole hcli (tokenize_written hwritten hunquoted), HookCommandAnalysis.mk.injEq]
    by_cases heq : interpreter = some cli
    · simp [heq]
    · simp [heq]

/-- A machine with `barbaro` and `node` on its search path. -/
def binMachine : Machine where
  inspectResolvedFile _ := .ok { realPath := none, kind := .file, executable := some true }
  cwd := []
  path := some (js "/bin")

/-- `barbaro codex hook` is a literal command, and `"node" 'barbaro' codex hook` is written one way. -/
theorem hook_command_words_plain :
    ShellRuns (js "barbaro codex hook") [js "barbaro", js "codex", js "hook"] ∧
      (analyzeHookCommand (js "Stop") (js "\"node\" 'barbaro' codex hook") .codex).interpreterToken = some (js "node") := by
  obtain ⟨hresolved, hwritten⟩ := hook_command_words binMachine [] .codex
  refine ⟨?_, ?_⟩
  · obtain ⟨interpreter, cli, role, -, htokens, -, hruns⟩ :=
      hresolved (js "barbaro codex hook") (js "/bin/barbaro") none (by rfl)
    have hwords : tokenizeCommand (js "barbaro codex hook") = [js "barbaro", js "codex", js "hook"] := by rfl
    rw [← htokens, hwords] at hruns
    exact hruns.2 (by rfl)
  · have hline : WrittenLine ((some (js "node")).toList ++ [js "barbaro", HookProvider.codex.name, js "hook"])
        (js "\"node\" 'barbaro' codex hook") :=
      .more 0 .double (.more 0 .single (.more 0 (.bare (by decide) (by decide)) (.one (.bare (by decide) (by decide)))))
    have h := (hwritten (js "Stop") _ (some (js "node")) (js "barbaro") (js "hook") (by simp [subcommands]) (Or.inl rfl)
      (by decide) (by decide) hline).2 (by simp)
    rw [h]

/-- **A command the shell refuses is reported as resolved**: its last quote is open. -/
theorem open_quote_resolved :
    resolveHookCommand binMachine [] (js "barbaro codex \"hook") .codex = .ok (.resolved (js "/bin/barbaro") none) ∧
      ¬ ∃ ws, ShellRuns (js "barbaro codex \"hook") ws := by
  refine ⟨by rfl, ?_⟩
  rintro ⟨ws, pieces, hcommand, -⟩
  generalize hline : js "barbaro codex \"hook" = command at hcommand
  have hslash : (92 : UInt16) ∉ command := by
    rw [← hline]
    decide
  have hhash : (35 : UInt16) ∉ command := by
    rw [← hline]
    decide
  cases hcommand with
  | plain hok hopen =>
    have hread := Shell.piecesOf_spell hok hslash
    have hopened : piecesOf (js "barbaro codex \"hook") = none := by rfl
    rw [← hline, hopened] at hread
    cases hread
  | comment => exact hhash (by simp)

end Barbaro.Setup
