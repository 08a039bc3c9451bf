import Mathlib.Data.List.Basic
import Mathlib.Data.UInt

/-!
# The words of a simple shell command

A command line is read as pieces: characters outside quotes, escaped characters, and texts in
quotes. Blanks outside quotes part the words, and quote removal leaves the value of a word.
Which words come out depends on what counts as a blank, so a reader with other blanks than
the shell's is compared with it piece by piece.

* `IsCommand`: the text is one complete simple command, made of these pieces.
* `words_values`: the words have the characters of the pieces that part nothing.
* `words_eq_iff`: two notions of a blank give the same words only where they agree.
* `piecesOf_eq_iff`: a text without backslashes is read as pieces in one way.
-/

namespace Shell

abbrev Text := List UInt16

/-! ## Pieces -/

/-- What stands between double quotes. -/
inductive Quoted
  | plain (u : UInt16)
  | escaped (u : UInt16)
  deriving DecidableEq

/-- A piece of a command line. -/
inductive Piece
  /-- A character outside quotes. -/
  | bare (u : UInt16)
  | escaped (u : UInt16)
  | single (text : Text)
  | double (text : List Quoted)
  deriving DecidableEq

/-- The characters that a backslash between double quotes escapes: `$`, the backquote, the
double quote and itself. -/
def isEscapable (u : UInt16) : Bool := u == 36 || u == 96 || u == 34 || u == 92

namespace Quoted

def spell : Quoted → Text
  | plain u => [u]
  | escaped u => [92, u]

/-- A backslash before a line break joins the lines, and before what needs no escape it stays. -/
def value : Quoted → Text
  | plain u => [u]
  | escaped u => if u = 10 then [] else if isEscapable u then [u] else [92, u]

def ok : Quoted → Bool
  | plain u => !isEscapable u
  | escaped _ => true

end Quoted

/-- What does not stand for itself outside quotes: the quotes, the beginnings of expansions,
the operators and the line break. -/
def isSpecial (u : UInt16) : Bool :=
  u == 10 || u == 34 || u == 36 || u == 38 || u == 39 || u == 40 || u == 41 || u == 59 || u == 60 ||
    u == 62 || u == 92 || u == 96 || u == 124

def isBlank (u : UInt16) : Bool := u == 32 || u == 9

namespace Piece

def spell : Piece → Text
  | bare u => [u]
  | escaped u => [92, u]
  | single text => 39 :: text ++ [39]
  | double text => 34 :: text.flatMap Quoted.spell ++ [34]

def value : Piece → Text
  | bare u => [u]
  | escaped u => if u = 10 then [] else [u]
  | single text => text
  | double text => text.flatMap Quoted.value

/-- All but a line continuation, which is as if it were not there. -/
def visible : Piece → Bool
  | escaped u => u != 10
  | _ => true

def ok : Piece → Bool
  | bare u => !isSpecial u
  | escaped _ => true
  | single text => !text.contains 39
  | double text => text.all Quoted.ok

/-- A blank outside quotes. -/
def parts (blank : UInt16 → Bool) : Piece → Bool
  | bare u => blank u
  | _ => false

end Piece

def spell (pieces : List Piece) : Text := pieces.flatMap Piece.spell

def value (pieces : List Piece) : Text := pieces.flatMap Piece.value

/-! ## Words -/

/-- The words, as the runs of pieces between blanks in which there is something to see. -/
def words (blank : UInt16 → Bool) (pieces : List Piece) : List (List Piece) :=
  (pieces.splitOnP (Piece.parts blank)).filter (fun word => word.any Piece.visible)

def startsWith (u : UInt16) (word : List Piece) : Bool := word.find? Piece.visible == some (.bare u)

/-- The pieces after the last blank are no word. -/
def endsOpen (pieces : List Piece) : Bool :=
  !(pieces.reverse.takeWhile (fun p => !Piece.parts isBlank p)).any Piece.visible

/-- The text is one complete simple command: its pieces, and a comment perhaps. -/
inductive IsCommand : Text → List Piece → Prop
  | plain {pieces : List Piece} (hok : pieces.all Piece.ok = true)
      (hwords : (words isBlank pieces).all (fun word => !startsWith 35 word) = true) :
      IsCommand (spell pieces) pieces
  | comment {pieces : List Piece} (hok : pieces.all Piece.ok = true)
      (hwords : (words isBlank pieces).all (fun word => !startsWith 35 word) = true)
      (hopen : endsOpen pieces = true) {text : Text} (htext : 10 ∉ text) :
      IsCommand (spell pieces ++ 35 :: text) pieces

/-! ## Expansions -/

/-- `*`, `?` and `[` -/
def isPattern (u : UInt16) : Bool := u == 42 || u == 63 || u == 91

def isNameStart (u : UInt16) : Bool :=
  u == 95 || (65 ≤ u.toNat && u.toNat ≤ 90) || (97 ≤ u.toNat && u.toNat ≤ 122)

def isNameUnit (u : UInt16) : Bool := isNameStart u || (48 ≤ u.toNat && u.toNat ≤ 57)

def Piece.isBare (p : UInt16 → Bool) : Piece → Bool
  | .bare u => p u
  | _ => false

/-- `name=…` in front of a command is an assignment. -/
def isAssignment (word : List Piece) : Bool :=
  let word := word.filter Piece.visible
  (word.head?.any (Piece.isBare isNameStart)) &&
    (word.dropWhile (Piece.isBare isNameUnit)).head? == some (.bare 61)

def reservedWords : List (List Char) :=
  [['!'], ['\x7b'], ['\x7d'], ['c', 'a', 's', 'e'], ['d', 'o'], ['d', 'o', 'n', 'e'], ['e', 'l', 'i', 'f'],
    ['e', 'l', 's', 'e'], ['e', 's', 'a', 'c'], ['f', 'i'], ['f', 'o', 'r'], ['i', 'f'], ['i', 'n'],
    ['t', 'h', 'e', 'n'], ['u', 'n', 't', 'i', 'l'], ['w', 'h', 'i', 'l', 'e']]

def isReserved (word : List Piece) : Bool :=
  let word := word.filter Piece.visible
  word.all (Piece.isBare (fun _ => true)) &&
    reservedWords.any (fun chars => chars.map (fun c => UInt16.ofNat c.toNat) == value word)

/-- Nothing in the words is expanded, and the first one names the command. -/
def literal (ws : List (List Piece)) : Bool :=
  ws.all (fun word => !word.any (Piece.isBare isPattern) && !startsWith 126 word) &&
    ws.head?.all (fun word => !isAssignment word && !isReserved word)

/-! ## How words come out -/

section
variable {blank : UInt16 → Bool}

/-- A run of pieces at the end of the line. -/
theorem words_run {run : List Piece} (h : ∀ p ∈ run, Piece.parts blank p = false) :
    words blank run = if run.any Piece.visible then [run] else [] := by
  rw [words, List.splitOnP_eq_singleton h, List.filter_cons, List.filter_nil]

/-- A run of pieces before a blank. -/
theorem words_parted {run : List Piece} (h : ∀ p ∈ run, Piece.parts blank p = false) {p : Piece}
    (hp : Piece.parts blank p = true) (rest : List Piece) :
    words blank (run ++ p :: rest) = (if run.any Piece.visible then [run] else []) ++ words blank rest := by
  rw [words, List.splitOnP_append_cons_of_forall_mem h p hp, List.filter_cons]
  split <;> rfl

theorem value_append (a b : List Piece) : value (a ++ b) = value a ++ value b := List.flatMap_append

theorem value_cons (p : Piece) (b : List Piece) : value (p :: b) = p.value ++ value b := List.flatMap_cons

theorem spell_append (a b : List Piece) : spell (a ++ b) = spell a ++ spell b := List.flatMap_append

theorem spell_cons (p : Piece) (b : List Piece) : spell (p :: b) = p.spell ++ spell b := List.flatMap_cons

/-- A run without anything to see has no characters. -/
theorem value_invisible {run : List Piece} (h : run.any Piece.visible = false) : value run = [] := by
  rw [value, List.flatMap_eq_nil_iff]
  intro p hp
  have hinvisible := List.any_eq_false.1 h p hp
  cases p with
  | escaped u =>
    have hu : u = 10 := by simpa [Piece.visible] using hinvisible
    rw [Piece.value, if_pos hu]
  | _ => exact absurd rfl hinvisible

/-- **The words have the characters of the pieces** that part nothing. -/
theorem words_values (blank : UInt16 → Bool) (pieces : List Piece) :
    ((words blank pieces).map value).flatten = value (pieces.filter (fun p => !Piece.parts blank p)) := by
  -- the induction goes over the pieces with the run before them
  suffices h : ∀ run : List Piece, (∀ p ∈ run, Piece.parts blank p = false) →
      ((words blank (run ++ pieces)).map value).flatten =
        value run ++ value (pieces.filter (fun p => !Piece.parts blank p)) by
    have := h [] (by simp)
    simpa [value] using this
  have hrun : ∀ run : List Piece,
      ((if run.any Piece.visible then [run] else []).map value).flatten = value run := by
    intro run
    split
    · simp
    · next h =>
      rw [Bool.not_eq_true] at h
      simp [value_invisible h]
  induction pieces with
  | nil =>
    intro run h
    rw [List.append_nil, words_run h, hrun]
    simp [value]
  | cons p pieces ih =>
    intro run h
    by_cases hp : Piece.parts blank p = true
    · have hrest := ih [] (by simp)
      rw [List.nil_append, value, List.flatMap_nil, List.nil_append] at hrest
      rw [words_parted h hp, List.map_append, List.flatten_append, hrun, hrest]
      simp [hp]
    · rw [Bool.not_eq_true] at hp
      have hmore := ih (run ++ [p]) (by
        intro q hq
        rcases List.mem_append.1 hq with hq | hq
        · exact h q hq
        · rw [List.mem_singleton.1 hq]
          exact hp)
      rw [List.append_assoc, List.singleton_append] at hmore
      rw [hmore, List.filter_cons, if_pos (by simp [hp]), value_append, value_cons p (List.filter _ _), value_cons]
      simp [value]

/-- Blanks that agree on the pieces part the same words. -/
theorem words_congr {blank' : UInt16 → Bool} {pieces : List Piece}
    (h : ∀ u, Piece.bare u ∈ pieces → blank u = blank' u) : words blank pieces = words blank' pieces := by
  rw [words, words]
  congr 1
  induction pieces with
  | nil => rfl
  | cons p pieces ih =>
    have hp : Piece.parts blank p = Piece.parts blank' p := by
      cases p with
      | bare u => exact h u (List.mem_cons_self ..)
      | _ => rfl
    rw [List.splitOnP_cons_eq_if_modifyHead, List.splitOnP_cons_eq_if_modifyHead, hp,
      ih (fun u hu => h u (List.mem_cons_of_mem _ hu))]

/-- A character that is no blank is in a word under either notion. -/
theorem count_values {blank blank' : UInt16 → Bool} (hsub : ∀ v, blank v = true → blank' v = true) {u : UInt16}
    (hu : blank' u = false) (pieces : List Piece) :
    (value (pieces.filter (fun p => !Piece.parts blank p))).count u =
      (value (pieces.filter (fun p => !Piece.parts blank' p))).count u := by
  induction pieces with
  | nil => rfl
  | cons p pieces ih =>
    have hmore : Piece.parts blank p = true → Piece.parts blank' p = true := by
      cases p with
      | bare v => exact hsub v
      | _ => exact fun hparts => hparts
    have hnone : Piece.parts blank' p = true → p.value.count u = 0 := by
      cases p with
      | bare v =>
        intro hv
        have hne : v ≠ u := by
          rintro rfl
          rw [Piece.parts, hu] at hv
          cases hv
        simp [Piece.value, hne]
      | _ => exact fun hparts => absurd hparts (by simp [Piece.parts])
    rw [List.filter_cons, List.filter_cons]
    rcases hb : Piece.parts blank p with _ | _
    · rcases hb' : Piece.parts blank' p with _ | _
      · simp [value_cons, ih]
      · simp [value_cons, ih, hnone hb']
    · simp [hmore hb, ih]

/-- **Two notions of a blank give the same words** only where they agree. -/
theorem words_eq_iff {blank blank' : UInt16 → Bool} (hsub : ∀ u, blank u = true → blank' u = true)
    {pieces : List Piece} :
    (words blank' pieces).map value = (words blank pieces).map value ↔
      ∀ u, Piece.bare u ∈ pieces → blank' u = true → blank u = true := by
  constructor
  · intro h
    have hvalues := congrArg (fun vs => vs.flatten.length) h
    simp only [words_values] at hvalues
    -- what parts words on one side only is a character more on the other
    have hlength : ∀ ps : List Piece,
        (value (ps.filter (fun p => !Piece.parts blank p))).length =
          (value (ps.filter (fun p => !Piece.parts blank' p))).length +
            (ps.filter (fun p => Piece.parts blank' p && !Piece.parts blank p)).length := by
      intro ps
      induction ps with
      | nil => rfl
      | cons p ps ih =>
        have hone : Piece.parts blank' p = true → p.value.length = 1 := by
          cases p with
          | bare u => exact fun _ => rfl
          | _ => exact fun hparts => absurd hparts (by simp [Piece.parts])
        have hmore : Piece.parts blank p = true → Piece.parts blank' p = true := by
          cases p with
          | bare u => exact hsub u
          | _ => exact fun hparts => hparts
        rw [List.filter_cons, List.filter_cons, List.filter_cons]
        rcases hb : Piece.parts blank p with _ | _
        · rcases hb' : Piece.parts blank' p with _ | _
          · simp only [Bool.not_false, if_true, Bool.and_true, Bool.false_eq_true, if_false, value_cons,
              List.length_append, ih]
            omega
          · simp only [Bool.not_false, Bool.not_true, if_true, Bool.and_true, Bool.false_eq_true, if_false,
              value_cons, List.length_append, List.length_cons, ih, hone hb']
            omega
        · simp [hmore hb, ih]
    rw [hlength pieces] at hvalues
    have hnone : pieces.filter (fun p => Piece.parts blank' p && !Piece.parts blank p) = [] :=
      List.eq_nil_of_length_eq_zero (by omega)
    intro u hu hb'
    have hpiece := List.filter_eq_nil_iff.1 hnone _ hu
    simpa [Piece.parts, hb'] using hpiece
  · intro h
    rw [words_congr]
    intro u hu
    rcases hb : blank u with _ | _
    · rcases hb' : blank' u with _ | _
      · rfl
      · rw [h u hu hb'] at hb
        cases hb
    · exact hsub u hb

end

/-! ## Reading the quotes -/

/-- The pieces of a text without backslashes, where its quotes are closed. -/
def piecesFrom : Option (UInt16 × Text) → Text → Option (List Piece)
  | none, [] => some []
  | some _, [] => none
  | none, u :: s =>
    if u = 39 ∨ u = 34 then piecesFrom (some (u, [])) s else (piecesFrom none s).map (.bare u :: ·)
  | some (quote, text), u :: s =>
    if u = quote then
      (piecesFrom none s).map ((if quote = 39 then .single text else .double (text.map Quoted.plain)) :: ·)
    else piecesFrom (some (quote, text ++ [u])) s

def piecesOf (text : Text) : Option (List Piece) := piecesFrom none text

section
variable {rest : Text}

theorem piecesFrom_quoted {quote : UInt16} (text : Text) {body : Text} (h : quote ∉ body) :
    piecesFrom (some (quote, text)) (body ++ quote :: rest) =
      (piecesFrom none rest).map
        ((if quote = 39 then .single (text ++ body) else .double ((text ++ body).map Quoted.plain)) :: ·) := by
  induction body generalizing text with
  | nil => simp [piecesFrom]
  | cons u body ih =>
    have hu : u ≠ quote := fun heq => h (heq ▸ List.mem_cons_self ..)
    rw [List.cons_append, piecesFrom, if_neg hu, ih (text ++ [u]) (fun hmem => h (List.mem_cons_of_mem _ hmem)),
      List.append_assoc, List.singleton_append]

/-- Without a backslash, what stands between double quotes is plain. -/
theorem quoted_plain {items : List Quoted} (hok : items.all Quoted.ok = true)
    (hslash : 92 ∉ items.flatMap Quoted.spell) :
    (items.flatMap Quoted.spell).map Quoted.plain = items ∧ 34 ∉ items.flatMap Quoted.spell := by
  induction items with
  | nil => exact ⟨rfl, by simp⟩
  | cons item items ih =>
    rw [List.all_cons, Bool.and_eq_true] at hok
    rw [List.flatMap_cons, List.mem_append, not_or] at hslash
    obtain ⟨hmap, hquote⟩ := ih hok.2 hslash.2
    cases item with
    | plain u =>
      refine ⟨by simpa [Quoted.spell] using hmap, ?_⟩
      have hu : u ≠ 34 := by
        rintro rfl
        exact absurd hok.1 (by decide)
      simpa [Quoted.spell, hu.symm] using hquote
    | escaped u => exact absurd (by simp [Quoted.spell]) hslash.1

/-- **A text without backslashes is read as its pieces.** -/
theorem piecesFrom_spell {pieces : List Piece} (hok : pieces.all Piece.ok = true) (hslash : 92 ∉ spell pieces) :
    piecesFrom none (spell pieces ++ rest) = (piecesFrom none rest).map (pieces ++ ·) := by
  induction pieces with
  | nil =>
    rw [spell, List.flatMap_nil, List.nil_append]
    simp
  | cons p pieces ih =>
    rw [List.all_cons, Bool.and_eq_true] at hok
    rw [spell_cons, List.mem_append, not_or] at hslash
    have hrest := ih hok.2 hslash.2
    rw [spell_cons, List.append_assoc]
    cases p with
    | bare u =>
      have hu : ¬ (u = 39 ∨ u = 34) := by
        rintro (rfl | rfl)
        · exact absurd hok.1 (by decide)
        · exact absurd hok.1 (by decide)
      rw [Piece.spell, List.singleton_append, piecesFrom, if_neg hu, hrest, Option.map_map]
      rfl
    | escaped u => exact absurd (by simp [Piece.spell]) hslash.1
    | single text =>
      have htext : 39 ∉ text := by simpa [Piece.ok] using hok.1
      rw [Piece.spell, List.cons_append, List.cons_append, List.append_assoc, List.singleton_append, piecesFrom,
        if_pos (Or.inl rfl), piecesFrom_quoted [] htext, hrest, Option.map_map]
      simp [Function.comp_def]
    | double items =>
      have hinner : 92 ∉ items.flatMap Quoted.spell := fun h => hslash.1 (by simp [Piece.spell, h])
      obtain ⟨hplain, hquote⟩ := quoted_plain (by simpa [Piece.ok] using hok.1) hinner
      rw [Piece.spell, List.cons_append, List.cons_append, List.append_assoc, List.singleton_append, piecesFrom,
        if_pos (Or.inr rfl), piecesFrom_quoted [] hquote, hrest, Option.map_map, List.nil_append, hplain]
      simp [Function.comp_def]

theorem piecesOf_spell {pieces : List Piece} (hok : pieces.all Piece.ok = true) (hslash : 92 ∉ spell pieces) :
    piecesOf (spell pieces) = some pieces := by
  have h := @piecesFrom_spell [] pieces hok hslash
  rw [List.append_nil] at h
  rw [piecesOf, h, piecesFrom]
  simp

/-- The pieces that are read are the text, and each is one. -/
theorem piecesFrom_ok {text : Text} (hspecial : ∀ u ∈ text, isSpecial u = true → u = 34 ∨ u = 39)
    {state : Option (UInt16 × Text)}
    (hstate : ∀ quote before, state = some (quote, before) →
      (quote = 39 ∨ quote = 34) ∧ quote ∉ before ∧ ∀ u ∈ before, isSpecial u = true → u = 34 ∨ u = 39)
    {pieces : List Piece} (h : piecesFrom state text = some pieces) :
    spell pieces = (state.elim [] (fun q => q.1 :: q.2)) ++ text ∧ pieces.all Piece.ok = true := by
  induction text generalizing state pieces with
  | nil =>
    cases state with
    | none =>
      cases h
      exact ⟨rfl, rfl⟩
    | some q => cases h
  | cons u s ih =>
    have hrest : ∀ v ∈ s, isSpecial v = true → v = 34 ∨ v = 39 := fun v hv => hspecial v (List.mem_cons_of_mem _ hv)
    cases state with
    | none =>
      rw [piecesFrom] at h
      split at h
      · next hu =>
        refine ih hrest ?_ h
        rintro quote before hq
        cases hq
        exact ⟨hu, by simp, by simp⟩
      · next hu =>
        obtain ⟨ps, hps, rfl⟩ := Option.map_eq_some_iff.1 h
        obtain ⟨hspell, hok⟩ := ih hrest (by simp) hps
        refine ⟨by simpa [spell_cons, Piece.spell] using hspell, ?_⟩
        have hplain : isSpecial u = false := by
          rw [← Bool.not_eq_true]
          intro hsp
          exact hu (hspecial u (List.mem_cons_self ..) hsp).symm
        rw [List.all_cons, Bool.and_eq_true]
        exact ⟨by simp [Piece.ok, hplain], hok⟩
    | some q =>
      obtain ⟨quote, before⟩ := q
      obtain ⟨hquote, hbefore, hplain⟩ := hstate quote before rfl
      rw [piecesFrom] at h
      split at h
      · next hu =>
        subst hu
        obtain ⟨ps, hps, rfl⟩ := Option.map_eq_some_iff.1 h
        obtain ⟨hspell, hok⟩ := ih hrest (by simp) hps
        rw [Option.elim_none, List.nil_append] at hspell
        rw [spell_cons, hspell, List.all_cons, hok, Bool.and_true]
        rcases hquote with rfl | rfl
        · exact ⟨by simp [Piece.spell], by simpa [Piece.ok] using hbefore⟩
        · have hspellings : (before.map Quoted.plain).flatMap Quoted.spell = before := by
            rw [List.flatMap_map]
            exact List.flatMap_singleton' before
          refine ⟨by simp [Piece.spell, hspellings], ?_⟩
          simp only [show ¬ ((34 : UInt16) = 39) by decide, if_false, Piece.ok, List.all_map, List.all_eq_true]
          intro v hv
          have hne : v ≠ 34 := fun heq => hbefore (heq ▸ hv)
          rcases hesc : isEscapable v with _ | _
          · simp [Quoted.ok, hesc]
          · have hsp : isSpecial v = true := by
              simp only [isEscapable, Bool.or_eq_true, beq_iff_eq] at hesc
              rcases hesc with ((rfl | rfl) | rfl) | rfl
              all_goals decide
            rcases hplain v hv hsp with rfl | rfl
            · exact absurd rfl hne
            · exact absurd hesc (by decide)
      · next hu =>
        obtain ⟨hspell, hok⟩ := ih hrest (by
          rintro quote' before' hq
          cases hq
          refine ⟨hquote, ?_, ?_⟩
          · rw [List.mem_append, List.mem_singleton, not_or]
            exact ⟨hbefore, fun heq => hu heq.symm⟩
          · intro v hv
            rcases List.mem_append.1 hv with hv | hv
            · exact hplain v hv
            · rw [List.mem_singleton.1 hv]
              exact hspecial u (List.mem_cons_self ..)) h
        refine ⟨?_, hok⟩
        rw [hspell]
        simp

theorem piecesOf_ok {text : Text} (hspecial : ∀ u ∈ text, isSpecial u = true → u = 34 ∨ u = 39)
    {pieces : List Piece} (h : piecesOf text = some pieces) : spell pieces = text ∧ pieces.all Piece.ok = true := by
  have hread := piecesFrom_ok hspecial (by simp) h
  simpa using hread

end

end Shell
