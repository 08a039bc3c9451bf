import Barbaro.Core.BarbaroCommand
import Barbaro.Core.Content
import Barbaro.Core.TextLines

/-!
# The first command of a shell text

The scan for a wait stops at the first control operator or comment. What stands after that does
not matter, so a text that is cut no earlier is recognized as the whole one is.

* `firstSimpleCommand`: the text before the place where the scan stops.
* `classifyAwaitCommand_first`: a wait is known from its first command, and from every cut after it.
* `truncateUtf8_keeps`: a bounded excerpt keeps a beginning that fits.
-/

namespace Barbaro

/-- Where the scan of the words stops, and what follows. -/
def leadingRest : ℕ → JsString → JsString
  | 0, source => source
  | fuel + 1, source =>
    match source.dropWhile isHorizontalWhitespace with
    | [] => []
    | u :: s =>
      if isShellControl u || u == 35 then u :: s
      else
        match (scanToken .plain [] false (u :: s)).rest with
        | [] => []
        | v :: rest => if isShellControl v then v :: rest else leadingRest fuel (v :: rest)

/-- The command before the first control operator or comment. -/
def firstSimpleCommand (command : JsString) : JsString :=
  command.take (command.length - (leadingRest (command.length + 1) (trimLeadingShellSpacing command)).length)

/-! ## Words -/

/-- A word ends here: at the end of the text, at a blank or at a control operator. -/
def EndsWord (r : JsString) : Prop := ∀ v ∈ r.head?, (isHorizontalWhitespace v || isShellControl v) = true

theorem endsWord_special {v : UInt16} (h : (isHorizontalWhitespace v || isShellControl v) = true) :
    v ≠ 39 ∧ v ≠ 34 ∧ v ≠ 92 := by
  refine ⟨?_, ?_, ?_⟩
  all_goals
    rintro rfl
    exact absurd h (by decide)

/-- A word does not depend on what follows its end. -/
theorem scanToken_keeps {mode : ShellMode} {token : JsString} {started : Bool} {source : JsString}
    (h : (scanToken mode token started source).valid = true) :
    ∃ w, source = w ++ (scanToken mode token started source).rest ∧
      EndsWord (scanToken mode token started source).rest ∧
      ∀ r, EndsWord r → scanToken mode token started (w ++ r) =
        { scanToken mode token started source with rest := r } := by
  induction source generalizing mode token started with
  | nil =>
    cases mode with
    | plain =>
      refine ⟨[], rfl, by rintro v ⟨⟩, fun r hr => ?_⟩
      cases r with
      | nil => rfl
      | cons v r =>
        have hv := hr v rfl
        obtain ⟨h₁, h₂, h₃⟩ := endsWord_special hv
        simp [scanToken, h₁, h₂, h₃, hv]
    | _ => cases h
  | cons v s ih =>
    -- the word goes on in another mode
    have hstep : ∀ {mode' : ShellMode} {token' : JsString} {started' : Bool},
        (∀ s', scanToken mode token started (v :: s') = scanToken mode' token' started' s') →
        ∃ w, v :: s = w ++ (scanToken mode token started (v :: s)).rest ∧
          EndsWord (scanToken mode token started (v :: s)).rest ∧
          ∀ r, EndsWord r → scanToken mode token started (w ++ r) =
            { scanToken mode token started (v :: s) with rest := r } := by
      intro mode' token' started' heq
      rw [heq s] at h ⊢
      obtain ⟨w, hsplit, hends, hkeep⟩ := ih h
      refine ⟨v :: w, by rw [List.cons_append, ← hsplit], hends, fun r hr => ?_⟩
      rw [List.cons_append, heq, hkeep r hr]
    cases mode with
    | plain =>
      by_cases hsingle : v = 39
      · exact hstep fun s' => by rw [scanToken, if_pos hsingle]
      by_cases hdouble : v = 34
      · exact hstep fun s' => by rw [scanToken, if_neg hsingle, if_pos hdouble]
      by_cases hescape : v = 92
      · exact hstep fun s' => by rw [scanToken, if_neg hsingle, if_neg hdouble, if_pos hescape]
      by_cases hend : (isHorizontalWhitespace v || isShellControl v) = true
      · have hstop : ∀ r, EndsWord r → scanToken .plain token started r = ⟨token, started, true, r⟩ := by
          intro r hr
          cases r with
          | nil => rfl
          | cons w r =>
            have hw := hr w rfl
            obtain ⟨h₁, h₂, h₃⟩ := endsWord_special hw
            rw [scanToken, if_neg h₁, if_neg h₂, if_neg h₃, if_pos hw]
        have hhere : EndsWord (v :: s) := by
          rintro w ⟨⟩
          exact hend
        rw [hstop _ hhere]
        exact ⟨[], rfl, hhere, fun r hr => hstop r hr⟩
      · exact hstep fun s' => by
          rw [scanToken, if_neg hsingle, if_neg hdouble, if_neg hescape, if_neg hend]
    | escaped =>
      by_cases hline : v = 10
      · exact hstep fun s' => by rw [scanToken, if_pos hline]
      · exact hstep fun s' => by rw [scanToken, if_neg hline]
    | single =>
      by_cases hclose : v = 39
      · exact hstep fun s' => by rw [scanToken, if_pos hclose]
      · exact hstep fun s' => by rw [scanToken, if_neg hclose]
    | double =>
      by_cases hclose : v = 34
      · exact hstep fun s' => by rw [scanToken, if_pos hclose]
      by_cases hescape : v = 92
      · exact hstep fun s' => by rw [scanToken, if_neg hclose, if_pos hescape]
      · exact hstep fun s' => by rw [scanToken, if_neg hclose, if_neg hescape]
    | doubleEscaped =>
      by_cases hline : v = 10
      · exact hstep fun s' => by rw [scanToken, if_pos hline]
      · exact hstep fun s' => by rw [scanToken, if_neg hline]

/-! ## The first command -/

/-- The scan that stops at `r` stops at `r'` too: at the end of the text, or at the same character. -/
def Stops (r r' : JsString) : Prop := r' = [] ∨ r ≠ [] ∧ r'.head? = r.head?

theorem Stops.refl (r : JsString) : Stops r r := by
  cases r with
  | nil => exact .inl rfl
  | cons u r => exact .inr ⟨List.cons_ne_nil u r, rfl⟩

/-- The scan of the words says nothing else than these. -/
def Reads (scanned : LeadingTokens) (tokens : List JsString) : Prop := scanned.tokens = tokens ∧ scanned.valid = true

theorem leadingLoop_nil (fuel : ℕ) (tokens : List JsString) : Reads (leadingLoop fuel tokens []) tokens := by
  cases fuel with
  | zero => exact ⟨rfl, rfl⟩
  | succ fuel => exact ⟨rfl, rfl⟩

theorem dropWhile_blanks {b : JsString} (hb : ∀ u ∈ b, isHorizontalWhitespace u = true) (s : JsString) :
    (b ++ s).dropWhile isHorizontalWhitespace = s.dropWhile isHorizontalWhitespace :=
  List.dropWhile_append_of_pos hb

theorem stop_blank {u : UInt16} (hstop : (isShellControl u || u == 35) = true) : isHorizontalWhitespace u = false := by
  rcases Bool.or_eq_true _ _ ▸ hstop with hcontrol | hcomment
  · exact (control_special hcontrol).2.2.2.2
  · rw [eq_of_beq hcomment]
    decide

/-- At the place where it stops the scan has all its words. -/
theorem leadingLoop_stop {b : JsString} (hb : ∀ u ∈ b, isHorizontalWhitespace u = true) {u : UInt16} {s r : JsString}
    (hstop : (isShellControl u || u == 35) = true) (hr : Stops (u :: s) r) (fuel : ℕ) (tokens : List JsString) :
    Reads (leadingLoop (fuel + 1) tokens (b ++ r)) tokens := by
  have hblank := stop_blank hstop
  rw [leadingLoop, dropWhile_blanks hb]
  rcases hr with rfl | ⟨-, hhead⟩
  · exact ⟨rfl, rfl⟩
  · cases r with
    | nil => cases hhead
    | cons v r =>
      obtain rfl : v = u := Option.some.inj hhead
      rw [List.dropWhile_cons_of_neg (by simp [hblank])]
      by_cases hcontrol : isShellControl v = true
      · simp [hcontrol, Reads]
      · have hcomment : v = 35 := by simpa [hcontrol] using hstop
        simp [hcomment, Reads, show isShellControl 35 = false by decide]

/-- What becomes of the words after one of them was read. -/
def afterWord (fuel : ℕ) (tokens : List JsString) (word : TokenScan) : LeadingTokens :=
  let tokens := if word.started then tokens ++ [word.token] else tokens
  match word.rest with
  | [] => ⟨tokens, true, true⟩
  | v :: rest => if isShellControl v then ⟨tokens, true, false⟩ else leadingLoop fuel tokens (v :: rest)

/-- A character that a word begins with. -/
structure BeginsWord (u : UInt16) : Prop where
  blank : isHorizontalWhitespace u = false
  stop : (isShellControl u || u == 35) = false

theorem leadingLoop_word {b : JsString} (hb : ∀ u ∈ b, isHorizontalWhitespace u = true) {u : UInt16}
    (hu : BeginsWord u) (s : JsString) (fuel : ℕ) (tokens : List JsString) :
    leadingLoop (fuel + 1) tokens (b ++ u :: s) =
      if (scanToken .plain [] false (u :: s)).valid then afterWord fuel tokens (scanToken .plain [] false (u :: s))
      else ⟨tokens, false, false⟩ := by
  obtain ⟨hcontrol, hcomment⟩ := Bool.or_eq_false_iff.1 hu.stop
  have hne : u ≠ 35 := by simpa using hcomment
  rw [leadingLoop, dropWhile_blanks hb, List.dropWhile_cons_of_neg (by simp [hu.blank])]
  dsimp only
  rw [if_neg (by simp [hcontrol]), if_neg hne]
  cases (scanToken .plain [] false (u :: s)).valid with
  | false => rfl
  | true => rfl

theorem leadingRest_word {b : JsString} (hb : ∀ u ∈ b, isHorizontalWhitespace u = true) {u : UInt16}
    (hu : BeginsWord u) (s : JsString) (fuel : ℕ) :
    leadingRest (fuel + 1) (b ++ u :: s) =
      if (scanToken .plain [] false (u :: s)).rest.head?.any (fun v => !isShellControl v) then
        leadingRest fuel (scanToken .plain [] false (u :: s)).rest
      else (scanToken .plain [] false (u :: s)).rest := by
  rw [leadingRest, dropWhile_blanks hb, List.dropWhile_cons_of_neg (by simp [hu.blank])]
  dsimp only
  rw [if_neg (by simp [hu.stop])]
  cases (scanToken .plain [] false (u :: s)).rest with
  | nil => rfl
  | cons v rest =>
    by_cases hv : isShellControl v = true
    · simp [hv]
    · simp [hv]

/-- After a word the scan stops, or goes on. -/
theorem afterWord_stops {fuel : ℕ} {tokens : List JsString} {word : TokenScan}
    (h : word.rest.head?.any (fun v => !isShellControl v) = false) :
    Reads (afterWord fuel tokens word) (if word.started then tokens ++ [word.token] else tokens) := by
  obtain ⟨token, started, valid, rest⟩ := word
  cases rest with
  | nil => exact ⟨rfl, rfl⟩
  | cons v rest =>
    have hv : isShellControl v = true := by simpa using h
    simp [afterWord, hv, Reads]

theorem afterWord_goes {fuel : ℕ} {tokens : List JsString} {word : TokenScan}
    (h : word.rest.head?.any (fun v => !isShellControl v) = true) :
    afterWord fuel tokens word =
      leadingLoop fuel (if word.started then tokens ++ [word.token] else tokens) word.rest := by
  obtain ⟨token, started, valid, rest⟩ := word
  cases rest with
  | nil => cases h
  | cons v rest =>
    have hv : isShellControl v = false := by simpa using h
    simp [afterWord, hv]

/-- A blank text has no words, and at its end the scan stops. -/
theorem leadingLoop_blank {b : JsString} (hb : ∀ u ∈ b, isHorizontalWhitespace u = true) (fuel : ℕ)
    (tokens : List JsString) : Reads (leadingLoop (fuel + 1) tokens b) tokens ∧ leadingRest (fuel + 1) b = [] := by
  have hdrop : b.dropWhile isHorizontalWhitespace = [] := List.dropWhile_eq_nil_iff.2 hb
  rw [leadingLoop, leadingRest, hdrop]
  exact ⟨⟨rfl, rfl⟩, rfl⟩

/-- A text is blank, stops the scan after blanks, or begins a word there. -/
theorem source_cases (source : JsString) :
    (∀ u ∈ source, isHorizontalWhitespace u = true) ∨ ∃ b u s, source = b ++ u :: s ∧
      (∀ v ∈ b, isHorizontalWhitespace v = true) ∧ ((isShellControl u || u == 35) = true ∨ BeginsWord u) := by
  have hsplit : source.takeWhile isHorizontalWhitespace ++ source.dropWhile isHorizontalWhitespace = source :=
    List.takeWhile_append_dropWhile
  rcases hsource : source.dropWhile isHorizontalWhitespace with _ | ⟨u, s⟩
  · exact .inl (List.dropWhile_eq_nil_iff.1 hsource)
  · have hhead := List.head?_dropWhile_not isHorizontalWhitespace source
    rw [hsource] at hhead hsplit
    have hu : isHorizontalWhitespace u = false := by simpa using hhead
    refine .inr ⟨_, u, s, hsplit.symm, fun v hv => List.mem_takeWhile_imp hv, ?_⟩
    cases hstop : isShellControl u || u == 35 with
    | true => exact .inl rfl
    | false => exact .inr ⟨hu, hstop⟩

theorem leadingRest_stop {b : JsString} (hb : ∀ u ∈ b, isHorizontalWhitespace u = true) {u : UInt16}
    (hstop : (isShellControl u || u == 35) = true) (s : JsString) (fuel : ℕ) :
    leadingRest (fuel + 1) (b ++ u :: s) = u :: s := by
  have hblank : isHorizontalWhitespace u = false := stop_blank hstop
  rw [leadingRest, dropWhile_blanks hb, List.dropWhile_cons_of_neg (by simp [hblank])]
  dsimp only
  rw [if_pos hstop]

/-- **The words are known from what stands before the place** where the scan stops. -/
theorem leadingLoop_keeps (fuel : ℕ) : ∀ {tokens : List JsString} {source : JsString}, source.length < fuel →
    (leadingLoop fuel tokens source).valid = true →
    ∃ p, source = p ++ leadingRest fuel source ∧
      (∀ u ∈ (leadingRest fuel source).head?, (isShellControl u || u == 35) = true) ∧
      ∀ fuel' r, (p ++ r).length < fuel' → Stops (leadingRest fuel source) r →
        Reads (leadingLoop fuel' tokens (p ++ r)) (leadingLoop fuel tokens source).tokens := by
  induction fuel with
  | zero => exact fun h => absurd h (Nat.not_lt_zero _)
  | succ fuel ih =>
    intro tokens source hlen hvalid
    rcases source_cases source with hblank | ⟨b, u, s, rfl, hb, hu⟩
    · obtain ⟨hreads, hrest⟩ := leadingLoop_blank hblank fuel tokens
      rw [hrest, hreads.1]
      refine ⟨source, (List.append_nil _).symm, by rintro u ⟨⟩, fun fuel' r hfuel' hr => ?_⟩
      obtain rfl : r = [] := hr.resolve_right fun h => h.1 rfl
      obtain ⟨fuel', rfl⟩ : ∃ n, fuel' = n + 1 := ⟨fuel' - 1, by omega⟩
      rw [List.append_nil]
      exact (leadingLoop_blank hblank fuel' tokens).1
    rcases hu with hstop | hu
    · rw [leadingRest_stop hb hstop, (leadingLoop_stop hb hstop (.refl (u :: s)) fuel tokens).1]
      refine ⟨b, rfl, by rintro v ⟨⟩; exact hstop, fun fuel' r hfuel' hr => ?_⟩
      obtain ⟨fuel', rfl⟩ : ∃ n, fuel' = n + 1 := ⟨fuel' - 1, by omega⟩
      exact leadingLoop_stop hb hstop hr fuel' tokens
    rw [leadingLoop_word hb hu] at hvalid ⊢
    rw [leadingRest_word hb hu]
    have hword : (scanToken .plain [] false (u :: s)).valid = true := by
      by_contra hinvalid
      rw [if_neg hinvalid] at hvalid
      cases hvalid
    rw [if_pos hword] at hvalid ⊢
    obtain ⟨w, hw, hends, hkeep⟩ := scanToken_keeps hword
    have hshort := scanToken_progress (s := s) hu.blank (Bool.or_eq_false_iff.1 hu.stop).1
    -- the word is not empty
    obtain ⟨w', rfl⟩ : ∃ w', w = u :: w' := by
      cases w with
      | nil =>
        have hlong := congrArg List.length hw
        simp only [List.nil_append, List.length_cons] at hlong
        omega
      | cons v w' => exact ⟨w', by rw [(List.cons.inj hw).1]⟩
    have hagain : ∀ fuel' r, EndsWord r → leadingLoop (fuel' + 1) tokens (b ++ u :: w' ++ r) =
        afterWord fuel' tokens { scanToken .plain [] false (u :: s) with rest := r } := by
      intro fuel' r hr
      have hscan := hkeep r hr
      rw [List.cons_append] at hscan
      rw [List.append_assoc, List.cons_append, leadingLoop_word hb hu, hscan, if_pos hword]
    generalize scanToken .plain [] false (u :: s) = word at *
    by_cases hgoes : word.rest.head?.any (fun v => !isShellControl v) = true
    · rw [if_pos hgoes]
      rw [afterWord_goes hgoes] at hvalid ⊢
      rw [List.length_append, List.length_cons] at hlen
      obtain ⟨p, hp, hhead, hreads⟩ := ih (by omega) hvalid
      refine ⟨b ++ u :: w' ++ p, ?_, hhead, fun fuel' r hfuel' hr => ?_⟩
      · rw [List.append_assoc, ← hp, List.append_assoc, ← hw]
      obtain ⟨fuel', rfl⟩ : ∃ n, fuel' = n + 1 := ⟨fuel' - 1, by omega⟩
      simp only [List.length_append, List.length_cons] at hfuel'
      have hnext := hreads fuel' r (by rw [List.length_append]; omega) hr
      -- what follows the word begins as it did, or is nothing
      have hsame : p ++ r = [] ∨ (p ++ r).head? = word.rest.head? := by
        cases p with
        | nil =>
          rcases hr with rfl | ⟨-, hhead⟩
          · exact .inl rfl
          · rw [List.nil_append] at hp ⊢
            exact .inr (by rw [hhead, ← hp])
        | cons v p => exact .inr (by rw [hp]; rfl)
      rw [List.append_assoc (b ++ u :: w'), hagain fuel' (p ++ r) ?_]
      · rcases hsame with hnil | hhead
        · rw [hnil] at hnext ⊢
          have hstops := @afterWord_stops fuel' tokens { word with rest := [] } rfl
          rw [← hnext.1, (leadingLoop_nil fuel' _).1]
          exact hstops
        · rw [afterWord_goes (by rw [← hhead] at hgoes; exact hgoes)]
          exact hnext
      · rcases hsame with hnil | hhead
        · rw [hnil]
          rintro v ⟨⟩
        · intro v hv
          rw [hhead] at hv
          exact hends v hv
    · rw [if_neg hgoes, (afterWord_stops (by simpa using hgoes)).1]
      refine ⟨b ++ u :: w', by rw [List.append_assoc, ← hw], fun v hv => ?_, fun fuel' r hfuel' hr => ?_⟩
      · rw [Option.mem_def.1 hv] at hgoes
        have hcontrol : isShellControl v = true := by simpa using hgoes
        simp [hcontrol]
      obtain ⟨fuel', rfl⟩ : ∃ n, fuel' = n + 1 := ⟨fuel' - 1, by omega⟩
      have hsame : r = [] ∨ r.head? = word.rest.head? := hr.imp id (·.2)
      rw [hagain fuel' r ?_]
      · refine afterWord_stops ?_
        rcases hsame with rfl | hhead
        · rfl
        · rw [hhead]
          simpa using hgoes
      · rcases hsame with rfl | hhead
        · rintro v ⟨⟩
        · intro v hv
          rw [hhead] at hv
          exact hends v hv

/-- **A wait is known from its first command**, and from every cut after it. -/
theorem classifyAwaitCommand_first {E : Host} {command : JsString} {a : AwaitCommandClassification}
    (h : classifyAwaitCommand E command = some a) :
    ∃ rest, command = firstSimpleCommand command ++ rest ∧
      (∀ u ∈ rest.head?, (isShellControl u || u == 35) = true) ∧
      ∀ r, Stops rest r → classifyAwaitCommand E (firstSimpleCommand command ++ r) = some a := by
  obtain ⟨hvalid, hne⟩ := classifyAwaitCommand_tokens h
  have htrim : command.takeWhile (fun u => isHorizontalWhitespace u || u == 13 || u == 10) ++
      trimLeadingShellSpacing command = command := List.takeWhile_append_dropWhile
  have hlead : ∀ u ∈ command.takeWhile (fun u => isHorizontalWhitespace u || u == 13 || u == 10),
      (isHorizontalWhitespace u || u == 13 || u == 10) = true := by
    intro u hu
    exact List.mem_takeWhile_imp (p := fun u => isHorizontalWhitespace u || u == 13 || u == 10) hu
  generalize command.takeWhile (fun u => isHorizontalWhitespace u || u == 13 || u == 10) = t at htrim hlead
  have hlength : (trimLeadingShellSpacing command).length < command.length + 1 :=
    Nat.lt_succ_of_le (List.dropWhile_suffix _).length_le
  obtain ⟨p, hp, hhead, hreads⟩ := leadingLoop_keeps (command.length + 1) hlength hvalid
  have hfirst : firstSimpleCommand command = t ++ p := by
    have hwhole : command = (t ++ p) ++ leadingRest (command.length + 1) (trimLeadingShellSpacing command) := by
      rw [List.append_assoc, ← hp, htrim]
    have hlen := congrArg List.length hwhole
    rw [List.length_append] at hlen
    rw [firstSimpleCommand]
    conv_lhs => rw [hwhole]
    rw [List.take_left' (by rw [← hwhole]; omega)]
  refine ⟨leadingRest (command.length + 1) (trimLeadingShellSpacing command), ?_, hhead, fun r hr => ?_⟩
  · rw [hfirst, List.append_assoc, ← hp, htrim]
  -- the beginning has all the words, so it is not empty
  obtain ⟨v, p', rfl⟩ : ∃ v p', p = v :: p' := by
    cases p with
    | nil =>
      have hnone := (hreads 1 [] (by simp) (.inl rfl)).1
      exact absurd hnone.symm hne
    | cons v p' => exact ⟨v, p', rfl⟩
  have hv : (isHorizontalWhitespace v || v == 13 || v == 10) = false := by
    have hnot := List.head?_dropWhile_not (fun u => isHorizontalWhitespace u || u == 13 || u == 10) command
    rw [show command.dropWhile (fun u => isHorizontalWhitespace u || u == 13 || u == 10) = _ from hp] at hnot
    simpa using hnot
  have htrim' : trimLeadingShellSpacing (t ++ v :: p' ++ r) = v :: p' ++ r := by
    rw [trimLeadingShellSpacing, List.append_assoc, List.dropWhile_append_of_pos hlead, List.cons_append,
      List.dropWhile_cons_of_neg (by simp [hv])]
  have htokens := hreads ((t ++ v :: p' ++ r).length + 1) r (by simp only [List.length_append]; omega) hr
  rw [← htrim'] at htokens
  rw [hfirst, ← h]
  have hsame : (leadingSimpleCommandTokens (t ++ v :: p' ++ r)).tokens = (leadingSimpleCommandTokens command).tokens :=
    htokens.1
  have hsame' : (leadingSimpleCommandTokens (t ++ v :: p' ++ r)).valid = true := htokens.2
  simp only [classifyAwaitCommand, hsame, hsame', hvalid]

/-! ## Excerpts -/

theorem takeFitting_append (cs ds : List ℕ) {room : ℕ}
    (h : (Utf8.encode (cs.map Utf16.scalarOf)).length ≤ room) :
    ∃ room', takeFitting room (cs ++ ds) = cs ++ takeFitting room' ds := by
  induction cs generalizing room with
  | nil => exact ⟨room, rfl⟩
  | cons c cs ih =>
    rw [List.map_cons, Utf8.encode, List.flatMap_cons, List.length_append] at h
    have hfits : (Utf8.encode (cs.map Utf16.scalarOf)).length ≤ room - (Utf8.encodeOne (Utf16.scalarOf c)).length := by
      unfold Utf8.encode
      omega
    obtain ⟨room', hroom⟩ := ih hfits
    refine ⟨room', ?_⟩
    rw [List.cons_append, takeFitting, if_pos (by omega), hroom, List.cons_append]

/-- **An excerpt keeps a beginning that fits**, before an ASCII character. -/
theorem truncateUtf8_keeps {p rest : JsString} {limit : ℕ} (hp : byteLength p ≤ limit)
    (hrest : ∀ u ∈ rest.head?, u.toNat < 128) : ∃ r, truncateUtf8 (p ++ rest) limit = p ++ r ∧ Stops rest r := by
  cases rest with
  | nil =>
    obtain ⟨room, hroom⟩ := takeFitting_append (Utf16.codePoints p) [] hp
    refine ⟨[], ?_, .inl rfl⟩
    rw [List.append_nil] at hroom ⊢
    rw [truncateUtf8, hroom, takeFitting, List.append_nil, Utf16.units_codePoints]
  | cons u rest =>
    have hu := hrest u rfl
    have hlow : ¬ Utf16.IsLow u := by
      unfold Utf16.IsLow
      omega
    have hhigh : ¬ Utf16.IsHigh u := by
      unfold Utf16.IsHigh
      omega
    obtain ⟨room, hroom⟩ := takeFitting_append (Utf16.codePoints p) (Utf16.codePoints (u :: rest)) hp
    refine ⟨Utf16.units (takeFitting room (Utf16.codePoints (u :: rest))), ?_, ?_⟩
    · rw [truncateUtf8, Utf16.codePoints_append_cons hlow, hroom, Utf16.units, List.flatMap_append]
      rw [show (Utf16.codePoints p).flatMap Utf16.unitsOne = p from Utf16.units_codePoints p, Utf16.units]
    · rw [Utf16.codePoints_cons hhigh, takeFitting]
      split
      · refine .inr ⟨List.cons_ne_nil u rest, ?_⟩
        rw [Utf16.units, List.flatMap_cons, Utf16.unitsOne, if_pos (by omega)]
        simp
      · exact .inl rfl

end Barbaro
