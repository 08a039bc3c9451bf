import Barbaro.Core.Patterns

/-!
# Barbaro commands in a shell command

A hook recognizes `barbaro await` and the commands that only read by the words of the first
simple command of a shell text. Nothing is expanded or run: quotes and backslashes group
characters, and an unquoted control operator ends the scan.

* `classifyAwaitCommand`: the wait a command begins with, and how long it may last.
* `classifyAwaitCommand_bounds`: a wait is neither empty nor longer than the limit.
* `leadingTokens_control`: what follows a control operator does not matter.
-/

namespace Barbaro

def defaultAwaitTimeoutMs : ℤ := 600000
def maxAwaitTimeoutMs : ℤ := 3600000
def awaitLeaseGraceMs : ℤ := 60000

structure AwaitCommandClassification where
  /-- Timeout used for lease lifetime purposes, capped at the limit of the command. -/
  timeoutMs : ℤ
  /-- Long enough for the wait and its bounded completion grace. -/
  leaseTtlMs : ℤ
  deriving DecidableEq, Repr

/-! ## Words -/

def isHorizontalWhitespace (u : UInt16) : Bool := u == 32 || u == 9

/-- `;`, `&`, `|`, `<`, `>` and the ends of lines. -/
def isShellControl (u : UInt16) : Bool :=
  u == 59 || u == 38 || u == 124 || u == 60 || u == 62 || u == 13 || u == 10

/-- A word, as far as it was read. -/
structure TokenScan where
  token : JsString
  started : Bool
  /-- Its quotes are closed and its last backslash escapes something. -/
  valid : Bool
  rest : JsString
  deriving DecidableEq, Repr

/-- What an escaped character stands for between double quotes. -/
def quotedEscape (u : UInt16) : JsString :=
  if u = 36 ∨ u = 96 ∨ u = 34 ∨ u = 92 then [u] else [92, u]

/-- Where in a word the scan is. -/
inductive ShellMode
  | plain
  /-- After a backslash. -/
  | escaped
  | single
  | double
  /-- After a backslash between double quotes. -/
  | doubleEscaped
  deriving DecidableEq, Repr

/-- The inner loop: the rest of a word. A backslash is kept in mind until the character it
escapes. -/
def scanToken : ShellMode → JsString → Bool → JsString → TokenScan
  | mode, token, started, [] => ⟨token, started, mode == .plain, []⟩
  | .plain, token, started, u :: s =>
    if u = 39 then scanToken .single token true s
    else if u = 34 then scanToken .double token true s
    else if u = 92 then scanToken .escaped token started s
    else if isHorizontalWhitespace u || isShellControl u then ⟨token, started, true, u :: s⟩
    else scanToken .plain (token ++ [u]) true s
  | .escaped, token, started, u :: s =>
    if u = 10 then scanToken .plain token started s else scanToken .plain (token ++ [u]) true s
  | .single, token, _, u :: s =>
    if u = 39 then scanToken .plain token true s else scanToken .single (token ++ [u]) true s
  | .double, token, started, u :: s =>
    if u = 34 then scanToken .plain token true s
    else if u = 92 then scanToken .doubleEscaped token started s
    else scanToken .double (token ++ [u]) true s
  | .doubleEscaped, token, started, u :: s =>
    if u = 10 then scanToken .double token started s
    else scanToken .double (token ++ quotedEscape u) true s

structure LeadingTokens where
  tokens : List JsString
  valid : Bool
  consumedAll : Bool
  deriving DecidableEq, Repr

/-- The outer loop: word after word. The first argument bounds the words. -/
def leadingLoop : ℕ → List JsString → JsString → LeadingTokens
  | 0, tokens, _ => ⟨tokens, true, true⟩
  | fuel + 1, tokens, source =>
    match source.dropWhile isHorizontalWhitespace with
    | [] => ⟨tokens, true, true⟩
    | u :: s =>
      if isShellControl u then ⟨tokens, true, false⟩
      else if u = 35 then ⟨tokens, true, true⟩ -- a comment cannot run another command
      else
        let word := scanToken .plain [] false (u :: s)
        if !word.valid then ⟨tokens, false, false⟩
        else
          let tokens := if word.started then tokens ++ [word.token] else tokens
          match word.rest with
          | [] => ⟨tokens, true, true⟩
          | v :: rest => if isShellControl v then ⟨tokens, true, false⟩ else leadingLoop fuel tokens (v :: rest)

def trimLeadingShellSpacing (command : JsString) : JsString :=
  command.dropWhile (fun u => isHorizontalWhitespace u || u == 13 || u == 10)

/-- Tokenize only the first simple shell command. -/
def leadingSimpleCommandTokens (command : JsString) : LeadingTokens :=
  leadingLoop (command.length + 1) [] (trimLeadingShellSpacing command)

/-! ## Commands -/

section
variable (E : Host)

/-- `Number(text)`, where it is a safe integer. The host rounds what is no plain integer. -/
def numberOf (text : JsString) : Option ℤ :=
  if trim text = [] then some 0
  else if (trim text).all Json.isDigit && Json.ofDigits (trim text) ≤ maxSafeInteger then
    some (Json.ofDigits (trim text))
  else
    match E.float (trim text) with
    | .int z => if z.natAbs ≤ maxSafeInteger then some z else none
    | .other _ => none

def awaitTimeoutFromTokens (tokens : List JsString) : ℤ :=
  match (tokens.drop 2).findIdxs (· == js "--timeout-ms") with
  | [index] =>
    match tokens[index + 3]? with
    | none => defaultAwaitTimeoutMs
    | some raw =>
      match numberOf E raw with
      | none => defaultAwaitTimeoutMs
      | some parsed => if parsed ≤ 0 then defaultAwaitTimeoutMs else min parsed maxAwaitTimeoutMs
  | _ => defaultAwaitTimeoutMs

/-- Recognize the exact leading shell tokens `barbaro await`. -/
def classifyAwaitCommand (command : JsString) : Option AwaitCommandClassification :=
  let scanned := leadingSimpleCommandTokens command
  if !scanned.valid then none
  else if scanned.tokens[0]? ≠ some (js "barbaro") ∨ scanned.tokens[1]? ≠ some (js "await") then none
  else
    let timeoutMs := awaitTimeoutFromTokens E scanned.tokens
    some { timeoutMs, leaseTtlMs := timeoutMs + awaitLeaseGraceMs }

variable {E}

/-- **A wait is neither empty nor longer than the limit**, and its lease outlives it. -/
theorem classifyAwaitCommand_bounds {command : JsString} {a : AwaitCommandClassification}
    (h : classifyAwaitCommand E command = some a) :
    1 ≤ a.timeoutMs ∧ a.timeoutMs ≤ maxAwaitTimeoutMs ∧ a.leaseTtlMs = a.timeoutMs + awaitLeaseGraceMs := by
  have htimeout : ∀ tokens, 1 ≤ awaitTimeoutFromTokens E tokens ∧
      awaitTimeoutFromTokens E tokens ≤ maxAwaitTimeoutMs := by
    intro tokens
    have hdefault : (1 : ℤ) ≤ defaultAwaitTimeoutMs ∧ defaultAwaitTimeoutMs ≤ maxAwaitTimeoutMs := by decide
    have hmax : (1 : ℤ) ≤ maxAwaitTimeoutMs := by decide
    unfold awaitTimeoutFromTokens
    split
    · split
      · exact hdefault
      · split
        · exact hdefault
        · split
          · exact hdefault
          · omega
    · exact hdefault
  simp only [classifyAwaitCommand] at h
  split_ifs at h
  cases h
  exact ⟨(htimeout _).1, (htimeout _).2, rfl⟩

end

/-! ## What follows a control operator -/

section
variable {u : UInt16} {after : JsString}

/-- A control operator is no other special character. -/
theorem control_special (hu : isShellControl u = true) :
    u ≠ 39 ∧ u ≠ 34 ∧ u ≠ 92 ∧ u ≠ 35 ∧ isHorizontalWhitespace u = false := by
  simp only [isShellControl, Bool.or_eq_true, beq_iff_eq] at hu
  rcases hu with (((((rfl | rfl) | rfl) | rfl) | rfl) | rfl) | rfl
  all_goals decide

/-- A word that is read to its end is read the same before a control operator. -/
theorem scanToken_control (hu : isShellControl u = true) {mode : ShellMode} {token : JsString}
    {started : Bool} {source : JsString} (h : (scanToken mode token started source).valid = true) :
    scanToken mode token started (source ++ u :: after) =
      { scanToken mode token started source with
        rest := (scanToken mode token started source).rest ++ u :: after } := by
  obtain ⟨hsingle, hdouble, hbackslash, -, -⟩ := control_special hu
  induction source generalizing mode token started with
  | nil =>
    cases mode with
    | plain => simp [scanToken, hsingle, hdouble, hbackslash, hu]
    | _ => cases h
  | cons v s ih =>
    rw [List.cons_append]
    cases mode with
    | plain =>
      simp only [scanToken] at h ⊢
      split_ifs at h ⊢
      · exact ih h
      · exact ih h
      · exact ih h
      · rfl
      · exact ih h
    | escaped =>
      simp only [scanToken] at h ⊢
      split_ifs at h ⊢
      · exact ih h
      · exact ih h
    | single =>
      simp only [scanToken] at h ⊢
      split_ifs at h ⊢
      · exact ih h
      · exact ih h
    | double =>
      simp only [scanToken] at h ⊢
      split_ifs at h ⊢
      · exact ih h
      · exact ih h
      · exact ih h
    | doubleEscaped =>
      simp only [scanToken] at h ⊢
      split_ifs at h ⊢
      · exact ih h
      · exact ih h

/-- A word takes what it reads from the beginning of the text. -/
theorem scanToken_length (mode : ShellMode) (token : JsString) (started : Bool) (source : JsString) :
    (scanToken mode token started source).rest.length ≤ source.length := by
  induction source generalizing mode token started with
  | nil => simp [scanToken]
  | cons v s ih =>
    have hnext : ∀ mode token started, (scanToken mode token started s).rest.length ≤ (v :: s).length := by
      intro mode token started
      have := ih mode token started
      rw [List.length_cons]
      omega
    cases mode with
    | plain =>
      simp only [scanToken]
      split_ifs
      · exact hnext _ _ _
      · exact hnext _ _ _
      · exact hnext _ _ _
      · exact le_rfl
      · exact hnext _ _ _
    | _ =>
      simp only [scanToken]
      split_ifs
      all_goals exact hnext _ _ _

/-- A word reads at least the character it begins with. -/
theorem scanToken_progress {v : UInt16} {s : JsString} (hblank : isHorizontalWhitespace v = false)
    (hcontrol : isShellControl v = false) :
    (scanToken .plain [] false (v :: s)).rest.length ≤ s.length := by
  simp only [scanToken, hblank, hcontrol, Bool.or_self, Bool.false_eq_true, if_false]
  split_ifs
  all_goals exact scanToken_length _ _ _ s

theorem dropWhile_append_control {p : UInt16 → Bool} (hp : p u = false) (source : JsString) :
    (source ++ u :: after).dropWhile p = source.dropWhile p ++ u :: after := by
  induction source with
  | nil => simp [hp]
  | cons v s ih =>
    rw [List.cons_append, List.dropWhile_cons, List.dropWhile_cons]
    split
    · exact ih
    · rfl

theorem dropWhile_append_of_ne {p : UInt16 → Bool} {source rest : JsString} (h : source.dropWhile p ≠ []) :
    (source ++ rest).dropWhile p = source.dropWhile p ++ rest := by
  induction source with
  | nil => exact absurd rfl h
  | cons v s ih =>
    rw [List.dropWhile_cons] at h
    rw [List.cons_append, List.dropWhile_cons, List.dropWhile_cons]
    split
    · next hv =>
      rw [if_pos hv] at h
      exact ih h
    · rfl

/-- The words of a text are those of its beginning before a control operator. -/
theorem leadingLoop_control (hu : isShellControl u = true) {fuel fuel' : ℕ} {tokens : List JsString}
    {source : JsString} (hfuel : source.length < fuel) (hfuel' : source.length < fuel')
    (h : (leadingLoop fuel tokens source).valid = true) :
    (leadingLoop fuel' tokens (source ++ u :: after)).tokens = (leadingLoop fuel tokens source).tokens ∧
      (leadingLoop fuel' tokens (source ++ u :: after)).valid = true := by
  obtain ⟨-, -, -, -, hblank⟩ := control_special hu
  induction fuel generalizing fuel' tokens source with
  | zero => omega
  | succ fuel ih =>
    obtain ⟨fuel', rfl⟩ : ∃ n, fuel' = n + 1 := ⟨fuel' - 1, by omega⟩
    simp only [leadingLoop, dropWhile_append_control hblank] at h ⊢
    have hdrop : (source.dropWhile isHorizontalWhitespace).length ≤ source.length :=
      (List.dropWhile_suffix _).length_le
    rcases hsource : source.dropWhile isHorizontalWhitespace with _ | ⟨v, s⟩
    · simp [hu]
    · have hv : isHorizontalWhitespace v = false := by
        have hhead := List.head?_dropWhile_not isHorizontalWhitespace source
        rw [hsource] at hhead
        simpa using hhead
      rw [hsource, List.length_cons] at hdrop
      rw [hsource] at h
      simp only [List.cons_append] at h ⊢
      by_cases hcontrol : isShellControl v = true
      · simp [hcontrol]
      by_cases hcomment : v = 35
      · simp only [hcomment, if_true]
        have hplain : isShellControl 35 = false := by decide
        simp [hplain]
      simp only [hcontrol, hcomment, if_false] at h ⊢
      have hvalid : (scanToken .plain [] false (v :: s)).valid = true := by
        by_contra hinvalid
        rw [Bool.not_eq_true] at hinvalid
        simp [hinvalid] at h
      have hword : scanToken .plain [] false (v :: s ++ u :: after) =
          { scanToken .plain [] false (v :: s) with
            rest := (scanToken .plain [] false (v :: s)).rest ++ u :: after } :=
        scanToken_control hu hvalid
      have hlength := scanToken_progress (s := s) hv (Bool.not_eq_true _ ▸ hcontrol)
      rw [List.cons_append] at hword
      rw [hword]
      simp only [hvalid, Bool.not_true, Bool.false_eq_true, if_false] at h ⊢
      -- what is left of the text after the word is shorter
      generalize (scanToken .plain [] false (v :: s)).token = token at h ⊢
      generalize (scanToken .plain [] false (v :: s)).started = started at h ⊢
      rcases hrest : (scanToken .plain [] false (v :: s)).rest with _ | ⟨w, rest⟩
      · simp [hu]
      · rw [hrest] at h hlength
        simp only [List.cons_append] at h ⊢
        by_cases hw : isShellControl w = true
        · simp [hw]
        · simp only [hw, if_false] at h ⊢
          exact ih (by omega) (by omega) h

/-- A wait has words. -/
theorem classifyAwaitCommand_tokens {E : Host} {command : JsString} {a : AwaitCommandClassification}
    (h : classifyAwaitCommand E command = some a) :
    (leadingSimpleCommandTokens command).valid = true ∧ (leadingSimpleCommandTokens command).tokens ≠ [] := by
  simp only [classifyAwaitCommand] at h
  split_ifs at h with hvalid hwords
  refine ⟨by simpa using hvalid, ?_⟩
  intro hnil
  simp [hnil] at hwords

/-- **Later chained commands do not matter**: they run only after the wait. -/
theorem classifyAwaitCommand_control {E : Host} (hu : isShellControl u = true) {command : JsString}
    {a : AwaitCommandClassification} (h : classifyAwaitCommand E command = some a) :
    classifyAwaitCommand E (command ++ u :: after) = some a := by
  obtain ⟨hvalid, hne⟩ := classifyAwaitCommand_tokens h
  -- a text without a word of its own is no wait, so there is something to keep
  have htrim : trimLeadingShellSpacing (command ++ u :: after) = trimLeadingShellSpacing command ++ u :: after := by
    have hsome : trimLeadingShellSpacing command ≠ [] := by
      intro hnil
      refine hne ?_
      simp [leadingSimpleCommandTokens, hnil, leadingLoop]
    unfold trimLeadingShellSpacing at hsome ⊢
    exact dropWhile_append_of_ne hsome
  have hlength : (trimLeadingShellSpacing command).length ≤ command.length := (List.dropWhile_suffix _).length_le
  obtain ⟨htokens, hvalid'⟩ := @leadingLoop_control u after hu (command.length + 1)
    ((command ++ u :: after).length + 1) [] (trimLeadingShellSpacing command) (by omega)
    (by rw [List.length_append]; omega) hvalid
  rw [← htrim] at htokens hvalid'
  have heq : (leadingSimpleCommandTokens (command ++ u :: after)).tokens =
      (leadingSimpleCommandTokens command).tokens := htokens
  have hvalid'' : (leadingSimpleCommandTokens (command ++ u :: after)).valid = true := hvalid'
  rw [← h]
  simp only [classifyAwaitCommand, heq, hvalid, hvalid'']

end

def hasDigestUnsafeShellSyntax (command : JsString) : Bool :=
  command.any (fun u => u == 13 || u == 10 || u == 59 || u == 38 || u == 124 || u == 60 || u == 62) ||
    (command.zip (command.drop 1)).contains (36, 40) || command.contains 96

/-- Generated reads are bookkeeping, not work performed by the agent: one simple invocation
of a command that only reads. -/
def isDigestExcludedBarbaroCommand (command : JsString) : Bool :=
  if hasDigestUnsafeShellSyntax command then false
  else
    let scanned := leadingSimpleCommandTokens command
    let is := fun (index : ℕ) (word : String) => scanned.tokens[index]? == some (js word)
    if !scanned.valid || !scanned.consumedAll then false
    else if !is 0 "barbaro" then false
    else if is 1 "read" then is 2 "context" || (is 2 "turn" && is 3 "show")
    else if is 1 "await" || is 1 "context" then true
    else if is 1 "turn" then is 2 "list" || is 2 "show"
    else is 1 "evidence" && is 2 "show"

end Barbaro
