import Barbaro.Core.CommandWords

/-!
# The await command and the hook that recognizes it

`barbaro await` reads its flags one by one: a flag that takes a value takes the next argument,
which begins with no dashes, and no flag comes twice. The hook finds the timeout in the words of
the shell text instead, by the name of the flag at any place.

* `parseFlags_value`: where the name of a flag stands among the arguments that were accepted.
* `await_recognized`: the hook sees the wait that the command does, with the timeout it uses.
-/

namespace Barbaro.Cli

open Shell

def defaultWatchIntervalMs : ℤ := 2000

/-! ## Flags -/

/-- The flags that were read, in the order of the arguments. -/
abbrev Flags := List (JsString × JsString)

def isFlag (argument : JsString) : Bool := (js "--").isPrefixOf argument

def missingValue (name : JsString) : JsString := js "Missing value for --" ++ name

/-- Each flag is known and comes once; one that is no boolean takes the next argument. -/
def parseFlags (allowed booleans : List String) : Flags → List JsString → Except JsString Flags
  | flags, [] => .ok flags
  | flags, argument :: rest =>
    let name := argument.drop 2
    if !isFlag argument then .error (js "Unexpected argument: " ++ argument)
    else if !allowed.any (js · == name) then .error (js "Unknown flag: --" ++ name)
    else if (flags.lookup name).isSome then .error (js "Duplicate flag: --" ++ name)
    else if booleans.any (js · == name) then parseFlags allowed booleans (flags ++ [(name, js "true")]) rest
    else
      match rest with
      | [] => .error (missingValue name)
      | value :: rest =>
        if value = [] ∨ isFlag value then .error (missingValue name)
        else parseFlags allowed booleans (flags ++ [(name, value)]) rest

section
variable (E : Host)

def positiveIntegerFlag (flags : Flags) (name : JsString) (fallback : ℤ) : Except JsString ℤ :=
  match flags.lookup name with
  | none => .ok fallback
  | some raw =>
    match numberOf E raw with
    | none => .error (js "--" ++ name ++ js " must be a positive integer")
    | some value => if value ≤ 0 then .error (js "--" ++ name ++ js " must be a positive integer") else .ok value

/-- Whose cursor the wait is about. -/
def assertAwaitIdentityFlags (flags : Flags) : Except JsString Unit :=
  let self := flags.lookup (js "self")
  let provider := flags.lookup (js "provider")
  let nativeSessionId := flags.lookup (js "session-id")
  if self.isSome ∧ (provider.isSome ∨ nativeSessionId.isSome) then
    .error (js "--self is mutually exclusive with --provider/--session-id")
  else if provider.isSome ≠ nativeSessionId.isSome then
    .error (js "--provider and --session-id must be supplied together")
  else if self = none ∧ provider = none then
    .error (js "barbaro await requires --self or --provider/--session-id")
  else if (flags.lookup (js "all-workstreams")).isSome then
    .error (js "barbaro await cannot use --all-workstreams with a session cursor")
  else .ok ()

def awaitFlags : List String :=
  ["project-root", "interval-ms", "timeout-ms", "self", "provider", "session-id", "workstream", "all-workstreams", "json"]

def awaitBooleans : List String := ["all-workstreams", "json"]

/-- What the command waits with. -/
structure AwaitOptions where
  flags : Flags
  intervalMs : ℤ
  timeoutMs : ℤ

/-- `barbaro await`, up to where it looks at the store. -/
def awaitCommand (args : List JsString) : Except JsString AwaitOptions := do
  let flags ← parseFlags awaitFlags awaitBooleans [] args
  let intervalMs ← positiveIntegerFlag E flags (js "interval-ms") defaultWatchIntervalMs
  let timeoutMs ← positiveIntegerFlag E flags (js "timeout-ms") defaultAwaitTimeoutMs
  if timeoutMs > maxAwaitTimeoutMs then throw (js "--timeout-ms must be at most 3600000")
  assertAwaitIdentityFlags flags
  return { flags, intervalMs, timeoutMs }

end

/-! ## Where a flag stands -/

theorem lookup_append_ne {name other : JsString} (h : name ≠ other) (flags : Flags) (value : JsString) :
    (flags ++ [(other, value)]).lookup name = flags.lookup name := by
  rw [List.lookup_append, List.lookup_cons, beq_eq_false_iff_ne.2 h]
  simp

theorem flag_name {argument : JsString} (h : isFlag argument = true) : argument = js "--" ++ argument.drop 2 := by
  obtain ⟨rest, rfl⟩ := List.isPrefixOf_iff_prefix.1 h
  rfl

/-- **Where the name of a flag stands** among the arguments that were accepted: nowhere, if it was
read before or not at all; and once, before its value, if it was read from them. -/
theorem parseFlags_value {allowed booleans : List String} {name : JsString}
    (hvalued : booleans.any (js · == name) = false) : ∀ {flags : Flags} {argv : List JsString} {flags' : Flags},
    parseFlags allowed booleans flags argv = .ok flags' →
      (js "--" ++ name ∉ argv ∧ flags'.lookup name = flags.lookup name) ∨
      (flags.lookup name = none ∧ ∃ before value after, argv = before ++ (js "--" ++ name) :: value :: after ∧
        js "--" ++ name ∉ before ∧ js "--" ++ name ∉ value :: after ∧ flags'.lookup name = some value) := by
  intro flags argv flags' h
  have hother : ∀ {argument : JsString}, isFlag argument = true → argument.drop 2 ≠ name →
      argument ≠ js "--" ++ name := by
    rintro argument - hne rfl
    exact hne rfl
  fun_induction parseFlags allowed booleans flags argv with
  | case1 flags =>
    cases h
    exact .inl ⟨List.not_mem_nil, rfl⟩
  | case2 => cases h
  | case3 => cases h
  | case4 => cases h
  | case5 flags argument rest name' hflag hknown hnew hboolean ih =>
    -- a boolean is another flag, and takes nothing
    have hne : argument.drop 2 ≠ name := by
      rintro rfl
      rw [hvalued] at hboolean
      cases hboolean
    rw [Bool.not_eq_true, Bool.not_eq_false'] at hflag
    have hlookup := lookup_append_ne hne.symm flags (js "true")
    rcases ih h with ⟨hnone, hsame⟩ | ⟨hunset, before, value, after, rfl, hbefore, hafter, hset⟩
    · refine .inl ⟨?_, hsame.trans hlookup⟩
      rw [List.mem_cons, not_or]
      exact ⟨(hother hflag hne).symm, hnone⟩
    · refine .inr ⟨hlookup.symm.trans hunset, argument :: before, value, after, rfl, ?_, hafter, hset⟩
      rw [List.mem_cons, not_or]
      exact ⟨(hother hflag hne).symm, hbefore⟩
  | case6 => cases h
  | case7 => cases h
  | case8 flags argument name' hflag hknown hnew hboolean value rest hvalue ih =>
    rw [Bool.not_eq_true, Bool.not_eq_false'] at hflag
    rw [not_or, Bool.not_eq_true] at hvalue
    -- the value of a flag begins with no dashes
    have hplain : js "--" ++ name ≠ value := by
      rintro rfl
      rw [show isFlag (js "--" ++ name) = true from List.isPrefixOf_iff_prefix.2 (List.prefix_append ..)] at hvalue
      cases hvalue.2
    by_cases hname : argument.drop 2 = name
    · have hunset : flags.lookup name = none := by
        rw [← hname, ← Option.not_isSome_iff_eq_none]
        exact hnew
      have hset : (flags ++ [(name', value)]).lookup name = some value := by
        have hname' : name' = name := hname
        rw [List.lookup_append, hunset, List.lookup_cons, hname', beq_self_eq_true]
        rfl
      rcases ih h with ⟨hnone, hsame⟩ | ⟨hunset', -⟩
      · refine .inr ⟨hunset, [], value, rest, ?_, List.not_mem_nil, ?_, hsame.trans hset⟩
        · rw [List.nil_append, flag_name hflag, hname]
        · rw [List.mem_cons, not_or]
          exact ⟨hplain, hnone⟩
      · rw [hset] at hunset'
        cases hunset'
    · have hlookup := lookup_append_ne (Ne.symm hname) flags value
      rcases ih h with ⟨hnone, hsame⟩ | ⟨hunset, before, value', after, rfl, hbefore, hafter, hset⟩
      · refine .inl ⟨?_, hsame.trans hlookup⟩
        rw [List.mem_cons, not_or, List.mem_cons, not_or]
        exact ⟨(hother hflag hname).symm, hplain, hnone⟩
      · refine .inr ⟨hlookup.symm.trans hunset, argument :: value :: before, value', after, rfl, ?_, hafter, hset⟩
        rw [List.mem_cons, not_or, List.mem_cons, not_or]
        exact ⟨(hother hflag hname).symm, hplain, hbefore⟩

section
variable {E : Host}

/-- The number that the command reads from its flag is the one that stands there. -/
theorem positiveIntegerFlag_ok {flags : Flags} {name : JsString} {fallback value : ℤ}
    (h : positiveIntegerFlag E flags name fallback = .ok value) :
    (flags.lookup name = none ∧ value = fallback) ∨
      ∃ raw, flags.lookup name = some raw ∧ numberOf E raw = some value ∧ 0 < value := by
  unfold positiveIntegerFlag at h
  split at h
  · next hnone =>
    cases h
    exact .inl ⟨hnone, rfl⟩
  · next raw hraw =>
    split at h
    · cases h
    · next z hz =>
      split at h
      · cases h
      · next hpositive =>
        cases h
        exact .inr ⟨raw, hraw, hz, by omega⟩

theorem findIdxs_none {token : JsString} {args : List JsString} (h : token ∉ args) :
    args.findIdxs (· == token) = [] := by
  rw [List.findIdxs_eq_nil_iff]
  rintro arg harg
  rw [beq_eq_false_iff_ne]
  rintro rfl
  exact h harg

theorem findIdxs_once {token : JsString} {before after : List JsString} (hbefore : token ∉ before)
    (hafter : token ∉ after) : (before ++ token :: after).findIdxs (· == token) = [before.length] := by
  rw [List.findIdxs_append, findIdxs_none hbefore, List.findIdxs_cons, beq_self_eq_true, if_pos rfl,
    List.findIdxs_start, findIdxs_none hafter]
  simp

/-- **The timeout that the hook finds** is the one that the command uses. -/
theorem awaitTimeout_flags {flags : Flags} {args : List JsString} {timeoutMs : ℤ}
    (hparse : parseFlags awaitFlags awaitBooleans [] args = .ok flags)
    (hvalue : positiveIntegerFlag E flags (js "timeout-ms") defaultAwaitTimeoutMs = .ok timeoutMs)
    (hmax : timeoutMs ≤ maxAwaitTimeoutMs) (first second : JsString) :
    awaitTimeoutFromTokens E (first :: second :: args) = timeoutMs := by
  have hvalued : awaitBooleans.any (js · == js "timeout-ms") = false := by decide
  have htoken : js "--" ++ js "timeout-ms" = js "--timeout-ms" := by decide
  have hread := parseFlags_value hvalued hparse
  rw [htoken] at hread
  have hdrop : (first :: second :: args).drop 2 = args := rfl
  rw [awaitTimeoutFromTokens, hdrop]
  rcases hread with ⟨hnone, hunset⟩ | ⟨-, before, value, after, rfl, hbefore, hafter, hset⟩
  · rw [findIdxs_none hnone]
    rcases positiveIntegerFlag_ok hvalue with ⟨-, rfl⟩ | ⟨raw, hraw, -⟩
    · rfl
    · rw [hunset] at hraw
      cases hraw
  · have hnext : (first :: second :: (before ++ js "--timeout-ms" :: value :: after))[before.length + 3]? = some value := by
      simp
    rw [findIdxs_once hbefore hafter]
    rcases positiveIntegerFlag_ok hvalue with ⟨hnone, -⟩ | ⟨raw, hraw, hnumber, hpositive⟩
    · rw [hset] at hnone
      cases hnone
    · rw [hset] at hraw
      cases hraw
      simp only [hnext, hnumber]
      rw [if_neg (by omega), min_eq_left hmax]

theorem awaitCommand_timeout {args : List JsString} {options : AwaitOptions} (h : awaitCommand E args = .ok options)
    (first second : JsString) : awaitTimeoutFromTokens E (first :: second :: args) = options.timeoutMs := by
  unfold awaitCommand at h
  rcases hparse : parseFlags awaitFlags awaitBooleans [] args with e | flags
  · rw [hparse] at h
    cases h
  rcases hinterval : positiveIntegerFlag E flags (js "interval-ms") defaultWatchIntervalMs with e | intervalMs
  · simp only [hparse, hinterval, bind, Except.bind] at h
    cases h
  rcases htimeout : positiveIntegerFlag E flags (js "timeout-ms") defaultAwaitTimeoutMs with e | timeoutMs
  · simp only [hparse, hinterval, htimeout, bind, Except.bind] at h
    cases h
  by_cases hmax : timeoutMs > maxAwaitTimeoutMs
  · simp only [hparse, hinterval, htimeout, bind, Except.bind, if_pos hmax] at h
    cases h
  rcases hidentity : assertAwaitIdentityFlags flags with e | _
  · simp only [hparse, hinterval, htimeout, bind, Except.bind, if_neg hmax, hidentity] at h
    cases h
  simp only [hparse, hinterval, htimeout, bind, Except.bind, if_neg hmax, hidentity, pure, Except.pure] at h
  cases h
  exact awaitTimeout_flags hparse htimeout (by omega) first second

/-! ## What the hook sees -/

/-- Nothing, or what an operator chains to the command. -/
def Chained (rest : JsString) : Prop := ∀ u ∈ rest.head?, u = 59 ∨ u = 38 ∨ u = 124 ∨ u = 10

theorem Chained.control {u : UInt16} {rest : JsString} (h : Chained (u :: rest)) :
    isShellControl u = true ∧ ∀ text : JsString, hasDigestUnsafeShellSyntax (text ++ u :: rest) = true := by
  rcases h u rfl with rfl | rfl | rfl | rfl
  all_goals
    refine ⟨by decide, fun text => ?_⟩
    simp [hasDigestUnsafeShellSyntax]

/-- **A hook sees the wait that the command does**: however the arguments are quoted, if no carriage
return stands outside quotes, and whatever is chained to the command. A command without other
shell syntax stays out of the digests. -/
theorem await_recognized {args : List JsString} {options : AwaitOptions} (hcli : awaitCommand E args = .ok options)
    {pieces : List Piece} (hwritten : SpelledWords (js "barbaro" :: js "await" :: args) pieces)
    (hreturn : .bare 13 ∉ pieces) {rest : JsString} (hrest : Chained rest) :
    classifyAwaitCommand E (spell pieces ++ rest) =
        some ⟨options.timeoutMs, options.timeoutMs + awaitLeaseGraceMs⟩ ∧
      (hasDigestUnsafeShellSyntax (spell pieces ++ rest) = false →
        isDigestExcludedBarbaroCommand (spell pieces ++ rest) = true) := by
  have htokens := leadingSimpleCommandTokens_words hwritten.ok hreturn hwritten.comment
  rw [hwritten.reads] at htokens
  have hclassified : classifyAwaitCommand E (spell pieces) =
      some ⟨options.timeoutMs, options.timeoutMs + awaitLeaseGraceMs⟩ := by
    simp only [classifyAwaitCommand, htokens, awaitCommand_timeout hcli]
    rfl
  cases rest with
  | nil =>
    rw [List.append_nil]
    refine ⟨hclassified, ?_⟩
    intro hsafe
    simp only [isDigestExcludedBarbaroCommand, hsafe, htokens]
    rfl
  | cons u rest =>
    obtain ⟨hcontrol, hwhole⟩ := hrest.control
    refine ⟨classifyAwaitCommand_control hcontrol hclassified, ?_⟩
    intro hsafe
    rw [hwhole] at hsafe
    cases hsafe

end

/-! ## A quoted wait -/

def commandHost : Host := Host.ofTables [] [(0, js "1970-01-01T00:00:00.000Z")] epochDate_ok

def quotedAwait : List Piece :=
  (js "barbaro await --self ").map .bare ++ [.single (js "ses 1")] ++ (js " --timeout-ms 5").map .bare

theorem quotedAwait_words : SpelledWords
    [js "barbaro", js "await", js "--self", js "ses 1", js "--timeout-ms", js "5"] quotedAwait :=
  ⟨by decide, by decide, by decide⟩

theorem chained_list : Chained (js "; ls") := by
  rintro u ⟨⟩
  exact .inl rfl

theorem await_recognized_quoted : classifyAwaitCommand commandHost (spell quotedAwait ++ js "; ls") = some ⟨5, 60005⟩ ∧
    (hasDigestUnsafeShellSyntax (spell quotedAwait ++ js "; ls") = false →
      isDigestExcludedBarbaroCommand (spell quotedAwait ++ js "; ls") = true) :=
  @await_recognized commandHost _ ⟨[(js "self", js "ses 1"), (js "timeout-ms", js "5")], 2000, 5⟩ rfl _
    quotedAwait_words (by decide) _ chained_list

end Barbaro.Cli
