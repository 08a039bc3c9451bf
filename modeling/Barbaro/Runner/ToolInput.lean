import Barbaro.Core.Host
import Barbaro.Core.Patterns
import Barbaro.Lib.JsonBalance
import Barbaro.Lib.JsonRoundTrip
import Barbaro.Lib.Marker

/-!
# The commands in a custom tool call

Current Codex Desktop custom tools encode nested calls as JavaScript source. Only calls of one name with an object
in strict JSON as their argument are read; the rest of the source is left alone.

* `extractExecCommands`: the commands of the calls in a source.
* `extract_total`: every source is read to its end.
* `exec_commands_extracted`: what is extracted from rendered calls, and of what it is read in any source.
-/

namespace Barbaro.Codex

variable (E : Host)

def execMarker : JsString := js "tools.exec_command("

structure ExtractedCommand where
  command : JsString
  occurrence : ℕ
  deriving DecidableEq, Repr

/-- `skipWhitespace` -/
def skipWhitespace (value : JsString) : JsString := value.dropWhile isTrimUnit

/-- The object at the beginning of a text up to its closing brace, and what follows it. -/
def extractBalancedJsonObject (value : JsString) : Option (JsString × JsString) :=
  if value.head? ≠ some 123 then none else Json.balance 0 false false value

/-- The text of the command, if this is the text of an object with one. -/
def commandOf (text : JsString) : Option JsString :=
  match Json.parse E.float text with
  | some (.obj fields) =>
    match Json.lookup (js "cmd") fields with
    | some (.str command) => some command
    | _ => none
  | _ => none

/-- The loop on the text from `searchFrom` on. -/
def extractLoop : ℕ → ℕ → JsString → Option (List ExtractedCommand)
  | 0, _, _ => none
  | fuel + 1, occurrence, input =>
    match Marker.indexOf execMarker input with
    | none => some []
    | some markerIndex =>
      let value := input.drop (markerIndex + execMarker.length)
      match extractBalancedJsonObject (skipWhitespace value) with
      | none => extractLoop fuel occurrence value
      | some (text, rest) =>
        match commandOf E text with
        | none => extractLoop fuel occurrence rest
        | some command => (extractLoop fuel (occurrence + 1) rest).map (⟨command, occurrence⟩ :: ·)

def extractExecCommands (input : JsString) : Option (List ExtractedCommand) := extractLoop E (input.length + 1) 0 input

/-! ## The object in a text -/

/-- The text of an object that the parser accepts, with a command. -/
structure CommandObject (text command : JsString) : Prop where
  first : text.head? = some 123
  last : text.getLast? = some 125
  command : commandOf E text = some command

variable {E}

theorem CommandObject.balanced {text command : JsString} (h : CommandObject E text command) (rest : JsString) :
    extractBalancedJsonObject (text ++ rest) = some (text, rest) := by
  obtain ⟨hfirst, hlast, hcommand⟩ := h
  cases text with
  | nil => cases hfirst
  | cons u s =>
    obtain rfl : u = 123 := Option.some.inj hfirst
    have hparse : ∃ v, Json.parse E.float (123 :: s) = some v := by
      rw [commandOf] at hcommand
      split at hcommand
      · next fields hparse => exact ⟨_, hparse⟩
      · cases hcommand
    obtain ⟨v, hparse⟩ := hparse
    have hs : s.getLast? = some 125 := by
      cases s with
      | nil => cases hlast
      | cons w s => rwa [List.getLast?_cons_cons] at hlast
    rw [extractBalancedJsonObject, if_neg (by simp)]
    exact Json.balance_object hparse hs rest

/-- What is found is the beginning of the text. -/
theorem balance_append {value : JsString} {depth : ℕ} {inString escaped : Bool} {text rest : JsString}
    (h : Json.balance depth inString escaped value = some (text, rest)) : value = text ++ rest := by
  induction value generalizing depth inString escaped text with
  | nil =>
    rw [Json.balance] at h
    cases h
  | cons u s ih =>
    have hgo : ∀ {d i e}, (Json.balance d i e s).map (fun q => (u :: q.1, q.2)) = some (text, rest) →
        u :: s = text ++ rest := by
      intro d i e hmap
      obtain ⟨⟨t, r⟩, hq, heq⟩ := Option.map_eq_some_iff.1 hmap
      obtain ⟨rfl, rfl⟩ : u :: t = text ∧ r = rest := Prod.mk.inj heq
      rw [ih hq, List.cons_append]
    rw [Json.balance] at h
    dsimp only at h
    split at h
    · split at h
      · exact hgo h
      · split at h
        · exact hgo h
        · split at h
          · exact hgo h
          · exact hgo h
    · split at h
      · exact hgo h
      · split at h
        · exact hgo h
        · split at h
          · split at h
            · cases h
              rfl
            · exact hgo h
          · exact hgo h

/-! ## Any source -/

/-- The command stands in the source as a whole object after a marker. -/
def Occurs (E : Host) (input command : JsString) : Prop :=
  ∃ before blank text rest, input = before ++ (execMarker ++ (blank ++ (text ++ rest))) ∧
    (∀ u ∈ blank, isTrimUnit u = true) ∧ extractBalancedJsonObject (text ++ rest) = some (text, rest) ∧
    commandOf E text = some command

theorem Occurs.later {front input command : JsString} (h : Occurs E input command) :
    Occurs E (front ++ input) command := by
  obtain ⟨before, blank, text, rest, rfl, hrest⟩ := h
  exact ⟨front ++ before, blank, text, rest, by rw [List.append_assoc], hrest⟩

/-- The commands are numbered from here on, and each stands in the source. -/
structure Extracted (E : Host) (occurrence : ℕ) (input : JsString) (commands : List ExtractedCommand) : Prop where
  numbered : commands.map ExtractedCommand.occurrence = List.range' occurrence commands.length
  occurs : ∀ c ∈ commands, Occurs E input c.command

/-- **Every source is read to its end**: each round goes on after a marker. -/
theorem extract_total (fuel : ℕ) : ∀ occurrence input, input.length < fuel →
    ∃ commands, extractLoop E fuel occurrence input = some commands ∧ Extracted E occurrence input commands := by
  induction fuel with
  | zero => exact fun _ _ h => absurd h (Nat.not_lt_zero _)
  | succ fuel ih =>
    intro occurrence input hlen
    rw [extractLoop]
    cases hindex : Marker.indexOf execMarker input with
    | none => exact ⟨[], rfl, rfl, fun _ h => nomatch h⟩
    | some markerIndex =>
      have hinput := Marker.indexOf_eq_some hindex
      set before := input.take markerIndex
      set value := input.drop (markerIndex + execMarker.length)
      have hvalue : value.length < fuel := by
        have hlong := congrArg List.length hinput
        have hmarker : execMarker.length = 19 := by decide
        simp only [List.length_append] at hlong
        omega
      -- the rest of the source begins somewhere after the marker
      have hlater : ∀ {front rest command}, value = front ++ rest → Occurs E rest command → Occurs E input command := by
        intro front rest command hsplit hoccurs
        rw [← hinput, hsplit, ← List.append_assoc execMarker, ← List.append_assoc before]
        exact hoccurs.later
      dsimp only
      cases hobject : extractBalancedJsonObject (skipWhitespace value) with
      | none =>
        obtain ⟨commands, hrun, hcommands⟩ := ih occurrence value hvalue
        exact ⟨commands, hrun, hcommands.numbered, fun c hc => hlater (List.nil_append _).symm (hcommands.occurs c hc)⟩
      | some found =>
        obtain ⟨text, rest⟩ := found
        have hblank : value = value.takeWhile isTrimUnit ++ (text ++ rest) := by
          have hfound := hobject
          rw [extractBalancedJsonObject] at hfound
          split at hfound
          · cases hfound
          · rw [← balance_append hfound]
            exact (List.takeWhile_append_dropWhile).symm
        have hrest : rest.length < fuel := by
          have hlong := congrArg List.length hblank
          simp only [List.length_append] at hlong
          omega
        have hfront : value = (value.takeWhile isTrimUnit ++ text) ++ rest := by
          rw [List.append_assoc]
          exact hblank
        dsimp only
        cases hcommand : commandOf E text with
        | none =>
          obtain ⟨commands, hrun, hcommands⟩ := ih occurrence rest hrest
          exact ⟨commands, hrun, hcommands.numbered, fun c hc => hlater hfront (hcommands.occurs c hc)⟩
        | some command =>
          obtain ⟨commands, hrun, hcommands⟩ := ih (occurrence + 1) rest hrest
          refine ⟨⟨command, occurrence⟩ :: commands, by rw [hrun]; rfl, ?_, fun c hc => ?_⟩
          · rw [List.map_cons, hcommands.numbered, List.length_cons, List.range'_succ]
          · rcases List.mem_cons.1 hc with rfl | hc
            · refine ⟨before, value.takeWhile isTrimUnit, text, rest, ?_, fun u hu => List.mem_takeWhile_imp hu, ?_,
                hcommand⟩
              · rw [← hblank]
                exact hinput.symm
              · have hskip : skipWhitespace value = text ++ rest := by
                  have hboth := (List.takeWhile_append_dropWhile (p := isTrimUnit) (l := value)).trans hblank
                  exact List.append_cancel_left hboth
                rwa [hskip] at hobject
            · exact hlater hfront (hcommands.occurs c hc)

/-! ## Rendered calls -/

/-- A call with the text of an object, white space around it, and what stands between it and the next one. -/
structure ExecCall (E : Host) where
  command : JsString
  before : JsString
  text : JsString
  after : JsString
  gap : JsString
  object : CommandObject E text command
  before_blank : ∀ u ∈ before, isTrimUnit u = true
  after_blank : ∀ u ∈ after, isTrimUnit u = true
  gap_free : ¬ execMarker <:+: gap

/-- `tools.exec_command( … )` and what follows it. -/
def ExecCall.render (c : ExecCall E) : JsString := execMarker ++ (c.before ++ (c.text ++ (c.after ++ 41 :: c.gap)))

theorem marker_eq : execMarker = 116 :: execMarker.tail := by decide

theorem indexOf_exec {a : JsString} (ha : ¬ execMarker <:+: a) (b : JsString) :
    Marker.indexOf execMarker (a ++ (execMarker ++ b)) = some a.length := by
  have hfirst : 116 ∉ execMarker.tail := by
    rw [← List.elem_iff, Bool.not_eq_true]
    decide
  rw [marker_eq] at ha ⊢
  exact Marker.indexOf_marker hfirst ha b

theorem skipWhitespace_blank {blank text : JsString} (hblank : ∀ u ∈ blank, isTrimUnit u = true)
    (htext : text.head? = some 123) (rest : JsString) : skipWhitespace (blank ++ (text ++ rest)) = text ++ rest := by
  rw [skipWhitespace, List.dropWhile_append_of_pos hblank]
  cases text with
  | nil => cases htext
  | cons u s =>
    obtain rfl : u = 123 := Option.some.inj htext
    rfl

/-- What closes a call and what follows it have no marker. -/
theorem ExecCall.tail_free (c : ExecCall E) : ¬ execMarker <:+: c.after ++ 41 :: c.gap := by
  have hclose : ¬ execMarker <:+: 41 :: c.gap := by
    rw [marker_eq]
    refine Marker.marker_free_front (a := [41]) (by simp) ?_
    rw [← marker_eq]
    exact c.gap_free
  rw [marker_eq] at hclose ⊢
  refine Marker.marker_free_front (fun u hu heq => ?_) hclose
  have hblank := c.after_blank u hu
  rw [heq] at hblank
  exact absurd hblank (by decide)

theorem extract_rendered (calls : List (ExecCall E)) : ∀ {lead : JsString}, ¬ execMarker <:+: lead →
    ∀ occurrence fuel, (lead ++ calls.flatMap ExecCall.render).length < fuel →
      extractLoop E fuel occurrence (lead ++ calls.flatMap ExecCall.render) =
        some ((calls.zipIdx occurrence).map (fun p => ⟨p.1.command, p.2⟩)) := by
  induction calls with
  | nil =>
    intro lead hlead occurrence fuel hfuel
    obtain ⟨fuel, rfl⟩ : ∃ n, fuel = n + 1 := ⟨fuel - 1, by omega⟩
    rw [List.flatMap_nil, List.append_nil, extractLoop, Marker.indexOf_eq_none.2 hlead]
    rfl
  | cons c calls ih =>
    intro lead hlead occurrence fuel hfuel
    obtain ⟨fuel, rfl⟩ : ∃ n, fuel = n + 1 := ⟨fuel - 1, by omega⟩
    have hinput : lead ++ (c :: calls).flatMap ExecCall.render =
        lead ++ (execMarker ++ (c.before ++ (c.text ++ ((c.after ++ 41 :: c.gap) ++ calls.flatMap ExecCall.render)))) := by
      simp [ExecCall.render]
    rw [hinput] at hfuel ⊢
    have hvalue : ∀ b : JsString, (lead ++ (execMarker ++ b)).drop (lead.length + execMarker.length) = b := by
      intro b
      rw [← List.append_assoc, List.drop_left' (List.length_append)]
    rw [extractLoop, indexOf_exec hlead]
    dsimp only
    rw [hvalue, skipWhitespace_blank c.before_blank c.object.first, c.object.balanced]
    dsimp only
    rw [c.object.command]
    dsimp only
    rw [ih c.tail_free (occurrence + 1) fuel ?_, List.zipIdx_cons, List.map_cons]
    · rfl
    · have hmarker : execMarker.length = 19 := by decide
      simp only [List.length_append] at hfuel ⊢
      omega

/-- `JSON.stringify` of arguments with the command. -/
theorem rendered_object {fields : List (JsString × Json)} {command : JsString}
    (hwell : (Json.obj fields).WellFormed E.float) (hcommand : Json.lookup (js "cmd") fields = some (.str command)) :
    CommandObject E (Json.obj fields).render command := by
  have hrest : ∀ fs : List (JsString × Json), (Json.renderFields fs).getLast? = some 125 := by
    intro fs
    induction fs with
    | nil => rfl
    | cons f fs ih =>
      rw [Json.renderFields, List.getLast?_append, ih]
      rfl
  have hends : (Json.obj fields).render.head? = some 123 ∧ (Json.obj fields).render.getLast? = some 125 := by
    cases fields with
    | nil => exact ⟨rfl, rfl⟩
    | cons f fs =>
      rw [Json.render]
      refine ⟨rfl, ?_⟩
      rw [List.getLast?_append, hrest]
      rfl
  refine ⟨hends.1, hends.2, ?_⟩
  rw [commandOf, Json.parse_render hwell]
  dsimp only
  rw [hcommand]

/-- **Extracting commands inverts rendering** them: every command has the text of an object, and whatever such
texts the calls have and whatever stands between them, the commands are found in order. Of any source it gives
commands that stand in it as whole objects, numbered in order. -/
theorem exec_commands_extracted (E : Host) :
    (∀ command, CommandObject E (Json.obj [(js "cmd", .str command)]).render command) ∧
    (∀ (lead : JsString) (calls : List (ExecCall E)), ¬ execMarker <:+: lead →
      extractExecCommands E (lead ++ calls.flatMap ExecCall.render) =
        some (calls.zipIdx.map (fun p => ⟨p.1.command, p.2⟩))) ∧
    ∀ input, ∃ commands, extractExecCommands E input = some commands ∧
      commands.map ExtractedCommand.occurrence = List.range commands.length ∧
      ∀ c ∈ commands, Occurs E input c.command := by
  refine ⟨fun command => rendered_object ⟨by simp, trivial, trivial⟩ (by simp [Json.lookup]),
    fun lead calls hlead => extract_rendered calls hlead 0 _ (Nat.lt_succ_self _), fun input => ?_⟩
  obtain ⟨commands, hrun, hcommands⟩ := extract_total (E := E) (input.length + 1) 0 input (Nat.lt_succ_self _)
  refine ⟨commands, hrun, ?_, hcommands.occurs⟩
  rw [hcommands.numbered, List.range_eq_range']

end Barbaro.Codex
