import Barbaro.Lib.Utf8Chunks
import Barbaro.Tui.ComfortInput

/-!
# Pastes and chunks

A bracketed paste reaches the decoder in chunks, cut anywhere. The start marker is held in
the buffer until it is complete. The body is taken over chunk by chunk: the buffer is
emptied each time, so an end marker that is cut is never seen, and each chunk is decoded on
its own, so a character that is cut becomes U+FFFD.

* `texts_delivered`, `texts_stuck`: the chunks as texts, with the end marker whole in one of
  them or in none.
* `paste_delivered_iff`: a paste arrives exactly if every chunk holds whole characters and
  one holds the end marker.
-/

namespace Barbaro.Tui

open ComfortInputParser

/-- A decoder that waits for nothing. -/
def idle (editor : Bool) : ComfortInputParser := { editor }

/-- A decoder that holds the beginning of the start marker. -/
def holding (editor : Bool) (u : JsString) : ComfortInputParser := { editor, buffer := u, timer := u ≠ [] }

/-- A decoder in paste mode. -/
def collecting (editor : Bool) (w : JsString) : ComfortInputParser := { editor, pasting := true, pasted := w }

variable {editor : Bool}

/-! ## Between events -/

/-- The paste is empty outside paste mode, and the timer is armed only over a held escape. -/
structure Tidy (s : ComfortInputParser) : Prop where
  pasted : s.pasting = false → s.pasted = []
  timer : s.timer = true → s.buffer ≠ []

theorem Tidy.idle_of_empty {s : ComfortInputParser} (h : Tidy s) (hbuffer : s.buffer = []) (hmode : s.pasting = false) :
    s = idle s.editor := by
  have htimer : s.timer = false := by
    rcases ht : s.timer with _ | _
    · rfl
    · exact absurd hbuffer (h.timer ht)
  have hpasted := h.pasted hmode
  cases s
  simp_all [idle]

theorem drainRound_tidy {s : ComfortInputParser} {r : DrainRound} (h : Tidy s) (htimer : s.timer = false)
    (hr : drainRound s = r) : match r with
    | .done _ s' => Tidy s'
    | .again _ s' => Tidy s' ∧ s'.timer = false := by
  have hoff : ∀ {P : Prop}, s.timer = true → P := fun ht => absurd ht (by rw [htimer]; exact Bool.false_ne_true)
  have hp := h.pasted
  unfold drainRound at hr
  split at hr
  · rename_i hpaste
    split at hr <;> subst hr
    · exact ⟨fun hmode => absurd hpaste (by rw [hmode]; exact Bool.false_ne_true), hoff⟩
    · exact ⟨⟨fun _ => rfl, hoff⟩, htimer⟩
  · split at hr
    · subst hr
      exact ⟨hp, hoff⟩
    · rename_i hempty
      split at hr
      · subst hr
        exact ⟨⟨fun hmode => (Bool.noConfusion hmode), hoff⟩, htimer⟩
      · split at hr
        · split at hr <;> subst hr
          · exact ⟨hp, fun _ hnil => hempty (by rw [hnil, List.length_nil])⟩
          · exact ⟨⟨hp, hoff⟩, htimer⟩
          · exact ⟨⟨hp, hoff⟩, htimer⟩
        · split at hr
          · subst hr
            exact ⟨⟨hp, hoff⟩, htimer⟩
          · split at hr <;> subst hr <;> exact ⟨hp, hoff⟩

theorem drain_tidy {s : ComfortInputParser} (h : Tidy s) (htimer : s.timer = false) : Tidy (drain s).2 := by
  induction hn : s.buffer.length using Nat.strongRecOn generalizing s with
  | ind n ih =>
    rw [drain_eq]
    cases hr : drainRound s with
    | done events s' => exact drainRound_tidy h htimer hr
    | again events s' =>
      have hround := drainRound_tidy h htimer hr
      exact ih s'.buffer.length (hn ▸ drainRound_shorter hr) hround.1 hround.2 rfl

/-- **Between two chunks** a decoder with nothing in its buffer, outside paste mode, is as a fresh one. -/
theorem feedAll_tidy {s : ComfortInputParser} (h : Tidy s) (chunks : List Bytes) : Tidy (feedAll s chunks).2 := by
  induction chunks generalizing s with
  | nil => exact h
  | cons chunk chunks ih =>
    refine ih (drain_tidy ⟨h.pasted, fun ht => ?_⟩ rfl)
    cases ht

/-! ## The chunks as texts -/

/-- Several decoded chunks. -/
def feedTexts (s : ComfortInputParser) : List JsString → List ComfortEvent × ComfortInputParser
  | [] => ([], s)
  | text :: texts => ((feedText s text).1 ++ (feedTexts (feedText s text).2 texts).1,
      (feedTexts (feedText s text).2 texts).2)

theorem feedAll_eq (s : ComfortInputParser) (chunks : List Bytes) :
    feedAll s chunks = feedTexts s (chunks.map bytesToString) := by
  induction chunks generalizing s with
  | nil => rfl
  | cons chunk chunks ih =>
    rw [feedAll, List.map_cons, feedTexts, ← ih]
    rfl

theorem start_units : bracketedPasteStart = [0x1B, 0x5B, 0x32, 0x30, 0x30, 0x7E] := by decide

theorem end_units : bracketedPasteEnd = [0x1B, 0x5B, 0x32, 0x30, 0x31, 0x7E] := by decide

/-- The escape of the end marker does not come again in it. -/
theorem escape_once : (0x1B : UInt16) ∉ ([0x5B, 0x32, 0x30, 0x31, 0x7E] : JsString) := by decide

/-- The start marker has no part in an end marker. -/
theorem end_of_start {v : JsString} (h : bracketedPasteEnd <:+: bracketedPasteStart ++ v) : bracketedPasteEnd <:+: v := by
  rw [start_units, end_units] at h
  rw [end_units]
  simpa [List.infix_cons_iff, List.cons_prefix_cons] using h

theorem feedText_hold {u x : JsString} (h : u ++ x <+: bracketedPasteStart) (hne : u ++ x ≠ bracketedPasteStart) :
    feedText (holding editor u) x = ([], holding editor (u ++ x)) := by
  have hfed : feedText (holding editor u) x = drain { editor, buffer := u ++ x } := rfl
  rw [hfed]
  obtain ⟨r, hr⟩ := h
  generalize u ++ x = s at hr hne
  rw [start_units] at hr hne
  -- the five texts that a start marker may continue
  rcases s with _ | ⟨a, _ | ⟨b, _ | ⟨c, _ | ⟨d, _ | ⟨e, _ | ⟨f, s⟩⟩⟩⟩⟩⟩
  · cases editor <;> decide
  · simp only [List.cons_append, List.nil_append, List.cons.injEq] at hr
    obtain ⟨rfl, -⟩ := hr
    cases editor <;> decide
  · simp only [List.cons_append, List.nil_append, List.cons.injEq] at hr
    obtain ⟨rfl, rfl, -⟩ := hr
    cases editor <;> decide
  · simp only [List.cons_append, List.nil_append, List.cons.injEq] at hr
    obtain ⟨rfl, rfl, rfl, -⟩ := hr
    cases editor <;> decide
  · simp only [List.cons_append, List.nil_append, List.cons.injEq] at hr
    obtain ⟨rfl, rfl, rfl, rfl, -⟩ := hr
    cases editor <;> decide
  · simp only [List.cons_append, List.nil_append, List.cons.injEq] at hr
    obtain ⟨rfl, rfl, rfl, rfl, rfl, -⟩ := hr
    cases editor <;> decide
  · simp only [List.cons_append, List.cons.injEq, List.append_eq_nil_iff] at hr
    obtain ⟨rfl, rfl, rfl, rfl, rfl, rfl, rfl, -⟩ := hr
    exact absurd rfl hne

/-- The start marker is complete: what follows it is collected. -/
theorem feedText_start {u x v : JsString} (h : u ++ x = bracketedPasteStart ++ v) :
    feedText (holding editor u) x = feedText (collecting editor []) v := by
  have hfed : feedText (holding editor u) x = drain { editor, buffer := bracketedPasteStart ++ v } := by
    rw [← h]
    rfl
  have hlen : (bracketedPasteStart ++ v).length ≠ 0 := by
    rw [start_units, List.length_append]
    simp
  have hpre : bracketedPasteStart.isPrefixOf (bracketedPasteStart ++ v) = true :=
    List.isPrefixOf_iff_prefix.2 ⟨v, rfl⟩
  have hround : drainRound { editor, buffer := bracketedPasteStart ++ v } =
      .again [] { editor, buffer := v, pasting := true } := by
    rw [drainRound, if_neg Bool.false_ne_true, if_neg hlen, if_pos hpre, List.drop_left]
  rw [hfed, drain_eq, hround]
  rfl

theorem feedText_collect {w v : JsString} (h : ¬ bracketedPasteEnd <:+: v) :
    feedText (collecting editor w) v = ([], collecting editor (w ++ v)) := by
  have hround : drainRound { editor, buffer := v, pasting := true, pasted := w } = .done [] (collecting editor (w ++ v)) := by
    rw [drainRound, if_pos rfl, Marker.indexOf_eq_none.2 h]
    rfl
  have hfed : feedText (collecting editor w) v = drain { editor, buffer := v, pasting := true, pasted := w } := rfl
  rw [hfed, drain_eq, hround]

theorem feedText_end {w v : JsString} (h : ¬ bracketedPasteEnd <:+: v) :
    feedText (collecting editor w) (v ++ bracketedPasteEnd) = ([.paste (w ++ v)], idle editor) := by
  have hfound : Marker.indexOf bracketedPasteEnd (v ++ bracketedPasteEnd) = some v.length := by
    rw [end_units] at h ⊢
    have := Marker.indexOf_marker escape_once h []
    rwa [List.append_nil] at this
  have hround : drainRound { editor, buffer := v ++ bracketedPasteEnd, pasting := true, pasted := w } =
      .again [.paste (w ++ v)] (idle editor) := by
    rw [drainRound, if_pos rfl, hfound]
    simp only [List.take_left]
    rw [← List.length_append, List.drop_length]
    rfl
  have hfed : feedText (collecting editor w) (v ++ bracketedPasteEnd) =
      drain { editor, buffer := v ++ bracketedPasteEnd, pasting := true, pasted := w } := rfl
  have hrest : drain (idle editor) = ([], idle editor) := by cases editor <;> decide
  rw [hfed, drain_eq, hround]
  simp only [hrest, List.append_nil]

/-- Empty chunks change nothing. -/
theorem texts_empty {xs : List JsString} (h : xs.flatten = []) : feedTexts (idle editor) xs = ([], idle editor) := by
  induction xs with
  | nil => rfl
  | cons x xs ih =>
    rw [List.flatten_cons, List.append_eq_nil_iff] at h
    have hx : feedText (idle editor) [] = ([], idle editor) := by cases editor <;> decide
    rw [feedTexts, h.1, hx, ih h.2]
    rfl

/-- **Without the end marker in one chunk** the decoder stays in paste mode. -/
theorem collect_stuck {xs : List JsString} (h : ∀ x ∈ xs, ¬ bracketedPasteEnd <:+: x) (w : JsString) :
    feedTexts (collecting editor w) xs = ([], collecting editor (w ++ xs.flatten)) := by
  induction xs generalizing w with
  | nil => simp [feedTexts]
  | cons x xs ih =>
    rw [feedTexts, feedText_collect (h x (by simp)), ih fun y hy => h y (by simp [hy])]
    simp

/-- With the end marker in one chunk the paste is emitted. -/
theorem collect_delivered {xs : List JsString} {y : JsString} (hy : ¬ bracketedPasteEnd <:+: y)
    (h : xs.flatten = y ++ bracketedPasteEnd) (hin : ∃ x ∈ xs, bracketedPasteEnd <:+: x) (w : JsString) :
    feedTexts (collecting editor w) xs = ([.paste (w ++ y)], idle editor) := by
  induction xs generalizing y w with
  | nil => simp at hin
  | cons x xs ih =>
    have hstep : ∀ {m}, y = x ++ m → xs.flatten = m ++ bracketedPasteEnd →
        feedTexts (collecting editor w) (x :: xs) = ([.paste (w ++ y)], idle editor) := by
      rintro m rfl hrest
      have hx : ¬ bracketedPasteEnd <:+: x := fun hx => hy (hx.trans (List.prefix_append x m).isInfix)
      have hm : ¬ bracketedPasteEnd <:+: m := fun hm => hy (hm.trans (List.suffix_append x m).isInfix)
      have hin' : ∃ z ∈ xs, bracketedPasteEnd <:+: z := by
        obtain ⟨z, hz, hzin⟩ := hin
        rcases List.mem_cons.1 hz with rfl | hz
        · exact absurd hzin hx
        · exact ⟨z, hz, hzin⟩
      rw [feedTexts, feedText_collect hx, ih hm hrest hin', List.append_assoc]
      rfl
    rw [List.flatten_cons] at h
    rcases List.append_eq_append_iff.1 h with ⟨m, hm, hrest⟩ | ⟨m, rfl, hend⟩
    · exact hstep hm hrest
    · rcases eq_or_ne m [] with rfl | hne
      · refine @hstep [] (by simp) (by simpa using hend.symm)
      · rcases eq_or_ne xs.flatten [] with hnil | hmore
        · rw [hnil, List.append_nil] at hend
          rw [feedTexts, ← hend, feedText_end hy, texts_empty hnil]
          rfl
        · -- the marker is cut, so no chunk has it
          exfalso
          have hcut : m <+: bracketedPasteEnd ∧ m ≠ bracketedPasteEnd := by
            refine ⟨⟨_, hend.symm⟩, fun heq => hmore ?_⟩
            rw [heq] at hend
            simpa using hend
          have hfree : ¬ bracketedPasteEnd <:+: y ++ m := by
            rw [end_units] at hy hcut ⊢
            exact Marker.marker_free_append escape_once hy hcut.1 hcut.2
          have hlen := congrArg List.length hend
          have := List.length_pos_iff.2 hne
          rw [List.length_append] at hlen
          obtain ⟨z, hz, hzin⟩ := hin
          rcases List.mem_cons.1 hz with rfl | hz
          · exact hfree hzin
          · have hlong := (hzin.trans (List.infix_of_mem_flatten hz)).length_le
            omega

section
variable {xs : List JsString} {u y : JsString} (hu : u <+: bracketedPasteStart) (hne : u ≠ bracketedPasteStart)
include hu hne

variable (editor) in
/-- The chunks up to the one that completes the start marker. -/
theorem hold_to_start {z : JsString} (h : u ++ xs.flatten = bracketedPasteStart ++ z) :
    ∃ vs, vs.flatten = z ∧ feedTexts (holding editor u) xs = feedTexts (collecting editor []) vs ∧
      ((∃ x ∈ xs, bracketedPasteEnd <:+: x) ↔ ∃ v ∈ vs, bracketedPasteEnd <:+: v) := by
  induction xs generalizing u with
  | nil =>
    have hlen := congrArg List.length h
    rw [List.flatten_nil, List.append_nil, List.length_append] at hlen
    exact absurd (hu.eq_of_length_le (by omega)) hne
  | cons x xs ih =>
    have htail : ∀ {v}, u ++ x = bracketedPasteStart ++ v → bracketedPasteEnd <:+: x → bracketedPasteEnd <:+: v :=
      fun hv hx => end_of_start (hx.trans (hv ▸ (List.suffix_append u x).isInfix))
    rw [List.flatten_cons, ← List.append_assoc] at h
    rcases List.append_eq_append_iff.1 h with ⟨m, hm, hrest⟩ | ⟨v, hv, hrest⟩
    · rcases eq_or_ne (u ++ x) bracketedPasteStart with heq | hshort
      · -- the marker ends with the chunk
        have hv : u ++ x = bracketedPasteStart ++ [] := by rw [heq, List.append_nil]
        have hm' : m = [] := by
          rw [heq] at hm
          simpa using hm
        refine ⟨[] :: xs, by rw [List.flatten_cons, hrest, hm']; rfl, ?_, ?_⟩
        · rw [feedTexts, feedText_start hv, feedTexts]
        · simp only [List.mem_cons, exists_eq_or_imp]
          exact or_congr_left ⟨htail hv, fun hnil => (hnil.trans List.nil_infix)⟩
      · have hpre : u ++ x <+: bracketedPasteStart := ⟨m, hm.symm⟩
        obtain ⟨vs, hflat, hfeed, hiff⟩ := ih hpre hshort (by rw [hrest, hm]; simp only [List.append_assoc])
        refine ⟨vs, hflat, ?_, ?_⟩
        · rw [feedTexts, feedText_hold hpre hshort, hfeed]
          rfl
        · have hx : ¬ bracketedPasteEnd <:+: x := by
            intro hx
            have hin : bracketedPasteEnd <:+: bracketedPasteStart ++ [] := by
              rw [List.append_nil]
              exact (hx.trans (List.suffix_append u x).isInfix).trans hpre.isInfix
            have := (end_of_start hin).length_le
            rw [end_units] at this
            simp at this
          simp only [List.mem_cons, exists_eq_or_imp, hx, false_or, hiff]
    · refine ⟨v :: xs, by rw [List.flatten_cons, hrest], ?_, ?_⟩
      · rw [feedTexts, feedText_start hv, feedTexts]
      · simp only [List.mem_cons, exists_eq_or_imp]
        refine or_congr_left ⟨htail hv, fun hvin => ?_⟩
        -- the chunk ends with what follows the marker
        have hlen : u.length ≤ bracketedPasteStart.length := hu.length_le
        obtain ⟨r, hr⟩ := hu
        rw [← hr, List.append_assoc, List.append_cancel_left_eq] at hv
        rw [hv]
        exact hvin.trans (List.suffix_append r v).isInfix

end

theorem start_holds : ([] : JsString) <+: bracketedPasteStart ∧ [] ≠ bracketedPasteStart :=
  ⟨List.nil_prefix, by decide⟩

variable (editor) in
theorem texts_delivered {xs : List JsString} {y : JsString} (hy : ¬ bracketedPasteEnd <:+: y)
    (h : xs.flatten = bracketedPasteStart ++ (y ++ bracketedPasteEnd)) (hin : ∃ x ∈ xs, bracketedPasteEnd <:+: x) :
    feedTexts (idle editor) xs = ([.paste y], idle editor) := by
  obtain ⟨vs, hflat, hfeed, hiff⟩ := hold_to_start editor start_holds.1 start_holds.2 h
  rw [show idle editor = holding editor [] from rfl, hfeed]
  exact collect_delivered hy hflat (hiff.1 hin) []

variable (editor) in
theorem texts_stuck {xs : List JsString} {y : JsString}
    (h : xs.flatten = bracketedPasteStart ++ (y ++ bracketedPasteEnd)) (hout : ¬ ∃ x ∈ xs, bracketedPasteEnd <:+: x) :
    feedTexts (idle editor) xs = ([], collecting editor (y ++ bracketedPasteEnd)) := by
  obtain ⟨vs, hflat, hfeed, hiff⟩ := hold_to_start editor start_holds.1 start_holds.2 h
  rw [show idle editor = holding editor [] from rfl, hfeed, ← hflat]
  exact collect_stuck (fun v hv hin => hout (hiff.2 ⟨v, hv, hin⟩)) []

/-! ## The bytes of a paste -/

/-- The bytes the terminal sends for a paste. -/
def pasteBytes (t : List ℕ) : Bytes := utf8 bracketedPasteStart ++ Utf8.encode t ++ utf8 bracketedPasteEnd

/-- One paste event with the payload and no other event, and then a decoder as a fresh one. -/
structure Delivered (editor : Bool) (payload : JsString) (chunks : List Bytes) : Prop where
  events : (feedAll (idle editor) chunks).1 = [.paste payload]
  left : (feedAll (idle editor) chunks).2.pasting = false
  next : ∀ key, ComfortInputParser.feed (feedAll (idle editor) chunks).2 key = ComfortInputParser.feed (idle editor) key

def startPoints : List ℕ := [0x1B, 0x5B, 0x32, 0x30, 0x30, 0x7E]
def endPoints : List ℕ := [0x1B, 0x5B, 0x32, 0x30, 0x31, 0x7E]

theorem pasteBytes_eq (t : List ℕ) : pasteBytes t = Utf8.encode (startPoints ++ (t ++ endPoints)) := by
  have hs : utf8 bracketedPasteStart = Utf8.encode startPoints := by decide
  have he : utf8 bracketedPasteEnd = Utf8.encode endPoints := by decide
  rw [pasteBytes, hs, he, Utf8.encode_append, Utf8.encode_append, List.append_assoc]

/-- **What the chunks are decoded to** is the paste with some characters above ASCII replaced. -/
theorem paste_texts {t : List ℕ} (ht : ∀ c ∈ t, Utf8.Scalar c) {chunks : List Bytes}
    (hchunks : chunks.flatten = pasteBytes t) : ∃ y, Utf8.Blurred t y ∧
      (chunks.map bytesToString).flatten = bracketedPasteStart ++ (y ++ bracketedPasteEnd) ∧
      (y = Utf16.units t ↔ ∀ chunk ∈ chunks, Utf8.Whole chunk) := by
  have hascii : (∀ c ∈ startPoints, c < 0x80) ∧ ∀ c ∈ endPoints, c < 0x80 := by decide
  have hall : ∀ c ∈ startPoints ++ (t ++ endPoints), Utf8.Scalar c := by
    intro c hc
    rcases List.mem_append.1 hc with hc | hc
    · exact .inl (lt_trans (hascii.1 c hc) (by decide))
    rcases List.mem_append.1 hc with hc | hc
    · exact ht c hc
    · exact .inl (lt_trans (hascii.2 c hc) (by decide))
  have hs : Utf16.units startPoints = bracketedPasteStart := by decide
  have he : Utf16.units endPoints = bracketedPasteEnd := by decide
  rw [pasteBytes_eq] at hchunks
  obtain ⟨d, hd, hblur⟩ := Utf8.chunked_blurred (k := []) hall (by simp) (by simpa using hchunks)
  obtain ⟨d', rfl, hblur'⟩ := hblur.of_ascii_append hascii.1
  obtain ⟨y, rfl, hy⟩ := hblur'.of_append_ascii hascii.2
  have htext : (chunks.map bytesToString).flatten = bracketedPasteStart ++ (y ++ bracketedPasteEnd) := by
    rw [← hs, ← he]
    exact hd
  refine ⟨y, hy, htext, ?_⟩
  rw [← Utf8.chunked_eq_iff hall hchunks, Utf8.units_append, Utf8.units_append, hs, he]
  have hflat : chunks.flatMap Utf8.replacing = bracketedPasteStart ++ (y ++ bracketedPasteEnd) := htext
  rw [hflat, List.append_cancel_left_eq, List.append_cancel_right_eq]

/-- **A paste arrives whole** exactly if every chunk holds whole characters and one chunk
holds the end marker. -/
theorem paste_delivered_iff {t : List ℕ} (ht : ∀ c ∈ t, Utf8.Scalar c)
    (hend : ¬ bracketedPasteEnd <:+: Utf16.units t) {chunks : List Bytes} (hchunks : chunks.flatten = pasteBytes t) :
    Delivered editor (Utf16.units t) chunks ↔
      (∀ chunk ∈ chunks, Utf8.Whole chunk) ∧ ∃ chunk ∈ chunks, bracketedPasteEnd <:+: bytesToString chunk := by
  obtain ⟨y, hblur, htext, hwhole⟩ := paste_texts ht hchunks
  have hascii : Utf8.Ascii bracketedPasteEnd := by
    unfold Utf8.Ascii
    rw [end_units]
    simp
  have hy : ¬ bracketedPasteEnd <:+: y := fun hin => hend (hblur.infix_ascii ht hascii hin)
  have hsome : (∃ text ∈ chunks.map bytesToString, bracketedPasteEnd <:+: text) ↔
      ∃ chunk ∈ chunks, bracketedPasteEnd <:+: bytesToString chunk := by
    simp only [List.mem_map, exists_exists_and_eq_and]
  by_cases hin : ∃ text ∈ chunks.map bytesToString, bracketedPasteEnd <:+: text
  · have hfeed := texts_delivered editor hy htext hin
    rw [← feedAll_eq] at hfeed
    constructor
    · intro h
      have hevents := h.events
      rw [hfeed, List.cons.injEq, ComfortEvent.paste.injEq] at hevents
      exact ⟨hwhole.1 hevents.1, hsome.1 hin⟩
    · rintro ⟨hchars, -⟩
      rw [← hwhole.2 hchars]
      exact ⟨by rw [hfeed], by rw [hfeed]; rfl, fun key => by rw [hfeed]⟩
  · have hfeed := texts_stuck editor htext hin
    rw [← feedAll_eq] at hfeed
    constructor
    · intro h
      have hevents := h.events
      rw [hfeed] at hevents
      cases hevents
    · rintro ⟨-, hchunk⟩
      exact absurd (hsome.2 hchunk) hin

/-- A paste in one chunk. -/
theorem paste_delivered_whole : (∀ c ∈ [0x68, 0x69], Utf8.Scalar c) ∧
    Delivered true (Utf16.units [0x68, 0x69]) [pasteBytes [0x68, 0x69]] := by
  have ht : ∀ c ∈ [0x68, 0x69], Utf8.Scalar c := by decide
  have hend : ¬ bracketedPasteEnd <:+: Utf16.units [0x68, 0x69] := by
    intro h
    have := h.length_le
    rw [end_units] at this
    simp [Utf16.units, Utf16.unitsOne] at this
  refine ⟨ht, (paste_delivered_iff ht hend (by simp)).2 ⟨?_, ?_⟩⟩
  · intro chunk hchunk
    rw [List.mem_singleton.1 hchunk, pasteBytes_eq]
    exact ⟨_, by decide, rfl⟩
  · refine ⟨_, List.mem_singleton_self _, ?_⟩
    exact ⟨js "\x1b[200~hi", [], by decide⟩

/-- The end marker cut in two: the decoder stays in paste mode. -/
theorem paste_cut_marker :
    [utf8 (js "\x1b[200~hi\x1b[2"), utf8 (js "01~")].flatten = pasteBytes [0x68, 0x69] ∧
      ¬ Delivered false (Utf16.units [0x68, 0x69]) [utf8 (js "\x1b[200~hi\x1b[2"), utf8 (js "01~")] := by
  refine ⟨by decide, fun h => ?_⟩
  have hleft := h.left
  revert hleft
  decide

end Barbaro.Tui
