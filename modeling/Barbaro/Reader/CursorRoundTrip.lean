import Barbaro.Reader.RecordCursor

/-!
# A cursor that was handed out is read back

* `CursorBinding.Ok`: what a reader binds a cursor to.
* `encodeCursor_size`: the cursor of it is far within the limit.
* `parseCursor_encode`: it is read back with all its checks.
-/

namespace Barbaro

namespace RecordPage

/-! ## What a cursor is bound to -/

/-- What a reader binds a cursor to: the hashes are hashes, the names are short, the record
is a line of a file of the store, and the counts are safe integers. -/
structure CursorBinding.Ok (b : CursorBinding) : Prop where
  project : isSha256Hex b.project = true
  query : isSha256Hex b.query = true
  recordSha256 : isSha256Hex b.recordSha256 = true
  scope : PlainText b.scope ∧ b.scope.length ≤ 64
  identity : b.identity ≠ [] ∧ b.identity.length ≤ 512 ∧ (∀ u ∈ b.identity, u.toNat < 128) ∧
    b.identity.countP (fun u => !isPlainUnit u) ≤ 2
  field : b.field ≠ [] ∧ b.field.length ≤ 64 ∧ (∀ u ∈ b.field, u.toNat < 128) ∧
    b.field.countP (fun u => !isPlainUnit u) ≤ 1
  provider : isProvider b.location.provider = true ∧ b.location.provider.length ≤ 255
  sessionId : isSessionId b.location.sessionId = true
  range : b.location.start < b.location.stop ∧ b.location.stop ≤ maxSafeInteger
  skipped : b.skippedOversizedFeedFiles ≤ maxSafeInteger
  unavailable : ∀ n, b.unavailableFeedFiles = some n → n ≤ maxSafeInteger

variable {E : Host} {b : CursorBinding} {offset : ℕ}

/-- The location of a cursor: a provider has no NUL. -/
theorem zero_not_mem_provider {s : JsString} (h : isProvider s = true) : (0 : UInt16) ∉ s := by
  intro hmem
  have := isProvider_plain h 0 hmem
  exact absurd this (by decide)

theorem takeWhile_join {s t : JsString} (h : (0 : UInt16) ∉ s) :
    (s ++ 0 :: t).takeWhile (· ≠ 0) = s ∧ (s ++ 0 :: t).dropWhile (· ≠ 0) = 0 :: t := by
  have hall : ∀ u ∈ s, (decide (u ≠ 0)) = true := by
    intro u hu
    rw [decide_eq_true_eq]
    rintro rfl
    exact h hu
  refine ⟨?_, ?_⟩
  · rw [List.takeWhile_append_of_pos hall]
    simp
  · rw [List.dropWhile_append_of_pos hall]
    simp

theorem isCursorLocation_join (h : b.Ok) : isCursorLocation (cursorBody b offset).l = true := by
  obtain ⟨htake, hdrop⟩ := takeWhile_join (t := b.location.sessionId) (zero_not_mem_provider h.provider.1)
  simp only [isCursorLocation, cursorBody, htake, hdrop, h.provider.1, h.sessionId, Bool.and_self]

/-- **The location a cursor has pinned** is the one it was given. -/
theorem cursorLocation_body (h : b.Ok) : cursorLocation (cursorBody b offset) = b.location := by
  obtain ⟨htake, hdrop⟩ := takeWhile_join (t := b.location.sessionId) (zero_not_mem_provider h.provider.1)
  have htag : PlainText (js "ses") := List.all_eq_true.1 (by decide)
  have hplain := (isId_plain htag h.sessionId).1
  have hsession : (b.location.sessionId).takeWhile (· ≠ 0) = b.location.sessionId := by
    rw [List.takeWhile_eq_self_iff]
    intro u hu
    rw [decide_eq_true_eq]
    rintro rfl
    exact absurd (hplain 0 hu) (by decide)
  simp only [cursorLocation, cursorBody, htake, hdrop, List.drop_one, List.tail_cons, hsession]

/-! ## The written cursor -/

theorem CursorBinding.Ok.wellFormed (h : b.Ok) (ho : offset ≤ maxSafeInteger) :
    (cursorBody b offset).toJson.WellFormed E.float := by
  have hnat : ∀ {n : ℕ}, n ≤ maxSafeInteger → (natJson n).WellFormed E.float := fun hn =>
    (Written.int (by simpa using hn)).wellFormed
  have hone : (natJson 1).WellFormed E.float := hnat (by decide)
  have ha : b.location.start ≤ maxSafeInteger := h.range.1.le.trans h.range.2
  rcases hu : b.unavailableFeedFiles with _ | n
  · simp [CursorBody.toJson, cursorBody, hu, Json.WellFormed, Json.WellFormedFields, optionalMember,
      hnat ho, hnat ha, hnat h.range.2, hnat h.skipped, hone]
  · simp [CursorBody.toJson, cursorBody, hu, Json.WellFormed, Json.WellFormedFields, optionalMember,
      hnat ho, hnat ha, hnat h.range.2, hnat h.skipped, hone, hnat (h.unavailable n hu)]

theorem stableSize_location_le (h : b.Ok) :
    stableSize (.str (b.location.provider ++ 0 :: b.location.sessionId)) ≤ 299 := by
  have htag : PlainText (js "ses") := List.all_eq_true.1 (by decide)
  have hses : (js "ses").length = 3 := rfl
  obtain ⟨hsession, hlen⟩ := isId_plain htag h.sessionId
  obtain ⟨hascii, hcount⟩ := (isProvider_plain h.provider.1).join hsession (u := 0) (by decide)
  have hprovider := h.provider.2
  refine stableSize_str_le (n := 292) hascii ?_ hcount
  rw [List.length_append, List.length_cons]
  omega

/-- The bytes of the payload of a cursor. -/
theorem cursorBody_size (h : b.Ok) (ho : offset ≤ maxSafeInteger) :
    stableSize (cursorBody b offset).toJson ≤ 1700 := by
  have hhash : ∀ {s : JsString}, isSha256Hex s = true → stableSize (.str s) ≤ 66 := fun hs =>
    stableSize_plain_le (isSha256Hex_plain hs).1 (isSha256Hex_plain hs).2.le
  have hp := hhash h.project
  have hq := hhash h.query
  have hh := hhash h.recordSha256
  have hs := stableSize_plain_le h.scope.1 h.scope.2
  have hi := stableSize_str_le h.identity.2.2.1 h.identity.2.1 h.identity.2.2.2
  have hf := stableSize_str_le h.field.2.2.1 h.field.2.1 h.field.2.2.2
  have hl := stableSize_location_le h
  have hk : stableSize (.str b.recordKind.text) ≤ 10 := by
    cases b.recordKind with
    | turn => decide
    | evidence => decide
  have hv : stableSize (natJson 1) = 1 := by decide
  have ho := stableSize_nat_le ho
  have ha := stableSize_nat_le (h.range.1.le.trans h.range.2)
  have hz := stableSize_nat_le h.range.2
  have hx := stableSize_nat_le h.skipped
  have hkey : ∀ k ∈ ["v", "p", "s", "k", "i", "f", "q", "h", "o", "l", "a", "z", "x", "u"],
      byteLength (Json.quote (js k)) = 3 := by decide
  simp only [List.mem_cons, List.not_mem_nil, or_false, forall_eq_or_imp, forall_eq] at hkey
  have hu : ((optionalMember "u" ((cursorBody b offset).u.map natJson)).map memberSize).sum ≤ 21 := by
    rcases hb : b.unavailableFeedFiles with _ | n
    · simp [cursorBody, hb, optionalMember]
    · have hn := stableSize_nat_le (h.unavailable n hb)
      simp only [cursorBody, hb, Option.map_some, optionalMember, List.map_cons, List.map_nil,
        List.sum_cons, List.sum_nil, memberSize, hkey]
      omega
  have hwell : ∀ f ∈ optionalMember "u" ((cursorBody b offset).u.map natJson),
      Utf16.WellFormed (stableStringify f.2) := by
    intro f hf
    rcases hb : b.unavailableFeedFiles with _ | n
    · simp [cursorBody, hb, optionalMember] at hf
    · simp only [cursorBody, hb, Option.map_some, optionalMember, List.mem_singleton] at hf
      rw [hf]
      exact stable_nat_wellFormed n
  have hnat : ∀ n, Utf16.WellFormed (stableStringify (natJson n)) := stable_nat_wellFormed
  unfold CursorBody.toJson
  rw [(stable_obj (by simp) ?_).2, List.map_append, List.sum_append]
  · simp only [List.map_cons, List.map_nil, List.sum_cons, List.sum_nil, memberSize, hkey, hv, cursorBody]
    simp only [cursorBody] at hu
    omega
  · intro f hf
    rcases List.mem_append.1 hf with hf | hf
    · simp only [List.mem_cons, List.not_mem_nil, or_false] at hf
      rcases hf with rfl | rfl | rfl | rfl | rfl | rfl | rfl | rfl | rfl | rfl | rfl | rfl | rfl
      all_goals first | exact hnat _ | exact stable_str_wellFormed _
    · exact hwell f hf

/-! ## Reading it back -/

theorem textAt_sortKeys {fs : List (JsString × Json)} (h : (fs.map (·.1)).Nodup) (key : String) :
    textAt? key (sortKeys (.obj fs)) = textAt? key (.obj fs) := by
  unfold textAt?
  rw [get_sortKeys h]
  rcases (Json.obj fs).get (js key) with _ | v
  · rfl
  · cases v <;> rw [Option.map_some, sortKeys] <;> simp

theorem natAt_sortKeys {fs : List (JsString × Json)} (h : (fs.map (·.1)).Nodup) (key : String) :
    natAt? key (sortKeys (.obj fs)) = natAt? key (.obj fs) := by
  unfold natAt?
  rw [get_sortKeys h]
  rcases (Json.obj fs).get (js key) with _ | v
  · rfl
  · cases v <;> rw [Option.map_some, sortKeys] <;> simp

theorem hasExactKeys_sortKeys (keys : List String) (fs : List (JsString × Json)) :
    hasExactKeys keys (sortKeys (.obj fs)) = hasExactKeys keys (.obj fs) := by
  have hperm := sortKeysFields_keys fs
  rw [sortKeys, Bool.eq_iff_iff]
  unfold hasExactKeys
  dsimp only
  rw [List.isPerm_iff, List.isPerm_iff]
  exact ⟨fun h => hperm.symm.trans h, fun h => hperm.trans h⟩

/-- The checks do not depend on the order of the keys. -/
theorem cursorBody_sortKeys {fs : List (JsString × Json)} (h : (fs.map (·.1)).Nodup) :
    cursorBody? (sortKeys (.obj fs)) = cursorBody? (.obj fs) := by
  have hcount : cursorCount? (sortKeys (.obj fs)) = cursorCount? (.obj fs) := by
    unfold cursorCount?
    rw [get_sortKeys h, natAt_sortKeys h]
    cases (Json.obj fs).get (js "u") with
    | none => rfl
    | some v => rfl
  have hkeys : cursorKeys (sortKeys (.obj fs)) = cursorKeys (.obj fs) := by
    unfold cursorKeys
    rw [get_sortKeys h, Option.isSome_map]
  unfold cursorBody? checkedTextAt?
  simp only [hasExactKeys_sortKeys, hkeys, natAt_sortKeys h, textAt_sortKeys h, hcount]

/-- **The payload of a cursor passes the checks** and is itself again. -/
theorem cursorBody_toJson (h : b.Ok) (hpos : 0 < offset) (ho : offset ≤ maxSafeInteger) :
    cursorBody? (cursorBody b offset).toJson = some (cursorBody b offset) := by
  have hl := @isCursorLocation_join b offset h
  have hrange := h.range
  have ha : b.location.start ≤ maxSafeInteger := hrange.1.le.trans hrange.2
  have hkind : RecordKind.ofText b.recordKind.text = some b.recordKind := by
    cases b.recordKind with
    | turn => rfl
    | evidence => rfl
  set v := (cursorBody b offset).toJson with hv
  have hget : v.get (js "v") = some (natJson 1) ∧ v.get (js "p") = some (.str b.project) ∧
      v.get (js "s") = some (.str b.scope) ∧ v.get (js "k") = some (.str b.recordKind.text) ∧
      v.get (js "i") = some (.str b.identity) ∧ v.get (js "f") = some (.str b.field) ∧
      v.get (js "q") = some (.str b.query) ∧ v.get (js "h") = some (.str b.recordSha256) ∧
      v.get (js "o") = some (natJson offset) ∧ v.get (js "l") = some (.str (cursorBody b offset).l) ∧
      v.get (js "a") = some (natJson b.location.start) ∧ v.get (js "z") = some (natJson b.location.stop) ∧
      v.get (js "x") = some (natJson b.skippedOversizedFeedFiles) ∧
      v.get (js "u") = b.unavailableFeedFiles.map natJson := by
    rcases hu : b.unavailableFeedFiles with _ | n
    · simp [hv, CursorBody.toJson, cursorBody, optionalMember, Json.get, Json.lookup, hu]
    · simp [hv, CursorBody.toJson, cursorBody, optionalMember, Json.get, Json.lookup, hu]
  obtain ⟨gv, gp, gs, gk, gi, gf, gq, gh, go, gl, ga, gz, gx, gu⟩ := hget
  have hkeys : hasExactKeys (cursorKeys v) v = true := by
    unfold cursorKeys
    rw [gu]
    rcases hu : b.unavailableFeedFiles with _ | n
    · simp only [hv, hasExactKeys, CursorBody.toJson, cursorBody, optionalMember, hu, Option.map_none,
        List.map_append, List.map_cons, List.map_nil, Option.isSome_none]
      decide
    · simp only [hv, hasExactKeys, CursorBody.toJson, cursorBody, optionalMember, hu, Option.map_some,
        List.map_append, List.map_cons, List.map_nil, Option.isSome_some]
      decide
  have hcount : cursorCount? v = some b.unavailableFeedFiles := by
    unfold cursorCount?
    rw [gu]
    rcases hu : b.unavailableFeedFiles with _ | n
    · rfl
    · have hn := natAt_natJson (gu.trans (by rw [hu]; rfl)) (h.unavailable n hu)
      simp only [Option.map_some, hn]
  have htext : ∀ {check : JsString → Bool} {key : String} {s : JsString},
      v.get (js key) = some (.str s) → check s = true → checkedTextAt? check key v = some s := by
    intro check key s hs hc
    rw [checkedTextAt?, textAt?, hs]
    exact Option.filter_some_pos hc
  have hz : (natAt? "z" v).filter (b.location.start < ·) = some b.location.stop := by
    rw [natAt_natJson gz hrange.2]
    exact Option.filter_some_pos (by simpa using hrange.1)
  have hof : (natAt? "o" v).filter (0 < ·) = some offset := by
    rw [natAt_natJson go ho]
    exact Option.filter_some_pos (by simpa using hpos)
  have hs : textAt? "s" v = some b.scope := by rw [textAt?, gs]
  have hk : textAt? "k" v = some b.recordKind.text := by rw [textAt?, gk]
  have hversion : natAt? "v" v = some 1 := natAt_natJson gv (by decide)
  have hi : checkedTextAt? (· ≠ []) "i" v = some b.identity := htext gi (by simpa using h.identity.1)
  have hf : checkedTextAt? (· ≠ []) "f" v = some b.field := htext gf (by simpa using h.field.1)
  rw [cursorBody?, hkeys, hversion, if_neg (by simp)]
  simp only [htext gl hl, natAt_natJson ga ha, hz, natAt_natJson gx h.skipped, hcount, htext gp h.project,
    hs, hk, hkind, hi, hf, htext gq h.query, htext gh h.recordSha256, hof, Option.bind_eq_bind,
    Option.bind_some]
  rfl

theorem cursorBody_nodup (b : CursorBinding) (offset : ℕ) : ∃ fs, (cursorBody b offset).toJson = .obj fs ∧
    (fs.map (·.1)).Nodup := by
  refine ⟨_, rfl, ?_⟩
  rcases hu : b.unavailableFeedFiles with _ | n
  · simp only [cursorBody, optionalMember, hu, Option.map_none, List.map_append, List.map_cons, List.map_nil]
    decide
  · simp only [cursorBody, optionalMember, hu, Option.map_some, List.map_append, List.map_cons, List.map_nil]
    decide

theorem envelope_nodup {v w : Json} : ([(js "b", v), (js "c", w)].map (·.1)).Nodup := by
  simp

theorem encodedCursor_wellFormed (h : b.Ok) (ho : offset ≤ maxSafeInteger) :
    (encodedCursor E (cursorBody b offset)).WellFormed E.float := by
  exact ⟨envelope_nodup, h.wellFormed ho, trivial, trivial⟩

/-- The text of an object starts with a brace. -/
theorem stable_obj_head {fs : List (JsString × Json)} (hne : fs ≠ []) :
    (stableStringify (.obj fs)).head? = some 123 := by
  have hperm := sortKeysFields_perm fs
  rcases hs : sortKeysFields fs with _ | ⟨f, gs⟩
  · rw [hs] at hperm
    exact absurd (List.map_eq_nil_iff.1 hperm.symm.eq_nil) hne
  · rw [stableStringify, sortKeys, hs]
    rfl

/-- **A cursor is short.** -/
theorem encodeCursor_size (h : b.Ok) (ho : offset ≤ maxSafeInteger) :
    byteLength (encodeCursor E b offset) ≤ 2500 := by
  have hbody := cursorBody_size h ho
  have hsum : stableSize (.str (cursorChecksum E (cursorBody b offset).toJson)) ≤ 66 := by
    obtain ⟨hplain, hlen⟩ := isSha256Hex_plain (E.hex (utf8 (readerRecordCursorSchema ++
      0 :: stableStringify (cursorBody b offset).toJson)))
    exact stableSize_plain_le hplain hlen.le
  have hkeys : byteLength (Json.quote (js "b")) = 3 ∧ byteLength (Json.quote (js "c")) = 3 := by
    decide
  have hsize := (@stable_obj [(js "b", (cursorBody b offset).toJson),
    (js "c", .str (cursorChecksum E (cursorBody b offset).toJson))] (by simp) (by
      simp only [List.mem_cons, List.not_mem_nil, or_false, forall_eq_or_imp, forall_eq]
      exact ⟨(stableStringify_clean (h.wellFormed (E := E) ho)).wellFormed, stable_str_wellFormed _⟩)).2
  simp only [List.map_cons, List.map_nil, List.sum_cons, List.sum_nil, memberSize, hkeys] at hsize
  have hascii : ∀ u ∈ encodeCursor E b offset, u.toNat < 128 := fun u hu =>
    Base64.inAlphabet_ascii (List.all_eq_true.1 (Base64.encode_inAlphabet _) u hu)
  have hbytes : (utf8 (stableStringify (encodedCursor E (cursorBody b offset)))).length =
    stableSize (encodedCursor E (cursorBody b offset)) := rfl
  rw [byteLength_ascii hascii, encodeCursor, Base64.length_encode, hbytes, encodedCursor]
  omega

/-- **A cursor that was handed out is read back.** -/
theorem parseCursor_encode (h : b.Ok) (hpos : 0 < offset) (ho : offset ≤ maxSafeInteger) :
    parseCursor E (encodeCursor E b offset) = .ok (cursorBody b offset) := by
  have hwell := encodedCursor_wellFormed (E := E) h ho
  have htext := (stableStringify_clean hwell).wellFormed
  have hhead : (stableStringify (encodedCursor E (cursorBody b offset))).head? = some 123 :=
    stable_obj_head (by simp)
  have hdecode : Base64.decode (encodeCursor E b offset) =
      utf8 (stableStringify (encodedCursor E (cursorBody b offset))) := Base64.decode_encode _
  have hne : encodeCursor E b offset ≠ [] := by
    intro hnil
    rw [hnil] at hdecode
    have hbytes := Utf16.decode_utf8 htext
    have hempty : utf8 (stableStringify (encodedCursor E (cursorBody b offset))) = [] := hdecode.symm
    have hback := bytesToString_utf8 htext
    rw [hempty] at hback
    rw [← hback] at hhead
    cases hhead
  have hshort := encodeCursor_size (E := E) h ho
  have hmal : ¬ (encodeCursor E b offset = [] ∨ byteLength (encodeCursor E b offset) > maxCursorBytes ∨
      (encodeCursor E b offset).all Base64.inAlphabet = false) := by
    have hall : (encodeCursor E b offset).all Base64.inAlphabet = true := Base64.encode_inAlphabet _
    have hmax : maxCursorBytes = 4096 := rfl
    rintro (hc | hc | hc)
    · exact hne hc
    · omega
    · rw [hall] at hc
      cases hc
  have hcanonical : Base64.encode (Base64.decode (encodeCursor E b offset)) = encodeCursor E b offset := by
    rw [hdecode]
    rfl
  have hparse : Json.parse E.float (stableStringify (encodedCursor E (cursorBody b offset))) =
      some (sortKeys (encodedCursor E (cursorBody b offset))) := Json.parse_render (sortKeys_wellFormed hwell)
  obtain ⟨fs, hfs, hnodup⟩ := cursorBody_nodup b offset
  have hpayload : cursorPayload E (sortKeys (encodedCursor E (cursorBody b offset))) =
      .ok (cursorBody b offset) := by
    have hkeys : hasExactKeys ["b", "c"] (sortKeys (encodedCursor E (cursorBody b offset))) = true := by
      rw [encodedCursor, hasExactKeys_sortKeys]
      rfl
    have hb : (sortKeys (encodedCursor E (cursorBody b offset))).get (js "b") =
        some (sortKeys (cursorBody b offset).toJson) := by
      rw [encodedCursor, get_sortKeys envelope_nodup]
      rfl
    have hc : textAt? "c" (sortKeys (encodedCursor E (cursorBody b offset))) =
        some (cursorChecksum E (cursorBody b offset).toJson) := by
      rw [encodedCursor, textAt_sortKeys envelope_nodup]
      rfl
    have hbody : cursorBody? (sortKeys (cursorBody b offset).toJson) = some (cursorBody b offset) := by
      have hself := cursorBody_toJson h hpos ho
      rw [hfs] at hself ⊢
      rw [cursorBody_sortKeys hnodup, hself]
    have hsum : cursorChecksum E (sortKeys (cursorBody b offset).toJson) =
        cursorChecksum E (cursorBody b offset).toJson := by
      rw [cursorChecksum, stableStringify_sortKeys (h.wellFormed (E := E) ho), cursorChecksum]
    have hhex : isSha256Hex (cursorChecksum E (cursorBody b offset).toJson) = true := E.hex _
    rw [cursorPayload, hkeys, hb, hc]
    simp [hbody, hsum, hhex]
  rw [parseCursor, if_neg hmal, hcanonical, hdecode, textDecode_utf8 htext (by rw [hhead]; decide)]
  simp only [ne_eq, not_true_eq_false, if_false, Option.bind_some, hparse, hpayload]

end RecordPage

end Barbaro
