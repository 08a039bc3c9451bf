import Barbaro.Nudge.ReadState

/-!
# Delivered text

What has been delivered of a turn, as a set of bytes for each version of its texts,
whatever entries hold it. `FullyCovered` is what acknowledgement is to mean: of one of the
two texts that count, every byte has been delivered.

* `acknowledged_iff`: the entries of a valid cursor acknowledge a turn exactly when they
  cover one of its texts completely.
* `Within`: one list of entries holds nothing the other does not.
-/

namespace Barbaro

section
variable {E : Host}

/-- The present text of a field of a turn. -/
def turnVersion (t : Turn E) (field : ReadField) : CoverageVersion where
  key := ⟨t.provider, t.sessionId, t.turnId, field⟩
  recordSha256 := readRecordHash t
  fieldSha256 := readContentHash E (selectTurnText t field).text
  totalBytes := byteLength (selectTurnText t field).text

/-- Every byte of the record, or of the field with its attention, has been delivered. An
empty text has been delivered when there is an entry of it. -/
def FullyCovered (es : List NudgeReadCoverage) (t : Turn E) : Prop :=
  ∃ field, (field = .record ∨ field = attentionField t) ∧ Touches es (turnVersion t field) ∧
    ∀ b < byteLength (selectTurnText t field).text, CoversByte es (turnVersion t field) b

/-- Nothing is covered by `es` that is not covered by `G`. -/
structure Within (es G : List NudgeReadCoverage) : Prop where
  touches : ∀ v, Touches es v → Touches G v
  bytes : ∀ v b, CoversByte es v b → CoversByte G v b

theorem Within.refl (es : List NudgeReadCoverage) : Within es es := ⟨fun _ => id, fun _ _ => id⟩

theorem Within.trans {es fs gs : List NudgeReadCoverage} (h : Within es fs) (h' : Within fs gs) :
    Within es gs :=
  ⟨fun v hv => h'.touches v (h.touches v hv), fun v b hb => h'.bytes v b (h.bytes v b hb)⟩

theorem Within.of_subset {es fs : List NudgeReadCoverage} (h : es ⊆ fs) : Within es fs :=
  ⟨fun _ ⟨e, he, hv⟩ => ⟨e, h he, hv⟩, fun _ _ ⟨e, he, hv⟩ => ⟨e, h he, hv⟩⟩

theorem Within.append {es fs : List NudgeReadCoverage} (h : Within es fs) (gs : List NudgeReadCoverage) :
    Within es (fs ++ gs) :=
  h.trans (.of_subset (List.subset_append_left fs gs))

theorem FullyCovered.mono {es fs : List NudgeReadCoverage} (h : Within es fs) {t : Turn E}
    (hc : FullyCovered es t) : FullyCovered fs t := by
  obtain ⟨field, hfield, htouch, hbytes⟩ := hc
  exact ⟨field, hfield, h.touches _ htouch, fun b hb => h.bytes _ b (hbytes b hb)⟩

/-- A merge adds only what was delivered. -/
theorem Merged.within {entries delivered entries' : List NudgeReadCoverage} {changed : Bool}
    (h : Merged entries delivered entries' changed) {G : List NudgeReadCoverage}
    (hG : Within entries G) : Within entries' (G ++ delivered) := by
  refine ⟨fun v hv => ?_, fun v b hb => ?_⟩
  · rcases h.touches v hv with hv | ⟨e, he, hv⟩
    · obtain ⟨e, he, hv⟩ := hG.touches v hv
      exact ⟨e, List.mem_append_left _ he, hv⟩
    · exact ⟨e, List.mem_append_right _ he, hv⟩
  · rcases h.covers v b hb with hb | ⟨e, he, hb⟩
    · obtain ⟨e, he, hb⟩ := hG.bytes v b hb
      exact ⟨e, List.mem_append_left _ he, hb⟩
    · exact ⟨e, List.mem_append_right _ he, hb⟩

/-! ## Acknowledgement -/

/-- An entry that acknowledges a turn is complete, and about one of its present texts. -/
theorem acknowledging {t : Turn E} {e : NudgeReadCoverage} :
    isCandidate t e = true ∧ isCurrentVersion t e = true ↔
      (e.field = .record ∨ e.field = attentionField t) ∧ coverageVersion e = turnVersion t e.field ∧
        e.ranges = [⟨0, e.totalBytes⟩] := by
  have hpresent : e.field = .record ∨ e.field = attentionField t →
      (selectTurnText t e.field).present = true := by
    rintro (h | h)
    · rw [h]; exact selectTurnText_record t
    · rw [h]; exact selectTurnText_attention t
  simp only [isCandidate, isCurrentVersion, isReadCoverageComplete, Bool.and_eq_true, Bool.or_eq_true,
    beq_iff_eq, coverageVersion, coverageKey, turnVersion, CoverageVersion.mk.injEq,
    CoverageKey.mk.injEq, and_true]
  constructor
  · rintro ⟨⟨⟨⟨⟨h1, h2⟩, h3⟩, h4⟩, h5⟩, ⟨⟨h6, -⟩, h7⟩, h8⟩
    exact ⟨h5, ⟨⟨h1, h2, h3⟩, h6, h8, h7⟩, h4⟩
  · rintro ⟨h5, ⟨⟨h1, h2, h3⟩, h6, h8, h7⟩, h4⟩
    exact ⟨⟨⟨⟨⟨h1, h2⟩, h3⟩, h4⟩, h5⟩, ⟨⟨h6, hpresent h5⟩, h7⟩, h8⟩

theorem isReadRecordAcknowledged_iff {s : NudgeReadState} {t : Turn E} :
    isReadRecordAcknowledged s t = true ↔ ∃ e ∈ s.coverage,
      isCandidate t e = true ∧ isCurrentVersion t e = true := by
  simp only [isReadRecordAcknowledged, List.any_eq_true, List.mem_filter]
  constructor
  · rintro ⟨e, ⟨he, h1⟩, h2⟩
    exact ⟨e, he, h1, h2⟩
  · rintro ⟨e, he, h1, h2⟩
    exact ⟨e, ⟨he, h1⟩, h2⟩

/-- The ranges of a valid entry cover all bytes only as the one complete range. -/
theorem RangesOk.complete {n : ℕ} {rs : List NudgeReadRange} (h : RangesOk n rs)
    (hall : ∀ b < n, Ranges.Covers rs b) : rs = [⟨0, n⟩] := by
  rcases Nat.eq_zero_or_pos n with rfl | hn
  · exact h.empty
  · refine Ranges.separated_ext h.separated ⟨by simp, by simp⟩ (h.inhabited (by omega))
      (by simpa [Ranges.Inhabited] using hn) fun b => ?_
    constructor
    · rintro ⟨r, hr, hb⟩
      have := h.within r hr
      exact ⟨⟨0, n⟩, by simp, by simp only; omega⟩
    · rintro ⟨r, hr, hb⟩
      rw [List.mem_singleton] at hr
      subst hr
      exact hall b hb.2

/-- **Acknowledgement is full coverage**: the entries of a valid cursor acknowledge a turn
exactly when they cover its record, or its attention field, completely. -/
theorem acknowledged_iff {s : NudgeReadState} (hok : CoverageListOk s.coverage) {t : Turn E} :
    isReadRecordAcknowledged s t = true ↔ FullyCovered s.coverage t := by
  rw [isReadRecordAcknowledged_iff]
  constructor
  · rintro ⟨e, he, hack⟩
    obtain ⟨hfield, hversion, hranges⟩ := acknowledging.1 hack
    refine ⟨e.field, hfield, ⟨e, he, hversion⟩, fun b hb => ⟨e, he, hversion, ?_⟩⟩
    have htotal : e.totalBytes = byteLength (selectTurnText t e.field).text :=
      congrArg CoverageVersion.totalBytes hversion
    rw [hranges]
    exact ⟨⟨0, e.totalBytes⟩, by simp, by simp only; omega⟩
  · rintro ⟨field, hfield, ⟨e, he, hversion⟩, hbytes⟩
    have hf : e.field = field := congrArg (fun v => v.key.field) hversion
    subst hf
    have htotal : e.totalBytes = byteLength (selectTurnText t e.field).text :=
      congrArg CoverageVersion.totalBytes hversion
    refine ⟨e, he, acknowledging.2 ⟨hfield, hversion, ?_⟩⟩
    refine (coverageOk_ranges (hok.ok e he)).complete fun b hb => ?_
    obtain ⟨e', he', hv', hc⟩ := hbytes b (by omega)
    have hsame : e' = e := by
      have h1 := findCoverage_of_mem hok.unique he'
      rw [version_key (hv'.trans hversion.symm), findCoverage_of_mem hok.unique he] at h1
      exact (Option.some.inj h1).symm
    rwa [hsame] at hc

/-- The entries that can acknowledge a turn are those of its record key. -/
theorem acknowledging_key {t : Turn E} {e : NudgeReadCoverage}
    (h : isCandidate t e = true ∧ isCurrentVersion t e = true) :
    e.provider = t.provider ∧ e.sessionId = t.sessionId ∧ e.turnId = t.turnId ∧
      e.recordSha256 = readRecordHash t := by
  obtain ⟨-, hversion, -⟩ := acknowledging.1 h
  simp only [coverageVersion, coverageKey, turnVersion, CoverageVersion.mk.injEq,
    CoverageKey.mk.injEq] at hversion
  exact ⟨hversion.1.1, hversion.1.2.1, hversion.1.2.2.1, hversion.2.1⟩

end

end Barbaro
