import Barbaro.Tui.ReadQueue

/-!
# The catalogue on screen does not go back

An outcome is settled from a read of the catalogue that began at some time. After a lifecycle write no read
that began earlier is shown: those in flight are of an older generation. A create write has no generation of its
own, so a refresh that began its read before may still be shown after.

* `Fresh`: no read in flight that may be shown began before one that an outcome was settled from.
* `handle_follows`: an event brings no catalogue but from a read in flight, and settles only what was read.
* `Calm`: no older read is in flight when the outcome of a creation is settled.
* `comfort_reads`: what every run of calm steps keeps.
-/

namespace Barbaro.Tui

/-- The start of the read of the catalogue, once it was begun. -/
def RefreshStage.stamp : RefreshStage → Option ℕ
  | .health => none
  | .catalogue startedAt => some startedAt
  | .context shown => some shown.startedAt

/-- The starts of the reads that the outcome is settled from. -/
def LifecyclePhase.stamps : LifecyclePhase → List ℕ
  | .reading _ startedAt => [startedAt]
  | .scoped first startedAt => [first, startedAt]
  | .resuming settledFrom => settledFrom.toList
  | _ => []

def CreatePhase.stamps : CreatePhase → List ℕ
  | .reading startedAt => [startedAt]
  | .resuming settledFrom => settledFrom.toList
  | _ => []

namespace ComfortApp

/-! ## What an event does to the reads -/

/-- A read of the catalogue is in flight that began at this time and may be shown. -/
def Reading (s : ComfortApp) (t : ℕ) : Prop :=
  (∃ read ∈ s.refreshReads, read.generation = s.readGeneration ∧ read.stage.stamp = some t) ∨
    t ∈ s.lifecycle.stamps ∨ t ∈ s.create.stamps

/-- No outcome is settled; a read that is in flight was in flight, or begins now. -/
structure Follows (s s' : ComfortApp) : Prop where
  clock : s'.clock = s.clock
  settled : s'.settledReads = s.settledReads
  reads : ∀ read ∈ s'.refreshReads, ∀ t, read.stage.stamp = some t → t = s.clock ∨
    ∃ read' ∈ s.refreshReads, read'.stage.stamp = some t ∧
      (read.generation = s'.readGeneration → read'.generation = s.readGeneration)
  lifecycle : ∀ t ∈ s'.lifecycle.stamps, t = s.clock ∨ t ∈ s.lifecycle.stamps
  create : ∀ t ∈ s'.create.stamps, t = s.clock ∨ t ∈ s.create.stamps
  catalogue : ∀ c, s'.catalogue = some c → s.catalogue = some c ∨ s.Reading c.startedAt

/-- At most a refresh is started or over. -/
structure Quiet (s s' : ComfortApp) : Prop where
  clock : s'.clock = s.clock
  settled : s'.settledReads = s.settledReads
  generation : s'.readGeneration = s.readGeneration
  reads : ∀ read ∈ s'.refreshReads, read ∈ s.refreshReads ∨ read.stage.stamp = none
  lifecycle : ∀ t ∈ s'.lifecycle.stamps, t ∈ s.lifecycle.stamps
  create : ∀ t ∈ s'.create.stamps, t ∈ s.create.stamps
  catalogue : s'.catalogue = s.catalogue

section
variable {s s' s'' : ComfortApp}

theorem Quiet.refl (s : ComfortApp) : Quiet s s := ⟨rfl, rfl, rfl, fun _ h => .inl h, fun _ h => h, fun _ h => h, rfl⟩

theorem Quiet.follows (h : Quiet s s') : Follows s s' where
  clock := h.clock
  settled := h.settled
  reads := by
    intro read hread t ht
    rcases h.reads read hread with hold | hnone
    · exact .inr ⟨read, hold, ht, fun hgen => hgen.trans h.generation⟩
    · rw [hnone] at ht
      cases ht
  lifecycle := fun t ht => .inr (h.lifecycle t ht)
  create := fun t ht => .inr (h.create t ht)
  catalogue := fun c hc => .inl (h.catalogue ▸ hc)

theorem Follows.quiet (h : Follows s s') (h' : Quiet s' s'') : Follows s s'' where
  clock := h'.clock.trans h.clock
  settled := h'.settled.trans h.settled
  reads := by
    intro read hread t ht
    rcases h'.reads read hread with hold | hnone
    · rcases h.reads read hold t ht with hnow | ⟨read', hread', hstamp, hgen⟩
      · exact .inl hnow
      · exact .inr ⟨read', hread', hstamp, fun heq => hgen (heq.trans h'.generation)⟩
    · rw [hnone] at ht
      cases ht
  lifecycle := fun t ht => h.lifecycle t (h'.lifecycle t ht)
  create := fun t ht => h.create t (h'.create t ht)
  catalogue := fun c hc => h.catalogue c (h'.catalogue ▸ hc)

theorem refresh_quiet (initial : Bool) (s : ComfortApp) : Quiet s (refresh initial s) := by
  obtain ⟨requests, hnote, -⟩ := noteRequest_eq s
  rw [refresh, hnote]
  dsimp only
  split
  · exact ⟨rfl, rfl, rfl, fun _ h => .inl h, fun _ h => h, fun _ h => h, rfl⟩
  · split
    · exact ⟨rfl, rfl, rfl, fun _ h => .inl h, fun _ h => h, fun _ h => h, rfl⟩
    · refine ⟨rfl, rfl, rfl, fun read hread => ?_, fun _ h => h, fun _ h => h, rfl⟩
      rcases List.mem_append.1 hread with hold | hnew
      · exact .inl hold
      · rw [List.mem_singleton.1 hnew]
        exact .inr rfl

theorem refreshQueued_quiet (s : ComfortApp) : Quiet s s.refreshQueued := by
  rw [refreshQueued]
  split
  · have h := refresh_quiet false { s with readQueued := false }
    exact ⟨h.clock, h.settled, h.generation, h.reads, h.lifecycle, h.create, h.catalogue⟩
  · exact .refl s

theorem retire_quiet (s : ComfortApp) (i : ℕ) : Quiet s (s.retire i) :=
  ⟨rfl, rfl, rfl, fun _ h => .inl (List.mem_of_mem_eraseIdx h), fun _ h => h, fun _ h => h, rfl⟩

theorem finish_quiet (s : ComfortApp) : Quiet s s.finish := by
  rw [finish]
  split
  · exact .refl s
  · exact ⟨rfl, rfl, rfl, fun _ h => .inl h, fun _ h => h, fun _ h => h, rfl⟩

theorem completeLifecycleFilm_quiet (s : ComfortApp) (warned : Bool) : Quiet s (s.completeLifecycleFilm warned) := by
  unfold completeLifecycleFilm
  split
  · split
    · exact ⟨rfl, rfl, rfl, fun _ h => .inl h, fun _ h => h, fun _ h => h, rfl⟩
    · exact ⟨rfl, rfl, rfl, fun _ h => .inl h, by simp [closeLifecycleResult, LifecyclePhase.stamps],
        fun _ h => h, rfl⟩
  · exact ⟨rfl, rfl, rfl, fun _ h => .inl h, fun _ h => h, fun _ h => h, rfl⟩

/-! ## Refreshes -/

variable {i : ℕ} {read : RefreshRead}

/-- What a refresh puts on screen is what it read, if it is of the generation that is current. -/
theorem finishRefresh_follows (hread : s.refreshReads[i]? = some read) {snapshot : Option (Option ReadCatalogue)}
    (hsnapshot : ∀ c, snapshot = some (some c) → read.stage.stamp = some c.startedAt) :
    Follows s (s.finishRefresh i read snapshot) := by
  have hretired := (retire_quiet s i).follows
  rw [finishRefresh]
  dsimp only
  split
  · exact hretired
  split
  · split
    · exact hretired.quiet (refreshQueued_quiet _)
    · exact hretired
  · next hcurrent =>
    have hcommitted : Follows s ((s.retire i).commit snapshot) := by
      cases snapshot with
      | none => exact hretired
      | some catalogue =>
        refine ⟨hretired.clock, hretired.settled, hretired.reads, hretired.lifecycle, hretired.create, fun c hc => ?_⟩
        have hstamp := hsnapshot c (congrArg some hc)
        exact .inr (.inl ⟨read, List.mem_of_getElem? hread, not_not.1 hcurrent, hstamp⟩)
    split
    · next startup _ hstartup =>
      have hkept : Follows s { commit snapshot (s.retire i) with startup := some { startup with readSettled := true } } :=
        ⟨hcommitted.clock, hcommitted.settled, hcommitted.reads, hcommitted.lifecycle, hcommitted.create,
          hcommitted.catalogue⟩
      rw [maybeFinishStartup]
      dsimp only
      split
      · exact ⟨hcommitted.clock, hcommitted.settled, hcommitted.reads, hcommitted.lifecycle, hcommitted.create,
          hcommitted.catalogue⟩
      · exact hkept.quiet (refreshQueued_quiet _)
    · exact hcommitted.quiet (refreshQueued_quiet _)

/-- A refresh that goes on keeps the start of its read, or begins it now. -/
theorem advance_follows (hread : s.refreshReads[i]? = some read) {stage : RefreshStage}
    (hstage : stage.stamp = some s.clock ∨ stage.stamp = read.stage.stamp) : Follows s (s.advance i read stage) := by
  refine ⟨rfl, rfl, fun read' hread' t ht => ?_, fun _ h => .inr h, fun _ h => .inr h, fun _ h => .inl h⟩
  rcases List.mem_or_eq_of_mem_set hread' with hold | rfl
  · exact .inr ⟨read', hold, ht, id⟩
  · rcases hstage with hnow | hsame
    · exact .inl (Option.some.inj (ht.symm.trans hnow))
    · exact .inr ⟨read, List.mem_of_getElem? hread, hsame.symm.trans ht, id⟩

theorem healthRead_follows (s : ComfortApp) (i : ℕ) (present : Option Bool) : Follows s (s.healthRead i present) := by
  rw [healthRead]
  cases hread : s.refreshReads[i]? with
  | none => exact (Quiet.refl s).follows
  | some read =>
    dsimp only
    split
    · split
      · exact (retire_quiet s i).follows
      · split
        · exact finishRefresh_follows hread (by intro c hc; cases hc)
        · exact finishRefresh_follows hread (by intro c hc; cases hc)
        · exact advance_follows hread (.inl rfl)
    · exact (Quiet.refl s).follows

theorem catalogueRead_follows (s : ComfortApp) (i : ℕ) (value : Option ReaderCatalogue) :
    Follows s (s.catalogueRead i value) := by
  rw [catalogueRead]
  cases hread : s.refreshReads[i]? with
  | none => exact (Quiet.refl s).follows
  | some read =>
    dsimp only
    split
    · next startedAt hstage =>
      split
      · exact (retire_quiet s i).follows
      · split
        · exact finishRefresh_follows hread (by intro c hc; cases hc)
        · split
          · exact advance_follows hread (.inr (by rw [hstage]; rfl))
          · refine finishRefresh_follows hread (fun c hc => ?_)
            cases hc
            rw [hstage]
            rfl
    · exact (Quiet.refl s).follows

theorem contextRead_follows (s : ComfortApp) (i : ℕ) (ok : Bool) : Follows s (s.contextRead i ok) := by
  rw [contextRead]
  cases hread : s.refreshReads[i]? with
  | none => exact (Quiet.refl s).follows
  | some read =>
    dsimp only
    split
    · next catalogue hstage =>
      split
      · exact (retire_quiet s i).follows
      · split
        · refine finishRefresh_follows hread (fun c hc => ?_)
          cases hc
          rw [hstage]
          rfl
        · exact finishRefresh_follows hread (by intro c hc; cases hc)
    · exact (Quiet.refl s).follows

/-! ## Writers -/

/-- The phases go on; what they wait for was waited for, or begins now. -/
theorem phases_follow {phase : LifecyclePhase} {create : CreatePhase} {catalogue : Option ReadCatalogue}
    (hphase : ∀ t ∈ phase.stamps, t = s.clock ∨ t ∈ s.lifecycle.stamps)
    (hcreate : ∀ t ∈ create.stamps, t = s.clock ∨ t ∈ s.create.stamps)
    (hcatalogue : ∀ c, catalogue = some c → s.catalogue = some c ∨ s.Reading c.startedAt) :
    Follows s { s with lifecycle := phase, create, catalogue } :=
  ⟨rfl, rfl, fun read hread _ ht => .inr ⟨read, hread, ht, id⟩, hphase, hcreate, hcatalogue⟩

theorem finishLifecycleWriter_follows (s : ComfortApp) : Follows s s.finishLifecycleWriter := by
  rw [finishLifecycleWriter]
  split
  · split
    · exact (Quiet.refl s).follows
    · refine phases_follow (fun t ht => ?_) (fun _ h => .inr h) (fun _ h => .inl h)
      exact .inl (List.mem_singleton.1 ht)
  · exact (Quiet.refl s).follows

theorem lifecycleRead_follows (s : ComfortApp) (value : Option ReaderCatalogue) : Follows s (s.lifecycleRead value) := by
  unfold lifecycleRead
  split
  · exact phases_follow (fun _ ht => by cases ht) (fun _ h => .inr h) (fun _ h => .inl h)
  · next target startedAt value hphase =>
    have hstamp : startedAt ∈ s.lifecycle.stamps := by
      rw [hphase]
      exact List.mem_singleton_self _
    have hshown : ∀ c, some (⟨startedAt, value⟩ : ReadCatalogue) = some c → s.catalogue = some c ∨ s.Reading c.startedAt := by
      intro c hc
      cases hc
      exact .inr (.inr (.inl hstamp))
    have hfound : ∀ t ∈ (LifecyclePhase.resuming (some startedAt)).stamps, t = s.clock ∨ t ∈ s.lifecycle.stamps := by
      intro t ht
      rw [List.mem_singleton.1 ht]
      exact .inr hstamp
    split
    · exact phases_follow hfound (fun _ h => .inr h) hshown
    · split
      · refine phases_follow (fun t ht => ?_) (fun _ h => .inr h) hshown
        rcases List.mem_cons.1 ht with rfl | hnow
        · exact .inr hstamp
        · exact .inl (List.mem_singleton.1 hnow)
      · exact phases_follow hfound (fun _ h => .inr h) hshown
  · exact (Quiet.refl s).follows

theorem lifecycleScoped_follows (s : ComfortApp) (ok : Bool) : Follows s (s.lifecycleScoped ok) := by
  unfold lifecycleScoped
  split
  · next first startedAt hphase =>
    refine phases_follow (fun t ht => .inr ?_) (fun _ h => .inr h) (fun _ h => .inl h)
    rw [hphase, List.mem_singleton.1 ht]
    cases ok with
    | true => exact List.mem_cons_of_mem _ (List.mem_singleton_self _)
    | false => exact List.mem_cons_self
  · exact (Quiet.refl s).follows

theorem createWriter_follows (s : ComfortApp) : Follows s s.createWriter := by
  unfold createWriter
  split
  · exact phases_follow (fun _ h => .inr h) (fun t ht => .inl (List.mem_singleton.1 ht)) (fun _ h => .inl h)
  · exact (Quiet.refl s).follows

theorem createRead_follows (s : ComfortApp) (value : Option ReaderCatalogue) : Follows s (s.createRead value) := by
  unfold createRead
  split
  · exact phases_follow (fun _ h => .inr h) (fun _ ht => by cases ht) (fun _ h => .inl h)
  · next startedAt value hphase =>
    have hstamp : startedAt ∈ s.create.stamps := by
      rw [hphase]
      exact List.mem_singleton_self _
    refine phases_follow (fun _ h => .inr h) (fun t ht => ?_) (fun c hc => ?_)
    · rw [List.mem_singleton.1 ht]
      exact .inr hstamp
    · cases hc
      exact .inr (.inr (.inr hstamp))
  · exact (Quiet.refl s).follows

/-! ## Commands -/

/-- What is put on screen over the card, with no read of its own. -/
theorem overlay_quiet {phase : LifecyclePhase} (hphase : ∀ t ∈ phase.stamps, t ∈ s.lifecycle.stamps)
    {create : CreatePhase} (hcreate : ∀ t ∈ create.stamps, t ∈ s.create.stamps) (mode origin : ComfortMode)
    (lifecycleFilm helpOpen : Bool) :
    Quiet s { s with lifecycle := phase, create, mode, lifecycleOrigin := origin, lifecycleFilm, helpOpen } :=
  ⟨rfl, rfl, rfl, fun _ h => .inl h, hphase, hcreate, rfl⟩

/-- The reads in flight are not of the generation that a lifecycle write begins. -/
theorem startLifecycleWriter_follows (h : Sound s) (target : JsString) (filmLive : Bool) :
    Follows s (s.startLifecycleWriter target filmLive) := by
  refine ⟨rfl, rfl, fun read hread t ht => ?_, (fun _ ht => nomatch ht), fun _ ht => .inr ht,
    fun _ hc => .inl hc⟩
  refine .inr ⟨read, hread, ht, fun hnew => ?_⟩
  have hold := h.generation read hread
  rw [hnew] at hold
  exact absurd hold (Nat.not_succ_le_self _)

theorem handleLifecycleCommand_follows (h : Sound s) (command : ComfortCommand) (world : Surroundings) :
    Follows s (s.handleLifecycleCommand command world) := by
  have hnone : ∀ t ∈ LifecyclePhase.none.stamps, t ∈ s.lifecycle.stamps := fun _ ht => nomatch ht
  unfold handleLifecycleCommand
  split
  · split
    · exact (finish_quiet s).follows
    · exact (Quiet.refl s).follows
  split
  · exact (finish_quiet s).follows
  · exact (overlay_quiet hnone (fun _ h => h) _ _ _ _).follows
  · exact (overlay_quiet hnone (fun _ h => h) _ _ _ _).follows
  · split
    · exact startLifecycleWriter_follows h _ _
    · exact (Quiet.refl s).follows
  · exact (overlay_quiet hnone (fun _ h => h) _ _ _ _).follows
  · split
    · exact (Quiet.refl s).follows
    · exact (refresh_quiet false s).follows
  · split
    · exact (Quiet.refl s).follows
    · exact (overlay_quiet (fun _ h => h) (fun _ h => h) _ _ _ _).follows
  · exact (Quiet.refl s).follows

theorem handleCreateCommand_quiet (s : ComfortApp) (command : ComfortCommand) (world : Surroundings) :
    Quiet s (s.handleCreateCommand command world) := by
  have hnone : ∀ t ∈ CreatePhase.none.stamps, t ∈ s.create.stamps := fun _ ht => nomatch ht
  unfold handleCreateCommand
  split
  · exact finish_quiet s
  · exact overlay_quiet (fun _ h => h) hnone _ _ _ _
  · exact overlay_quiet (fun _ h => h) hnone _ _ _ _
  · split
    · exact overlay_quiet (fun _ h => h) (by intro _ ht; cases ht) _ _ _ _
    · exact .refl s
  · exact refresh_quiet false s
  · exact overlay_quiet (fun _ h => h) (fun _ h => h) _ _ _ _
  · exact .refl s

theorem handleMainCommand_quiet (s : ComfortApp) (command : ComfortCommand) (world : Surroundings) :
    Quiet s (s.handleMainCommand command world) := by
  unfold handleMainCommand
  split
  · exact finish_quiet s
  · exact refresh_quiet false s
  · exact overlay_quiet (fun _ h => h) (fun _ h => h) _ _ _ _
  · exact overlay_quiet (fun _ h => h) (fun _ h => h) _ _ _ _
  · split
    · exact overlay_quiet (fun _ h => h) (by intro _ ht; cases ht) _ _ _ _
    · exact .refl s
  · split
    · exact overlay_quiet (by intro _ ht; cases ht) (fun _ h => h) _ _ _ _
    · exact .refl s
  · split
    · have hopened := refresh_quiet false { s with mode := .dashboard }
      exact ⟨hopened.clock, hopened.settled, hopened.generation, hopened.reads, hopened.lifecycle, hopened.create,
        hopened.catalogue⟩
    · exact .refl s
  · exact .refl s

theorem handleCommand_follows (h : Sound s) (command : ComfortCommand) (world : Surroundings) :
    Follows s (s.handleCommand command world) := by
  unfold handleCommand
  split
  · exact (Quiet.refl s).follows
  split
  · exact (Quiet.refl s).follows
  split
  · split
    · exact (finish_quiet s).follows
    · exact (overlay_quiet (fun _ h => h) (fun _ h => h) _ _ _ _).follows
    · exact (Quiet.refl s).follows
  split
  · exact handleLifecycleCommand_follows h command world
  split
  · exact (handleCreateCommand_quiet s command world).follows
  · exact (handleMainCommand_quiet s command world).follows

/-! ## Settled outcomes -/

/-- An outcome is settled from a read, and nothing older may be shown from then on. -/
structure Settles (s s' : ComfortApp) (settledFrom : Option ℕ) : Prop where
  clock : s'.clock = s.clock
  settled : s'.settledReads = settledFrom.toList ++ s.settledReads
  source : ∀ t ∈ settledFrom, s.Reading t
  reading : ∀ t', s'.Reading t' → s.Reading t' ∧ ∀ t ∈ settledFrom, t ≤ t'
  catalogue : s'.catalogue = s.catalogue

theorem Quiet.reading (h : Quiet s s') {t : ℕ} (ht : s'.Reading t) : s.Reading t := by
  rcases ht with ⟨read, hread, hgen, hstamp⟩ | hlifecycle | hcreate
  · rcases h.reads read hread with hold | hnone
    · exact .inl ⟨read, hold, hgen.trans h.generation, hstamp⟩
    · rw [hnone] at hstamp
      cases hstamp
  · exact .inr (.inl (h.lifecycle t hlifecycle))
  · exact .inr (.inr (h.create t hcreate))

theorem Follows.reading (h : Follows s s') {t : ℕ} (ht : s'.Reading t) : t = s.clock ∨ s.Reading t := by
  rcases ht with ⟨read, hread, hgen, hstamp⟩ | hlifecycle | hcreate
  · rcases h.reads read hread t hstamp with hnow | ⟨read', hread', hstamp', hcurrent⟩
    · exact .inl hnow
    · exact .inr (.inl ⟨read', hread', hcurrent hgen, hstamp'⟩)
  · exact (h.lifecycle t hlifecycle).imp_right (fun hold => .inr (.inl hold))
  · exact (h.create t hcreate).imp_right (fun hold => .inr (.inr hold))

theorem Settles.quiet {settledFrom : Option ℕ} (h : Settles s s' settledFrom) (h' : Quiet s' s'') :
    Settles s s'' settledFrom :=
  ⟨h'.clock.trans h.clock, h'.settled.trans h.settled, h.source, fun t ht => h.reading t (h'.reading ht),
    h'.catalogue.trans h.catalogue⟩

/-- **A lifecycle write leaves no older read to be shown**: none in flight is of its generation. -/
theorem lifecycleResume_cases (h : Sound s) (confirmed finished warned : Bool) :
    Follows s (s.lifecycleResume confirmed finished warned) ∨
      ∃ settledFrom, Settles s (s.lifecycleResume confirmed finished warned) settledFrom := by
  unfold lifecycleResume
  split
  · next settledFrom hphase =>
    dsimp only
    split
    · exact .inl ⟨rfl, rfl, fun read hread _ ht => .inr ⟨read, hread, ht, id⟩, fun _ ht => .inr ht,
        fun _ ht => .inr ht, fun _ hc => .inl hc⟩
    · next hclosed =>
      have hlock : s.lifecycleReadLock = true := by
        rw [h.lock (Bool.eq_false_iff.2 hclosed), hphase]
        rfl
      have hcreate : s.create = .none := h.exclusive.resolve_left (by simp [hphase])
      have htold : Settles s
          { s with
            lifecycleReadLock := false
            lifecycle := .settled confirmed
            lifecycleFilm := s.lifecycleFilm && confirmed
            settledReads := settledFrom.toList ++ s.settledReads } settledFrom := by
        refine ⟨rfl, rfl, fun t ht => .inr (.inl ?_), fun t' ht' => ?_, rfl⟩
        · rw [hphase]
          exact Option.mem_toList.2 ht
        · exfalso
          rcases ht' with ⟨read, hread, hgen, -⟩ | hnone | hnone
          · exact absurd hgen (Nat.ne_of_lt (h.locked hlock read hread))
          · cases hnone
          · rw [hcreate] at hnone
            cases hnone
      refine .inr ⟨settledFrom, Settles.quiet ?_ (refreshQueued_quiet _)⟩
      split
      · exact htold.quiet (completeLifecycleFilm_quiet _ warned)
      · exact htold
  · exact .inl (Quiet.refl s).follows

/-- When the outcome of a creation is settled, no older read that may be shown is in flight. -/
def Calm (s : ComfortApp) (e : AppEvent) : Prop :=
  e = .createResume → ∀ t, s.create = .resuming (some t) → ∀ read ∈ s.refreshReads,
    read.generation = s.readGeneration → ∀ t', read.stage.stamp = some t' → t ≤ t'

theorem createResume_cases (h : Sound s) (hcalm : Calm s .createResume) :
    Follows s s.createResume ∨ ∃ settledFrom, Settles s s.createResume settledFrom := by
  unfold createResume
  split
  · next settledFrom hphase =>
    have hlifecycle : s.lifecycle = .none := h.exclusive.resolve_right (by simp [hphase])
    refine .inr ⟨settledFrom, rfl, rfl, fun t ht => .inr (.inr ?_), fun t' ht' => ?_, rfl⟩
    · rw [hphase]
      exact Option.mem_toList.2 ht
    · rcases ht' with ⟨read, hread, hgen, hstamp⟩ | hnone | hnone
      · refine ⟨.inl ⟨read, hread, hgen, hstamp⟩, fun t ht => ?_⟩
        rw [Option.mem_def.1 ht] at hphase
        exact hcalm rfl t hphase read hread hgen t' hstamp
      · rw [show LifecyclePhase.stamps s.lifecycle = [] by rw [hlifecycle]; rfl] at hnone
        cases hnone
      · cases hnone
  · exact .inl (Quiet.refl s).follows

/-- **What an event does to the reads.** -/
theorem handle_cases (h : Sound s) {e : AppEvent} (hcalm : Calm s e) :
    Follows s (s.handle e) ∨ ∃ settledFrom, Settles s (s.handle e) settledFrom := by
  cases e with
  | command command world =>
    rw [handle]
    split
    · exact .inl (Quiet.refl s).follows
    · exact .inl (handleCommand_follows h command world)
  | signal => exact .inl (finish_quiet s).follows
  | refreshTick =>
    rw [handle]
    split
    · exact .inl (refresh_quiet false s).follows
    · exact .inl (Quiet.refl s).follows
  | startupTick strideComplete =>
    refine .inl ?_
    rw [handle]
    split
    · split
      · exact (Quiet.refl s).follows
      · rw [maybeFinishStartup]
        dsimp only
        split
        · exact ⟨rfl, rfl, fun read hread _ ht => .inr ⟨read, hread, ht, id⟩, fun _ ht => .inr ht,
            fun _ ht => .inr ht, fun _ hc => .inl hc⟩
        · exact ⟨rfl, rfl, fun read hread _ ht => .inr ⟨read, hread, ht, id⟩, fun _ ht => .inr ht,
            fun _ ht => .inr ht, fun _ hc => .inl hc⟩
    · exact (Quiet.refl s).follows
  | filmTick warned =>
    rw [handle]
    split
    · exact .inl (completeLifecycleFilm_quiet s warned).follows
    · exact .inl (Quiet.refl s).follows
  | filmRetired => exact .inl (overlay_quiet (fun _ h => h) (fun _ h => h) _ _ _ _).follows
  | healthRead i present => exact .inl (healthRead_follows s i present)
  | catalogueRead i value => exact .inl (catalogueRead_follows s i value)
  | contextRead i ok => exact .inl (contextRead_follows s i ok)
  | lifecycleWriter => exact .inl (finishLifecycleWriter_follows s)
  | lifecycleRead value => exact .inl (lifecycleRead_follows s value)
  | lifecycleScoped ok => exact .inl (lifecycleScoped_follows s ok)
  | lifecycleResume confirmed finished warned => exact lifecycleResume_cases h confirmed finished warned
  | createWriter => exact .inl (createWriter_follows s)
  | createRead value => exact .inl (createRead_follows s value)
  | createResume => exact createResume_cases h hcalm

/-! ## Runs -/

/-- No read that may be shown began before one that an outcome was settled from. -/
structure Fresh (s : ComfortApp) : Prop where
  settled : ∀ r ∈ s.settledReads, r < s.clock
  past : ∀ t, s.Reading t → t < s.clock
  newer : ∀ t, s.Reading t → ∀ r ∈ s.settledReads, r ≤ t

theorem step_fresh (h : Sound s) (hfresh : Fresh s) {e : AppEvent} (hcalm : Calm s e) : Fresh (s.step e) := by
  rcases handle_cases h hcalm with hfollows | ⟨settledFrom, hsettles⟩
  · refine ⟨fun r hr => ?_, fun t ht => ?_, fun t ht r hr => ?_⟩
    · have hold := hfresh.settled r (hfollows.settled ▸ hr)
      exact Nat.lt_succ_of_lt hold
    · rcases hfollows.reading ht with rfl | hold
      · exact Nat.lt_succ_self _
      · exact Nat.lt_succ_of_lt (hfresh.past t hold)
    · have hr' : r ∈ s.settledReads := hfollows.settled ▸ hr
      -- a read that begins now is newer than all
      rcases hfollows.reading ht with rfl | hold
      · exact Nat.le_of_lt (hfresh.settled r hr')
      · exact hfresh.newer t hold r hr'
  · have hsplit : ∀ r ∈ (s.step e).settledReads, r ∈ settledFrom ∨ r ∈ s.settledReads := by
      intro r hr
      rw [show (s.step e).settledReads = settledFrom.toList ++ s.settledReads from hsettles.settled] at hr
      exact (List.mem_append.1 hr).imp_left Option.mem_toList.1
    refine ⟨fun r hr => ?_, fun t ht => ?_, fun t ht r hr => ?_⟩
    · rcases hsplit r hr with hnew | hold
      · exact Nat.lt_succ_of_lt (hfresh.past r (hsettles.source r hnew))
      · exact Nat.lt_succ_of_lt (hfresh.settled r hold)
    · exact Nat.lt_succ_of_lt (hfresh.past t (hsettles.reading t ht).1)
    · obtain ⟨hread, hnewer⟩ := hsettles.reading t ht
      rcases hsplit r hr with hnew | hold
      · exact hnewer r hnew
      · exact hfresh.newer t hread r hold

/-- Each step of the run is calm. -/
def CalmRun : ComfortApp → List AppEvent → Prop
  | _, [] => True
  | s, e :: events => Calm s e ∧ CalmRun (s.step e) events

theorem run_fresh (h : Sound s) (hfresh : Fresh s) {events : List AppEvent} (hcalm : CalmRun s events) :
    Fresh (s.run events) := by
  induction events generalizing s with
  | nil => exact hfresh
  | cons e events ih => exact ih (step_sound h e) (step_fresh h hfresh hcalm.1) hcalm.2

theorem start_fresh (mode : ComfortMode) (motionAllowed : Bool) : Fresh (start mode motionAllowed) := by
  have hnone : ∀ t, ¬ (start mode motionAllowed).Reading t := by
    intro t ht
    rcases ht with ⟨read, hread, -, hstamp⟩ | hnone | hnone
    · rw [List.mem_singleton.1 hread] at hstamp
      cases hstamp
    · cases hnone
    · cases hnone
  exact ⟨(fun _ hr => nomatch hr), fun t ht => (hnone t ht).elim, fun t ht => (hnone t ht).elim⟩

/-- What a step brings on screen began after every read that an outcome was settled from. -/
theorem step_catalogue (h : Sound s) (hfresh : Fresh s) {e : AppEvent} (hcalm : Calm s e) {c : ReadCatalogue}
    (hnew : (s.step e).catalogue = some c) (hold : s.catalogue ≠ some c) : ∀ r ∈ s.settledReads, r ≤ c.startedAt := by
  rcases handle_cases h hcalm with hfollows | ⟨settledFrom, hsettles⟩
  · exact hfresh.newer _ ((hfollows.catalogue c hnew).resolve_left hold)
  · exact absurd (hsettles.catalogue.symm.trans hnew) hold

theorem CalmRun.split {before after : List AppEvent} (h : CalmRun s (before ++ after)) :
    CalmRun s before ∧ CalmRun (s.run before) after := by
  induction before generalizing s with
  | nil => exact ⟨trivial, h⟩
  | cons e before ih => exact ⟨⟨h.1, (ih h.2).1⟩, (ih h.2).2⟩

/-- What the event puts on screen began no earlier than any read that an outcome was settled from. -/
def Forward (s : ComfortApp) (e : AppEvent) : Prop :=
  ∀ c, (s.step e).catalogue = some c → s.catalogue ≠ some c → ∀ r ∈ s.settledReads, r ≤ c.startedAt

/-- **The reads of the app**: at most one refresh is in flight, no request is lost, and a run of calm steps shows
nothing older than what an outcome was settled from. -/
theorem comfort_reads (mode : ComfortMode) (motionAllowed : Bool) (events : List AppEvent) :
    ((start mode motionAllowed).run events).refreshReads.length ≤ 1 ∧
      (((start mode motionAllowed).run events).closed = false →
        ((start mode motionAllowed).run events).refreshReads = [] →
        ((start mode motionAllowed).run events).lifecycle.unsettled = false →
        ∀ r ∈ ((start mode motionAllowed).run events).requestsMeanwhile,
          r < ((start mode motionAllowed).run events).refreshesStarted) ∧
      (CalmRun (start mode motionAllowed) events →
        ∀ before e after, events = before ++ e :: after → Forward ((start mode motionAllowed).run before) e) := by
  have hstart := start_sound mode motionAllowed
  have hsound := run_sound hstart events
  refine ⟨hsound.one, hsound.served, fun hcalm before e after hevents c hnew hold => ?_⟩
  rw [hevents] at hcalm
  obtain ⟨hbefore, hafter⟩ := hcalm.split
  exact step_catalogue (run_sound hstart before) (run_fresh hstart (start_fresh mode motionAllowed) hbefore) hafter.1
    hnew hold

theorem calm_of_ne {e : AppEvent} (h : e ≠ .createResume) : Calm s e := fun heq => absurd heq h

theorem calm_of_idle (h : s.refreshReads = []) (e : AppEvent) : Calm s e := by
  intro _ _ _ read hread
  rw [h] at hread
  cases hread

end

/-! ## A creation during a refresh -/

/-- The store before and after the workstream `atlas` is created. -/
def atlasCatalogue (created : Bool) : ReaderCatalogue where
  referenceAt := js "2026-01-01T00:00:00.000Z"
  statusCounts := ⟨if created then 1 else 0, 0, .ok, ⟨.complete, none⟩⟩
  workstreams :=
    if created then
      { shown := 1, total := 1, hidden := 0, readState := .ok, coverage := ⟨.complete, none⟩
        items := [{ workstreamId := js "w-atlas", name := js "atlas", status := .open
                    updatedAt := js "2026-01-01T00:00:00.000Z"
                    members := ⟨0, 0, 0, [], .ok, ⟨.complete, none⟩⟩
                    rolls := ⟨0, 0, 0, [], .ok, ⟨.complete, none⟩⟩
                    turnsCoverage := ⟨.complete, none⟩, lastKnownActivityAt := none, unread := none }] }
    else ⟨0, 0, 0, [], .ok, ⟨.complete, none⟩⟩
  diagnostics := ⟨0, 0, 0⟩

def plainWorld : Surroundings := ⟨false, true, true, false, none, true⟩

/-- The first refresh, then `atlas` is created. -/
def firstRefresh : List AppEvent := [.healthRead 0 (some true), .catalogueRead 0 (some (atlasCatalogue false))]

def atlasCreation : List AppEvent :=
  [.command .create plainWorld, .command .submit plainWorld, .createWriter, .createRead (some (atlasCatalogue true)),
    .createResume]

/-- A refresh that began its read of the catalogue. -/
def openRefresh : List AppEvent := [.command .refresh plainWorld, .healthRead 0 (some true)]

/-- With no refresh in flight when the outcome is settled, the next one shows what is newer. -/
theorem comfort_reads_atlas :
    CalmRun (start .home false) (firstRefresh ++ atlasCreation ++ openRefresh ++ [.catalogueRead 0 (some (atlasCatalogue true))]) ∧
      Forward ((start .home false).run (firstRefresh ++ atlasCreation ++ openRefresh))
        (.catalogueRead 0 (some (atlasCatalogue true))) := by
  have hcalm : CalmRun (start .home false)
      (firstRefresh ++ atlasCreation ++ openRefresh ++ [.catalogueRead 0 (some (atlasCatalogue true))]) := by
    refine ⟨calm_of_ne nofun, calm_of_ne nofun, calm_of_ne nofun, calm_of_ne nofun, calm_of_ne nofun,
      calm_of_ne nofun, calm_of_idle rfl _, calm_of_ne nofun, calm_of_ne nofun, calm_of_ne nofun, trivial⟩
  exact ⟨hcalm, (comfort_reads .home false _).2.2 hcalm _ _ [] rfl⟩

/-- **A refresh puts back what was on screen before the creation**: it began its read before the one that the
outcome is settled from, and ends after. -/
theorem comfort_reads_goes_back :
    ¬ ∀ mode motionAllowed before e, Forward ((start mode motionAllowed).run before) e := by
  intro h
  have hstale := h .home false (firstRefresh ++ openRefresh ++ atlasCreation)
    (.catalogueRead 0 (some (atlasCatalogue false))) ⟨3, atlasCatalogue false⟩ rfl ?_ 6 ?_
  · exact absurd hstale (by decide)
  · intro heq
    have hstamp := congrArg (Option.map ReadCatalogue.startedAt) heq
    exact absurd hstamp (by decide)
  · exact List.mem_singleton_self _

end ComfortApp

end Barbaro.Tui
