import Barbaro.Tui.ComfortReads

/-!
# No refresh is lost

The flags of the comfort app say what is in flight, so a request that comes meanwhile is kept until it can be
served.

* `Settling`: what holds of the flags also while a read or a write is being settled.
* `Sound`: with it, a queued request waits for a read or a write.
* `run_sound`: every run keeps this.
-/

namespace Barbaro.Tui.ComfortApp

/-! ## The flags -/

/-- The flags tell what is in flight. -/
structure Flags (s : ComfortApp) : Prop where
  flight : s.refreshReads.length = s.readInFlight.toNat
  generation : ∀ r ∈ s.refreshReads, r.generation ≤ s.readGeneration
  locked : s.lifecycleReadLock = true → ∀ r ∈ s.refreshReads, r.generation < s.readGeneration
  lock : s.closed = false → s.lifecycleReadLock = s.lifecycle.unsettled
  exclusive : s.lifecycle = .none ∨ s.create = .none
  past : ∀ r ∈ s.requestsMeanwhile, r ≤ s.refreshesStarted

/-- A request that was not followed by a refresh yet is queued; nothing is requested at the start. -/
structure Settling (s : ComfortApp) : Prop extends Flags s where
  owed : s.refreshesStarted ∈ s.requestsMeanwhile → s.closed = false → s.readQueued = true
  startup : s.startup.isSome → s.readQueued = false ∧ s.refreshTimer = false ∧ s.lifecycle = .none ∧ s.create = .none

/-- A queued request waits for a refresh or for a lifecycle write. -/
structure Sound (s : ComfortApp) : Prop extends Settling s where
  queued : s.closed = false → s.readQueued = true → s.readInFlight = true ∨ s.lifecycleReadLock = true

theorem noteRequest_eq (s : ComfortApp) : ∃ requests, s.noteRequest = { s with requestsMeanwhile := requests } ∧
    ∀ r ∈ requests, r ∈ s.requestsMeanwhile ∨
      r = s.refreshesStarted ∧ (s.refreshReads ≠ [] ∨ s.lifecycle.unsettled = true) := by
  rw [noteRequest]
  split
  · next hmeanwhile =>
    refine ⟨_, rfl, fun r hr => ?_⟩
    rcases List.mem_cons.1 hr with rfl | hr
    · exact .inr ⟨rfl, hmeanwhile⟩
    · exact .inl hr
  · exact ⟨_, rfl, fun r hr => .inl hr⟩

/-- **A request is served or kept.** -/
theorem refresh_sound {s : ComfortApp} (h : Flags s) (hstartup : s.startup = none) (initial : Bool) :
    Sound (refresh initial s) := by
  obtain ⟨requests, hnote, hrequests⟩ := noteRequest_eq s
  have hpast : ∀ r ∈ requests, r ≤ s.refreshesStarted := by
    intro r hr
    rcases hrequests r hr with hr | ⟨rfl, -⟩
    · exact h.past r hr
    · exact Nat.le_refl _
  have hnone : s.startup.isSome = true → False := by simp [hstartup]
  rw [refresh, hnote]
  dsimp only
  split
  · next hlock =>
    exact { flight := h.flight, generation := h.generation, locked := h.locked, lock := h.lock,
            exclusive := h.exclusive, past := hpast, owed := fun _ _ => rfl,
            startup := fun hsome => (hnone hsome).elim, queued := fun _ _ => .inr hlock }
  · next hlock =>
    split
    · next hflight =>
      exact { flight := h.flight, generation := h.generation, locked := h.locked, lock := h.lock,
              exclusive := h.exclusive, past := hpast, owed := fun _ _ => rfl,
              startup := fun hsome => (hnone hsome).elim, queued := fun _ _ => .inl hflight }
    · next hflight =>
      have hempty : s.refreshReads = [] := by
        have hlength := h.flight
        rw [Bool.not_eq_true] at hflight
        rw [hflight] at hlength
        exact List.eq_nil_of_length_eq_zero hlength
      refine { flight := ?_, generation := ?_, locked := fun hlocked => absurd hlocked hlock, lock := h.lock,
               exclusive := h.exclusive, past := ?_, owed := ?_, startup := fun hsome => (hnone hsome).elim,
               queued := fun _ _ => .inl rfl }
      · simp [startRefresh, hempty]
      · intro r hr
        simp only [startRefresh, hempty, List.nil_append, List.mem_singleton] at hr
        rw [hr]
        exact Nat.le_refl _
      · intro r hr
        exact Nat.le_succ_of_le (hpast r hr)
      · intro hmem
        exact absurd (hpast _ hmem) (Nat.not_succ_le_self _)

/-- What was queued is served, or was not queued. -/
theorem refreshQueued_sound {s : ComfortApp} (h : Settling s) : Sound s.refreshQueued := by
  rw [refreshQueued]
  split
  · next hqueued =>
    have hstartup : s.startup = none := by
      by_contra hsome
      have hnot := (h.startup (Option.isSome_iff_ne_none.2 hsome)).1
      rw [hqueued] at hnot
      cases hnot
    refine refresh_sound (s := { s with readQueued := false }) ?_ hstartup false
    exact ⟨h.flight, h.generation, h.locked, h.lock, h.exclusive, h.past⟩
  · next hqueued => exact { h with queued := fun _ hq => absurd hq hqueued }

/-! ## Refreshes -/

section
variable {s : ComfortApp} {i : ℕ} {read : RefreshRead}

/-- The refresh that is over was the only one. -/
theorem retire_settling (h : Sound s) (hread : s.refreshReads[i]? = some read) : Settling (s.retire i) := by
  have hlt := (List.getElem?_eq_some_iff.1 hread).1
  have hone : s.refreshReads.length ≤ 1 := by
    rw [h.flight]
    exact Bool.toNat_le _
  have hempty : s.refreshReads.eraseIdx i = [] := by
    apply List.eq_nil_of_length_eq_zero
    rw [List.length_eraseIdx_of_lt hlt]
    omega
  refine { flight := ?_, generation := ?_, locked := ?_, lock := h.lock, exclusive := h.exclusive,
           past := h.past, owed := h.owed, startup := h.startup }
  · rw [retire, hempty]
    rfl
  · intro r hr
    rw [retire, hempty] at hr
    cases hr
  · intro _ r hr
    rw [retire, hempty] at hr
    cases hr

theorem commit_settling (h : Settling s) (snapshot : Option (Option ReadCatalogue)) : Settling (s.commit snapshot) := by
  cases snapshot with
  | none => exact h
  | some catalogue =>
    exact ⟨⟨h.flight, h.generation, h.locked, h.lock, h.exclusive, h.past⟩, h.owed, h.startup⟩

theorem finishRefresh_sound (h : Sound s) (hread : s.refreshReads[i]? = some read)
    (snapshot : Option (Option ReadCatalogue)) : Sound (s.finishRefresh i read snapshot) := by
  have hretired := retire_settling h hread
  rw [finishRefresh]
  dsimp only
  split
  · next hclosed => exact { hretired with queued := fun hopen => absurd hclosed (by simp [hopen]) }
  split
  · split
    · exact refreshQueued_sound hretired
    · next hkept =>
      refine { hretired with queued := fun _ hqueued => .inr ?_ }
      by_contra hlock
      exact hkept ⟨hqueued, hlock⟩
  have hcommitted := commit_settling hretired snapshot
  split
  · next startup _ hstartup =>
    have hsome : (commit snapshot (s.retire i)).startup.isSome := by rw [hstartup]; rfl
    obtain ⟨hqueued, htimer, hlifecycle, hcreate⟩ := hcommitted.startup hsome
    have hkept : Settling { commit snapshot (s.retire i) with startup := some { startup with readSettled := true } } :=
      ⟨⟨hcommitted.flight, hcommitted.generation, hcommitted.locked, hcommitted.lock, hcommitted.exclusive,
        hcommitted.past⟩, hcommitted.owed, fun _ => ⟨hqueued, htimer, hlifecycle, hcreate⟩⟩
    rw [maybeFinishStartup]
    dsimp only
    split
    · -- the card takes over; nothing was requested so far
      exact ⟨⟨⟨hcommitted.flight, hcommitted.generation, hcommitted.locked, hcommitted.lock, hcommitted.exclusive,
        hcommitted.past⟩, hcommitted.owed, fun hnone => nomatch hnone⟩,
        fun _ hq => absurd (hqueued.symm.trans hq) (by decide)⟩
    · exact refreshQueued_sound hkept
  · exact refreshQueued_sound hcommitted

theorem advance_sound (h : Sound s) (hread : s.refreshReads[i]? = some read) (stage : RefreshStage) :
    Sound (s.advance i read stage) := by
  have hmem := List.mem_of_getElem? hread
  have hset : ∀ r ∈ s.refreshReads.set i { read with stage }, ∃ r' ∈ s.refreshReads, r.generation = r'.generation := by
    intro r hr
    rcases List.mem_or_eq_of_mem_set hr with hr | rfl
    · exact ⟨r, hr, rfl⟩
    · exact ⟨read, hmem, rfl⟩
  refine { flight := ?_, generation := ?_, locked := ?_, lock := h.lock, exclusive := h.exclusive,
           past := h.past, owed := h.owed, startup := h.startup, queued := h.queued }
  · rw [advance, List.length_set]
    exact h.flight
  · intro r hr
    obtain ⟨r', hr', heq⟩ := hset r hr
    exact heq ▸ h.generation r' hr'
  · intro hlock r hr
    obtain ⟨r', hr', heq⟩ := hset r hr
    exact heq ▸ h.locked hlock r' hr'

theorem retire_closed (h : Sound s) (hread : s.refreshReads[i]? = some read) (hclosed : s.closed = true) :
    Sound (s.retire i) :=
  { retire_settling h hread with queued := fun hopen => absurd (hclosed.symm.trans hopen) (by decide) }

end

theorem healthRead_sound {s : ComfortApp} (h : Sound s) (i : ℕ) (present : Option Bool) :
    Sound (s.healthRead i present) := by
  rw [healthRead]
  cases hread : s.refreshReads[i]? with
  | none => exact h
  | some read =>
    dsimp only
    split
    · split
      · next hclosed => exact retire_closed h hread hclosed
      · split
        · exact finishRefresh_sound h hread _
        · exact finishRefresh_sound h hread _
        · exact advance_sound h hread _
    · exact h

theorem catalogueRead_sound {s : ComfortApp} (h : Sound s) (i : ℕ) (value : Option ReaderCatalogue) :
    Sound (s.catalogueRead i value) := by
  rw [catalogueRead]
  cases hread : s.refreshReads[i]? with
  | none => exact h
  | some read =>
    dsimp only
    split
    · split
      · next hclosed => exact retire_closed h hread hclosed
      · split
        · exact finishRefresh_sound h hread _
        · split
          · exact advance_sound h hread _
          · exact finishRefresh_sound h hread _
    · exact h

theorem contextRead_sound {s : ComfortApp} (h : Sound s) (i : ℕ) (ok : Bool) : Sound (s.contextRead i ok) := by
  rw [contextRead]
  cases hread : s.refreshReads[i]? with
  | none => exact h
  | some read =>
    dsimp only
    split
    · split
      · next hclosed => exact retire_closed h hread hclosed
      · split
        · exact finishRefresh_sound h hread _
        · exact finishRefresh_sound h hread _
    · exact h

/-! ## Writers -/

section
variable {s : ComfortApp}

/-- The lifecycle goes on from one phase to another, both with an outcome to come or both without. -/
theorem phase_sound (h : Sound s) {phase : LifecyclePhase} (hnone : s.lifecycle ≠ .none)
    (hphase : phase.unsettled = s.lifecycle.unsettled) (catalogue : Option ReadCatalogue) :
    Sound { s with catalogue, lifecycle := phase } := by
  have hstartup : s.startup.isSome = true → False := fun hsome => hnone (h.startup hsome).2.2.1
  refine ⟨⟨⟨h.flight, h.generation, h.locked, fun hopen => ?_, ?_, h.past⟩, h.owed,
    fun hsome => (hstartup hsome).elim⟩, h.queued⟩
  · rw [h.lock hopen]
    exact hphase.symm
  · exact .inr (h.exclusive.resolve_left hnone)

theorem finishLifecycleWriter_sound (h : Sound s) : Sound s.finishLifecycleWriter := by
  rw [finishLifecycleWriter]
  split
  · next target hphase =>
    split
    · exact h
    · exact phase_sound h (by simp [hphase]) (by simp [hphase, LifecyclePhase.unsettled]) _
  · exact h

theorem lifecycleRead_sound (h : Sound s) (value : Option ReaderCatalogue) : Sound (s.lifecycleRead value) := by
  unfold lifecycleRead
  split
  · next hphase => exact phase_sound h (by simp [hphase]) (by simp [hphase, LifecyclePhase.unsettled]) _
  · next hphase =>
    split
    · exact phase_sound h (by simp [hphase]) (by simp [hphase, LifecyclePhase.unsettled]) _
    · split
      · exact phase_sound h (by simp [hphase]) (by simp [hphase, LifecyclePhase.unsettled]) _
      · exact phase_sound h (by simp [hphase]) (by simp [hphase, LifecyclePhase.unsettled]) _
  · exact h

theorem lifecycleScoped_sound (h : Sound s) (ok : Bool) : Sound (s.lifecycleScoped ok) := by
  rw [lifecycleScoped]
  split
  · next hphase => exact phase_sound h (by simp [hphase]) (by simp [hphase, LifecyclePhase.unsettled]) _
  · exact h

/-- What is told of a film that is over changes no read. -/
theorem completeLifecycleFilm_settling (h : Settling s) {confirmed : Bool} (hphase : s.lifecycle = .settled confirmed)
    (warned : Bool) : Settling (s.completeLifecycleFilm warned) := by
  have hnone : s.lifecycle ≠ .none := by simp [hphase]
  have hstartup : s.startup.isSome = true → False := fun hsome => hnone (h.startup hsome).2.2.1
  have hkept : Settling { s with lifecycleFilm := false } :=
    ⟨⟨h.flight, h.generation, h.locked, h.lock, h.exclusive, h.past⟩, h.owed, h.startup⟩
  unfold completeLifecycleFilm
  split
  · split
    · exact hkept
    · refine ⟨⟨h.flight, h.generation, h.locked, fun hopen => ?_, .inl rfl, h.past⟩, h.owed,
        fun hsome => (hstartup hsome).elim⟩
      rw [closeLifecycleResult, h.lock hopen, hphase]
      rfl
  · exact hkept

theorem lifecycleResume_sound (h : Sound s) (confirmed finished warned : Bool) :
    Sound (s.lifecycleResume confirmed finished warned) := by
  unfold lifecycleResume
  split
  · next settledFrom hphase =>
    have hnone : s.lifecycle ≠ .none := by simp [hphase]
    have hstartup : s.startup.isSome = true → False := fun hsome => hnone (h.startup hsome).2.2.1
    dsimp only
    split
    · next hclosed =>
      have hopen : s.closed = false → False := fun hopen => by rw [hclosed] at hopen; cases hopen
      exact ⟨⟨⟨h.flight, h.generation, (nomatch ·), fun ho => (hopen ho).elim, h.exclusive, h.past⟩,
        h.owed, h.startup⟩, fun ho => (hopen ho).elim⟩
    · next hclosed =>
      -- the lock is released and the outcome is told at once
      have hsettled : Settling { s with
          lifecycleReadLock := false
          lifecycle := .settled confirmed
          lifecycleFilm := s.lifecycleFilm && confirmed
          settledReads := settledFrom.toList ++ s.settledReads } :=
        ⟨⟨h.flight, h.generation, (nomatch ·), fun _ => rfl, .inr (h.exclusive.resolve_left hnone),
          h.past⟩, h.owed, fun hsome => (hstartup hsome).elim⟩
      apply refreshQueued_sound
      split
      · exact completeLifecycleFilm_settling hsettled rfl warned
      · exact hsettled
  · exact h

/-- The creation goes on from one phase to another. -/
theorem create_sound (h : Sound s) {phase : CreatePhase} (hnone : s.create ≠ .none) (catalogue : Option ReadCatalogue)
    (settledReads : List ℕ) : Sound { s with catalogue, create := phase, settledReads } :=
  ⟨⟨⟨h.flight, h.generation, h.locked, h.lock, .inl (h.exclusive.resolve_right hnone), h.past⟩, h.owed,
    fun hsome => (hnone (h.startup hsome).2.2.2).elim⟩, h.queued⟩

theorem createWriter_sound (h : Sound s) : Sound s.createWriter := by
  unfold createWriter
  split
  · next hphase => exact create_sound h (by simp [hphase]) _ _
  · exact h

theorem createRead_sound (h : Sound s) (value : Option ReaderCatalogue) : Sound (s.createRead value) := by
  unfold createRead
  split
  · next hphase => exact create_sound h (by simp [hphase]) _ _
  · next hphase => exact create_sound h (by simp [hphase]) _ _
  · exact h

theorem createResume_sound (h : Sound s) : Sound s.createResume := by
  unfold createResume
  split
  · next hphase => exact create_sound h (by simp [hphase]) _ _
  · exact h

/-! ## Commands -/

/-- What only changes how the app looks. -/
theorem view_sound (h : Sound s) (mode : ComfortMode) (helpOpen lifecycleFilm : Bool) :
    Sound { s with mode, helpOpen, lifecycleFilm } :=
  ⟨⟨⟨h.flight, h.generation, h.locked, h.lock, h.exclusive, h.past⟩, h.owed, h.startup⟩, h.queued⟩

theorem finish_sound (h : Sound s) : Sound s.finish := by
  rw [finish]
  split
  · exact h
  · exact ⟨⟨⟨h.flight, h.generation, h.locked, (nomatch ·), h.exclusive, h.past⟩,
      (fun _ hopen => nomatch hopen), fun hsome => ⟨(h.startup hsome).1, rfl, (h.startup hsome).2.2⟩⟩,
      (nomatch ·)⟩

/-- The overlay without an outcome to come is closed, or another one opens. -/
theorem overlay_sound (h : Sound s) (hstartup : s.startup = none) {phase : LifecyclePhase}
    (hphase : phase.unsettled = s.lifecycle.unsettled) {create : CreatePhase} (hone : phase = .none ∨ create = .none)
    (mode origin : ComfortMode) (lifecycleFilm : Bool) :
    Sound { s with lifecycle := phase, create, mode, lifecycleOrigin := origin, lifecycleFilm } := by
  refine ⟨⟨⟨h.flight, h.generation, h.locked, fun hopen => ?_, hone, h.past⟩, h.owed,
    fun hsome => ?_⟩, h.queued⟩
  · rw [h.lock hopen]
    exact hphase.symm
  · rw [hstartup] at hsome
    cases hsome

/-- **A lifecycle write locks the reads**: those in flight are of a generation that is over. -/
theorem startLifecycleWriter_sound (h : Sound s) (hstartup : s.startup = none) (hnone : s.lifecycle ≠ .none)
    (target : JsString) (filmLive : Bool) : Sound (s.startLifecycleWriter target filmLive) :=
  ⟨⟨⟨h.flight, fun r hr => Nat.le_succ_of_le (h.generation r hr), fun _ r hr => Nat.lt_succ_of_le (h.generation r hr),
    fun _ => rfl, .inr (h.exclusive.resolve_left hnone), h.past⟩, h.owed,
    fun hsome => by rw [startLifecycleWriter, hstartup] at hsome; cases hsome⟩, fun _ _ => .inr rfl⟩

theorem handleLifecycleCommand_sound (h : Sound s) (hstartup : s.startup = none) (hnone : s.lifecycle ≠ .none)
    (command : ComfortCommand) (world : Surroundings) : Sound (s.handleLifecycleCommand command world) := by
  have hcreate := h.exclusive.resolve_left hnone
  unfold handleLifecycleCommand
  split
  · split
    · exact finish_sound h
    · exact h
  split
  · exact finish_sound h
  · next hphase => exact overlay_sound h hstartup (by simp [hphase, LifecyclePhase.unsettled]) (.inl rfl) _ _ _
  · next hphase => exact overlay_sound h hstartup (by simp [hphase, LifecyclePhase.unsettled]) (.inl rfl) _ _ _
  · split
    · exact startLifecycleWriter_sound h hstartup hnone _ _
    · exact h
  · next hphase => exact overlay_sound h hstartup (by simp [hphase, LifecyclePhase.unsettled]) (.inl rfl) _ _ _
  · split
    · exact h
    · exact refresh_sound h.toFlags hstartup false
  · split
    · exact h
    · exact view_sound h _ _ _
  · exact h

theorem handleCreateCommand_sound (h : Sound s) (hstartup : s.startup = none) (hcreate : s.create ≠ .none)
    (command : ComfortCommand) (world : Surroundings) : Sound (s.handleCreateCommand command world) := by
  have hlifecycle := h.exclusive.resolve_right hcreate
  unfold handleCreateCommand
  split
  · exact finish_sound h
  · exact create_sound h hcreate _ _
  · exact create_sound h hcreate _ _
  · split
    · exact create_sound h hcreate _ _
    · exact h
  · exact refresh_sound h.toFlags hstartup false
  · exact view_sound h _ _ _
  · exact h

theorem handleMainCommand_sound (h : Sound s) (hstartup : s.startup = none) (hlifecycle : s.lifecycle = .none)
    (hcreate : s.create = .none) (command : ComfortCommand) (world : Surroundings) :
    Sound (s.handleMainCommand command world) := by
  unfold handleMainCommand
  split
  · exact finish_sound h
  · exact refresh_sound h.toFlags hstartup false
  · exact view_sound h _ _ _
  · exact view_sound h _ _ _
  · split
    · exact overlay_sound h hstartup rfl (.inl hlifecycle) _ _ _
    · exact h
  · split
    · exact overlay_sound h hstartup (by simp [hlifecycle, LifecyclePhase.unsettled]) (.inr hcreate) _ _ _
    · exact h
  · split
    · exact refresh_sound (view_sound h .dashboard _ _).toFlags hstartup false
    · exact h
  · exact h

/-- Whatever is open, the app quits. -/
theorem handleCommand_quit (world : Surroundings) (s : ComfortApp) : s.handleCommand .quit world = s.finish := by
  unfold handleCommand handleLifecycleCommand handleCreateCommand handleMainCommand
  simp

theorem handleCommand_sound (h : Sound s) (command : ComfortCommand) (world : Surroundings) :
    Sound (s.handleCommand command world) := by
  by_cases hquit : command = .quit
  · rw [hquit, handleCommand_quit]
    exact finish_sound h
  unfold handleCommand
  split
  · exact h
  split
  · exact h
  · next hstarted =>
    have hstartup : s.startup = none := by
      by_contra hsome
      exact hstarted ⟨Option.isSome_iff_ne_none.2 hsome, hquit⟩
    split
    · split
      · exact finish_sound h
      · exact view_sound h _ _ _
      · exact h
    split
    · next hnone => exact handleLifecycleCommand_sound h hstartup hnone command world
    · next hnone =>
      split
      · next hcreate => exact handleCreateCommand_sound h hstartup hcreate command world
      · next hcreate => exact handleMainCommand_sound h hstartup (not_not.1 hnone) (not_not.1 hcreate) command world

/-! ## Runs -/

theorem startupTick_sound (h : Sound s) (strideComplete : Bool) : Sound (s.handle (.startupTick strideComplete)) := by
  rw [handle]
  cases hstartup : s.startup with
  | none => exact h
  | some startup =>
    have hsome : s.startup.isSome := by rw [hstartup]; rfl
    obtain ⟨hqueued, hkept⟩ := h.startup hsome
    dsimp only
    split
    · exact h
    · rw [maybeFinishStartup]
      dsimp only
      split
      · exact ⟨⟨⟨h.flight, h.generation, h.locked, h.lock, h.exclusive, h.past⟩, h.owed, (nomatch ·)⟩, h.queued⟩
      · exact ⟨⟨⟨h.flight, h.generation, h.locked, h.lock, h.exclusive, h.past⟩, h.owed, fun _ => ⟨hqueued, hkept⟩⟩,
          h.queued⟩

theorem handle_sound (h : Sound s) (e : AppEvent) : Sound (s.handle e) := by
  cases e with
  | command command world =>
    rw [handle]
    split
    · exact h
    · exact handleCommand_sound h command world
  | signal => exact finish_sound h
  | refreshTick =>
    rw [handle]
    split
    · next htimer =>
      -- the timer is armed when the startup is over
      refine refresh_sound h.toFlags ?_ false
      by_contra hsome
      have hoff := (h.startup (Option.isSome_iff_ne_none.2 hsome)).2.1
      rw [htimer] at hoff
      cases hoff
    · exact h
  | startupTick strideComplete => exact startupTick_sound h strideComplete
  | filmTick warned =>
    rw [handle]
    split
    · next hfilm =>
      have hkept := completeLifecycleFilm_settling h.toSettling hfilm.2.1 warned
      refine ⟨hkept, ?_⟩
      unfold completeLifecycleFilm
      rw [hfilm.2.1]
      dsimp only
      split
      · exact h.queued
      · exact h.queued
    · exact h
  | filmRetired => exact view_sound h _ _ _
  | healthRead i present => exact healthRead_sound h i present
  | catalogueRead i value => exact catalogueRead_sound h i value
  | contextRead i ok => exact contextRead_sound h i ok
  | lifecycleWriter => exact finishLifecycleWriter_sound h
  | lifecycleRead value => exact lifecycleRead_sound h value
  | lifecycleScoped ok => exact lifecycleScoped_sound h ok
  | lifecycleResume confirmed finished warned => exact lifecycleResume_sound h confirmed finished warned
  | createWriter => exact createWriter_sound h
  | createRead value => exact createRead_sound h value
  | createResume => exact createResume_sound h

theorem step_sound (h : Sound s) (e : AppEvent) : Sound (s.step e) :=
  have h := handle_sound h e
  ⟨⟨⟨h.flight, h.generation, h.locked, h.lock, h.exclusive, h.past⟩, h.owed, h.startup⟩, h.queued⟩

/-- **Every run keeps the flags sound.** -/
theorem run_sound (h : Sound s) (events : List AppEvent) : Sound (s.run events) := by
  induction events generalizing s with
  | nil => exact h
  | cons e events ih => exact ih (step_sound h e)

theorem start_sound (mode : ComfortMode) (motionAllowed : Bool) : Sound (start mode motionAllowed) where
  flight := rfl
  generation := by simp [start, refresh, noteRequest, startRefresh, LifecyclePhase.unsettled]
  locked := (nomatch ·)
  lock _ := rfl
  exclusive := .inl rfl
  past := by simp [start, refresh, noteRequest, startRefresh, LifecyclePhase.unsettled]
  owed := by simp [start, refresh, noteRequest, startRefresh, LifecyclePhase.unsettled]
  startup _ := ⟨rfl, rfl, rfl, rfl⟩
  queued _ _ := .inl rfl

/-- **No request is lost**: when nothing is in flight, a refresh was started after each. -/
theorem Sound.served (h : Sound s) (hopen : s.closed = false) (hreads : s.refreshReads = [])
    (hsettled : s.lifecycle.unsettled = false) : ∀ r ∈ s.requestsMeanwhile, r < s.refreshesStarted := by
  intro r hr
  refine Nat.lt_of_le_of_ne (h.past r hr) fun heq => ?_
  have hqueued := h.owed (heq ▸ hr) hopen
  have hflight := h.flight
  rw [hreads] at hflight
  rcases h.queued hopen hqueued with hin | hlock
  · rw [hin] at hflight
    cases hflight
  · rw [h.lock hopen, hsettled] at hlock
    cases hlock

/-- **At most one refresh is in flight.** -/
theorem Sound.one (h : Sound s) : s.refreshReads.length ≤ 1 := by
  rw [h.flight]
  exact Bool.toNat_le _

end

end Barbaro.Tui.ComfortApp
