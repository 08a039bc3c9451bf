import Barbaro.Output.DirectoryLock

/-!
# Mutual exclusion

The check of a stale lock and its deletion are several steps. Between them the lock may have
been broken and taken by others; the deletion then hits a lock that is held. As long as it
does not, the lock excludes.

* `Undisturbed`: the lock that is deleted is the one that was inspected.
* `Exclusive`: who is alive and holds the lock has its directory, and nobody else does.
* `lock_exclusive`: every undisturbed run is exclusive.
* `broken_lock_shared`: another run is not.
-/

namespace Barbaro.Lock

variable {P : Type} {staleAfterMs : ℕ}

/-! ## Who has the lock -/

/-- The process has the lock: from the creation of its directory to the deletion of its
owner file. -/
def Phase.Holding : Phase P → Prop
  | .created _ => True
  | .verified _ => True
  | .opened _ _ => True
  | .inside _ => True
  | .leaving _ => True
  | .checked _ => True
  | .unlinking _ => True
  | _ => False

/-- The owner file of a process that has the lock. -/
def Phase.ownerFile (p : P) : Phase P → OwnerFile P
  | .opened _ token => .torn token
  | .inside token => .written p token
  | .leaving token => .written p token
  | .checked token => .written p token
  | .unlinking token => .written p token
  | _ => .absent

/-- A live process that has the lock has its directory, with its owner file in it. -/
structure Exclusive (s : LockState P) : Prop where
  alone : ∀ p q token token', s.alive p = true → s.alive q = true → s.phase p = .inside token →
    s.phase q = .inside token' → p = q
  held : ∀ p, s.alive p = true → (s.phase p).Holding → ∃ d, s.directory = some d ∧ d.creator = p ∧
    d.owner = (s.phase p).ownerFile p

/-! ## The invariant -/

/-- No live process has the lock. -/
def Free (s : LockState P) : Prop := ∀ p, s.alive p = true → ¬ (s.phase p).Holding

/-- What a live process has, at its phase. -/
def Holds (s : LockState P) (p : P) (phase : Phase P) : Prop :=
  (∀ eexist, phase ≠ .cleaning eexist ∧ phase ≠ .cleaned eexist) ∧
    (phase.Holding → ∃ d, s.directory = some d ∧ d.creator = p ∧ d.owner = phase.ownerFile p ∧
      ∀ time, phase.creationTime = some time → time ≤ d.mtime ∧ time ≤ s.now)

/-- What a process knows while the directory is as it has seen it. -/
def Knows (s : LockState P) : Phase P → Prop
  | .inspected mtime seen => seen ≤ s.changes ∧
      (s.changes = seen → ∃ d, s.directory = some d ∧ d.mtime = mtime)
  | .judging mtime seen owner => seen ≤ s.changes ∧
      (s.changes = seen → ∃ d, s.directory = some d ∧ d.mtime = mtime ∧ d.readOwner = owner)
  | .rereading seen _ => seen ≤ s.changes ∧ (s.changes = seen → Free s)
  | .breaking seen => seen ≤ s.changes ∧ (s.changes = seen → Free s)
  | .broken seen => seen ≤ s.changes ∧ (s.changes = seen → Free s)
  | .removing seen => seen ≤ s.changes ∧ (s.changes = seen → Free s)
  | _ => True

structure Inv (staleAfterMs : ℕ) (s : LockState P) : Prop where
  holds : ∀ p, s.alive p = true → Holds s p (s.phase p)
  knows : ∀ p, s.alive p = true → Knows s (s.phase p)
  punctual : Punctual staleAfterMs s

/-- There is one directory, so only one process has it. -/
theorem Inv.unique {s : LockState P} (h : Inv staleAfterMs s) {p q : P} (hp : s.alive p = true)
    (hq : s.alive q = true) (hholdp : (s.phase p).Holding) (hholdq : (s.phase q).Holding) : p = q := by
  obtain ⟨d, hd, hdp, -⟩ := (h.holds p hp).2 hholdp
  obtain ⟨d', hd', hdq, -⟩ := (h.holds q hq).2 hholdq
  rw [hd] at hd'
  obtain rfl := Option.some.inj hd'
  exact hdp.symm.trans hdq

theorem Inv.exclusive {s : LockState P} (h : Inv staleAfterMs s) : Exclusive s where
  alone p q token token' hp hq hinp hinq :=
    h.unique hp hq (by rw [hinp]; trivial) (by rw [hinq]; trivial)
  held p hp hhold := by
    obtain ⟨d, hd, hcreator, howner, -⟩ := (h.holds p hp).2 hhold
    exact ⟨d, hd, hcreator, howner⟩

/-- **A stale lock is nobody's**: its owner is dead, or too late to be alive. -/
theorem Inv.stale_free (hstale : 0 < staleAfterMs) {s : LockState P} (h : Inv staleAfterMs s) {d : LockDirectory P}
    (hd : s.directory = some d) (hnone : d.readOwner = none → staleAfterMs ≤ s.now - d.mtime)
    (hsome : ∀ pid token, d.readOwner = some (pid, token) → s.alive pid = false) : Free s := by
  intro q hq hhold
  obtain ⟨d', hd', -, howner, htime⟩ := (h.holds q hq).2 hhold
  rw [hd] at hd'
  obtain rfl := Option.some.inj hd'
  have hpunctual := h.punctual q hq
  rcases hcreated : (s.phase q).creationTime with _ | time
  · -- it has written its owner file
    have hwritten : ∃ token, d.owner = .written q token := by
      rcases hphase : s.phase q with _ | _ | _ | _ | _ | _ | _ | token | token | token | token | _ | _ | _ |
        _ | _ | _ | _ | _ | _
      all_goals rw [hphase] at hhold howner hcreated
      case inside => exact ⟨token, howner⟩
      case leaving => exact ⟨token, howner⟩
      case checked => exact ⟨token, howner⟩
      case unlinking => exact ⟨token, howner⟩
      all_goals first | exact hhold.elim | cases hcreated
    obtain ⟨token, hwritten⟩ := hwritten
    have hdead := hsome q token (by rw [LockDirectory.readOwner, hwritten])
    rw [hq] at hdead
    cases hdead
  · have hunread : d.readOwner = none := by
      rw [LockDirectory.readOwner, howner]
      rcases hphase : s.phase q with _ | _ | _ | _ | _ | _ | _ | _ | _ | _ | _ | _ | _ | _ | _ | _ | _ | _ |
        _ | _
      all_goals first | rfl | (rw [hphase] at hcreated; cases hcreated)
    have hlate := hnone hunread
    have hlt := hpunctual time hcreated
    have hle := (htime time hcreated).1
    omega

theorem Inv.start {s : LockState P} (initial : Initial s) : Inv staleAfterMs s where
  holds p _ := by
    rw [initial p]
    exact ⟨fun _ => ⟨by simp, by simp⟩, fun h => h.elim⟩
  knows p _ := by
    rw [initial p]
    trivial
  punctual p _ time htime := by
    rw [initial p] at htime
    cases htime

/-! ## Steps -/

/-- What is known stays known while the directory is unchanged and nobody comes to have it. -/
theorem Knows.mono {s s' : LockState P} {phase : Phase P} (hdir : s'.directory = s.directory)
    (hchanges : s'.changes = s.changes) (hfree : Free s → Free s') (h : Knows s phase) :
    Knows s' phase := by
  cases phase with
  | inspected mtime seen =>
    simp only [Knows, hdir, hchanges] at h ⊢
    exact h
  | judging mtime seen owner =>
    simp only [Knows, hdir, hchanges] at h ⊢
    exact h
  | rereading seen token =>
    simp only [Knows, hchanges] at h ⊢
    exact ⟨h.1, fun heq => hfree (h.2 heq)⟩
  | breaking seen =>
    simp only [Knows, hchanges] at h ⊢
    exact ⟨h.1, fun heq => hfree (h.2 heq)⟩
  | broken seen =>
    simp only [Knows, hchanges] at h ⊢
    exact ⟨h.1, fun heq => hfree (h.2 heq)⟩
  | removing seen =>
    simp only [Knows, hchanges] at h ⊢
    exact ⟨h.1, fun heq => hfree (h.2 heq)⟩
  | _ => trivial

/-- After a change nothing that was seen before is as it was. -/
theorem Knows.changed {s s' : LockState P} {phase : Phase P} (hchanges : s'.changes = s.changes + 1)
    (h : Knows s phase) : Knows s' phase := by
  cases phase with
  | inspected mtime seen =>
    simp only [Knows, hchanges] at h ⊢
    exact ⟨by omega, fun heq => by omega⟩
  | judging mtime seen owner =>
    simp only [Knows, hchanges] at h ⊢
    exact ⟨by omega, fun heq => by omega⟩
  | rereading seen token =>
    simp only [Knows, hchanges] at h ⊢
    exact ⟨by omega, fun heq => by omega⟩
  | breaking seen =>
    simp only [Knows, hchanges] at h ⊢
    exact ⟨by omega, fun heq => by omega⟩
  | broken seen =>
    simp only [Knows, hchanges] at h ⊢
    exact ⟨by omega, fun heq => by omega⟩
  | removing seen =>
    simp only [Knows, hchanges] at h ⊢
    exact ⟨by omega, fun heq => by omega⟩
  | _ => trivial

theorem Holds.of_free {s : LockState P} {p : P} {phase : Phase P} (hfree : ∀ eexist, phase ≠ .cleaning eexist ∧ phase ≠ .cleaned eexist)
    (h : ¬ phase.Holding) : Holds s p phase := ⟨hfree, fun hold => absurd hold h⟩

section
variable [DecidableEq P] {s : LockState P} {p : P} {phase : Phase P}

@[simp] theorem goTo_directory : (s.goTo p phase).directory = s.directory := rfl
@[simp] theorem goTo_changes : (s.goTo p phase).changes = s.changes := rfl
@[simp] theorem goTo_alive : (s.goTo p phase).alive = s.alive := rfl
@[simp] theorem goTo_now : (s.goTo p phase).now = s.now := rfl

theorem goTo_self : (s.goTo p phase).phase p = phase := Function.update_self _ _ _

theorem goTo_other {q : P} (h : q ≠ p) : (s.goTo p phase).phase q = s.phase q :=
  Function.update_of_ne h _ _

/-- A step that leaves the directory alone. -/
theorem Inv.quiet (h : Inv staleAfterMs s) (hhold : phase.Holding → (s.phase p).Holding)
    (htime : phase.creationTime = none ∨ phase.creationTime = (s.phase p).creationTime)
    (hholds : s.alive p = true → Holds s p phase) (hknows : s.alive p = true → Knows s phase) :
    Inv staleAfterMs (s.goTo p phase) := by
  have hfree : Free s → Free (s.goTo p phase) := by
    intro hs q hq
    by_cases hqp : q = p
    · subst hqp
      rw [goTo_self]
      exact fun hp => hs q hq (hhold hp)
    · rw [goTo_other hqp]
      exact hs q hq
  constructor
  · intro q hq
    by_cases hqp : q = p
    · subst hqp
      rw [goTo_self]
      exact hholds hq
    · rw [goTo_other hqp]
      exact h.holds q hq
  · intro q hq
    by_cases hqp : q = p
    · subst hqp
      rw [goTo_self]
      exact Knows.mono (s := s) rfl rfl hfree (hknows hq)
    · rw [goTo_other hqp]
      exact Knows.mono (s := s) rfl rfl hfree (h.knows q hq)
  · intro q hq time hcreated
    by_cases hqp : q = p
    · subst hqp
      rw [goTo_self] at hcreated
      rcases htime with hnone | hsame
      · rw [hnone] at hcreated
        cases hcreated
      · rw [hsame] at hcreated
        exact h.punctual q hq time hcreated
    · rw [goTo_other hqp] at hcreated
      exact h.punctual q hq time hcreated

/-- A step that changes the directory while no other live process has it. -/
theorem Inv.changed {s₁ : LockState P} (h : Inv staleAfterMs s) (hchanges : s₁.changes = s.changes + 1)
    (halive : s₁.alive = s.alive) (hphase : s₁.phase = s.phase) (hnow : s₁.now = s.now)
    (hothers : ∀ q, q ≠ p → s.alive q = true → ¬ (s.phase q).Holding)
    (htime : ∀ time, phase.creationTime = some time → s.now < time + staleAfterMs)
    (hholds : Holds s₁ p phase) (hknows : Knows (s₁.goTo p phase) phase) :
    Inv staleAfterMs (s₁.goTo p phase) := by
  constructor
  · intro q hq
    by_cases hqp : q = p
    · subst hqp
      rw [goTo_self]
      exact hholds
    · rw [goTo_alive, halive] at hq
      rw [goTo_other hqp, hphase]
      exact ⟨(h.holds q hq).1, fun hhold => absurd hhold (hothers q hqp hq)⟩
  · intro q hq
    by_cases hqp : q = p
    · subst hqp
      rw [goTo_self]
      exact hknows
    · rw [goTo_alive, halive] at hq
      rw [goTo_other hqp, hphase]
      exact (h.knows q hq).changed hchanges
  · intro q hq time hcreated
    rw [goTo_alive, halive] at hq
    rw [goTo_now, hnow]
    by_cases hqp : q = p
    · subst hqp
      rw [goTo_self] at hcreated
      exact htime time hcreated
    · rw [goTo_other hqp, hphase] at hcreated
      exact h.punctual q hq time hcreated

theorem unlinkOwner_cases (s : LockState P) : s.unlinkOwner = s ∨
    ∃ d, s.directory = some d ∧ d.owner ≠ .absent ∧
      s.unlinkOwner = s.change (some { d with mtime := s.now, owner := .absent }) := by
  unfold LockState.unlinkOwner
  split
  · exact .inl rfl
  · next d hd =>
    split
    · exact .inl rfl
    · next howner => exact .inr ⟨d, hd, howner, rfl⟩

theorem rmdir_cases (s : LockState P) : s.rmdir = s ∨
    ∃ d, s.directory = some d ∧ d.owner = .absent ∧ s.rmdir = s.change none := by
  unfold LockState.rmdir
  split
  · exact .inl rfl
  · next d hd =>
    split
    · next howner => exact .inr ⟨d, hd, howner, rfl⟩
    · exact .inl rfl

/-- A step of a process that neither had the lock nor comes to have it, to a phase where it
knows nothing. -/
theorem Inv.plain (h : Inv staleAfterMs s) (hphase : phase = .idle ∨ phase = .acquiring ∨ phase = .found ∨
    phase = .present ∨ phase = .waiting) : Inv staleAfterMs (s.goTo p phase) := by
  rcases hphase with rfl | rfl | rfl | rfl | rfl
  all_goals
    exact h.quiet (fun hold => hold.elim) (.inl rfl)
      (fun _ => Holds.of_free (fun _ => ⟨by simp, by simp⟩) fun hold => hold) fun _ => trivial

/-- The process deletes something while no live process has the lock. -/
theorem Inv.deletes {s₁ : LockState P} (h : Inv staleAfterMs s) (hfree : Free s)
    (hstep : s₁ = s ∨ ∃ d, s₁ = s.change d) (hhold : ¬ phase.Holding)
    (hcleaning : ∀ eexist, phase ≠ .cleaning eexist ∧ phase ≠ .cleaned eexist)
    (htime : phase.creationTime = none) (hknows : Knows (s₁.goTo p phase) phase) :
    Inv staleAfterMs (s₁.goTo p phase) := by
  rcases hstep with rfl | ⟨d, rfl⟩
  · refine h.quiet (fun hold => absurd hold hhold) (.inl htime) (fun _ => .of_free hcleaning hhold) ?_
    exact fun _ => Knows.mono (s := s₁.goTo p phase) rfl rfl (fun _ => hfree) hknows
  · refine h.changed rfl rfl rfl rfl (fun q _ hq => hfree q hq) ?_ (.of_free hcleaning hhold) hknows
    intro time hcreated
    rw [htime] at hcreated
    cases hcreated

/-- How often the directory was changed when a process inspected what it now deletes. -/
def Phase.deletes : Phase P → Option ℕ
  | .breaking seen => some seen
  | .broken seen => some seen
  | .removing seen => some seen
  | _ => none

/-- A process that deletes a stale lock, or the directory of its own after its owner file,
finds what it has inspected: nobody else has changed the directory since. -/
def Undisturbed (s : LockState P) (p : P) : Prop := ∀ seen ∈ (s.phase p).deletes, s.changes = seen

instance (s : LockState P) (p : P) : Decidable (Undisturbed s p) :=
  inferInstanceAs (Decidable (∀ _ ∈ _, _))

/-- **One step of a live process** keeps the invariant, if what it deletes is undisturbed. -/
theorem Inv.act (hstale : 0 < staleAfterMs) (h : Inv staleAfterMs s) (timeout : Bool)
    (alive : s.alive p = true) (undisturbed : Undisturbed s p) :
    Inv staleAfterMs (s.advance staleAfterMs timeout p) := by
  have hholds := h.holds p alive
  have hknows := h.knows p alive
  have hothers : (s.phase p).Holding → ∀ q, q ≠ p → s.alive q = true → ¬ (s.phase q).Holding :=
    fun hp q hqp hq hhold => hqp (h.unique hq alive hhold hp)
  unfold LockState.advance
  unfold Undisturbed at undisturbed
  rcases hphase : s.phase p with _ | _ | time | time | ⟨time, token⟩ | eexist | eexist | token | token |
    token | token | seen | _ | _ | ⟨mtime, seen⟩ | ⟨mtime, seen, owner⟩ | ⟨seen, token⟩ | seen | seen | _
  all_goals rw [hphase] at hholds hknows hothers undisturbed
  case idle => exact h.plain (by simp)
  case acquiring =>
    dsimp only
    split
    · next hnone =>
      -- nobody has a directory that is not there
      have hfree : ∀ q, q ≠ p → s.alive q = true → ¬ (s.phase q).Holding := by
        intro q _ hq hhold
        obtain ⟨d, hd, -⟩ := (h.holds q hq).2 hhold
        rw [hnone] at hd
        cases hd
      refine h.changed rfl rfl rfl rfl hfree ?_ ⟨fun _ => ⟨by simp, by simp⟩, fun _ => ?_⟩ trivial
      · rintro time ⟨⟩
        omega
      · refine ⟨_, rfl, rfl, rfl, ?_⟩
        rintro time ⟨⟩
        exact ⟨Nat.le_refl _, Nat.le_refl _⟩
    · exact h.plain (by simp)
  case created =>
    dsimp only
    split
    · exact h.plain (by simp)
    · refine h.quiet (fun _ => by rw [hphase]; trivial) (.inr (by rw [hphase]; rfl)) (fun _ => ?_)
        (fun _ => trivial)
      exact ⟨fun _ => ⟨by simp, by simp⟩, fun _ => hholds.2 trivial⟩
  case verified =>
    obtain ⟨d, hd, hcreator, howner, htime⟩ := hholds.2 trivial
    have hopen : d.owner = .absent := howner
    simp only [hd, hopen, if_true]
    let s₁ : LockState P := { s with
      directory := some { d with mtime := s.now, owner := .torn s.tokens }
      changes := s.changes + 1, tokens := s.tokens + 1 }
    have hnext : s₁.changes = s.changes + 1 := rfl
    refine h.changed hnext rfl rfl rfl (hothers trivial) ?_ ?_ trivial
    · rintro t ⟨⟩
      exact h.punctual p alive time (by rw [hphase]; rfl)
    · refine ⟨fun _ => ⟨by simp, by simp⟩, fun _ => ⟨_, rfl, hcreator, rfl, ?_⟩⟩
      rintro t ⟨⟩
      exact ⟨(htime time rfl).2, (htime time rfl).2⟩
  case opened =>
    obtain ⟨d, hd, hcreator, howner, -⟩ := hholds.2 trivial
    have htorn : d.owner = .torn token := howner
    simp only [hd, htorn, if_true]
    refine h.changed rfl rfl rfl rfl (hothers trivial) (by rintro t ⟨⟩) ?_ trivial
    refine ⟨fun _ => ⟨by simp, by simp⟩, fun _ => ⟨_, rfl, hcreator, rfl, ?_⟩⟩
    rintro t ⟨⟩
  case cleaning => exact absurd rfl (hholds.1 eexist).1
  case cleaned => exact absurd rfl (hholds.1 eexist).2
  case inside =>
    refine h.quiet (fun _ => by rw [hphase]; trivial) (.inl rfl) (fun _ => ?_) (fun _ => trivial)
    exact ⟨fun _ => ⟨by simp, by simp⟩, fun _ => hholds.2 trivial⟩
  case leaving =>
    dsimp only
    split
    · refine h.quiet (fun _ => by rw [hphase]; trivial) (.inl rfl) (fun _ => ?_) (fun _ => trivial)
      exact ⟨fun _ => ⟨by simp, by simp⟩, fun _ => hholds.2 trivial⟩
    · exact h.plain (by simp)
  case checked =>
    dsimp only
    split
    · exact h.plain (by simp)
    · refine h.quiet (fun _ => by rw [hphase]; trivial) (.inl rfl) (fun _ => ?_) (fun _ => trivial)
      exact ⟨fun _ => ⟨by simp, by simp⟩, fun _ => hholds.2 trivial⟩
  case unlinking =>
    dsimp only
    rcases unlinkOwner_cases s with hsame | ⟨d, hd, -, hunlink⟩
    · rw [hsame, if_pos rfl]
      exact h.plain (by simp)
    · rw [hunlink, if_neg (by simp [LockState.change])]
      refine h.changed rfl rfl rfl rfl (hothers trivial) (by rintro t ⟨⟩)
        (.of_free (fun _ => ⟨by simp, by simp⟩) fun hold => hold) ⟨Nat.le_refl _, fun _ q hq => ?_⟩
      -- the process itself has just given the lock up
      by_cases hqp : q = p
      · subst hqp
        rw [goTo_self]
        exact fun hold => hold
      · rw [goTo_other hqp]
        exact hothers trivial q hqp hq
  case removing =>
    have hfree := hknows.2 (undisturbed seen rfl)
    dsimp only
    refine h.deletes hfree ?_ (fun hold => hold) (fun _ => ⟨by simp, by simp⟩) rfl trivial
    exact (rmdir_cases s).imp id fun ⟨_, _, _, heq⟩ => ⟨none, heq⟩
  case found =>
    dsimp only
    split
    · exact h.plain (by simp)
    · exact h.plain (by simp)
  case present =>
    dsimp only
    split
    · exact h.plain (by simp)
    · next d hd =>
      exact h.quiet (fun hold => hold.elim) (.inl rfl)
        (fun _ => .of_free (fun _ => ⟨by simp, by simp⟩) fun hold => hold)
        (fun _ => ⟨Nat.le_refl _, fun _ => ⟨d, hd, rfl⟩⟩)
  case inspected =>
    refine h.quiet (fun hold => hold.elim) (.inl rfl)
      (fun _ => .of_free (fun _ => ⟨by simp, by simp⟩) fun hold => hold) (fun _ => ⟨hknows.1, fun heq => ?_⟩)
    obtain ⟨d, hd, hmtime⟩ := hknows.2 heq
    exact ⟨d, hd, hmtime, by rw [hd]; rfl⟩
  case judging =>
    rcases owner with _ | ⟨pid, token⟩
    · dsimp only
      split
      · next hlate =>
        refine h.quiet (fun hold => hold.elim) (.inl rfl)
          (fun _ => .of_free (fun _ => ⟨by simp, by simp⟩) fun hold => hold)
          (fun _ => ⟨hknows.1, fun heq => ?_⟩)
        obtain ⟨d, hd, rfl, howner⟩ := hknows.2 heq
        exact h.stale_free hstale hd (fun _ => hlate) (by rw [howner]; rintro _ _ ⟨⟩)
      · exact h.plain (by simp)
    · dsimp only
      split
      · exact h.plain (by simp)
      · next hdead =>
        refine h.quiet (fun hold => hold.elim) (.inl rfl)
          (fun _ => .of_free (fun _ => ⟨by simp, by simp⟩) fun hold => hold)
          (fun _ => ⟨hknows.1, fun heq => ?_⟩)
        obtain ⟨d, hd, rfl, howner⟩ := hknows.2 heq
        refine h.stale_free hstale hd (by rw [howner]; rintro ⟨⟩) ?_
        rw [howner]
        rintro _ _ ⟨⟩
        simpa using hdead
  case rereading =>
    dsimp only
    split
    · exact h.quiet (fun hold => hold.elim) (.inl rfl)
        (fun _ => .of_free (fun _ => ⟨by simp, by simp⟩) fun hold => hold) (fun _ => hknows)
    · exact h.plain (by simp)
  case breaking =>
    have hfree := hknows.2 (undisturbed seen rfl)
    dsimp only
    refine h.deletes hfree ?_ (fun hold => hold) (fun _ => ⟨by simp, by simp⟩) rfl ?_
    · exact (unlinkOwner_cases s).imp id fun ⟨_, _, _, heq⟩ => ⟨_, heq⟩
    · have hstill : Free (s.unlinkOwner.goTo p (.broken (seen + (s.unlinkOwner.changes - s.changes)))) := by
        have hsame : s.unlinkOwner.phase = s.phase ∧ s.unlinkOwner.alive = s.alive := by
          rcases unlinkOwner_cases s with heq | ⟨_, _, _, heq⟩
          · rw [heq]
            exact ⟨rfl, rfl⟩
          · rw [heq]
            exact ⟨rfl, rfl⟩
        intro q hq
        by_cases hqp : q = p
        · subst hqp
          rw [goTo_self]
          exact fun hold => hold
        · rw [goTo_alive, hsame.2] at hq
          rw [goTo_other hqp, hsame.1]
          exact hfree q hq
      refine ⟨?_, fun _ => hstill⟩
      have hle : s.changes ≤ s.unlinkOwner.changes := by
        rcases unlinkOwner_cases s with heq | ⟨_, _, _, heq⟩
        · rw [heq]
        · rw [heq]
          exact Nat.le_succ _
      have hseen := hknows.1
      simp only [goTo_changes]
      omega
  case broken =>
    have hfree := hknows.2 (undisturbed seen rfl)
    have hstep := (rmdir_cases s).imp id fun ⟨_, _, _, heq⟩ => (⟨none, heq⟩ : ∃ d, s.rmdir = s.change d)
    dsimp only
    split
    · exact h.deletes hfree hstep (fun hold => hold) (fun _ => ⟨by simp, by simp⟩) rfl trivial
    · exact h.deletes hfree hstep (fun hold => hold) (fun _ => ⟨by simp, by simp⟩) rfl trivial
  case waiting =>
    dsimp only
    split
    · exact h.plain (by simp)
    · exact h.plain (by simp)

end

/-! ## Runs -/

variable [DecidableEq P]

/-- The states of a run. -/
inductive LockRun (staleAfterMs : ℕ) : LockState P → LockState P → Prop
  | start {s : LockState P} (initial : Initial s) : LockRun staleAfterMs s s
  | step {s s' s'' : LockState P} (run : LockRun staleAfterMs s s') (step : LockStep staleAfterMs s' s'') :
      LockRun staleAfterMs s s''

/-- The states of a run whose deletions are undisturbed. -/
inductive UndisturbedRun (staleAfterMs : ℕ) : LockState P → LockState P → Prop
  | start {s : LockState P} (initial : Initial s) : UndisturbedRun staleAfterMs s s
  | act {s s' : LockState P} (run : UndisturbedRun staleAfterMs s s') (p : P) (timeout : Bool)
      (alive : s'.alive p = true) (undisturbed : Undisturbed s' p) :
      UndisturbedRun staleAfterMs s (s'.advance staleAfterMs timeout p)
  | crash {s s' : LockState P} (run : UndisturbedRun staleAfterMs s s') (p : P) :
      UndisturbedRun staleAfterMs s { s' with alive := Function.update s'.alive p false }
  | tick {s s' : LockState P} (run : UndisturbedRun staleAfterMs s s')
      (punctual : Punctual staleAfterMs { s' with now := s'.now + 1 }) :
      UndisturbedRun staleAfterMs s { s' with now := s'.now + 1 }


theorem Inv.crash {s : LockState P} (h : Inv staleAfterMs s) (p : P) :
    Inv staleAfterMs { s with alive := Function.update s.alive p false } := by
  have hless : ∀ q, Function.update s.alive p false q = true → s.alive q = true := by
    intro q hq
    by_cases hqp : q = p
    · subst hqp
      rw [Function.update_self] at hq
      cases hq
    · rwa [Function.update_of_ne hqp] at hq
  constructor
  · exact fun q hq => h.holds q (hless q hq)
  · intro q hq
    exact Knows.mono (s := s) rfl rfl (fun hf r hr => hf r (hless r hr)) (h.knows q (hless q hq))
  · exact fun q hq => h.punctual q (hless q hq)

omit [DecidableEq P] in
theorem Inv.tick {s : LockState P} (h : Inv staleAfterMs s)
    (punctual : Punctual staleAfterMs { s with now := s.now + 1 }) :
    Inv staleAfterMs { s with now := s.now + 1 } := by
  constructor
  · intro q hq
    obtain ⟨hclean, hheld⟩ := h.holds q hq
    refine ⟨hclean, fun hhold => ?_⟩
    obtain ⟨d, hd, hcreator, howner, htime⟩ := hheld hhold
    exact ⟨d, hd, hcreator, howner, fun time ht => ⟨(htime time ht).1, Nat.le_succ_of_le (htime time ht).2⟩⟩
  · exact fun q hq => Knows.mono (s := s) rfl rfl (fun hf => hf) (h.knows q hq)
  · exact punctual

/-- **Mutual exclusion**: in a run whose deletions are undisturbed, no two live processes are
in the critical section, and nobody's lock is deleted but by itself. -/
theorem lock_exclusive (hstale : 0 < staleAfterMs) {s s' : LockState P}
    (run : UndisturbedRun staleAfterMs s s') : Exclusive s' := by
  have hinv : Inv staleAfterMs s' := by
    induction run with
    | start initial => exact .start initial
    | act _ p timeout alive undisturbed ih => exact ih.act hstale timeout alive undisturbed
    | crash _ p ih => exact ih.crash p
    | tick _ punctual ih => exact ih.tick punctual
  exact hinv.exclusive

/-! ## Two processes that break one lock -/

inductive Party
  | owner
  | first
  | second
  deriving DecidableEq

/-- The owner of the lock has died in the critical section. -/
def abandoned : LockState Party where
  now := 0
  directory := some ⟨.owner, 0, .written .owner 0⟩
  changes := 0
  tokens := 1
  alive p := p ≠ .owner
  phase _ := .idle

/-- The processes take their steps in this order. -/
def follow (s : LockState Party) (schedule : List Party) : LockState Party :=
  schedule.foldl (fun s p => s.advance 60000 false p) s

theorem follow_run {s s' : LockState Party} (run : LockRun 60000 s s') (schedule : List Party)
    (h : ∀ p ∈ schedule, s'.alive p = true) : LockRun 60000 s (follow s' schedule) := by
  induction schedule generalizing s' with
  | nil => exact run
  | cons p ps ih =>
    have halive : (s'.advance 60000 false p).alive = s'.alive := by
      unfold LockState.advance LockState.unlinkOwner LockState.rmdir
      repeat' split
      all_goals rfl
    refine ih (.step run (.act s' p false (h p (by simp)))) fun q hq => ?_
    rw [halive]
    exact h q (by simp [hq])

/-- Both find the owner dead, twice. Then the first breaks the lock and takes it, and the
second deletes that lock and takes its own. -/
def sharedSchedule : List Party :=
  List.replicate 7 .first ++ List.replicate 7 .second ++ List.replicate 6 .first ++ List.replicate 6 .second

/-- The lock does not exclude. -/
theorem broken_lock_shared :
    ¬ ∀ s s' : LockState Party, LockRun 60000 s s' → Exclusive s' := by
  intro h
  have hrun := follow_run (.start (s := abandoned) fun _ => rfl) sharedSchedule (by decide)
  have hboth : (follow abandoned sharedSchedule).alive .first = true ∧
      (follow abandoned sharedSchedule).alive .second = true ∧
      (follow abandoned sharedSchedule).phase .first = .inside 1 ∧
      (follow abandoned sharedSchedule).phase .second = .inside 2 := by decide
  obtain ⟨hfirst, hsecond, hin, hin'⟩ := hboth
  cases (h _ _ hrun).alone _ _ _ _ hfirst hsecond hin hin'

/-- The deletions along a schedule are undisturbed. -/
def undisturbedAlong : LockState Party → List Party → Bool
  | _, [] => true
  | s, p :: ps => s.alive p && decide (Undisturbed s p) && undisturbedAlong (s.advance 60000 false p) ps

theorem follow_undisturbed {s s' : LockState Party} (run : UndisturbedRun 60000 s s')
    (schedule : List Party) (h : undisturbedAlong s' schedule = true) :
    UndisturbedRun 60000 s (follow s' schedule) := by
  induction schedule generalizing s' with
  | nil => exact run
  | cons p ps ih =>
    simp only [undisturbedAlong, Bool.and_eq_true, decide_eq_true_eq] at h
    exact ih (.act run p false h.1.1 h.1.2) h.2

/-- One process breaks the lock, takes it and gives it back. -/
theorem broken_lock_taken : Exclusive (follow abandoned (List.replicate 18 .first)) :=
  lock_exclusive (by decide)
    (follow_undisturbed (.start (s := abandoned) fun _ => rfl) (List.replicate 18 .first) (by decide))

end Barbaro.Lock
