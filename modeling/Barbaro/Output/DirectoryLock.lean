import Mathlib.Logic.Function.Basic
import Mathlib.Data.Nat.Basic
import Mathlib.Order.Basic

/-!
# The directory lock

Processes that share a file system serialize their transactions with a directory: who
creates it has the lock, writes its owner file, and deletes both at the end. A lock whose
owner is gone, or that has no readable owner for too long, is broken by whoever waits for it.

Every step of a process is one call of the file system, or the evaluation of one condition,
so that any two processes may be interleaved at any of them. All processes are of one host,
and the clock of the host is that of its file system.

* `LockState.advance`: the next step of a process in `withDirectoryLock`.
* `LockStep`: a step of some process, a crash, or the passing of time.
-/

namespace Barbaro.Lock

/-- `owner.json`: not there, created and not yet written, or naming its process. A token is
made for each attempt. -/
inductive OwnerFile (P : Type)
  | absent
  | torn (token : ℕ)
  | written (pid : P) (token : ℕ)
  deriving DecidableEq

/-- The lock. Nothing but the proofs looks at who created it. -/
structure LockDirectory (P : Type) where
  creator : P
  mtime : ℕ
  owner : OwnerFile P
  deriving DecidableEq

/-- `readLockOwner`: an owner file that cannot be read as one is none. -/
def LockDirectory.readOwner {P : Type} (d : LockDirectory P) : Option (P × ℕ) :=
  match d.owner with
  | .written pid token => some (pid, token)
  | _ => none

/-- Where a process is in `withDirectoryLock`, with what it has seen there. -/
inductive Phase (P : Type)
  | idle
  /-- Before `mkdir`. -/
  | acquiring
  /-- The directory was created, at this time; it is verified next. -/
  | created (time : ℕ)
  /-- The owner file is opened next. -/
  | verified (time : ℕ)
  /-- The owner file is written next. -/
  | opened (time token : ℕ)
  /-- The owner file could not be created: it is unlinked, then the directory removed. -/
  | cleaning (eexist : Bool)
  | cleaned (eexist : Bool)
  /-- In the critical section. -/
  | inside (token : ℕ)
  /-- The release: reading the owner, verifying, unlinking, removing. -/
  | leaving (token : ℕ)
  | checked (token : ℕ)
  | unlinking (token : ℕ)
  | removing (seen : ℕ)
  /-- The directory exists: verifying it, its `lstat`, reading its owner. -/
  | found
  | present
  | inspected (mtime seen : ℕ)
  /-- The decision whether the lock is stale. -/
  | judging (mtime seen : ℕ) (owner : Option (P × ℕ))
  /-- A stale lock: reading the owner again, unlinking it, removing the directory. -/
  | rereading (seen token : ℕ)
  | breaking (seen : ℕ)
  | broken (seen : ℕ)
  /-- The lock is not stale, or somebody else's again. -/
  | waiting
  deriving DecidableEq

/-- The lock, how often it was changed, the clock, and the processes. -/
structure LockState (P : Type) where
  now : ℕ
  directory : Option (LockDirectory P)
  changes : ℕ
  tokens : ℕ
  alive : P → Bool
  phase : P → Phase P

variable {P : Type} [DecidableEq P]

namespace LockState

/-- The process goes on. -/
def goTo (s : LockState P) (p : P) (phase : Phase P) : LockState P :=
  { s with phase := Function.update s.phase p phase }

/-- A change of the directory. -/
def change (s : LockState P) (directory : Option (LockDirectory P)) : LockState P :=
  { s with directory, changes := s.changes + 1 }

/-- `unlink(ownerPath)`; without an owner file nothing happens. -/
def unlinkOwner (s : LockState P) : LockState P :=
  match s.directory with
  | none => s
  | some d => if d.owner = .absent then s else s.change (some { d with mtime := s.now, owner := .absent })

/-- `rmdir(directory)`; nothing happens if there is none, or one that is not empty. -/
def rmdir (s : LockState P) : LockState P :=
  match s.directory with
  | none => s
  | some d => if d.owner = .absent then s.change none else s

/-- The next step of a process. The choice is whether its patience is at an end. -/
def advance (staleAfterMs : ℕ) (timeout : Bool) (p : P) (s : LockState P) : LockState P :=
  match s.phase p with
  | .idle => s.goTo p .acquiring
  | .acquiring =>
    match s.directory with
    | none => (s.change (some ⟨p, s.now, .absent⟩)).goTo p (.created s.now)
    | some _ => s.goTo p .found
  | .created time =>
    match s.directory with
    | none => s.goTo p .idle
    | some _ => s.goTo p (.verified time)
  | .verified time =>
    match s.directory with
    | none => s.goTo p (.cleaning false)
    | some d =>
      if d.owner = .absent then
        let opened := s.change (some { d with mtime := s.now, owner := .torn s.tokens })
        { opened with tokens := s.tokens + 1 }.goTo p (.opened time s.tokens)
      else s.goTo p (.cleaning true)
  | .opened _ token =>
    match s.directory with
    | none => s.goTo p (.inside token)
    | some d =>
      -- a file that was unlinked meanwhile is written all the same
      if d.owner = .torn token then (s.change (some { d with owner := .written p token })).goTo p (.inside token)
      else s.goTo p (.inside token)
  | .cleaning eexist => s.unlinkOwner.goTo p (.cleaned eexist)
  | .cleaned eexist => s.rmdir.goTo p (if eexist then .found else .idle)
  | .inside token => s.goTo p (.leaving token)
  | .leaving token =>
    if (s.directory.bind (·.readOwner)).map (·.2) = some token then s.goTo p (.checked token)
    else s.goTo p .idle
  | .checked token =>
    match s.directory with
    | none => s.goTo p .idle
    | some _ => s.goTo p (.unlinking token)
  | .unlinking _ =>
    if s.unlinkOwner.changes = s.changes then s.goTo p .idle
    else s.unlinkOwner.goTo p (.removing (s.changes + 1))
  | .removing _ => s.rmdir.goTo p .idle
  | .found =>
    match s.directory with
    | none => s.goTo p .acquiring
    | some _ => s.goTo p .present
  | .present =>
    match s.directory with
    | none => s.goTo p .acquiring
    | some d => s.goTo p (.inspected d.mtime s.changes)
  | .inspected mtime seen => s.goTo p (.judging mtime seen (s.directory.bind (·.readOwner)))
  | .judging mtime seen none =>
    if staleAfterMs ≤ s.now - mtime then s.goTo p (.breaking seen) else s.goTo p .waiting
  | .judging _ seen (some (pid, token)) =>
    if s.alive pid then s.goTo p .waiting else s.goTo p (.rereading seen token)
  | .rereading seen token =>
    if (s.directory.bind (·.readOwner)).map (·.2) = some token then s.goTo p (.breaking seen)
    else s.goTo p .acquiring
  | .breaking seen => s.unlinkOwner.goTo p (.broken (seen + (s.unlinkOwner.changes - s.changes)))
  | .broken _ =>
    -- what is not empty stays
    if s.rmdir.directory = none then s.rmdir.goTo p .acquiring else s.rmdir.goTo p .waiting
  | .waiting => s.goTo p (if timeout then .idle else .acquiring)

end LockState

/-- When a process created the directory whose owner it has not written yet. -/
def Phase.creationTime : Phase P → Option ℕ
  | .created time => some time
  | .verified time => some time
  | .opened time _ => some time
  | _ => none

/-- A live process writes its owner file within the time after which the lock is stale. -/
def Punctual (staleAfterMs : ℕ) (s : LockState P) : Prop :=
  ∀ p, s.alive p = true → ∀ time, (s.phase p).creationTime = some time → s.now < time + staleAfterMs

/-- One step of a live process, a crash, or the passing of time. -/
inductive LockStep (staleAfterMs : ℕ) : LockState P → LockState P → Prop
  | act (s : LockState P) (p : P) (timeout : Bool) (alive : s.alive p = true) :
      LockStep staleAfterMs s (s.advance staleAfterMs timeout p)
  | crash (s : LockState P) (p : P) :
      LockStep staleAfterMs s { s with alive := Function.update s.alive p false }
  | tick (s : LockState P) (punctual : Punctual staleAfterMs { s with now := s.now + 1 }) :
      LockStep staleAfterMs s { s with now := s.now + 1 }

/-- No process is in a call. The lock is whatever was left behind. -/
def Initial (s : LockState P) : Prop := ∀ p, s.phase p = .idle

end Barbaro.Lock
