import Mathlib.Data.List.Basic

/-!
# Trees of files with symbolic links

A tree gives what is at every place, and a place is the names from the root to it, with no
link among them. A path may go through links: resolving it follows them one after the
other, up to a bound on their number.

* `walk_name`: a step from a resolved directory to a name in it.
* `walk_mono`: new entries do not change how a path was resolved.
* `Tree.lstat_below`, `Tree.resolve_below`: what is just below a resolved directory.
-/

namespace FileTree

inductive Component (α : Type)
  | here
  | up
  | name (a : α)

/-- What is at a place. -/
inductive Entry (α : Type)
  | dir
  | file (content : List UInt8)
  | link (absolute : Bool) (target : List (Component α))
  /-- A socket, a pipe or a device. -/
  | other

/-- What a call of the system answers when it fails. -/
inductive Errno
  | noent | notdir | loop | exist
  deriving DecidableEq, Repr

/-- A tree: every entry is in a directory. -/
structure Tree (α : Type) where
  entry : List α → Option (Entry α)
  root : entry [] = some .dir
  parent : ∀ p a, (entry (p ++ [a])).isSome → entry p = some .dir

variable {α : Type}

/-! ## Resolving -/

/-- The path from a directory, where `follow` goes on after a link. -/
def walkFrom (t : Tree α) (follow : List α → List (Component α) → Except Errno (List α)) :
    List α → List (Component α) → Except Errno (List α)
  | place, [] => .ok place
  | place, .here :: path => walkFrom t follow place path
  | place, .up :: path => walkFrom t follow place.dropLast path
  | place, .name a :: path =>
    match t.entry (place ++ [a]) with
    | none => .error .noent
    | some .dir => walkFrom t follow (place ++ [a]) path
    | some (.link absolute target) => follow (if absolute then [] else place) (target ++ path)
    | some _ => if path.isEmpty then .ok (place ++ [a]) else .error .notdir

/-- The path from a directory, through so many links at most. -/
def walk (t : Tree α) : ℕ → List α → List (Component α) → Except Errno (List α)
  | 0 => walkFrom t (fun _ _ => .error .loop)
  | n + 1 => walkFrom t (walk t n)

/-- How many links the system follows. -/
def maxLinks : ℕ := 40

namespace Tree

variable (t : Tree α)

/-- `realpath` -/
def resolve (path : List α) : Except Errno (List α) := walk t maxLinks [] (path.map .name)

/-- What is at a place, for a call that needs something there. -/
def entryAt (place : List α) : Except Errno (Entry α) :=
  match t.entry place with
  | none => .error .noent
  | some e => .ok e

/-- `stat` -/
def stat (path : List α) : Except Errno (Entry α) :=
  match t.resolve path with
  | .error e => .error e
  | .ok place => t.entryAt place

/-- The place of a path whose last name is not followed. -/
def locate (path : List α) : Except Errno (List α) :=
  match path.getLast? with
  | none => .ok []
  | some a =>
    match t.resolve path.dropLast with
    | .error e => .error e
    | .ok place =>
      match t.entry place with
      | some .dir => .ok (place ++ [a])
      | _ => .error .notdir

/-- `lstat` -/
def lstat (path : List α) : Except Errno (Entry α) :=
  match t.locate path with
  | .error e => .error e
  | .ok place => t.entryAt place

variable [DecidableEq α]

/-- One more directory. -/
def addDir (place : List α) (a : α) (hdir : t.entry place = some .dir) (hnone : t.entry (place ++ [a]) = none) :
    Tree α where
  entry p := if p = place ++ [a] then some .dir else t.entry p
  root := by
    rw [if_neg (by simp), t.root]
  parent p b h := by
    split at h
    · next heq =>
      obtain rfl := (List.append_inj' heq rfl).1
      rw [if_neg (by simp)]
      exact hdir
    · have hp := t.parent p b h
      rw [if_neg (by rintro rfl; rw [hnone] at hp; cases hp), hp]

/-- `mkdir` -/
def mkdir (path : List α) : Except Errno (Tree α) :=
  match path.getLast? with
  | none => .error .exist
  | some a =>
    match t.resolve path.dropLast with
    | .error e => .error e
    | .ok place =>
      match hdir : t.entry place, hnone : t.entry (place ++ [a]) with
      | some .dir, none => .ok (t.addDir place a hdir hnone)
      | some .dir, some _ => .error .exist
      | _, _ => .error .notdir

end Tree

/-! ## How paths resolve -/

section
variable {t t' : Tree α}

/-- One more name after a path that resolves to a directory. -/
theorem walkFrom_name {follow : List α → List (Component α) → Except Errno (List α)} {a : α}
    {c : List α} (hdir : t.entry c = some .dir) {e : Entry α} (he : t.entry (c ++ [a]) = some e)
    (hlink : ∀ b target, e ≠ .link b target)
    (hfollow : ∀ place path, follow place path = .ok c → follow place (path ++ [.name a]) = .ok (c ++ [a]))
    {place : List α} {path : List (Component α)} (h : walkFrom t follow place path = .ok c) : walkFrom t follow place (path ++ [.name a]) = .ok (c ++ [a]) := by
  induction path generalizing place with
  | nil =>
    cases h
    rw [List.nil_append, walkFrom, he]
    cases e with
    | dir => rfl
    | file => rfl
    | link b target => exact absurd rfl (hlink b target)
    | other => rfl
  | cons x path ih =>
    cases x with
    | here => exact ih h
    | up => exact ih h
    | name b =>
      rw [List.cons_append, walkFrom]
      rw [walkFrom] at h
      cases hb : t.entry (place ++ [b]) with
      | none =>
        rw [hb] at h
        cases h
      | some f =>
        rw [hb] at h
        cases f with
        | dir => exact ih h
        | link absolute target =>
          simp only [← List.append_assoc]
          exact hfollow _ _ h
        | file content =>
          -- a path ends at a file, and this one ends at a directory
          simp only at h
          split at h
          · cases h
            rw [hb] at hdir
            cases hdir
          · cases h
        | other =>
          simp only at h
          split at h
          · cases h
            rw [hb] at hdir
            cases hdir
          · cases h

theorem walk_name {n : ℕ} {a : α} {place : List α} {path : List (Component α)} {c : List α}
    (h : walk t n place path = .ok c) (hdir : t.entry c = some .dir) {e : Entry α} (he : t.entry (c ++ [a]) = some e)
    (hlink : ∀ b target, e ≠ .link b target) : walk t n place (path ++ [.name a]) = .ok (c ++ [a]) := by
  induction n generalizing place path with
  | zero =>
    refine walkFrom_name hdir he hlink ?_ h
    intro _ _ h
    cases h
  | succ n ih => exact walkFrom_name hdir he hlink (fun _ _ h => ih h) h

/-- A tree with more entries resolves a path as before. -/
theorem walkFrom_mono {follow follow' : List α → List (Component α) → Except Errno (List α)}
    (hmore : ∀ p e, t.entry p = some e → t'.entry p = some e)
    {c : List α} (hfollow : ∀ place path, follow place path = .ok c → follow' place path = .ok c)
    {place : List α} {path : List (Component α)} (h : walkFrom t follow place path = .ok c) :
    walkFrom t' follow' place path = .ok c := by
  induction path generalizing place with
  | nil => exact h
  | cons x path ih =>
    cases x with
    | here => exact ih h
    | up => exact ih h
    | name b =>
      rw [walkFrom] at h ⊢
      cases hb : t.entry (place ++ [b]) with
      | none =>
        rw [hb] at h
        cases h
      | some f =>
        rw [hb] at h
        rw [hmore _ _ hb]
        cases f with
        | dir => exact ih h
        | link absolute target => exact hfollow _ _ h
        | file content => exact h
        | other => exact h

theorem walk_mono (hmore : ∀ p e, t.entry p = some e → t'.entry p = some e) {n : ℕ} {place : List α}
    {path : List (Component α)} {c : List α} (h : walk t n place path = .ok c) : walk t' n place path = .ok c := by
  induction n generalizing place path with
  | zero =>
    refine walkFrom_mono hmore ?_ h
    intro _ _ h
    cases h
  | succ n ih => exact walkFrom_mono hmore (fun _ _ h => ih h) h

namespace Tree

theorem resolve_mono (hmore : ∀ p e, t.entry p = some e → t'.entry p = some e) {path c : List α}
    (h : t.resolve path = .ok c) : t'.resolve path = .ok c := walk_mono hmore h

/-- **Just below a resolved directory**, what is no link is where its name says. -/
theorem resolve_below {path c : List α} {a : α} (h : t.resolve path = .ok c) (hdir : t.entry c = some .dir)
    {e : Entry α} (he : t.entry (c ++ [a]) = some e) (hlink : ∀ b target, e ≠ .link b target) :
    t.resolve (path ++ [a]) = .ok (c ++ [a]) := by
  rw [resolve, List.map_append]
  exact walk_name h hdir he hlink

theorem locate_below {path c : List α} {a : α} (h : t.resolve path = .ok c) (hdir : t.entry c = some .dir) :
    t.locate (path ++ [a]) = .ok (c ++ [a]) := by
  rw [locate, List.getLast?_concat, List.dropLast_concat, h]
  simp only [hdir]

theorem lstat_below {path c : List α} {a : α} (h : t.resolve path = .ok c) (hdir : t.entry c = some .dir) :
    t.lstat (path ++ [a]) = t.entryAt (c ++ [a]) := by
  rw [lstat, locate_below h hdir]

theorem entryAt_eq_ok {place : List α} {e : Entry α} : t.entryAt place = .ok e ↔ t.entry place = some e := by
  rw [entryAt]
  split <;> simp [*]

theorem stat_dir {path : List α} (h : t.stat path = .ok .dir) :
    ∃ c, t.resolve path = .ok c ∧ t.entry c = some .dir := by
  rw [stat] at h
  split at h
  · cases h
  next c hc => exact ⟨c, hc, entryAt_eq_ok.1 h⟩

variable [DecidableEq α]

/-- `mkdir` just below a resolved directory adds that one entry. -/
theorem mkdir_below {path c : List α} {a : α} (h : t.resolve path = .ok c) (hdir : t.entry c = some .dir)
    (hnone : t.entry (c ++ [a]) = none) :
    ∃ t', t.mkdir (path ++ [a]) = .ok t' ∧ ∀ p, t'.entry p = if p = c ++ [a] then some .dir else t.entry p := by
  refine ⟨t.addDir c a hdir hnone, ?_, fun p => rfl⟩
  rw [mkdir, List.getLast?_concat, List.dropLast_concat, h]
  simp only
  split
  · rfl
  · next hsome => rw [hnone] at hsome; cases hsome
  · next hnot _ => exact (hnot hdir hnone).elim

end Tree

end

end FileTree
