import Barbaro.Core.Paths
import Barbaro.Lib.FileTree
import Barbaro.Lib.Loop

/-!
# The boundary of the store

Every path of the store goes through one check: the directories from a trusted anchor down
are looked at one after the other, none may be a link, and each has to lie, with all links
followed, below the root of the store. Missing ones are made on the way where the caller
asks for it.
-/

namespace Barbaro.SafeStore

open FileTree

/-- A path in normal form. -/
abbrev Path := List JsString

def readChunkBytes : ℕ := 64 * 1024

inductive StoreFailure
  /-- A `TypeError` -/
  | invalidComponent (component : JsString)
  | missingFilename
  | invalidBound
  | emptyRoot
  /-- `UnsafeStorePathError` -/
  | unsafePath (path : Path) (reason : String)
  /-- `StoreFileTooLargeError` -/
  | tooLarge (path : Path) (maximumBytes : ℕ)
  /-- An error of the system. -/
  | system (e : Errno)
  deriving DecidableEq, Repr

/-- What `validateComponent` lets through. -/
def isValidComponent (component : JsString) : Bool :=
  component.length != 0 && component != js "." && component != js ".." && !component.contains 47 &&
    !component.contains 92 && !component.contains 0

def validateComponent (component : JsString) : Except StoreFailure JsString :=
  if isValidComponent component then .ok component else .error (.invalidComponent component)

structure SafeStoreBoundary where
  anchorPath : Path
  rootComponents : List JsString
  /-- The constructor refuses anything else. -/
  valid : rootComponents.all isValidComponent = true
  guarded : rootComponents ≠ []

def SafeStoreBoundary.rootPath (b : SafeStoreBoundary) : Path := b.rootComponents.foldl joinPath b.anchorPath

/-- `SafeStoreBoundary.forBarbaroProject`, of a project's root in normal form -/
def forBarbaroProject (projectRoot : Path) : SafeStoreBoundary where
  anchorPath := projectRoot
  rootComponents := [js ".barbaro"]
  valid := by decide
  guarded := by decide

/-- `SafeStoreBoundary.forDirectory` -/
def forDirectory (target : Path) : Except StoreFailure SafeStoreBoundary :=
  match target.getLast? with
  | none => .error .emptyRoot
  | some component =>
    if h : isValidComponent component = true then
      .ok { anchorPath := target.dropLast, rootComponents := [component], valid := by simp [h], guarded := by simp }
    else .error (.invalidComponent component)

namespace SafeStoreBoundary

variable (b : SafeStoreBoundary)

def pathFor (relativeComponents : List JsString) : Except StoreFailure Path := do
  let components ← relativeComponents.mapM validateComponent
  return components.foldl joinPath b.rootPath

def componentsForPath (target : Path) : Except StoreFailure (List JsString) :=
  let candidate := relativePath b.rootPath target
  if isOutside candidate then .error (.unsafePath target "path is outside guarded root")
  else if candidate.length = 0 then .ok []
  else (candidate.splitOn 47).mapM validateComponent

/-! ## Directories -/

/-- One step down: what is there, after it was made if it has to be. -/
def enter (create : Bool) (t : FileTree.Tree JsString) (current : Path) :
    FileTree.Tree JsString × Except StoreFailure (Option (Entry JsString)) :=
  match t.lstat current with
  | .ok entry => (t, .ok (some entry))
  | .error .noent =>
    if create then
      match t.mkdir current with
      | .ok t' => (t', ((t'.lstat current).mapError .system).map some)
      | .error .exist => (t, ((t.lstat current).mapError .system).map some)
      | .error e => (t, .error (.system e))
    else (t, .ok none)
  | .error e => (t, .error (.system e))

/-- The loop over the chain, with the path so far and the real path of the root. -/
def inspectChain (create : Bool) (canonicalAnchor : Path) (rootLength : ℕ) :
    List JsString → ℕ → Path → Option Path → FileTree.Tree JsString →
      FileTree.Tree JsString × Except StoreFailure (Option (Path × Option Path))
  | [], _, current, canonicalRoot, t => (t, .ok (some (current, canonicalRoot)))
  | component :: chain, index, current, canonicalRoot, t =>
    let current := joinPath current component
    match enter create t current with
    | (t, .error e) => (t, .error e)
    | (t, .ok none) => (t, .ok none)
    | (t, .ok (some (.link _ _))) => (t, .error (.unsafePath current "directory component is a symbolic link"))
    | (t, .ok (some .dir)) =>
      match t.resolve current with
      | .error e => if !create && e == .noent then (t, .ok none) else (t, .error (.system e))
      | .ok canonicalCurrent =>
        if isOutside (relativePath (canonicalRoot.getD canonicalAnchor) canonicalCurrent) then
          (t, .error (.unsafePath current "real path escapes"))
        else
          inspectChain create canonicalAnchor rootLength chain (index + 1) current
            (if index + 1 = rootLength then some canonicalCurrent else canonicalRoot) t
    | (t, .ok (some _)) => (t, .error (.unsafePath current "directory component is not a directory"))

def inspectDirectoryChain (create : Bool) (relativeComponents : List JsString) (t : FileTree.Tree JsString) :
    FileTree.Tree JsString × Except StoreFailure (Option Path) :=
  match relativeComponents.mapM validateComponent with
  | .error e => (t, .error e)
  | .ok requested =>
    match t.stat b.anchorPath with
    | .error e => (t, .error (.system e))
    | .ok .dir =>
      match t.resolve b.anchorPath with
      | .error e => (t, .error (.system e))
      | .ok canonicalAnchor =>
        match inspectChain create canonicalAnchor b.rootComponents.length (b.rootComponents ++ requested) 0
            b.anchorPath none t with
        | (t, .error e) => (t, .error e)
        | (t, .ok none) => (t, .ok none)
        | (t, .ok (some (_, none))) => (t, .error .emptyRoot)
        | (t, .ok (some (current, some canonicalRoot))) =>
          match t.resolve current with
          | .error e => if !create && e == .noent then (t, .ok none) else (t, .error (.system e))
          | .ok canonicalCurrent =>
            if isOutside (relativePath canonicalRoot canonicalCurrent) then
              (t, .error (.unsafePath current "real path escapes"))
            else (t, .ok (some current))
    | .ok _ => (t, .error (.unsafePath b.anchorPath "anchor is not a directory"))

def ensureDirectory (relativeComponents : List JsString) (t : FileTree.Tree JsString) :
    FileTree.Tree JsString × Except StoreFailure Path :=
  match b.inspectDirectoryChain true relativeComponents t with
  | (t, .ok (some path)) => (t, .ok path)
  | (t, .ok none) => (t, .error (.system .noent))
  | (t, .error e) => (t, .error e)

def verifyDirectory (relativeComponents : List JsString) (t : FileTree.Tree JsString) : Except StoreFailure (Option Path) :=
  (b.inspectDirectoryChain false relativeComponents t).2

end SafeStoreBoundary

/-! ## Files -/

/-- How many bytes the system gives at an offset: at least one where there are some, and no
more than were asked for. -/
def bytesRead (short : ℕ → ℕ → ℕ) (size offset length : ℕ) : ℕ :=
  min (min length (size - offset)) (short offset length + 1)

/-- One round of `readBounded`, with the bytes that were read. -/
def readRound (short : ℕ → ℕ → ℕ) (content : Bytes) (path : Path) (maximumBytes : ℕ) (chunks : Bytes) :
    Option (Loop.Round Bytes (Except StoreFailure Bytes)) :=
  let total := chunks.length
  let remaining := maximumBytes - total
  let length := min readChunkBytes (if readChunkBytes ≤ remaining then readChunkBytes else remaining + 1)
  let n := bytesRead short content.length total length
  if n = 0 then some (.done (.ok chunks))
  else if maximumBytes < total + n then some (.done (.error (.tooLarge path maximumBytes)))
  else some (.next (chunks ++ (content.drop total).take n))

/-- `readBounded`: every round reads a byte or is the last. -/
def readBounded (short : ℕ → ℕ → ℕ) (content : Bytes) (path : Path) (maximumBytes : ℕ) :
    Option (Except StoreFailure Bytes) :=
  Loop.run (readRound short content path maximumBytes) (content.length + 2) []

namespace SafeStoreBoundary

variable (b : SafeStoreBoundary)

/-- `readRegularFile`; there is no result only if `readBounded` does not end. -/
def readRegularFile (short : ℕ → ℕ → ℕ) (t : FileTree.Tree JsString) (relativeComponents : List JsString) (maximumBytes : ℤ) :
    Option (Except StoreFailure (Option Bytes)) :=
  if maximumBytes < 0 ∨ maxSafeInteger < maximumBytes then some (.error .invalidBound)
  else
    match relativeComponents.mapM validateComponent with
    | .error e => some (.error e)
    | .ok components =>
      if components.length = 0 then some (.error .missingFilename)
      else
        match b.verifyDirectory components.dropLast t with
        | .error e => some (.error e)
        | .ok none => some (.ok none)
        | .ok (some _) =>
          match b.pathFor components with
          | .error e => some (.error e)
          | .ok path =>
            match t.lstat path with
            | .error .noent => some (.ok none)
            | .error e => some (.error (.system e))
            | .ok (.link _ _) => some (.error (.unsafePath path "final file is a symbolic link"))
            | .ok (.file content) =>
              -- the descriptor is of the file that was looked at: nothing else has changed the tree
              if maximumBytes.toNat < content.length then some (.error (.tooLarge path maximumBytes.toNat))
              else (readBounded short content path maximumBytes.toNat).map (fun r => r.map some)
            | .ok _ => some (.error (.unsafePath path "final path is not a regular file"))

end SafeStoreBoundary

/-! ## Finding the store -/

/-- The loop of `findBarbaroStoreLocation`, with the components of the cursor from its end. -/
def findUp : List JsString → Option (List JsString)
  | [] => none
  | component :: above => if component = js ".barbaro" then some (component :: above) else findUp above

/-- `findBarbaroStoreLocation` -/
def findBarbaroStoreLocation (target : Path) : Except StoreFailure (Option (SafeStoreBoundary × List JsString)) :=
  match findUp target.reverse with
  | none => .ok none
  | some cursor => do
    let boundary := forBarbaroProject cursor.reverse.dropLast
    let components ← boundary.componentsForPath target
    return some (boundary, components)

end Barbaro.SafeStore
