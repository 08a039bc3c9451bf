import Barbaro.Core.Patterns
import Barbaro.Core.TextLines

/-!
# The append-only stores

Turns and evidence are published by appending canonical lines to a file. A record whose id
is already in the file is not appended again; the stored version wins. Before it reads the
file an append drops what an interrupted one has left behind the last line feed.

* `healPartialDerivedTail_eq`: the repair keeps exactly the complete lines.
* `appendUniqueJsonl`: the whole append, under the lock of the file.

A file that does not exist is an empty one.
-/

namespace Barbaro

/-! ## Repair -/

/-- The complete lines of a file, as its bytes. -/
def completeLines (file : Bytes) : Bytes := Lines.join LF (Lines.cut LF file).1

/-- The values are the same key of a `Map`. Two arrays or objects of different lines never
are. -/
def sameKey : Json → Json → Bool
  | .str s, .str t => s == t
  | .num m, .num n => m == n
  | .bool a, .bool b => a == b
  | .null, .null => true
  | _, _ => false

/-- The numbers `JSON.parse` makes of literals out of range. -/
def isInfinite (n : Json.Number) : Bool :=
  n == .other (js "Infinity") || n == .other (js "-Infinity")

mutual

/-- `stableStringify` throws: there is a number in the value that JSON cannot express. -/
def hasInfinite : Json → Bool
  | .num n => isInfinite n
  | .arr vs => hasInfiniteItems vs
  | .obj fs => hasInfiniteFields fs
  | _ => false

def hasInfiniteItems : List Json → Bool
  | [] => false
  | v :: vs => hasInfinite v || hasInfiniteItems vs

def hasInfiniteFields : List (JsString × Json) → Bool
  | [] => false
  | (_, v) :: fs => hasInfinite v || hasInfiniteFields fs

end

/-- Enough to act on without turning an incident into a data dump. -/
def conflictIdReportLimit : ℕ := 8

def reportConflict (ids : List Json) (id : Json) : List Json :=
  if ids.length < conflictIdReportLimit then ids ++ [id] else ids

/-- What the file holds: the canonical text of the first version of each id. -/
structure ExistingRecords where
  records : List (Json × JsString) := []
  conflicts : ℕ := 0
  conflictIds : List Json := []

def ExistingRecords.find (e : ExistingRecords) (id : Json) : Option JsString :=
  (e.records.find? (fun r => sameKey r.1 id)).map (·.2)

section
variable (E : Host) (idKey : String)

/-- A record to be published: a JSON object with an id at its key. -/
structure DerivedRecord where
  fields : List (JsString × Json)
  id : JsString
  id_eq : Json.lookup (js idKey) fields = some (.str id)
  wellFormed : (Json.obj fields).WellFormed E.float

structure AppendUniqueResult where
  appended : ℕ := 0
  skipped : ℕ := 0
  conflicted : ℕ := 0
  conflictedIds : List Json := []

/-- The variables of the loop over a batch. -/
structure BatchState where
  seenThisBatch : List (JsString × JsString) := []
  lines : List JsString := []
  skipped : ℕ := 0
  conflicted : ℕ
  conflictedIds : List Json

variable {E idKey}

def DerivedRecord.json (r : DerivedRecord E idKey) : Json := .obj r.fields

/-- The id is there with this canonical text: the record is skipped. -/
def BatchState.skip (st : BatchState) (id stored canonical : JsString) : BatchState :=
  if stored = canonical then { st with skipped := st.skipped + 1 }
  else { st with
    skipped := st.skipped + 1
    conflicted := st.conflicted + 1
    conflictedIds := reportConflict st.conflictedIds (.str id) }

/-- What an append does to the file: what the repair leaves of it, the bytes it then writes,
and what it reports. -/
structure Append where
  healed : Bytes
  written : Bytes := []
  result : Except Failure AppendUniqueResult

/-- The file after the append. -/
def Append.file (a : Append) : Bytes := a.healed ++ a.written

end

end Barbaro
