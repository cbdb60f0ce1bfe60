import RecordQuery.Records

/-!
# Groupings

A grouping is an ordered map from keys to parts: a part is a leaf of records, or a branch with
entries of its own. Keys stay in the order in which they were set first.

A grouping has a form in JSON, where leaves are arrays and branches are objects. Objects list their
fields by key, so a grouping that went through its JSON form comes back sorted.

## Main definitions

* `Grouping.get?`, `Grouping.set`, `Grouping.keys` — the ordered map
* `Grouping.toArray`, `Grouping.toRecords` — the entries as records of a key and its items
* `Grouping.toValue`, `Grouping.ofValue` — the JSON form, written and read
* `Grouping.descend?`, `Grouping.replaceAt` — the grouping below a path of keys, read and replaced
-/

namespace RecordQuery

/-- What a grouping holds under a key. -/
inductive Part
  /-- Records that share the key. -/
  | leaf (records : Records)
  /-- Records that share the key, grouped further. -/
  | branch (entries : List (String × Part))

/-- An ordered map from keys to parts. -/
structure Grouping where
  /-- The entries, in order. -/
  entries : Entries Part

namespace Grouping

/-! ### The ordered map -/

/-- The grouping without entries. -/
def empty : Grouping := ⟨[]⟩

instance : Inhabited Grouping := ⟨empty⟩

/-- A grouping as part of another one. -/
def toPart (grouping : Grouping) : Part := .branch grouping.entries

/-- The number of keys. -/
def size (grouping : Grouping) : Nat := grouping.entries.length

/-- Whether there are no keys. -/
def isEmpty (grouping : Grouping) : Bool := grouping.entries.isEmpty

/-- The keys, in order. -/
def keys (grouping : Grouping) : List String := Entries.keys grouping.entries

/-- The part under a key. -/
def get? (grouping : Grouping) (key : String) : Option Part := grouping.entries.lookup key

/-- Sets the part under a key. A key that is there keeps its place, a new one goes last. -/
def set (grouping : Grouping) (key : String) (part : Part) : Grouping :=
  ⟨Entries.put key part grouping.entries⟩

/-! ### The JSON form -/

mutual

/-- A part in JSON: an array of records, or an object of entries. -/
def partValue : Part → Value
  | .leaf records => records.toValue
  | .branch entries => .ofEntries (entryValues entries)

/-- Entries with their parts in JSON. -/
def entryValues : List (String × Part) → List (String × Value)
  | [] => []
  | (key, part) :: rest => (key, partValue part) :: entryValues rest

end

/-- The grouping as an object. -/
def toValue (grouping : Grouping) : Value := partValue grouping.toPart

mutual

/-- The part that an array or an object under a key describes. -/
def partOf (key : String) : Value → Except QueryError Part
  | .arr items => .ok (.leaf ⟨items⟩)
  | .obj fields => return .branch (← entriesOf fields)
  | other => .error (.badShape (.badEntry key other.kind))

/-- The entries that the fields of an object describe; the first bad one is the error. -/
def entriesOf : List (String × Value) → Except QueryError (List (String × Part))
  | [] => .ok []
  | (key, value) :: rest => do
    let part ← partOf key value
    return (key, part) :: (← entriesOf rest)

end

/-- The grouping that an object of arrays and such objects describes. -/
def ofValue : Value → Except QueryError Grouping
  | .obj fields => return ⟨← entriesOf fields⟩
  | other => .error (.badShape (.notAnObject other.kind))

/-! ### As records -/

/-- The keys as records. -/
def keyRecords (grouping : Grouping) : Records := ⟨grouping.keys.map .str⟩

/-- The parts in JSON, in order, as records. -/
def partRecords (grouping : Grouping) : Records :=
  ⟨Entries.values (entryValues grouping.entries)⟩

/-- The entries as objects of a key and its items. -/
def toArray (grouping : Grouping) : List Value :=
  (entryValues grouping.entries).map fun (key, items) =>
    .ofEntries [("key", .str key), ("items", items)]

/-- The entries, as objects of a key and its items, as records. -/
def toRecords (grouping : Grouping) : Records := ⟨grouping.toArray⟩

/-! ### Below a path of keys -/

/-- The grouping that a path of keys leads to. -/
def descend? (grouping : Grouping) : List String → Option Grouping
  | [] => some grouping
  | key :: rest =>
    match grouping.get? key with
    | some (.branch entries) => descend? ⟨entries⟩ rest
    | _ => none

/-- The grouping with another one in the place that a path of keys leads to. A path that leads to no
grouping changes nothing. -/
def replaceAt (grouping : Grouping) : List String → Grouping → Grouping
  | [], replacement => replacement
  | key :: rest, replacement =>
    match grouping.get? key with
    | some (.branch entries) => grouping.set key (replaceAt ⟨entries⟩ rest replacement).toPart
    | _ => grouping

@[simp] theorem descend?_nil (grouping : Grouping) : grouping.descend? [] = some grouping := rfl

@[simp] theorem replaceAt_nil (grouping replacement : Grouping) :
    grouping.replaceAt [] replacement = replacement := rfl

end Grouping

end RecordQuery
