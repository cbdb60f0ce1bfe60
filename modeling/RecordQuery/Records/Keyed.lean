import RecordQuery.Records

/-!
# Records by key

Elements are identified by the key text of a column. The first element with a key represents it: it
is the one that stays when duplicates go, the one that a map holds, and the one that an intersection
returns.

Every operation comes in two forms: by a column, which may fail, and by the elements themselves.
-/

namespace RecordQuery

namespace Records

/-- The key texts of the elements. -/
def keys (records : Records) : List String := records.toList.map Value.keyText

/-- The key texts of a column. -/
def keysOn (records : Records) (c : Column) : Except QueryError (List String) :=
  return (← records.column c).map Value.keyText

/-- The first element with each of the given keys, one per element, in the order of the elements. -/
def representatives (records : Records) (keys : List String) : Entries Value :=
  (keys.zip records.toList).foldl (fun entries (key, value) => entries.putNew key value) []

/-- The map from key texts to the first element with that text. -/
def toEntries (records : Records) : Entries Value := records.representatives records.keys

/-- The map from key texts of a column to the first element with that text. -/
def toEntriesOn (records : Records) (c : Column) : Except QueryError (Entries Value) :=
  return records.representatives (← records.keysOn c)

/-- The first element with each key text. -/
def dedup (records : Records) : Records := ⟨records.toEntries.values⟩

/-- The first element with each key text of a column. -/
def dedupOn (records : Records) (c : Column) : Except QueryError Records :=
  return ⟨(← records.toEntriesOn c).values⟩

/-- The entries whose keys are among the given ones. -/
def restrict (entries : Entries Value) (keys : List String) : Entries Value :=
  entries.filter fun (key, _) => keys.contains key

/-- The elements, without duplicates, whose key text occurs in all the others. -/
def common (records : Records) (others : List Records) : Records :=
  ⟨(others.foldl (fun entries other => restrict entries other.keys) records.toEntries).values⟩

/-- The elements, without duplicates, whose key text of a column occurs in all the others. -/
def commonOn (records : Records) (c : Column) (others : List Records) :
    Except QueryError Records := do
  let own ← records.toEntriesOn c
  let shared ← others.foldlM (fun entries other => return restrict entries (← other.keysOn c)) own
  return ⟨shared.values⟩

/-- The intersection of several records by a column. The first ones decide which element stands for
a key, and the order; without any, the intersection is empty. -/
def inter (c : Column) : List Records → Except QueryError Records
  | [] => .ok ⟨[]⟩
  | first :: others => first.commonOn c others

end Records

end RecordQuery
