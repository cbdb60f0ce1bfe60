import RecordQuery.Grouping

/-!
# Grouping records, level by level

Records are grouped by the key texts of columns, one level per column. The first column splits the
records into leaves. Every further one splits each leaf of the level before, positions counting from
zero within the leaf.

The levels are built one after the other. A *frontier* lists the paths of the groupings that hold
the current leaves: at first only the root's. Splitting the leaves of a grouping turns each into a
grouping, whose path joins the next frontier. A column that cannot be read stops everything, so of
several failures the one on the shallowest level is the outcome.

## Main definitions

* `Records.split` — one level: the leaves by the key texts of a column
* `Grouping.splitLeaves`, `Grouping.deepen` — a further level of one grouping, and of a frontier
* `Records.group` — all levels
-/

namespace RecordQuery

namespace Records

/-- The elements filed under the key texts of a column, in the order in which the keys are first
seen. -/
def split (records : Records) (c : Column) : Except QueryError Grouping := do
  let leaves ← records.indexed.foldlM (fun leaves (value, position) => do
    return Entries.file (← c.read value position).keyText value leaves) ([] : Entries (List Value))
  return ⟨leaves.map fun (key, values) => (key, .leaf ⟨values⟩)⟩

end Records

namespace Grouping

/-- Splits each of the leaves under the given keys, and returns the grouping with the keys of the
leaves that were split. -/
def splitLeaves (c : Column) (grouping : Grouping) :
    List String → Except QueryError (Grouping × List String)
  | [] => .ok (grouping, [])
  | key :: rest =>
    match grouping.get? key with
    | some (.leaf records) => do
      let inner ← records.split c
      let (grouping, done) ← splitLeaves c (grouping.set key inner.toPart) rest
      return (grouping, key :: done)
    | _ => splitLeaves c grouping rest

/-- Splits the leaves of all groupings on the frontier, and returns the root with the next frontier:
the paths of the groupings that leaves were turned into. -/
def deepen (c : Column) (root : Grouping) :
    List (List String) → Except QueryError (Grouping × List (List String))
  | [] => .ok (root, [])
  | path :: frontier =>
    match root.descend? path with
    | none => deepen c root frontier
    | some grouping => do
      let (grouping, done) ← splitLeaves c grouping grouping.keys
      let (root, next) ← deepen c (root.replaceAt path grouping) frontier
      return (root, done.map (path ++ [·]) ++ next)

end Grouping

namespace Records

/-- The records grouped by one column per level. Without columns the grouping is empty. -/
def group (records : Records) : List Column → Except QueryError Grouping
  | [] => .ok .empty
  | first :: rest => do
    let root ← records.split first
    let (root, _) ← rest.foldlM (fun (root, frontier) c => Grouping.deepen c root frontier)
      (root, [[]])
    return root

end Records

end RecordQuery
