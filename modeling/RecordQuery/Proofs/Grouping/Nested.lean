import RecordQuery.Proofs.Grouping.Frontier

/-!
# Grouping by recursion

What grouping by several columns means is best said by recursion on the columns: the first column
divides the records into classes, and each class is grouped by the remaining columns as if it stood
alone, positions counting from zero again. `Records.nest` is that recursion. It goes to the bottom
of one class before it looks at the next, while the loop finishes a level of the whole tree before
it starts the next level.

The two orders agree on what is built. They do not agree on which error comes first when several
columns fail, so the comparison is about success: `Except.toOption` forgets the error.

## Two orders of failure

Suppose that of two classes the first fails at the third column and the second at the second column.
The recursion goes to the bottom of the first class and reports what fails there. The loop finishes
the second column in all classes before it turns to the third, and reports the failure in the second
class. So the two may return different errors for the same records, and an equation between the
outcomes would be false. Whether there is a failure at all is the same for both, and so is the tree
if there is none.

## The way between them

The loop and the recursion are compared in two steps, with the refinement of trees between them.

* The loop refines the whole tree by one column after the other. This holds with failures, as an
  equation (`Records.groupOr_eq`), and from there on frontiers do not occur.
* Refining level by level is nesting, where either of them succeeds
  (`Records.foldlM_refine_eq_ok_iff`). Over any number of columns, the entries of a branch are
  refined independently of one another, and this is where the order of columns and classes is
  exchanged (`Part.foldlM_refineEntries_eq_ok_iff`).

## Implementation notes

Success is described by `List.Forall₂`: the entries of the outcome stand beside those of the input,
with the same keys. It does not say in which order they were worked off, and that is all that the
exchange needs.

## Main results

* `Records.groupOr_eq` — the loop refines the first split, column after column
* `Records.foldlM_refine_eq_ok_iff` — refining level by level is nesting, where either succeeds
* `Records.group_eq_ok_iff` — the loop succeeds with a grouping exactly if nesting does
-/

namespace RecordQuery

namespace Part

theorem foldlM_refine_branch (columns : List Column) (entries : List (String × Part)) :
    columns.foldlM (fun part c => refine c part) (.branch entries) = do
      return .branch (← columns.foldlM (fun entries c => refineEntries c entries) entries) := by
  induction columns generalizing entries with
  | nil => rfl
  | cons c columns ih =>
    rw [List.foldlM_cons, List.foldlM_cons, refine, bind_assoc, bind_assoc]
    simp only [pure_bind, ih]

/-- Over any number of columns, entries are refined one by one and keep their keys. -/
theorem foldlM_refineEntries_eq_ok_iff {columns : List Column}
    {entries refined : List (String × Part)} :
    columns.foldlM (fun entries c => refineEntries c entries) entries = .ok refined
      ↔ List.Forall₂ (fun old new => new.1 = old.1
          ∧ columns.foldlM (fun part c => refine c part) old.2 = .ok new.2) entries refined := by
  induction columns generalizing entries with
  | nil =>
    simp only [List.foldlM_nil, pure_eq_ok_iff]
    have heq : (fun old new : String × Part => new.1 = old.1 ∧ old.2 = new.2) = Eq := by
      funext old new
      rw [eq_comm (a := new.1), ← Prod.ext_iff]
    rw [heq, List.forall₂_eq_eq_eq]
  | cons c columns ih =>
    simp only [List.foldlM_cons, bind_eq_ok_iff, ih, refineEntries_eq_ok_iff, forall₂_comp_iff]
    refine iff_of_eq (congrArg (List.Forall₂ · entries refined) ?_)
    funext old new
    refine propext ⟨?_, ?_⟩
    · rintro ⟨⟨_, middle⟩, ⟨rfl, hmiddle⟩, hkey, hnew⟩
      exact ⟨hkey, middle, hmiddle, hnew⟩
    · rintro ⟨hkey, middle, hmiddle, hnew⟩
      exact ⟨(old.1, middle), ⟨rfl, hmiddle⟩, hkey, hnew⟩

theorem foldlM_refine_branch_eq_ok_iff {columns : List Column} {entries : List (String × Part)}
    {part : Part} :
    columns.foldlM (fun part c => refine c part) (.branch entries) = .ok part
      ↔ ∃ refined, List.Forall₂ (fun old new => new.1 = old.1
          ∧ columns.foldlM (fun part c => refine c part) old.2 = .ok new.2) entries refined
        ∧ .branch refined = part := by
  simp only [foldlM_refine_branch, bind_eq_ok_iff, pure_eq_ok_iff, foldlM_refineEntries_eq_ok_iff]

end Part

namespace Records

/-! ### The recursion -/

/-- The records grouped by recursion: each class of the first column is grouped by the others.
Without columns the records are a leaf. -/
def nest : List Column → Records → Except QueryError Part
  | [], records => .ok (.leaf records)
  | c :: rest, records => do
    let classes ← records.classes c
    let entries ← classes.mapM fun (key, members) => return (key, ← nest rest members)
    return .branch entries

theorem nest_cons_eq_ok_iff {records : Records} {c : Column} {rest : List Column} {part : Part} :
    records.nest (c :: rest) = .ok part
      ↔ ∃ classes, records.classes c = .ok classes ∧
        ∃ entries, List.Forall₂ (fun old new => new.1 = old.1 ∧ nest rest old.2 = .ok new.2)
            classes entries ∧ .branch entries = part := by
  have hstep : ∀ (old : String × Records) (new : String × Part),
      (do return (old.1, ← nest rest old.2) : Except QueryError (String × Part)) = .ok new
        ↔ new.1 = old.1 ∧ nest rest old.2 = .ok new.2 := by
    intro old new
    simp only [bind_eq_ok_iff, pure_eq_ok_iff]
    constructor
    · rintro ⟨part, hpart, rfl⟩
      exact ⟨rfl, hpart⟩
    · rintro ⟨hkey, hpart⟩
      exact ⟨new.2, hpart, Prod.ext hkey.symm rfl⟩
  simp only [nest, bind_eq_ok_iff, pure_eq_ok_iff, mapM_eq_ok_iff, hstep]

/-- **Refining level by level is nesting**, where either succeeds. The induction is on the columns:
after the first one both go on inside the classes, one by one. -/
theorem foldlM_refine_eq_ok_iff {columns : List Column} {records : Records} {part : Part} :
    columns.foldlM (fun part c => Part.refine c part) (.leaf records) = .ok part
      ↔ records.nest columns = .ok part := by
  induction columns generalizing records part with
  | nil => exact Iff.rfl
  | cons c columns ih =>
    have hfirst : Part.refine c (.leaf records) = do
        let classes ← records.classes c
        return .branch (classes.map fun (key, members) => (key, .leaf members)) := by
      rw [Part.refine, split_eq, bind_assoc]
      rfl
    rw [List.foldlM_cons, hfirst, nest_cons_eq_ok_iff]
    simp only [bind_eq_ok_iff, pure_eq_ok_iff]
    constructor
    · rintro ⟨_, ⟨classes, hclasses, rfl⟩, hpart⟩
      obtain ⟨entries, hentries, rfl⟩ := Part.foldlM_refine_branch_eq_ok_iff.mp hpart
      rw [List.forall₂_map_left_iff] at hentries
      exact ⟨classes, hclasses, entries, hentries.imp fun _ _ h => ⟨h.1, ih.mp h.2⟩, rfl⟩
    · rintro ⟨classes, hclasses, entries, hentries, rfl⟩
      refine ⟨_, ⟨classes, hclasses, rfl⟩, ?_⟩
      rw [Part.foldlM_refine_branch_eq_ok_iff]
      refine ⟨entries, ?_, rfl⟩
      rw [List.forall₂_map_left_iff]
      exact hentries.imp fun _ _ h => ⟨h.1, ih.mpr h.2⟩

/-! ### The loop -/

/-- `Records.group` with a choice of what to do about paths and keys without a target. -/
def groupOr (skip : Option QueryError) (records : Records) :
    List Column → Except QueryError Grouping
  | [] => .ok .empty
  | first :: rest => do
    let root ← records.split first
    let (root, _) ← rest.foldlM (fun (root, frontier) c => Grouping.deepenOr skip c root frontier)
      (root, [[]])
    return root

theorem groupOr_none (records : Records) (columns : List Column) :
    records.groupOr none columns = records.group columns := by
  cases columns with
  | nil => rfl
  | cons first rest => simp only [groupOr, group, Grouping.deepenOr_none]

/-- All rounds together refine the entries of a layered tree, column after column. -/
theorem foldlM_deepenOr (skip : Option QueryError) {depth : Nat} {entries : Entries Part}
    (h : (Part.branch entries).Layered (depth + 1)) (columns : List Column) :
    columns.foldlM (fun (root, frontier) c => Grouping.deepenOr skip c root frontier)
        (⟨entries⟩, (Part.branch entries).frontier depth)
      = do
        let refined ← columns.foldlM (fun entries c => Part.refineEntries c entries) entries
        return (⟨refined⟩, (Part.branch refined).frontier (depth + columns.length)) := by
  induction columns generalizing depth entries with
  | nil => rfl
  | cons c columns ih =>
    simp only [List.foldlM_cons, Grouping.deepenOr_frontier skip c h]
    cases hrefine : Part.refineEntries c entries with
    | error e => rfl
    | ok refined =>
      have hlayered : (Part.branch refined).Layered (depth + 2) :=
        Part.layered_refine h (by rw [Part.refine, hrefine]; rfl)
      have hdepth : depth + (c :: columns).length = depth + 1 + columns.length := by
        rw [List.length_cons]
        omega
      rw [hdepth]
      exact ih hlayered

/-- **The loop refines the first split, column after column**, whatever it is to do about paths and
keys without a target. -/
theorem groupOr_eq (skip : Option QueryError) (records : Records) (first : Column)
    (rest : List Column) :
    records.groupOr skip (first :: rest) = do
      let root ← records.split first
      return ⟨← rest.foldlM (fun entries c => Part.refineEntries c entries) root.entries⟩ := by
  rw [groupOr]
  cases hsplit : records.split first with
  | error e => rfl
  | ok root =>
    have hrun := foldlM_deepenOr skip (Part.layered_split hsplit) rest
    rw [Part.frontier] at hrun
    exact (congrArg (· >>= fun outcome => pure outcome.1) hrun).trans (bind_assoc ..)

/-- **The loop succeeds with a grouping exactly if nesting does.** -/
theorem group_eq_ok_iff {records : Records} {first : Column} {rest : List Column}
    {grouping : Grouping} :
    records.group (first :: rest) = .ok grouping
      ↔ records.nest (first :: rest) = .ok grouping.toPart := by
  have hfirst : Part.refine first (.leaf records) = do
      return .branch (← records.split first).entries := by
    rw [Part.refine]
    rfl
  rw [← groupOr_none, groupOr_eq, ← foldlM_refine_eq_ok_iff, List.foldlM_cons, hfirst]
  simp only [bind_eq_ok_iff, pure_eq_ok_iff]
  constructor
  · rintro ⟨root, hroot, entries, hentries, rfl⟩
    refine ⟨_, ⟨root, hroot, rfl⟩, ?_⟩
    rw [Part.foldlM_refine_branch, hentries]
    rfl
  · rintro ⟨_, ⟨root, hroot, rfl⟩, hgrouping⟩
    simp only [Part.foldlM_refine_branch, bind_eq_ok_iff, pure_eq_ok_iff] at hgrouping
    obtain ⟨entries, hentries, hpart⟩ := hgrouping
    exact ⟨root, hroot, entries, hentries, congrArg Grouping.mk (Part.branch.inj hpart)⟩

/-- **Level by level is class by class.** The loop over a frontier succeeds exactly if the recursion
does, and builds the same tree. On the way it passes nothing over: it does the same whether it is to
pass over or to raise an alarm. -/
theorem group_eq_nest (records : Records) (first : Column) (rest : List Column) :
    (records.group (first :: rest)).toOption.map Grouping.toPart
        = (records.nest (first :: rest)).toOption
      ∧ ∀ skip, records.groupOr skip (first :: rest) = records.group (first :: rest) := by
  constructor
  · cases hnest : records.nest (first :: rest) with
    | error e =>
      cases hgroup : records.group (first :: rest) with
      | error e' => rfl
      | ok grouping =>
        rw [group_eq_ok_iff, hnest] at hgroup
        cases hgroup
    | ok part =>
      obtain ⟨_, _, entries, _, rfl⟩ := nest_cons_eq_ok_iff.mp hnest
      have hgroup : records.group (first :: rest) = .ok ⟨entries⟩ := group_eq_ok_iff.mpr hnest
      rw [hgroup]
      rfl
  · intro skip
    rw [groupOr_eq, ← groupOr_none, groupOr_eq]

end Records

end RecordQuery
