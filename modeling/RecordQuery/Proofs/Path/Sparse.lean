import RecordQuery.Proofs.Path.Walk

/-!
# Missing fields and null fields

An element may lack a field, or have it with `null` in it. A path that comes to the place finds
nothing in the one case and stops at `null` in the other, and a column reads both as `null`. To say
so, the same value is taken with the field and without: `Step.alterAll` changes the node that steps
lead to, and leaves the rest of the value as it is.

## Where the two come apart

The check for `null` stands between steps. A step with a position in brackets takes two nodes, the
field and an item of it, and there is no check between these. So `a.0` reads as `null` in
`{"a": null}` and in `{}`, and `a[0]` does so in `{}` only: in `{"a": null}` it is the error of
asking a position of something that is no array.

## Comparing two values

The two cases concern two values that differ in one place, possibly deep inside. A statement about
both needs a way to make one from the other. Changing a node along steps is that way: what is in
front of the place is as it was, so the steps lead to the changed node (`Step.takeAll_alterAll`),
and the path goes on from there. No part of the statement depends on what else is in the value.

The step at which the field is missing is any step of the path, with any steps before and behind it.
What is behind it does not matter. If the field is missing, the walk has ended there; if it is
`null`, the check in front of the next step ends it.

## Implementation notes

`Value.setField` places a field in the order of the keys, as an object from outside has it. That the
field can be found afterwards is all that is used of it.

An array is changed at a position only if a step names one, and steps that lead nowhere change
nothing. So the functions are total, and whether there is a node is a hypothesis of the lemmas.

## Main definitions

* `Value.alterField`, `Value.alterItem`, `Step.alter`, `Step.alterAll` — a value with one of its
  nodes changed

## Main results

* `Step.takeAll_append` — steps go on from where the steps before them have led
* `Step.takeAll_alterAll` — steps lead to the node that is changed along them
* `Step.takeAll_null_field` — what follows `null` in a field
* `Column.read_null_field` — a column with a field missing, and with `null` in the field
* `Column.null_field_not_missing` — the two are not the same to every column
-/

namespace RecordQuery

/-! ### Changing a node -/

namespace Value

/-- The value with the node changed that a plain step leads to. Without such a node nothing
changes. -/
def alterField (change : Value → Value) (name : String) : Value → Value
  | .obj fields =>
    match fields.lookup name with
    | some node => .obj (Entries.place name (change node) fields)
    | none => .obj fields
  | .arr items =>
    match Text.position? name.toList with
    | some position => .arr (items.modify position change)
    | none => .arr items
  | other => other

/-- The value with the item at a position changed, if it is an array. -/
def alterItem (change : Value → Value) (position : Nat) : Value → Value
  | .arr items => .arr (items.modify position change)
  | other => other

/-- The value with a field set, if it is an object. -/
def setField (name : String) (node : Value) : Value → Value
  | .obj fields => .obj (Entries.place name node fields)
  | other => other

variable {change : Value → Value} {name : String} {value node : Value}

theorem itemAt?_modify {items : List Value} {position : Nat}
    (h : itemAt? items position = some node) :
    itemAt? (items.modify position change) position = some (change node) := by
  rw [itemAt?] at h ⊢
  split at h
  · next hbound => rw [if_pos hbound, List.getElem?_modify, h]; simp
  · cases h

theorem field?_alterField (h : value.field? name = some node) :
    (value.alterField change name).field? name = some (change node) := by
  match value with
  | .obj fields =>
    have hlookup : fields.lookup name = some node := h
    rw [alterField, hlookup]
    show (Entries.place name (change node) fields).lookup name = _
    rw [Entries.lookup_place, if_pos rfl]
  | .arr items =>
    rw [field?] at h
    obtain ⟨position, hposition, hitem⟩ := Option.bind_eq_some_iff.mp h
    rw [alterField, hposition]
    show (Text.position? name.toList).bind (itemAt? (items.modify position change)) = _
    rw [hposition, Option.bind_some, itemAt?_modify hitem]

theorem isNull_alterField (change : Value → Value) (name : String) (value : Value) :
    (value.alterField change name).isNull = value.isNull := by
  match value with
  | .obj fields => rw [alterField]; split <;> rfl
  | .arr items => rw [alterField]; split <;> rfl
  | .null | .bool _ | .num _ | .str _ => rfl

end Value

namespace Step

/-- The value with the node changed that a step leads to. -/
def alter (change : Value → Value) (step : Step) (value : Value) : Value :=
  match step.index with
  | none => value.alterField change step.name
  | some position => value.alterField (Value.alterItem change position) step.name

/-- The value with the node changed that several steps lead to, one after the other. -/
def alterAll (change : Value → Value) : List Step → Value → Value
  | [] => change
  | step :: rest => step.alter (alterAll change rest)

variable {change : Value → Value} {step : Step} {value node : Value}

theorem isNull_alter (change : Value → Value) (step : Step) (value : Value) :
    (step.alter change value).isNull = value.isNull := by
  rw [alter]
  split <;> exact Value.isNull_alterField _ _ _

theorem take_alter (h : step.take value = .ok (some node)) :
    step.take (step.alter change value) = .ok (some (change node)) := by
  obtain ⟨text, name, _ | position⟩ := step
  · have hfield : value.field? name = some node := Except.ok.inj h
    exact congrArg Except.ok (Value.field?_alterField hfield)
  · simp only [take] at h
    split at h
    · next heq => cases heq
    · cases h
    · next heq hfield =>
      obtain rfl := Option.some.inj heq
      simp [take, alter, Value.field?_alterField hfield, Value.alterItem,
        Value.itemAt?_modify (Except.ok.inj h)]
    · cases h

theorem takeAll_cons_eq_ok {rest : List Step} (h : takeAll (step :: rest) value = .ok (some node)) :
    value.isNull = false
      ∧ ∃ next, step.take value = .ok (some next) ∧ takeAll rest next = .ok (some node) := by
  rw [takeAll] at h
  split at h
  · cases h
  · next hnull =>
    obtain ⟨_ | next, hnext, h⟩ := bind_eq_ok_iff.mp h
    · cases h
    · exact ⟨Bool.eq_false_iff.mpr hnull, next, hnext, h⟩

theorem take_of_field?_none (h : value.field? step.name = none) : step.take value = .ok none := by
  rw [take, h]
  cases step.index <;> rfl

theorem takeAll_cons_of_take_none {rest : List Step} (hnull : value.isNull = false)
    (h : step.take value = .ok none) : takeAll (step :: rest) value = .ok none := by
  rw [takeAll, hnull, h]
  rfl

theorem takeAll_cons_of_take {rest : List Step} (hnull : value.isNull = false)
    (h : step.take value = .ok (some node)) :
    takeAll (step :: rest) value = takeAll rest node := by
  rw [takeAll, hnull, h]
  rfl

/-- **Steps go on from where the steps before them have led.** -/
theorem takeAll_append {before rest : List Step} (h : takeAll before value = .ok (some node)) :
    takeAll (before ++ rest) value = takeAll rest node := by
  induction before generalizing value with
  | nil =>
    obtain rfl : value = node := by simpa [takeAll] using h
    rfl
  | cons step before ih =>
    obtain ⟨hnull, next, hnext, h⟩ := takeAll_cons_eq_ok h
    rw [List.cons_append, takeAll_cons_of_take hnull hnext, ih h]

/-- **Steps lead to the node that is changed along them.** -/
theorem takeAll_alterAll {steps : List Step} (h : takeAll steps value = .ok (some node)) :
    takeAll steps (alterAll change steps value) = .ok (some (change node)) := by
  induction steps generalizing value with
  | nil =>
    obtain rfl : value = node := by simpa [takeAll] using h
    rfl
  | cons step rest ih =>
    obtain ⟨hnull, next, hnext, h⟩ := takeAll_cons_eq_ok h
    rw [alterAll, takeAll_cons_of_take (by rwa [isNull_alter]) (take_alter hnext), ih h]

theorem takeAll_null (rest : List Step) :
    (takeAll rest .null).map (·.getD .null) = .ok .null := by
  cases rest <;> rfl

/-- **From `null` in a field on**, everything reads as `null`, but a position in brackets is asked
of the `null` before the check for it. -/
theorem takeAll_null_field (hnull : value.isNull = false)
    (h : value.field? step.name = some .null) (rest : List Step) :
    (takeAll (step :: rest) value).map (·.getD .null) = match step.index with
      | none => .ok .null
      | some _ => .error (.notIndexable step.text .null) := by
  obtain ⟨text, name, _ | position⟩ := step
  · have htake : take ⟨text, name, none⟩ value = .ok (some .null) := congrArg Except.ok h
    rw [takeAll_cons_of_take hnull htake]
    exact takeAll_null rest
  · have htake : take ⟨text, name, some position⟩ value
        = .error (.notIndexable text .null) := by
      rw [take, h]
      rfl
    rw [takeAll, hnull, htake]
    rfl

end Step

/-! ### Reading a sparse value -/

namespace Column

theorem read_dotted {key : String} (hkey : key ≠ ".") {steps : List Step}
    (hsteps : DotPath.steps ⟨key⟩ = .ok steps) (value : Value) (position : Nat) :
    (dotted key).read value position = (Step.takeAll steps value).map (·.getD .null) := by
  have hidentity : DotPath.isIdentity ⟨key⟩ = false := by simpa [DotPath.isIdentity] using hkey
  have hresolve : DotPath.resolve ⟨key⟩ value = Step.takeAll steps value := by
    rw [DotPath.resolve, hidentity, hsteps]
    rfl
  rw [dotted, read, hresolve]
  cases Step.takeAll steps value <;> rfl

/-- **A missing field reads as `null`, and so does `null` in the field, unless the path asks a
position of it in brackets.** -/
theorem read_null_field {key : String} (hkey : key ≠ ".") {before after : List Step} {step : Step}
    (hsteps : DotPath.steps ⟨key⟩ = .ok (before ++ step :: after)) {value : Value}
    {fields : List (String × Value)}
    (hobject : Step.takeAll before value = .ok (some (.obj fields)))
    (hmissing : fields.lookup step.name = none) (position : Nat) :
    let present := Step.alterAll (Value.setField step.name .null) before value
    (dotted key).read value position = .ok .null
      ∧ Step.takeAll before present = .ok (some (.obj (Entries.place step.name .null fields)))
      ∧ (dotted key).read present position = match step.index with
        | none => .ok .null
        | some _ => .error (.notIndexable step.text .null) := by
  intro present
  have hpresent : Step.takeAll before present
      = .ok (some (.obj (Entries.place step.name .null fields))) := Step.takeAll_alterAll hobject
  have hnull : (Value.obj fields).isNull = false := rfl
  refine ⟨?_, hpresent, ?_⟩
  · have hfield : (Value.obj fields).field? step.name = none := hmissing
    rw [read_dotted hkey hsteps, Step.takeAll_append hobject,
      Step.takeAll_cons_of_take_none hnull (Step.take_of_field?_none hfield)]
    rfl
  · have hfield : (Value.obj (Entries.place step.name .null fields)).field? step.name
        = some .null := by
      rw [Value.field?, Entries.lookup_place, if_pos rfl]
    rw [read_dotted hkey hsteps, Step.takeAll_append hpresent]
    exact Step.takeAll_null_field rfl hfield after

/-- In `{"a": {}}`, the field `b` may be missing or `null` for `a.b.c`, but not for `a.b[0]`. -/
theorem read_null_field_bracket :
    let missing : Value := .obj [("a", .obj [])]
    let present : Value := .obj [("a", .obj [("b", .null)])]
    (dotted "a.b.c").read missing 0 = .ok .null ∧ (dotted "a.b.c").read present 0 = .ok .null
    ∧ (dotted "a.b[0]").read missing 0 = .ok .null
    ∧ (dotted "a.b[0]").read present 0 = .error (.notIndexable "b[0]" .null) := by
  intro missing present
  have hobject : Step.takeAll [⟨"a", "a", none⟩] missing = .ok (some (.obj [])) := rfl
  have hpath : DotPath.steps ⟨"a.b.c"⟩
      = .ok ([⟨"a", "a", none⟩] ++ ⟨"b", "b", none⟩ :: [⟨"c", "c", none⟩]) := by decide
  have hbracket : DotPath.steps ⟨"a.b[0]"⟩
      = .ok ([⟨"a", "a", none⟩] ++ ⟨"b[0]", "b", some 0⟩ :: []) := by decide
  obtain ⟨hmissing, -, hpresent⟩ := read_null_field (by decide) hpath hobject rfl 0
  obtain ⟨hmissing', -, hpresent'⟩ := read_null_field (by decide) hbracket hobject rfl 0
  exact ⟨hmissing, hpresent, hmissing', hpresent'⟩

/-- A missing field and `null` in the field are not the same to every column. -/
theorem null_field_not_missing :
    ¬ ∀ (key : String) (before after : List Step) (step : Step) (value : Value)
      (fields : List (String × Value)) (position : Nat), key ≠ "." →
      DotPath.steps ⟨key⟩ = .ok (before ++ step :: after) →
      Step.takeAll before value = .ok (some (.obj fields)) → fields.lookup step.name = none →
      (dotted key).read (Step.alterAll (Value.setField step.name .null) before value) position
        = .ok .null := by
  intro h
  have hread := h "a[0]" [] [] ⟨"a[0]", "a", some 0⟩ (.obj []) [] 0 (by decide) (by decide) rfl rfl
  cases hread

end Column

end RecordQuery
