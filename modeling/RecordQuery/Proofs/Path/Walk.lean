import RecordQuery.Proofs.Reading

/-!
# Walking a path segment by segment

A dotted path is resolved in two passes: all its steps are read, and only then the first one is
taken. The other way to follow it is a walk, which looks its segments up one after the other, each
by itself, and reads a segment only when it gets there. The two agree as long as every segment can
be read. What decides is that reading never looks at the value: a segment is malformed for all
values or for none.

A walk has three ways to end. It goes through all segments, or it ends early with nothing, or it
fails where a position is asked of something that is no array. A malformed segment is a fourth
outcome, and it takes precedence over all that happens before it in a walk.

## Why there are two descriptions

The resolution of a path never reads a step on the way. What it does is decided by the text first
and by the value second, so a malformed segment at the end is reported even if the value ends after
the first step. A walk is how one would explain a path, since it stands at a node at each moment and
asks for the next. It would be wrong as a specification only in that it may end before it sees that
the path is malformed. `Value.deep?_refines_walk` states both halves and where the line between them
is.

The two also treat `null` differently. Taking steps checks for it before each step, while a look-up
of a single segment does not have to: it finds nothing there, as long as the segment can be read. So
the end of a walk at `null` is described apart from the end at a look-up that finds nothing.

## Implementation notes

`Malformed` is defined by what a look-up does on some value, and not by how segments are parsed.
That some value is enough, and that the error names the segment itself, is `malformed_iff`. The
grammar of segments is described in `RecordQuery.Proofs.Path.Syntax`.

A walk is a fold in `Except` whose state is the node that has been reached, or nothing. Where it
ends is told by the segments in front, along which it has got somewhere.

## Main definitions

* `DotPath.segments` — the pieces between the dots
* `Malformed` — a segment that no look-up can read
* `Value.walk` — look-ups of single segments from left to right

## Main results

* `malformed_iff` — a malformed segment fails on every value, and names itself
* `Value.walk_eq_none_iff`, `Value.walk_eq_error_iff` — where a walk ends early
* `Value.deep?_refines_walk` — resolving a path is walking it
-/

namespace RecordQuery

/-! ### Segments -/

namespace Text

/-- No piece contains the separator. -/
theorem notMem_of_mem_split {separator : Char} {text piece : List Char}
    (h : piece ∈ split separator text) : separator ∉ piece := by
  induction text generalizing piece with
  | nil =>
    rw [split_nil, List.mem_singleton] at h
    rw [h]
    exact List.not_mem_nil
  | cons c rest ih =>
    by_cases hc : c = separator
    · subst hc
      rw [split_separator, List.mem_cons] at h
      rcases h with rfl | h
      · exact List.not_mem_nil
      · exact ih h
    · obtain ⟨first, pieces, hrest, hcons⟩ := split_cons_of_ne hc rest
      rw [hrest] at ih
      rw [hcons, List.mem_cons] at h
      rcases h with rfl | h
      · rw [List.mem_cons, not_or]
        exact ⟨Ne.symm hc, ih List.mem_cons_self⟩
      · exact ih (List.mem_cons_of_mem _ h)

theorem join_eq_intercalate (separator : Char) (pieces : List (List Char)) :
    join separator pieces = [separator].intercalate pieces := by
  induction pieces with
  | nil => rfl
  | cons piece pieces ih =>
    cases pieces with
    | nil => simp [join]
    | cons next pieces => rw [join, ih]; simp

end Text

/-- The segments of a dotted path: the pieces between its dots. -/
def DotPath.segments (path : DotPath) : List String :=
  (Text.split '.' path.text.toList).map String.ofList

namespace DotPath

theorem dot_notMem_segment {path : DotPath} {segment : String} (h : segment ∈ path.segments) :
    '.' ∉ segment.toList := by
  obtain ⟨piece, hpiece, rfl⟩ := List.mem_map.mp h
  rw [String.toList_ofList]
  exact Text.notMem_of_mem_split hpiece

theorem intercalate_segments (path : DotPath) : ".".intercalate path.segments = path.text := by
  have hpieces : path.segments.map String.toList = Text.split '.' path.text.toList := by
    rw [segments, List.map_map]
    exact List.map_congr_left (fun _ _ => String.toList_ofList) |>.trans (List.map_id _)
  apply String.toList_injective
  rw [String.toList_intercalate, hpieces]
  exact (Text.join_eq_intercalate _ _).symm.trans (Text.join_split _ _)

theorem steps_eq (path : DotPath) : path.steps = path.segments.mapM Step.parse := by
  rw [segments, List.mapM_map]
  rfl

end DotPath

/-! ### Reading and taking a step -/

namespace Step

theorem text_of_parse {text : String} {step : Step} (h : parse text = .ok step) :
    step.text = text := by
  simp only [parse] at h
  split at h
  · cases h; rfl
  · split at h
    · cases h; rfl
    · cases h
  · cases h

/-- The only failure of reading is a malformed step, and it names the text. -/
theorem parse_eq_error {text : String} {e : QueryError} (h : parse text = .error e) :
    e = .malformed text := by
  simp only [parse] at h
  split at h
  · cases h
  · split at h
    · cases h
    · cases h; rfl
  · cases h; rfl

theorem take_eq_error {step : Step} {value : Value} {e : QueryError}
    (h : step.take value = .error e) : ∃ found, e = .notIndexable step.text found := by
  simp only [take] at h
  split at h
  · cases h
  · cases h
  · cases h
  · cases h
    exact ⟨_, rfl⟩

end Step

/-- A segment is malformed if it cannot be looked up because of how it is written. -/
def Malformed (segment : String) : Prop :=
  ∃ value named, Value.shallow? value segment = .error (.malformed named)

namespace Value

theorem shallow?_of_parse {segment : String} {step : Step} (h : Step.parse segment = .ok step)
    (value : Value) : value.shallow? segment = step.take value := by
  rw [shallow?, h]
  rfl

theorem shallow?_of_parse_error {segment : String} {e : QueryError}
    (h : Step.parse segment = .error e) (value : Value) : value.shallow? segment = .error e := by
  rw [shallow?, h]
  rfl

end Value

/-- **A segment is malformed for all values or for none**, since reading does not look at them. -/
theorem malformed_iff {segment : String} :
    Malformed segment ↔ Step.parse segment = .error (.malformed segment) := by
  constructor
  · rintro ⟨value, named, h⟩
    cases hparse : Step.parse segment with
    | error e => rw [Step.parse_eq_error hparse]
    | ok step =>
      rw [Value.shallow?_of_parse hparse] at h
      obtain ⟨found, hfound⟩ := Step.take_eq_error h
      cases hfound
  · intro h
    exact ⟨.null, segment, Value.shallow?_of_parse_error h _⟩

theorem exists_parse_of_not_malformed {segment : String} (h : ¬Malformed segment) :
    ∃ step, Step.parse segment = .ok step := by
  cases hparse : Step.parse segment with
  | ok step => exact ⟨step, rfl⟩
  | error e =>
    rw [Step.parse_eq_error hparse] at hparse
    exact absurd (malformed_iff.mpr hparse) h

/-- A segment that can be read fails only on something that is no array, and names itself. -/
theorem Value.shallow?_eq_error {segment : String} (h : ¬Malformed segment) {value : Value}
    {e : QueryError} (he : value.shallow? segment = .error e) :
    ∃ found, e = .notIndexable segment found := by
  obtain ⟨step, hstep⟩ := exists_parse_of_not_malformed h
  rw [Value.shallow?_of_parse hstep] at he
  obtain ⟨found, rfl⟩ := Step.take_eq_error he
  exact ⟨found, by rw [Step.text_of_parse hstep]⟩

/-- There is nothing to look up in `null`. -/
theorem Value.shallow?_null {segment : String} (h : ¬Malformed segment) :
    Value.shallow? .null segment = .ok none := by
  obtain ⟨step, hstep⟩ := exists_parse_of_not_malformed h
  rw [Value.shallow?_of_parse hstep, Step.take]
  cases step.index <;> rfl

/-! ### Walks -/

namespace Value

/-- One segment further from where a walk has got: from nothing and from `null` there is no way
on. -/
def onward (reached : Option Value) (segment : String) : Except QueryError (Option Value) :=
  match reached with
  | none | some .null => .ok none
  | some value => value.shallow? segment

/-- Looks segments up one after the other, from left to right. -/
def walk (value : Value) (segments : List String) : Except QueryError (Option Value) :=
  segments.foldlM onward (some value)

theorem onward_of_not_null {value : Value} (h : value.isNull = false) (segment : String) :
    onward (some value) segment = value.shallow? segment := by
  cases value with
  | null => cases h
  | _ => rfl

theorem foldlM_onward_none (segments : List String) : segments.foldlM onward none = .ok none := by
  induction segments with
  | nil => rfl
  | cons segment rest ih =>
    rw [List.foldlM_cons]
    exact ih

theorem walk_cons (value : Value) (segment : String) (rest : List String) :
    value.walk (segment :: rest)
      = onward (some value) segment >>= fun reached => rest.foldlM onward reached := by
  rw [walk, List.foldlM_cons]

/-- **A walk ends with nothing** where a segment finds nothing, or where it would go on from
`null`. -/
theorem walk_eq_none_iff {value : Value} {segments : List String} :
    value.walk segments = .ok none ↔ ∃ before segment after reached,
      segments = before ++ segment :: after ∧ value.walk before = .ok (some reached)
        ∧ (reached = .null ∨ reached.shallow? segment = .ok none) := by
  constructor
  · intro h
    induction segments generalizing value with
    | nil => cases h
    | cons segment rest ih =>
      rw [walk_cons, bind_eq_ok_iff] at h
      obtain ⟨_ | next, hnext, h⟩ := h
      · refine ⟨[], segment, rest, value, rfl, rfl, ?_⟩
        cases hnull : value.isNull with
        | true => exact .inl (isNull_iff.mp hnull)
        | false => exact .inr (onward_of_not_null hnull segment ▸ hnext)
      · obtain ⟨before, last, after, reached, rfl, hbefore, hend⟩ := ih h
        refine ⟨segment :: before, last, after, reached, rfl, ?_, hend⟩
        rw [walk_cons, hnext]
        exact hbefore
  · rintro ⟨before, segment, after, reached, rfl, hbefore, hend⟩
    have hstep : onward (some reached) segment = .ok none := by
      cases hnull : reached.isNull with
      | true => rw [isNull_iff.mp hnull]; rfl
      | false =>
        rw [onward_of_not_null hnull]
        rcases hend with rfl | hend
        · cases hnull
        · exact hend
    rw [walk, List.foldlM_append]
    rw [walk] at hbefore
    rw [hbefore]
    show (onward (some reached) segment >>= fun next => after.foldlM onward next) = .ok none
    rw [hstep]
    exact foldlM_onward_none after

/-- **A walk fails** where the look-up of a segment fails. -/
theorem walk_eq_error_iff {value : Value} {segments : List String} {e : QueryError} :
    value.walk segments = .error e ↔ ∃ before segment after reached,
      segments = before ++ segment :: after ∧ value.walk before = .ok (some reached)
        ∧ reached.isNull = false ∧ reached.shallow? segment = .error e := by
  rw [walk, foldlM_eq_error_iff]
  constructor
  · rintro ⟨before, segment, after, _ | reached, hsplit, hbefore, hfail⟩
    · cases hfail
    · cases hnull : reached.isNull with
      | true =>
        rw [isNull_iff.mp hnull] at hfail
        cases hfail
      | false =>
        rw [onward_of_not_null hnull] at hfail
        exact ⟨before, segment, after, reached, hsplit, hbefore, hnull, hfail⟩
  · rintro ⟨before, segment, after, reached, hsplit, hbefore, hnull, hfail⟩
    refine ⟨before, segment, after, some reached, hsplit, hbefore, ?_⟩
    rw [onward_of_not_null hnull, hfail]

/-- Taking steps is walking the segments that spell them. -/
theorem takeAll_eq_walk {segments : List String} {steps : List Step}
    (h : List.Forall₂ (fun segment step => Step.parse segment = .ok step) segments steps)
    (value : Value) : Step.takeAll steps value = value.walk segments := by
  induction h generalizing value with
  | nil => rfl
  | @cons segment step segments steps hstep hsteps ih =>
    rw [walk_cons, Step.takeAll]
    cases hnull : value.isNull with
    | true =>
      rw [isNull_iff.mp hnull]
      exact (foldlM_onward_none segments).symm
    | false =>
      rw [onward_of_not_null hnull, shallow?_of_parse hstep, if_neg Bool.false_ne_true]
      rcases step.take value with e | _ | next
      · rfl
      · exact (foldlM_onward_none segments).symm
      · exact ih next

/-! ### Resolving a path -/

/-- A malformed segment decides the outcome, wherever a walk would end. -/
theorem deep?_of_malformed {key : String} (hkey : key ≠ ".") {before after : List String}
    {segment : String} (hsplit : DotPath.segments ⟨key⟩ = before ++ segment :: after)
    (hbefore : ∀ earlier ∈ before, ¬Malformed earlier) (hsegment : Malformed segment)
    (value : Value) : value.deep? key = .error (.malformed segment) := by
  have hsteps : DotPath.steps ⟨key⟩ = .error (.malformed segment) := by
    rw [DotPath.steps_eq, mapM_eq_error_iff]
    exact ⟨before, segment, after, hsplit,
      fun earlier hearlier => exists_parse_of_not_malformed (hbefore earlier hearlier),
      malformed_iff.mp hsegment⟩
  rw [deep?, DotPath.resolve, if_neg (by simpa [DotPath.isIdentity] using hkey), hsteps]
  rfl

theorem deep?_eq_walk {key : String} (hkey : key ≠ ".")
    (hread : ∀ segment ∈ DotPath.segments ⟨key⟩, ¬Malformed segment) (value : Value) :
    value.deep? key = value.walk (DotPath.segments ⟨key⟩) := by
  have hsteps : ∃ steps, DotPath.steps ⟨key⟩ = .ok steps := by
    rw [DotPath.steps_eq, exists_mapM_eq_ok_iff]
    exact fun segment hsegment => exists_parse_of_not_malformed (hread segment hsegment)
  obtain ⟨steps, hsteps⟩ := hsteps
  rw [deep?, DotPath.resolve, if_neg (by simpa [DotPath.isIdentity] using hkey), hsteps]
  rw [DotPath.steps_eq, mapM_eq_ok_iff] at hsteps
  exact takeAll_eq_walk hsteps value

/-- **Resolving a path refines looking its segments up.** The dot alone is the value itself. Any
other key is cut at its dots. Its first malformed segment is the outcome on every value; without
one, the outcome is that of a walk, which ends with nothing where it finds nothing or would go on
from `null`, and fails at the first segment that asks a position of something that is no array. -/
theorem deep?_refines_walk (value : Value) :
    value.deep? "." = .ok (some value)
    ∧ ∀ key, key ≠ "." →
      let segments := DotPath.segments ⟨key⟩
      (segments ≠ [] ∧ ".".intercalate segments = key
          ∧ ∀ segment ∈ segments, '.' ∉ segment.toList)
      ∧ (∀ before segment after, segments = before ++ segment :: after →
          (∀ earlier ∈ before, ¬Malformed earlier) → Malformed segment →
          value.deep? key = .error (.malformed segment))
      ∧ ((∀ segment ∈ segments, ¬Malformed segment) →
          value.deep? key = value.walk segments
          ∧ (value.deep? key = .ok none ↔ ∃ before segment after reached,
              segments = before ++ segment :: after ∧ value.walk before = .ok (some reached)
                ∧ (reached = .null ∨ reached.shallow? segment = .ok none))
          ∧ ∀ e, value.deep? key = .error e ↔ ∃ before segment after reached found,
              segments = before ++ segment :: after ∧ value.walk before = .ok (some reached)
                ∧ reached.shallow? segment = .error e ∧ e = .notIndexable segment found) := by
  refine ⟨rfl, fun key hkey => ⟨⟨?_, DotPath.intercalate_segments _,
    fun _ => DotPath.dot_notMem_segment⟩, ?_, ?_⟩⟩
  · intro hnil
    exact Text.split_ne_nil _ _ (List.map_eq_nil_iff.mp hnil)
  · intro before segment after hsplit hbefore hsegment
    exact deep?_of_malformed hkey hsplit hbefore hsegment value
  · intro hread
    rw [deep?_eq_walk hkey hread]
    refine ⟨rfl, walk_eq_none_iff, fun e => ?_⟩
    rw [walk_eq_error_iff]
    constructor
    · rintro ⟨before, segment, after, reached, hsplit, hbefore, -, hfail⟩
      have hmem : segment ∈ DotPath.segments ⟨key⟩ := by rw [hsplit]; simp
      obtain ⟨found, he⟩ := shallow?_eq_error (hread segment hmem) hfail
      exact ⟨before, segment, after, reached, found, hsplit, hbefore, hfail, he⟩
    · rintro ⟨before, segment, after, reached, found, hsplit, hbefore, hfail, he⟩
      refine ⟨before, segment, after, reached, hsplit, hbefore, ?_, hfail⟩
      have hmem : segment ∈ DotPath.segments ⟨key⟩ := by rw [hsplit]; simp
      cases hnull : reached.isNull with
      | false => rfl
      | true =>
        rw [isNull_iff.mp hnull, shallow?_null (hread segment hmem)] at hfail
        cases hfail

/-- Malformed behind a missing field, `null` in the middle, and a position of a number. -/
theorem deep?_refines_walk_three_ends :
    let inner : Value := .obj [("b", .null), ("n", .int 1)]
    let value : Value := .obj [("a", inner)]
    Malformed "y[" ∧ value.deep? "x.y[" = .error (.malformed "y[")
    ∧ value.deep? "a.b.c" = .ok none
    ∧ value.deep? "a.n[0]" = .error (.notIndexable "n[0]" .number) := by
  intro inner value
  obtain ⟨-, hdeep⟩ := deep?_refines_walk value
  have hmalformed : Malformed "y[" := malformed_iff.mpr rfl
  have hread : ∀ segment ∈ ["x", "a", "b", "c", "n[0]"], ¬Malformed segment := by
    intro segment hsegment
    rw [malformed_iff]
    revert segment
    decide
  refine ⟨hmalformed, ?_, ?_, ?_⟩
  · obtain ⟨-, hfirst, -⟩ := hdeep "x.y[" (by decide)
    have hbefore : ∀ earlier ∈ ["x"], ¬Malformed earlier :=
      List.forall_mem_singleton.mpr (hread "x" (by decide))
    exact hfirst ["x"] "y[" [] (by decide) hbefore hmalformed
  · obtain ⟨-, -, hwalk⟩ := hdeep "a.b.c" (by decide)
    have hsubset : DotPath.segments ⟨"a.b.c"⟩ ⊆ ["x", "a", "b", "c", "n[0]"] := by decide
    obtain ⟨-, hnone, -⟩ := hwalk fun segment hsegment => hread segment (hsubset hsegment)
    exact hnone.mpr ⟨["a", "b"], "c", [], .null, by decide, rfl, .inl rfl⟩
  · obtain ⟨-, -, hwalk⟩ := hdeep "a.n[0]" (by decide)
    have hsubset : DotPath.segments ⟨"a.n[0]"⟩ ⊆ ["x", "a", "b", "c", "n[0]"] := by decide
    obtain ⟨-, -, herror⟩ := hwalk fun segment hsegment => hread segment (hsubset hsegment)
    exact (herror _).mpr ⟨["a"], "n[0]", [], inner, .number, by decide, rfl, rfl, rfl⟩

end Value

end RecordQuery
