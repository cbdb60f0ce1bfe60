import RecordQuery.Proofs.Path.Address
import Mathlib.Data.List.Induction
import Mathlib.Data.Nat.Digits.Defs

/-!
# The syntax of a path

A segment of a path is a name, or a name with a position in brackets behind it. `Step.Spells` is
this grammar, with what a segment stands for: the name, and the position that its digits denote in
decimal. Reading a step is complete and sound for it, so a path is malformed for one reason only,
that one of its segments is not in the grammar, and the error names the first of these.

## What the grammar leaves open

Names may be empty, and may look like positions. A position may have any number of digits, leading
zeros among them. It is a number, not a word of 64 bits: one that is too large is well written and
selects nothing.

## Sound and complete

Reading a step splits the text at its first bracket and looks at what is behind it. The grammar says
which texts there are, with no word about how to find the parts. That both agree is two statements:

* a text of the grammar is read as what it stands for (`Step.parse_of_spells`), for which the name
  must not contain a bracket, or the text would be split too early;
* a text that can be read is in the grammar (`Step.spells_of_parse`), for which nothing may be left
  behind the closing bracket.

The second includes that a text stands for one thing at most, since reading is a function.

## Implementation notes

The number that digits denote is taken from the library, where digits are listed from the lowest on.
Reading multiplies by ten from the left; `Text.digitsValue_eq_decimal` relates the two.

Being in the grammar is decidable, and the decision is to read the segment. This does not make the
equivalence with reading a matter of definition: the grammar is defined first, without it.

## Main definitions

* `Text.decimal` — the number that digits denote
* `Step.Spells` — the grammar of segments
* `Step.WellFormed` — a segment that is in the grammar

## Main results

* `Step.parse_eq_ok_iff` — reading a step accepts the grammar and nothing else
* `Step.malformed_iff_not_wellFormed` — the malformed segments are those outside the grammar
* `Value.shallow?_of_spells` — what a segment leads to
* `Value.deep?_malformed_iff` — which paths are malformed, and what the others do
-/

namespace RecordQuery

namespace Text

/-- The number that digits denote in decimal, the most significant digit first. -/
def decimal (digits : List Char) : Nat := Nat.ofDigits 10 (digits.reverse.map digitValue)

/-- Reading digits from the left gives the number that they denote. -/
theorem digitsValue_eq_decimal (digits : List Char) : digitsValue digits = decimal digits := by
  induction digits using List.reverseRecOn with
  | nil => rfl
  | append_singleton digits c ih =>
    rw [digitsValue] at ih
    rw [digitsValue, decimal, List.foldl_append, ih, List.reverse_append, List.reverse_singleton,
      List.singleton_append, List.map_cons, Nat.ofDigits_cons, Nat.add_comm]
    rfl

end Text

namespace Step

/-! ### The grammar -/

/-- A text without brackets. -/
def Bare (text : String) : Prop := '[' ∉ text.toList ∧ ']' ∉ text.toList

/-- What a segment stands for: a name without brackets stands for itself, and with one or more
digits in brackets behind it, for the name and a position. -/
inductive Spells : String → String → Option Nat → Prop
  | name {text : String} (h : Bare text) : Spells text text none
  | indexed {name digits : String} (hname : Bare name) (hne : digits ≠ "")
      (hdigits : ∀ c ∈ digits.toList, c.isDigit = true) :
      Spells (name ++ "[" ++ digits ++ "]") name (some (Text.decimal digits.toList))

/-- A segment is well-formed if it stands for something. -/
def WellFormed (segment : String) : Prop := ∃ name index, Spells segment name index

theorem bare_iff {text : String} : Bare text ↔ ∀ c ∈ text.toList, isBracket c = false := by
  constructor
  · rintro ⟨hopen, hclose⟩ c hc
    have hneopen : c ≠ '[' := fun h => hopen (h ▸ hc)
    have hneclose : c ≠ ']' := fun h => hclose (h ▸ hc)
    simp [isBracket, hneopen, hneclose]
  · intro h
    exact ⟨fun hopen => absurd (h _ hopen) (by decide),
      fun hclose => absurd (h _ hclose) (by decide)⟩

/-! ### Reading -/

theorem parse_of_spells {text name : String} {index : Option Nat} (h : Spells text name index) :
    parse text = .ok ⟨text, name, index⟩ := by
  cases h with
  | name h => exact parse_plain (bare_iff.mp h)
  | @indexed name digits hname hne hdigits =>
    have htext : (name ++ "[" ++ digits ++ "]").toList
        = name.toList ++ '[' :: (digits.toList ++ [']']) := by simp
    have hsome : digits.toList ≠ [] := by simpa using hne
    rw [parse_bracketed htext (bare_iff.mp hname) hsome hdigits, Text.digitsValue_eq_decimal]

/-- Reading accepts nothing else. -/
theorem spells_of_parse {text : String} {step : Step} (h : parse text = .ok step) :
    Spells text step.name step.index := by
  have hsplit := List.takeWhile_append_dropWhile (p := (!isBracket ·)) (l := text.toList)
  have hname : ∀ c ∈ text.toList.takeWhile (!isBracket ·), isBracket c = false := by
    intro c hc
    simpa using List.mem_takeWhile_imp hc
  simp only [parse] at h
  split at h
  · next hdrop =>
    cases h
    rw [hdrop, List.append_nil] at hsplit
    rw [hsplit] at hname
    exact .name (bare_iff.mpr hname)
  · next inner hdrop =>
    split at h
    · next hinner =>
      obtain ⟨hne, hclose⟩ := hinner
      cases h
      have hdigits : ∀ c ∈ inner.takeWhile Char.isDigit, c.isDigit = true :=
        fun c hc => List.mem_takeWhile_imp hc
      have hinside := List.takeWhile_append_dropWhile (p := Char.isDigit) (l := inner)
      rw [hclose] at hinside
      rw [hdrop] at hsplit
      generalize text.toList.takeWhile (!isBracket ·) = name at hname hsplit ⊢
      generalize inner.takeWhile Char.isDigit = digits at hne hdigits hinside ⊢
      have htext : String.ofList name ++ "[" ++ String.ofList digits ++ "]" = text := by
        apply String.toList_injective
        simp [← hsplit, ← hinside]
      have hbare : Bare (String.ofList name) := bare_iff.mpr (by simpa using hname)
      have hspells : Spells (String.ofList name ++ "[" ++ String.ofList digits ++ "]")
          (String.ofList name) (some (Text.decimal (String.ofList digits).toList)) :=
        .indexed hbare (by simpa using hne) (by simpa using hdigits)
      rwa [htext, String.toList_ofList, ← Text.digitsValue_eq_decimal] at hspells
    · cases h
  · cases h

/-- **Reading a step accepts the grammar and nothing else.** -/
theorem parse_eq_ok_iff {text name : String} {index : Option Nat} :
    parse text = .ok ⟨text, name, index⟩ ↔ Spells text name index :=
  ⟨spells_of_parse, parse_of_spells⟩

theorem wellFormed_iff {segment : String} :
    WellFormed segment ↔ ∃ step, parse segment = .ok step := by
  constructor
  · rintro ⟨name, index, h⟩
    exact ⟨_, parse_of_spells h⟩
  · rintro ⟨step, h⟩
    exact ⟨step.name, step.index, spells_of_parse h⟩

/-- Whether a segment is well-formed is found out by reading it. -/
instance (segment : String) : Decidable (WellFormed segment) :=
  decidable_of_iff ((parse segment).toOption.isSome = true) <| by
    rw [wellFormed_iff]
    cases parse segment <;> simp [Except.toOption]

/-- **The malformed segments are those outside the grammar.** -/
theorem malformed_iff_not_wellFormed {segment : String} :
    Malformed segment ↔ ¬WellFormed segment := by
  rw [wellFormed_iff]
  constructor
  · rintro h ⟨step, hstep⟩
    rw [malformed_iff.mp h] at hstep
    cases hstep
  · intro h
    by_contra hread
    exact h (exists_parse_of_not_malformed hread)

end Step

/-! ### What a path leads to -/

namespace Value

theorem shallow?_of_spells {segment name : String} {index : Option Nat}
    (h : Step.Spells segment name index) (value : Value) :
    value.shallow? segment = Step.take ⟨segment, name, index⟩ value :=
  shallow?_of_parse (Step.parse_of_spells h) value

/-- **A position selects an item of an array**, or nothing if it is no 64-bit word. -/
theorem shallow?_of_spells_arr {segment name : String} {position : Nat}
    (h : Step.Spells segment name (some position)) {value : Value} {items : List Value}
    (hitems : value.field? name = some (.arr items)) :
    value.shallow? segment
      = .ok (if position < Text.positionBound then items[position]? else none) := by
  rw [shallow?_of_spells h, Step.take, hitems]
  rfl

/-- If segments are outside the grammar, one of them is the first. -/
theorem exists_first_not_wellFormed {segments : List String}
    (h : ∃ segment ∈ segments, ¬Step.WellFormed segment) :
    ∃ before segment after, segments = before ++ segment :: after
      ∧ (∀ earlier ∈ before, Step.WellFormed earlier) ∧ ¬Step.WellFormed segment := by
  cases hsteps : segments.mapM Step.parse with
  | ok steps =>
    obtain ⟨segment, hsegment, hnot⟩ := h
    have hread := exists_mapM_eq_ok_iff.mp ⟨steps, hsteps⟩ segment hsegment
    exact absurd (Step.wellFormed_iff.mpr hread) hnot
  | error e =>
    obtain ⟨before, segment, after, hsplit, hbefore, hfail⟩ := mapM_eq_error_iff.mp hsteps
    refine ⟨before, segment, after, hsplit,
      fun earlier hearlier => Step.wellFormed_iff.mpr (hbefore earlier hearlier), ?_⟩
    rw [Step.wellFormed_iff]
    rintro ⟨step, hstep⟩
    rw [hfail] at hstep
    cases hstep

theorem deep?_of_not_wellFormed {key : String} (hkey : key ≠ ".") {before after : List String}
    {segment : String} (hsplit : DotPath.segments ⟨key⟩ = before ++ segment :: after)
    (hbefore : ∀ earlier ∈ before, Step.WellFormed earlier) (hsegment : ¬Step.WellFormed segment)
    (value : Value) : value.deep? key = .error (.malformed segment) := by
  refine deep?_of_malformed hkey hsplit (fun earlier hearlier => ?_)
    (Step.malformed_iff_not_wellFormed.mpr hsegment) value
  rw [Step.malformed_iff_not_wellFormed, not_not]
  exact hbefore earlier hearlier

/-- A path whose segments are all in the grammar is walked, and no value makes it malformed. -/
theorem deep?_of_wellFormed {key : String} (hkey : key ≠ ".")
    (h : ∀ segment ∈ DotPath.segments ⟨key⟩, Step.WellFormed segment) (value : Value) :
    value.deep? key = value.walk (DotPath.segments ⟨key⟩)
      ∧ ∀ named, value.deep? key ≠ .error (.malformed named) := by
  have hread : ∀ segment ∈ DotPath.segments ⟨key⟩, ¬Malformed segment := by
    intro segment hsegment
    rw [Step.malformed_iff_not_wellFormed, not_not]
    exact h segment hsegment
  have hwalk := deep?_eq_walk hkey hread value
  refine ⟨hwalk, fun named hfail => ?_⟩
  rw [hwalk] at hfail
  obtain ⟨before, segment, after, reached, hsplit, -, -, hsegment⟩ := walk_eq_error_iff.mp hfail
  have hmem : segment ∈ DotPath.segments ⟨key⟩ := by simp [hsplit]
  exact hread segment hmem ⟨reached, named, hsegment⟩

/-- **A path is malformed if one of its segments is outside the grammar**, and it is so for all
values or for none. The first such segment is the one that the error names. Any other path is walked
segment by segment. A segment is looked up as the name and the position that it stands for, and the
position selects an item of an array, or nothing if it is no 64-bit word. -/
theorem deep?_malformed_iff {key : String} (hkey : key ≠ ".") :
    let segments := DotPath.segments ⟨key⟩
    ((∀ value : Value, ∃ named, value.deep? key = .error (.malformed named))
        ↔ ∃ segment ∈ segments, ¬Step.WellFormed segment)
    ∧ (∀ before segment after, segments = before ++ segment :: after →
        (∀ earlier ∈ before, Step.WellFormed earlier) → ¬Step.WellFormed segment →
        ∀ value : Value, value.deep? key = .error (.malformed segment))
    ∧ ((∀ segment ∈ segments, Step.WellFormed segment) →
        ∀ value : Value, value.deep? key = value.walk segments
          ∧ ∀ named, value.deep? key ≠ .error (.malformed named))
    ∧ (∀ segment name index, Step.Spells segment name index →
        ∀ value : Value, value.shallow? segment = Step.take ⟨segment, name, index⟩ value)
    ∧ ∀ segment name position, Step.Spells segment name (some position) →
        ∀ (value : Value) (items : List Value), value.field? name = some (.arr items) →
          value.shallow? segment
            = .ok (if position < Text.positionBound then items[position]? else none) := by
  intro segments
  refine ⟨⟨fun h => ?_, fun h value => ?_⟩, fun before segment after hsplit hbefore hsegment =>
    deep?_of_not_wellFormed hkey hsplit hbefore hsegment, deep?_of_wellFormed hkey,
    fun segment name index => shallow?_of_spells,
    fun segment name position h value items => shallow?_of_spells_arr h⟩
  · by_contra hall
    simp only [not_exists, not_and, not_not] at hall
    obtain ⟨named, hfail⟩ := h .null
    exact (deep?_of_wellFormed hkey hall .null).2 named hfail
  · obtain ⟨before, segment, after, hsplit, hbefore, hsegment⟩ := exists_first_not_wellFormed h
    exact ⟨segment, deep?_of_not_wellFormed hkey hsplit hbefore hsegment value⟩

/-- Brackets in the wrong places, where the first of two segments is named, and a position that is
too large. -/
theorem deep?_malformed_iff_two_faults :
    let value : Value := .obj [("a", .arr [.int 4, .int 5])]
    let large := "a[18446744073709551616]"
    ("a[007].b]0[.[1]x" ≠ "." ∧ value.deep? "a[007].b]0[.[1]x" = .error (.malformed "b]0["))
    ∧ (∀ named, value.deep? "a[01]" ≠ .error (.malformed named))
    ∧ Step.Spells "a[01]" "a" (some 1) ∧ value.shallow? "a[01]" = .ok (some (.int 5))
    ∧ Step.Spells large "a" (some Text.positionBound) ∧ value.shallow? large = .ok none := by
  intro value large
  have hkey : "a[007].b]0[.[1]x" ≠ "." := by decide
  have hbefore : ∀ earlier ∈ ["a[007]"], Step.WellFormed earlier := by decide
  obtain ⟨-, hfirst, -, -⟩ := deep?_malformed_iff hkey
  obtain ⟨-, -, hwell, -, hitem⟩ := deep?_malformed_iff (show "a[01]" ≠ "." by decide)
  have hspells : Step.Spells "a[01]" "a" (some 1) := Step.parse_eq_ok_iff.mp (by decide)
  have hlarge : Step.Spells large "a" (some Text.positionBound) :=
    Step.parse_eq_ok_iff.mp (by decide)
  exact ⟨⟨hkey, hfirst ["a[007]"] "b]0[" ["[1]x"] (by decide) hbefore (by decide) value⟩,
    (hwell (by decide) value).2, hspells, hitem _ _ _ hspells value _ rfl, hlarge,
    hitem _ _ _ hlarge value _ rfl⟩

end Value

end RecordQuery
