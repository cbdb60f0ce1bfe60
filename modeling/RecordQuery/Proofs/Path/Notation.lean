import RecordQuery.Proofs.Path.Address

/-!
# Two notations for a position

An item of an array in a field can be asked for in two ways: with the position in brackets behind
the name of the field, or with a dot and the position as a segment of its own. The two are read by
different rules. Brackets are part of the syntax, and anything but digits between them makes the
path malformed. A segment is a name first, and becomes a position when it comes to an array.

## What they agree on

A position is one or more digits in both. Leading zeros do not matter, and a number that is no
64-bit word selects nothing. The one difference is a plus sign: a segment may have one in front of
its digits and is then the position without it, while in brackets it is out of place. So `a.+1`
finds what `a.1` and `a[1]` find, and `a[+1]` is malformed.

## Why there is a difference

A segment by itself is a name, and what a name means is up to the value that it is looked up in. An
array tries to read the name as a number, by the usual rules for numbers in texts, and these allow a
sign. What is in brackets is checked digit by digit when the path is read, before any value is seen.
So one text goes through two readers with different ideas of a numeral.

No other text tells them apart. This is why the statement is about every text behind the name of the
field, and takes cases only on the first character.

## Implementation notes

`Text.unsigned` drops one plus sign, and `Text.position?` reads what is left. Both notations then
ask whether a list of digits is a numeral and which item is at its value, and the comparison is
between two such questions (`Text.bind_position?_eq_some_iff`,
`Value.deep?_bracketed_eq_some_iff`).

The text must be free of dots and brackets itself, or the paths would be cut elsewhere.

## Main results

* `Value.deep?_dotted`, `Value.deep?_bracketed` — what a path in either notation leads to
* `Value.deep?_position_notations` — which items the two lead to
* `Value.position_notations_differ` — they do not always lead to the same
-/

namespace RecordQuery

/-! ### Positions with a sign -/

namespace Text

theorem isNumeral_iff {text : List Char} :
    isNumeral text = true ↔ text ≠ [] ∧ ∀ c ∈ text, c.isDigit = true := by
  simp [isNumeral]

/-- **A name selects an item of an array** if it is a numeral apart from a sign, and a position. -/
theorem bind_position?_eq_some_iff {text : List Char} {items : List Value} {item : Value} :
    (position? text).bind (itemAt? items) = some item
      ↔ isNumeral (unsigned text) = true
        ∧ itemAt? items (digitsValue (unsigned text)) = some item := by
  rw [position?]
  by_cases hbound : digitsValue (unsigned text) < positionBound
  · cases isNumeral (unsigned text) <;> simp [hbound]
  · simp [itemAt?, hbound]

end Text

/-! ### Something else in brackets -/

/-- Anything in brackets that is no numeral makes a step malformed. -/
theorem Step.parse_bracketed_of_not_numeral {name text : String} {inner : List Char}
    (htext : text.toList = name.toList ++ '[' :: (inner ++ [']']))
    (hname : ∀ c ∈ name.toList, isBracket c = false) (hinner : ¬Text.isNumeral inner = true) :
    parse text = .error (.malformed text) := by
  have hnot : ∀ c ∈ name.toList, (!isBracket c) = true := fun c hc => by simp [hname c hc]
  have hdrop : text.toList.dropWhile (!isBracket ·) = '[' :: (inner ++ [']']) := by
    rw [htext, List.dropWhile_append_of_pos hnot]
    rfl
  -- if only the bracket were left behind the digits, they would be all that is in the brackets
  have hleft : ¬((inner ++ [']']).takeWhile Char.isDigit ≠ []
      ∧ (inner ++ [']']).dropWhile Char.isDigit = [']']) := by
    rintro ⟨hne, hclose⟩
    have hwhole := List.takeWhile_append_dropWhile (p := Char.isDigit) (l := inner ++ [']'])
    rw [hclose] at hwhole
    have hdigits := List.append_cancel_right hwhole
    rw [hdigits] at hne
    refine hinner (Text.isNumeral_iff.mpr ⟨hne, fun c hc => ?_⟩)
    rw [← hdigits] at hc
    exact List.mem_takeWhile_imp hc
  rw [parse, hdrop]
  exact if_neg hleft

/-! ### What a path leads to -/

namespace Value

variable {value : Value} {items : List Value} {name text : String}

theorem deep?_name_dot_name (hname : (Access.field name).Plain) (htext : (Access.field text).Plain)
    (hne : text ≠ "") (value : Value) :
    value.deep? (name ++ "." ++ text) = .ok ((value.field? name).bind (field? text)) := by
  have hplain : ∀ segment ∈ [Written.mk (.field name) none, ⟨.field text, none⟩],
      segment.head.Plain := List.forall_mem_cons.mpr ⟨hname, List.forall_mem_singleton.mpr htext⟩
  have hsome : [Written.mk (.field name) none, ⟨.field text, none⟩] ≠ [] := List.cons_ne_nil _ _
  have hspell : Written.spell [⟨.field name, none⟩, ⟨.field text, none⟩]
      = name ++ "." ++ text := rfl
  have hsegments : DotPath.segments ⟨name ++ "." ++ text⟩ = [name, text] := by
    rw [← hspell]
    exact Written.segments_spell hsome hplain
  have hkey : name ++ "." ++ text ≠ "." := by
    rw [← hspell, Ne, Written.spell_eq_dot_iff hsome hplain]
    simp [Written.accesses, hne]
  have hread : ∀ segment ∈ DotPath.segments ⟨name ++ "." ++ text⟩, ¬Malformed segment := by
    rw [hsegments]
    exact List.forall_mem_cons.mpr
      ⟨(shallow?_name hname).1, List.forall_mem_singleton.mpr (shallow?_name htext).1⟩
  rw [deep?_eq_walk hkey hread, hsegments, walk_cons, onward_name hname]
  cases value.field? name with
  | none => rfl
  | some next =>
    show onward (some next) text >>= (fun reached => .ok reached) = _
    rw [onward_name htext]
    rfl

/-- **With a dot**, a text selects the item at its position, if it is one apart from a sign. -/
theorem deep?_dotted (hname : (Access.field name).Plain) (htext : (Access.field text).Plain)
    (hne : text ≠ "") (hitems : value.field? name = some (.arr items)) :
    value.deep? (name ++ "." ++ text)
      = .ok ((Text.position? text.toList).bind (itemAt? items)) := by
  rw [deep?_name_dot_name hname htext hne, hitems]
  rfl

/-- **In brackets**, a numeral selects the item at its position, and anything else is malformed. -/
theorem deep?_bracketed (hname : (Access.field name).Plain) (htext : (Access.field text).Plain)
    (hitems : value.field? name = some (.arr items)) :
    value.deep? (name ++ "[" ++ text ++ "]")
      = if Text.isNumeral text.toList then .ok (itemAt? items (Text.digitsValue text.toList))
        else .error (.malformed (name ++ "[" ++ text ++ "]")) := by
  have hbrackets : (name ++ "[" ++ text ++ "]").toList
      = name.toList ++ '[' :: (text.toList ++ [']']) := by simp
  have hbare : ∀ c ∈ name.toList, Step.isBracket c = false := fun c hc => (hname.of_mem_text hc).2
  have hdot : '.' ∉ (name ++ "[" ++ text ++ "]").toList := by
    have hinName : '.' ∉ name.toList := fun hc => (hname.of_mem_text hc).1 rfl
    have hinText : '.' ∉ text.toList := fun hc => (htext.of_mem_text hc).1 rfl
    simp [hinName, hinText]
  rw [deep?_eq_shallow? hdot]
  split
  · next hnumeral =>
    obtain ⟨hne, hdigits⟩ := Text.isNumeral_iff.mp hnumeral
    rw [shallow?_of_parse (Step.parse_bracketed hbrackets hbare hne hdigits), Step.take, hitems]
  · next hnumeral =>
    exact shallow?_of_parse_error
      (Step.parse_bracketed_of_not_numeral hbrackets hbare hnumeral) value

theorem deep?_bracketed_eq_some_iff (hname : (Access.field name).Plain)
    (htext : (Access.field text).Plain) (hitems : value.field? name = some (.arr items))
    {item : Value} :
    value.deep? (name ++ "[" ++ text ++ "]") = .ok (some item)
      ↔ Text.isNumeral text.toList = true
        ∧ itemAt? items (Text.digitsValue text.toList) = some item := by
  rw [deep?_bracketed hname htext hitems]
  cases Text.isNumeral text.toList <;> simp

/-- **The two notations lead to the same items unless there is a plus sign.** In an object with an
array in a field, take any text behind the name of the field. If it has no plus sign in front, then
a dot before it leads to an item exactly if brackets around it do, and to the same item. With a plus
sign in front, brackets are malformed, and a dot leads to the item, if there is one, to which
brackets around the rest of the text lead. -/
theorem deep?_position_notations {fields : Entries Value} {items : List Value}
    {name text : String} (hname : (Access.field name).Plain) (htext : (Access.field text).Plain)
    (hne : text ≠ "") (hitems : fields.lookup name = some (.arr items)) :
    let value : Value := .obj fields
    (text.toList.head? ≠ some '+' → ∀ item,
        value.deep? (name ++ "." ++ text) = .ok (some item)
          ↔ value.deep? (name ++ "[" ++ text ++ "]") = .ok (some item))
      ∧ ∀ rest, text = "+" ++ rest →
        value.deep? (name ++ "[" ++ text ++ "]")
            = .error (.malformed (name ++ "[" ++ text ++ "]"))
          ∧ ∀ item, value.deep? (name ++ "." ++ text) = .ok (some item)
            ↔ value.deep? (name ++ "[" ++ rest ++ "]") = .ok (some item) := by
  intro value
  have hfield : value.field? name = some (.arr items) := hitems
  have hdotted : ∀ item, value.deep? (name ++ "." ++ text) = .ok (some item)
      ↔ Text.isNumeral (Text.unsigned text.toList) = true
        ∧ itemAt? items (Text.digitsValue (Text.unsigned text.toList)) = some item := by
    intro item
    rw [deep?_dotted hname htext hne hfield, Except.ok.injEq]
    exact Text.bind_position?_eq_some_iff
  refine ⟨fun hsign item => ?_, ?_⟩
  · rw [hdotted, Text.unsigned_of_head? hsign]
    exact (deep?_bracketed_eq_some_iff hname htext hfield).symm
  · rintro rest rfl
    have hsigned : ("+" ++ rest).toList = '+' :: rest.toList := by simp
    have hrest : (Access.field rest).Plain := fun c hc => htext c (by simp [hc])
    have hnumeral : ¬Text.isNumeral ("+" ++ rest).toList = true := by
      rw [hsigned]
      simp [Text.isNumeral]
    refine ⟨by rw [deep?_bracketed hname htext hfield, if_neg hnumeral], fun item => ?_⟩
    rw [hdotted, hsigned]
    exact (deep?_bracketed_eq_some_iff hname hrest hfield).symm

/-- Leading zeros in both notations, and a plus sign in front of them. -/
theorem deep?_position_notations_signed :
    let value : Value := .obj [("a", .arr [.int 10, .int 20])]
    value.deep? "a.01" = .ok (some (.int 20)) ∧ value.deep? "a[01]" = .ok (some (.int 20))
      ∧ value.deep? "a.+01" = .ok (some (.int 20))
      ∧ value.deep? "a[+01]" = .error (.malformed "a[+01]") := by
  intro value
  have hname : (Access.field "a").Plain := by decide
  have hdigits : (Access.field "01").Plain := by decide
  have hsigned : (Access.field "+01").Plain := by decide
  have hbracketed : value.deep? "a[01]" = .ok (some (.int 20)) := rfl
  obtain ⟨hsame, -⟩ := deep?_position_notations hname hdigits (by decide)
    (show List.lookup "a" [("a", Value.arr [.int 10, .int 20])] = some _ from rfl)
  obtain ⟨-, hplus⟩ := deep?_position_notations hname hsigned (by decide)
    (show List.lookup "a" [("a", Value.arr [.int 10, .int 20])] = some _ from rfl)
  obtain ⟨hmalformed, hitem⟩ := hplus "01" rfl
  exact ⟨(hsame (by decide) _).mpr hbracketed, hbracketed, (hitem _).mpr hbracketed, hmalformed⟩

/-- The two notations do not always lead to the same items: with a plus sign in front of a digit
they do not. -/
theorem position_notations_differ :
    ¬ ∀ (fields : Entries Value) (items : List Value) (name text : String),
      (Access.field name).Plain → (Access.field text).Plain → text ≠ "" →
      fields.lookup name = some (.arr items) →
      ∀ item, (Value.obj fields).deep? (name ++ "." ++ text) = .ok (some item)
        ↔ (Value.obj fields).deep? (name ++ "[" ++ text ++ "]") = .ok (some item) := by
  intro h
  have hsame := h [("a", .arr [.int 10, .int 20])] [.int 10, .int 20] "a" "+1" (by decide)
    (by decide) (by decide) rfl (.int 20)
  cases hsame.mp rfl

end Value

end RecordQuery
