import RecordQuery.Proofs.Path.Walk
import Mathlib.Data.List.TakeWhile

/-!
# The address of a node

A node of a value is reached by accesses: by the name of a field into an object, by a position into
an array. Spelt out with dots between them, the accesses make a dotted path, and resolving the path
leads back to the node. A position may also stand in brackets behind the access before it.

## Why nothing is read amiss

The text does not say whether a segment is a name or a position. The value does: an object looks its
segments up as names, numerals included, and an array takes numerals as positions. So a text that
could be meant either way leads to a node along the one way that there is.

Names have to be free of dots and brackets, or the text is cut in the wrong places. They may be
empty, and may be numerals. One text is taken: the dot alone stands for the value itself. It is what
two empty names in a row spell, and nothing else spells it.

## From the text to the node

The text is cut at its dots, every segment is parsed, and the steps are taken one after the other.
Each part has its own condition under which nothing is lost:

* cutting gives back the segments if none of them contains a dot (`Written.segments_spell`);
* parsing gives back name and position of a segment if its name contains no bracket
  (`Step.parse_written`);
* taking a step leads to the node if there is one, since a value that has an item at a position is
  an array, and one that has a field is an object (`Value.take_written`).

The walk stops at a `null`. This loses nothing either: no access leads on from `null`.

## Main definitions

* `Access`, `Value.node?` — the accesses to a node
* `Written`, `Written.spell` — segments with and without brackets, and the text that they make

## Main results

* `Text.position?_toDigits` — a position in decimal is read as itself
* `Step.parse_written`, `Value.take_written` — one segment, read and taken
* `Value.deep?_eq_shallow?`, `Value.deep?_name` — a path of one segment, and of one name
* `Written.spell_eq_dot_iff` — what the dot alone would spell
* `Value.deep?_spell` — the text of the way to a node leads to the node
-/

namespace RecordQuery

/-! ### Numerals -/

namespace Text

theorem digitsValue_toDigits (n : Nat) : digitsValue (Nat.toDigits 10 n) = n :=
  Nat.ofDigitChars_ten_toDigits

/-- **A position in decimal is read as itself.** -/
theorem position?_toDigits {n : Nat} (h : n < positionBound) :
    position? (Nat.toDigits 10 n) = some n := by
  have hall : (Nat.toDigits 10 n).all Char.isDigit = true :=
    List.all_eq_true.mpr fun c hc => Nat.isDigit_of_mem_toDigits (by decide) (by decide) hc
  have hvalue := digitsValue_toDigits n
  obtain ⟨c, rest, hcons⟩ := List.exists_cons_of_ne_nil (Nat.toDigits_ne_nil (n := n) (b := 10))
  rw [hcons] at hall hvalue ⊢
  have hunsigned : unsigned (c :: rest) = c :: rest := by
    refine unsigned_of_head? fun hplus => ?_
    obtain rfl : c = '+' := Option.some.inj hplus
    exact absurd (List.all_eq_true.mp hall _ List.mem_cons_self) (by decide)
  simp [position?, hunsigned, isNumeral, hvalue, hall, h]

end Text

/-! ### The way to a node -/

/-- A way from a value to a node in it: to a field by its name, or to an item by its position.
Positions are words of 64 bits. -/
inductive Access
  | field (name : String)
  | item (position : UInt64)

namespace Access

/-- The text of an access: the name as it is, or the position in decimal. -/
def text : Access → String
  | field name => name
  | item position => position.toNat.repr

/-- The access can be part of a dotted path: if it is by a name, that has neither dots nor
brackets. -/
def Plain : Access → Prop
  | field name => ∀ c ∈ name.toList, c ≠ '.' ∧ c ≠ '[' ∧ c ≠ ']'
  | item _ => True

instance (access : Access) : Decidable access.Plain :=
  match access with
  | field name => List.decidableBAll (fun c => c ≠ '.' ∧ c ≠ '[' ∧ c ≠ ']') name.toList
  | item _ => inferInstanceAs (Decidable True)

theorem toList_text_item (position : UInt64) :
    (item position).text.toList = Nat.toDigits 10 position.toNat := by
  rw [text, Nat.repr_eq_ofList_toDigits, String.toList_ofList]

theorem Plain.of_mem_text {access : Access} (h : access.Plain) {c : Char}
    (hc : c ∈ access.text.toList) : c ≠ '.' ∧ Step.isBracket c = false := by
  cases access with
  | field name =>
    obtain ⟨hdot, hopen, hclose⟩ := h c hc
    exact ⟨hdot, by simp [Step.isBracket, hopen, hclose]⟩
  | item position =>
    rw [toList_text_item] at hc
    have hdigit := Nat.isDigit_of_mem_toDigits (by decide) (by decide) hc
    refine ⟨?_, Bool.eq_false_iff.mpr fun hbracket => ?_⟩
    · rintro rfl
      exact absurd hdigit (by decide)
    · rcases (by simpa [Step.isBracket] using hbracket : c = '[' ∨ c = ']') with rfl | rfl <;>
        exact absurd hdigit (by decide)

theorem text_eq_empty_iff {access : Access} : access.text = "" ↔ access = field "" := by
  cases access with
  | field name => simp [text]
  | item position =>
    have hne : (item position).text ≠ "" := by
      intro h
      rw [← String.toList_inj, toList_text_item] at h
      exact Nat.toDigits_ne_nil h
    simp [hne]

end Access

namespace Value

/-- The node that an access leads to. -/
def access? : Value → Access → Option Value
  | .obj fields, .field name => fields.lookup name
  | .arr items, .item position => items[position.toNat]?
  | _, _ => none

/-- The node that several accesses lead to, one after the other. -/
def node? (value : Value) (accesses : List Access) : Option Value :=
  accesses.foldlM access? value

theorem isNull_of_access? {value node : Value} {access : Access}
    (h : value.access? access = some node) : value.isNull = false := by
  cases value with
  | null => cases access <;> cases h
  | _ => rfl

theorem exists_itemAt?_of_access? {value node : Value} {position : UInt64}
    (h : value.access? (.item position) = some node) :
    ∃ items, value = .arr items ∧ itemAt? items position.toNat = some node := by
  cases value with
  | arr items =>
    have hbound : position.toNat < Text.positionBound := position.toNat_lt
    refine ⟨items, rfl, ?_⟩
    rw [itemAt?, if_pos hbound]
    exact h
  | _ => cases h

/-- An access is a plain step by its text: what the text is meant as is up to the value. -/
theorem field?_text {value node : Value} {access : Access} (h : value.access? access = some node) :
    value.field? access.text = some node := by
  cases access with
  | field name =>
    cases value with
    | obj fields => exact h
    | _ => cases h
  | item position =>
    obtain ⟨items, rfl, hitem⟩ := exists_itemAt?_of_access? h
    rw [field?, Access.toList_text_item, Text.position?_toDigits position.toNat_lt,
      Option.bind_some]
    exact hitem

end Value

/-! ### Segments as they are written -/

/-- A segment of a path as it is written: an access by itself, or with the position that comes next
in brackets behind it. -/
structure Written where
  /-- The access in front, by itself. -/
  head : Access
  /-- The position in brackets. -/
  bracket : Option UInt64

namespace Written

/-- The accesses that a segment stands for. -/
def accesses (segment : Written) : List Access :=
  segment.head :: (segment.bracket.map Access.item).toList

/-- The text of a segment. -/
def text (segment : Written) : String :=
  match segment.bracket with
  | none => segment.head.text
  | some position => segment.head.text ++ "[" ++ (Access.item position).text ++ "]"

/-- The text of several segments, with dots between them. -/
def spell (segments : List Written) : String := ".".intercalate (segments.map text)

theorem dot_notMem_text {segment : Written} (h : segment.head.Plain) :
    '.' ∉ segment.text.toList := by
  have hhead : '.' ∉ segment.head.text.toList := fun hc => (h.of_mem_text hc).1 rfl
  match hbracket : segment.bracket with
  | none => rwa [text, hbracket]
  | some position =>
    have hplain : (Access.item position).Plain := trivial
    have hdigits : '.' ∉ (Access.item position).text.toList := fun hc =>
      (hplain.of_mem_text hc).1 rfl
    simp [text, hbracket, hhead, hdigits]

/-- **The segments of the text are the ones that were spelt.** -/
theorem segments_spell {segments : List Written} (hne : segments ≠ [])
    (h : ∀ segment ∈ segments, segment.head.Plain) :
    DotPath.segments ⟨spell segments⟩ = segments.map text := by
  have hpieces : (spell segments).toList
      = Text.join '.' ((segments.map text).map String.toList) := by
    rw [spell, String.toList_intercalate, Text.join_eq_intercalate]
    rfl
  have hsplit : Text.split '.' (spell segments).toList
      = (segments.map text).map String.toList := by
    rw [hpieces]
    refine Text.split_join (by simpa using hne) fun piece hpiece => ?_
    simp only [List.map_map, List.mem_map, Function.comp_apply] at hpiece
    obtain ⟨segment, hsegment, rfl⟩ := hpiece
    exact dot_notMem_text (h segment hsegment)
  rw [DotPath.segments, hsplit, List.map_map]
  exact (List.map_congr_left fun _ _ => String.ofList_toList).trans (List.map_id _)

theorem text_eq_empty_iff {segment : Written} :
    segment.text = "" ↔ segment = ⟨.field "", none⟩ := by
  obtain ⟨head, _ | position⟩ := segment
  · simp [text, Access.text_eq_empty_iff]
  · simp [text]

/-- Names and nothing else are segments without brackets. -/
theorem flatMap_accesses_eq_fields_iff {segments : List Written} {names : List String} :
    segments.flatMap accesses = names.map .field
      ↔ segments = names.map fun name => ⟨.field name, none⟩ := by
  induction segments generalizing names with
  | nil => cases names <;> simp
  | cons segment rest ih =>
    obtain ⟨head, _ | position⟩ := segment
    · cases names with
      | nil => simp [accesses]
      | cons name names => simp [accesses, ih]
    · match names with
      | [] | [_] | _ :: _ :: _ => simp [accesses]

/-- **Only two empty names in a row spell the dot alone.** -/
theorem spell_eq_dot_iff {segments : List Written} (hne : segments ≠ [])
    (h : ∀ segment ∈ segments, segment.head.Plain) :
    spell segments = "." ↔ segments.flatMap accesses = [.field "", .field ""] := by
  rw [show [Access.field "", .field ""] = ["", ""].map Access.field from rfl,
    flatMap_accesses_eq_fields_iff]
  constructor
  · intro hdot
    have htexts : segments.map text = ["", ""] := by
      rw [← segments_spell hne h, hdot]
      rfl
    obtain ⟨first, _, rfl, hfirst, hrest⟩ := List.map_eq_cons_iff.mp htexts
    obtain ⟨second, _, rfl, hsecond, hnil⟩ := List.map_eq_cons_iff.mp hrest
    rw [text_eq_empty_iff.mp hfirst, text_eq_empty_iff.mp hsecond, List.map_eq_nil_iff.mp hnil]
    rfl
  · rintro rfl
    rfl

end Written

/-! ### Reading a segment and taking it -/

namespace Step

theorem parse_plain {text : String} (h : ∀ c ∈ text.toList, isBracket c = false) :
    parse text = .ok ⟨text, text, none⟩ := by
  have hdrop : text.toList.dropWhile (!isBracket ·) = [] :=
    List.dropWhile_eq_nil_iff.mpr fun c hc => by simp [h c hc]
  rw [parse, hdrop]

theorem parse_bracketed {name text : String} {digits : List Char}
    (htext : text.toList = name.toList ++ '[' :: (digits ++ [']']))
    (hname : ∀ c ∈ name.toList, isBracket c = false) (hne : digits ≠ [])
    (hdigits : ∀ c ∈ digits, c.isDigit = true) :
    parse text = .ok ⟨text, name, some (Text.digitsValue digits)⟩ := by
  have hnot : ∀ c ∈ name.toList, (!isBracket c) = true := fun c hc => by simp [hname c hc]
  have hbracket : isBracket '[' = true := rfl
  have htake : text.toList.takeWhile (!isBracket ·) = name.toList := by
    rw [htext, List.takeWhile_append_of_pos hnot]
    simp [hbracket]
  have hdrop : text.toList.dropWhile (!isBracket ·) = '[' :: (digits ++ [']']) := by
    rw [htext, List.dropWhile_append_of_pos hnot]
    simp [hbracket]
  have hclose : (']' : Char).isDigit = false := rfl
  have hinner : (digits ++ [']']).takeWhile Char.isDigit = digits := by
    rw [List.takeWhile_append_of_pos hdigits]
    simp [hclose]
  have hrest : (digits ++ [']']).dropWhile Char.isDigit = [']'] := by
    rw [List.dropWhile_append_of_pos hdigits]
    simp [hclose]
  rw [parse, htake, hdrop]
  simp [hinner, hrest, hne]

/-- **A written segment is read as what it was meant to be.** -/
theorem parse_written {segment : Written} (h : segment.head.Plain) :
    parse segment.text
      = .ok ⟨segment.text, segment.head.text, segment.bracket.map UInt64.toNat⟩ := by
  have hname : ∀ c ∈ segment.head.text.toList, isBracket c = false :=
    fun c hc => (h.of_mem_text hc).2
  obtain ⟨head, _ | position⟩ := segment
  · exact parse_plain hname
  · have htext : (Written.mk head (some position)).text.toList
        = head.text.toList ++ '[' :: (Nat.toDigits 10 position.toNat ++ [']']) := by
      simp [Written.text, Access.toList_text_item]
    have hdigits : ∀ c ∈ Nat.toDigits 10 position.toNat, c.isDigit = true :=
      fun c hc => Nat.isDigit_of_mem_toDigits (by decide) (by decide) hc
    rw [parse_bracketed htext hname Nat.toDigits_ne_nil hdigits, Text.digitsValue_toDigits]
    rfl

end Step

/-! ### Paths of one segment -/

theorem DotPath.segments_of_notMem {key : String} (h : '.' ∉ key.toList) :
    segments ⟨key⟩ = [key] := by
  rw [segments, Text.split_of_notMem h, List.map_singleton, String.ofList_toList]

namespace Value

/-- **A path without dots is looked up as the one segment that it is.** -/
theorem deep?_eq_shallow? {key : String} (h : '.' ∉ key.toList) (value : Value) :
    value.deep? key = value.shallow? key := by
  have hkey : key ≠ "." := by
    rintro rfl
    exact h List.mem_cons_self
  have hsegments := DotPath.segments_of_notMem h
  by_cases hread : Malformed key
  · have hfirst : DotPath.segments ⟨key⟩ = [] ++ key :: [] := hsegments
    rw [deep?_of_malformed hkey hfirst (List.forall_mem_nil _) hread,
      shallow?_of_parse_error (malformed_iff.mp hread)]
  · rw [deep?_eq_walk hkey (by rw [hsegments]; exact List.forall_mem_singleton.mpr hread),
      hsegments, walk_cons]
    cases hnull : value.isNull with
    | true =>
      rw [isNull_iff.mp hnull, shallow?_null hread]
      rfl
    | false =>
      rw [onward_of_not_null hnull]
      exact bind_pure _

/-! A name that is free of dots and brackets is a segment, and a path. -/

theorem shallow?_name {name : String} (h : (Access.field name).Plain) :
    ¬Malformed name ∧ ∀ value : Value, value.shallow? name = .ok (value.field? name) := by
  have hparse : Step.parse name = .ok ⟨name, name, none⟩ :=
    Step.parse_plain fun c hc => (h.of_mem_text hc).2
  refine ⟨fun hread => ?_, shallow?_of_parse hparse⟩
  rw [malformed_iff, hparse] at hread
  cases hread

theorem onward_name {name : String} (h : (Access.field name).Plain) (value : Value) :
    onward (some value) name = .ok (value.field? name) := by
  cases value with
  | null => rfl
  | _ => exact (shallow?_name h).2 _

/-- **A path of one name is looked up as a field.** -/
theorem deep?_name {name : String} (h : (Access.field name).Plain) (value : Value) :
    value.deep? name = .ok (value.field? name) := by
  have hdot : '.' ∉ name.toList := fun hc => (h.of_mem_text hc).1 rfl
  rw [deep?_eq_shallow? hdot, (shallow?_name h).2]

theorem node?_cons (value : Value) (access : Access) (rest : List Access) :
    value.node? (access :: rest) = (value.access? access).bind (·.node? rest) :=
  List.foldlM_cons

theorem node?_append (value : Value) (accesses rest : List Access) :
    value.node? (accesses ++ rest) = (value.node? accesses).bind (·.node? rest) :=
  List.foldlM_append

/-- **The step that a written segment spells leads where its accesses lead.** -/
theorem take_written {value node : Value} {segment : Written}
    (h : value.node? segment.accesses = some node) :
    Step.take ⟨segment.text, segment.head.text, segment.bracket.map UInt64.toNat⟩ value
      = .ok (some node) := by
  obtain ⟨head, bracket⟩ := segment
  rw [Written.accesses, node?_cons] at h
  obtain ⟨field, hfield, hnode⟩ := Option.bind_eq_some_iff.mp h
  have hplain := field?_text hfield
  cases bracket with
  | none =>
    obtain rfl : field = node := Option.some.inj hnode
    simp [Step.take, hplain]
  | some position =>
    have haccess : field.access? (.item position) = some node := by simpa [node?] using hnode
    obtain ⟨items, rfl, hitem⟩ := exists_itemAt?_of_access? haccess
    simp [Step.take, hplain, hitem]

theorem walk_written {value node : Value} {segments : List Written}
    (hplain : ∀ segment ∈ segments, segment.head.Plain)
    (h : value.node? (segments.flatMap Written.accesses) = some node) :
    value.walk (segments.map Written.text) = .ok (some node) := by
  induction segments generalizing value with
  | nil => exact congrArg Except.ok h
  | cons segment rest ih =>
    obtain ⟨hsegment, hrest⟩ := List.forall_mem_cons.mp hplain
    rw [List.flatMap_cons, node?_append] at h
    obtain ⟨next, hnext, hnode⟩ := Option.bind_eq_some_iff.mp h
    have hnull : value.isNull = false := by
      rw [Written.accesses, node?_cons] at hnext
      obtain ⟨_, hhead, -⟩ := Option.bind_eq_some_iff.mp hnext
      exact isNull_of_access? hhead
    rw [List.map_cons, walk_cons, onward_of_not_null hnull,
      shallow?_of_parse (Step.parse_written hsegment), take_written hnext]
    exact ih hrest hnode

/-- **Every node has a dotted path.** Spell the way to it with dots between the accesses, and any of
the positions in brackets behind an access that has no position behind it yet. Unless that gives the
dot alone, which only two empty names do, the text leads back to the node. -/
theorem deep?_spell {value node : Value} {accesses : List Access}
    (hnode : value.node? accesses = some node) (hne : accesses ≠ [])
    (hplain : ∀ access ∈ accesses, access.Plain) {segments : List Written}
    (hsegments : segments.flatMap Written.accesses = accesses) :
    (Written.spell segments ≠ "." → value.deep? (Written.spell segments) = .ok (some node))
      ∧ (Written.spell segments = "." ↔ accesses = [.field "", .field ""]) := by
  subst hsegments
  have hsome : segments ≠ [] := by
    rintro rfl
    exact hne rfl
  have hhead : ∀ segment ∈ segments, segment.head.Plain := by
    intro segment hsegment
    exact hplain _ (List.mem_flatMap.mpr ⟨segment, hsegment, List.mem_cons_self⟩)
  refine ⟨fun hdot => ?_, Written.spell_eq_dot_iff hsome hhead⟩
  have hread : ∀ text ∈ DotPath.segments ⟨Written.spell segments⟩, ¬Malformed text := by
    rw [Written.segments_spell hsome hhead]
    intro text htext
    obtain ⟨segment, hsegment, rfl⟩ := List.mem_map.mp htext
    rw [malformed_iff, Step.parse_written (hhead segment hsegment)]
    intro h
    cases h
  rw [deep?_eq_walk hdot hread, Written.segments_spell hsome hhead]
  exact walk_written hhead hnode

/-- A name that looks like a position, an empty name, and brackets where they may stand. -/
theorem deep?_spell_numeral_name :
    let inner : Value := .arr [.arr [.int 4]]
    let value : Value := .obj [("", .arr [.int 1, .obj [("0", inner)]])]
    let segments : List Written :=
      [⟨.field "", some 1⟩, ⟨.field "0", none⟩, ⟨.item 0, some 0⟩]
    Written.spell segments = "[1].0.0[0]"
      ∧ value.node? [.field "", .item 1, .field "0", .item 0, .item 0] = some (.int 4)
      ∧ value.deep? "[1].0.0[0]" = .ok (some (.int 4)) := by
  intro inner value segments
  have hspell : Written.spell segments = "[1].0.0[0]" := by decide
  have hnode : value.node? [.field "", .item 1, .field "0", .item 0, .item 0]
      = some (.int 4) := rfl
  have hplain : ∀ access ∈ [Access.field "", .item 1, .field "0", .item 0, .item 0],
      access.Plain := by simp [Access.Plain]
  have hsegments : segments.flatMap Written.accesses
      = [.field "", .item 1, .field "0", .item 0, .item 0] := rfl
  obtain ⟨hdeep, -⟩ := deep?_spell hnode (List.cons_ne_nil _ _) hplain hsegments
  exact ⟨hspell, hnode, hspell ▸ hdeep (by rw [hspell]; decide)⟩

end Value

end RecordQuery
