import RecordQuery.Text.Split
import Mathlib.Data.List.Infix
import Mathlib.Order.Bounds.Defs

/-!
# Texts as bytes

A text is stored as the bytes of its characters, and found by comparing bytes. An offset at which
bytes agree could lie within a character. It never does, unless the piece that is found is empty:
the first byte of a character is never one of its later bytes, so an occurrence begins where a
character begins, and bytes that agree from there on are the same characters. So the leftmost
occurrence of characters is the leftmost occurrence of bytes, and a text can be sliced there.

## What an occurrence is

A search for a text is made on bytes, and what it returns is an offset in bytes. To say that it is
right one has to know that the characters stand there, and that no occurrence at a smaller offset
was missed, not even one that no character begins at. The argument has two parts:

* the first byte of a character tells how many bytes it has, so bytes at the start of a text are
  characters at its start (`Text.prefix_of_bytes_prefix`);
* the first byte of a character never stands within another one, so an occurrence cannot begin
  inside a character (`Text.eq_zero_of_prefix_drop`).

The empty piece is excluded, since it occurs at every offset, within characters too.

## Implementation notes

The search of the program cuts a text at the first place where a piece stands, as a recursion on
characters (`Text.cut?`). It is compared with occurrences of bytes, and not with a second search.
That the offset it gives is the least one is said with `IsLeast`, of the set of all offsets at which
the bytes of the piece stand.

## Main definitions

* `Text.bytes` — the bytes of a text
* `Text.OccursAt` — the bytes of a piece stand at an offset

## Main results

* `Text.eq_of_occursAt` — an occurrence begins and ends with characters
* `Text.isLeast_occursAt_of_cut?` — the leftmost occurrence has the least offset
* `Text.exists_pos_splits` — an offset after some characters is a position of the string
-/

namespace RecordQuery

namespace Text

/-- The bytes of the characters of a text. -/
def bytes (text : List Char) : List UInt8 := text.flatMap String.utf8EncodeChar

/-- The bytes of the piece stand at an offset into the bytes of the text. -/
def OccursAt (piece text : List Char) (offset : Nat) : Prop :=
  bytes piece <+: (bytes text).drop offset

/-! ### Bytes -/

theorem bytes_cons (c : Char) (text : List Char) :
    bytes (c :: text) = String.utf8EncodeChar c ++ bytes text := List.flatMap_cons

theorem bytes_append (left right : List Char) : bytes (left ++ right) = bytes left ++ bytes right :=
  List.flatMap_append

theorem utf8ByteSize_ofList (text : List Char) :
    (String.ofList text).utf8ByteSize = (bytes text).length := by
  rw [← String.size_toByteArray, String.toByteArray_ofList]
  exact List.size_toByteArray

/-- Bytes at the start are characters at the start. -/
theorem prefix_of_bytes_prefix {piece text : List Char} (h : bytes piece <+: bytes text) :
    piece <+: text := by
  obtain ⟨rest, hrest⟩ := h
  have harray : piece.utf8Encode ++ rest.toByteArray = text.utf8Encode := by
    rw [List.utf8Encode, List.utf8Encode, ← List.toByteArray_append]
    exact congrArg List.toByteArray hrest
  exact List.isPrefix_of_utf8Encode_append_eq_utf8Encode _ harray

/-- The first byte of a character does not stand within another one. -/
theorem eq_zero_of_prefix_drop {piece rest : List Char} {c : Char} {offset : Nat}
    (hne : piece ≠ []) (hlt : offset < (String.utf8EncodeChar c).length)
    (h : bytes piece <+: (String.utf8EncodeChar c).drop offset ++ bytes rest) : offset = 0 := by
  obtain ⟨d, piece, rfl⟩ := List.exists_cons_of_ne_nil hne
  have hlead : (String.utf8EncodeChar d)[0]? = (String.utf8EncodeChar c)[offset]? := by
    obtain ⟨tail, htail⟩ := h
    have hd : 0 < (String.utf8EncodeChar d).length :=
      List.length_pos_iff.mpr String.utf8EncodeChar_ne_nil
    have hzero := congrArg (·[0]?) htail
    simp only [bytes_cons, List.append_assoc] at hzero
    rwa [List.getElem?_append_left hd, List.getElem?_append_left (by rw [List.length_drop]; omega),
      List.getElem?_drop, Nat.add_zero] at hzero
  obtain ⟨hd, heq⟩ := List.getElem?_eq_some_iff.mp
    (hlead.trans (List.getElem?_eq_getElem hlt))
  have hfirst : (String.utf8EncodeChar c)[offset].IsUTF8FirstByte := by
    rw [← heq]
    exact UInt8.isUTF8FirstByte_getElem_utf8EncodeChar.mpr rfl
  exact UInt8.isUTF8FirstByte_getElem_utf8EncodeChar.mp hfirst

/-- **An occurrence begins and ends with characters.** -/
theorem eq_of_occursAt {piece text : List Char} {offset : Nat} (hne : piece ≠ [])
    (h : OccursAt piece text offset) :
    ∃ before after, text = before ++ piece ++ after ∧ (bytes before).length = offset := by
  induction text generalizing offset with
  | nil =>
    rw [OccursAt, show bytes [] = [] from rfl, List.drop_nil] at h
    obtain ⟨c, piece, rfl⟩ := List.exists_cons_of_ne_nil hne
    rw [bytes_cons, List.prefix_nil, List.append_eq_nil_iff] at h
    exact absurd h.1 String.utf8EncodeChar_ne_nil
  | cons c rest ih =>
    rw [OccursAt, bytes_cons, List.drop_append] at h
    rcases Nat.lt_or_ge offset (String.utf8EncodeChar c).length with hlt | hge
    · -- within the first character there is only its start
      rw [Nat.sub_eq_zero_of_le hlt.le, List.drop_zero] at h
      obtain rfl := eq_zero_of_prefix_drop hne hlt h
      rw [List.drop_zero, ← bytes_cons] at h
      obtain ⟨after, hafter⟩ := prefix_of_bytes_prefix h
      exact ⟨[], after, hafter.symm, rfl⟩
    · rw [List.drop_of_length_le hge, List.nil_append] at h
      obtain ⟨before, after, rfl, hlength⟩ := ih h
      refine ⟨c :: before, after, rfl, ?_⟩
      rw [bytes_cons, List.length_append, hlength]
      omega

theorem occursAt_append (before piece after : List Char) :
    OccursAt piece (before ++ piece ++ after) (bytes before).length := by
  rw [OccursAt, List.append_assoc, bytes_append, List.drop_left, bytes_append]
  exact List.prefix_append _ _

/-! ### The leftmost occurrence -/

/-- Of all texts before an occurrence, cutting gives the shortest. -/
theorem length_le_of_cut? {piece text before after before' after' : List Char}
    (h : cut? piece text = some (before, after)) (h' : text = before' ++ piece ++ after') :
    before.length ≤ before'.length := by
  induction text generalizing before before' with
  | nil =>
    rw [cut?] at h
    split at h <;> cases h
    exact Nat.zero_le _
  | cons c rest ih =>
    rw [cut?] at h
    split at h
    · cases h
      exact Nat.zero_le _
    · next hbegins =>
      obtain ⟨⟨front, back⟩, hcut, heq⟩ := Option.map_eq_some_iff.mp h
      cases heq
      cases before' with
      | nil =>
        rw [List.isPrefixOf_iff_prefix, h'] at hbegins
        exact absurd (List.prefix_append _ _) hbegins
      | cons d before' =>
        cases h'
        exact Nat.succ_le_succ (ih hcut rfl)

/-- **The leftmost occurrence has the least offset**, counted in bytes. -/
theorem isLeast_occursAt_of_cut? {piece text before after : List Char}
    (h : cut? piece text = some (before, after)) :
    IsLeast {offset | OccursAt piece text offset} (bytes before).length := by
  have hsplit := eq_of_cut? h
  refine ⟨?_, fun offset hoffset => ?_⟩
  · rw [hsplit]
    exact occursAt_append before piece after
  · by_cases hne : piece = []
    · subst hne
      have hlength := length_le_of_cut? h (show text = [] ++ [] ++ text from rfl)
      rw [List.length_nil, Nat.le_zero, List.length_eq_zero_iff] at hlength
      rw [hlength]
      exact Nat.zero_le offset
    · obtain ⟨before', after', hsplit', rfl⟩ := eq_of_occursAt hne hoffset
      have hlength := length_le_of_cut? h hsplit'
      have hbefore : before <+: text := ⟨piece ++ after, by rw [hsplit, List.append_assoc]⟩
      have hbefore' : before' <+: text := ⟨piece ++ after', by rw [hsplit', List.append_assoc]⟩
      obtain ⟨rest, rfl⟩ := List.prefix_of_prefix_length_le hbefore hbefore' hlength
      rw [bytes_append, List.length_append]
      exact Nat.le_add_right _ _

/-! ### Positions of a string -/

/-- **The offset after some characters is a position of the string**, and splits it there. -/
theorem exists_pos_splits {text before after : List Char} (h : text = before ++ after) :
    ∃ position : (String.ofList text).Pos,
      position.Splits (String.ofList before) (String.ofList after)
        ∧ position.offset.byteIdx = (bytes before).length := by
  have hsplit : String.ofList text = String.ofList before ++ String.ofList after := by
    rw [h, String.ofList_append]
  have hvalid : (String.ofList before).rawEndPos.IsValid (String.ofList text) :=
    String.Pos.Raw.isValid_iff_exists_append.mpr ⟨_, _, hsplit, rfl⟩
  exact ⟨⟨_, hvalid⟩, ⟨hsplit, rfl⟩, utf8ByteSize_ofList before⟩

end Text

end RecordQuery
