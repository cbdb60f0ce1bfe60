import RecordQuery.Text.Lowercase

/-!
# Settled texts

A text in lower case is its own lower case. The table decides it: no run of characters that change
leads into such a run. So a character that comes out of the table is not looked up again, and
neither is one that was not found there. Such characters are settled, and settled characters stay
what they are whatever stands around them. In particular, pieces of a text in lower case may be put
together anew.

## Checking the table

The runs hold some fourteen hundred code points. Comparing every one that is led somewhere with
every one that changes would take a long time; so the two sets are written as two numbers, a bit for
each code point, and the numbers have no bit in common.

## Characters that depend on their place

The capital sigma is the only character whose lower case depends on what is around it, and it never
comes out of the lower case of anything. So a text in lower case contains no character that depends
on its place, and all of its characters are settled wherever they stand. This is why the statement
can be made for characters and needs no context.

A character that the table does not have is its own lower case. A character that a run leads
somewhere is replaced by another one, and then it has to be known that no run has this one.

## Implementation notes

Code points that stand for no character are not excluded from the check. `Char.ofNat` takes them to
a character that is settled (`Text.settled_ofNat`), so it does not matter whether a run could lead
to one of them.

## Main definitions

* `Text.Settled` — a character that is its own lower case, wherever it stands
* `Text.changing` — the runs of characters that change

## Main results

* `Text.lowercase_of_settled` — a settled text is its own lower case
* `Text.lead_notMem_changing` — no run leads into a run
* `Text.settled_of_mem_lowercase` — the lower case of a text is settled
* `Text.lowercase_lowercase` — lower case is taken once and for all
-/

namespace RecordQuery

namespace Text

/-! ### Settled characters -/

/-- A character that is its own lower case, wherever it stands. -/
def Settled (c : Char) : Prop := c ≠ capitalSigma ∧ lowercaseChar c = [c]

instance : DecidablePred Settled := fun _ => inferInstanceAs (Decidable (_ ∧ _))

theorem lowercaseAfter_of_settled {text : List Char} (h : ∀ c ∈ text, Settled c)
    (before : List Char) : lowercaseAfter before text = text := by
  induction text generalizing before with
  | nil => rfl
  | cons c rest ih =>
    obtain ⟨⟨hsigma, hchar⟩, hrest⟩ := List.forall_mem_cons.mp h
    rw [lowercaseAfter, if_neg hsigma, hchar, ih hrest, List.singleton_append]

/-- **A settled text is its own lower case.** -/
theorem lowercase_of_settled {text : List Char} (h : ∀ c ∈ text, Settled c) :
    lowercase text = text :=
  lowercaseAfter_of_settled h []

/-- The exceptions to the table come out settled. -/
theorem settled_exceptions :
    Settled 'i' ∧ Settled (Char.ofNat 0x307) ∧ Settled 'ς' ∧ Settled 'σ' := by
  decide +kernel

/-! ### Sets of code points -/

/-- A set of code points as a number: the bit of each is set. -/
def bits (codes : List Nat) : Nat := codes.foldr (fun code set => set ||| 1 <<< code) 0

theorem testBit_bits {codes : List Nat} {code : Nat} :
    (bits codes).testBit code = true ↔ code ∈ codes := by
  induction codes with
  | nil => simp [bits]
  | cons first codes ih =>
    have hcons : bits (first :: codes) = bits codes ||| 1 <<< first := rfl
    rw [hcons, Nat.testBit_or, Bool.or_eq_true, ih, Nat.one_shiftLeft, Nat.testBit_two_pow,
      decide_eq_true_eq, List.mem_cons, or_comm, eq_comm]

/-- Sets whose numbers have no bit in common have no member in common. -/
theorem notMem_of_bits_and_eq_zero {codes codes' : List Nat} (h : bits codes &&& bits codes' = 0)
    {code : Nat} (hmem : code ∈ codes) : code ∉ codes' := by
  intro hmem'
  have hboth : (bits codes &&& bits codes').testBit code = true := by
    rw [Nat.testBit_and, testBit_bits.mpr hmem, testBit_bits.mpr hmem', Bool.and_self]
  rw [h, Nat.zero_testBit] at hboth
  cases hboth

/-! ### Runs -/

/-- A run of the table: its first code point, its last, the step and the shift. -/
abbrev Run := Nat × Nat × Nat × Int

/-- The code points of a run. -/
def codes : Run → List Nat
  | (first, last, step, _) => (List.range ((last - first) / step + 1)).map (first + step * ·)

/-- Where a run leads a code point. -/
def lead : Run → Nat → Nat
  | (_, _, _, shift), code => (code + shift).toNat

theorem mem_codes {first last step code : Nat} {shift : Int} (hfirst : first ≤ code)
    (hlast : code ≤ last) (hstep : (code - first) % step = 0) :
    code ∈ codes (first, last, step, shift) := by
  refine List.mem_map.mpr ⟨(code - first) / step, List.mem_range.mpr ?_, ?_⟩
  · have hle : (code - first) / step ≤ (last - first) / step :=
      Nat.div_le_div_right (Nat.sub_le_sub_right hlast first)
    omega
  · rw [Nat.mul_div_cancel' (Nat.dvd_of_mod_eq_zero hstep), Nat.add_sub_cancel' hfirst]

/-- Looking a code point up finds the run that leads it. -/
theorem exists_run_of_shifted? {runs : List Run} {code target : Nat}
    (h : shifted? runs code = some target) :
    ∃ run ∈ runs, code ∈ codes run ∧ lead run code = target := by
  obtain ⟨⟨first, last, step, shift⟩, hfound, rfl⟩ := Option.map_eq_some_iff.mp h
  have hholds := List.find?_some hfound
  simp only [Bool.and_eq_true, decide_eq_true_eq, beq_iff_eq] at hholds
  obtain ⟨⟨hfirst, hlast⟩, hstep⟩ := hholds
  exact ⟨_, List.mem_of_find?_eq_some hfound, mem_codes hfirst hlast hstep, rfl⟩

theorem shifted?_capitalSigma : shifted? lowercaseRuns capitalSigma.toNat = some 'σ'.toNat := by
  decide +kernel

/-! ### The characters that change -/

/-- The capitals of ASCII, as a run. -/
def asciiCapitals : Run := (0x41, 0x5A, 1, 32)

theorem lowercaseChar_ascii {c : Char} (h : c.toNat < 0x80) :
    lowercaseChar c = [c] ∨ c.toNat ∈ codes asciiCapitals ∧
      lowercaseChar c = [Char.ofNat (lead asciiCapitals c.toNat)] := by
  have hall : ∀ code < 0x80, lowercaseChar (Char.ofNat code) = [Char.ofNat code] ∨
      code ∈ codes asciiCapitals ∧
        lowercaseChar (Char.ofNat code) = [Char.ofNat (lead asciiCapitals code)] := by
    decide +kernel
  have hchar := hall c.toNat h
  rwa [Char.ofNat_toNat] at hchar

/-- The runs of characters that change. The capital I with a dot stands for itself: it leads to the
first of its two characters. -/
def changing : List Run := asciiCapitals :: (0x130, 0x130, 1, -199) :: lowercaseRuns

theorem mem_changing_of_mem {run : Run} (h : run ∈ lowercaseRuns) : run ∈ changing :=
  List.mem_cons_of_mem _ (List.mem_cons_of_mem _ h)

theorem bits_changing_apart :
    bits (changing.flatMap fun run => (codes run).map (lead run)) &&& bits (changing.flatMap codes)
      = 0 := by
  decide +kernel

/-- **No run leads into a run.** -/
theorem lead_notMem_changing {run : Run} (hrun : run ∈ changing) {code : Nat}
    (hcode : code ∈ codes run) : lead run code ∉ changing.flatMap codes :=
  notMem_of_bits_and_eq_zero bits_changing_apart
    (List.mem_flatMap.mpr ⟨run, hrun, List.mem_map_of_mem hcode⟩)

/-- What taking a character in lower case can do: leave it, split the capital I with a dot, or lead
it along its run. -/
theorem lowercaseChar_cases (c : Char) :
    lowercaseChar c = [c] ∨ c = 'İ' ∧ lowercaseChar c = dottedI ∨
      ∃ run ∈ changing, c.toNat ∈ codes run ∧
        lowercaseChar c = [Char.ofNat (lead run c.toNat)] := by
  by_cases hascii : c.toNat < 0x80
  · rcases lowercaseChar_ascii hascii with hself | ⟨hcode, hled⟩
    · exact .inl hself
    · exact .inr (.inr ⟨asciiCapitals, List.mem_cons_self, hcode, hled⟩)
  · rw [lowercaseChar, if_neg hascii]
    split
    · next hdotted => exact .inr (.inl ⟨hdotted, rfl⟩)
    · split
      · next target htarget =>
        obtain ⟨run, hrun, hcode, rfl⟩ := exists_run_of_shifted? htarget
        exact .inr (.inr ⟨run, mem_changing_of_mem hrun, hcode, rfl⟩)
      · exact .inl rfl

theorem settled_of_notMem_changing {c : Char} (h : c.toNat ∉ changing.flatMap codes) :
    Settled c := by
  have hmem {run : Run} (hrun : run ∈ changing) : c.toNat ∉ codes run :=
    fun hcode => h (List.mem_flatMap.mpr ⟨run, hrun, hcode⟩)
  constructor
  · -- the table has the capital sigma, though it is not looked up for it
    rintro rfl
    obtain ⟨run, hrun, hcode, -⟩ := exists_run_of_shifted? shifted?_capitalSigma
    exact hmem (mem_changing_of_mem hrun) hcode
  · rcases lowercaseChar_cases c with hself | ⟨rfl, -⟩ | ⟨run, hrun, hcode, -⟩
    · exact hself
    · exact absurd (by decide) (hmem (List.mem_cons_of_mem _ List.mem_cons_self))
    · exact absurd hcode (hmem hrun)

/-- What a code point of no run stands for is settled, also where it stands for nothing. -/
theorem settled_ofNat {code : Nat} (h : code ∉ changing.flatMap codes) :
    Settled (Char.ofNat code) := by
  by_cases hvalid : code.isValidChar
  · have hcode : (Char.ofNat code).toNat = code := by
      rw [Char.ofNat, dif_pos hvalid]
      rfl
    exact settled_of_notMem_changing (by rwa [hcode])
  · rw [Char.ofNat, dif_neg hvalid]
    decide

/-! ### The lower case of a text -/

theorem settled_of_mem_lowercaseChar {c d : Char} (hsigma : c ≠ capitalSigma)
    (hd : d ∈ lowercaseChar c) : Settled d := by
  rcases lowercaseChar_cases c with hself | ⟨-, hdotted⟩ | ⟨run, hrun, hcode, hled⟩
  · rw [hself, List.mem_singleton] at hd
    rw [hd]
    exact ⟨hsigma, hself⟩
  · rw [hdotted, dottedI, List.mem_cons, List.mem_singleton] at hd
    rcases hd with rfl | rfl
    · exact settled_exceptions.1
    · exact settled_exceptions.2.1
  · rw [hled, List.mem_singleton] at hd
    rw [hd]
    exact settled_ofNat (lead_notMem_changing hrun hcode)

theorem settled_of_mem_lowercaseAfter {before text : List Char} {d : Char}
    (hd : d ∈ lowercaseAfter before text) : Settled d := by
  induction text generalizing before with
  | nil => cases hd
  | cons c rest ih =>
    rw [lowercaseAfter, List.mem_append] at hd
    rcases hd with hd | hd
    · split at hd
      · rw [List.mem_singleton] at hd
        rw [hd]
        split
        · exact settled_exceptions.2.2.1
        · exact settled_exceptions.2.2.2
      · next hsigma => exact settled_of_mem_lowercaseChar hsigma hd
    · exact ih hd

/-- **The lower case of a text is settled.** -/
theorem settled_of_mem_lowercase {text : List Char} {d : Char} (hd : d ∈ lowercase text) :
    Settled d :=
  settled_of_mem_lowercaseAfter hd

/-- **Lower case is taken once and for all.** -/
theorem lowercase_lowercase (text : List Char) : lowercase (lowercase text) = lowercase text :=
  lowercase_of_settled fun _ hd => settled_of_mem_lowercase hd

end Text

end RecordQuery
