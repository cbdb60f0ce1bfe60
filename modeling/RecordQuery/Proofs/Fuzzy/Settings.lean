import RecordQuery.Fuzzy.Settings
import RecordQuery.Proofs.Numbers.Interval
import RecordQuery.Proofs.Values.Fields

/-!
# Settings by name and all at once

Settings change one at a time, and each value that is given to a name says by itself whether the
setting takes it. So what a sequence of changes comes to can be read off what was given: each
setting has the last value it took (`Options.foldl_set`). Nothing else matters, neither the order in
which different settings are given nor how they are spread over objects and calls.

Changing takes more values than reading does: whole doubles for a length, and lengths of any size,
which are cut down to the greatest one. What reading takes, changing takes in the same way. So an
object that can be read has the same effect if its fields are given to standard options, one by one.

## Last values

The last value that a setting takes is `(taken name take? given).getLastD old`: among what was
given, that which has the name and is taken, and the old value if there is none. A value that is not
taken is as good as not given. So a sequence of changes is a fold over a state of three independent
parts, and each part sees its own name only.

Calls come in two kinds, by name and by object. An object is the sequence of its fields, and a value
that is no object gives nothing.

## Showing

What is shown and given again must be taken. A switch is. A length is if it is not above the
greatest one. A limit that is infinite or not a number has no JSON number: it is shown as `null`,
which no limit takes. Both conditions are hypotheses of `Fuzzy.Options.configure_toValue`, and
nothing is asked of the options that are overwritten.

## Main definitions

* `Fuzzy.taken` — the values that were given to a name and taken
* `Fuzzy.Call` — a change by name, or by an object

## Main results

* `Fuzzy.takeLength?_eq_some_iff` — the values that a length takes
* `Fuzzy.Options.set_eq`, `foldl_set` — one change, and any number of them
* `Fuzzy.Options.settings_agree` — reading, showing, and sequences of calls
-/

namespace RecordQuery

namespace Fuzzy

/-! ### Taken values -/

/-- What a switch takes: a boolean. -/
def takeBool? : Value → Option Bool
  | .bool b => some b
  | _ => none

/-- What a length takes: a number that is a natural one. -/
def takeLength? : Value → Option Nat
  | .num n => length? n
  | _ => none

/-- The value is a natural number, written as an integer or as a double. -/
inductive IsNatural (m : Nat) : Value → Prop
  | int : IsNatural m (.num (.int m))
  | float {x : Binary64} (hfinite : x.isFinite = true)
      (hvalue : x.signedUnits = m * Binary64.unitsPerOne) : IsNatural m (.num (.float x))

/-- **A length takes natural numbers**, and the greatest length in place of a greater number. -/
theorem takeLength?_eq_some_iff {value : Value} {n : Nat} :
    takeLength? value = some n ↔ ∃ m, IsNatural m value ∧ n = min m lengthLimit := by
  constructor
  · intro h
    match value, h with
    | .num (.int i), h =>
      rw [takeLength?, length?, Option.ite_none_right_eq_some] at h
      obtain ⟨m, rfl⟩ := Int.eq_ofNat_of_zero_le h.1
      exact ⟨m, .int, (Option.some.inj h.2).symm⟩
    | .num (.float x), h =>
      obtain ⟨m, hm, rfl⟩ := Option.map_eq_some_iff.mp h
      obtain ⟨hfinite, hvalue⟩ := Binary64.toNat?_eq_some_iff.mp hm
      exact ⟨m, .float hfinite hvalue, rfl⟩
  · rintro ⟨m, hnatural, rfl⟩
    cases hnatural with
    | int =>
      rw [takeLength?, length?, if_pos (Int.natCast_nonneg m)]
      rfl
    | float hfinite hvalue =>
      rw [takeLength?, length?, Binary64.toNat?_eq_some_iff.mpr ⟨hfinite, hvalue⟩]
      rfl

variable {β : Type}

/-- What was given to the name and taken, in order. -/
def taken (name : String) (take? : Value → Option β) (given : Entries Value) : List β :=
  given.filterMap fun entry => if entry.1 = name then take? entry.2 else none

theorem getLastD_taken_cons (name : String) (take? : Value → Option β) (entry : String × Value)
    (given : Entries Value) (old : β) :
    (taken name take? (entry :: given)).getLastD old
      = (taken name take? given).getLastD
        ((if entry.1 = name then take? entry.2 else none).getD old) := by
  rw [taken, List.filterMap_cons]
  split
  · next h => rw [h]; rfl
  · next h => rw [h, List.getLastD_cons]; rfl

/-- If no name is given twice, the last value taken is the one found. -/
theorem getLastD_taken {name : String} {take? : Value → Option β} {fields : Entries Value}
    (h : (Entries.keys fields).Nodup) (old : β) :
    (taken name take? fields).getLastD old = ((fields.lookup name).bind take?).getD old := by
  induction fields generalizing old with
  | nil => rfl
  | cons entry rest ih =>
    obtain ⟨k, v⟩ := entry
    obtain ⟨hnew, hrest⟩ := List.nodup_cons.mp h
    rw [getLastD_taken_cons, ih hrest, Entries.lookup_cons_eq]
    by_cases hk : k = name
    · subst hk
      have hnone : rest.lookup k = none := by
        by_contra hsome
        obtain ⟨w, hw⟩ := Option.ne_none_iff_exists'.mp hsome
        exact hnew (Entries.mem_keys_of_lookup hw)
      simp [hnone]
    · simp [hk, Ne.symm hk]

namespace Options

/-! ### One change -/

theorem set_name (options : Options Binary64) (setting : Setting) (value : Value) :
    options.set setting.name value = (options.change? setting value).getD options := by
  have hname : Setting.ofName? setting.name = some setting := by cases setting <;> decide
  rw [set, hname, Option.bind_some]

theorem set_unknown {name : String} (h : ∀ setting : Setting, setting.name ≠ name)
    (options : Options Binary64) (value : Value) : options.set name value = options := by
  have hnone : Setting.ofName? name = none := by
    rw [Setting.ofName?, List.find?_eq_none]
    exact fun setting _ hname => h setting (beq_iff_eq.mp hname)
  rw [set, hnone]
  rfl

/-- **One change.** Each setting has the value given, if it is given to it and it takes it. -/
theorem set_eq (options : Options Binary64) (name : String) (value : Value) :
    options.set name value =
      ⟨(if name = "ignoreCase" then takeBool? value else none).getD options.ignoreCase,
        (if name = "minLength" then takeLength? value else none).getD options.minLength,
        (if name = "fuzzyLimit" then value.toBinary64? else none).getD options.limit⟩ := by
  by_cases h : ∃ setting : Setting, setting.name = name
  · obtain ⟨setting, rfl⟩ := h
    rw [set_name]
    cases setting with
    | ignoreCase => cases value <;> rfl
    | minLength =>
      cases value with
      | num n =>
        cases hlength : length? n with
        | none => simp [Setting.name, change?, takeLength?, hlength]
        | some length => simp [Setting.name, change?, takeLength?, hlength]
      | _ => rfl
    | limit => cases value <;> rfl
  · push Not at h
    have hcase : name ≠ "ignoreCase" := (h .ignoreCase).symm
    have hlength : name ≠ "minLength" := (h .minLength).symm
    have hlimit : name ≠ "fuzzyLimit" := (h .limit).symm
    rw [set_unknown h, if_neg hcase, if_neg hlength, if_neg hlimit]
    rfl

/-! ### Any number of changes -/

/-- **Any number of changes.** Each setting has the last value it took. -/
theorem foldl_set (options : Options Binary64) (given : Entries Value) :
    given.foldl (fun options entry => options.set entry.1 entry.2) options =
      ⟨(taken "ignoreCase" takeBool? given).getLastD options.ignoreCase,
        (taken "minLength" takeLength? given).getLastD options.minLength,
        (taken "fuzzyLimit" Value.toBinary64? given).getLastD options.limit⟩ := by
  induction given generalizing options with
  | nil => rfl
  | cons entry given ih =>
    rw [List.foldl_cons, ih, set_eq, getLastD_taken_cons, getLastD_taken_cons,
      getLastD_taken_cons]

theorem configure_eq {fields : Entries Value} (h : (Entries.keys fields).Nodup)
    (options : Options Binary64) : options.configure (.obj fields) =
      ⟨((fields.lookup "ignoreCase").bind takeBool?).getD options.ignoreCase,
        ((fields.lookup "minLength").bind takeLength?).getD options.minLength,
        ((fields.lookup "fuzzyLimit").bind Value.toBinary64?).getD options.limit⟩ := by
  rw [← getLastD_taken h, ← getLastD_taken h, ← getLastD_taken h, ← foldl_set]
  rfl

/-! ### Reading -/

/-- What reading takes, changing takes in the same way. -/
theorem change?_of_read? {options options' : Options Binary64} {setting : Setting} {value : Value}
    (h : options.read? setting value = some options') :
    options.change? setting value = some options' := by
  match setting, value, h with
  | .ignoreCase, .bool _, h => exact h
  | .minLength, .num (.int n), h =>
    rw [read?, Option.ite_none_right_eq_some] at h
    obtain ⟨⟨hnonneg, hle⟩, h⟩ := h
    have hmin : min n.toNat lengthLimit = n.toNat := by omega
    rw [change?, length?, if_pos hnonneg, hmin, Option.map_some, h]
  | .limit, .num _, h => exact h

theorem eq_of_readField {fields : Entries Value} {options options' : Options Binary64}
    {setting : Setting}
    (h : (match fields.lookup setting.name with
      | none => some options
      | some value => options.read? setting value) = some options') :
    options' =
      ⟨(if setting = .ignoreCase then (fields.lookup "ignoreCase").bind takeBool? else none).getD
          options.ignoreCase,
        (if setting = .minLength then (fields.lookup "minLength").bind takeLength? else none).getD
          options.minLength,
        (if setting = .limit then
          (fields.lookup "fuzzyLimit").bind Value.toBinary64? else none).getD options.limit⟩ := by
  split at h
  · next hnone =>
    cases h
    cases setting <;> rw [Setting.name] at hnone <;> rw [hnone] <;> rfl
  · next value hsome =>
    have hset : options' = options.set setting.name value := by
      rw [set_name, change?_of_read? h, Option.getD_some]
    rw [hset, set_eq]
    cases setting <;> rw [Setting.name] at hsome <;> rw [hsome] <;> rfl

theorem eq_of_ofValue? {fields : Entries Value} {options : Options Binary64}
    (h : ofValue? (.obj fields) = some options) :
    let standard : Options Binary64 := .standard
    options = ⟨((fields.lookup "ignoreCase").bind takeBool?).getD standard.ignoreCase,
      ((fields.lookup "minLength").bind takeLength?).getD standard.minLength,
      ((fields.lookup "fuzzyLimit").bind Value.toBinary64?).getD standard.limit⟩ := by
  simp only [ofValue?, Setting.all, List.foldlM_cons, List.foldlM_nil, Option.bind_eq_bind,
    Option.bind_eq_some_iff] at h
  obtain ⟨_, hcase, _, hlength, options', hlimit, h⟩ := h
  cases h
  rw [eq_of_readField hlimit, eq_of_readField hlength, eq_of_readField hcase]
  rfl

/-! ### Showing -/

/-- **Options that are shown and given to others make these the same.** A length is not above the
greatest one that can be set, and only a finite limit has a JSON number. -/
theorem configure_toValue {options : Options Binary64} (hlimit : options.limit.isFinite = true)
    (hlength : options.minLength ≤ lengthLimit) (prior : Options Binary64) :
    prior.configure options.toValue = options := by
  have hkeys : (Entries.keys
      (Setting.all.map fun setting => (setting.name, options.value setting))).Nodup := by
    show ["ignoreCase", "minLength", "fuzzyLimit"].Nodup
    decide
  have htakeLength : takeLength? (options.value .minLength) = some options.minLength :=
    takeLength?_eq_some_iff.mpr ⟨options.minLength, .int, (min_eq_left hlength).symm⟩
  have htakeLimit : (options.value .limit).toBinary64? = some options.limit := by
    rw [value, Value.float, if_pos hlimit]
    rfl
  rw [toValue, Value.ofEntries, configure_eq (Entries.ascending_sorted _).nodup,
    Entries.lookup_sorted hkeys, Entries.lookup_sorted hkeys, Entries.lookup_sorted hkeys]
  show Options.mk ((takeBool? (options.value .ignoreCase)).getD _)
    ((takeLength? (options.value .minLength)).getD _)
    ((options.value .limit).toBinary64?.getD _) = options
  rw [htakeLength, htakeLimit]
  rfl

end Options

/-! ### Calls -/

/-- A change of settings: by an object, or by name. -/
inductive Call
  | whole (config : Value)
  | single (name : String) (value : Value)

namespace Call

/-- The options after a call. -/
def apply (options : Options Binary64) : Call → Options Binary64
  | .whole config => options.configure config
  | .single name value => options.set name value

/-- The values that a call gives to names, in order. -/
def given : Call → Entries Value
  | .whole (.obj fields) => fields
  | .whole _ => []
  | .single name value => [(name, value)]

theorem apply_eq_foldl (options : Options Binary64) (call : Call) :
    call.apply options
      = call.given.foldl (fun options entry => options.set entry.1 entry.2) options := by
  match call with
  | .single _ _ => rfl
  | .whole config => cases config <;> rfl

end Call

namespace Options

theorem foldl_apply (prior : Options Binary64) (calls : List Call) :
    calls.foldl Call.apply prior
      = (calls.flatMap Call.given).foldl (fun options entry => options.set entry.1 entry.2)
        prior := by
  rw [List.foldl_flatMap]
  exact congrArg (calls.foldl · prior) (funext₂ Call.apply_eq_foldl)

/-- **Settings agree, however they are given.** Options read from an object of different keys are
those that come of giving the object to the standard ones. Options that are shown and given to
others make these the same. After any calls, each setting has the last value among those given to
its name that it takes, or the value that it had if there is none. A length takes natural numbers,
however they are written. -/
theorem settings_agree :
    (∀ (fields : Entries Value) (options : Options Binary64), (Entries.keys fields).Nodup →
        ofValue? (.obj fields) = some options →
        (standard : Options Binary64).configure (.obj fields) = options)
      ∧ (∀ options prior : Options Binary64, options.limit.isFinite = true →
        options.minLength ≤ lengthLimit → prior.configure options.toValue = options)
      ∧ (∀ (prior : Options Binary64) (calls : List Call),
        let given := calls.flatMap Call.given
        calls.foldl Call.apply prior =
          ⟨(taken "ignoreCase" takeBool? given).getLastD prior.ignoreCase,
            (taken "minLength" takeLength? given).getLastD prior.minLength,
            (taken "fuzzyLimit" Value.toBinary64? given).getLastD prior.limit⟩)
      ∧ ∀ (value : Value) (n : Nat),
        takeLength? value = some n ↔ ∃ m, IsNatural m value ∧ n = min m lengthLimit := by
  refine ⟨fun fields options hkeys hread => ?_, fun options prior hlimit hlength => ?_,
    fun prior calls => ?_, fun value n => takeLength?_eq_some_iff⟩
  · rw [configure_eq hkeys, eq_of_ofValue? hread]
  · exact configure_toValue hlimit hlength prior
  · rw [foldl_apply, foldl_set]

/-- An integer is a limit, a whole double is a length for a call, and a text is not. -/
theorem settings_agree_coerced :
    let fields : Entries Value := [("fuzzyLimit", .int 1), ("minLength", .int 2), ("other", .null)]
    let options : Options Binary64 := ⟨true, 2, 1.0⟩
    let calls : List Call :=
      [.whole (.obj [("ignoreCase", .bool false), ("minLength", .float 2.0)]),
        .single "minLength" (.str "two")]
    (Entries.keys fields).Nodup ∧ ofValue? (.obj fields) = some options
      ∧ (standard : Options Binary64).configure (.obj fields) = options
      ∧ options.limit.isFinite = true ∧ options.minLength ≤ lengthLimit
      ∧ (standard : Options Binary64).configure options.toValue = options
      ∧ calls.foldl Call.apply options = ⟨false, 2, 1.0⟩ := by
  intro fields options calls
  have hkeys : (Entries.keys fields).Nodup := by decide
  have hread : ofValue? (.obj fields) = some options := by decide +kernel
  have hlimit : options.limit.isFinite = true := by decide +kernel
  have hlength : options.minLength ≤ lengthLimit := by decide +kernel
  obtain ⟨hobject, hshown, hcalls, -⟩ := settings_agree
  refine ⟨hkeys, hread, hobject fields options hkeys hread, hlimit, hlength,
    hshown options standard hlimit hlength, ?_⟩
  rw [hcalls]
  decide +kernel

end Options

end Fuzzy

end RecordQuery
