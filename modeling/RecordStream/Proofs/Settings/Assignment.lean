import Mathlib.Data.List.Induction
import RecordStream.Context
import RecordStream.Proofs.Settings.Json

/-!
# Assignments of settings

Settings are assigned in a draft, call by call, or as the members of an object, and a context takes
them as they are.  Whichever way they come, the last assignment of a field counts, a field that is
never assigned has its default (`Yields`), and the same settings are refused for the same fault
(`ofJson_eq_build`).
-/

namespace RecordStream.Settings

variable {calls as : List (Field × UInt64)} {s : Settings} {fault : Fault}

/-- The value that the last assignment of a field gives it, if there is one. -/
def given? (calls : List (Field × UInt64)) (f : Field) : Option UInt64 :=
  calls.reverse.lookup f

/-- The settings have the values that are given by the assignments, and their defaults elsewhere. -/
def Yields (calls : List (Field × UInt64)) (s : Settings) : Prop :=
  ∀ f, s.get f = (given? calls f).getD (default.get f)

/-- The assignments `as` are of the fields that the calls assign, each of them once and with the
value that it was given last. -/
structure Summarizes (as calls : List (Field × UInt64)) : Prop where
  nodup : (as.map (·.1)).Nodup
  lookup_eq : ∀ f, as.lookup f = given? calls f

theorem given?_append_singleton (calls : List (Field × UInt64)) (a : Field × UInt64) (f : Field) :
    given? (calls ++ [a]) f = if f = a.1 then some a.2 else given? calls f := by
  rw [given?, List.reverse_append, List.reverse_singleton, List.singleton_append, List.lookup_cons]
  by_cases h : f = a.1
  · simp [h]
  · rw [beq_eq_false_iff_ne.2 h, if_neg h, given?]

/-! ## What assignments lead to -/

theorem get?_draft (calls : List (Field × UInt64)) (f : Field) :
    (draft calls).get? f = given? calls f := by
  induction calls using List.reverseRecOn with
  | nil => exact Draft.get?_empty f
  | append_singleton calls a ih =>
    rw [given?_append_singleton, draft, List.foldl_append, List.foldl_cons, List.foldl_nil,
      Draft.get?_put, ← ih]
    rfl

theorem yields_draft (calls : List (Field × UInt64)) : Yields calls (draft calls).settings := by
  intro f
  rw [Draft.get_settings, get?_draft]

theorem Yields.eq {t : Settings} (hs : Yields calls s) (ht : Yields calls t) : s = t :=
  ext_get fun f => by rw [hs f, ht f]

theorem Summarizes.yields (h : Summarizes as calls) : Yields calls (ofAssignments as) := by
  intro f
  rw [← h.lookup_eq]
  cases f <;> rfl

/-- Every setting comes of assignments. -/
theorem yields_entries (s : Settings) : Yields s.entries s := by
  intro f
  cases f <;> rfl

/-- The given fields among those of a list, with the values that they have been given. -/
def summary (calls : List (Field × UInt64)) (fs : List Field) : List (Field × UInt64) :=
  fs.filterMap fun f => (given? calls f).map (f, ·)

theorem sublist_summary (calls : List (Field × UInt64)) (fs : List Field) :
    ((summary calls fs).map (·.1)).Sublist fs := by
  induction fs with
  | nil => exact .slnil
  | cons f fs ih =>
    cases h : given? calls f with
    | none =>
      rw [summary, List.filterMap_cons_none (by rw [h]; rfl)]
      exact ih.cons f
    | some v =>
      rw [summary, List.filterMap_cons_some (by rw [h]; rfl)]
      exact ih.cons_cons f

theorem lookup_summary (calls : List (Field × UInt64)) (fs : List Field) (f : Field) :
    (summary calls fs).lookup f = if f ∈ fs then given? calls f else none := by
  induction fs with
  | nil => rfl
  | cons g fs ih =>
    cases h : given? calls g with
    | none =>
      rw [summary, List.filterMap_cons_none (by rw [h]; rfl), ← summary, ih]
      by_cases hg : f = g
      · simp [hg, h]
      · simp [hg]
    | some v =>
      rw [summary, List.filterMap_cons_some (by rw [h]; rfl), ← summary, List.lookup_cons, ih]
      by_cases hg : f = g
      · simp [hg, h]
      · rw [beq_eq_false_iff_ne.2 hg]
        simp [hg]

theorem exists_summarizes (calls : List (Field × UInt64)) : ∃ as, Summarizes as calls :=
  ⟨summary calls Field.all, (sublist_summary calls Field.all).nodup (by decide),
    fun f => (lookup_summary calls Field.all f).trans (if_pos f.mem_all)⟩

/-! ## Validation -/

theorem validate_eq_error_iff : s.validate = .error fault ↔
    fault = .settings .zeroStep ∧ s.idStep = 0 ∨
      fault = .settings .zeroCapacity ∧ s.idStep ≠ 0 ∧ s.compositeCapacity = 0 := by
  unfold validate
  by_cases hstep : s.idStep = 0
  · simp [hstep, eq_comm]
  · by_cases hcapacity : s.compositeCapacity = 0
    · simp [hstep, hcapacity, eq_comm]
    · simp [hstep, hcapacity]

theorem Yields.build_eq (h : Yields calls s) : build calls = s.validate := by
  rw [build, (yields_draft calls).eq h]

/-- Where zero is refused, no default is zero. -/
theorem Yields.get_eq_zero_iff (h : Yields calls s) {f : Field} (hf : default.get f ≠ 0) :
    s.get f = 0 ↔ given? calls f = some 0 := by
  rw [h f]
  cases given? calls f with
  | none => simp [hf]
  | some v => simp

theorem Yields.idStep_eq_zero_iff (h : Yields calls s) :
    s.idStep = 0 ↔ given? calls .idStep = some 0 :=
  h.get_eq_zero_iff (f := .idStep) (by decide)

theorem Yields.compositeCapacity_eq_zero_iff (h : Yields calls s) :
    s.compositeCapacity = 0 ↔ given? calls .compositeCapacity = some 0 :=
  h.get_eq_zero_iff (f := .compositeCapacity) (by decide)

theorem build_eq_ok_iff : build calls = .ok s ↔ Yields calls s ∧
    given? calls .idStep ≠ some 0 ∧ given? calls .compositeCapacity ≠ some 0 := by
  have hdraft := yields_draft calls
  rw [build, validate_eq_ok_iff, Ne, Ne, hdraft.idStep_eq_zero_iff,
    hdraft.compositeCapacity_eq_zero_iff]
  constructor
  · rintro ⟨hvalid, rfl⟩
    exact ⟨hdraft, hvalid⟩
  · rintro ⟨hs, hvalid⟩
    exact ⟨hvalid, hs.eq hdraft⟩

theorem build_eq_error_iff : build calls = .error fault ↔
    fault = .settings .zeroStep ∧ given? calls .idStep = some 0 ∨
      fault = .settings .zeroCapacity ∧ given? calls .idStep ≠ some 0 ∧
        given? calls .compositeCapacity = some 0 := by
  have hdraft := yields_draft calls
  rw [build, validate_eq_error_iff, Ne, hdraft.idStep_eq_zero_iff,
    hdraft.compositeCapacity_eq_zero_iff]

/-- The first capacity is forgotten, and of two zeros the one of the step counts. -/
example : build [(.compositeCapacity, 5), (.idStep, 0), (.compositeCapacity, 0)] =
    .error (.settings .zeroStep) := rfl

theorem build_entries (s : Settings) : build s.entries = s.validate :=
  (yields_entries s).build_eq

/-! ## Texts and contexts -/

variable {lib : JsonLibrary}

theorem Summarizes.ofJson_eq (hparses : lib.Parses) {text : String} (has : Summarizes as calls)
    (htext : IsObject as text.toList) : ofJson lib text = build calls := by
  rw [ofJson_of_isObject hparses htext has.nodup, has.yields.build_eq]

theorem exists_build_eq_ok_iff : (∃ calls, build calls = .ok s) ↔ s.validate = .ok s := by
  constructor
  · rintro ⟨calls, h⟩
    rw [← (build_eq_ok_iff.1 h).1.build_eq, h]
  · intro h
    exact ⟨_, (build_entries s).trans h⟩

theorem exists_ofJson_eq_ok_iff (hparses : lib.Parses) :
    (∃ text, ofJson lib text = .ok s) ↔ s.validate = .ok s := by
  constructor
  · rintro ⟨text, h⟩
    exact validate_of_ofJson_eq_ok h
  · intro h
    refine ⟨object s.entries, ?_⟩
    rw [ofJson_of_isObject hparses (isObject_object _) s.nodup_entries, ofAssignments_entries, h]

variable {α : Type}

theorem exists_withSettings_eq_ok_iff :
    (∃ ctx : Context α, Context.withSettings s = .ok ctx) ↔ s.validate = .ok s := by
  constructor
  · rintro ⟨ctx, h⟩
    exact validate_eq_ok_iff.2 ⟨(Context.withSettings_eq_ok_iff.1 h).1, rfl⟩
  · intro h
    exact ⟨_, Context.withSettings_eq_ok_iff.2 ⟨(validate_eq_ok_iff.1 h).1, rfl⟩⟩

theorem withSettings_eq_error_iff :
    (Context.withSettings s : Except Fault (Context α)) = .error fault ↔
      s.validate = .error fault := by
  rw [Context.withSettings]
  cases s.validate with
  | error fault' => simp [Except.map]
  | ok t => simp [Except.map]

/-- Builder, JSON text and context agree on settings, with any library that keeps to
`JsonLibrary.Parses`.  For the calls of a builder there are objects that `Summarizes` them, and
from each text of such an object `ofJson` makes what `build` makes of the calls: the fault
`zeroStep` if the step was last set to zero, else the fault `zeroCapacity` if the capacity was,
and else the settings that the calls `Yields`.

`Context.withSettings` does the same with the settings that the calls yield.  So a context takes
just the settings that `build` gives for some calls and `ofJson` for some text, and refuses all
others with the fault of the calls that yield them. -/
theorem ofJson_eq_build (hparses : lib.Parses) (calls : List (Field × UInt64)) :
    (∃ (as : List (Field × UInt64)) (text : String), Summarizes as calls ∧
      IsObject as text.toList) ∧
    (∀ (as : List (Field × UInt64)) (text : String), Summarizes as calls →
      IsObject as text.toList → ofJson lib text = build calls) ∧
    (∀ s, build calls = .ok s ↔ Yields calls s ∧ given? calls .idStep ≠ some 0 ∧
      given? calls .compositeCapacity ≠ some 0) ∧
    (∀ fault, build calls = .error fault ↔
      fault = .settings .zeroStep ∧ given? calls .idStep = some 0 ∨
      fault = .settings .zeroCapacity ∧ given? calls .idStep ≠ some 0 ∧
        given? calls .compositeCapacity = some 0) ∧
    (∀ s, Yields calls s → (Context.withSettings s : Except Fault (Context α)) =
      (build calls).map Context.ofSettings) ∧
    ∀ s, ((∃ ctx : Context α, Context.withSettings s = .ok ctx) ↔
        ∃ calls, build calls = .ok s) ∧
      ((∃ calls, build calls = .ok s) ↔ ∃ text, ofJson lib text = .ok s) ∧
      ∀ fault, (Context.withSettings s : Except Fault (Context α)) = .error fault ↔
        ∃ calls, Yields calls s ∧ build calls = .error fault := by
  refine ⟨?_, fun as text has htext => has.ofJson_eq hparses htext, fun s => build_eq_ok_iff,
    fun fault => build_eq_error_iff, fun s hs => ?_, fun s => ⟨?_, ?_, fun fault => ?_⟩⟩
  · obtain ⟨as, has⟩ := exists_summarizes calls
    exact ⟨as, object as, has, isObject_object as⟩
  · rw [hs.build_eq, Context.withSettings]
  · rw [exists_withSettings_eq_ok_iff, exists_build_eq_ok_iff]
  · rw [exists_build_eq_ok_iff, exists_ofJson_eq_ok_iff hparses]
  · rw [withSettings_eq_error_iff]
    constructor
    · intro h
      exact ⟨_, yields_entries s, (build_entries s).trans h⟩
    · rintro ⟨calls, hs, h⟩
      rw [← hs.build_eq, h]

/-- A step that is set twice, the first time to zero, and a start: the builder and an object with the
start in front give the same settings.  With the capacity set to zero as well both refuse. -/
theorem ofJson_eq_build_twice :
    JsonLibrary.leftToRight.Parses ∧
    ofJson .leftToRight (object [(.idStart, 5), (.idStep, 7)]) =
      build [(.idStep, 0), (.idStart, 5), (.idStep, 7)] ∧
    build [(.idStep, 0), (.idStart, 5), (.idStep, 7)] =
      .ok { default with idStart := 5, idStep := 7 } ∧
    ofJson .leftToRight (object [(.compositeCapacity, 0), (.idStep, 7)]) =
      .error (.settings .zeroCapacity) := by
  have hparses := JsonLibrary.parses_leftToRight
  have hsummarizes : Summarizes [(.idStart, 5), (.idStep, 7)]
      [(.idStep, 0), (.idStart, 5), (.idStep, 7)] :=
    ⟨by decide, fun f => by cases f <;> rfl⟩
  have hsummarizes' : Summarizes [(.compositeCapacity, 0), (.idStep, 7)]
      [(.idStep, 7), (.compositeCapacity, 0)] :=
    ⟨by decide, fun f => by cases f <;> rfl⟩
  obtain ⟨-, hsame, -⟩ := ofJson_eq_build (α := Unit) hparses
    [(.idStep, 0), (.idStart, 5), (.idStep, 7)]
  obtain ⟨-, hsame', -⟩ := ofJson_eq_build (α := Unit) hparses
    [(.idStep, 7), (.compositeCapacity, 0)]
  exact ⟨hparses, hsame _ _ hsummarizes (isObject_object _), rfl,
    hsame' _ _ hsummarizes' (isObject_object _)⟩

end RecordStream.Settings
