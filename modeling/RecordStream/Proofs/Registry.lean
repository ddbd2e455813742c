import RecordStream.Command.Registry

/-!
# What registries know

A name is registered once, so what a registry answers does not depend on the order
of its registrations: `r.Knows es` says that the entries `es` are what has been
registered, each under its full name, and `Knows.register` that a registration adds
its entry to them.
-/

namespace RecordStream.Registry

variable {α : Type} {r r' : Registry α} {d : Descriptor} {prototype : Command α}

theorem lookup?_of_register_eq_ok (h : r.register d prototype = .ok r') (d' : Descriptor) :
    r'.lookup? d' =
      if d'.fullName = d.fullName then some ⟨d, prototype⟩ else r.lookup? d' := by
  unfold register at h
  split at h
  · cases h
  · cases h
    rw [lookup?, List.lookup_cons]
    by_cases hname : d'.fullName = d.fullName
    · rw [if_pos hname, beq_iff_eq.2 hname]
    · rw [if_neg hname, beq_eq_false_iff_ne.2 hname, lookup?]

/-- A registration that succeeds found its name free. -/
theorem lookup?_eq_none_of_register_eq_ok (h : r.register d prototype = .ok r') :
    r.lookup? d = none := by
  unfold register at h
  split at h
  · cases h
  · rename_i hfree
    simpa [contains] using hfree

/-- The registry answers with the entries `es`, each under its own full name. -/
def Knows (r : Registry α) (es : List (Entry α)) : Prop :=
  ∀ d e, r.lookup? d = some e ↔ e ∈ es ∧ e.descriptor.fullName = d.fullName

theorem Knows.register {es : List (Entry α)} (hr : r.Knows es)
    (h : r.register d prototype = .ok r') : r'.Knows (⟨d, prototype⟩ :: es) := by
  intro d' e
  rw [lookup?_of_register_eq_ok h]
  by_cases hname : d'.fullName = d.fullName
  · rw [if_pos hname]
    constructor
    · rintro ⟨⟩
      exact ⟨List.mem_cons_self, hname.symm⟩
    · rintro ⟨hmem, hfull⟩
      rcases List.mem_cons.1 hmem with rfl | hmem
      · rfl
      · -- the name would have been taken
        have htaken := (hr d e).2 ⟨hmem, hfull.trans hname⟩
        rw [lookup?_eq_none_of_register_eq_ok h] at htaken
        cases htaken
  · rw [if_neg hname, hr d' e]
    constructor
    · rintro ⟨hmem, hfull⟩
      exact ⟨List.mem_cons_of_mem _ hmem, hfull⟩
    · rintro ⟨hmem, hfull⟩
      rcases List.mem_cons.1 hmem with rfl | hmem
      · exact absurd hfull.symm hname
      · exact ⟨hmem, hfull⟩

/-- What a registry knows from the start. -/
def builtins (capacity : Nat) : List (Entry α) :=
  [⟨.nullCommand, .null (.fresh nullId)⟩, ⟨.compositeCommand, .emptyComposite nullId capacity⟩]

theorem mem_builtins_iff {capacity : Nat} {e : Entry α} :
    e ∈ builtins capacity ↔ e = ⟨.nullCommand, .null (.fresh nullId)⟩ ∨
      e = ⟨.compositeCommand, .emptyComposite nullId capacity⟩ := by
  rw [builtins, List.mem_cons, List.mem_singleton]

theorem knows_empty : (empty : Registry α).Knows [] := by
  intro d e
  constructor
  · rintro ⟨⟩
  · rintro ⟨hmem, -⟩
    exact absurd hmem List.not_mem_nil

theorem fullName_nullCommand_ne_compositeCommand :
    Descriptor.nullCommand.fullName ≠ Descriptor.compositeCommand.fullName := by
  decide

/-- The registry of the builtins is what one gets by registering them. -/
theorem knows_withBuiltins (capacity : Nat) :
    (withBuiltins capacity : Registry α).Knows (builtins capacity) := by
  have hcomposite :
      (empty : Registry α).register .compositeCommand (.emptyComposite nullId capacity) =
        .ok ⟨[(Descriptor.compositeCommand.fullName,
          ⟨.compositeCommand, .emptyComposite nullId capacity⟩)]⟩ := rfl
  refine (knows_empty.register hcomposite).register (d := .nullCommand) ?_
  rw [register, if_neg]
  · rfl
  · have hname := beq_eq_false_iff_ne.2 fullName_nullCommand_ne_compositeCommand
    rw [contains, lookup?, List.lookup_cons, hname]
    exact Bool.false_ne_true

/-- Registers some types, the first one first. -/
def registerAll (r : Registry α) (es : List (Entry α)) : Except Fault (Registry α) :=
  es.foldlM (fun r e => r.register e.descriptor e.prototype) r

theorem Knows.registerAll {es new : List (Entry α)} (hr : r.Knows es)
    (h : r.registerAll new = .ok r') : r'.Knows (new.reverse ++ es) := by
  induction new generalizing r es with
  | nil =>
    cases h
    exact hr
  | cons e new ih =>
    rw [Registry.registerAll, List.foldlM_cons] at h
    cases he : r.register e.descriptor e.prototype with
    | error f =>
      rw [he] at h
      cases h
    | ok r₁ =>
      rw [he] at h
      rw [List.reverse_cons, List.append_assoc]
      exact ih (hr.register he) h

/-! ## Types of leaves -/

section Leaves

variable [Recorded α]

/-- The entry of a type of leaves whose fresh commands have the given action. -/
def leafEntry (action : α) : Entry α :=
  ⟨Recorded.descriptor action, .leaf (.fresh nullId) action⟩

/-- The registry of the null command, composites of the given capacity, and the types of
the given actions. -/
def withLeaves (capacity : Nat) (actions : List α) : Except Fault (Registry α) :=
  (withBuiltins capacity).registerAll (actions.map leafEntry)

theorem lookup?_withLeaves {capacity : Nat} {actions : List α}
    (h : withLeaves capacity actions = .ok r) {d : Descriptor} {e : Entry α} :
    r.lookup? d = some e ↔ e.descriptor.fullName = d.fullName ∧
      (e ∈ builtins capacity ∨ ∃ action ∈ actions, e = leafEntry action) := by
  rw [(knows_withBuiltins capacity).registerAll h d e, List.mem_append, List.mem_reverse,
    List.mem_map, and_comm, or_comm]
  constructor
  · rintro ⟨hname, hbuiltin | ⟨action, hmem, rfl⟩⟩
    · exact ⟨hname, .inl hbuiltin⟩
    · exact ⟨hname, .inr ⟨action, hmem, rfl⟩⟩
  · rintro ⟨hname, hbuiltin | ⟨action, hmem, rfl⟩⟩
    · exact ⟨hname, .inl hbuiltin⟩
    · exact ⟨hname, .inr ⟨action, hmem, rfl⟩⟩

/-- Types are registered with the descriptor of what is made of them. -/
theorem descriptor_prototype_of_lookup?_withLeaves {capacity : Nat} {actions : List α}
    (h : withLeaves capacity actions = .ok r) {d : Descriptor} {e : Entry α}
    (he : r.lookup? d = some e) : e.prototype.descriptor = e.descriptor := by
  obtain ⟨-, hbuiltin | ⟨action, -, rfl⟩⟩ := (lookup?_withLeaves h).1 he
  · rcases mem_builtins_iff.1 hbuiltin with rfl | rfl
    · rfl
    · rfl
  · rfl

theorem registered?_withLeaves {capacity : Nat} {actions : List α}
    (h : withLeaves capacity actions = .ok r) {d : Descriptor} {c : Command α}
    (hc : r.create? d = some c) : r.registered? d = some c.descriptor := by
  obtain ⟨e, he, rfl⟩ := Option.map_eq_some_iff.1 hc
  rw [registered?, he, Option.map_some, descriptor_prototype_of_lookup?_withLeaves h he]

/-- A registry with types of leaves makes the fresh commands of these types, null commands
and composites, and nothing else. -/
theorem create?_withLeaves {capacity : Nat} {actions : List α}
    (h : withLeaves capacity actions = .ok r) {d : Descriptor} {c : Command α} :
    r.create? d = some c ↔ c.descriptor.fullName = d.fullName ∧
      (c = .null (.fresh nullId) ∨ c = .emptyComposite nullId capacity ∨
        ∃ action ∈ actions, c = .leaf (.fresh nullId) action) := by
  constructor
  · intro hc
    obtain ⟨e, he, rfl⟩ := Option.map_eq_some_iff.1 hc
    rw [descriptor_prototype_of_lookup?_withLeaves h he]
    obtain ⟨hname, hbuiltin | ⟨action, hmem, rfl⟩⟩ := (lookup?_withLeaves h).1 he
    · refine ⟨hname, ?_⟩
      rcases mem_builtins_iff.1 hbuiltin with rfl | rfl
      · exact .inl rfl
      · exact .inr (.inl rfl)
    · exact ⟨hname, .inr (.inr ⟨action, hmem, rfl⟩)⟩
  · rintro ⟨hname, rfl | rfl | ⟨action, hmem, rfl⟩⟩
    · exact Option.map_eq_some_iff.2 ⟨⟨.nullCommand, _⟩,
        (lookup?_withLeaves h).2 ⟨hname, .inl (mem_builtins_iff.2 (.inl rfl))⟩, rfl⟩
    · exact Option.map_eq_some_iff.2 ⟨⟨.compositeCommand, _⟩,
        (lookup?_withLeaves h).2 ⟨hname, .inl (mem_builtins_iff.2 (.inr rfl))⟩, rfl⟩
    · exact Option.map_eq_some_iff.2 ⟨leafEntry action,
        (lookup?_withLeaves h).2 ⟨hname, .inr ⟨action, hmem, rfl⟩⟩, rfl⟩

end Leaves

end RecordStream.Registry
