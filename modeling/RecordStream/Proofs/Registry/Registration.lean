import Mathlib.Data.Finset.Card
import RecordStream.Proofs.Registry
import RecordStream.Proofs.Text.Order
import RecordStream.Tally

/-!
# Registering types

A name is registered once.  `r.Stores es` says that the entries `es` are all that a registry
has, each under its full name and no two of them under one, and everything that a registry
can be asked is answered by these entries, in whatever order they are listed.

So it remains to know which entries a series of registrations leaves.  A registration is
accepted if its name is free, and adds its entry to those there are; else it is refused
and changes nothing (`Stores.perform`).  By induction on the registrations this says what
all of them leave (`Stores.registerEach`), and what is answered then
(`answers_of_registerEach`).
-/

namespace RecordStream.Registry

variable {α : Type} {r r' : Registry α} {es es' : List (Entry α)} {d : Descriptor}

/-- What an entry is registered under. -/
def Entry.name (e : Entry α) : String := e.descriptor.fullName

/-- What a registry answers if these entries are all that it has.  The version of the type that it
is asked for plays no role. -/
structure Answers (r : Registry α) (es : List (Entry α)) : Prop where
  of_mem : ∀ e ∈ es, ∀ d : Descriptor, e.name = d.fullName →
    r.contains d = true ∧ r.registered? d = some e.descriptor ∧ r.create? d = some e.prototype
  of_free : ∀ d : Descriptor, (∀ e ∈ es, e.name ≠ d.fullName) →
    r.contains d = false ∧ r.registered? d = none ∧ r.create? d = none
  size_eq : r.size = (es.map Entry.name).toFinset.card
  mem_names_iff : ∀ name, name ∈ r.names ↔ ∃ e ∈ es, e.name = name
  names_ascending : r.names.Pairwise fun a b => Bytes.ofText a < Bytes.ofText b

/-- The two registries answer all queries alike. -/
structure SameAnswers (r r' : Registry α) : Prop where
  contains_eq : ∀ d, r'.contains d = r.contains d
  registered?_eq : ∀ d, r'.registered? d = r.registered? d
  create?_eq : ∀ d, r'.create? d = r.create? d
  size_eq : r'.size = r.size
  names_eq : r'.names = r.names

/-- These entries are all that the registry has, each under its name and no two under one. -/
structure Stores (r : Registry α) (es : List (Entry α)) : Prop where
  entries_perm : r.entries.Perm (es.map fun e => (e.name, e))
  nodup : (es.map Entry.name).Nodup

theorem lookup_eq_some_iff_of_nodup {β : Type} {key : String} {x : β} {l : List (String × β)}
    (h : (l.map (·.1)).Nodup) : l.lookup key = some x ↔ (key, x) ∈ l := by
  induction l with
  | nil => simp
  | cons p l ih =>
    obtain ⟨key', y⟩ := p
    rw [List.map_cons, List.nodup_cons] at h
    rw [List.lookup_cons, List.mem_cons]
    by_cases hkey : key = key'
    · subst hkey
      have hmem : (key, x) ∉ l := fun hmem => h.1 (List.mem_map.2 ⟨_, hmem, rfl⟩)
      simp [hmem, eq_comm]
    · rw [beq_eq_false_iff_ne.2 hkey, ih h.2]
      simp [hkey]

namespace Stores

theorem names_perm (h : r.Stores es) : (r.entries.map (·.1)).Perm (es.map Entry.name) := by
  have hperm := h.entries_perm.map (·.1)
  rwa [List.map_map] at hperm

theorem of_perm (h : r.Stores es) (hes : es.Perm es') : r.Stores es' where
  entries_perm := h.entries_perm.trans (hes.map _)
  nodup := (hes.map Entry.name).nodup h.nodup

theorem knows (h : r.Stores es) : r.Knows es := by
  intro d e
  have hnodup : (r.entries.map (·.1)).Nodup := h.names_perm.nodup_iff.2 h.nodup
  rw [lookup?, lookup_eq_some_iff_of_nodup hnodup, h.entries_perm.mem_iff, List.mem_map]
  constructor
  · rintro ⟨e', he', heq⟩
    obtain ⟨hname, rfl⟩ := Prod.mk.inj heq
    exact ⟨he', hname⟩
  · rintro ⟨he, hname⟩
    exact ⟨e, he, by rw [← hname, Entry.name]⟩

theorem lookup?_of_free (h : r.Stores es) (hfree : ∀ e ∈ es, e.name ≠ d.fullName) :
    r.lookup? d = none := by
  rw [Option.eq_none_iff_forall_ne_some]
  intro e he
  obtain ⟨hmem, hname⟩ := (h.knows d e).1 he
  exact hfree e hmem hname

/-! ### Answers -/

theorem size_eq (h : r.Stores es) : r.size = es.length := by
  rw [size, h.entries_perm.length_eq, List.length_map]

theorem perm_names (h : r.Stores es) : r.names.Perm (es.map Entry.name) :=
  (List.mergeSort_perm _ _).trans h.names_perm

/-- Names are listed in ascending order, which is that of their bytes. -/
theorem pairwise_names (h : r.Stores es) :
    r.names.Pairwise fun a b => Bytes.ofText a < Bytes.ofText b := by
  have hle : r.names.Pairwise fun a b => decide (a ≤ b) = true := by
    refine List.pairwise_mergeSort (fun a b c hab hbc => ?_) (fun a b => ?_) _
    · exact decide_eq_true (String.le_trans (of_decide_eq_true hab) (of_decide_eq_true hbc))
    · simpa using String.le_total a b
  have hnodup : r.names.Nodup := h.perm_names.nodup_iff.2 h.nodup
  refine (hle.and hnodup).imp fun hab => ?_
  exact Bytes.ofText_lt_ofText (Std.lt_of_le_of_ne (of_decide_eq_true hab.1) hab.2)

theorem answers (h : r.Stores es) : r.Answers es where
  of_mem e he d hname := by
    have hlookup : r.lookup? d = some e := (h.knows d e).2 ⟨he, hname⟩
    rw [contains, registered?, create?, hlookup]
    exact ⟨rfl, rfl, rfl⟩
  of_free d hfree := by
    rw [contains, registered?, create?, h.lookup?_of_free hfree]
    exact ⟨rfl, rfl, rfl⟩
  size_eq := by rw [h.size_eq, List.toFinset_card_of_nodup h.nodup, List.length_map]
  mem_names_iff name := by rw [h.perm_names.mem_iff, List.mem_map]
  names_ascending := h.pairwise_names

/-- In which order the entries are listed makes no difference. -/
theorem sameAnswers (h : r.Stores es) (h' : r'.Stores es') (hes : es'.Perm es) :
    r.SameAnswers r' := by
  have h' : r'.Stores es := h'.of_perm hes
  have hlookup (d : Descriptor) : r'.lookup? d = r.lookup? d := by
    ext e
    rw [h.knows d e, h'.knows d e]
  have hnames : r'.names.Perm r.names := h'.perm_names.trans h.perm_names.symm
  constructor
  · intro d
    rw [contains, contains, hlookup]
  · intro d
    rw [registered?, registered?, hlookup]
  · intro d
    rw [create?, create?, hlookup]
  · rw [h.size_eq, h'.size_eq]
  · refine hnames.eq_of_pairwise (fun a b _ _ hab hba => ?_) h'.pairwise_names h.pairwise_names
    exact absurd hab (List.lt_asymm hba)

/-! ### Registering -/

theorem register_of_taken (h : r.Stores es) {e : Entry α} (he : e.name ∈ es.map Entry.name) :
    r.register e.descriptor e.prototype = .error (.duplicateType e.name) := by
  obtain ⟨e', he', hname⟩ := List.mem_map.1 he
  rw [register, if_pos (h.answers.of_mem e' he' e.descriptor hname).1, Entry.name]

theorem register_of_free (h : r.Stores es) {e : Entry α} (he : e.name ∉ es.map Entry.name) :
    ∃ r', r.register e.descriptor e.prototype = .ok r' ∧ r'.Stores (es ++ [e]) := by
  have hfree : r.contains e.descriptor = false := by
    refine (h.answers.of_free e.descriptor fun e' he' hname => ?_).1
    exact he (List.mem_map.2 ⟨e', he', hname⟩)
  refine ⟨⟨(e.name, e) :: r.entries⟩, ?_, ?_, ?_⟩
  · rw [register, hfree, if_neg Bool.false_ne_true]
    rfl
  · rw [List.map_append, List.map_singleton]
    exact (h.entries_perm.cons _).trans (List.perm_append_singleton _ _).symm
  · rw [List.map_append, List.map_singleton, List.nodup_append]
    refine ⟨h.nodup, List.nodup_singleton _, ?_⟩
    intro name hname name' hname' heq
    rw [List.mem_singleton.1 hname'] at heq
    exact he (heq ▸ hname)

end Stores

/-! ## Where registries come from -/

theorem stores_empty : (empty : Registry α).Stores [] := ⟨.nil, .nil⟩

theorem stores_withBuiltins (capacity : Nat) :
    (withBuiltins capacity : Registry α).Stores (builtins capacity) := by
  refine ⟨.refl _, List.nodup_cons.2 ⟨?_, List.nodup_singleton _⟩⟩
  rw [List.map_singleton, List.mem_singleton]
  exact fullName_nullCommand_ne_compositeCommand

/-- How a registry is made. -/
inductive Origin
  | empty
  | withBuiltins (capacity : Nat)

def Origin.registry : Origin → Registry α
  | .empty => .empty
  | .withBuiltins capacity => .withBuiltins capacity

/-- What is registered from the start. -/
def Origin.entries : Origin → List (Entry α)
  | .empty => []
  | .withBuiltins capacity => builtins capacity

theorem Origin.stores (o : Origin) : (o.registry : Registry α).Stores o.entries := by
  cases o with
  | empty => exact stores_empty
  | withBuiltins capacity => exact stores_withBuiltins capacity

/-! ## Series of registrations -/

variable [Recorded α]

/-- A call that registers a type. -/
inductive Registration (α : Type) where
  /-- Under the descriptor of its fresh commands. -/
  | ofPrototype (prototype : Command α)
  /-- Under a descriptor of its own. -/
  | ofDescriptor (d : Descriptor) (prototype : Command α)

namespace Registration

/-- What is to be registered. -/
def entry : Registration α → Entry α
  | ofPrototype prototype => ⟨prototype.descriptor, prototype⟩
  | ofDescriptor d prototype => ⟨d, prototype⟩

def name (q : Registration α) : String := q.entry.name

/-- Registers the type and answers whether something was wrong.  What is refused changes
nothing. -/
def perform (q : Registration α) : StateM (Registry α) (Option Fault) := fun r =>
  match r.register q.entry.descriptor q.entry.prototype with
  | .ok r' => (none, r')
  | .error fault => (some fault, r)

end Registration

/-- Performs some registrations, from first to last, and keeps a log of that. -/
def registerEach :
    List (Registration α) → StateM (Registry α) (List (Registration α × Option Fault))
  | [] => pure []
  | q :: qs => do
    let answer ← q.perform
    return (q, answer) :: (← registerEach qs)

/-- The entries of the registrations in a log that have been accepted. -/
def accepted (log : List (Registration α × Option Fault)) : List (Entry α) :=
  (log.filter (·.2.isNone)).map (·.1.entry)

theorem accepted_cons_none (q : Registration α) (log : List (Registration α × Option Fault)) :
    accepted ((q, none) :: log) = q.entry :: accepted log :=
  rfl

theorem accepted_cons_some (q : Registration α) (fault : Fault)
    (log : List (Registration α × Option Fault)) :
    accepted ((q, some fault) :: log) = accepted log :=
  rfl

/-- A registration is accepted if its name is free, and else refused. -/
theorem Stores.perform (h : r.Stores es) (q : Registration α) :
    (q.name ∉ es.map Entry.name ∧
        ∃ r', q.perform r = (none, r') ∧ r'.Stores (es ++ [q.entry])) ∨
      (q.name ∈ es.map Entry.name ∧ q.perform r = (some (.duplicateType q.name), r)) := by
  by_cases hq : q.name ∈ es.map Entry.name
  · right
    refine ⟨hq, ?_⟩
    rw [Registration.perform, h.register_of_taken hq]
    rfl
  · left
    obtain ⟨r', hregister, hstores⟩ := h.register_of_free hq
    refine ⟨hq, r', ?_, hstores⟩
    rw [Registration.perform, hregister]

theorem registerEach_cons (q : Registration α) (qs : List (Registration α)) (r : Registry α) :
    registerEach (q :: qs) r =
      ((q, (q.perform r).1) :: (registerEach qs (q.perform r).2).1,
        (registerEach qs (q.perform r).2).2) :=
  rfl

theorem registerEach_append (qs qs' : List (Registration α)) (r : Registry α) :
    registerEach (qs ++ qs') r =
      ((registerEach qs r).1 ++ (registerEach qs' (registerEach qs r).2).1,
        (registerEach qs' (registerEach qs r).2).2) := by
  induction qs generalizing r with
  | nil => rfl
  | cons q qs ih => rw [List.cons_append, registerEach_cons, ih, registerEach_cons, List.cons_append]

/-- A registry has what it had and what has been accepted. -/
theorem Stores.registerEach (h : r.Stores es) (qs : List (Registration α)) :
    (registerEach qs r).2.Stores (es ++ accepted (registerEach qs r).1) := by
  induction qs generalizing r es with
  | nil =>
    rw [show accepted (Registry.registerEach ([] : List (Registration α)) r).1 = [] from rfl,
      List.append_nil]
    exact h
  | cons q qs ih =>
    rw [registerEach_cons]
    obtain ⟨-, r', hperform, hstores⟩ | ⟨-, hperform⟩ := h.perform q
    · rw [hperform]
      have hrest := ih hstores
      rwa [List.append_assoc] at hrest
    · rw [hperform]
      exact ih h

/-- If no two registrations have one name, those are accepted whose names are free at the start. -/
theorem Stores.accepted_eq (h : r.Stores es) {qs : List (Registration α)}
    (hqs : (qs.map Registration.name).Nodup) :
    accepted (Registry.registerEach qs r).1 =
      (qs.map Registration.entry).filter fun e => e.name ∉ es.map Entry.name := by
  induction qs generalizing r es with
  | nil => rfl
  | cons q qs ih =>
    rw [List.map_cons, List.nodup_cons] at hqs
    rw [registerEach_cons, List.map_cons]
    obtain ⟨hfree, r', hperform, hstores⟩ | ⟨htaken, hperform⟩ := h.perform q
    · rw [Registration.name] at hfree
      rw [hperform, List.filter_cons_of_pos (by simpa using hfree), accepted_cons_none,
        ih hstores hqs.2]
      refine congrArg _ (List.filter_congr fun e he => ?_)
      -- no other registration has the name that was taken just now
      have hne : e.name ≠ q.entry.name := by
        intro heq
        obtain ⟨q', hq', rfl⟩ := List.mem_map.1 he
        exact hqs.1 (List.mem_map.2 ⟨q', hq', heq⟩)
      simp [hne]
    · rw [Registration.name] at htaken
      rw [hperform, List.filter_cons_of_neg (by simpa using htaken), accepted_cons_some, ih h hqs.2]

theorem map_fst_registerEach (qs : List (Registration α)) (r : Registry α) :
    (registerEach qs r).1.map (·.1) = qs := by
  induction qs generalizing r with
  | nil => rfl
  | cons q qs ih => rw [registerEach_cons, List.map_cons, ih]

/-! ## What is answered then -/

/-- A registry is what was registered first under each name.  Let `registerEach` make the `calls`
on the empty registry or the one with the builtins.  A registration `q` is accepted if and only if
`q.name` is not the name of an entry that is there or was accepted before; otherwise the answer is
`duplicateType q.name` and the registry stays as it is.

In the end the registry `Answers` with the builtin entries and the `accepted` ones, whose names
are distinct.  Calls with distinct names may be made in any order (`SameAnswers`). -/
theorem answers_of_registerEach {o : Origin} {calls : List (Registration α)}
    {log : List (Registration α × Option Fault)} (h : registerEach calls o.registry = (log, r)) :
    log.map (·.1) = calls ∧
    (∀ before q after, calls = before ++ q :: after → ∃ log₁ r₁ answer r₂ log₂,
      registerEach before o.registry = (log₁, r₁) ∧ q.perform r₁ = (answer, r₂) ∧
      log = log₁ ++ (q, answer) :: log₂ ∧
      (answer = none ∧ q.name ∉ (o.entries ++ accepted log₁).map Entry.name ∨
        answer = some (.duplicateType q.name) ∧ r₂ = r₁ ∧
          q.name ∈ (o.entries ++ accepted log₁).map Entry.name)) ∧
    ((o.entries ++ accepted log).map Entry.name).Nodup ∧ r.Answers (o.entries ++ accepted log) ∧
    ∀ calls', calls'.Perm calls → (calls.map Registration.name).Nodup →
      r.SameAnswers (registerEach calls' o.registry).2 := by
  have hlog : log = (registerEach calls o.registry).1 := (congrArg Prod.fst h).symm
  have hr : r = (registerEach calls o.registry).2 := (congrArg Prod.snd h).symm
  have hstores : r.Stores (o.entries ++ accepted log) := by
    rw [hr, hlog]
    exact o.stores.registerEach calls
  refine ⟨?_, ?_, hstores.nodup, hstores.answers, ?_⟩
  · rw [hlog]
    exact map_fst_registerEach calls o.registry
  · rintro before q after rfl
    rw [registerEach_append, registerEach_cons] at hlog
    refine ⟨_, _, _, _, _, rfl, rfl, hlog, ?_⟩
    obtain ⟨hfree, r₂, hperform, -⟩ | ⟨htaken, hperform⟩ :=
      (o.stores.registerEach before).perform q
    · left
      exact ⟨congrArg Prod.fst hperform, hfree⟩
    · right
      exact ⟨congrArg Prod.fst hperform, congrArg Prod.snd hperform, htaken⟩
  · intro calls' hperm hnodup
    have hnodup' : (calls'.map Registration.name).Nodup := (hperm.map _).nodup_iff.2 hnodup
    refine hstores.sameAnswers (o.stores.registerEach calls') ?_
    rw [hlog, o.stores.accepted_eq hnodup, o.stores.accepted_eq hnodup']
    exact ((hperm.map _).filter _).append_left _

/-- A type that is refused under the name of another, whatever its version; and the others, which
may be registered in either order. -/
theorem answers_of_registerEach_sample :
    ∃ (inc null dec : Registration Tally) (r r' : Registry Tally),
      inc = .ofPrototype (.leaf (.fresh nullId) .inc) ∧
      null = .ofDescriptor { Tally.inc.descriptor with version := .null } (.null (.fresh nullId)) ∧
      dec = .ofPrototype (.leaf (.fresh nullId) .dec) ∧
      registerEach [inc, null, dec] (Origin.withBuiltins 4).registry =
        ([(inc, none), (null, some (.duplicateType "tests::Inc")), (dec, none)], r) ∧
      r.Answers (builtins 4 ++ [inc.entry, dec.entry]) ∧
      registerEach [inc, dec] (Origin.withBuiltins 4).registry = ([(inc, none), (dec, none)], r') ∧
      r'.SameAnswers (registerEach [dec, inc] (Origin.withBuiltins 4).registry).2 := by
  let inc : Registration Tally := .ofPrototype (.leaf (.fresh nullId) .inc)
  let null : Registration Tally :=
    .ofDescriptor { Tally.inc.descriptor with version := .null } (.null (.fresh nullId))
  let dec : Registration Tally := .ofPrototype (.leaf (.fresh nullId) .dec)
  obtain ⟨r, hr⟩ : ∃ r, registerEach [inc, null, dec] (Origin.withBuiltins 4).registry =
      ([(inc, none), (null, some (.duplicateType "tests::Inc")), (dec, none)], r) := ⟨_, rfl⟩
  obtain ⟨r', hr'⟩ : ∃ r', registerEach [inc, dec] (Origin.withBuiltins 4).registry =
      ([(inc, none), (dec, none)], r') := ⟨_, rfl⟩
  obtain ⟨-, -, -, hanswers, -⟩ := answers_of_registerEach hr
  obtain ⟨-, -, -, -, hsame⟩ := answers_of_registerEach hr'
  exact ⟨inc, null, dec, r, r', rfl, rfl, rfl, hr, hanswers, hr',
    hsame [dec, inc] (.swap _ _ _) (by decide)⟩

end RecordStream.Registry
