import RecordStream.Proofs.Command.Equality
import RecordStream.Proofs.Command.Nesting
import RecordStream.Proofs.Registry.Registration

/-!
# Registries that know more

`r.Extends r'` says that `r'` makes whatever `r` makes, and gives composites as much room
or more.  Then the two readers come apart only where `r` lacks a type or room: one layer
of reading does the same in both as long as its children do (`Extends.refines_readBy`),
and since both readers have one allowance of nesting, induction on it carries this through
all layers (`readCommand_of_extends`).
-/

namespace RecordStream

/-- The reader has met what it has no type for, or no room. -/
def Fault.IsLack : Fault → Prop
  | .unknownType _ | .capacityExceeded _ => True
  | _ => False

/-! ## Readers that do more -/

namespace Stream

variable {β γ δ ε : Type} {R : β → γ → Prop} {S : δ → ε → Prop}

/-- What comes of a reader, and what comes of another one then: the same, up to a relation of
what has been read.  Where the first reader lacks something, anything may come of the second. -/
inductive Follows (R : β → γ → Prop) :
    EStateM.Result Fault Buffer β → EStateM.Result Fault Buffer γ → Prop
  | ok {x : β} {y : γ} {b : Buffer} : R x y → Follows R (.ok x b) (.ok y b)
  | error {fault : Fault} {b : Buffer} : Follows R (.error fault b) (.error fault b)
  | lack {fault : Fault} {b : Buffer} {result : EStateM.Result Fault Buffer γ} :
      fault.IsLack → Follows R (.error fault b) result

/-- The second reader does what the first one does, unless that lacks something. -/
def Refines (R : β → γ → Prop) (m : Stream β) (m' : Stream γ) : Prop :=
  ∀ b, Follows R (m b) (m' b)

theorem refines_refl (m : Stream β) : Refines Eq m m := by
  intro b
  cases m b with
  | ok x b' => exact .ok rfl
  | error fault b' => exact .error

theorem refines_pure {x : β} {y : γ} (h : R x y) : Refines R (pure x) (pure y) :=
  fun _ => .ok h

theorem refines_throw (fault : Fault) : Refines R (throw fault) (throw fault) :=
  fun _ => .error

theorem refines_of_isLack (fault : Fault) (h : fault.IsLack) (m : Stream γ) :
    Refines R (throw fault) m :=
  fun _ => .lack h

theorem Refines.bind {m : Stream β} {m' : Stream γ} {f : β → Stream δ} {f' : γ → Stream ε}
    (hm : Refines R m m') (hf : ∀ x y, R x y → Refines S (f x) (f' y)) :
    Refines S (m >>= f) (m' >>= f') := by
  intro b
  have hfollows := hm b
  generalize hx : m b = result, hy : m' b = result' at hfollows
  cases hfollows with
  | ok hxy =>
    rw [bind_of_ok hx, bind_of_ok hy]
    exact hf _ _ hxy _
  | error =>
    rw [bind_of_error hx, bind_of_error hy]
    exact .error
  | lack hlack =>
    rw [bind_of_error hx]
    exact .lack hlack

end Stream

namespace Command

variable {α : Type} {child child' : Stream (Command α)} {c c' p p' : Command α}

/-- The commands differ in nothing but capacities. -/
def Matches (c c' : Command α) : Prop :=
  c'.fit defaultCapacity = c.fit defaultCapacity

/-- The commands are the same, or composites that are the same but for the second one having room
for more. -/
inductive Widens : Command α → Command α → Prop
  | refl (c : Command α) : Widens c c
  | composite (core : Core) (cs : List (Command α)) {k k' : Nat} (h : k ≤ k') :
      Widens (.composite core k cs) (.composite core k' cs)

theorem Matches.composite {core : Core} {k k' : Nat} {cs cs' : List (Command α)}
    (h : List.Forall₂ Matches cs cs') : Matches (.composite core k cs) (.composite core k' cs') := by
  rw [Matches, fit, fit, fitAll_eq, fitAll_eq]
  have hmap : cs'.map (fit defaultCapacity) = cs.map (fit defaultCapacity) := by
    induction h with
    | nil => rfl
    | cons hc _ ih => rw [List.map_cons, List.map_cons, ih, show fit _ _ = _ from hc]
  rw [hmap]

/-! ## Readers of commands -/

theorem refines_readMany (hchild : child.Refines Matches child') (n : Nat) :
    (readMany child n).Refines (List.Forall₂ Matches) (readMany child' n) := by
  induction n with
  | zero => exact Stream.refines_pure .nil
  | succ n ih =>
    refine hchild.bind fun c c' hc => ?_
    refine ih.bind fun cs cs' hcs => ?_
    exact Stream.refines_pure (.cons hc hcs)

/-- Core and children of a composite, which match those of another one. -/
def MatchesParts (x y : Core × List (Command α)) : Prop :=
  y.1 = x.1 ∧ List.Forall₂ Matches x.2 y.2

theorem refines_readComposite (hchild : child.Refines Matches child') {k k' : Nat} (hk : k ≤ k') :
    (readComposite child k).Refines MatchesParts (readComposite child' k') := by
  rw [readComposite_eq, readComposite_eq]
  refine (Stream.refines_refl Core.read).bind ?_
  rintro core _ rfl
  refine (Stream.refines_refl (Stream.read countLayout)).bind ?_
  rintro count _ rfl
  by_cases hcount : k < count.toNat
  · rw [if_pos hcount]
    exact Stream.refines_of_isLack (.capacityExceeded k) trivial _
  · rw [if_neg hcount, if_neg (by omega)]
    refine (refines_readMany hchild _).bind fun cs cs' hcs => ?_
    exact Stream.refines_pure ⟨rfl, hcs⟩

variable [Recorded α]

theorem Widens.descriptor_eq (h : p.Widens p') : p'.descriptor = p.descriptor := by
  cases h with
  | refl => rfl
  | composite => rfl

theorem refines_readBody (hchild : child.Refines Matches child') (hp : p.Widens p') :
    (readBody child p).Refines Matches (readBody child' p') := by
  have hcomposite {core : Core} {cs : List (Command α)} {k k' : Nat} (hk : k ≤ k') :
      (readBody child (.composite core k cs)).Refines Matches
        (readBody child' (.composite core k' cs)) := by
    refine (refines_readComposite hchild hk).bind ?_
    rintro ⟨core', ds⟩ ⟨_, ds'⟩ ⟨rfl, hds⟩
    exact Stream.refines_pure (.composite hds)
  cases hp with
  | composite core cs hk => exact hcomposite hk
  | refl =>
    cases p with
    | composite core k cs => exact hcomposite (Nat.le_refl k)
    | null core =>
      refine (Stream.refines_refl Core.read).bind ?_
      rintro core' _ rfl
      exact Stream.refines_pure rfl
    | leaf core action =>
      refine (Stream.refines_refl Core.read).bind ?_
      rintro core' _ rfl
      refine (Stream.refines_refl (Stream.read (Recorded.fields action))).bind ?_
      rintro action' _ rfl
      exact Stream.refines_pure rfl

end Command

namespace Registry

open Command

variable {α : Type} {r r' : Registry α} {es es' : List (Entry α)}

/-- Whatever the registry makes, it makes with room that composites can have. -/
def Allocable (r : Registry α) : Prop :=
  ∀ d p, r.create? d = some p → p.capacity < capacityLimit

/-- What the registry makes the other one makes, too, composites with as much room or more. -/
def Extends (r r' : Registry α) : Prop :=
  ∀ d p, r.create? d = some p → ∃ p', r'.create? d = some p' ∧ p.Widens p'

theorem Knows.extends (h : r.Knows es) (h' : r'.Knows es')
    (hes : ∀ e ∈ es, ∃ e' ∈ es', e'.name = e.name ∧ e.prototype.Widens e'.prototype) :
    r.Extends r' := by
  intro d p hp
  obtain ⟨e, he, rfl⟩ := Option.map_eq_some_iff.1 hp
  obtain ⟨hmem, hname⟩ := (h d e).1 he
  obtain ⟨e', hmem', hname', hwidens⟩ := hes e hmem
  exact ⟨_, Option.map_eq_some_iff.2 ⟨e', (h' d e').2 ⟨hmem', hname'.trans hname⟩, rfl⟩, hwidens⟩

theorem Knows.allocable (h : r.Knows es) (hes : ∀ e ∈ es, e.prototype.capacity < capacityLimit) :
    r.Allocable := by
  intro d p hp
  obtain ⟨e, he, rfl⟩ := Option.map_eq_some_iff.1 hp
  exact hes e ((h d e).1 he).1

variable [Recorded α]

/-- A registry with the same registrations and others, the builtin composites of which have as
much room or more. -/
theorem extends_of_registerEach {k k' : Nat} (hk : k ≤ k') (hcapacity : k' < capacityLimit)
    {calls calls' : List (Registration α)} {log log' : List (Registration α × Option Fault)}
    (h : registerEach calls (withBuiltins k) = (log, r))
    (h' : registerEach calls' (withBuiltins k') = (log', r')) (hsub : accepted log ⊆ accepted log')
    (hmade : ∀ e ∈ accepted log', e.prototype.capacity < capacityLimit) :
    r.Extends r' ∧ r'.Allocable := by
  have hstores : r.Stores (builtins k ++ accepted log) := by
    have hr := (stores_withBuiltins k).registerEach calls
    rwa [h] at hr
  have hstores' : r'.Stores (builtins k' ++ accepted log') := by
    have hr := (stores_withBuiltins k').registerEach calls'
    rwa [h'] at hr
  constructor
  · refine hstores.knows.extends hstores'.knows fun e he => ?_
    rcases List.mem_append.1 he with he | he
    · rcases mem_builtins_iff.1 he with rfl | rfl
      · exact ⟨_, List.mem_append_left _ (mem_builtins_iff.2 (.inl rfl)), rfl, .refl _⟩
      · exact ⟨_, List.mem_append_left _ (mem_builtins_iff.2 (.inr rfl)), rfl, .composite _ _ hk⟩
    · exact ⟨e, List.mem_append_right _ (hsub he), rfl, .refl _⟩
  · refine hstores'.knows.allocable fun e he => ?_
    rcases List.mem_append.1 he with he | he
    · rcases mem_builtins_iff.1 he with rfl | rfl
      · exact Nat.zero_lt_of_lt hcapacity
      · exact hcapacity
    · exact hmade e he

/-! ## Reading with both -/

section Reading

variable {child child' : Stream (Command α)}

theorem Extends.refines_readBy (h : r.Extends r') (hchild : child.Refines Matches child') :
    (r.readBy child).Refines Matches (r'.readBy child') := by
  refine (Stream.refines_refl Stream.readDescriptor).bind ?_
  rintro found _ rfl
  cases hmake : r.create? found with
  | none =>
    rw [instantiate, hmake]
    exact Stream.refines_of_isLack (.unknownType found.fullName) trivial _
  | some p =>
    obtain ⟨p', hmake', hwidens⟩ := h found p hmake
    rw [instantiate, instantiate, hmake, hmake']
    simp only [hwidens.descriptor_eq]
    by_cases hfound : p.descriptor = found
    · rw [if_pos hfound, if_pos hfound]
      exact refines_readBody hchild hwidens
    · rw [if_neg hfound, if_neg hfound]
      exact Stream.refines_throw _

theorem Extends.refines_readWithin (h : r.Extends r') (limit : Nat) :
    (r.readWithin limit).Refines Matches (r'.readWithin limit) := by
  induction limit with
  | zero => exact Stream.refines_throw _
  | succ limit ih =>
    rw [readWithin_succ_eq, readWithin_succ_eq]
    exact h.refines_readBy ih

end Reading

/-- Reading is monotone in the registry.  If `r'` `Extends` `r`, what `r` reads is read by `r'`
from the same bytes and equal to it.  Where `r` fails for another cause than a type or room that
it lacks (`unknownType`, `capacityExceeded`), `r'` fails with the same fault at the same place.

`r'` is `Allocable`, so the composites that either registry is asked to make can be made. -/
theorem readCommand_of_extends [DecidableEq α] (h : r.Extends r') (_hr' : r'.Allocable)
    (b : Buffer) :
    (∀ c b', r.readCommand b = .ok c b' →
      ∃ c', r'.readCommand b = .ok c' b' ∧ equals c' c = true) ∧
    ∀ fault b', r.readCommand b = .error fault b' → (∀ name, fault ≠ .unknownType name) →
      (∀ capacity, fault ≠ .capacityExceeded capacity) → r'.readCommand b = .error fault b' := by
  have hfollows : Stream.Follows Matches (r.readCommand b) (r'.readCommand b) :=
    h.refines_readWithin _ b
  generalize r.readCommand b = result, r'.readCommand b = result' at hfollows
  cases hfollows with
  | @ok c c' b' hc =>
    refine ⟨?_, nofun⟩
    rintro _ _ ⟨⟩
    exact ⟨c', rfl, (equals_iff_fit_eq defaultCapacity c' c).2 hc⟩
  | @error fault b' =>
    refine ⟨nofun, ?_⟩
    rintro _ _ ⟨⟩ - -
    rfl
  | @lack fault b' _ hlack =>
    refine ⟨nofun, ?_⟩
    rintro _ _ ⟨⟩ htype hroom
    cases fault with
    | unknownType name => exact absurd rfl (htype name)
    | capacityExceeded capacity => exact absurd rfl (hroom capacity)
    | _ => cases hlack

/-- The sample is read with room for three children and with room for five, and from an empty
buffer nothing is read either way. -/
theorem readCommand_of_extends_sample :
    ∃ inc addN dec undoFail : Registration Tally, ∃ r r' b c' b',
      registerEach [inc, addN, dec] (withBuiltins 3) =
        ([(inc, none), (addN, none), (dec, none)], r) ∧
      registerEach [undoFail, dec, inc, addN] (withBuiltins 5) =
        ([(undoFail, none), (dec, none), (inc, none), (addN, none)], r') ∧
      r'.Allocable ∧ r.readCommand b = .ok (Tally.sample.fit 3) b' ∧
      r'.readCommand b = .ok c' b' ∧ equals c' (Tally.sample.fit 3) = true ∧
      r'.readCommand .empty = .error (.underflow 0 212 0) .empty := by
  let inc : Registration Tally := .ofPrototype (.leaf (.fresh nullId) .inc)
  let addN : Registration Tally := .ofPrototype (.leaf (.fresh nullId) (.addN 0))
  let dec : Registration Tally := .ofPrototype (.leaf (.fresh nullId) .dec)
  let undoFail : Registration Tally := .ofPrototype (.leaf (.fresh nullId) .undoFail)
  obtain ⟨r, hleaves, hr⟩ : ∃ r, withLeaves 3 [Tally.inc, .addN 0, .dec] = .ok r ∧
      registerEach [inc, addN, dec] (withBuiltins 3) =
        ([(inc, none), (addN, none), (dec, none)], r) := ⟨_, rfl, rfl⟩
  obtain ⟨r', hr'⟩ : ∃ r', registerEach [undoFail, dec, inc, addN] (withBuiltins 5) =
      ([(undoFail, none), (dec, none), (inc, none), (addN, none)], r') := ⟨_, rfl⟩
  obtain ⟨hextends, hallocable⟩ : r.Extends r' ∧ r'.Allocable := by
    refine extends_of_registerEach (by decide) (by decide) hr hr' ?_ ?_
    · intro e he
      simp only [accepted_cons_none] at he ⊢
      simp only [List.mem_cons] at he ⊢
      tauto
    · intro e he
      simp only [accepted_cons_none] at he
      simp only [List.mem_cons] at he
      rcases he with rfl | rfl | rfl | rfl | he
      · decide
      · decide
      · decide
      · decide
      · cases he
  obtain ⟨b, b', -, -, hread⟩ := readCommand_sample hleaves
  obtain ⟨c', hread', hequals⟩ := (readCommand_of_extends hextends hallocable b).1 _ b' hread
  have hempty : r.readCommand .empty = .error (.underflow 0 212 0) .empty := rfl
  have hempty' := (readCommand_of_extends hextends hallocable .empty).2 _ _ hempty nofun nofun
  exact ⟨inc, addN, dec, undoFail, r, r', b, c', b', hr, hr', hallocable, hread, hread', hequals,
    hempty'⟩

end Registry

end RecordStream
