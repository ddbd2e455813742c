import RecordStream.Proofs.Command.Leaves

/-!
# Undoing a command is compensating the leaves that are due

Whether undoing gets to a leaf is decided by the marks on the way to it: the leaf is
due if it is marked and all composites around it are (`Place.isDue`), whatever has led
to these marks.  Undoing a command compensates the leaves that are due from first to
last, up to the first that fails (`inTurn_compensate`).  All others are left alone, and
of the tree nothing changes but actions.

The proof goes over all leaves: `undo` is an attempt at each of them in turn
(`inTurn_attempt`), and an attempt at a leaf that is not due does nothing.
-/

namespace RecordStream

namespace Command

open Outcome (InTurn)

variable {α σ : Type}

/-! ## Leaves and what is around them -/

/-- A leaf, and the cores of the composites around it, the innermost one first. -/
structure Place (α : Type) where
  around : List Core
  leaf : Command α

/-- Undoing gets to the leaf: it is marked, and so are all composites around it. -/
def Place.isDue (p : Place α) : Bool :=
  p.leaf.ok && p.around.all Core.ok

mutual

/-- The leaves of a command, from first to last, if the command itself has these composites
around it. -/
def placesIn (around : List Core) : Command α → List (Place α)
  | .null core => [⟨around, .null core⟩]
  | .leaf core action => [⟨around, .leaf core action⟩]
  | .composite core _ children => placesInAll (core :: around) children

def placesInAll (around : List Core) : List (Command α) → List (Place α)
  | [] => []
  | c :: cs => placesIn around c ++ placesInAll around cs

end

/-- The leaves of a command, from first to last. -/
def places (t : Command α) : List (Place α) :=
  t.placesIn []

theorem placesInAll_eq (around : List Core) (cs : List (Command α)) :
    placesInAll around cs = cs.flatMap (placesIn around) := by
  induction cs with
  | nil => rfl
  | cons c cs ih => rw [placesInAll, ih, List.flatMap_cons]

theorem placesIn_composite (around : List Core) (core : Core) (k : Nat) (cs : List (Command α)) :
    (composite core k cs).placesIn around = cs.flatMap (placesIn (core :: around)) := by
  rw [placesIn, placesInAll_eq]

theorem placesIn_of_isLeaf {t : Command α} (h : t.isLeaf = true) (around : List Core) :
    t.placesIn around = [⟨around, t⟩] := by
  cases t with
  | null core => rfl
  | leaf core action => rfl
  | composite core k cs => cases h

/-- These are the leaves in the order in which they are run. -/
theorem map_leaf_placesIn (around : List Core) (t : Command α) :
    (t.placesIn around).map Place.leaf = t.leaves := by
  induction t using induction_on_children generalizing around with
  | step t ih =>
    cases t with
    | null core => rfl
    | leaf core action => rfl
    | composite core k cs =>
      rw [placesIn_composite, leaves_composite, List.map_flatMap]
      exact List.flatMap_congr fun c hc => ih c hc (core :: around)

/-- Whatever is around a command is around its leaves. -/
theorem mem_around_of_mem_placesIn {t : Command α} {around : List Core} {p : Place α}
    (hp : p ∈ t.placesIn around) {core : Core} (hcore : core ∈ around) : core ∈ p.around := by
  induction t using induction_on_children generalizing around with
  | step t ih =>
    cases t with
    | null _ =>
      cases List.mem_singleton.1 hp
      exact hcore
    | leaf _ _ =>
      cases List.mem_singleton.1 hp
      exact hcore
    | composite core' k cs =>
      rw [placesIn_composite] at hp
      obtain ⟨c, hc, hp⟩ := List.mem_flatMap.1 hp
      exact ih c hc hp (List.mem_cons_of_mem _ hcore)

theorem isDue_eq_false_of_mem_placesIn {t : Command α} {around : List Core} {p : Place α}
    (hp : p ∈ t.placesIn around) {core : Core} (hcore : core ∈ around) (hok : core.ok = false) :
    p.isDue = false := by
  have hall : p.around.all Core.ok = false :=
    List.all_eq_false.2 ⟨core, mem_around_of_mem_placesIn hp hcore, by simp [hok]⟩
  rw [Place.isDue, hall, Bool.and_false]

/-! ## Undoing -/

variable [Action α σ]

/-- Compensating changes nothing but actions. -/
theorem core_compensate (t : Command α) (w : σ) : (compensate t w).subject.core = t.core := by
  cases t with
  | null core => rw [compensate]
  | leaf core action =>
    rw [compensate]
    rfl
  | composite core k cs =>
    rw [compensate]
    rfl

theorem isLeaf_compensate (t : Command α) (w : σ) :
    (compensate t w).subject.isLeaf = t.isLeaf := by
  cases t with
  | null core => rw [compensate]
  | leaf core action =>
    rw [compensate]
    rfl
  | composite core k cs =>
    rw [compensate]
    rfl

theorem isLeaf_undo (t : Command α) (w : σ) : (undo t w).subject.isLeaf = t.isLeaf := by
  rw [undo]
  split
  · exact isLeaf_compensate t w
  · rfl

namespace Place

/-- Compensates the leaf. -/
def compensate (p : Place α) (w : σ) : Outcome (Place α) σ :=
  (p.leaf.compensate w).map (⟨p.around, ·⟩)

/-- Compensates the leaf if it is due. -/
def attempt (p : Place α) (w : σ) : Outcome (Place α) σ :=
  if p.isDue then p.compensate w else ⟨p, w, none⟩

theorem isDue_compensate (p : Place α) (w : σ) : (p.compensate w).subject.isDue = p.isDue := by
  have hok : (p.compensate w).subject.leaf.ok = p.leaf.ok :=
    congrArg Core.ok (core_compensate p.leaf w)
  rw [isDue, hok]
  rfl

/-- Where all composites around a command are marked, to attempt it is to undo it. -/
theorem attempt_eq_undo {around : List Core} (haround : around.all Core.ok = true) (t : Command α)
    (w : σ) : attempt ⟨around, t⟩ w = (undo t w).map (⟨around, ·⟩) := by
  rw [attempt, isDue, haround, Bool.and_true, undo]
  split
  · rfl
  · rfl

end Place

theorem inTurn_attempt_of_isLeaf {t : Command α} (ht : t.isLeaf = true) {around : List Core}
    (haround : around.all Core.ok = true) (w : σ) :
    InTurn Place.attempt (t.placesIn around) w ((undo t w).map (placesIn around)) := by
  have hundo := isLeaf_undo t w
  rw [ht] at hundo
  have hturn := InTurn.singleton Place.attempt ⟨around, t⟩ w
  rw [Place.attempt_eq_undo haround] at hturn
  rw [Outcome.map, placesIn_of_isLeaf ht, placesIn_of_isLeaf hundo]
  exact hturn

/-- Undoing a command is attempting its leaves in turn. -/
theorem inTurn_attempt (t : Command α) {around : List Core} (haround : around.all Core.ok = true)
    (w : σ) : InTurn Place.attempt (t.placesIn around) w ((undo t w).map (placesIn around)) := by
  induction t using induction_on_children generalizing around w with
  | step t ih =>
    cases t with
    | null core => exact inTurn_attempt_of_isLeaf rfl haround w
    | leaf core action => exact inTurn_attempt_of_isLeaf rfl haround w
    | composite core k cs =>
      rw [undo_composite, placesIn_composite]
      cases hok : core.ok with
      | true =>
        have hinner : (core :: around).all Core.ok = true := by
          rw [List.all_cons, hok, haround]
          rfl
        have hturn := (inTurn_undoAll cs w).flatMap fun c hc w => ih c hc hinner w
        rw [if_pos rfl, Outcome.map, Outcome.map, placesIn_composite]
        exact hturn
      | false =>
        rw [if_neg Bool.false_ne_true, Outcome.map, placesIn_composite]
        -- the composite keeps its leaves from being due
        refine .of_idle fun p hp => ?_
        obtain ⟨c, -, hp⟩ := List.mem_flatMap.1 hp
        have hdue := isDue_eq_false_of_mem_placesIn hp List.mem_cons_self hok
        rw [Place.attempt, hdue, if_neg Bool.false_ne_true]

/-- The leaves that are due. -/
def due (t : Command α) : List (Place α) :=
  t.places.filter Place.isDue

/-- Undoing a command is compensating the leaves that are due in turn. -/
theorem inTurn_compensate (t : Command α) (w : σ) :
    InTurn Place.compensate t.due w ((undo t w).map due) :=
  (inTurn_attempt t rfl w).filter fun p _ w => p.isDue_compensate w

/-- Undoing a command leaves all other leaves alone. -/
theorem forall₂_places_undo (t : Command α) (w : σ) :
    List.Forall₂ (fun p q => q.around = p.around ∧ (p.isDue = false → q = p)) t.places
      (undo t w).subject.places := by
  refine (inTurn_attempt t rfl w).forall₂ (fun p _ => ⟨rfl, fun _ => rfl⟩) fun p _ w => ?_
  rw [Place.attempt]
  cases hdue : p.isDue with
  | true => exact ⟨rfl, fun h => absurd h (by simp)⟩
  | false => exact ⟨rfl, fun _ => rfl⟩

/-- `undo` of a tree compensates its leaves that are `due`, marked ones with nothing but marked
composites around them, in turn and up to the first fault (`InTurn`): world, fault and what
becomes of each of them are the same.  All other leaves stay as they are, and so do the cores, the
capacities and the numbers of children of all nodes, whatever marks there are to begin with. -/
theorem undo_eq_due_inTurn (t : Command α) (w : σ) :
    t.places.map Place.leaf = t.leaves ∧
    (∀ o, InTurn Place.compensate t.due w o ↔ o = (undo t w).map due) ∧
    List.Forall₂ (fun p q => q.around = p.around ∧ (p.isDue = false → q = p)) t.places
      (undo t w).subject.places ∧
    List.Forall₂ (Alike Eq) t.nodes (undo t w).subject.nodes := by
  refine ⟨map_leaf_placesIn [] t, fun o => ⟨fun h => h.unique (inTurn_compensate t w), ?_⟩,
    forall₂_places_undo t w, alike_undo t w⟩
  rintro rfl
  exact inTurn_compensate t w

end Command

end RecordStream
