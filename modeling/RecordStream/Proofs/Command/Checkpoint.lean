import RecordStream.Proofs.Command.Acceptance
import RecordStream.Proofs.Command.Equality
import RecordStream.Proofs.Command.Execution

/-!
# Checkpoints

Between two calls a command may be written to a buffer, and from then on what is read
from there takes its place.  The two are not the same: all composites that are read
have the capacity that the registry gives them (`Command.fit`).  But neither running
nor undoing looks at capacities (`Command.run_fit`, `Command.undo_fit`).

Whether a command can be read back is decided by its `Command.outline`, all of it but
marks and capacities, and that is what calls leave as it is if the actions of leaves do
not change themselves.  So a command that can be read back once can be read back at any
time, and its calls have the same faults and worlds whether that has been done or not
(`Registry.play_eq_follow`).
-/

namespace RecordStream

/-- Executing and compensating the action leaves it as it is. -/
def Action.Steady {α σ : Type} [Action α σ] (a : α) : Prop :=
  ∀ (core : Core) (w : σ), (Action.execute core a w).subject = a ∧
    (Action.compensate core a w).subject = a

theorem Tally.steady {t : Tally} (ht : ∀ hits, t ≠ .counter hits) : Action.Steady t := by
  cases t with
  | counter hits => exact absurd rfl (ht hits)
  | _ => exact fun _ _ => ⟨rfl, rfl⟩

namespace Command

open Outcome (InTurn)

variable {α σ : Type}

/-! ## Outlines -/

mutual

/-- The command without marks and capacities. -/
def outline : Command α → Command α
  | .null core => .null (.fresh core.id)
  | .leaf core action => .leaf (.fresh core.id) action
  | .composite core _ children => .composite (.fresh core.id) 0 (outlineAll children)

def outlineAll : List (Command α) → List (Command α)
  | [] => []
  | c :: cs => outline c :: outlineAll cs

end

theorem outline_composite (core : Core) (k : Nat) (cs : List (Command α)) :
    (composite core k cs).outline = .composite (.fresh core.id) 0 (cs.map outline) := by
  have outlineAll_eq (cs : List (Command α)) : outlineAll cs = cs.map outline := by
    induction cs with
    | nil => rfl
    | cons c cs ih => rw [outlineAll, ih, List.map_cons]
  rw [outline, outlineAll_eq]

theorem children_outline (c : Command α) : c.outline.children = c.children.map outline := by
  cases c with
  | null core => rfl
  | leaf core action => rfl
  | composite core k cs =>
    rw [outline_composite]
    rfl

theorem action?_outline (c : Command α) : c.outline.action? = c.action? := by
  cases c <;> rfl

theorem descriptor_outline [Recorded α] (c : Command α) :
    c.outline.descriptor = c.descriptor := by
  cases c <;> rfl

theorem sameType_outline_iff {R : α → α → Prop} {capacity : Nat} {p n : Command α} :
    p.SameType R capacity n.outline ↔ p.SameType R capacity n := by
  constructor
  · intro h
    cases n with
    | null core =>
      cases h with
      | null => exact .null
    | leaf core action =>
      cases h with
      | leaf h => exact .leaf h
    | composite core k cs =>
      cases h with
      | composite => exact .composite
  · intro h
    cases h with
    | null => exact .null
    | leaf h => exact .leaf h
    | composite => exact .composite

theorem nodes_outline (c : Command α) : c.outline.nodes = c.nodes.map outline := by
  induction c using induction_on_children with
  | step c ih =>
    rw [nodes_eq, nodes_eq c, children_outline, List.map_cons, List.map_flatMap, List.flatMap_map]
    congr 1
    exact List.flatMap_congr ih

/-- What holds of nodes because of their outlines holds of those of all commands of one outline. -/
theorem forall_mem_nodes_of_outline_eq {P Q : Command α → Prop} {c d : Command α}
    (h : c.outline = d.outline) (hP : ∀ m n, m.outline = n.outline → P m → Q n)
    (hc : ∀ m ∈ c.nodes, P m) : ∀ n ∈ d.nodes, Q n := by
  intro n hn
  have hmem : n.outline ∈ c.nodes.map outline := by
    rw [← nodes_outline, h, nodes_outline]
    exact List.mem_map_of_mem hn
  obtain ⟨m, hm, heq⟩ := List.mem_map.1 hmem
  exact hP m n heq (hc m hm)

theorem outline_fit (capacity : Nat) (c : Command α) : (c.fit capacity).outline = c.outline := by
  induction c using induction_on_children with
  | step c ih =>
    cases c with
    | null core => rfl
    | leaf core action => rfl
    | composite core k cs =>
      rw [fit, fitAll_eq, outline_composite, outline_composite, List.map_map]
      congr 1
      exact List.map_congr_left ih

theorem fit_fit (capacity : Nat) (c : Command α) :
    (c.fit capacity).fit capacity = c.fit capacity := by
  induction c using induction_on_children with
  | step c ih =>
    cases c with
    | null core => rfl
    | leaf core action => rfl
    | composite core k cs =>
      rw [fit, fit, fitAll_eq, fitAll_eq, List.map_map]
      congr 1
      exact List.map_congr_left ih

/-! ## Calls -/

section Calls

variable [Action α σ]

/-- Running does not look at capacities. -/
theorem run_fit (capacity : Nat) (c : Command α) (w : σ) :
    run (c.fit capacity) w = (run c w).map (fit capacity) := by
  induction c using induction_on_children generalizing w with
  | step c ih =>
    cases c with
    | null core =>
      rw [fit, run_null]
      rfl
    | leaf core action =>
      rw [fit, run_leaf]
      rfl
    | composite core k cs =>
      have hall : runAll (cs.map (fit capacity)) w = (runAll cs w).map (List.map (fit capacity)) :=
        (inTurn_runAll _ w).unique ((inTurn_runAll cs w).map ih)
      rw [fit, fitAll_eq, run_composite, hall, run_composite, Outcome.map, Outcome.map, fit,
        fitAll_eq]

/-- Undoing does not look at capacities. -/
theorem undo_fit (capacity : Nat) (c : Command α) (w : σ) :
    undo (c.fit capacity) w = (undo c w).map (fit capacity) := by
  induction c using induction_on_children generalizing w with
  | step c ih =>
    cases c with
    | null core =>
      rw [fit, undo_null]
      rfl
    | leaf core action =>
      rw [fit, undo_leaf]
      split
      · rfl
      · rfl
    | composite core k cs =>
      have hall : undoAll (cs.map (fit capacity)) w =
          (undoAll cs w).map (List.map (fit capacity)) :=
        (inTurn_undoAll _ w).unique ((inTurn_undoAll cs w).map ih)
      rw [fit, fitAll_eq, undo_composite, hall, undo_composite]
      split
      · rw [Outcome.map, Outcome.map, Outcome.map, Outcome.map, fit, fitAll_eq]
      · rw [Outcome.map, fit, fitAll_eq]

/-- Whether calls leave the actions of the leaves as they are. -/
def Steady (c : Command α) : Prop :=
  ∀ n ∈ c.nodes, ∀ a ∈ n.action?, Action.Steady a

theorem Steady.of_mem_children {c d : Command α} (h : c.Steady) (hd : d ∈ c.children) :
    d.Steady :=
  fun n hn => h n (mem_nodes_of_mem_children hd hn)

theorem Steady.of_outline_eq {c d : Command α} (hc : c.Steady) (h : c.outline = d.outline) :
    d.Steady := by
  refine forall_mem_nodes_of_outline_eq h (fun m n heq hm => ?_) hc
  rwa [← action?_outline, ← heq, action?_outline]

theorem outline_run {c : Command α} (hc : c.Steady) (w : σ) :
    (run c w).subject.outline = c.outline := by
  induction c using induction_on_children generalizing w with
  | step c ih =>
    cases c with
    | null core =>
      rw [run_null]
      rfl
    | leaf core action =>
      have hsteady := hc _ (mem_nodes_self _) action rfl
      rw [run_leaf, outline, outline, (hsteady core w).1, Core.id_afterRun]
    | composite core k cs =>
      have hchildren : (runAll cs w).subject.map outline = cs.map outline :=
        (inTurn_runAll cs w).map_subject fun d hd w => ih d hd (hc.of_mem_children hd) w
      rw [run_composite, outline_composite, outline_composite, hchildren, Core.id_afterRun]

theorem outline_undo {c : Command α} (hc : c.Steady) (w : σ) :
    (undo c w).subject.outline = c.outline := by
  induction c using induction_on_children generalizing w with
  | step c ih =>
    cases c with
    | null core => rw [undo_null]
    | leaf core action =>
      have hsteady := hc _ (mem_nodes_self _) action rfl
      rw [undo_leaf]
      split
      · rw [Outcome.map, outline, (hsteady core w).2, outline]
      · rfl
    | composite core k cs =>
      have hchildren : (undoAll cs w).subject.map outline = cs.map outline :=
        (inTurn_undoAll cs w).map_subject fun d hd w => ih d hd (hc.of_mem_children hd) w
      rw [undo_composite]
      split
      · rw [Outcome.map, outline_composite, outline_composite, hchildren]
      · rfl

/-! ## Series of calls -/

inductive Call
  | run
  | undo

def Call.make : Call → Command α → σ → Outcome (Command α) σ
  | .run => Command.run
  | .undo => Command.undo

/-- What comes of some calls: how each of them ended and the world that it left, and what has
become of the command. -/
def follow : List Call → Command α → σ → List (Option Fault × σ) × Command α
  | [], c, _ => ([], c)
  | call :: calls, c, w =>
    let o := call.make c w
    let (seen, d) := follow calls o.subject o.world
    ((o.fault?, o.world) :: seen, d)

theorem make_fit (call : Call) (capacity : Nat) (c : Command α) (w : σ) :
    call.make (c.fit capacity) w = (call.make c w).map (fit capacity) := by
  cases call with
  | run => exact run_fit capacity c w
  | undo => exact undo_fit capacity c w

theorem outline_make {c : Command α} (hc : c.Steady) (call : Call) (w : σ) :
    (call.make c w).subject.outline = c.outline := by
  cases call with
  | run => exact outline_run hc w
  | undo => exact outline_undo hc w

/-- Commands that differ in capacities alone do so after a call, and all else is the same. -/
theorem make_eq_of_fit_eq {capacity : Nat} {c d : Command α}
    (h : c.fit capacity = d.fit capacity) (call : Call) (w : σ) :
    (call.make c w).subject.fit capacity = (call.make d w).subject.fit capacity ∧
      (call.make c w).world = (call.make d w).world ∧
      (call.make c w).fault? = (call.make d w).fault? := by
  have hmap := make_fit call capacity c w
  rw [h, make_fit, Outcome.map, Outcome.map] at hmap
  injection hmap with hsubject hworld hfault
  exact ⟨hsubject.symm, hworld.symm, hfault.symm⟩

end Calls

end Command

namespace Registry

open Command

variable {α σ : Type} [Recorded α] {r : Registry α} {capacity : Nat} {t t' : Command α}

/-- Whether a command can be read back depends on nothing but its outline. -/
theorem Carries.of_outline_eq (h : r.Carries capacity t) (heq : t.outline = t'.outline) :
    r.Carries capacity t' := by
  have hlength {m n : Command α} (hmn : m.outline = n.outline) :
      m.children.length = n.children.length := by
    rw [← List.length_map, ← children_outline, hmn, children_outline, List.length_map]
  have hdescriptor {m n : Command α} (hmn : m.outline = n.outline) :
      m.descriptor = n.descriptor := by
    rw [← descriptor_outline, hmn, descriptor_outline]
  refine ⟨⟨?_, ?_, ?_⟩, ?_⟩
  · refine forall_mem_nodes_of_outline_eq heq (fun m n hmn hm => ?_) h.storable
    rwa [← action?_outline, ← hmn, action?_outline]
  · refine forall_mem_nodes_of_outline_eq heq (fun m n hmn hm => ?_) h.countable
    rwa [← hlength hmn]
  · refine forall_mem_nodes_of_outline_eq heq (fun m n hmn hm p hp => ?_) h.suits
    rw [← sameType_outline_iff, ← hmn, sameType_outline_iff]
    exact hm p (by rwa [hdescriptor hmn])
  · refine forall_mem_nodes_of_outline_eq heq (fun m n hmn hm => ?_) h.passes
    exact ⟨hdescriptor hmn ▸ hm.known, hlength hmn ▸ hm.length_le⟩

/-! ## Calls with checkpoints -/

/-- What is done with a command: it is called, or written to a buffer of which all has been
read, and replaced by what is read from there. -/
inductive Move
  | call (c : Call)
  | checkpoint (b : Buffer) (h : b.unread = [])

def Move.call? : Move → Option Call
  | .call c => some c
  | .checkpoint .. => none

variable [Action α σ]

/-- What comes of some moves: how each call ended and the world that it left, and what has become
of the command.  A checkpoint that fails is the end. -/
def play (r : Registry α) :
    List Move → Command α → σ → Except Fault (List (Option Fault × σ) × Command α)
  | [], c, _ => .ok ([], c)
  | .call call :: moves, c, w =>
    let o := call.make c w
    (r.play moves o.subject o.world).map fun (seen, d) => ((o.fault?, o.world) :: seen, d)
  | .checkpoint b _ :: moves, c, w =>
    match r.readBack c b with
    | .ok c _ => r.play moves c w
    | .error fault _ => .error fault

/-- `play` does what `follow` does without the checkpoints, if the registry carries the command.
The induction is on the moves, and the two commands are kept equal but for capacities (`fit`). -/
theorem Carries.play_eq (h : r.Carries capacity t) (hsteady : t.Steady)
    (hfit : t.fit capacity = t'.fit capacity) (moves : List Move) (w : σ) :
    ∃ d, r.play moves t w = .ok ((follow (moves.filterMap Move.call?) t' w).1, d) ∧
      d.fit capacity = (follow (moves.filterMap Move.call?) t' w).2.fit capacity := by
  -- up to capacities, the command is at any time what it would be without checkpoints
  induction moves generalizing t t' w with
  | nil => exact ⟨t, rfl, hfit⟩
  | cons move moves ih =>
    cases move with
    | call call =>
      have houtline := outline_make hsteady call w
      obtain ⟨hsubject, hworld, hfault⟩ := make_eq_of_fit_eq hfit call w
      obtain ⟨d, hplay, hd⟩ := ih (h.of_outline_eq houtline.symm)
        (hsteady.of_outline_eq houtline.symm) hsubject (call.make t w).world
      rw [hworld] at hplay hd
      refine ⟨d, ?_, hd⟩
      rw [play, hworld, hplay, hfault]
      rfl
    | checkpoint b hb =>
      have houtline := (outline_fit capacity t).symm
      obtain ⟨b', hread⟩ := h.readBack hb
      obtain ⟨d, hplay, hd⟩ := ih (h.of_outline_eq houtline) (hsteady.of_outline_eq houtline)
        ((fit_fit capacity t).trans hfit) w
      refine ⟨d, ?_, hd⟩
      rw [play, hread]
      exact hplay

/-- Checkpoints do not show.  `play` makes a series of moves on a command, which are calls and
checkpoints at which `readBack` replaces the command; `follow` makes only the calls.  If the
command can be read back once, `play` never fails: all calls have the faults and the worlds that
`follow` gives them, and the two commands in the end are equal.

Reading back changes capacities only, which no call looks at, and calls keep the `outline` on
which it depends whether a command can be read back. -/
theorem play_eq_follow {r : Registry Tally} {t got : Command Tally} {b b' : Buffer}
    (hcounter : ∀ n ∈ t.nodes, ∀ hits, n.action? ≠ some (.counter hits)) (hcount : t.Countable)
    (hb : b.unread = []) (hread : r.readBack t b = .ok got b') (moves : List Move) (w : Ledger) :
    ∃ d, r.play moves t w = .ok ((follow (moves.filterMap Move.call?) t w).1, d) ∧
      d.equals (follow (moves.filterMap Move.call?) t w).2 = true := by
  have hid := Tally.identified hcounter
  have hadmits := (readBack_eq_ok_iff hid hcount hb).1 ⟨got, b', hread⟩
  have hsteady : t.Steady := by
    intro n hn a ha
    refine Tally.steady ?_
    rintro hits rfl
    exact hcounter n hn hits ha
  obtain ⟨d, hplay, hd⟩ := (hadmits.carries hid hcount).play_eq hsteady rfl moves w
  exact ⟨d, hplay, (equals_iff_fit_eq r.room d _).2 hd⟩

/-- The sample is run, read back and undone: the count goes up to five and back to zero. -/
theorem play_eq_follow_sample :
    ∃ r d, withLeaves 3 [Tally.inc, .addN 0, .dec] = .ok r ∧
      r.play [.call .run, .checkpoint .empty rfl, .call .undo] Tally.sample .empty =
        .ok ((follow [.run, .undo] Tally.sample .empty).1, d) ∧
      (follow [.run, .undo] Tally.sample .empty).1.map (fun s => (s.1, s.2.count)) =
        [(none, 5), (none, 0)] ∧
      d.equals (follow [.run, .undo] Tally.sample .empty).2 = true := by
  obtain ⟨r, hr⟩ : ∃ r, withLeaves 3 [Tally.inc, .addN 0, .dec] = .ok r := ⟨_, rfl⟩
  obtain ⟨b', hread⟩ := (carries_sample hr).readBack (b := .empty) rfl
  obtain ⟨d, hplay, hd⟩ := play_eq_follow Tally.action?_sample Tally.countable_sample rfl hread
    [.call .run, .checkpoint .empty rfl, .call .undo] .empty
  exact ⟨r, d, hr, hplay, by decide, hd⟩

end Registry

end RecordStream
