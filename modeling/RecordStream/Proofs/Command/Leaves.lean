import RecordStream.Proofs.Command.Execution

/-!
# Running a command is running its leaves

The leaves of a command are its nodes that are no composites, in the order in which
they stand.  Running the command does to them, and to the world, what running them
one after the other does, up to the first that fails, and it ends as that does
(`inTurn_run`): the nesting makes no difference.

Where it does make one is the marks.  A node has its turn when the leaves in front of
it have gone without fault, and it is then run in the world that they leave behind;
otherwise it stays as it is (`Turn`).
-/

namespace RecordStream.Command

open Outcome (InTurn)

variable {α σ : Type}

def isLeaf : Command α → Bool
  | .composite .. => false
  | _ => true

/-- The nodes that are no composites. -/
def leaves (t : Command α) : List (Command α) :=
  t.nodes.filter isLeaf

theorem leaves_of_isLeaf {t : Command α} (h : t.isLeaf = true) : t.leaves = [t] := by
  cases t with
  | null core => rfl
  | leaf core action => rfl
  | composite core k cs => cases h

theorem filter_flatMap_nodes (cs : List (Command α)) :
    (cs.flatMap nodes).filter isLeaf = cs.flatMap leaves :=
  List.filter_flatMap

theorem leaves_composite (core : Core) (k : Nat) (cs : List (Command α)) :
    (composite core k cs).leaves = cs.flatMap leaves := by
  rw [leaves, nodes_eq, List.filter_cons_of_neg Bool.false_ne_true]
  exact filter_flatMap_nodes cs

variable [Action α σ]

theorem isLeaf_run (t : Command α) (w : σ) : (run t w).subject.isLeaf = t.isLeaf := by
  cases t with
  | null core =>
    rw [run_null]
    rfl
  | leaf core action =>
    rw [run_leaf]
    rfl
  | composite core k cs =>
    rw [run_composite]
    rfl

theorem inTurn_run_of_isLeaf {t : Command α} (ht : t.isLeaf = true) (w : σ) :
    InTurn run t.leaves w ((run t w).map leaves) := by
  have hrun := isLeaf_run t w
  rw [ht] at hrun
  rw [Outcome.map, leaves_of_isLeaf ht, leaves_of_isLeaf hrun]
  exact .singleton run t w

/-- Running a command is running its leaves in turn. -/
theorem inTurn_run (t : Command α) (w : σ) : InTurn run t.leaves w ((run t w).map leaves) := by
  induction t using induction_on_children generalizing w with
  | step t ih =>
    cases t with
    | null core => exact inTurn_run_of_isLeaf rfl w
    | leaf core action => exact inTurn_run_of_isLeaf rfl w
    | composite core k cs =>
      have hturn := (inTurn_runAll cs w).flatMap ih
      rw [run_composite, leaves_composite, Outcome.map, leaves_composite]
      exact hturn

/-! ## Single nodes -/

/-- What running makes of the node `n` if the leaves `front` stand in front of it.  If these go
without fault, the node is run in the world that they leave, and is marked if that goes
without fault, too; otherwise its mark stays.  If one of them fails, all of it stays. -/
inductive Turn (front : List (Command α)) (w : σ) (n : Command α) : Command α → Prop
  | ok {ls : List (Command α)} {n' : Command α} {w₁ w₂ : σ} :
      InTurn run front w ⟨ls, w₁, none⟩ → run n w₁ = ⟨n', w₂, none⟩ → n'.ok = true →
      Turn front w n n'
  | failed {ls : List (Command α)} {n' : Command α} {w₁ w₂ : σ} {fault : Fault} :
      InTurn run front w ⟨ls, w₁, none⟩ → run n w₁ = ⟨n', w₂, some fault⟩ → n'.ok = n.ok →
      Turn front w n n'
  | unreached {ls : List (Command α)} {w₁ : σ} {fault : Fault} :
      InTurn run front w ⟨ls, w₁, some fault⟩ → Turn front w n n

namespace Turn

variable {front front' ls : List (Command α)} {w w₁ : σ} {n n' : Command α}

theorem reached (h : InTurn run front w ⟨ls, w₁, none⟩) (n : Command α) :
    Turn front w n (run n w₁).subject := by
  cases hrun : run n w₁ with
  | mk n' w₂ e =>
    cases e with
    | none => exact .ok h hrun (ok_of_run hrun)
    | some fault => exact .failed h hrun (ok_eq_of_run hrun)

/-- Further leaves that go without fault are run first. -/
theorem behind (h : InTurn run front w ⟨ls, w₁, none⟩) (hn : Turn front' w₁ n n') :
    Turn (front ++ front') w n n' := by
  cases hn with
  | ok h' hrun hok => exact .ok (h.append h') hrun hok
  | failed h' hrun hok => exact .failed (h.append h') hrun hok
  | unreached h' => exact .unreached (h.append h')

end Turn

/-- Each of these nodes has its turn, the first one behind the leaves `front`, and the next ones
also behind the leaves among the nodes in front of them. -/
inductive Turns : List (Command α) → σ → List (Command α) → List (Command α) → Prop
  | nil {front : List (Command α)} {w : σ} : Turns front w [] []
  | cons {front ns ns' : List (Command α)} {w : σ} {n n' : Command α} :
      Turn front w n n' → Turns (front ++ [n].filter isLeaf) w ns ns' →
      Turns front w (n :: ns) (n' :: ns')

namespace Turns

variable {front front' ls ns ns' ms ms' : List (Command α)} {w w₁ : σ} {n : Command α}

/-- Nodes behind others have the leaves among these in front of them, too. -/
theorem append (h : Turns front w ns ns') (h' : Turns (front ++ ns.filter isLeaf) w ms ms') :
    Turns front w (ns ++ ms) (ns' ++ ms') := by
  induction h with
  | nil => rwa [List.filter_nil, List.append_nil] at h'
  | cons hn _ ih =>
    rw [← List.singleton_append, List.filter_append, ← List.append_assoc] at h'
    exact .cons hn (ih h')

theorem behind (h : InTurn run front w ⟨ls, w₁, none⟩) (hns : Turns front' w₁ ns ns') :
    Turns (front ++ front') w ns ns' := by
  induction hns with
  | nil => exact .nil
  | cons hn _ ih =>
    refine .cons (hn.behind h) ?_
    rw [List.append_assoc]
    exact ih h

/-- Behind a leaf that fails all nodes stay as they are. -/
theorem unreached {fault : Fault} (h : InTurn run front w ⟨ls, w₁, some fault⟩)
    (ns : List (Command α)) : Turns front w ns ns := by
  induction ns generalizing front ls with
  | nil => exact .nil
  | cons n ns ih => exact .cons (.unreached h) (ih (h.append_of_fault _))

/-- The turn of a single node. -/
theorem exists_turn {before after : List (Command α)}
    (h : Turns front w (before ++ n :: after) ns') :
    ∃ before' n' after', ns' = before' ++ n' :: after' ∧ before'.length = before.length ∧
      Turn (front ++ before.filter isLeaf) w n n' := by
  induction before generalizing front ns' with
  | nil =>
    cases h with
    | cons hn _ =>
      rw [List.filter_nil, List.append_nil]
      exact ⟨[], _, _, rfl, rfl, hn⟩
  | cons m before ih =>
    cases h with
    | cons _ h =>
      obtain ⟨before', n', after', rfl, hlen, hn⟩ := ih h
      rw [List.append_assoc, ← List.filter_append, List.singleton_append] at hn
      exact ⟨_ :: before', n', after', rfl, congrArg Nat.succ hlen, hn⟩

/-- If the nodes of each command have their turns when it is run, those of commands that are run
one after the other have theirs. -/
theorem flatMap {cs : List (Command α)} {o : Outcome (List (Command α)) σ}
    (hcs : ∀ c ∈ cs, ∀ w : σ, Turns [] w c.nodes (run c w).subject.nodes)
    (h : InTurn run cs w o) : Turns [] w (cs.flatMap nodes) (o.subject.flatMap nodes) := by
  induction h with
  | nil => exact .nil
  | @cons c d cs ds w w₁ w₂ e hc _ ih =>
    have hd := hcs c List.mem_cons_self w
    have hleaves := inTurn_run c w
    rw [hc] at hd hleaves
    -- the leaves of `c` went well, and the nodes of all other commands are behind them
    have hrest := (ih fun c hc => hcs c (List.mem_cons_of_mem _ hc)).behind hleaves
    rw [List.append_nil] at hrest
    exact hd.append hrest
  | @stop c d cs w w₁ fault hc =>
    have hd := hcs c List.mem_cons_self w
    have hleaves := inTurn_run c w
    rw [hc] at hd hleaves
    exact hd.append (unreached hleaves _)

end Turns

/-- Every node of a command has its turn. -/
theorem turns_run (t : Command α) (w : σ) : Turns [] w t.nodes (run t w).subject.nodes := by
  induction t using induction_on_children generalizing w with
  | step t ih =>
    rw [nodes_eq, nodes_eq]
    refine .cons (.reached .nil t) ?_
    cases t with
    | null core =>
      rw [run_null]
      exact .nil
    | leaf core action =>
      rw [run_leaf]
      exact .nil
    | composite core k cs =>
      rw [run_composite]
      exact .flatMap ih (inTurn_runAll cs w)

/-- `run` of a tree is the run of its `leaves` in turn, up to the first fault (`InTurn`): world,
fault and what becomes of each leaf are the same.  Each node of the tree, a composite or not,
changes as is right at its place behind the leaves in front of it (`Turn`). -/
theorem run_eq_leaves_inTurn (t : Command α) (w : σ) :
    (∀ o, InTurn run t.leaves w o ↔ o = (run t w).map leaves) ∧
    ∀ before n after, t.nodes = before ++ n :: after →
      ∃ before' n' after', (run t w).subject.nodes = before' ++ n' :: after' ∧
        before'.length = before.length ∧ Turn (before.filter isLeaf) w n n' := by
  refine ⟨fun o => ⟨fun h => h.unique (inTurn_run t w), ?_⟩, fun before n after h => ?_⟩
  · rintro rfl
    exact inTurn_run t w
  · have hturns := turns_run t w
    rw [h] at hturns
    exact hturns.exists_turn

/-- The third of four leaves fails, inside a composite.  The entries of the two in front of it
stand, and none but these two is marked. -/
theorem run_eq_leaves_inTurn_failing :
    failing.leaves.length = 4 ∧
      (∀ o, InTurn run failing.leaves Ledger.empty o ↔ o = (run failing .empty).map leaves) ∧
      (run failing .empty).fault? = some (.commandFailed "IncFail" "refused") ∧
      (run failing .empty).world.events.length = 2 ∧
      (run failing .empty).subject.nodes.map ok = [false, true, false, true, false, false] :=
  ⟨by decide, (run_eq_leaves_inTurn failing .empty).1, by decide, by decide, by decide⟩

end RecordStream.Command
