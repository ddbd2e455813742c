import Mathlib.Data.List.Forall2
import RecordStream.Command.Execution
import RecordStream.Proofs.Command.Nodes
import RecordStream.Tally

/-!
# One command after the other

`InTurn f xs w o` says what comes of applying an operation to some things from first
to last: up to the first fault, behind which all things stay as they are.  A
composite runs its children in turn (`inTurn_runAll`) and undoes them in turn
(`inTurn_undoAll`), so what holds of `InTurn` holds of both.

What neither of them changes is what sort of command stands where: node by node a
command and what has become of it are `Alike`, up to a relation on cores, which for
running is `Core.Kept`: ids stay, and no mark is taken back.
-/

namespace RecordStream

namespace Outcome

variable {τ υ σ : Type} {f : τ → σ → Outcome τ σ} {g : υ → σ → Outcome υ σ} {w w₁ w₂ : σ}
  {e : Option Fault} {fault : Fault} {xs xs' ys ys' : List τ} {o o' : Outcome (List τ) σ}

/-- The operation is applied to one thing after the other, up to the first fault. -/
inductive InTurn (f : τ → σ → Outcome τ σ) : List τ → σ → Outcome (List τ) σ → Prop
  | nil {w : σ} : InTurn f [] w ⟨[], w, none⟩
  | cons {x y : τ} {xs ys : List τ} {w w₁ w₂ : σ} {e : Option Fault} :
      f x w = ⟨y, w₁, none⟩ → InTurn f xs w₁ ⟨ys, w₂, e⟩ →
      InTurn f (x :: xs) w ⟨y :: ys, w₂, e⟩
  | stop {x y : τ} {xs : List τ} {w w₁ : σ} {fault : Fault} :
      f x w = ⟨y, w₁, some fault⟩ → InTurn f (x :: xs) w ⟨y :: xs, w₁, some fault⟩

namespace InTurn

/-- Behind things that went without fault it goes on with what they leave. -/
theorem append (h : InTurn f xs w ⟨xs', w₁, none⟩) (h' : InTurn f ys w₁ ⟨ys', w₂, e⟩) :
    InTurn f (xs ++ ys) w ⟨xs' ++ ys', w₂, e⟩ := by
  induction xs generalizing w xs' with
  | nil =>
    cases h
    exact h'
  | cons x xs ih =>
    cases h with
    | cons hx hxs => exact .cons hx (ih hxs)

/-- Behind a fault everything stays as it is. -/
theorem append_of_fault (h : InTurn f xs w ⟨xs', w₁, some fault⟩) (ys : List τ) :
    InTurn f (xs ++ ys) w ⟨xs' ++ ys, w₁, some fault⟩ := by
  induction xs generalizing w xs' with
  | nil => cases h
  | cons x xs ih =>
    cases h with
    | cons hx hxs => exact .cons hx (ih hxs)
    | stop hx => exact .stop hx

theorem unique (h : InTurn f xs w o) (h' : InTurn f xs w o') : o = o' := by
  induction h generalizing o' with
  | nil =>
    cases h'
    rfl
  | cons hx _ ih =>
    cases h' with
    | cons hx' hxs' =>
      rw [hx] at hx'
      cases hx'
      cases ih hxs'
      rfl
    | stop hx' =>
      rw [hx] at hx'
      cases hx'
  | stop hx =>
    cases h' with
    | cons hx' _ =>
      rw [hx] at hx'
      cases hx'
    | stop hx' =>
      rw [hx] at hx'
      cases hx'
      rfl

/-- What is related to itself and to what the operation makes of it is related to what comes
of it in turn. -/
theorem forall₂ {R : τ → τ → Prop} (hrefl : ∀ x ∈ xs, R x x)
    (hf : ∀ x ∈ xs, ∀ w, R x (f x w).subject) (h : InTurn f xs w o) :
    List.Forall₂ R xs o.subject := by
  induction h with
  | nil => exact .nil
  | @cons x y xs ys w w₁ w₂ e hx _ ih =>
    have hy := hf x List.mem_cons_self w
    rw [hx] at hy
    exact .cons hy (ih (fun x hx => hrefl x (List.mem_cons_of_mem _ hx))
      fun x hx => hf x (List.mem_cons_of_mem _ hx))
  | @stop x y xs w w₁ fault hx =>
    have hy := hf x List.mem_cons_self w
    rw [hx] at hy
    exact .cons hy (List.forall₂_same.2 fun x hx => hrefl x (List.mem_cons_of_mem _ hx))

/-- What holds of all things and of whatever the operation makes of them holds in the end. -/
theorem forall_mem {P : τ → Prop} (hP : ∀ x ∈ xs, P x) (hf : ∀ x ∈ xs, ∀ w, P (f x w).subject)
    (h : InTurn f xs w o) : ∀ y ∈ o.subject, P y := by
  have hall : List.Forall₂ (fun _ y => P y) xs o.subject := h.forall₂ hP hf
  generalize o.subject = ys at hall
  clear h hP hf
  induction hall with
  | nil => exact fun y hy => absurd hy List.not_mem_nil
  | cons hy _ ih => exact List.forall_mem_cons.2 ⟨hy, ih⟩

/-- If the operation works on things as another one does in turn on their parts, it works in
turn on things as the other one does on all their parts. -/
theorem flatMap {parts : τ → List υ}
    (hparts : ∀ x ∈ xs, ∀ w, InTurn g (parts x) w ((f x w).map parts)) (h : InTurn f xs w o) :
    InTurn g (xs.flatMap parts) w (o.map (·.flatMap parts)) := by
  induction h with
  | nil => exact .nil
  | @cons x y xs ys w w₁ w₂ e hx _ ih =>
    have hy := hparts x List.mem_cons_self w
    rw [hx] at hy
    exact hy.append (ih fun x hx => hparts x (List.mem_cons_of_mem _ hx))
  | @stop x y xs w w₁ fault hx =>
    have hy := hparts x List.mem_cons_self w
    rw [hx] at hy
    exact hy.append_of_fault (xs.flatMap parts)

theorem singleton (f : τ → σ → Outcome τ σ) (x : τ) (w : σ) :
    InTurn f [x] w ((f x w).map ([·])) := by
  cases h : f x w with
  | mk y w' e =>
    cases e with
    | none => exact .cons h .nil
    | some fault => exact .stop h

/-- If the operation works on things as another one does on what they are mapped to, so it does
in turn. -/
theorem map {φ : τ → υ} (hφ : ∀ x ∈ xs, ∀ w, g (φ x) w = (f x w).map φ) (h : InTurn f xs w o) :
    InTurn g (xs.map φ) w (o.map (List.map φ)) := by
  have hparts : ∀ x ∈ xs, ∀ w, InTurn g [φ x] w ((f x w).map fun y => [φ y]) := by
    intro x hx w
    have hturn := singleton g (φ x) w
    rw [hφ x hx w] at hturn
    exact hturn
  have hturn := h.flatMap hparts
  rw [Outcome.map, ← List.map_eq_flatMap, ← List.map_eq_flatMap] at hturn
  exact hturn

/-- What the operation leaves of each thing is left of all of them in turn. -/
theorem map_subject {φ : τ → υ} (hφ : ∀ x ∈ xs, ∀ w, φ (f x w).subject = φ x)
    (h : InTurn f xs w o) : o.subject.map φ = xs.map φ := by
  rw [← List.forall₂_eq_eq_eq, List.forall₂_map_left_iff, List.forall₂_map_right_iff]
  exact (h.forall₂ (R := fun x y => φ y = φ x) (fun _ _ => rfl) hφ).flip

/-- An operation that does nothing to the things does nothing to them in turn. -/
theorem of_idle (h : ∀ x ∈ xs, f x w = ⟨x, w, none⟩) : InTurn f xs w ⟨xs, w, none⟩ := by
  induction xs with
  | nil => exact .nil
  | cons x xs ih =>
    exact .cons (h x List.mem_cons_self) (ih fun y hy => h y (List.mem_cons_of_mem _ hy))

/-- Things that the operation passes over need not be there. -/
theorem filter {p : τ → Bool} (hp : ∀ x ∈ xs, ∀ w, p (f x w).subject = p x)
    (h : InTurn (fun x w => if p x then f x w else ⟨x, w, none⟩) xs w o) :
    InTurn f (xs.filter p) w (o.map (List.filter p)) := by
  induction h with
  | nil => exact .nil
  | @cons x y xs ys w w₁ w₂ e hx _ ih =>
    have hrest := ih fun x hx => hp x (List.mem_cons_of_mem _ hx)
    cases hpx : p x with
    | true =>
      rw [hpx, if_pos rfl] at hx
      have hpy := hp x List.mem_cons_self w
      rw [hx, hpx] at hpy
      rw [Outcome.map, List.filter_cons_of_pos hpx, List.filter_cons_of_pos hpy]
      exact .cons hx hrest
    | false =>
      rw [hpx, if_neg Bool.false_ne_true] at hx
      cases hx
      rw [Outcome.map, List.filter_cons_of_neg (by simp [hpx]),
        List.filter_cons_of_neg (by simp [hpx])]
      exact hrest
  | @stop x y xs w w₁ fault hx =>
    cases hpx : p x with
    | true =>
      rw [hpx, if_pos rfl] at hx
      have hpy := hp x List.mem_cons_self w
      rw [hx, hpx] at hpy
      rw [Outcome.map, List.filter_cons_of_pos hpx, List.filter_cons_of_pos hpy]
      exact .stop hx
    | false =>
      rw [hpx, if_neg Bool.false_ne_true] at hx
      cases hx

/-- A loop over things that stops at the first fault applies the operation in turn. -/
theorem of_loop {all : List τ → σ → Outcome (List τ) σ} (hnil : ∀ w, all [] w = ⟨[], w, none⟩)
    (hcons : ∀ x xs w, all (x :: xs) w =
      match (f x w).fault? with
      | none => (all xs (f x w).world).map ((f x w).subject :: ·)
      | some _ => (f x w).map (· :: xs))
    (xs : List τ) (w : σ) : InTurn f xs w (all xs w) := by
  induction xs generalizing w with
  | nil =>
    rw [hnil]
    exact .nil
  | cons x xs ih =>
    rw [hcons]
    cases h : f x w with
    | mk y w' e =>
      cases e with
      | none => exact .cons h (ih w')
      | some fault => exact .stop h

end InTurn

end Outcome

theorem forall₂_trans {β : Type} {R : β → β → Prop} (hR : ∀ {x y z}, R x y → R y z → R x z)
    {xs ys zs : List β} (h : List.Forall₂ R xs ys) (h' : List.Forall₂ R ys zs) :
    List.Forall₂ R xs zs := by
  induction h generalizing zs with
  | nil =>
    cases h'
    exact .nil
  | cons hx _ ih =>
    cases h' with
    | cons hy h' => exact .cons (hR hx hy) (ih h')

namespace Core

/-- The core after a run that ended in this way. -/
def afterRun (fault? : Option Fault) (c : Core) : Core :=
  match fault? with
  | none => c.markOk
  | some _ => c

@[simp] theorem id_afterRun (e : Option Fault) (c : Core) : (c.afterRun e).id = c.id := by
  cases e <;> rfl

@[simp] theorem ok_afterRun (e : Option Fault) (c : Core) :
    (c.afterRun e).ok = (c.ok || e.isNone) := by
  cases e with
  | none => exact (Bool.or_true _).symm
  | some fault => exact (Bool.or_false _).symm

/-- What runs leave of a core: its id, and its mark once that is set. -/
structure Kept (c d : Core) : Prop where
  id_eq : d.id = c.id
  ok_of_ok : c.ok = true → d.ok = true

theorem Kept.refl (c : Core) : c.Kept c := ⟨rfl, fun h => h⟩

theorem Kept.trans {c d e : Core} (h : c.Kept d) (h' : d.Kept e) : c.Kept e :=
  ⟨h'.id_eq.trans h.id_eq, fun hok => h'.ok_of_ok (h.ok_of_ok hok)⟩

theorem kept_afterRun (e : Option Fault) (c : Core) : c.Kept (c.afterRun e) :=
  ⟨id_afterRun e c, fun hok => by rw [ok_afterRun, hok, Bool.true_or]⟩

end Core

namespace Command

open Outcome (InTurn)

variable {α σ : Type}

/-! ## Nodes of one sort -/

/-- Two nodes of one sort, with as many children and the same capacity, whose cores are
related.  Their actions may differ. -/
inductive Alike (R : Core → Core → Prop) : Command α → Command α → Prop
  | null {c d : Core} : R c d → Alike R (.null c) (.null d)
  | leaf {c d : Core} {a b : α} : R c d → Alike R (.leaf c a) (.leaf d b)
  | composite {c d : Core} {k : Nat} {cs ds : List (Command α)} : R c d → ds.length = cs.length →
      Alike R (.composite c k cs) (.composite d k ds)

namespace Alike

variable {R : Core → Core → Prop} {c d e : Command α}

theorem refl (hR : ∀ c, R c c) (c : Command α) : Alike R c c := by
  cases c with
  | null core => exact .null (hR core)
  | leaf core action => exact .leaf (hR core)
  | composite core k cs => exact .composite (hR core) rfl

theorem trans (hR : ∀ {x y z}, R x y → R y z → R x z) (h : Alike R c d) (h' : Alike R d e) :
    Alike R c e := by
  cases h with
  | null hcd =>
    cases h' with
    | null hde => exact .null (hR hcd hde)
  | leaf hcd =>
    cases h' with
    | leaf hde => exact .leaf (hR hcd hde)
  | composite hcd hlen =>
    cases h' with
    | composite hde hlen' => exact .composite (hR hcd hde) (hlen'.trans hlen)

theorem mono {R' : Core → Core → Prop} (hR : ∀ {x y}, R x y → R' x y) (h : Alike R c d) :
    Alike R' c d := by
  cases h with
  | null h => exact .null (hR h)
  | leaf h => exact .leaf (hR h)
  | composite h hlen => exact .composite (hR h) hlen

theorem core (h : Alike R c d) : R c.core d.core := by
  cases h with
  | null h => exact h
  | leaf h => exact h
  | composite h _ => exact h

end Alike

variable {R : Core → Core → Prop}

theorem alike_nodes_refl (hR : ∀ c, R c c) (t : Command α) :
    List.Forall₂ (Alike R) t.nodes t.nodes :=
  List.forall₂_same.2 fun n _ => .refl hR n

/-- Composites are alike node by node if their cores are related and their children are. -/
theorem alike_nodes_composite {c d : Core} (hcore : R c d) (k : Nat) {cs ds : List (Command α)}
    (h : List.Forall₂ (fun c d => List.Forall₂ (Alike R) c.nodes d.nodes) cs ds) :
    List.Forall₂ (Alike R) (composite c k cs).nodes (composite d k ds).nodes := by
  rw [nodes_eq, nodes_eq]
  exact .cons (.composite hcore h.length_eq.symm) (List.rel_flatMap h fun _ _ hcd => hcd)

/-- Those that are alike node by node have related cores. -/
theorem core_of_alike_nodes {c d : Command α} (h : List.Forall₂ (Alike R) c.nodes d.nodes) :
    R c.core d.core := by
  rw [nodes_eq, nodes_eq] at h
  cases h with
  | cons h _ => exact h.core

/-! ## Running -/

variable [Action α σ]

theorem run_eq (c : Command α) (w : σ) :
    run c w = ⟨(execute c w).subject.mapCore (Core.afterRun (execute c w).fault?),
      (execute c w).world, (execute c w).fault?⟩ := by
  have mapCore_id (c : Command α) : c.mapCore (fun core => core) = c := by
    cases c <;> rfl
  rw [run]
  rcases execute c w with ⟨c', w', _ | fault⟩
  · rfl
  · exact congrArg (Outcome.mk · w' (some fault)) (mapCore_id c').symm

theorem run_null (core : Core) (w : σ) :
    run (.null core : Command α) w = ⟨.null core.markOk, w, none⟩ := by
  rw [run_eq, execute]
  rfl

theorem run_leaf (core : Core) (action : α) (w : σ) :
    run (.leaf core action) w =
      ⟨.leaf (core.afterRun (Action.execute core action w).fault?)
          (Action.execute core action w).subject,
        (Action.execute core action w).world, (Action.execute core action w).fault?⟩ := by
  rw [run_eq, execute]
  rfl

theorem run_composite (core : Core) (k : Nat) (cs : List (Command α)) (w : σ) :
    run (.composite core k cs) w =
      ⟨.composite (core.afterRun (runAll cs w).fault?) k (runAll cs w).subject,
        (runAll cs w).world, (runAll cs w).fault?⟩ := by
  rw [run_eq, execute]
  rfl

theorem inTurn_runAll (cs : List (Command α)) (w : σ) : InTurn run cs w (runAll cs w) :=
  .of_loop (fun w => by rw [runAll]) runAll_cons cs w

/-- Running changes the mark of a command itself only if it goes without fault. -/
theorem core_run (c : Command α) (w : σ) :
    (run c w).subject.core = c.core.afterRun (run c w).fault? := by
  cases c with
  | null core =>
    rw [run_null]
    rfl
  | leaf core action =>
    rw [run_leaf]
    rfl
  | composite core k cs =>
    rw [run_composite]
    rfl

theorem ok_run (c : Command α) (w : σ) :
    (run c w).subject.ok = (c.ok || (run c w).fault?.isNone) := by
  rw [ok, core_run, Core.ok_afterRun, ok]

theorem ok_of_run {c d : Command α} {w w' : σ} (h : run c w = ⟨d, w', none⟩) : d.ok = true := by
  have hok := ok_run c w
  rw [h] at hok
  exact hok.trans (Bool.or_true _)

theorem ok_eq_of_run {c d : Command α} {w w' : σ} {fault : Fault}
    (h : run c w = ⟨d, w', some fault⟩) : d.ok = c.ok := by
  have hok := ok_run c w
  rw [h] at hok
  exact hok.trans (Bool.or_false _)

/-- Running changes neither sorts nor ids, and takes no mark back. -/
theorem alike_run (t : Command α) (w : σ) :
    List.Forall₂ (Alike Core.Kept) t.nodes (run t w).subject.nodes := by
  induction t using induction_on_children generalizing w with
  | step t ih =>
    cases t with
    | null core =>
      rw [run_null, nodes, nodes]
      exact .cons (.null (core.kept_afterRun none)) .nil
    | leaf core action =>
      rw [run_leaf, nodes, nodes]
      exact .cons (.leaf (core.kept_afterRun _)) .nil
    | composite core k cs =>
      rw [run_composite]
      exact alike_nodes_composite (core.kept_afterRun _) k
        ((inTurn_runAll cs w).forall₂ (fun c _ => alike_nodes_refl .refl c) ih)

/-! ## Undoing -/

theorem undo_of_not_ok {c : Command α} (h : c.ok = false) (w : σ) : undo c w = ⟨c, w, none⟩ := by
  rw [undo, h, if_neg Bool.false_ne_true]

theorem undo_null (core : Core) (w : σ) :
    undo (.null core : Command α) w = ⟨.null core, w, none⟩ := by
  rw [undo, compensate, ite_self]

theorem undo_leaf (core : Core) (action : α) (w : σ) :
    undo (.leaf core action) w =
      if core.ok then (Action.compensate core action w).map (.leaf core)
      else ⟨.leaf core action, w, none⟩ := by
  rw [undo, compensate]
  rfl

theorem undo_composite (core : Core) (k : Nat) (cs : List (Command α)) (w : σ) :
    undo (.composite core k cs) w =
      if core.ok then (undoAll cs w).map (.composite core k)
      else ⟨.composite core k cs, w, none⟩ := by
  rw [undo, compensate]
  rfl

theorem inTurn_undoAll (cs : List (Command α)) (w : σ) : InTurn undo cs w (undoAll cs w) :=
  .of_loop (fun w => by rw [undoAll]) undoAll_cons cs w

/-- Undoing changes nothing but actions. -/
theorem alike_undo (t : Command α) (w : σ) :
    List.Forall₂ (Alike Eq) t.nodes (undo t w).subject.nodes := by
  induction t using induction_on_children generalizing w with
  | step t ih =>
    cases t with
    | null core =>
      rw [undo_null]
      exact alike_nodes_refl Eq.refl _
    | leaf core action =>
      rw [undo_leaf]
      split
      · exact .cons (.leaf rfl) .nil
      · exact alike_nodes_refl Eq.refl _
    | composite core k cs =>
      rw [undo_composite]
      split
      · exact alike_nodes_composite rfl k
          ((inTurn_undoAll cs w).forall₂ (fun c _ => alike_nodes_refl Eq.refl c) ih)
      · exact alike_nodes_refl Eq.refl _

theorem core_undo (c : Command α) (w : σ) : (undo c w).subject.core = c.core :=
  (core_of_alike_nodes (alike_undo c w)).symm

theorem ok_undo (c : Command α) (w : σ) : (undo c w).subject.ok = c.ok := by
  rw [ok, core_undo, ok]

/-! ## A sample -/

/-- A composite without marks whose second child, a composite, fails at its own second child. -/
def failing : Command Tally :=
  .composite (.fresh 1) 3 [
    .leaf (.fresh 2) .inc,
    .composite (.fresh 3) 2 [.leaf (.fresh 4) .dec, .leaf (.fresh 5) .incFail],
    .leaf (.fresh 6) (.addN 7)]

end Command

end RecordStream
