import RecordStream.Proofs.Command.Execution
import RecordStream.Proofs.Tally

/-!
# Undoing takes back what runs have counted

Where all actions count and are compensated by counting the other way, a command adds
the same amount with every run and takes it off with every undoing: the sum over its
leaves (`Command.total`).  A composite undoes its children in the order in which it ran
them, but this makes no difference to a sum.

Undoing reaches a leaf only through marks.  The first run sets all of them
(`Command.marked`), and from then on neither runs nor undoings change the command, so
that it takes as many undoings as there were runs to get back to where the count began.
-/

namespace RecordStream

/-! ## Operations that count -/

namespace Outcome

variable {τ σ : Type} {f : τ → σ → Outcome τ σ} {x y z : τ} {w w₁ w₂ : σ} {n : Nat}

/-- Applying the operation `n` times leads from one thing and world to another, each time
without fault. -/
inductive Repeats (f : τ → σ → Outcome τ σ) : Nat → τ → σ → τ → σ → Prop
  | zero {x : τ} {w : σ} : Repeats f 0 x w x w
  | succ {x y z : τ} {w w₁ w₂ : σ} {n : Nat} : f x w = ⟨y, w₁, none⟩ → Repeats f n y w₁ z w₂ →
      Repeats f (n + 1) x w z w₂

/-- The last time may be split off as well as the first one. -/
theorem Repeats.snoc (h : Repeats f n x w y w₁) (hy : f y w₁ = ⟨z, w₂, none⟩) :
    Repeats f (n + 1) x w z w₂ := by
  induction h with
  | zero => exact .succ hy .zero
  | succ hx _ ih => exact .succ hx (ih hy)

/-- The operation makes `y` of `x` without fault, whatever the count is, and adds the amount
to it. -/
def Adds (f : τ → Ledger → Outcome τ Ledger) (x y : τ) (amount : Int64) : Prop :=
  ∀ l, ∃ l', f x l = ⟨y, l', none⟩ ∧ l'.count = l.count + amount

variable {f g : τ → Ledger → Outcome τ Ledger}

/-- What the operation adds to the count for single things is added up in turn. -/
theorem Adds.inTurn {φ : τ → τ} {amount : τ → Int64} {xs : List τ}
    (h : ∀ x ∈ xs, Adds f x (φ x) (amount x)) (l : Ledger) :
    ∃ l', InTurn f xs l ⟨xs.map φ, l', none⟩ ∧ l'.count = l.count + (xs.map amount).sum := by
  induction xs generalizing l with
  | nil => exact ⟨l, .nil, (Int64.add_zero _).symm⟩
  | cons x xs ih =>
    obtain ⟨l₁, hx, hcount₁⟩ := h x List.mem_cons_self l
    obtain ⟨l₂, hxs, hcount₂⟩ := ih (fun x hx => h x (List.mem_cons_of_mem _ hx)) l₁
    refine ⟨l₂, .cons hx hxs, ?_⟩
    rw [hcount₂, hcount₁, List.map_cons, List.sum_cons, Int64.add_assoc]

/-- Applying `f` to `x` for `n` times makes `y` of it, and when `g` has been applied to that
as often, the count is what it was. -/
def Cancels (f g : τ → Ledger → Outcome τ Ledger) (n : Nat) (x y : τ) : Prop :=
  ∀ l, ∃ l₁ l₂, Repeats f n x l y l₁ ∧ Repeats g n y l₁ y l₂ ∧ l₂.count = l.count

namespace Cancels

variable {amount : Int64}

theorem zero (f g : τ → Ledger → Outcome τ Ledger) (x : τ) : Cancels f g 0 x x :=
  fun l => ⟨l, l, .zero, .zero, rfl⟩

/-- The first `f` is cancelled by the last `g`, whatever cancels out between them. -/
theorem succ (hf : Adds f x y amount) (hg : Adds g y y (-amount)) (h : Cancels f g n y y) :
    Cancels f g (n + 1) x y := by
  intro l
  obtain ⟨l₁, hfirst, hcount₁⟩ := hf l
  obtain ⟨l₂, l₃, hfs, hgs, hcount₃⟩ := h l₁
  obtain ⟨l₄, hlast, hcount₄⟩ := hg l₃
  refine ⟨l₂, l₄, .succ hfirst hfs, hgs.snoc hlast, ?_⟩
  rw [hcount₄, hcount₃, hcount₁, Int64.add_assoc, Int64.add_right_neg, Int64.add_zero]

/-- Operations that leave the thing as it is cancel out if the one takes off what the other adds. -/
theorem of_adds (hf : Adds f x x amount) (hg : Adds g x x (-amount)) (n : Nat) :
    Cancels f g n x x := by
  induction n with
  | zero => exact zero f g x
  | succ n ih => exact succ hf hg ih

end Cancels

end Outcome

namespace Tally

/-- Actions that count, and count the other way when they are compensated. -/
inductive Reversible : Tally → Prop
  | inc : Reversible inc
  | dec : Reversible dec
  | addN (amount : Int32) : Reversible (addN amount)

variable {a : Tally}

theorem Reversible.adds_execute (h : a.Reversible) (core : Core) :
    Outcome.Adds (Action.execute core) a a a.amount := by
  intro l
  cases h <;> exact ⟨_, rfl, rfl⟩

theorem Reversible.adds_compensate (h : a.Reversible) (core : Core) :
    Outcome.Adds (Action.compensate core) a a (-a.amount) := by
  intro l
  cases h <;> exact ⟨_, rfl, rfl⟩

end Tally

namespace Command

open Outcome (Adds Cancels InTurn Repeats)

/-! ## Marked commands -/

section Marked

variable {α : Type}

mutual

/-- The command with all marks set. -/
def marked : Command α → Command α
  | .null core => .null core.markOk
  | .leaf core action => .leaf core.markOk action
  | .composite core capacity children => .composite core.markOk capacity (markedAll children)

def markedAll : List (Command α) → List (Command α)
  | [] => []
  | c :: cs => marked c :: markedAll cs

end

theorem markedAll_eq (cs : List (Command α)) : markedAll cs = cs.map marked := by
  induction cs with
  | nil => rfl
  | cons c cs ih => rw [markedAll, ih, List.map_cons]

theorem marked_composite (core : Core) (k : Nat) (cs : List (Command α)) :
    (composite core k cs).marked = .composite core.markOk k (cs.map marked) := by
  rw [marked, markedAll_eq]

theorem ok_marked (t : Command α) : t.marked.ok = true := by
  cases t <;> rfl

theorem children_marked (t : Command α) : t.marked.children = t.children.map marked := by
  cases t with
  | null core => rfl
  | leaf core action => rfl
  | composite core k cs =>
    rw [marked_composite]
    rfl

theorem nodes_marked (t : Command α) : t.marked.nodes = t.nodes.map marked := by
  induction t using induction_on_children with
  | step t ih =>
    rw [nodes_eq, nodes_eq t, children_marked, List.flatMap_map, List.map_cons, List.map_flatMap]
    congr 1
    exact List.flatMap_congr ih

theorem ok_of_mem_nodes_marked {t n : Command α} (hn : n ∈ t.marked.nodes) : n.ok = true := by
  rw [nodes_marked] at hn
  obtain ⟨m, -, rfl⟩ := List.mem_map.1 hn
  exact m.ok_marked

theorem marked_marked (t : Command α) : t.marked.marked = t.marked := by
  induction t using induction_on_children with
  | step t ih =>
    cases t with
    | null core => rfl
    | leaf core action => rfl
    | composite core k cs =>
      rw [marked_composite, marked_composite, List.map_map]
      congr 1
      exact List.map_congr_left ih

theorem action?_marked (t : Command α) : t.marked.action? = t.action? := by
  cases t <;> rfl

end Marked

/-! ## Running and undoing commands that count -/

/-- All actions in the command can be taken back. -/
def Reversible (t : Command Tally) : Prop :=
  ∀ n ∈ t.nodes, ∀ a ∈ n.action?, a.Reversible

mutual

/-- What all leaves together add to the count. -/
def total : Command Tally → Int64
  | .null _ => 0
  | .leaf _ action => action.amount
  | .composite _ _ children => totalAll children

def totalAll : List (Command Tally) → Int64
  | [] => 0
  | c :: cs => total c + totalAll cs

end

theorem totalAll_eq (cs : List (Command Tally)) : totalAll cs = (cs.map total).sum := by
  induction cs with
  | nil => rfl
  | cons c cs ih => rw [totalAll, ih, List.map_cons, List.sum_cons]

theorem total_composite (core : Core) (k : Nat) (cs : List (Command Tally)) :
    (composite core k cs).total = (cs.map total).sum := by
  rw [total, totalAll_eq]

theorem total_marked (t : Command Tally) : t.marked.total = t.total := by
  induction t using induction_on_children with
  | step t ih =>
    cases t with
    | null core => rfl
    | leaf core action => rfl
    | composite core k cs =>
      rw [marked_composite, total_composite, total_composite, List.map_map]
      congr 1
      exact List.map_congr_left ih

variable {t c : Command Tally}

theorem Reversible.of_mem_children (h : t.Reversible) (hc : c ∈ t.children) : c.Reversible :=
  fun n hn => h n (mem_nodes_of_mem_children hc hn)

theorem Reversible.marked (h : t.Reversible) : t.marked.Reversible := by
  intro n hn a ha
  rw [nodes_marked] at hn
  obtain ⟨m, hm, rfl⟩ := List.mem_map.1 hn
  rw [action?_marked] at ha
  exact h m hm a ha

/-- A run sets all marks and adds the total, whatever the marks have been. -/
theorem Reversible.adds_run (h : t.Reversible) : Adds run t t.marked t.total := by
  induction t using induction_on_children with
  | step t ih =>
    intro l
    cases t with
    | null core =>
      rw [run_null]
      exact ⟨l, rfl, (Int64.add_zero _).symm⟩
    | leaf core action =>
      obtain ⟨l', haction, hcount⟩ := (h _ (mem_nodes_self _) action rfl).adds_execute core l
      rw [run_leaf, haction]
      exact ⟨l', rfl, hcount⟩
    | composite core k cs =>
      obtain ⟨l', hall, hcount⟩ := Adds.inTurn (fun c hc => ih c hc (h.of_mem_children hc)) l
      rw [run_composite, (inTurn_runAll cs l).unique hall, marked_composite, total_composite]
      exact ⟨l', rfl, hcount⟩

theorem sum_map_neg {τ : Type} (f : τ → Int64) (xs : List τ) :
    (xs.map fun x => -f x).sum = -(xs.map f).sum := by
  induction xs with
  | nil => exact Int64.neg_zero.symm
  | cons x xs ih =>
    rw [List.map_cons, List.sum_cons, ih, List.map_cons, List.sum_cons, Int64.neg_add,
      Int64.sub_eq_add_neg]

/-- Where all marks are set, undoing takes off the total and changes nothing in the command. -/
theorem Reversible.adds_undo (h : t.Reversible) (hok : ∀ n ∈ t.nodes, n.ok = true) :
    Adds undo t t (-t.total) := by
  induction t using induction_on_children with
  | step t ih =>
    intro l
    cases t with
    | null core =>
      refine ⟨l, undo_null core l, ?_⟩
      rw [total, Int64.neg_zero, Int64.add_zero]
    | leaf core action =>
      have hcore : core.ok = true := hok _ (mem_nodes_self _)
      obtain ⟨l', haction, hcount⟩ := (h _ (mem_nodes_self _) action rfl).adds_compensate core l
      rw [undo_leaf, if_pos hcore, haction]
      exact ⟨l', rfl, hcount⟩
    | composite core k cs =>
      have hcore : core.ok = true := hok _ (mem_nodes_self _)
      have hchildren (c : Command Tally) (hc : c ∈ cs) : Adds undo c c (-c.total) :=
        ih c hc (h.of_mem_children hc) fun n hn => hok n (mem_nodes_of_mem_children hc hn)
      obtain ⟨l', hall, hcount⟩ := Adds.inTurn hchildren l
      rw [List.map_id'] at hall
      rw [sum_map_neg] at hcount
      rw [undo_composite, if_pos hcore, (inTurn_undoAll cs l).unique hall, total_composite]
      exact ⟨l', rfl, hcount⟩

/-- Undoing cancels running.  If all leaves of `t` count or are null commands (`Reversible`), `n`
runs and then `n` undos all succeed, from any marks and any count, and the count ends where it
began, modulo `2 ^ 64`.  The first run marks every node, and the calls behind it change no node. -/
theorem runs_cancelled_by_undos (h : t.Reversible) (n : Nat) (l : Ledger) :
    ∃ t' l₁ l₂, Repeats run n t l t' l₁ ∧ Repeats undo n t' l₁ t' l₂ ∧ l₂.count = l.count ∧
      (∀ m ∈ (run t l).subject.nodes, m.ok = true) ∧ (0 < n → t' = (run t l).subject) := by
  have hrun := h.adds_run
  have hruns := h.marked.adds_run
  have hundos := h.marked.adds_undo fun m => ok_of_mem_nodes_marked
  rw [marked_marked, total_marked] at hruns
  rw [total_marked] at hundos
  have hmarks : (run t l).subject = t.marked := by
    obtain ⟨l', hfirst, -⟩ := hrun l
    rw [hfirst]
  rw [hmarks]
  cases n with
  | zero =>
    obtain ⟨l₁, l₂, hrepeat, hrepeat', hcount⟩ := Cancels.zero run undo t l
    exact ⟨t, l₁, l₂, hrepeat, hrepeat', hcount, fun m => ok_of_mem_nodes_marked,
      fun h => absurd h (Nat.lt_irrefl 0)⟩
  | succ n =>
    obtain ⟨l₁, l₂, hrepeat, hrepeat', hcount⟩ :=
      Cancels.succ hrun hundos (.of_adds hruns hundos n) l
    exact ⟨t.marked, l₁, l₂, hrepeat, hrepeat', hcount, fun m => ok_of_mem_nodes_marked,
      fun _ => rfl⟩

theorem reversible_sample : Tally.sample.Reversible := by
  unfold Reversible
  simp [Tally.sample, nodes, nodesAll, action?, Tally.Reversible.inc, Tally.Reversible.dec,
    Tally.Reversible.addN]

/-- Three times five are added to the count of the sample, and taken off again. -/
theorem runs_cancelled_by_undos_sample :
    Tally.sample.Reversible ∧ Tally.sample.total = 5 ∧
      ∃ t' l₁ l₂, Repeats run 3 Tally.sample ⟨12, []⟩ t' l₁ ∧ Repeats undo 3 t' l₁ t' l₂ ∧
        l₂.count = 12 ∧ ∀ m ∈ t'.nodes, m.ok = true := by
  obtain ⟨t', l₁, l₂, hruns, hundos, hcount, hmarks, hfirst⟩ :=
    runs_cancelled_by_undos reversible_sample 3 ⟨12, []⟩
  rw [← hfirst (Nat.zero_lt_succ 2)] at hmarks
  exact ⟨reversible_sample, rfl, t', l₁, l₂, hruns, hundos, hcount, hmarks⟩

end Command

end RecordStream
