import Mathlib.Data.List.Pairwise
import Mathlib.Logic.Relation
import RecordStream.Proofs.Command.Execution

/-!
# Marks are in order

A command that has only ever been run and undone as a whole, starting without marks,
has its marks in order everywhere: among the children of a composite those that are
marked come first, and the composite is marked if and only if all of its children
are (`Settled`).  A run marks the children from the first one on up to where it
stops (`exists_marks_of_inTurn`), and this is what keeps them in order.
-/

namespace RecordStream

namespace Command

open Outcome (InTurn)

variable {α σ : Type}

/-! ## Marks in order -/

/-- The mark of a composite and those of its children: the ones that are set come first, and
if there are any children, the composite is marked if and only if all of them are. -/
structure InOrder (ok : Bool) (marks : List Bool) : Prop where
  first : marks.Pairwise fun a b => b = true → a = true
  ok_iff : marks ≠ [] → (ok = true ↔ ∀ m ∈ marks, m = true)

namespace InOrder

theorem nil (ok : Bool) : InOrder ok [] := ⟨.nil, fun h => absurd rfl h⟩

theorem of_forall {marks : List Bool} {b : Bool} (h : ∀ m ∈ marks, m = b) : InOrder b marks where
  first := List.pairwise_of_forall_mem_list fun x hx y hy hy' => by
    rw [h x hx, ← h y hy, hy']
  ok_iff hne := by
    constructor
    · intro hb m hm
      rw [h m hm, hb]
    · intro hall
      obtain ⟨m, hm⟩ := List.exists_mem_of_ne_nil _ hne
      rw [← h m hm, hall m hm]

/-- Setting the first marks, not all of them, keeps the order. -/
theorem set_first {ok : Bool} {marks : List Bool} (h : InOrder ok marks) {k : Nat}
    (hk : k < marks.length) : InOrder ok (List.replicate k true ++ marks.drop k) := by
  refine ⟨?_, fun _ => ?_⟩
  · refine List.pairwise_append.2 ⟨?_, h.first.sublist (List.drop_sublist k marks), ?_⟩
    · exact List.pairwise_replicate.2 (.inr fun hb => hb)
    · intro a ha b _ _
      exact List.eq_of_mem_replicate ha
  · have hne : marks ≠ [] := List.ne_nil_of_length_pos (by omega)
    rw [h.ok_iff hne]
    constructor
    · intro hall m hm
      rcases List.mem_append.1 hm with hm | hm
      · exact List.eq_of_mem_replicate hm
      · exact hall m (List.mem_of_mem_drop hm)
    · intro hall m hm
      -- one of the marks behind the first ones is set, hence all in front of it are
      have hlast : marks[k] ∈ marks.drop k := by
        rw [List.drop_eq_getElem_cons hk]
        exact List.mem_cons_self
      rw [← List.take_append_drop k marks] at hm
      rcases List.mem_append.1 hm with hm | hm
      · have hpair := h.first
        rw [← List.take_append_drop k marks] at hpair
        exact (List.pairwise_append.1 hpair).2.2 m hm _ hlast
          (hall _ (List.mem_append_right _ hlast))
      · exact hall m (List.mem_append_right _ hm)

theorem ok_eq_all {ok : Bool} {marks : List Bool} (h : InOrder ok marks) (hne : marks ≠ []) :
    ok = marks.all fun m => m := by
  rw [Bool.eq_iff_iff, h.ok_iff hne, List.all_eq_true]

theorem ok_eq_getLast {ok : Bool} {marks : List Bool} (h : InOrder ok marks) (hne : marks ≠ []) :
    ok = marks.getLast hne := by
  rw [Bool.eq_iff_iff, h.ok_iff hne]
  constructor
  · intro hall
    exact hall _ (List.getLast_mem hne)
  · intro hlast m hm
    exact h.first.rel_getLast_of_rel_getLast_getLast hm (fun hb => hb) hlast

end InOrder

theorem filter_prefix_of_pairwise {τ : Type} {p : τ → Bool} {xs : List τ}
    (h : xs.Pairwise fun x y => p y = true → p x = true) : xs.filter p <+: xs := by
  induction h with
  | nil => exact List.nil_prefix
  | @cons x xs hx _ ih =>
    cases hp : p x with
    | true =>
      rw [List.filter_cons_of_pos hp]
      exact (List.prefix_cons_inj x).2 ih
    | false =>
      have hnil : (x :: xs).filter p = [] := by
        refine List.filter_eq_nil_iff.2 fun y hy hpy => ?_
        rcases List.mem_cons.1 hy with rfl | hy
        · rw [hp] at hpy
          cases hpy
        · rw [hx y hy hpy] at hp
          cases hp
      rw [hnil]
      exact List.nil_prefix

/-- All composites in the command have their marks in order. -/
def Settled (t : Command α) : Prop :=
  ∀ n ∈ t.nodes, InOrder n.ok (n.children.map ok)

theorem settled_iff {t : Command α} :
    t.Settled ↔ InOrder t.ok (t.children.map ok) ∧ ∀ c ∈ t.children, c.Settled := by
  constructor
  · intro h
    exact ⟨h t t.mem_nodes_self, fun c hc n hn => h n (mem_nodes_of_mem_children hc hn)⟩
  · rintro ⟨ht, hchildren⟩ n hn
    rw [nodes_eq] at hn
    rcases List.mem_cons.1 hn with rfl | hn
    · exact ht
    · obtain ⟨c, hc, hn⟩ := List.mem_flatMap.1 hn
      exact hchildren c hc n hn

theorem settled_of_children_eq_nil {t : Command α} (h : t.children = []) : t.Settled := by
  rw [settled_iff, h]
  exact ⟨.nil t.ok, fun c hc => absurd hc List.not_mem_nil⟩

/-- Without marks there is nothing that could be out of order. -/
theorem settled_of_not_ok {t : Command α} (h : ∀ n ∈ t.nodes, n.ok = false) : t.Settled := by
  intro n hn
  rw [h n hn]
  refine .of_forall fun m hm => ?_
  obtain ⟨c, hc, rfl⟩ := List.mem_map.1 hm
  exact h c (nodes_subset_of_mem_nodes hn (mem_nodes_of_mem_children hc c.mem_nodes_self))

/-! ## Runs and undoings -/

variable [Action α σ] {w : σ} {t t' : Command α}

/-- Running commands in turn sets the first marks: all of them if there is no fault, else those
in front of the command that fails. -/
theorem exists_marks_of_inTurn {cs : List (Command α)} {o : Outcome (List (Command α)) σ}
    (h : InTurn run cs w o) :
    ∃ k, o.subject.map ok = List.replicate k true ++ (cs.map ok).drop k ∧
      (o.fault? = none → k = cs.length) ∧ (o.fault? ≠ none → k < cs.length) := by
  induction h with
  | nil => exact ⟨0, rfl, fun _ => rfl, fun hne => absurd rfl hne⟩
  | @cons c d cs ds w w₁ w₂ e hc _ ih =>
    obtain ⟨k, hmarks, hnone, hsome⟩ := ih
    refine ⟨k + 1, ?_, fun he => ?_, fun he => ?_⟩
    · rw [List.map_cons, hmarks, ok_of_run hc, List.map_cons, List.drop_succ_cons, List.replicate_succ,
        List.cons_append]
    · rw [hnone he, List.length_cons]
    · have := hsome he
      rw [List.length_cons]
      omega
  | @stop c d cs w w₁ fault hc =>
    refine ⟨0, ?_, fun he => ?_, fun _ => Nat.zero_lt_succ _⟩
    · rw [List.map_cons, ok_eq_of_run hc]
      rfl
    · cases he

theorem InOrder.run {core : Core} {cs : List (Command α)} (h : InOrder core.ok (cs.map ok)) :
    InOrder (core.afterRun (runAll cs w).fault?).ok ((runAll cs w).subject.map ok) := by
  obtain ⟨k, hmarks, hnone, hsome⟩ := exists_marks_of_inTurn (inTurn_runAll cs w)
  rw [hmarks, Core.ok_afterRun]
  cases he : (runAll cs w).fault? with
  | none =>
    rw [hnone he, ← List.length_map (f := ok), List.drop_length, List.append_nil]
    rw [Option.isNone_none, Bool.or_true]
    exact .of_forall fun m hm => List.eq_of_mem_replicate hm
  | some fault =>
    have hk : k < (cs.map ok).length := by
      rw [List.length_map]
      exact hsome (by rw [he]; exact Option.some_ne_none fault)
    rw [Option.isNone_some, Bool.or_false]
    exact h.set_first hk

theorem Settled.run (h : t.Settled) (w : σ) : (run t w).subject.Settled := by
  induction t using induction_on_children generalizing w with
  | step t ih =>
    cases t with
    | null core =>
      rw [run_null]
      exact settled_of_children_eq_nil rfl
    | leaf core action =>
      rw [run_leaf]
      exact settled_of_children_eq_nil rfl
    | composite core k cs =>
      obtain ⟨horder, hchildren⟩ := settled_iff.1 h
      rw [run_composite]
      refine settled_iff.2 ⟨horder.run, ?_⟩
      exact (inTurn_runAll cs w).forall_mem hchildren fun c hc w => ih c hc (hchildren c hc) w

theorem Settled.undo (h : t.Settled) (w : σ) : (undo t w).subject.Settled := by
  induction t using induction_on_children generalizing w with
  | step t ih =>
    cases t with
    | null core =>
      rw [undo_null]
      exact h
    | leaf core action =>
      rw [undo_leaf]
      split
      · exact settled_of_children_eq_nil rfl
      · exact h
    | composite core k cs =>
      rw [undo_composite]
      split
      · obtain ⟨horder, hchildren⟩ := settled_iff.1 h
        have hturn := inTurn_undoAll cs w
        have hmarks : (undoAll cs w).subject.map ok = cs.map ok :=
          hturn.map_subject fun c _ w => ok_undo c w
        refine settled_iff.2 ⟨?_, hturn.forall_mem hchildren fun c hc w => ih c hc (hchildren c hc) w⟩
        change InOrder core.ok ((undoAll cs w).subject.map ok)
        rw [hmarks]
        exact horder
      · exact h

/-- The command becomes this by being run and undone some times, each time in whatever world. -/
def Reaches : Command α → Command α → Prop :=
  Relation.ReflTransGen fun c d => ∃ w : σ, d = (run c w).subject ∨ d = (undo c w).subject

theorem Settled.of_reaches (h : t.Settled) (hreach : Reaches t t') : t'.Settled := by
  induction hreach with
  | refl => exact h
  | tail _ hstep ih =>
    obtain ⟨w, rfl | rfl⟩ := hstep
    · exact ih.run w
    · exact ih.undo w

theorem alike_of_reaches (hreach : Reaches t t') :
    List.Forall₂ (Alike Core.Kept) t.nodes t'.nodes := by
  induction hreach with
  | refl => exact alike_nodes_refl .refl t
  | tail _ hstep ih =>
    obtain ⟨w, rfl | rfl⟩ := hstep
    · exact forall₂_trans (.trans .trans) ih (alike_run _ w)
    · refine forall₂_trans (.trans .trans) ih ((alike_undo _ w).imp fun _ _ h => h.mono ?_)
      rintro c _ rfl
      exact .refl c

/-- The marks of a command that was never run, after any runs and undos in any worlds (`Reaches`).
In a composite with children the ok ones come first, and the composite is ok if and only if its
last child is, which is if and only if all are.  A later call takes no mark back.

The proof carries the invariant `Settled` from node to node through one call, and from call to
call. -/
theorem marks_of_reaches (ht : ∀ n ∈ t.nodes, n.ok = false) (hreach : Reaches t t') :
    (∀ n ∈ t'.nodes, ∀ hne : n.children ≠ [],
      n.children.filter ok <+: n.children ∧ n.ok = (n.children.getLast hne).ok ∧
        n.ok = n.children.all ok) ∧
    ∀ t'', Reaches t' t'' → List.Forall₂ (Alike Core.Kept) t'.nodes t''.nodes := by
  refine ⟨fun n hn hne => ?_, fun t'' => alike_of_reaches⟩
  have horder := (settled_of_not_ok ht).of_reaches hreach n hn
  have hmarks : n.children.map ok ≠ [] := by
    rw [Ne, List.map_eq_nil_iff]
    exact hne
  refine ⟨filter_prefix_of_pairwise (List.pairwise_map.1 horder.first), ?_, ?_⟩
  · rw [horder.ok_eq_getLast hmarks, List.getLast_map]
  · rw [horder.ok_eq_all hmarks, List.all_map]
    rfl

/-- The composite that has failed at the second of its three children has the first one marked. -/
theorem marks_of_reaches_failing :
    ∃ t, Reaches failing t ∧ t.children.map ok = [true, false, false] ∧
      t.children.filter ok <+: t.children ∧ t.ok = t.children.all ok := by
  have hreach : Reaches failing (run failing Ledger.empty).subject :=
    .tail .refl ⟨Ledger.empty, .inl rfl⟩
  have ht : ∀ n ∈ failing.nodes, n.ok = false := by
    simp [failing, nodes, nodesAll, ok, core, Core.fresh]
  obtain ⟨hall, -⟩ := marks_of_reaches ht hreach
  have hne : (run failing Ledger.empty).subject.children ≠ [] := by decide
  obtain ⟨hfirst, -, hiff⟩ := hall _ (mem_nodes_self _) hne
  exact ⟨_, hreach, by decide, hfirst, hiff⟩

end Command

end RecordStream
