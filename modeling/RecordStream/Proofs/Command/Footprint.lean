import RecordStream.Proofs.Command.Execution
import RecordStream.Proofs.Command.Record

/-!
# What calls leave in records

Whether it fails or not, a run changes nothing in the record of a command but marks, and
these only from zero to one; undoing changes nothing at all (`Command.record_of_call`).

A record consists of the heads of its nodes, so the argument goes head by head: `n.Raised m`
says that `m` stores what `n` does, and is marked at least where `n` is.  Such heads are
equally long, hence what stands behind them keeps its place.
-/

namespace RecordStream

/-- Executing the action changes nothing of it that is stored, and compensating it changes
nothing of it at all. -/
structure Action.Lasting {α σ : Type} [Recorded α] [Action α σ] (a : α) : Prop where
  descriptor_execute : ∀ (core : Core) (w : σ),
    Recorded.descriptor (Action.execute core a w).subject = Recorded.descriptor a
  bytes_execute : ∀ (core : Core) (w : σ),
    (Recorded.fields (Action.execute core a w).subject).bytes (Action.execute core a w).subject =
      (Recorded.fields a).bytes a
  subject_compensate : ∀ (core : Core) (w : σ), (Action.compensate core a w).subject = a

/-- The hits of a counter change, but they are not stored. -/
theorem Tally.lasting (t : Tally) : Action.Lasting t := by
  have execute_counter (core : Core) (hits : Int32) (l : Ledger) :
      ∃ hits', (Tally.execute core (.counter hits) l).subject = .counter hits' := by
    rw [Tally.execute]
    split
    · exact ⟨hits, rfl⟩
    · exact ⟨hits + 1, rfl⟩
  cases t with
  | counter hits =>
    refine ⟨fun core w => ?_, fun core w => ?_, fun core w => rfl⟩
    all_goals
      obtain ⟨hits', h⟩ := execute_counter core hits w
      change (Action.execute core (Tally.counter hits) w).subject = _ at h
      rw [h]
      rfl
  | _ => exact ⟨fun _ _ => rfl, fun _ _ => rfl, fun _ _ => rfl⟩

theorem Tally.storable (t : Command Tally) : t.Storable :=
  fun _ _ a _ => a.sameType_refl.restores.storable

/-- Changing one element of a list changes nothing at any other place. -/
theorem getElem?_append_cons_of_ne {β : Type} (xs ys : List β) (x y : β) {i : Nat}
    (hi : i ≠ xs.length) : (xs ++ x :: ys)[i]? = (xs ++ y :: ys)[i]? := by
  rcases Nat.lt_or_gt_of_ne hi with hlt | hgt
  · rw [List.getElem?_append_left hlt, List.getElem?_append_left hlt]
  · obtain ⟨k, rfl⟩ := Nat.exists_eq_add_of_lt hgt
    rw [List.getElem?_append_right (by omega), List.getElem?_append_right (by omega),
      Nat.add_assoc, Nat.add_sub_cancel_left, List.getElem?_cons_succ, List.getElem?_cons_succ]

namespace Command

variable {α σ : Type} [Recorded α] {n m : Command α}

/-! ## Heads -/

/-- What stands in front of the mark in the head of a node: two descriptors and the id. -/
def frontBytes (c : Command α) : Bytes :=
  Descriptor.layout.bytes c.descriptor ++ Descriptor.layout.bytes .command ++
    Word.bytes .little c.id

theorem length_frontBytes (c : Command α) : c.frontBytes.length = 432 := by
  rw [frontBytes, List.length_append, List.length_append, Descriptor.lawful_layout.length_bytes,
    Descriptor.lawful_layout.length_bytes, Word.length_bytes]
  rfl

theorem headBytes_eq_frontBytes (c : Command α) :
    c.headBytes = c.frontBytes ++ c.ok.toUInt8 :: c.fieldBytes := by
  rw [headBytes_eq, opening, frontBytes]
  simp

theorem getElem?_headBytes (c : Command α) : c.headBytes[432]? = some c.ok.toUInt8 := by
  rw [headBytes_eq_frontBytes, List.getElem?_append_right (by rw [length_frontBytes]),
    length_frontBytes]
  rfl

/-- The second node stores what the first one does, and is marked if that is. -/
structure Raised (n m : Command α) : Prop where
  frontBytes_eq : m.frontBytes = n.frontBytes
  fieldBytes_eq : m.fieldBytes = n.fieldBytes
  ok_of_ok : n.ok = true → m.ok = true

namespace Raised

theorem refl (n : Command α) : n.Raised n := ⟨rfl, rfl, fun h => h⟩

theorem length_eq (h : n.Raised m) : m.headBytes.length = n.headBytes.length := by
  rw [headBytes_eq_frontBytes, headBytes_eq_frontBytes, h.frontBytes_eq, h.fieldBytes_eq,
    List.length_append, List.length_append, List.length_cons, List.length_cons]

/-- Two such heads differ in nothing but the mark. -/
theorem of_getElem?_ne (h : n.Raised m) {i : Nat} (hne : m.headBytes[i]? ≠ n.headBytes[i]?) :
    i = 432 ∧ n.ok = false ∧ m.ok = true := by
  have hi : i = 432 := by
    by_contra hi
    apply hne
    rw [headBytes_eq_frontBytes, headBytes_eq_frontBytes, h.frontBytes_eq, h.fieldBytes_eq]
    exact getElem?_append_cons_of_ne _ _ _ _ (by rwa [length_frontBytes])
  subst hi
  rw [getElem?_headBytes, getElem?_headBytes] at hne
  refine ⟨rfl, ?_⟩
  cases hn : n.ok with
  | true => exact absurd (by rw [hn, h.ok_of_ok hn]) hne
  | false =>
    cases hm : m.ok with
    | true => exact ⟨rfl, rfl⟩
    | false => exact absurd (by rw [hn, hm]) hne

end Raised

/-! ## Records -/

section Records

variable {ns ms : List (Command α)}

theorem length_flatMap_of_raised (h : List.Forall₂ Raised ns ms) :
    (ms.flatMap headBytes).length = (ns.flatMap headBytes).length := by
  induction h with
  | nil => rfl
  | cons hnm _ ih =>
    rw [List.flatMap_cons, List.flatMap_cons, List.length_append, List.length_append, ih,
      hnm.length_eq]

theorem exists_of_flatMap_getElem?_ne (h : List.Forall₂ Raised ns ms) {i : Nat}
    (hne : (ms.flatMap headBytes)[i]? ≠ (ns.flatMap headBytes)[i]?) :
    ∃ before n after, ns = before ++ n :: after ∧
      i = (before.flatMap headBytes).length + 432 ∧
      (ns.flatMap headBytes)[i]? = some 0 ∧ (ms.flatMap headBytes)[i]? = some 1 := by
  induction h generalizing i with
  | nil => exact absurd rfl hne
  | @cons n m ns ms hnm _ ih =>
    rw [List.flatMap_cons, List.flatMap_cons] at hne ⊢
    by_cases hi : i < n.headBytes.length
    · have hi' : i < m.headBytes.length := by rwa [hnm.length_eq]
      rw [List.getElem?_append_left hi', List.getElem?_append_left hi] at hne
      rw [List.getElem?_append_left hi', List.getElem?_append_left hi]
      obtain ⟨rfl, hn, hm⟩ := hnm.of_getElem?_ne hne
      refine ⟨[], n, ns, rfl, rfl, ?_, ?_⟩
      · rw [getElem?_headBytes, hn]
        rfl
      · rw [getElem?_headBytes, hm]
        rfl
    · -- behind the first heads, both are as far from the beginning
      have hi : n.headBytes.length ≤ i := Nat.not_lt.1 hi
      have hi' : m.headBytes.length ≤ i := by rwa [hnm.length_eq]
      rw [List.getElem?_append_right hi', List.getElem?_append_right hi, hnm.length_eq] at hne
      rw [List.getElem?_append_right hi', List.getElem?_append_right hi, hnm.length_eq]
      obtain ⟨before, n', after, rfl, hplace, hzero, hone⟩ := ih hne
      refine ⟨n :: before, n', after, rfl, ?_, hzero, hone⟩
      rw [List.flatMap_cons, List.length_append]
      omega

end Records

/-- Where in the record the mark of a node stands: behind the heads of the nodes in front of it,
two descriptors and an id. -/
def MarkAt (t : Command α) (i : Nat) (n : Command α) : Prop :=
  ∃ before after, t.nodes = before ++ n :: after ∧ i = headSizes before + 432

theorem MarkAt.getElem?_bytes {t : Command α} (ht : t.Storable) {i : Nat} (h : t.MarkAt i n) :
    t.bytes[i]? = some n.ok.toUInt8 := by
  obtain ⟨before, after, hnodes, rfl⟩ := h
  obtain ⟨pre, rest, hbytes, hpre⟩ := exists_bytes_eq_append ht hnodes
  have hmark : n.bytes[432]? = some n.ok.toUInt8 := by
    have hlt : 432 < n.headBytes.length := (List.getElem?_eq_some_iff.1 n.getElem?_headBytes).1
    rw [bytes_eq, List.getElem?_append_left hlt, getElem?_headBytes]
  have hlt : 432 < n.bytes.length := (List.getElem?_eq_some_iff.1 hmark).1
  rw [hbytes, ← hpre, List.getElem?_append_right (Nat.le_add_right _ _), Nat.add_sub_cancel_left,
    List.getElem?_append_left hlt, hmark]

/-! ## Calls -/

variable [Action α σ]

/-- Whatever a run does, it does not show in the record but for marks. -/
theorem raised_run {t : Command α} (ht : ∀ n ∈ t.nodes, ∀ a ∈ n.action?, Action.Lasting a)
    (w : σ) : List.Forall₂ Raised t.nodes (run t w).subject.nodes := by
  induction t using induction_on_children generalizing w with
  | step t ih =>
    have ok_of_ok (core : Core) (e : Option Fault) (h : core.ok = true) :
        (core.afterRun e).ok = true := (core.kept_afterRun e).ok_of_ok h
    cases t with
    | null core =>
      rw [run_null, nodes, nodes]
      exact .cons ⟨rfl, rfl, ok_of_ok core none⟩ .nil
    | leaf core action =>
      have hlasting := ht _ (mem_nodes_self _) action rfl
      rw [run_leaf, nodes, nodes]
      refine .cons ⟨?_, hlasting.bytes_execute core w, ok_of_ok core _⟩ .nil
      rw [frontBytes, frontBytes, descriptor, descriptor, hlasting.descriptor_execute core w,
        id, id, Command.core, Command.core, Core.id_afterRun]
    | composite core k cs =>
      have hchildren : List.Forall₂ (fun c d => List.Forall₂ Raised c.nodes d.nodes) cs
          (runAll cs w).subject :=
        (inTurn_runAll cs w).forall₂ (fun c _ => List.forall₂_same.2 fun n _ => .refl n)
          fun c hc w => ih c hc (fun n hn => ht n (mem_nodes_of_mem_children hc hn)) w
      rw [run_composite, nodes_eq, nodes_eq]
      refine .cons ⟨?_, ?_, ok_of_ok core _⟩ (List.rel_flatMap hchildren fun _ _ h => h)
      · rw [frontBytes, frontBytes, id, id, Command.core, Command.core, Core.id_afterRun]
        rfl
      · rw [fieldBytes, fieldBytes, hchildren.length_eq]

theorem subject_undo {t : Command α} (ht : ∀ n ∈ t.nodes, ∀ a ∈ n.action?, Action.Lasting a)
    (w : σ) : (undo t w).subject = t := by
  induction t using induction_on_children generalizing w with
  | step t ih =>
    cases t with
    | null core => rw [undo_null]
    | leaf core action =>
      have hlasting := ht _ (mem_nodes_self _) action rfl
      rw [undo_leaf]
      split
      · rw [Outcome.map, hlasting.subject_compensate]
      · rfl
    | composite core k cs =>
      have hchildren : (undoAll cs w).subject.map (fun c => c) = cs.map fun c => c :=
        (inTurn_undoAll cs w).map_subject fun c hc w =>
          ih c hc (fun n hn => ht n (mem_nodes_of_mem_children hc hn)) w
      rw [List.map_id', List.map_id'] at hchildren
      rw [undo_composite]
      split
      · rw [Outcome.map, hchildren]
      · rfl

/-- Running and undoing show in a record as marks only.  Whatever marks and world there are, and
whether the call fails or not, the record after `run` has the same length, and a byte that differs
is the mark of a node (`MarkAt`) that went from 0 to 1.  The record after `undo` is the same. -/
theorem record_of_call (t : Command Tally) (w : Ledger) :
    ∃ before after : Bytes,
      t.write.Appends before ∧ (run t w).subject.write.Appends after ∧
      (undo t w).subject.write.Appends before ∧
      (∀ i n, t.MarkAt i n → before[i]? = some n.ok.toUInt8) ∧
      (∀ i n, (run t w).subject.MarkAt i n → after[i]? = some n.ok.toUInt8) ∧
      after.length = before.length ∧
      ∀ i, after[i]? ≠ before[i]? →
        (∃ n, t.MarkAt i n) ∧ before[i]? = some 0 ∧ after[i]? = some 1 := by
  have hlasting : ∀ n ∈ t.nodes, ∀ a ∈ n.action?, Action.Lasting a := fun _ _ a _ => a.lasting
  have hraised := raised_run hlasting w
  have ht := Tally.storable t
  have ht' := Tally.storable (run t w).subject
  have hwrite : t.write.Appends t.bytes := fun b => write_receives ht b
  refine ⟨t.bytes, (run t w).subject.bytes, hwrite, fun b => write_receives ht' b, ?_,
    fun i n h => h.getElem?_bytes ht, fun i n h => h.getElem?_bytes ht',
    length_flatMap_of_raised hraised, fun i hne => ?_⟩
  · rw [subject_undo hlasting w]
    exact hwrite
  · obtain ⟨before, n, after, hnodes, hplace, hzero, hone⟩ :=
      exists_of_flatMap_getElem?_ne hraised hne
    refine ⟨⟨n, before, after, hnodes, ?_⟩, hzero, hone⟩
    rw [hplace, length_flatMap_headBytes fun m hm => ht m ?_]
    rw [hnodes]
    exact List.mem_append_left _ hm

/-- The composite that fails at its second child is not marked by that, its first child is. -/
theorem record_of_call_failing :
    ∃ before after : Bytes, failing.write.Appends before ∧
      (run failing Ledger.empty).subject.write.Appends after ∧
      before[432]? = some 0 ∧ after[432]? = some 0 ∧
      before[873]? = some 0 ∧ after[873]? = some 1 := by
  have hrun : (run failing Ledger.empty).subject = .composite (.fresh 1) 3 [
      .leaf ⟨2, true⟩ .inc,
      .composite (.fresh 3) 2 [.leaf ⟨4, true⟩ .dec, .leaf (.fresh 5) .incFail],
      .leaf (.fresh 6) (.addN 7)] := rfl
  obtain ⟨before, after, hbefore, hafter, -, hmark, hmark', -⟩ :=
    record_of_call failing Ledger.empty
  rw [hrun] at hmark'
  exact ⟨before, after, hbefore, hafter, hmark 432 _ ⟨[], _, rfl, rfl⟩,
    hmark' 432 _ ⟨[], _, rfl, rfl⟩, hmark 873 _ ⟨[_], _, rfl, rfl⟩,
    hmark' 873 _ ⟨[_], _, rfl, rfl⟩⟩

end Command

end RecordStream
