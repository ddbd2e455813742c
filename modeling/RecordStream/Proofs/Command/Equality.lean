import Mathlib.Data.List.Basic
import RecordStream.Proofs.Command.Exchange

/-!
# Equal commands have equal records

Commands are equal if they differ in nothing but capacities, at whatever depth
(`Command.equals_iff_fit_eq`).  Capacities are not stored, so equal commands have the
same record.  Conversely a record is read in one way only, and its end is found in
reading: of two commands that can be read back neither has a record that starts with
that of the other one, unless they are equal (`Registry.Carries.fit_eq_of_append_eq`).
-/

namespace RecordStream

namespace Command

variable {α : Type}

theorem equalsAll_iff_of_forall [DecidableEq α] {f : Command α → Command α}
    {cs ds : List (Command α)}
    (h : ∀ c ∈ cs, ∀ d, equals c d = true ↔ f c = f d) :
    equalsAll cs ds = true ↔ cs.map f = ds.map f := by
  induction cs generalizing ds with
  | nil =>
    cases ds with
    | nil => exact ⟨fun _ => rfl, fun _ => rfl⟩
    | cons d ds => simp [equalsAll]
  | cons c cs ih =>
    cases ds with
    | nil => simp [equalsAll]
    | cons d ds =>
      rw [equalsAll, Bool.and_eq_true, h c List.mem_cons_self,
        ih fun c hc => h c (List.mem_cons_of_mem _ hc), List.map_cons, List.map_cons,
        List.cons.injEq]

/-- Commands are equal if they are the same once all composites have one capacity. -/
theorem equals_iff_fit_eq [DecidableEq α] (capacity : Nat) (c d : Command α) :
    equals c d = true ↔ c.fit capacity = d.fit capacity := by
  induction c using induction_on_children generalizing d with
  | step c ih =>
    cases c with
    | null core => cases d <;> simp [equals, fit]
    | leaf core action => cases d <;> simp [equals, fit]
    | composite core k cs =>
      cases d with
      | null core' => simp [equals, fit]
      | leaf core' action => simp [equals, fit]
      | composite core' k' ds =>
        have hall : equalsAll cs ds = true ↔ cs.map (fit capacity) = ds.map (fit capacity) :=
          equalsAll_iff_of_forall ih
        rw [equals, Bool.and_eq_true, decide_eq_true_iff, hall, fit, fit, fitAll_eq, fitAll_eq]
        simp

theorem children_fit (capacity : Nat) (c : Command α) :
    (c.fit capacity).children = c.children.map (fit capacity) := by
  cases c with
  | null core => rfl
  | leaf core action => rfl
  | composite core k cs =>
    rw [fit, fitAll_eq]
    rfl

section Records

variable [Recorded α]

theorem descriptor_fit (capacity : Nat) (c : Command α) :
    (c.fit capacity).descriptor = c.descriptor := by
  cases c <;> rfl

theorem headBytes_fit (capacity : Nat) (c : Command α) :
    (c.fit capacity).headBytes = c.headBytes := by
  cases c with
  | null core => rfl
  | leaf core action => rfl
  | composite core k cs =>
    rw [fit, headBytes, headBytes, fieldBytes, fieldBytes, fitAll_eq, List.length_map]
    rfl

/-- Capacities are not stored. -/
theorem bytes_fit (capacity : Nat) (c : Command α) : (c.fit capacity).bytes = c.bytes := by
  induction c using induction_on_children with
  | step c ih =>
    rw [bytes_eq, bytes_eq c, headBytes_fit, children_fit, List.flatMap_map]
    congr 1
    exact List.flatMap_congr ih

end Records

end Command

namespace Registry

open Command

variable {α : Type} [Recorded α] {r : Registry α} {capacity : Nat} {c d : Command α}
  {rest rest' : Bytes}

/-- Reading tells records apart, and where they end. -/
theorem Carries.fit_eq_of_append_eq (hc : r.Carries capacity c) (hd : r.Carries capacity d)
    (h : c.bytes ++ rest = d.bytes ++ rest') :
    c.fit capacity = d.fit capacity ∧ rest = rest' := by
  have hb : (Buffer.empty.load (c.bytes ++ rest)).unread = c.bytes ++ rest :=
    Buffer.written_load _ _
  obtain ⟨b₁, hread₁, hconsumes₁⟩ := hc.readCommand hb
  obtain ⟨b₂, hread₂, -⟩ := hd.readCommand (hb.trans h)
  -- both are read from one buffer
  rw [hread₁] at hread₂
  injection hread₂ with hfit _
  refine ⟨hfit, ?_⟩
  have hbytes : c.bytes = d.bytes := by
    rw [← bytes_fit capacity c, hfit, bytes_fit]
  rw [hbytes] at h
  exact List.append_cancel_left h

end Registry

end RecordStream
