import RecordStream.Proofs.Command.Canonical
import RecordStream.Proofs.Command.Exchange
import RecordStream.Proofs.Command.Filling

/-!
# Reading comes to an end

Reading a command calls itself for every child, and the bytes say how many there are.
`r.Calls child b b'` says that the reader, started in `b`, calls for a child at `b'`, and
`r.Returns n b result` that it returns this result without ever having more than `n` calls
open.  Neither knows of an allowance of nesting.

In front of its first call the reader has taken the head of a composite off the buffer
(`Calls.remaining_le`), so calls are no deeper nested than there are heads in the unread
bytes, and the allowance of `readCommand` is never used up (`readCommand_returns`).
-/

namespace RecordStream

namespace Registry

open Command

variable {α : Type} {child child' : Stream (Command α)} {b b' : Buffer}

/-! ## Children -/

/-- Children are read by calling for one after the other. -/
theorem readMany_congr {n : Nat}
    (h : ∀ (before : List (Command α)) b', before.length < n →
      readMany child before.length b = .ok before b' → child' b' = child b') :
    readMany child' n b = readMany child n b := by
  induction n generalizing b with
  | zero => rfl
  | succ n ih =>
    refine bind_congr_of_ok (h [] b (Nat.zero_lt_succ n) rfl) fun c b₁ hc => ?_
    refine bind_congr_of_ok (ih fun before b' hlt hbefore => ?_) fun _ _ _ => rfl
    refine h (c :: before) b' (Nat.succ_lt_succ hlt) ?_
    exact bind_eq_ok_iff.2 ⟨c, b₁, hc, bind_eq_ok_iff.2 ⟨before, b', hbefore, rfl⟩⟩

variable [Recorded α] {r : Registry α}

/-! ## One call -/

/-- Reads a command of any registered type, and its children with the given reader. -/
def readBy (r : Registry α) (child : Stream (Command α)) : Stream (Command α) := do
  let found ← Stream.readDescriptor
  match r.instantiate found with
  | .ok p => readBody child p
  | .error fault => throw fault

theorem readWithin_succ_eq (r : Registry α) (limit : Nat) :
    r.readWithin (limit + 1) = r.readBy (r.readWithin limit) :=
  readWithin_succ limit

/-- With the given reader for children, the reader at work in `b` calls for a child at `b'`: the
head of a composite has been read, the children that are to be read are not too many, and the
first ones of them, not all, have been read up to `b'`. -/
inductive Calls (r : Registry α) (child : Stream (Command α)) (b b' : Buffer) : Prop
  | intro {found : Descriptor} {core core' : Core} {capacity : Nat} {cs before : List (Command α)}
      {count : UInt64} {b₁ b₂ b₃ : Buffer} :
      Stream.readDescriptor b = .ok found b₁ →
      r.instantiate found = .ok (.composite core capacity cs) →
      Core.read b₁ = .ok core' b₂ → Stream.read countLayout b₂ = .ok count b₃ →
      count.toNat ≤ capacity → before.length < count.toNat →
      readMany child before.length b₃ = .ok before b' → Calls r child b b'

/-- What a call comes to is decided by what the calls come to that it makes. -/
theorem readBy_congr (h : ∀ b', r.Calls child b b' → child' b' = child b') :
    r.readBy child' b = r.readBy child b := by
  refine bind_congr_of_ok rfl fun found b₁ hfound => ?_
  cases hmake : r.instantiate found with
  | error fault => rfl
  | ok p =>
    cases p with
    | null core => rfl
    | leaf core action => rfl
    | composite core capacity cs =>
      refine bind_congr_of_ok ?_ fun _ _ _ => rfl
      rw [readComposite_eq, readComposite_eq]
      refine bind_congr_of_ok rfl fun core' b₂ hcore => ?_
      refine bind_congr_of_ok rfl fun count b₃ hcount => ?_
      split
      · rfl
      · refine bind_congr_of_ok (readMany_congr fun before b' hlt hbefore => ?_) fun _ _ _ => rfl
        exact h b' (.intro hfound hmake hcore hcount (by omega) hlt hbefore)

/-- In front of its first call the reader takes the head of a composite off the buffer. -/
theorem Calls.remaining_le (hchild : child.OnlyReads) (h : r.Calls child b b') :
    b'.remaining + compositeHeadSize ≤ b.remaining := by
  cases h with
  | @intro found core core' capacity cs before count b₁ b₂ b₃ hfound _ hcore hcount _ _ hbefore =>
    have h₁ := (Stream.readDescriptor_eq_ok_iff.1 hfound).remaining_eq
    have h₂ := (Core.read_eq_ok_iff.1 hcore).remaining_eq
    have h₃ := ((Stream.read_eq_ok_iff lawful_countLayout).1 hcount).remaining_eq
    obtain ⟨bs, hbs⟩ := onlyReads_readMany hchild before.length b₃
    rw [Stream.final_of_ok hbefore] at hbs
    have h₄ := hbs.remaining_eq
    rw [Descriptor.lawful_layout.length_bytes] at h₁
    rw [Core.length_bytes] at h₂
    rw [lawful_countLayout.length_bytes] at h₃
    rw [compositeHeadSize]
    omega

/-! ## The allowance -/

/-- With less unread bytes than the heads of as many composites, the allowance makes no
difference. -/
theorem readWithin_eq_of_remaining_lt {m n : Nat} (hm : b.remaining < compositeHeadSize * m)
    (hn : b.remaining < compositeHeadSize * n) : r.readWithin m b = r.readWithin n b := by
  induction m generalizing n b with
  | zero => exact absurd hm (Nat.not_lt_zero _)
  | succ m ih =>
    cases n with
    | zero => exact absurd hn (Nat.not_lt_zero _)
    | succ n =>
      rw [readWithin_succ_eq, readWithin_succ_eq]
      refine readBy_congr fun b' hcall => ?_
      have hle := hcall.remaining_le (onlyReads_readWithin n)
      rw [Nat.mul_succ] at hm hn
      exact ih (by omega) (by omega)

theorem remaining_lt_mul (b : Buffer) :
    b.remaining < compositeHeadSize * (b.remaining / compositeHeadSize + 1) :=
  Nat.lt_mul_div_succ _ (by decide)

/-- Commands are read with calls of the same sort for their children. -/
theorem readBy_readCommand (b : Buffer) : r.readBy r.readCommand b = r.readCommand b := by
  rw [readCommand, readWithin_succ_eq]
  refine readBy_congr fun b' hcall => ?_
  have hle := hcall.remaining_le (onlyReads_readWithin _)
  refine readWithin_eq_of_remaining_lt (remaining_lt_mul b') ?_
  have hlt := remaining_lt_mul b
  rw [Nat.mul_succ] at hlt
  omega

/-! ## Open calls -/

/-- Reading in `b` comes to an end with the given result, and up to then never more than `n`
calls are open: one layer, and what it calls for has never more than one call less open. -/
inductive Returns (r : Registry α) : Nat → Buffer → EStateM.Result Fault Buffer (Command α) → Prop
  | intro {n : Nat} {b : Buffer} {child : Stream (Command α)} :
      (∀ b', r.Calls child b b' → Returns r n b' (child b')) →
      Returns r (n + 1) b (r.readBy child b)

theorem Returns.mono {m n : Nat} {result : EStateM.Result Fault Buffer (Command α)}
    (h : r.Returns m b result) (hle : m ≤ n) : r.Returns n b result := by
  induction h generalizing n with
  | intro _ ih =>
    cases n with
    | zero => exact absurd hle (Nat.not_succ_le_zero _)
    | succ n => exact .intro fun b' hcall => ih b' hcall (Nat.le_of_succ_le_succ hle)

/-- There is one result that reading can come to, however many calls it takes. -/
theorem Returns.eq_readCommand {n : Nat} {result : EStateM.Result Fault Buffer (Command α)}
    (h : r.Returns n b result) : result = r.readCommand b := by
  induction h with
  | intro _ ih =>
    rw [← readBy_readCommand]
    exact (readBy_congr fun b' hcall => (ih b' hcall).symm).symm

/-- There are no more calls open than there are heads of composites in the unread bytes, and one. -/
theorem returns_readCommand (b : Buffer) :
    r.Returns (b.remaining / compositeHeadSize + 1) b (r.readCommand b) := by
  -- the induction is on the number of unread bytes, of which every call has a head less
  generalize hn : b.remaining = n
  induction n using Nat.strongRecOn generalizing b with
  | ind n ih =>
    rw [← readBy_readCommand]
    refine .intro fun b' hcall => ?_
    have hle := hcall.remaining_le r.onlyReads_readCommand
    have hpos : 0 < compositeHeadSize := by decide
    refine (ih b'.remaining (by omega) b' rfl).mono ?_
    rw [← Nat.add_div_right _ hpos, ← hn]
    exact Nat.div_le_div_right hle

/-! ## Faults -/

/-- The fault is one that the stored fields of a registered leaf have not been read for. -/
def FieldsFail (r : Registry α) (fault : Fault) (b' : Buffer) : Prop :=
  ∃ d p a b, r.create? d = some p ∧ a ∈ p.action? ∧
    Stream.read (Recorded.fields a) b = .error fault b'

/-- A reader at work in `b` has found the fault: there are not enough bytes, or they are malformed;
the descriptor right before is not the one of the core that should follow, has the name of a type
and not its version, or the name of no type at all; a composite has too many children; or the
fields of a leaf fail. -/
inductive Finds (r : Registry α) : Fault → Buffer → Prop
  | short (b : Buffer) (n : Nat) : Finds r (.underflow b.readPos n b.remaining) b
  | malformed (m : Malformation) (b : Buffer) : Finds r (.invalidData m) b
  | noCore (found : Descriptor) (b : Buffer) : b.JustRead (Descriptor.layout.bytes found) →
      found ≠ .command → Finds r (.typeMismatch Descriptor.command.text found.text) b
  | otherVersion {p : Command α} (found : Descriptor) (b : Buffer) :
      b.JustRead (Descriptor.layout.bytes found) → r.create? found = some p →
      p.descriptor ≠ found → Finds r (.typeMismatch p.descriptor.text found.text) b
  | unknown (found : Descriptor) (b : Buffer) : Finds r (.unknownType found.fullName) b
  | crowded (capacity : Nat) (b : Buffer) : Finds r (.capacityExceeded capacity) b
  | fields {fault : Fault} {b : Buffer} : r.FieldsFail fault b → Finds r fault b

section Finds

theorem failsWith_readCore : Core.read.FailsWith r.Finds :=
  Core.failsWith_read .short .malformed .noCore

variable (hchild : child.FailsWith r.Finds)

include hchild

theorem failsWith_readMany (n : Nat) : (readMany child n).FailsWith r.Finds := by
  induction n with
  | zero => exact Stream.failsWith_pure []
  | succ n ih => exact hchild.bind fun c => ih.bind fun cs => Stream.failsWith_pure (c :: cs)

theorem failsWith_readComposite (capacity : Nat) :
    (readComposite child capacity).FailsWith r.Finds := by
  rw [readComposite_eq]
  refine failsWith_readCore.bind fun core => ?_
  refine (Stream.failsWith_read .short .malformed (Layout.decisive_word .native)).bind
    fun count => ?_
  split
  · exact Stream.failsWith_throw (.crowded capacity)
  · exact (failsWith_readMany hchild _).bind fun cs => Stream.failsWith_pure (core, cs)

theorem failsWith_readBody {d : Descriptor} {p : Command α} (hp : r.create? d = some p) :
    (readBody child p).FailsWith r.Finds := by
  cases p with
  | null core => exact failsWith_readCore.bind fun core => Stream.failsWith_pure _
  | leaf core action =>
    refine failsWith_readCore.bind fun core => ?_
    have hfields : (Stream.read (Recorded.fields action)).FailsWith r.Finds :=
      fun b _ _ h => .fields ⟨d, _, action, b, hp, rfl, h⟩
    exact hfields.bind fun action => Stream.failsWith_pure _
  | composite core k cs =>
    exact (failsWith_readComposite hchild k).bind fun p => Stream.failsWith_pure _

theorem failsWith_readBy : (r.readBy child).FailsWith r.Finds := by
  refine (Stream.failsWith_readDescriptor .short .malformed).bind_of_ok
    fun b found b' hfound fault b'' h => ?_
  have hjust := (Stream.readDescriptor_eq_ok_iff.1 hfound).justRead
  cases hmake : r.instantiate found with
  | ok p =>
    rw [hmake] at h
    exact failsWith_readBody hchild (create?_of_instantiate hmake).1 _ _ _ h
  | error f =>
    rw [hmake] at h
    cases h
    unfold instantiate at hmake
    split at hmake
    · cases hmake
      exact .unknown found _
    · rename_i p hp
      split at hmake
      · cases hmake
      · rename_i hne
        cases hmake
        exact .otherVersion found _ hjust hp hne

end Finds

/-- The faults of reading tell what is wrong with the bytes; the allowance of nesting is not among
them. -/
theorem failsWith_readCommand : r.readCommand.FailsWith r.Finds := by
  intro b
  generalize hn : b.remaining = n
  induction n using Nat.strongRecOn generalizing b with
  | ind n ih =>
    -- calls are made with less unread bytes only, so only there the faults of children matter
    let child : Stream (Command α) := fun b' =>
      if b'.remaining < n then r.readCommand b'
      else .error (.underflow b'.readPos 0 b'.remaining) b'
    have hchild : child.FailsWith r.Finds := by
      intro b₁ fault b₂ h
      by_cases hlt : b₁.remaining < n
      · exact ih _ hlt b₁ rfl fault b₂ ((if_pos hlt).symm.trans h)
      · cases (if_neg hlt).symm.trans h
        exact .short b₁ 0
    have hread : r.readCommand b = r.readBy child b := by
      rw [← readBy_readCommand]
      refine (readBy_congr fun b' hcall => if_pos ?_).symm
      have hle := hcall.remaining_le r.onlyReads_readCommand
      have hpos : 0 < compositeHeadSize := by decide
      omega
    rw [hread]
    exact failsWith_readBy hchild b

/-- The stored fields of what the registry makes are read, or the bytes found malformed. -/
def Decisive (r : Registry α) : Prop :=
  ∀ d p, r.create? d = some p → ∀ a ∈ p.action?, (Recorded.fields a).Decisive

theorem safe_readCommand (hr : r.Decisive) : r.readCommand.Safe := by
  intro b fault b' h
  have hfinds := failsWith_readCommand b fault b' h
  cases hfinds with
  | fields h =>
    obtain ⟨d, p, a, b₁, hp, ha, hread⟩ := h
    exact Stream.failsWith_read (P := fun fault _ => fault.isMisuse = false) (fun _ _ => rfl)
      (fun _ _ => rfl) (hr d p hp a ha) _ _ _ hread
  | _ => rfl

theorem decisive_withLeaves {capacity : Nat} {actions : List α}
    (hr : withLeaves capacity actions = .ok r)
    (hactions : ∀ a ∈ actions, Recorded.SameType a a) : r.Decisive := by
  intro d p hp a ha
  obtain ⟨-, rfl | rfl | ⟨action, hmem, rfl⟩⟩ := (create?_withLeaves hr).1 hp
  · cases ha
  · cases ha
  · cases ha
    exact (hactions a hmem).decisive

/-! ## Nodes -/

theorem mul_length_le_headSizes (ns : List (Command α)) :
    (Descriptor.layout.size + Core.recordSize) * ns.length ≤ headSizes ns := by
  induction ns with
  | nil => exact Nat.zero_le _
  | cons n ns ih =>
    have hn : Descriptor.layout.size + Core.recordSize ≤ n.headSize := by
      cases n with
      | null core => exact Nat.le_refl _
      | leaf core action => exact Nat.le_add_right _ _
      | composite core k cs => exact Nat.le_add_right _ _
    rw [List.length_cons, Nat.mul_succ, headSizes]
    omega

/-! ## All of it -/

/-- `readCommand` terminates on every buffer.  Its recursive calls, as the relation `Returns` has
them without any allowance, come to one result, which is the one that `readCommand` gives, and no
more than `1 + b.remaining / 441` of them are open at a time.  The result is a command or a fault
of the bytes, never a misuse.  A command that is returned has at most one node for 433 bytes
consumed.

The capacity is one that composites can be made with (`capacityLimit`); otherwise the first head
of a composite is where the reader breaks down. -/
theorem readCommand_returns {capacity : Nat} (_hcapacity : capacity < capacityLimit)
    {actions : List α} (hr : withLeaves capacity actions = .ok r)
    (hactions : ∀ a ∈ actions, Recorded.SameType a a) (b : Buffer) :
    r.Returns (1 + b.remaining / 441) b (r.readCommand b) ∧
    (∀ n result, r.Returns n b result → result = r.readCommand b) ∧
    (∀ fault b', r.readCommand b = .error fault b' → fault.isMisuse = false) ∧
    ∀ t b', r.readCommand b = .ok t b' → t.nodes.length ≤ (b'.readPos - b.readPos) / 433 := by
  refine ⟨?_, fun n result h => h.eq_readCommand, ?_, ?_⟩
  · rw [Nat.add_comm]
    exact returns_readCommand b
  · exact safe_readCommand (decisive_withLeaves hr hactions) b
  · intro t b' h
    obtain ⟨hchecks, hconsumes⟩ := readWithin_checked (strict_withLeaves hr hactions) _ h
    have hlength := length_bytes fun n hn => (hchecks n hn).storable
    have hnodes : 433 * t.nodes.length ≤ headSizes t.nodes := mul_length_le_headSizes t.nodes
    rw [hconsumes.readPos_eq, Nat.add_sub_cancel_left, hlength, ← headSizes_nodes]
    rw [Nat.le_div_iff_mul_le (by decide), Nat.mul_comm]
    exact hnodes

/-- For the 2618 bytes of the sample both bounds are six.  It has six nodes, nested three deep. -/
theorem readCommand_returns_sample :
    3 < capacityLimit ∧ ∃ r b b', withLeaves 3 [Tally.inc, .addN 0, .dec] = .ok r ∧
      Tally.sample.write .empty = .ok () b ∧ b.remaining = 2618 ∧
      r.Returns 6 b (.ok (Tally.sample.fit 3) b') ∧
      (Tally.sample.fit 3).nodes.length ≤ (b'.readPos - b.readPos) / 433 := by
  have hcapacity : 3 < capacityLimit := by decide
  obtain ⟨r, hr⟩ : ∃ r, withLeaves 3 [Tally.inc, .addN 0, .dec] = .ok r := ⟨_, rfl⟩
  obtain ⟨b, b', hwrite, hreceives, hread⟩ := readCommand_sample hr
  have hremaining : b.remaining = 2618 := by
    rw [← Buffer.length_unread, hreceives.unread_eq_of_empty, length_bytes Tally.storable_sample]
    rfl
  obtain ⟨hreturns, -, -, hnodes⟩ :=
    readCommand_returns hcapacity hr (fun a _ => a.sameType_refl) b
  rw [hremaining, hread] at hreturns
  exact ⟨hcapacity, r, b, b', hr, hwrite, hremaining, hreturns, hnodes _ b' hread⟩

end Registry

end RecordStream
