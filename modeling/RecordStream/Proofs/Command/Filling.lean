import RecordStream.Proofs.Command.Reading

/-!
# Reading into a composite

A composite takes over what a record holds only when all of it has been read.  Up to
then everything that goes wrong, at any depth and after any number of children,
leaves it as it was; from then on nothing of what it held before is left.

`r.HoldsComposite b core children b'` says what is read then: the head of a
composite with that core and so many children stands in `b`, and behind it the
registry reads just these children, the last one up to `b'`.
-/

namespace RecordStream

namespace Registry

open Command

variable {α : Type} {child : Stream (Command α)} {capacity : Nat} {b b' : Buffer}

/-! ## Readers of commands only read -/

theorem onlyReads_readMany (hchild : child.OnlyReads) (n : Nat) : (readMany child n).OnlyReads := by
  induction n with
  | zero => exact Stream.onlyReads_pure []
  | succ n ih => exact hchild.bind fun c => ih.bind fun cs => Stream.onlyReads_pure (c :: cs)

theorem onlyReads_readComposite (hchild : child.OnlyReads) (capacity : Nat) :
    (readComposite child capacity).OnlyReads := by
  rw [readComposite_eq]
  refine (Stream.onlyReads_readRecord _ _).bind fun core => ?_
  refine (Stream.onlyReads_read _).bind fun count => ?_
  split
  · exact Stream.onlyReads_throw _
  · exact (onlyReads_readMany hchild _).bind fun cs => Stream.onlyReads_pure (core, cs)

variable [Recorded α] {r : Registry α}

theorem onlyReads_readBody (hchild : child.OnlyReads) (p : Command α) :
    (readBody child p).OnlyReads := by
  cases p with
  | null core => exact (Stream.onlyReads_readRecord _ _).bind fun core => Stream.onlyReads_pure _
  | leaf core action =>
    refine (Stream.onlyReads_readRecord _ _).bind fun core => ?_
    exact (Stream.onlyReads_read _).bind fun action => Stream.onlyReads_pure _
  | composite core k cs =>
    exact (onlyReads_readComposite hchild k).bind fun p => Stream.onlyReads_pure _

theorem onlyReads_readWithin (limit : Nat) : (r.readWithin limit).OnlyReads := by
  induction limit with
  | zero => exact Stream.onlyReads_throw _
  | succ limit ih =>
    rw [readWithin_succ]
    refine (Stream.onlyReads_read _).bind fun found => ?_
    cases r.instantiate found with
    | ok p => exact onlyReads_readBody ih p
    | error fault => exact Stream.onlyReads_throw fault

theorem onlyReads_readCommand (r : Registry α) : r.readCommand.OnlyReads :=
  fun b => onlyReads_readWithin (b.remaining / compositeHeadSize + 1) b

/-! ## The record of a composite -/

/-- The registry reads these commands one behind the other. -/
inductive ReadsInTurn (r : Registry α) : Buffer → List (Command α) → Buffer → Prop
  | nil {b : Buffer} : ReadsInTurn r b [] b
  | cons {b b₁ b₂ : Buffer} {c : Command α} {cs : List (Command α)} :
      r.readCommand b = .ok c b₁ → ReadsInTurn r b₁ cs b₂ → ReadsInTurn r b (c :: cs) b₂

/-- The bytes in front of the children: the descriptor, the core and the number of children. -/
def compositeHead (core : Core) (count : UInt64) : Bytes :=
  Descriptor.layout.bytes .compositeCommand ++ (core.bytes ++ countLayout.bytes count)

/-- The record of a composite with this core and these children lies between two positions of a
buffer. -/
inductive HoldsComposite (r : Registry α) (b : Buffer) (core : Core) (children : List (Command α))
    (b' : Buffer) : Prop
  | intro {count : UInt64} {b₁ : Buffer} : count.toNat = children.length →
      b.Consumes (compositeHead core count) b₁ → r.ReadsInTurn b₁ children b' →
      HoldsComposite r b core children b'

theorem readMany_eq_ok_iff {n : Nat} {cs : List (Command α)} :
    readMany r.readCommand n b = .ok cs b' ↔ cs.length = n ∧ r.ReadsInTurn b cs b' := by
  induction n generalizing b cs with
  | zero =>
    constructor
    · rintro ⟨⟩
      exact ⟨rfl, .nil⟩
    · rintro ⟨hlen, hcs⟩
      cases List.eq_nil_of_length_eq_zero hlen
      cases hcs
      rfl
  | succ n ih =>
    constructor
    · intro h
      obtain ⟨c, b₁, hc, h⟩ := bind_eq_ok_iff.1 h
      obtain ⟨ds, b₂, hds, hpure⟩ := bind_eq_ok_iff.1 h
      cases hpure
      obtain ⟨rfl, hturn⟩ := ih.1 hds
      exact ⟨rfl, .cons hc hturn⟩
    · rintro ⟨hlen, hcs⟩
      cases hcs with
      | nil => cases hlen
      | @cons _ b₁ _ c ds hc hds =>
        have hrest := ih.2 ⟨Nat.succ.inj hlen, hds⟩
        exact bind_eq_ok_iff.2 ⟨c, b₁, hc, bind_eq_ok_iff.2 ⟨ds, b', hrest, rfl⟩⟩

theorem readComposite_eq_ok_iff {core : Core} {cs : List (Command α)} :
    readComposite r.readCommand capacity b = .ok (core, cs) b' ↔
      cs.length ≤ capacity ∧ ∃ (count : UInt64) (b₁ b₂ : Buffer), count.toNat = cs.length ∧
        b.Consumes core.bytes b₁ ∧ b₁.Consumes (countLayout.bytes count) b₂ ∧
        r.ReadsInTurn b₂ cs b' := by
  rw [readComposite_eq]
  constructor
  · intro h
    obtain ⟨core', b₁, hcore, h⟩ := bind_eq_ok_iff.1 h
    obtain ⟨count, b₂, hcount, h⟩ := bind_eq_ok_iff.1 h
    split at h
    · cases h
    · rename_i hle
      obtain ⟨ds, b₃, hds, hpure⟩ := bind_eq_ok_iff.1 h
      cases hpure
      obtain ⟨hlen, hturn⟩ := readMany_eq_ok_iff.1 hds
      exact ⟨by omega, count, b₁, b₂, hlen.symm, Core.read_eq_ok_iff.1 hcore,
        (Stream.read_eq_ok_iff lawful_countLayout).1 hcount, hturn⟩
  · rintro ⟨hle, count, b₁, b₂, hlen, hcore, hcount, hturn⟩
    refine bind_eq_ok_iff.2 ⟨core, b₁, Core.read_eq_ok_iff.2 hcore, ?_⟩
    refine bind_eq_ok_iff.2 ⟨count, b₂, (Stream.read_eq_ok_iff lawful_countLayout).2 hcount, ?_⟩
    rw [if_neg (by omega)]
    exact bind_eq_ok_iff.2 ⟨cs, b', readMany_eq_ok_iff.2 ⟨hlen.symm, hturn⟩, rfl⟩

/-- Reads the record of a composite that has room for `capacity` children. -/
def readCompositeRecord (r : Registry α) (capacity : Nat) : Stream (Core × List (Command α)) := do
  Stream.verify .compositeCommand
  readComposite r.readCommand capacity

theorem readCompositeRecord_eq_ok_iff {core : Core} {cs : List (Command α)} :
    r.readCompositeRecord capacity b = .ok (core, cs) b' ↔
      cs.length ≤ capacity ∧ r.HoldsComposite b core cs b' := by
  rw [readCompositeRecord]
  constructor
  · intro h
    obtain ⟨u, b₁, hverify, h⟩ := bind_eq_ok_iff.1 h
    obtain ⟨hle, count, b₂, b₃, hlen, hcore, hcount, hturn⟩ := readComposite_eq_ok_iff.1 h
    exact ⟨hle, hlen, (Stream.verify_eq_ok_iff.1 hverify).trans (hcore.trans hcount), hturn⟩
  · rintro ⟨hle, hlen, hhead, hturn⟩
    obtain ⟨b₁, hverify, hrest⟩ := hhead.of_append
    obtain ⟨b₂, hcore, hcount⟩ := hrest.of_append
    exact bind_eq_ok_iff.2 ⟨(), b₁, Stream.verify_eq_ok_iff.2 hverify,
      readComposite_eq_ok_iff.2 ⟨hle, _, b₂, _, hlen, hcore, hcount, hturn⟩⟩

theorem onlyReads_readCompositeRecord (r : Registry α) (capacity : Nat) :
    (r.readCompositeRecord capacity).OnlyReads :=
  (Stream.onlyReads_verify _).bind fun _ => onlyReads_readComposite r.onlyReads_readCommand capacity

/-- A composite is read into by reading a whole record first. -/
theorem readInto_composite_eq (core : Core) (cs : List (Command α)) (b : Buffer) :
    r.readInto (.composite core capacity cs) b =
      .ofResult (.composite core capacity cs) (fun p => .composite p.1 capacity p.2)
        (r.readCompositeRecord capacity b) := by
  rw [readInto, readCompositeRecord]
  cases h : Stream.verify .compositeCommand b with
  | ok u b₁ =>
    rw [bind_of_ok h, Command.descriptor, h]
    rfl
  | error f b₁ =>
    rw [bind_of_error h, Command.descriptor, h]
    rfl

/-- `readInto` a composite is all or nothing.  Either it fails and leaves the composite as it was,
or the buffer holds the record of a composite with no more than `capacity` children
(`HoldsComposite`), and core and children are replaced by those of the record.  Conversely every
such record is read.  The capacity stays, and so do the written bytes. -/
theorem readInto_composite (r : Registry α) (core : Core) (capacity : Nat)
    (children : List (Command α)) (b : Buffer) :
    ∃ b', b'.written = b.written ∧ b.readPos ≤ b'.readPos ∧ b'.readPos ≤ b'.length ∧
      ((∃ f, r.readInto (.composite core capacity children) b =
          ⟨.composite core capacity children, b', some f⟩) ∨
        ∃ core' children', r.readInto (.composite core capacity children) b =
            ⟨.composite core' capacity children', b', none⟩ ∧
          children'.length ≤ capacity ∧ r.HoldsComposite b core' children' b') ∧
      ∀ core' children' b'', children'.length ≤ capacity → r.HoldsComposite b core' children' b'' →
        r.readInto (.composite core capacity children) b =
          ⟨.composite core' capacity children', b'', none⟩ := by
  obtain ⟨bs, hconsumes⟩ := r.onlyReads_readCompositeRecord capacity b
  refine ⟨_, hconsumes.written_eq, ?_, Buffer.readPos_le _, ?_, ?_⟩
  · rw [hconsumes.readPos_eq]
    exact Nat.le_add_right _ _
  · rw [readInto_composite_eq]
    cases h : r.readCompositeRecord capacity b with
    | ok p b' =>
      rw [Stream.final_of_ok h]
      exact .inr ⟨p.1, p.2, rfl, readCompositeRecord_eq_ok_iff.1 h⟩
    | error f b' =>
      rw [Stream.final_of_error h]
      exact .inl ⟨f, rfl⟩
  · intro core' children' b'' hle hholds
    rw [readInto_composite_eq, readCompositeRecord_eq_ok_iff.2 ⟨hle, hholds⟩]
    rfl

end Registry

end RecordStream
