import RecordStream.Context
import RecordStream.Proofs.Command.Acceptance
import RecordStream.Proofs.Command.Leaves

/-!
# Capacities are kept

No composite ever has more children than its capacity, and its capacity is the one that it was
constructed with.  `Command.Reached` follows a command from its construction through all that
can be done with it, and keeps account of the capacities with which the composites in it were
constructed.  That they have these capacities and keep within them (`Command.Keeps`) is shown
call by call.

Most calls leave all nodes alike.  What remains are the two ways in which children come into a
composite: one by one when they are added, and all at once when they are read.  Each of them
looks at the capacity on its own.
-/

namespace RecordStream

namespace Command

variable {α : Type} {c d : Command α} {ks ls : List Nat}

/-! ## Capacities -/

def capacity? : Command α → Option Nat
  | .composite _ capacity _ => some capacity
  | _ => none

/-- The capacities of the composites in a command, parents before children. -/
def capacities (c : Command α) : List Nat :=
  c.nodes.filterMap capacity?

/-- No composite in the command has more children than its capacity. -/
def KeepsWithin (c : Command α) : Prop :=
  ∀ n ∈ c.nodes, n.children.length ≤ n.capacity

/-- The composites in the command have these capacities and keep within them. -/
structure Keeps (ks : List Nat) (c : Command α) : Prop where
  capacities_eq : c.capacities = ks
  keepsWithin : c.KeepsWithin

theorem capacities_composite (core : Core) (k : Nat) (cs : List (Command α)) :
    (composite core k cs).capacities = k :: cs.flatMap capacities := by
  rw [capacities, nodes_eq, List.filterMap_cons, List.filterMap_flatMap]
  rfl

theorem keepsWithin_composite_iff {core : Core} {k : Nat} {cs : List (Command α)} :
    (composite core k cs).KeepsWithin ↔ cs.length ≤ k ∧ ∀ c ∈ cs, c.KeepsWithin := by
  rw [KeepsWithin, nodes_eq, List.forall_mem_cons]
  simp only [List.forall_mem_flatMap]
  rfl

theorem keeps_emptyComposite (id : EntityId) (k : Nat) :
    Keeps [k] (emptyComposite id k : Command α) where
  capacities_eq := rfl
  keepsWithin := keepsWithin_composite_iff.2 ⟨Nat.zero_le k, nofun⟩

theorem children_of_isLeaf (h : c.isLeaf = true) : c.children = [] := by
  cases c with
  | null core => rfl
  | leaf core action => rfl
  | composite core k cs => cases h

theorem keeps_of_isLeaf (h : c.isLeaf = true) : Keeps [] c where
  capacities_eq := by
    cases c with
    | null core => rfl
    | leaf core action => rfl
    | composite core k cs => cases h
  keepsWithin := by
    intro n hn
    rw [nodes_eq, children_of_isLeaf h] at hn
    rw [List.mem_singleton.1 hn, children_of_isLeaf h]
    exact Nat.zero_le _

theorem Keeps.eq_nil_of_isLeaf (hc : Keeps ks c) (h : c.isLeaf = true) : ks = [] :=
  hc.capacities_eq.symm.trans (keeps_of_isLeaf h).capacities_eq

theorem Keeps.child {core : Core} {k k' : Nat} {before after : List (Command α)}
    {ls ks ms : List Nat}
    (h : Keeps (k :: (ls ++ (ks ++ ms))) (.composite core k' (before ++ c :: after)))
    (hls : ls.length = (before.flatMap capacities).length)
    (hks : ks.length = c.capacities.length) : Keeps ks c := by
  have hcapacities := h.capacities_eq
  rw [capacities_composite, List.flatMap_append, List.flatMap_cons, List.cons.injEq] at hcapacities
  obtain ⟨-, hrest⟩ := List.append_inj hcapacities.2 hls.symm
  obtain ⟨hchild, -⟩ := List.append_inj hrest hks.symm
  obtain ⟨-, hwithin⟩ := keepsWithin_composite_iff.1 h.keepsWithin
  exact ⟨hchild, hwithin c (List.mem_append_right _ List.mem_cons_self)⟩

/-! ## Nodes that stay alike -/

section Alike

variable {R : Core → Core → Prop}

theorem Alike.capacity?_eq (h : Alike R c d) : d.capacity? = c.capacity? := by
  cases h with
  | null => rfl
  | leaf => rfl
  | composite => rfl

theorem Alike.length_le (h : Alike R c d) (hc : c.children.length ≤ c.capacity) :
    d.children.length ≤ d.capacity := by
  cases h with
  | null => exact hc
  | leaf => exact hc
  | composite _ hlen => exact hlen ▸ hc

theorem Keeps.of_alike (hc : Keeps ks c) (h : List.Forall₂ (Alike R) c.nodes d.nodes) :
    Keeps ks d := by
  have filterMap_eq {ns ms : List (Command α)} (h : List.Forall₂ (Alike R) ns ms) :
      ms.filterMap capacity? = ns.filterMap capacity? := by
    induction h with
    | nil => rfl
    | cons hn _ ih => rw [List.filterMap_cons, List.filterMap_cons, hn.capacity?_eq, ih]
  have forall_mem {ns ms : List (Command α)} (h : List.Forall₂ (Alike R) ns ms)
      (hns : ∀ n ∈ ns, n.children.length ≤ n.capacity) :
      ∀ m ∈ ms, m.children.length ≤ m.capacity := by
    induction h with
    | nil => exact hns
    | cons hn _ ih =>
      rw [List.forall_mem_cons] at hns ⊢
      exact ⟨hn.length_le hns.1, ih hns.2⟩
  exact ⟨(filterMap_eq h).trans hc.capacities_eq, forall_mem h hc.keepsWithin⟩

theorem Keeps.setId (h : Keeps ks c) (id : EntityId) : Keeps ks (c.setId id) := by
  refine h.of_alike (R := fun _ _ => True) ?_
  cases c with
  | null core => exact .cons (.null trivial) .nil
  | leaf core action => exact .cons (.leaf trivial) .nil
  | composite core k cs =>
    exact alike_nodes_composite trivial k
      (List.forall₂_same.2 fun c _ => alike_nodes_refl (fun _ => trivial) c)

end Alike

/-! ## Adding -/

theorem Keeps.tryAdd {parent child : Command α} (hparent : Keeps ks parent)
    (hchild : Keeps ls child) (h : parent.tryAdd child = .ok c) : Keeps (ks ++ ls) c := by
  obtain ⟨core, k, cs, rfl, hroom, rfl⟩ := tryAdd_eq_ok_iff.1 h
  constructor
  · rw [← hparent.capacities_eq, ← hchild.capacities_eq, capacities_composite,
      capacities_composite, List.flatMap_append, List.flatMap_singleton, List.cons_append]
  · obtain ⟨-, hcs⟩ := keepsWithin_composite_iff.1 hparent.keepsWithin
    refine keepsWithin_composite_iff.2 ⟨?_, List.forall_mem_append.2 ⟨hcs, ?_⟩⟩
    · rw [List.length_append]
      exact hroom
    · exact List.forall_mem_singleton.2 hchild.keepsWithin

theorem tryAdd_eq_ok_of_add {parent child : Command α} (h : parent.add child = .ok c) :
    parent.tryAdd child = .ok c := by
  unfold add at h
  split at h
  · cases h
    assumption
  · cases h

/-- Whether a composite is asked or told to take in a child, it does so unless it is full. -/
structure TakesUnlessFull (c : Command α) : Prop where
  refuses : c.children.length = c.capacity → ∀ child,
    c.tryAdd child = .error (.capacityExceeded c.capacity) ∧
    c.add child = .error (.compositeFull c.capacity)
  takes : c.children.length ≠ c.capacity → ∀ child, ∃ c', c.tryAdd child = .ok c' ∧
    c.add child = .ok c' ∧ c'.core = c.core ∧ c'.capacity = c.capacity ∧
    c'.children = c.children ++ [child]

theorem takesUnlessFull_of_length_le (h : c.children.length ≤ c.capacity) : c.TakesUnlessFull := by
  cases c with
  | null core => exact ⟨fun _ _ => ⟨rfl, rfl⟩, fun hne => absurd rfl hne⟩
  | leaf core action => exact ⟨fun _ _ => ⟨rfl, rfl⟩, fun hne => absurd rfl hne⟩
  | composite core k cs =>
    constructor
    · intro hfull child
      have htryAdd : tryAdd (.composite core k cs) child = .error (.capacityExceeded k) :=
        if_neg (Nat.not_lt.2 (Nat.le_of_eq hfull.symm))
      exact ⟨htryAdd, by rw [add, htryAdd]⟩
    · intro hroom child
      have htryAdd : tryAdd (.composite core k cs) child =
          .ok (.composite core k (cs ++ [child])) :=
        if_pos (Nat.lt_of_le_of_ne h hroom)
      exact ⟨_, htryAdd, by rw [add, htryAdd], rfl, rfl, rfl⟩

end Command

/-! ## Reading -/

namespace Registry

open Command

variable {α : Type} {r : Registry α} {b b' : Buffer} {c d : Command α} {ks : List Nat}

/-- The composites have the capacity of those that the registry makes, and keep within it. -/
def Allots (r : Registry α) (c : Command α) : Prop :=
  (∀ k ∈ c.capacities, k = r.room) ∧ c.KeepsWithin

theorem allots_of_isLeaf (h : c.isLeaf = true) : r.Allots c := by
  refine ⟨?_, (keeps_of_isLeaf h).keepsWithin⟩
  rw [(keeps_of_isLeaf h).capacities_eq]
  exact nofun

theorem allots_composite {core : Core} {cs : List (Command α)} (hlen : cs.length ≤ r.room)
    (hcs : ∀ c ∈ cs, r.Allots c) : r.Allots (.composite core r.room cs) := by
  refine ⟨?_, keepsWithin_composite_iff.2 ⟨hlen, fun c hc => (hcs c hc).2⟩⟩
  rw [capacities_composite, List.forall_mem_cons, List.forall_mem_flatMap]
  exact ⟨rfl, fun c hc => (hcs c hc).1⟩

variable [Recorded α]

theorem ReadsInTurn.exists_readCommand {cs : List (Command α)} (h : r.ReadsInTurn b cs b') :
    ∀ c ∈ cs, ∃ b₁ b₂, r.readCommand b₁ = .ok c b₂ := by
  induction h with
  | nil => exact fun c hc => absurd hc List.not_mem_nil
  | cons hc _ ih => exact List.forall_mem_cons.2 ⟨⟨_, _, hc⟩, ih⟩

theorem room_of_instantiate {d : Descriptor} {core : Core} {k : Nat} {cs : List (Command α)}
    (h : r.instantiate d = .ok (.composite core k cs)) : k = r.room := by
  obtain ⟨hcreate, rfl⟩ := create?_of_instantiate h
  change r.create? .compositeCommand = _ at hcreate
  rw [room, hcreate]
  rfl

/-- The composites that a registry with types of leaves makes have the capacity it was made with. -/
theorem room_withLeaves {k : Nat} {actions : List α} (h : withLeaves k actions = .ok r) :
    r.room = k := by
  have hcreate : r.create? .compositeCommand = some (.emptyComposite nullId k) :=
    (create?_withLeaves h).2 ⟨rfl, .inr (.inl rfl)⟩
  rw [room, hcreate]
  rfl

theorem allots_of_readCommand (h : r.readCommand b = .ok c b') : r.Allots c := by
  induction c using induction_on_children generalizing b b' with
  | step c ih =>
    rw [← readBy_readCommand, readBy] at h
    obtain ⟨found, b₁, -, h⟩ := bind_eq_ok_iff.1 h
    cases hmake : r.instantiate found with
    | error fault =>
      rw [hmake] at h
      cases h
    | ok p =>
      rw [hmake] at h
      cases p with
      | null core =>
        obtain ⟨core', b₂, -, hpure⟩ := bind_eq_ok_iff.1 h
        cases hpure
        exact allots_of_isLeaf rfl
      | leaf core action =>
        obtain ⟨core', b₂, -, h⟩ := bind_eq_ok_iff.1 h
        obtain ⟨action', b₃, -, hpure⟩ := bind_eq_ok_iff.1 h
        cases hpure
        exact allots_of_isLeaf rfl
      | composite core k cs =>
        obtain ⟨⟨core', ds⟩, b₂, hread, hpure⟩ := bind_eq_ok_iff.1 h
        cases hpure
        obtain ⟨hle, _, _, _, _, _, _, hturn⟩ := readComposite_eq_ok_iff.1 hread
        rw [room_of_instantiate hmake] at hle ⊢
        refine allots_composite hle fun d hd => ?_
        obtain ⟨b₁, b₂, hd'⟩ := hturn.exists_readCommand d hd
        exact ih d hd hd'

theorem keeps_of_readCommand (h : r.readCommand b = .ok c b') :
    Keeps (List.replicate c.capacities.length r.room) c := by
  obtain ⟨hroom, hwithin⟩ := allots_of_readCommand h
  exact ⟨List.eq_replicate_of_mem hroom, hwithin⟩

theorem isLeaf_readInto (h : c.isLeaf = true) (b : Buffer) :
    (r.readInto c b).subject.isLeaf = true := by
  rw [readInto]
  cases Stream.verify c.descriptor b with
  | error fault b₁ => exact h
  | ok u b₁ =>
    change (c.fill r.readCommand b₁).subject.isLeaf = true
    cases c with
    | null core =>
      rw [Command.fill]
      cases Core.read b₁ with
      | ok core' b₂ => rfl
      | error fault b₂ => rfl
    | leaf core action =>
      rw [Command.fill]
      cases Core.read b₁ with
      | ok core' b₂ =>
        cases hread : Stream.read (Recorded.fields action) b₂ with
        | ok action' b₃ => simp [hread, Outcome.ofResult, isLeaf]
        | error fault b₃ => simp [hread, Outcome.ofResult, isLeaf]
      | error fault b₂ => rfl
    | composite core k cs => cases h

/-- The composite that is read into has the capacity that it had; those that come into it have the
one of the registry. -/
theorem readInto_composite_cases (core : Core) (k : Nat) (cs : List (Command α)) (b : Buffer) :
    (∃ b' fault, r.readInto (.composite core k cs) b = ⟨.composite core k cs, b', some fault⟩) ∨
      ∃ b' core' ds, r.readInto (.composite core k cs) b = ⟨.composite core' k ds, b', none⟩ ∧
        ds.length ≤ k ∧ ∀ d ∈ ds, r.Allots d := by
  rw [readInto_composite_eq]
  cases hread : r.readCompositeRecord k b with
  | error fault b' => exact .inl ⟨b', fault, rfl⟩
  | ok p b' =>
    obtain ⟨hle, -, -, hturn⟩ := readCompositeRecord_eq_ok_iff.1 hread
    refine .inr ⟨b', p.1, p.2, rfl, hle, fun d hd => ?_⟩
    obtain ⟨b₁, b₂, hd'⟩ := hturn.exists_readCommand d hd
    exact allots_of_readCommand hd'

end Registry

namespace Command

variable {α σ : Type} [Recorded α] [Action α σ] {r : Registry α} {b b' : Buffer}
  {c d : Command α} {ks : List Nat}

theorem Keeps.readInto (hc : Keeps ks c) (h : r.readInto c b = ⟨d, b', none⟩) :
    Keeps (ks.take 1 ++ List.replicate (d.children.flatMap capacities).length r.room) d := by
  have hleaf (hleaf : c.isLeaf = true) : d.isLeaf = true := by
    have hsubject := r.isLeaf_readInto hleaf b
    rwa [h] at hsubject
  have of_isLeaf (hleaf' : c.isLeaf = true) :
      Keeps (ks.take 1 ++ List.replicate (d.children.flatMap capacities).length r.room) d := by
    rw [hc.eq_nil_of_isLeaf hleaf', children_of_isLeaf (hleaf hleaf')]
    exact keeps_of_isLeaf (hleaf hleaf')
  cases c with
  | null core => exact of_isLeaf rfl
  | leaf core action => exact of_isLeaf rfl
  | composite core k cs =>
    obtain ⟨_, _, heq⟩ | ⟨_, core', ds, heq, hle, hds⟩ := r.readInto_composite_cases core k cs b
    · rw [h] at heq
      cases heq
    · rw [h] at heq
      cases heq
      refine ⟨?_, keepsWithin_composite_iff.2 ⟨hle, fun d hd => (hds d hd).2⟩⟩
      rw [← hc.capacities_eq, capacities_composite, capacities_composite]
      refine congrArg (k :: ·) (List.eq_replicate_of_mem ?_)
      exact List.forall_mem_flatMap.2 fun d hd => (hds d hd).1

theorem Keeps.readInto_fault {fault : Fault} (hc : Keeps ks c)
    (h : r.readInto c b = ⟨d, b', some fault⟩) : Keeps ks d := by
  have of_isLeaf (hleaf : c.isLeaf = true) : Keeps ks d := by
    have hsubject := r.isLeaf_readInto hleaf b
    rw [h] at hsubject
    rw [hc.eq_nil_of_isLeaf hleaf]
    exact keeps_of_isLeaf hsubject
  cases c with
  | null core => exact of_isLeaf rfl
  | leaf core action => exact of_isLeaf rfl
  | composite core k cs =>
    obtain ⟨_, _, heq⟩ | ⟨_, _, _, heq, -, -⟩ := r.readInto_composite_cases core k cs b
    · rw [h] at heq
      cases heq
      exact hc
    · rw [h] at heq
      cases heq

/-! ## Whatever is done -/

/-- A command and the capacities with which the composites in it have been constructed, parents
before children, after any calls.  Copies are the command again, and an addition that is refused
changes nothing. -/
inductive Reached : List Nat → Command α → Prop
  | leaf {c : Command α} : c.isLeaf = true → Reached [] c
  /-- With `defaultCapacity` if nothing else is said. -/
  | withCapacity (id : EntityId) (k : Nat) : Reached [k] (.emptyComposite id k)
  | create (id : EntityId) (ids : IdPool) :
      Reached [defaultCapacity] (Command.create (.emptyComposite nullId defaultCapacity) id ids).1
  | ofContext (ctx : Context α) :
      Reached [ctx.settings.compositeCapacity.toNat] (Context.composite ctx).1
  | ofContextCommand (ctx : Context α) :
      Reached [defaultCapacity]
        (Context.command (.emptyComposite nullId defaultCapacity) ctx).1
  | decode {r : Registry α} {b b' : Buffer} {c : Command α} : r.readCommand b = .ok c b' →
      Reached (List.replicate c.capacities.length r.room) c
  /-- A child on its own, to which the capacities belong that stand behind those of the children
  before it. -/
  | child {core : Core} {k k' : Nat} {before after : List (Command α)} {c : Command α}
      {ls ks ms : List Nat} :
      Reached (k :: (ls ++ (ks ++ ms))) (.composite core k' (before ++ c :: after)) →
      ls.length = (before.flatMap capacities).length → ks.length = c.capacities.length →
      Reached ks c
  | tryAdd {parent child c : Command α} {ks ls : List Nat} : Reached ks parent →
      Reached ls child → parent.tryAdd child = .ok c → Reached (ks ++ ls) c
  | add {parent child c : Command α} {ks ls : List Nat} : Reached ks parent →
      Reached ls child → parent.add child = .ok c → Reached (ks ++ ls) c
  | cloneWithId {c : Command α} {ks : List Nat} (id : EntityId) : Reached ks c →
      Reached ks (c.cloneWithId id)
  | duplicate {c : Command α} {ks : List Nat} (ids : IdPool) : Reached ks c →
      Reached ks (c.duplicate ids).1
  /-- A composite is read into: all that was in it goes, and other commands come in. -/
  | read {r : Registry α} {b b' : Buffer} {c d : Command α} {ks : List Nat} : Reached ks c →
      r.readInto c b = ⟨d, b', none⟩ →
      Reached (ks.take 1 ++ List.replicate (d.children.flatMap capacities).length r.room) d
  | readFault {r : Registry α} {b b' : Buffer} {fault : Fault} {c d : Command α} {ks : List Nat} :
      Reached ks c → r.readInto c b = ⟨d, b', some fault⟩ → Reached ks d
  | run {c : Command α} {ks : List Nat} (w : σ) : Reached ks c → Reached ks (run c w).subject
  | undo {c : Command α} {ks : List Nat} (w : σ) : Reached ks c → Reached ks (undo c w).subject

theorem Reached.keeps (h : Reached ks c) : Keeps ks c := by
  induction h with
  | leaf hleaf => exact keeps_of_isLeaf hleaf
  | withCapacity id k => exact keeps_emptyComposite id k
  | create id ids => exact (keeps_emptyComposite _ _).setId _
  | ofContext ctx => exact keeps_emptyComposite _ _
  | ofContextCommand ctx => exact (keeps_emptyComposite _ _).setId _
  | decode hread => exact Registry.keeps_of_readCommand hread
  | child _ hls hks ih => exact ih.child hls hks
  | tryAdd _ _ hadd ihparent ihchild => exact ihparent.tryAdd ihchild hadd
  | add _ _ hadd ihparent ihchild => exact ihparent.tryAdd ihchild (tryAdd_eq_ok_of_add hadd)
  | cloneWithId id _ ih => exact ih.setId id
  | duplicate ids _ ih => exact ih.setId _
  | read _ hread ih => exact ih.readInto hread
  | readFault _ hread ih => exact ih.readInto_fault hread
  | run w _ ih => exact ih.of_alike (alike_run _ w)
  | undo w _ ih => exact ih.of_alike (alike_undo _ w)

/-- Capacities are fixed at construction.  Whatever is done with commands (`Reached`), the
composites in the result have the capacities `ks` that they were constructed with.  No node has
more children than its capacity, and each takes a further child unless it is full. -/
theorem capacities_of_reached (h : Reached ks c) :
    c.capacities = ks ∧
    ∀ n ∈ c.nodes, n.children.length ≤ n.capacity ∧ n.TakesUnlessFull := by
  refine ⟨h.keeps.capacities_eq, fun n hn => ?_⟩
  have hle := h.keeps.keepsWithin n hn
  exact ⟨hle, takesUnlessFull_of_length_le hle⟩

/-- A command that has been read, put into a composite that is full with it, and run. -/
theorem capacities_of_reached_sample :
    ∃ (r : Registry Tally) (b b' : Buffer) (c d : Command Tally),
      Registry.withLeaves 3 [Tally.inc, .addN 0, .dec] = .ok r ∧
      r.readCommand b = .ok (Tally.sample.fit 3) b' ∧
      (emptyComposite 8 1).tryAdd (Tally.sample.fit 3) = .ok c ∧ (run c Ledger.empty).subject = d ∧
      Reached [1, 3, 3] d ∧ d.capacities = [1, 3, 3] ∧
      d.tryAdd (.null (.fresh 9)) = .error (.capacityExceeded 1) := by
  obtain ⟨r, hr⟩ : ∃ r, Registry.withLeaves 3 [Tally.inc, .addN 0, .dec] = .ok r := ⟨_, rfl⟩
  obtain ⟨b, b', -, -, hread⟩ := Registry.readCommand_sample hr
  have hdecoded : Reached [3, 3] (Tally.sample.fit 3) := by
    have h := Reached.decode hread
    rwa [Registry.room_withLeaves hr] at h
  have hadded : Reached [1, 3, 3] (.composite (.fresh 8) 1 [Tally.sample.fit 3]) :=
    (Reached.withCapacity 8 1).tryAdd hdecoded rfl
  have hrun := hadded.run Ledger.empty
  obtain ⟨hcapacities, hnodes⟩ := capacities_of_reached hrun
  have hfull := (hnodes _ (mem_nodes_self _)).2.refuses rfl (.null (.fresh 9))
  exact ⟨r, b, b', _, _, hr, hread, rfl, rfl, hrun, hcapacities, hfull.1⟩

end Command

end RecordStream
