import RecordStream.Command.Reading
import RecordStream.Proofs.Recorded

/-!
# Reading what was written

A command that was written is read node by node, so what becomes of it is decided by
the heads of its nodes: the reader gets past a head unless the type of the node is
unknown or the node has too many children (`Registry.refusal?`).  The first node that
is refused stops the reader, right there and with its fault, however deep it sits;
`Registry.stop?` says where that is in a list of nodes.

`Registry.readWithin_runsTo` puts this together by induction on the command: the
reader runs through the bytes of a written command up to the stop of its nodes, and
if there is none gives the command, its composites with the capacity that the
registry gives them (`Command.fit`).
-/

namespace RecordStream

/-! ## Runs that may stop -/

/-- A fault, and the number of bytes that are read before it. -/
structure Stop where
  fault : Fault
  after : Nat

/-- The stop of what comes behind `n` bytes. -/
def Stop.behind (n : Nat) (s : Stop) : Stop :=
  ⟨s.fault, n + s.after⟩

theorem Stop.behind_zero (s : Stop) : s.behind 0 = s := by
  rw [behind, Nat.zero_add]

theorem Stop.behind_behind (s : Stop) (m n : Nat) :
    (s.behind n).behind m = s.behind (m + n) := by
  rw [behind, behind, behind, Nat.add_assoc]

theorem Stop.map_behind_map_behind (m n : Nat) (s : Option Stop) :
    (s.map (Stop.behind n)).map (Stop.behind m) = s.map (Stop.behind (m + n)) := by
  rw [Option.map_map]
  congr 1
  funext s
  exact s.behind_behind m n

namespace Stream

variable {β γ : Type} {m : Stream β} {f : β → Stream γ} {a : β} {c : γ} {b : Buffer}
  {bs cs rest : Bytes} {s s' : Option Stop}

/-- The action meets the bytes `bs`: it reads them as `a` or, if there is a stop, fails
in the midst of them. -/
inductive RunsTo (m : Stream β) (b : Buffer) (bs : Bytes) (a : β) : Option Stop → Prop
  | ok {b' : Buffer} : m b = .ok a b' → b.Consumes bs b' → RunsTo m b bs a none
  | error {f : Fault} {b' : Buffer} {pre : Bytes} : m b = .error f b' → b.Consumes pre b' →
      pre <+: bs → RunsTo m b bs a (some ⟨f, pre.length⟩)

theorem RunsTo.congr {m' : Stream β} (hm : m.RunsTo b bs a s) (h : m' b = m b) :
    m'.RunsTo b bs a s := by
  cases hm with
  | ok hm hb => exact .ok (h.trans hm) hb
  | error hm hb hpre => exact .error (h.trans hm) hb hpre

theorem runsTo_pure (a : β) (b : Buffer) : (pure a : Stream β).RunsTo b [] a none :=
  .ok rfl (.refl b)

theorem runsTo_throw (f : Fault) (b : Buffer) (bs : Bytes) (a : β) :
    (throw f : Stream β).RunsTo b bs a (some ⟨f, 0⟩) :=
  .error rfl (.refl b) List.nil_prefix

theorem runsTo_read {L : Layout β} (hL : L.Lawful) (hb : b.unread = L.bytes a ++ rest) :
    (read L).RunsTo b (L.bytes a) a none := by
  obtain ⟨hle, hconsumes⟩ := Buffer.consumes_advance hb
  exact .ok ((read_eq_ok_iff hL).2 hconsumes) hconsumes

/-- Of two actions the first one that stops decides. -/
theorem RunsTo.bind (hm : m.RunsTo b bs a s)
    (hf : ∀ b', b.Consumes bs b' → (f a).RunsTo b' cs c s') :
    (m >>= f).RunsTo b (bs ++ cs) c (s.or (s'.map (.behind bs.length))) := by
  cases hm with
  | error hm hb hpre =>
    exact .error (bind_of_error hm) hb (hpre.trans (List.prefix_append bs cs))
  | @ok b' hm hb =>
    cases hf b' hb with
    | ok hc hb' => exact .ok ((bind_of_ok hm).trans hc) (hb.trans hb')
    | @error g b'' pre hc hb' hpre =>
      have hrun := RunsTo.error (a := c) ((bind_of_ok hm).trans hc) (hb.trans hb')
        ((List.prefix_append_right_inj bs).2 hpre)
      rw [List.length_append] at hrun
      exact hrun

/-- Reading into a layout of its own. -/
theorem runsTo_read_of_reads {L : Layout β} (h : L.Reads bs a) (hb : b.unread = bs ++ rest) :
    (read L).RunsTo b bs a none := by
  obtain ⟨b', hread, hconsumes⟩ := read_of_reads h hb
  exact .ok hread hconsumes

theorem RunsTo.map (hm : m.RunsTo b bs a s) (g : β → γ) :
    (m >>= fun a => pure (g a)).RunsTo b bs (g a) s := by
  have hrun := hm.bind (f := fun a => pure (g a)) fun b' _ => runsTo_pure (g a) b'
  rwa [List.append_nil, Option.map_none, Option.or_none] at hrun

end Stream

theorem Outcome.toResult_ofResult {τ ε : Type} (old : τ) (f : ε → τ) (m : Stream ε) (b : Buffer) :
    (Outcome.ofResult old f (m b)).toResult = (m >>= fun a => pure (f a)) b := by
  cases h : m b with
  | ok a b' =>
    rw [bind_of_ok h]
    rfl
  | error fault b' =>
    rw [bind_of_error h]
    rfl

theorem Core.read_runsTo {c : Core} {b : Buffer} {rest : Bytes} (hb : b.unread = c.bytes ++ rest) :
    read.RunsTo b c.bytes c none := by
  obtain ⟨hle, hconsumes⟩ := Buffer.consumes_advance hb
  exact .ok (read_eq_ok_iff.2 hconsumes) hconsumes

namespace Command

variable {α : Type}

/-! ## Filling as a series of reads -/

theorem readComposite_eq (child : Stream (Command α)) (capacity : Nat) :
    readComposite child capacity = (do
      let core ← Core.read
      let count ← Stream.read countLayout
      if capacity < count.toNat then throw (.capacityExceeded capacity)
      else do
        let children ← readMany child count.toNat
        return (core, children)) :=
  rfl

section Filling

variable [Recorded α]

/-- Reads a command of the type of the given one. -/
def readBody (child : Stream (Command α)) : Command α → Stream (Command α)
  | .null _ => do return .null (← Core.read)
  | .leaf _ action => do
    let core ← Core.read
    let action ← Stream.read (Recorded.fields action)
    return .leaf core action
  | .composite _ capacity _ => do
    let p ← readComposite child capacity
    return .composite p.1 capacity p.2

/-- `fill` reads a body.  `toResult` drops what has become of the target where that fails. -/
theorem toResult_fill (child : Stream (Command α)) (target : Command α) (b : Buffer) :
    (target.fill child b).toResult = readBody child target b := by
  cases target with
  | null core => exact Outcome.toResult_ofResult _ _ Core.read b
  | composite core capacity children =>
    exact Outcome.toResult_ofResult _ _ (readComposite child capacity) b
  | leaf core action =>
    rw [fill, readBody]
    cases h : Core.read b with
    | ok core b' =>
      rw [bind_of_ok h]
      exact Outcome.toResult_ofResult _ _ (Stream.read (Recorded.fields action)) b'
    | error fault b' =>
      rw [bind_of_error h]
      rfl

end Filling

/-! ## What comes out -/

mutual

/-- The command with the given capacity in all composites. -/
def fit (capacity : Nat) : Command α → Command α
  | .null core => .null core
  | .leaf core action => .leaf core action
  | .composite core _ children => .composite core capacity (fitAll capacity children)

def fitAll (capacity : Nat) : List (Command α) → List (Command α)
  | [] => []
  | c :: cs => fit capacity c :: fitAll capacity cs

end

theorem fitAll_eq (capacity : Nat) (cs : List (Command α)) :
    fitAll capacity cs = cs.map (fit capacity) := by
  induction cs with
  | nil => rfl
  | cons c cs ih => rw [fitAll, ih, List.map_cons]

/-- Capacities do not count. -/
theorem equals_fit [DecidableEq α] (capacity : Nat) (c : Command α) :
    equals (c.fit capacity) c = true := by
  have equalsAll_map (cs : List (Command α)) (h : ∀ c ∈ cs, equals (c.fit capacity) c = true) :
      equalsAll (cs.map (fit capacity)) cs = true := by
    induction cs with
    | nil => rfl
    | cons c cs ih =>
      rw [List.map_cons, equalsAll, h c List.mem_cons_self,
        ih fun d hd => h d (List.mem_cons_of_mem _ hd)]
      rfl
  induction c using induction_on_children with
  | step c ih =>
    cases c with
    | null core => simp [fit, equals]
    | leaf core action => simp [fit, equals]
    | composite core k children =>
      rw [fit, fitAll_eq, equals, equalsAll_map children ih]
      simp

/-- The fresh command `p` is of the type of `n`.  For leaves that is up to a relation on
actions; for composites it takes the given capacity. -/
inductive SameType (R : α → α → Prop) (capacity : Nat) : Command α → Command α → Prop
  | null {core core' : Core} : SameType R capacity (.null core) (.null core')
  | leaf {core core' : Core} {p a : α} : R p a →
      SameType R capacity (.leaf core p) (.leaf core' a)
  | composite {core core' : Core} {k : Nat} {cs cs' : List (Command α)} :
      SameType R capacity (.composite core capacity cs) (.composite core' k cs')

theorem SameType.mono {R R' : α → α → Prop} {capacity : Nat} {p n : Command α}
    (h : SameType R capacity p n) (hR : ∀ a b, R a b → R' a b) : SameType R' capacity p n := by
  cases h with
  | null => exact .null
  | leaf h => exact .leaf (hR _ _ h)
  | composite => exact .composite

theorem SameType.descriptor_eq [Recorded α] {R : α → α → Prop} {capacity : Nat} {p n : Command α}
    (h : SameType R capacity p n)
    (hR : ∀ p a, R p a → Recorded.descriptor p = Recorded.descriptor a) :
    p.descriptor = n.descriptor := by
  cases h with
  | null => rfl
  | leaf h => exact hR _ _ h
  | composite => rfl

/-- Whether the number of children of each composite can be written. -/
def Countable (c : Command α) : Prop :=
  ∀ n ∈ c.nodes, n.children.length < UInt64.size

theorem Countable.of_mem_children {c d : Command α} (h : c.Countable) (hd : d ∈ c.children) :
    d.Countable :=
  fun n hn => h n (mem_nodes_of_mem_children hd hn)

end Command

/-! ## Where the reader stops -/

namespace Registry

open Command

variable {α : Type} {r : Registry α} {capacity : Nat}

theorem contains_eq (d : Descriptor) : r.contains d = (r.create? d).isSome := by
  rw [contains, create?, Option.isSome_map]

theorem contains_of_create? {d : Descriptor} {p : Command α} (h : r.create? d = some p) :
    r.contains d = true := by
  rw [contains_eq, h]
  rfl

variable [Recorded α]

/-- Why the reader does not get past the head of a node, and how much of it has been read
by then. -/
def refusal? (r : Registry α) (capacity : Nat) (n : Command α) : Option Stop :=
  if r.contains n.descriptor then
    if capacity < n.children.length then some ⟨.capacityExceeded capacity, compositeHeadSize⟩
    else none
  else some ⟨.unknownType n.descriptor.fullName, Descriptor.layout.size⟩

/-- The reader gets past the head of a node: its type is registered, and it has no more
children than composites have room for. -/
structure Passes (r : Registry α) (capacity : Nat) (n : Command α) : Prop where
  known : r.contains n.descriptor = true
  length_le : n.children.length ≤ capacity

theorem Passes.refusal?_eq {n : Command α} (h : r.Passes capacity n) :
    r.refusal? capacity n = none := by
  rw [refusal?, if_pos h.known, if_neg (Nat.not_lt.2 h.length_le)]

/-- The stop of the first node that is refused. -/
def stop? (r : Registry α) (capacity : Nat) : List (Command α) → Option Stop
  | [] => none
  | n :: ns => (r.refusal? capacity n).or ((r.stop? capacity ns).map (.behind n.headSize))

theorem stop?_append (ns ms : List (Command α)) :
    r.stop? capacity (ns ++ ms) =
      (r.stop? capacity ns).or
        ((r.stop? capacity ms).map (.behind (headSizes ns))) := by
  induction ns with
  | nil =>
    rw [List.nil_append, stop?, Option.none_or, headSizes]
    cases r.stop? capacity ms with
    | none => rfl
    | some s => exact congrArg some s.behind_zero.symm
  | cons n ns ih =>
    rw [List.cons_append, stop?, ih, stop?, Option.map_or, Stop.map_behind_map_behind,
      headSizes, Option.or_assoc]

theorem stop?_eq_none {ns : List (Command α)} (h : ∀ n ∈ ns, r.Passes capacity n) :
    r.stop? capacity ns = none := by
  induction ns with
  | nil => rfl
  | cons n ns ih =>
    rw [stop?, (h n List.mem_cons_self).refusal?_eq, ih fun m hm => h m (List.mem_cons_of_mem _ hm)]
    rfl

/-- If all types are known but some node has too many children, that is why the reader stops. -/
theorem exists_stop?_of_lt {ns : List (Command α)}
    (hknown : ∀ n ∈ ns, r.contains n.descriptor = true)
    (h : ∃ n ∈ ns, capacity < n.children.length) :
    ∃ k, r.stop? capacity ns = some ⟨.capacityExceeded capacity, k⟩ := by
  induction ns with
  | nil =>
    obtain ⟨n, hn, -⟩ := h
    exact absurd hn List.not_mem_nil
  | cons m ns ih =>
    rw [stop?, refusal?, if_pos (hknown m List.mem_cons_self)]
    split
    · exact ⟨_, rfl⟩
    · rename_i hm
      obtain ⟨n, hn, hlt⟩ := h
      rcases List.mem_cons.1 hn with rfl | hn
      · exact absurd hlt hm
      · obtain ⟨k, hk⟩ := ih (fun n hn => hknown n (List.mem_cons_of_mem _ hn)) ⟨n, hn, hlt⟩
        rw [Option.none_or, hk]
        exact ⟨_, rfl⟩

theorem readWithin_succ (limit : Nat) :
    r.readWithin (limit + 1) = (do
      let found ← Stream.readDescriptor
      match r.instantiate found with
      | .ok p => readBody (r.readWithin limit) p
      | .error fault => throw fault) := by
  rw [readWithin]
  congr 1
  funext found
  cases r.instantiate found with
  | ok p =>
    funext b
    exact toResult_fill _ p b
  | error fault => rfl

theorem instantiate_of_contains_eq_false {d : Descriptor} (h : r.contains d = false) :
    r.instantiate d = .error (.unknownType d.fullName) := by
  rw [contains_eq, Option.isSome_eq_false_iff, Option.isNone_iff_eq_none] at h
  rw [instantiate, h]

theorem instantiate_of_create? {d : Descriptor} {p : Command α} (h : r.create? d = some p)
    (hp : p.descriptor = d) : r.instantiate d = .ok p := by
  rw [instantiate, h]
  exact if_pos hp

/-- What the registry makes for a node of the command is of the type of the node. -/
def Suits (r : Registry α) (R : α → α → Prop) (capacity : Nat) (t : Command α) : Prop :=
  ∀ n ∈ t.nodes, ∀ p, r.create? n.descriptor = some p → p.SameType R capacity n

/-- The number of bytes of a composite's body in front of its children. -/
def bodyHeadSize : Nat :=
  Core.recordSize + countLayout.size

/-- Where the reader stops behind the number of children. -/
def childrenStop? (r : Registry α) (capacity : Nat) (cs : List (Command α)) : Option Stop :=
  if capacity < cs.length then some ⟨.capacityExceeded capacity, 0⟩
  else r.stop? capacity (cs.flatMap nodes)

/-- Where the reader stops in the body of a node. -/
def bodyStop? (r : Registry α) (capacity : Nat) (n : Command α) : Option Stop :=
  (r.childrenStop? capacity n.children).map (.behind bodyHeadSize)

theorem bodyStop?_of_children_eq_nil {n : Command α} (h : n.children = []) :
    r.bodyStop? capacity n = none := by
  rw [bodyStop?, childrenStop?, h, List.length_nil, if_neg (Nat.not_lt_zero capacity)]
  rfl

theorem stop?_nodes (n : Command α) :
    r.stop? capacity n.nodes =
      if r.contains n.descriptor then
        (r.bodyStop? capacity n).map (.behind Descriptor.layout.size)
      else some ⟨.unknownType n.descriptor.fullName, Descriptor.layout.size⟩ := by
  rw [nodes_eq, stop?, refusal?, bodyStop?, childrenStop?]
  split
  · split
    · rfl
    · rw [Option.none_or, Stop.map_behind_map_behind]
      cases n with
      | null core => rfl
      | leaf core action => rfl
      | composite core k cs => rw [headSize, bodyHeadSize, Nat.add_assoc]
  · rfl

/-! ## Reading -/

section Reading

variable {child : Stream (Command α)} {bound : Nat} {b : Buffer} {rest : Bytes}

/-- Whether an action reads the record of a command up to the stop of its nodes, in buffers
with less than the given number of unread bytes. -/
def ReadsRecord (r : Registry α) (capacity : Nat) (child : Stream (Command α)) (bound : Nat)
    (c : Command α) : Prop :=
  ∀ {b : Buffer} {rest : Bytes}, b.unread = c.bytes ++ rest → b.remaining < bound →
    child.RunsTo b c.bytes (c.fit capacity) (r.stop? capacity c.nodes)

theorem readMany_runsTo {cs : List (Command α)} (hstorable : ∀ c ∈ cs, c.Storable)
    (hchild : ∀ c ∈ cs, r.ReadsRecord capacity child bound c)
    (hb : b.unread = cs.flatMap bytes ++ rest) (hbound : b.remaining < bound) :
    (readMany child cs.length).RunsTo b (cs.flatMap bytes) (cs.map (fit capacity))
      (r.stop? capacity (cs.flatMap nodes)) := by
  induction cs generalizing b with
  | nil => exact Stream.runsTo_pure [] b
  | cons c cs ih =>
    have hc : c.bytes.length = headSizes c.nodes := by
      rw [length_bytes (hstorable c List.mem_cons_self), headSizes_nodes]
    rw [List.flatMap_cons, List.append_assoc] at hb
    rw [List.flatMap_cons, List.flatMap_cons, stop?_append, ← hc]
    refine (hchild c List.mem_cons_self hb hbound).bind fun b₁ h₁ => ?_
    refine Stream.RunsTo.map (ih ?_ ?_ (h₁.unread_eq_of_append hb) ?_) (c.fit capacity :: ·)
    · exact fun d hd => hstorable d (List.mem_cons_of_mem _ hd)
    · exact fun d hd => hchild d (List.mem_cons_of_mem _ hd)
    · have := h₁.remaining_eq
      omega

theorem readComposite_runsTo {core : Core} {cs : List (Command α)}
    (hstorable : ∀ c ∈ cs, c.Storable) (hcount : cs.length < UInt64.size)
    (hchild : ∀ c ∈ cs, r.ReadsRecord capacity child bound c)
    (hb : b.unread = core.bytes ++ (countLayout.bytes (.ofNat cs.length) ++
      (cs.flatMap bytes ++ rest)))
    (hbound : b.remaining < bound + bodyHeadSize) :
    (readComposite child capacity).RunsTo b
      (core.bytes ++ (countLayout.bytes (.ofNat cs.length) ++ cs.flatMap bytes))
      (core, cs.map (fit capacity))
      ((r.childrenStop? capacity cs).map (.behind bodyHeadSize)) := by
  have htoNat : (UInt64.ofNat cs.length).toNat = cs.length :=
    UInt64.toNat_ofNat_of_lt' hcount
  have hcore := core.length_bytes
  have hcountBytes := lawful_countLayout.length_bytes (.ofNat cs.length)
  rw [readComposite_eq, bodyHeadSize, ← Stop.map_behind_map_behind, ← hcore, ← hcountBytes]
  refine (Core.read_runsTo hb).bind fun b₁ h₁ => ?_
  have hb₁ := h₁.unread_eq_of_append hb
  refine (Stream.runsTo_read lawful_countLayout hb₁).bind fun b₂ h₂ => ?_
  have hb₂ := h₂.unread_eq_of_append hb₁
  rw [htoNat, childrenStop?]
  split
  · exact Stream.runsTo_throw _ b₂ _ _
  · refine Stream.RunsTo.map (readMany_runsTo hstorable hchild hb₂ ?_) (core, ·)
    have := h₁.remaining_eq
    have := h₂.remaining_eq
    rw [bodyHeadSize] at hbound
    omega

/-- What was made for a node reads the body of the node. -/
theorem readBody_runsTo {n p : Command α} (hp : p.SameType Recorded.Restores capacity n)
    (hstorable : n.Storable) (hcount : n.children.length < UInt64.size)
    (hchild : ∀ c ∈ n.children, r.ReadsRecord capacity child bound c)
    (hb : b.unread = n.core.bytes ++ (n.fieldBytes ++ (n.children.flatMap bytes ++ rest)))
    (hbound : b.remaining < bound + bodyHeadSize) :
    (readBody child p).RunsTo b (n.core.bytes ++ (n.fieldBytes ++ n.children.flatMap bytes))
      (n.fit capacity) (r.bodyStop? capacity n) := by
  cases hp with
  | @null core core' =>
    have hrun := (Core.read_runsTo hb).map (Command.null (α := α))
    have hbytes : (null core' : Command α).fieldBytes ++
        (null core' : Command α).children.flatMap bytes = [] := rfl
    rw [bodyStop?_of_children_eq_nil rfl, hbytes, List.append_nil]
    exact hrun
  | @leaf core core' p a hp =>
    have hbytes : (leaf core' a).fieldBytes ++ (leaf core' a).children.flatMap bytes =
        (Recorded.fields a).bytes a := List.append_nil _
    have hrun := (Core.read_runsTo hb).bind
      (f := fun core => Stream.read (Recorded.fields p) >>= fun a => pure (leaf core a))
      fun b₁ h₁ => (Stream.runsTo_read_of_reads hp.reads (h₁.unread_eq_of_append hb)).map
        (leaf core')
    rw [bodyStop?_of_children_eq_nil rfl, hbytes]
    exact hrun
  | @composite core core' k cs cs' =>
    have hb' : b.unread = core'.bytes ++ (countLayout.bytes (.ofNat cs'.length) ++
        (cs'.flatMap bytes ++ rest)) := hb
    have hrun := readComposite_runsTo (fun c hc => hstorable.of_mem_children hc) hcount hchild
      hb' hbound
    rw [fit, fitAll_eq]
    exact hrun.map fun p => Command.composite p.1 capacity p.2

end Reading

/-- The command can be written, and what the registry makes for its nodes can read it. -/
structure Legible (r : Registry α) (capacity : Nat) (t : Command α) : Prop where
  storable : t.Storable
  countable : t.Countable
  suits : r.Suits Recorded.Restores capacity t

/-- A command is legible if the registry makes something of the type of each node. -/
theorem legible_of_exists_create? {t : Command α} (hcount : t.Countable)
    (h : ∀ n ∈ t.nodes, ∃ p, r.create? n.descriptor = some p ∧
      p.SameType Recorded.Restores capacity n) : r.Legible capacity t where
  storable := by
    intro n hn a ha
    obtain ⟨p, -, htype⟩ := h n hn
    cases htype with
    | null => cases ha
    | leaf hrestores =>
      cases ha
      exact hrestores.storable
    | composite => cases ha
  countable := hcount
  suits := by
    intro n hn p hp
    obtain ⟨q, hq, htype⟩ := h n hn
    rw [hp] at hq
    cases hq
    exact htype

theorem Legible.of_mem_children {c d : Command α} (h : r.Legible capacity c)
    (hd : d ∈ c.children) : r.Legible capacity d where
  storable := h.storable.of_mem_children hd
  countable := h.countable.of_mem_children hd
  suits n hn := h.suits n (mem_nodes_of_mem_children hd hn)

/-- Reading a written command stops where its nodes do.  Each level of nesting takes the head
of a composite off the buffer, so the bound on the unread bytes goes down with the
allowance. -/
theorem readWithin_runsTo {t : Command α} (ht : r.Legible capacity t) (limit : Nat) :
    r.ReadsRecord capacity (r.readWithin limit) (compositeHeadSize * limit) t := by
  induction t using induction_on_children generalizing limit with
  | step t ih =>
    intro b rest hb hbound
    cases limit with
    | zero => exact absurd hbound (Nat.not_lt_zero _)
    | succ limit =>
      have hd := Descriptor.lawful_layout.length_bytes t.descriptor
      rw [bytes_eq, headBytes] at hb ⊢
      simp only [List.append_assoc] at hb ⊢
      rw [stop?_nodes, readWithin_succ]
      by_cases hknown : r.contains t.descriptor = true
      · obtain ⟨p, hp⟩ := Option.isSome_iff_exists.1 (contains_eq t.descriptor ▸ hknown)
        have htype := ht.suits t t.mem_nodes_self p hp
        rw [if_pos hknown, ← hd]
        refine (Stream.runsTo_read Descriptor.lawful_layout hb).bind fun b₁ h₁ => ?_
        have hbound₁ : b₁.remaining < compositeHeadSize * limit + bodyHeadSize := by
          have hremaining := h₁.remaining_eq
          have hhead : compositeHeadSize = Descriptor.layout.size + bodyHeadSize := rfl
          rw [Nat.mul_succ] at hbound
          omega
        rw [instantiate_of_create? hp (htype.descriptor_eq fun _ _ h => h.descriptor_eq)]
        exact readBody_runsTo htype ht.storable (ht.countable t t.mem_nodes_self)
          (fun c hc => ih c hc (ht.of_mem_children hc) limit) (h₁.unread_eq_of_append hb) hbound₁
      · rw [Bool.not_eq_true] at hknown
        -- nothing is read behind the descriptor
        have hstop : some ⟨.unknownType t.descriptor.fullName, Descriptor.layout.size⟩ =
            Option.or none ((some ⟨.unknownType t.descriptor.fullName, 0⟩).map
              (Stop.behind (Descriptor.layout.bytes t.descriptor).length)) := by
          rw [hd]
          rfl
        rw [hknown, if_neg Bool.false_ne_true, hstop]
        refine (Stream.runsTo_read Descriptor.lawful_layout hb).bind fun b₁ _ => ?_
        rw [instantiate_of_contains_eq_false hknown]
        exact Stream.runsTo_throw _ b₁ _ _

/-- The allowance of nesting is never used up. -/
theorem readCommand_runsTo {t : Command α} (ht : r.Legible capacity t) {b : Buffer}
    {rest : Bytes} (hb : b.unread = t.bytes ++ rest) :
    r.readCommand.RunsTo b t.bytes (t.fit capacity) (r.stop? capacity t.nodes) := by
  have hbound : b.remaining < compositeHeadSize * (b.remaining / compositeHeadSize + 1) :=
    Nat.lt_mul_div_succ _ (by decide)
  exact (readWithin_runsTo ht _ hb hbound).congr rfl

end Registry

end RecordStream
