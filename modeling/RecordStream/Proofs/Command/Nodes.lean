import RecordStream.Command.Writing
import RecordStream.Proofs.Stream

/-!
# Commands as lists of nodes

`c.nodes` lists a command and all that is below it, parents before children and
children in their order.  This is the order in which a record holds them: what a
node adds to the record on its own is its head (descriptor, core, and the stored
fields or the number of children), and the record of a command consists of the
heads of its nodes, one behind the other.

The main statement is `Command.write_receives`: writing a command never fails if
the fields of its leaves can be written, and it adds just these bytes.
-/

namespace RecordStream

namespace Command

variable {α : Type}

/-! ## Nodes -/

mutual

/-- A command and everything below it, parents before children. -/
def nodes : Command α → List (Command α)
  | .null core => [.null core]
  | .leaf core action => [.leaf core action]
  | .composite core capacity children => .composite core capacity children :: nodesAll children

/-- The nodes of some commands, one command after the other. -/
def nodesAll : List (Command α) → List (Command α)
  | [] => []
  | c :: cs => nodes c ++ nodesAll cs

end

theorem nodesAll_eq (cs : List (Command α)) : nodesAll cs = cs.flatMap nodes := by
  induction cs with
  | nil => rfl
  | cons c cs ih => rw [nodesAll, ih, List.flatMap_cons]

theorem nodes_eq (c : Command α) : c.nodes = c :: c.children.flatMap nodes := by
  cases c with
  | null core => rfl
  | leaf core action => rfl
  | composite core capacity children => rw [nodes, nodesAll_eq, Command.children]

theorem mem_nodes_self (c : Command α) : c ∈ c.nodes := by
  rw [nodes_eq]
  exact List.mem_cons_self

theorem mem_nodes_of_mem_children {c d n : Command α} (hd : d ∈ c.children) (hn : n ∈ d.nodes) :
    n ∈ c.nodes := by
  rw [nodes_eq]
  exact List.mem_cons_of_mem _ (List.mem_flatMap.2 ⟨d, hd, hn⟩)

/-- What holds of a command whenever it holds of its children holds of all commands. -/
theorem induction_on_children {P : Command α → Prop}
    (step : ∀ c : Command α, (∀ d ∈ c.children, P d) → P c) (c : Command α) : P c := by
  refine @Command.rec α P (fun cs => ∀ d ∈ cs, P d) ?null ?leaf ?composite ?nil ?cons c
  case null => exact fun core => step _ fun d hd => absurd hd List.not_mem_nil
  case leaf => exact fun core action => step _ fun d hd => absurd hd List.not_mem_nil
  case composite => exact fun core capacity children ih => step _ ih
  case nil => exact fun d hd => absurd hd List.not_mem_nil
  case cons =>
    intro c cs hc hcs d hd
    rcases List.mem_cons.1 hd with rfl | hd
    · exact hc
    · exact hcs d hd

/-- A place in a list that is put together from parts is a place in one of the parts. -/
theorem exists_of_flatMap_eq_append_cons {β γ : Type} {f : β → List γ} {l : List β}
    {before after : List γ} {x : γ} (h : l.flatMap f = before ++ x :: after) :
    ∃ l₁ y l₂ before' after', l = l₁ ++ y :: l₂ ∧ f y = before' ++ x :: after' ∧
      before = l₁.flatMap f ++ before' ∧ after = after' ++ l₂.flatMap f := by
  induction l generalizing before with
  | nil => simp at h
  | cons y l ih =>
    rw [List.flatMap_cons] at h
    rcases List.append_eq_append_iff.1 h with ⟨cs, hbefore, hrest⟩ | ⟨cs, hy, hrest⟩
    · obtain ⟨l₁, z, l₂, before', after', rfl, hz, rfl, rfl⟩ := ih hrest
      exact ⟨y :: l₁, z, l₂, before', after', rfl, hz, by
        rw [hbefore, List.flatMap_cons, List.append_assoc], rfl⟩
    · cases cs with
      | nil =>
        rw [List.append_nil] at hy
        have hrest' : l.flatMap f = [] ++ x :: after := hrest.symm
        obtain ⟨l₁, z, l₂, before', after', rfl, hz, hnil, rfl⟩ := ih hrest'
        have hnil' := List.append_eq_nil_iff.1 hnil.symm
        exact ⟨y :: l₁, z, l₂, before', after', rfl, hz, by
          rw [List.flatMap_cons, hnil'.1, hnil'.2, hy, List.append_nil, List.append_nil], rfl⟩
      | cons z cs =>
        rw [List.cons_append] at hrest
        injection hrest with hx hrest
        subst hx
        exact ⟨[], y, l, before, cs, rfl, hy, rfl, hrest⟩

/-- The nodes of a node stand together, right behind those in front of it. -/
theorem nodes_prefix_of_nodes_eq_append {t n : Command α} {before after : List (Command α)}
    (h : t.nodes = before ++ n :: after) : n.nodes <+: n :: after := by
  induction t using induction_on_children generalizing before after with
  | step t ih =>
    cases before with
    | nil =>
      rw [List.nil_append] at h
      have hn : t = n := by
        rw [nodes_eq] at h
        injection h
      subst hn
      exact ⟨[], (List.append_nil _).trans h⟩
    | cons m before =>
      rw [nodes_eq, List.cons_append] at h
      injection h with _ h
      obtain ⟨l₁, d, l₂, before', after', hchildren, hd, -, rfl⟩ :=
        exists_of_flatMap_eq_append_cons h
      have hmem : d ∈ t.children := by
        rw [hchildren]
        exact List.mem_append_right _ List.mem_cons_self
      exact (ih d hmem hd).trans ⟨l₂.flatMap nodes, rfl⟩

theorem nodes_subset_of_mem_nodes {t n : Command α} (hn : n ∈ t.nodes) : n.nodes ⊆ t.nodes := by
  obtain ⟨before, after, hnodes⟩ := List.append_of_mem hn
  rw [hnodes]
  exact fun m hm => List.mem_append_right _ ((nodes_prefix_of_nodes_eq_append hnodes).subset hm)

end Command

/-! ## Heads -/

namespace Core

theorem lawful_layout : layout.Lawful :=
  ((Layout.lawful_word .native).pair Layout.lawful_bool).imap fun _ _ =>
    ⟨by rintro rfl; rfl, by rintro rfl; rfl⟩

theorem decisive_layout : layout.Decisive :=
  ((Layout.decisive_word .native).pair Layout.decisive_bool).imap

/-- The bytes of a core record. -/
def bytes (c : Core) : Bytes :=
  Descriptor.layout.bytes .command ++ layout.bytes c

@[simp] theorem length_bytes (c : Core) : c.bytes.length = recordSize := by
  rw [bytes, List.length_append, Descriptor.lawful_layout.length_bytes,
    lawful_layout.length_bytes]
  rfl

theorem write_receives (c : Core) (b : Buffer) :
    ∃ b', c.write b = .ok () b' ∧ b.Receives c.bytes b' :=
  Stream.writeRecord_receives (lawful_layout.codes c).writes b

theorem read_eq_ok_iff {c : Core} {b b' : Buffer} : read b = .ok c b' ↔ b.Consumes c.bytes b' :=
  Stream.readRecord_eq_ok_iff lawful_layout

theorem failsWith_read {P : Fault → Buffer → Prop}
    (hshort : ∀ b n, P (.underflow b.readPos n b.remaining) b)
    (hbad : ∀ m b, P (.invalidData m) b)
    (hother : ∀ found b, b.JustRead (Descriptor.layout.bytes found) → found ≠ .command →
      P (.typeMismatch Descriptor.command.text found.text) b) : read.FailsWith P :=
  (Stream.failsWith_verify hshort hbad hother).bind fun _ =>
    Stream.failsWith_read hshort hbad decisive_layout

end Core

/-- Whether what is stored of an action can be written. -/
def Recorded.Storable {α : Type} [Recorded α] (a : α) : Prop :=
  (fields a).Writes a ((fields a).bytes a)

namespace Command

variable {α : Type}

theorem lawful_countLayout : countLayout.Lawful := Layout.lawful_word .native

/-- The action of a leaf. -/
def action? : Command α → Option α
  | .leaf _ action => some action
  | _ => none

variable [Recorded α]

/-- What stands behind the core of a node: the stored fields of a leaf, the number of
children of a composite. -/
def fieldBytes : Command α → Bytes
  | .null _ => []
  | .leaf _ action => (Recorded.fields action).bytes action
  | .composite _ _ children => countLayout.bytes (.ofNat children.length)

/-- What a node adds to a record on its own. -/
def headBytes (c : Command α) : Bytes :=
  Descriptor.layout.bytes c.descriptor ++ c.core.bytes ++ c.fieldBytes

/-- The number of bytes that a node adds to a record on its own. -/
def headSize : Command α → Nat
  | .null _ => Descriptor.layout.size + Core.recordSize
  | .leaf _ action => Descriptor.layout.size + Core.recordSize + (Recorded.fields action).size
  | .composite .. => Descriptor.layout.size + Core.recordSize + countLayout.size

/-- The number of bytes of some heads. -/
def headSizes : List (Command α) → Nat
  | [] => 0
  | n :: ns => n.headSize + headSizes ns

theorem headSizes_append (ns ms : List (Command α)) :
    headSizes (ns ++ ms) = headSizes ns + headSizes ms := by
  induction ns with
  | nil => rw [List.nil_append, headSizes, Nat.zero_add]
  | cons n ns ih => rw [List.cons_append, headSizes, ih, headSizes, Nat.add_assoc]

/-- The bytes of a record: the heads of all nodes. -/
def bytes (c : Command α) : Bytes :=
  c.nodes.flatMap headBytes

/-- Whether the stored fields of all leaves can be written. -/
def Storable (c : Command α) : Prop :=
  ∀ n ∈ c.nodes, ∀ a ∈ n.action?, Recorded.Storable a

theorem bytes_eq (c : Command α) : c.bytes = c.headBytes ++ c.children.flatMap bytes := by
  rw [bytes, nodes_eq, List.flatMap_cons, List.flatMap_assoc]
  rfl

/-- The record of a command begins with its descriptor. -/
theorem decode_take_bytes (c : Command α) (rest : Bytes) :
    Descriptor.layout.decode ((c.bytes ++ rest).take 212) = .ok c.descriptor := by
  have hlength : (Descriptor.layout.bytes c.descriptor).length = 212 :=
    Descriptor.lawful_layout.length_bytes c.descriptor
  rw [bytes_eq, headBytes]
  simp only [List.append_assoc]
  rw [List.take_left' hlength]
  exact (Descriptor.lawful_layout.codes c.descriptor).reads.decode_eq

theorem recordSize_eq (c : Command α) :
    c.recordSize = c.headSize + sizeAll c.children := by
  cases c with
  | null core => rfl
  | leaf core action => exact (Nat.add_assoc _ _ _).symm
  | composite core capacity children =>
    rw [recordSize, bodySize, headSize, Command.children, Nat.add_assoc, Nat.add_assoc,
      Nat.add_assoc]

/-- The size of a record is the sum of those of its heads. -/
theorem headSizes_nodes (c : Command α) : headSizes c.nodes = c.recordSize := by
  have headSizes_flatMap (cs : List (Command α)) (h : ∀ c ∈ cs, headSizes c.nodes = c.recordSize) :
      headSizes (cs.flatMap nodes) = sizeAll cs := by
    induction cs with
    | nil => rw [List.flatMap_nil, headSizes, sizeAll]
    | cons d ds ih =>
      rw [List.flatMap_cons, headSizes_append, h d List.mem_cons_self,
        ih fun c hc => h c (List.mem_cons_of_mem _ hc), sizeAll_cons]
  induction c using induction_on_children with
  | step c ih => rw [nodes_eq, recordSize_eq, headSizes, headSizes_flatMap _ ih]

theorem length_headBytes {c : Command α} (h : ∀ a ∈ c.action?, Recorded.Storable a) :
    c.headBytes.length = c.headSize := by
  have hcore : (Descriptor.layout.bytes c.descriptor ++ c.core.bytes).length =
      Descriptor.layout.size + Core.recordSize := by
    rw [List.length_append, Descriptor.lawful_layout.length_bytes, Core.length_bytes]
  rw [headBytes, List.length_append, hcore]
  cases c with
  | null core => rfl
  | leaf core action => rw [fieldBytes, headSize, (h action rfl).length_eq]
  | composite core capacity children =>
    rw [fieldBytes, headSize, lawful_countLayout.length_bytes]

theorem Storable.of_mem_children {c d : Command α} (h : c.Storable) (hd : d ∈ c.children) :
    d.Storable :=
  fun n hn => h n (mem_nodes_of_mem_children hd hn)

theorem length_flatMap_headBytes {ns : List (Command α)}
    (h : ∀ n ∈ ns, ∀ a ∈ n.action?, Recorded.Storable a) :
    (ns.flatMap headBytes).length = headSizes ns := by
  induction ns with
  | nil => rfl
  | cons n ns ih =>
    rw [List.flatMap_cons, List.length_append, headSizes, length_headBytes (h n List.mem_cons_self),
      ih fun m hm => h m (List.mem_cons_of_mem _ hm)]

theorem length_bytes {c : Command α} (h : c.Storable) : c.bytes.length = c.recordSize := by
  rw [bytes, length_flatMap_headBytes h, headSizes_nodes]

/-- The record of a node stands in that of the whole command, right behind the heads of the
nodes in front of it. -/
theorem exists_bytes_eq_append {t n : Command α} {before after : List (Command α)}
    (hstorable : t.Storable) (h : t.nodes = before ++ n :: after) :
    ∃ pre rest, t.bytes = pre ++ (n.bytes ++ rest) ∧
      pre.length = headSizes before := by
  obtain ⟨tail, htail⟩ := nodes_prefix_of_nodes_eq_append h
  refine ⟨before.flatMap headBytes, tail.flatMap headBytes, ?_, ?_⟩
  · rw [bytes, h, ← htail, List.flatMap_append, List.flatMap_append]
    rfl
  · refine length_flatMap_headBytes fun m hm => hstorable m ?_
    rw [h]
    exact List.mem_append_left _ hm

theorem Storable.of_mem_nodes {t n : Command α} (h : t.Storable) (hn : n ∈ t.nodes) :
    n.Storable :=
  fun m hm => h m (nodes_subset_of_mem_nodes hn hm)

/-! ## Writing -/

theorem writeAll_receives {cs : List (Command α)}
    (h : ∀ c ∈ cs, ∀ b, ∃ b', c.write b = .ok () b' ∧ b.Receives c.bytes b') (b : Buffer) :
    ∃ b', writeAll cs b = .ok () b' ∧ b.Receives (cs.flatMap bytes) b' := by
  induction cs generalizing b with
  | nil => exact ⟨b, by rw [writeAll]; rfl, .refl b⟩
  | cons c cs ih =>
    obtain ⟨b₁, hc, h₁⟩ := h c List.mem_cons_self b
    obtain ⟨b₂, hcs, h₂⟩ := ih (fun d hd => h d (List.mem_cons_of_mem _ hd)) b₁
    exact ⟨b₂, by rw [writeAll_cons, bind_of_ok hc, hcs], h₁.trans h₂⟩

theorem writeBody_receives {c : Command α} (h : ∀ a ∈ c.action?, Recorded.Storable a)
    (hchildren : ∀ b, ∃ b', writeAll c.children b = .ok () b' ∧
      b.Receives (c.children.flatMap bytes) b') (b : Buffer) :
    ∃ b', c.writeBody b = .ok () b' ∧
      b.Receives (c.core.bytes ++ c.fieldBytes ++ c.children.flatMap bytes) b' := by
  obtain ⟨b₁, hcore, h₁⟩ := c.core.write_receives b
  cases c with
  | null core =>
    refine ⟨b₁, by rw [writeBody]; exact hcore, ?_⟩
    simpa [fieldBytes, children] using h₁
  | leaf core action =>
    obtain ⟨b₂, haction, h₂⟩ := Stream.write_receives (h action rfl) b₁
    refine ⟨b₂, ?_, ?_⟩
    · rw [writeBody]
      exact (bind_of_ok hcore).trans haction
    · simpa [fieldBytes, children] using h₁.trans h₂
  | composite core capacity cs =>
    obtain ⟨b₂, hcount, h₂⟩ :=
      Stream.write_receives (lawful_countLayout.codes (.ofNat cs.length)).writes b₁
    obtain ⟨b₃, hcs, h₃⟩ := hchildren b₂
    refine ⟨b₃, ?_, (h₁.trans h₂).trans h₃⟩
    rw [writeBody]
    exact (bind_of_ok hcore).trans ((bind_of_ok hcount).trans hcs)

/-- Writing adds the record behind the written bytes. -/
theorem write_receives {c : Command α} (h : c.Storable) (b : Buffer) :
    ∃ b', c.write b = .ok () b' ∧ b.Receives c.bytes b' := by
  induction c using induction_on_children generalizing b with
  | step c ih =>
    obtain ⟨b₁, hd, h₁⟩ :=
      Stream.write_receives (Descriptor.lawful_layout.codes c.descriptor).writes b
    obtain ⟨b₂, hbody, h₂⟩ := writeBody_receives (h c c.mem_nodes_self)
      (writeAll_receives fun d hd => ih d hd (h.of_mem_children hd)) b₁
    refine ⟨b₂, (bind_of_ok hd).trans hbody, ?_⟩
    rw [bytes_eq, headBytes]
    simpa only [List.append_assoc] using h₁.trans h₂

end Command

end RecordStream
