import RecordStream.Proofs.Command.Nesting

/-!
# What a registry accepts

A command is accepted if it can be written to a buffer and read back from there.  What
decides on that are its nodes: for the name of each the registry has to make something
that has the very descriptor of the node, and room for as many children
(`Registry.Admits`).

That this is enough is what reading of written commands says.  That nothing less will do
(`Registry.admits_of_readCommand`) is shown along the nodes in the order in which they are
read: to come to a node, the reader must have got past those in front of it, and then it has
read just their heads.
-/

namespace RecordStream

namespace Command

variable {α : Type} [Recorded α]

/-- Whatever has the descriptor of a node is of its type, and its record can be read into it. -/
def Identified (t : Command α) : Prop :=
  ∀ n ∈ t.nodes, ∀ p : Command α, p.descriptor = n.descriptor →
    ∃ capacity, p.SameType Recorded.Restores capacity n

theorem Identified.of_mem_children {c d : Command α} (h : c.Identified) (hd : d ∈ c.children) :
    d.Identified :=
  fun n hn => h n (mem_nodes_of_mem_children hd hn)

theorem Identified.storable {t : Command α} (h : t.Identified) : t.Storable := by
  intro n hn a ha
  obtain ⟨k, htype⟩ := h n hn n rfl
  cases htype with
  | null => cases ha
  | leaf hrestores =>
    cases ha
    exact hrestores.storable
  | composite => cases ha

end Command

/-- Commands without counters are identified by their descriptors. -/
theorem Tally.identified {t : Command Tally}
    (ht : ∀ n ∈ t.nodes, ∀ hits, n.action? ≠ some (.counter hits)) : t.Identified := by
  intro n hn p hdescriptor
  refine ⟨p.capacity, sameType_of_fullName_eq (congrArg Descriptor.fullName hdescriptor) ?_ ?_⟩
  · rintro core k cs rfl
    rfl
  · intro a ha q hname
    refine (sameType hname ?_).restores
    rintro hits rfl
    exact ht n hn hits ha

namespace Registry

open Command

variable {α : Type} [Recorded α] {r : Registry α} {t : Command α} {b b' : Buffer} {rest : Bytes}

/-- For each node the registry makes something of its type and version, with room for its
children. -/
def Admits (r : Registry α) (t : Command α) : Prop :=
  ∀ n ∈ t.nodes, ∃ p, r.create? n.descriptor = some p ∧ p.descriptor = n.descriptor ∧
    n.children.length ≤ p.capacity

theorem admits_iff : r.Admits t ↔
    (∃ p, r.create? t.descriptor = some p ∧ p.descriptor = t.descriptor ∧
      t.children.length ≤ p.capacity) ∧ ∀ c ∈ t.children, r.Admits c := by
  constructor
  · intro h
    exact ⟨h t t.mem_nodes_self, fun c hc n hn => h n (mem_nodes_of_mem_children hc hn)⟩
  · rintro ⟨ht, hchildren⟩ n hn
    rw [nodes_eq] at hn
    rcases List.mem_cons.1 hn with rfl | hn
    · exact ht
    · obtain ⟨c, hc, hn⟩ := List.mem_flatMap.1 hn
      exact hchildren c hc n hn

/-- How many children the composites hold that the registry makes. -/
def room (r : Registry α) : Nat :=
  ((r.create? .compositeCommand).map Command.capacity).getD 0

theorem Admits.carries (h : r.Admits t) (hid : t.Identified) (hcount : t.Countable) :
    r.Carries r.room t where
  storable := hid.storable
  countable := hcount
  suits := by
    intro n hn p hp
    obtain ⟨q, hq, hdescriptor, -⟩ := h n hn
    rw [hp] at hq
    cases hq
    obtain ⟨k, htype⟩ := hid n hn p hdescriptor
    cases htype with
    | null => exact .null
    | leaf hrestores => exact .leaf hrestores
    | @composite core core' _ cs cs' =>
      have hroom : r.room = k := by
        change r.create? .compositeCommand = _ at hp
        rw [room, hp]
        rfl
      rw [hroom]
      exact .composite
  passes := by
    intro n hn
    obtain ⟨p, hp, -, hlen⟩ := h n hn
    refine ⟨contains_of_create? hp, ?_⟩
    cases n with
    | null core => exact Nat.zero_le _
    | leaf core action => exact Nat.zero_le _
    | composite core k cs =>
      change r.create? .compositeCommand = _ at hp
      rw [room, hp]
      exact hlen

/-! ## Reading that succeeds -/

/-- The reader gets past the record of the command only if it is admitted. -/
def Vets (r : Registry α) (c : Command α) : Prop :=
  ∀ {b b' : Buffer} {rest : Bytes} {got : Command α}, b.unread = c.bytes ++ rest →
    r.readCommand b = .ok got b' → r.Admits c

theorem admits_of_readsInTurn {cs ds : List (Command α)} (hid : ∀ c ∈ cs, c.Identified)
    (hcount : ∀ c ∈ cs, c.Countable) (hvets : ∀ c ∈ cs, r.Vets c)
    (hb : b.unread = cs.flatMap bytes ++ rest) (hlen : ds.length = cs.length)
    (h : r.ReadsInTurn b ds b') : ∀ c ∈ cs, r.Admits c := by
  induction cs generalizing b ds with
  | nil => exact fun c hc => absurd hc List.not_mem_nil
  | cons c cs ih =>
    cases h with
    | nil => cases hlen
    | @cons _ b₁ _ d ds hd hds =>
      rw [List.flatMap_cons, List.append_assoc] at hb
      have hadmits := hvets c List.mem_cons_self hb hd
      -- an admitted command is read to the end of its record
      obtain ⟨b₂, hread, hconsumes⟩ := (hadmits.carries (hid c List.mem_cons_self)
        (hcount c List.mem_cons_self)).readCommand hb
      rw [hd] at hread
      cases hread
      have hrest := ih (fun c hc => hid c (List.mem_cons_of_mem _ hc))
        (fun c hc => hcount c (List.mem_cons_of_mem _ hc))
        (fun c hc => hvets c (List.mem_cons_of_mem _ hc)) (hconsumes.unread_eq_of_append hb)
        (Nat.succ.inj hlen) hds
      exact List.forall_mem_cons.2 ⟨hadmits, hrest⟩

theorem admits_children_of_readBody {p got : Command α} {capacity : Nat}
    (hp : p.SameType Recorded.Restores capacity t) (hid : t.Identified) (hcount : t.Countable)
    (hvets : ∀ c ∈ t.children, r.Vets c)
    (hb : b.unread = t.core.bytes ++ (t.fieldBytes ++ (t.children.flatMap bytes ++ rest)))
    (h : readBody r.readCommand p b = .ok got b') :
    t.children.length ≤ p.capacity ∧ ∀ c ∈ t.children, r.Admits c := by
  cases hp with
  | null => exact ⟨Nat.zero_le _, fun c hc => absurd hc List.not_mem_nil⟩
  | leaf => exact ⟨Nat.zero_le _, fun c hc => absurd hc List.not_mem_nil⟩
  | @composite core core' _ cs cs' =>
    obtain ⟨⟨core₁, ds⟩, b₁, hread, -⟩ := bind_eq_ok_iff.1 h
    obtain ⟨hle, count, b₂, b₃, hlen, hcore, hcounted, hturn⟩ := readComposite_eq_ok_iff.1 hread
    -- core and count are those that were written
    obtain rfl := Stream.eq_of_unread_eq_append Core.read_eq_ok_iff hb (Core.read_eq_ok_iff.2 hcore)
    have hb₂ := hcore.unread_eq_of_append hb
    obtain rfl := Stream.eq_of_unread_eq_append (Stream.read_eq_ok_iff lawful_countLayout) hb₂
      ((Stream.read_eq_ok_iff lawful_countLayout).2 hcounted)
    have hsame : ds.length = cs'.length := by
      rw [← hlen]
      exact UInt64.toNat_ofNat_of_lt' (hcount _ (mem_nodes_self _))
    exact ⟨hsame ▸ hle, admits_of_readsInTurn (fun c hc => hid.of_mem_children hc)
      (fun c hc => hcount.of_mem_children hc) hvets (hcounted.unread_eq_of_append hb₂) hsame hturn⟩

/-- A written command that is read is admitted. -/
theorem admits_of_readCommand (hid : t.Identified) (hcount : t.Countable) : r.Vets t := by
  induction t using induction_on_children with
  | step t ih =>
    intro b b' rest got hb h
    rw [← readBy_readCommand, readBy] at h
    rw [bytes_eq, headBytes] at hb
    simp only [List.append_assoc] at hb
    obtain ⟨found, b₁, hfound, h⟩ := bind_eq_ok_iff.1 h
    obtain rfl := Stream.eq_of_unread_eq_append Stream.readDescriptor_eq_ok_iff hb hfound
    have hconsumes := Stream.readDescriptor_eq_ok_iff.1 hfound
    cases hmake : r.instantiate t.descriptor with
    | error fault =>
      rw [hmake] at h
      cases h
    | ok p =>
      rw [hmake] at h
      obtain ⟨hp, hdescriptor⟩ := create?_of_instantiate hmake
      obtain ⟨k, htype⟩ := hid t t.mem_nodes_self p hdescriptor
      obtain ⟨hle, hchildren⟩ := admits_children_of_readBody htype hid hcount
        (fun c hc => ih c hc (hid.of_mem_children hc) (hcount.of_mem_children hc))
        (hconsumes.unread_eq_of_append hb) h
      exact admits_iff.2 ⟨⟨p, hp, hdescriptor, hle⟩, hchildren⟩

/-! ## Reading back -/

/-- Writes a command and reads it back. -/
def readBack (r : Registry α) (t : Command α) : Stream (Command α) := do
  t.write
  r.readCommand

/-- Reading back is reading the record of the command. -/
theorem exists_readBack_eq (h : t.Storable) (hb : b.unread = []) :
    ∃ b₁, b₁.unread = t.bytes ++ [] ∧ r.readBack t b = r.readCommand b₁ := by
  obtain ⟨b₁, hwrite, hreceives⟩ := write_receives h b
  refine ⟨b₁, ?_, bind_of_ok hwrite⟩
  rw [hreceives.unread_eq, hb, List.append_nil, List.nil_append]

theorem Carries.readBack {capacity : Nat} (h : r.Carries capacity t) (hb : b.unread = []) :
    ∃ b', r.readBack t b = .ok (t.fit capacity) b' := by
  obtain ⟨b₁, hunread, heq⟩ := exists_readBack_eq h.storable hb
  obtain ⟨b₂, hread, -⟩ := h.readCommand hunread
  exact ⟨b₂, heq.trans hread⟩

/-- A command is not read back if the reader stops at one of its nodes. -/
theorem Legible.readBack_eq_error {capacity : Nat} {s : Stop} (h : r.Legible capacity t)
    (hs : r.stop? capacity t.nodes = some s) (hb : b.unread = []) :
    ∃ b', r.readBack t b = .error s.fault b' := by
  obtain ⟨b₁, hunread, heq⟩ := exists_readBack_eq h.storable hb
  have hrun := readCommand_runsTo h hunread
  rw [hs] at hrun
  cases hrun with
  | error hread => exact ⟨_, heq.trans hread⟩

/-- A command is read back if and only if it is admitted. -/
theorem readBack_eq_ok_iff (hid : t.Identified) (hcount : t.Countable) (hb : b.unread = []) :
    (∃ got b', r.readBack t b = .ok got b') ↔ r.Admits t := by
  constructor
  · rintro ⟨got, b', h⟩
    obtain ⟨b₁, hunread, heq⟩ := exists_readBack_eq hid.storable hb
    exact admits_of_readCommand hid hcount hunread (heq.symm.trans h)
  · intro h
    obtain ⟨b', hread⟩ := (h.carries hid hcount).readBack hb
    exact ⟨_, b', hread⟩

end Registry

end RecordStream
