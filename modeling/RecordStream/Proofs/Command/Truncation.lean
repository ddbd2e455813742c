import RecordStream.Proofs.Command.Nesting

/-!
# Records that are cut short

A record is written and read field by field, and a field is taken off a buffer as a
whole or not at all.  So if only the first bytes of a record are in a buffer, the reader
gets the fields that are complete and stops in front of the first one that is not, with
an underflow that tells how many bytes there are and how many there should be.

`m.Meets b fs` says this of an action that asks for the fields `fs` in turn.  It goes
together with `++`, so for records it follows the command that was written
(`Registry.readWithin_meets`).
-/

namespace RecordStream

/-! ## Fields in turn -/

namespace Stream

variable {β γ : Type} {m : Stream β} {f : β → Stream γ} {b : Buffer} {fs gs : List Bytes}
  {rest : Bytes}

/-- The action asks for these fields one after the other, and either gets them all, or the unread
bytes end within one of them and it stops in front of that. -/
inductive Meets (m : Stream β) (b : Buffer) (fs : List Bytes) : Prop
  | whole {a : β} {b' : Buffer} : m b = .ok a b' → b.Consumes fs.flatten b' → Meets m b fs
  | cut {front back : List Bytes} {field : Bytes} {b' : Buffer} : fs = front ++ field :: back →
      b.Consumes front.flatten b' → b'.remaining < field.length →
      m b = .error (.underflow b'.readPos field.length b'.remaining) b' → Meets m b fs

/-- Fields without bytes are never missing. -/
theorem meets_pure (a : β) (b : Buffer) (h : fs.flatten = []) : (pure a : Stream β).Meets b fs :=
  .whole rfl (h ▸ .refl b)

theorem Meets.bind (hm : m.Meets b fs)
    (hf : ∀ a b', m b = .ok a b' → b.Consumes fs.flatten b' → (f a).Meets b' gs) :
    (m >>= f).Meets b (fs ++ gs) := by
  cases hm with
  | @whole a b₁ hm h₁ =>
    cases hf a b₁ hm h₁ with
    | whole hfa h₂ =>
      refine .whole ((bind_of_ok hm).trans hfa) ?_
      rw [List.flatten_append]
      exact h₁.trans h₂
    | @cut front back field b₂ hgs h₂ hlt hfa =>
      have hsplit : fs ++ gs = (fs ++ front) ++ field :: back := by
        rw [hgs, List.append_assoc]
      refine .cut hsplit ?_ hlt ((bind_of_ok hm).trans hfa)
      rw [List.flatten_append]
      exact h₁.trans h₂
  | @cut front back field b₁ hfs h₁ hlt hm =>
    have hsplit : fs ++ gs = front ++ field :: (back ++ gs) := by
      rw [hfs, List.append_assoc, List.cons_append]
    exact .cut hsplit h₁ hlt (bind_of_error hm)

theorem Meets.map (hm : m.Meets b fs) (g : β → γ) : (m >>= fun a => pure (g a)).Meets b fs := by
  rw [← List.append_nil fs]
  exact hm.bind fun a b' _ _ => meets_pure (g a) b' rfl

theorem meets_read {L : Layout β} {bs : Bytes} {a : β} (h : L.Reads bs a)
    (hb : b.unread <+: bs ++ rest) : (read L).Meets b [bs] := by
  have hlen := h.length_eq
  by_cases hle : bs.length ≤ b.remaining
  · obtain ⟨later, hlater⟩ : bs <+: b.unread := by
      refine List.prefix_of_prefix_length_le (List.prefix_append bs rest) hb ?_
      rwa [Buffer.length_unread]
    obtain ⟨b', hread, hconsumes⟩ := read_of_reads h hlater.symm
    exact .whole hread (List.flatten_singleton.symm ▸ hconsumes)
  · have hlt : b.remaining < bs.length := Nat.lt_of_not_le hle
    have hread : read L b = .error (.underflow b.readPos bs.length b.remaining) b := by
      rw [hlen] at hlt ⊢
      exact read_of_lt hlt
    exact .cut (List.nil_append [bs]).symm (.refl b) hlt hread

theorem meets_verify {d : Descriptor} (hb : b.unread <+: Descriptor.layout.bytes d ++ rest) :
    (verify d).Meets b [Descriptor.layout.bytes d] := by
  have hread := meets_read (Descriptor.lawful_layout.codes d).reads hb
  rw [← List.append_nil [Descriptor.layout.bytes d]]
  refine hread.bind fun found b₁ hfound h₁ => ?_
  rw [List.flatten_singleton] at h₁
  rw [if_pos (eq_of_read_eq_ok Descriptor.lawful_layout hfound h₁)]
  exact meets_pure () b₁ rfl

theorem meets_readRecord {d : Descriptor} {L : Layout β} {bs : Bytes} {a : β} (h : L.Reads bs a)
    (hb : b.unread <+: Descriptor.layout.bytes d ++ (bs ++ rest)) :
    (readRecord d L).Meets b ([Descriptor.layout.bytes d] ++ [bs]) := by
  refine (meets_verify hb).bind fun _ b₁ _ h₁ => ?_
  rw [List.flatten_singleton] at h₁
  exact meets_read h (h₁.unread_prefix_of_append hb)

end Stream

/-! ## The fields of records -/

/-- The fields of a core record: its descriptor and the core. -/
def Core.fields (c : Core) : List Bytes :=
  [Descriptor.layout.bytes .command] ++ [layout.bytes c]

theorem Core.flatten_fields (c : Core) : c.fields.flatten = c.bytes := by
  rw [fields, List.flatten_append, List.flatten_singleton, List.flatten_singleton, bytes]

theorem Core.meets_read {c : Core} {b : Buffer} {rest : Bytes}
    (hb : b.unread <+: c.bytes ++ rest) : read.Meets b c.fields := by
  rw [bytes, List.append_assoc] at hb
  exact Stream.meets_readRecord (lawful_layout.codes c).reads hb

namespace Command

variable {α : Type} [Recorded α]

/-- The fields of a node: its descriptor, those of its core, and what stands behind these, which
may have no bytes. -/
def headFields (n : Command α) : List Bytes :=
  [Descriptor.layout.bytes n.descriptor] ++ (n.core.fields ++ [n.fieldBytes])

/-- The fields of a record, in the order in which they are written. -/
def fields (c : Command α) : List Bytes :=
  c.nodes.flatMap headFields

theorem fields_eq (c : Command α) :
    c.fields = [Descriptor.layout.bytes c.descriptor] ++
      (c.core.fields ++ ([c.fieldBytes] ++ c.children.flatMap fields)) := by
  rw [fields, nodes_eq, List.flatMap_cons, List.flatMap_assoc, headFields]
  simp only [List.append_assoc]
  rfl

theorem flatten_fields (c : Command α) : c.fields.flatten = c.bytes := by
  have hhead (n : Command α) : n.headFields.flatten = n.headBytes := by
    rw [headFields, List.flatten_append, List.flatten_append, Core.flatten_fields,
      List.flatten_singleton, List.flatten_singleton, headBytes, List.append_assoc]
  rw [fields, ← List.flatMap_id, List.flatMap_assoc, bytes]
  congr 1
  funext n
  rw [List.flatMap_id, hhead]

end Command

/-! ## Reading -/

namespace Registry

open Command

variable {α : Type} [Recorded α] {r : Registry α} {capacity bound : Nat} {b : Buffer} {rest : Bytes}
  {child : Stream (Command α)} {t : Command α}

/-- The registry makes something for every node of the command that takes the record of the node,
and none of the nodes has more children than there is room for. -/
structure Accepts (r : Registry α) (capacity : Nat) (t : Command α) : Prop where
  suits : r.Suits Recorded.Takes capacity t
  passes : ∀ n ∈ t.nodes, r.Passes capacity n

theorem Accepts.of_mem_children {d : Command α} (h : r.Accepts capacity t) (hd : d ∈ t.children) :
    r.Accepts capacity d where
  suits n hn := h.suits n (mem_nodes_of_mem_children hd hn)
  passes n hn := h.passes n (mem_nodes_of_mem_children hd hn)

theorem Accepts.exists_create? {n : Command α} (h : r.Accepts capacity t) (hn : n ∈ t.nodes) :
    ∃ p, r.create? n.descriptor = some p ∧ p.SameType Recorded.Takes capacity n := by
  have hknown := (h.passes n hn).known
  rw [contains_eq] at hknown
  obtain ⟨p, hp⟩ := Option.isSome_iff_exists.1 hknown
  exact ⟨p, hp, h.suits n hn p hp⟩

theorem Accepts.storable (h : r.Accepts capacity t) : t.Storable := by
  intro n hn a ha
  obtain ⟨p, -, htype⟩ := h.exists_create? hn
  cases htype with
  | null => cases ha
  | leaf htakes =>
    cases ha
    exact htakes.storable
  | composite => cases ha

/-- Whether an action asks for the fields of a command, in buffers with less than the given number
of unread bytes that begin like its record. -/
def AsksFor (child : Stream (Command α)) (bound : Nat) (c : Command α) : Prop :=
  ∀ {b : Buffer} {rest : Bytes}, b.unread <+: c.bytes ++ rest → b.remaining < bound →
    child.Meets b c.fields

theorem readMany_meets {cs : List (Command α)} (hchild : ∀ c ∈ cs, AsksFor child bound c)
    (hb : b.unread <+: cs.flatMap bytes ++ rest) (hbound : b.remaining < bound) :
    (readMany child cs.length).Meets b (cs.flatMap fields) := by
  induction cs generalizing b with
  | nil => exact Stream.meets_pure [] b rfl
  | cons c cs ih =>
    rw [List.flatMap_cons, List.append_assoc] at hb
    rw [List.flatMap_cons]
    refine (hchild c List.mem_cons_self hb hbound).bind fun c' b₁ _ h₁ => ?_
    rw [flatten_fields] at h₁
    have hremaining := h₁.remaining_eq
    exact (ih (fun d hd => hchild d (List.mem_cons_of_mem _ hd))
      (h₁.unread_prefix_of_append hb) (by omega)).map (c' :: ·)

theorem readComposite_meets {core : Core} {cs : List (Command α)}
    (hcapacity : capacity < UInt64.size) (hlen : cs.length ≤ capacity)
    (hchild : ∀ c ∈ cs, AsksFor child bound c)
    (hb : b.unread <+: core.bytes ++ (countLayout.bytes (.ofNat cs.length) ++
      (cs.flatMap bytes ++ rest)))
    (hbound : b.remaining < bound + bodyHeadSize) :
    (readComposite child capacity).Meets b
      (core.fields ++ ([countLayout.bytes (.ofNat cs.length)] ++ cs.flatMap fields)) := by
  rw [readComposite_eq]
  refine (Core.meets_read hb).bind fun core' b₁ _ h₁ => ?_
  rw [Core.flatten_fields] at h₁
  have hb₁ := h₁.unread_prefix_of_append hb
  refine (Stream.meets_read (lawful_countLayout.codes _).reads hb₁).bind fun count b₂ hcount h₂ => ?_
  rw [List.flatten_singleton] at h₂
  -- the number that is read is the number of children
  have hread : count.toNat = cs.length := by
    rw [Stream.eq_of_read_eq_ok lawful_countLayout hcount h₂]
    exact UInt64.toNat_ofNat_of_lt' (Nat.lt_of_le_of_lt hlen hcapacity)
  rw [hread, if_neg (Nat.not_lt.2 hlen)]
  have hremaining₁ := h₁.remaining_eq
  have hremaining₂ := h₂.remaining_eq
  rw [Core.length_bytes] at hremaining₁
  rw [lawful_countLayout.length_bytes] at hremaining₂
  rw [bodyHeadSize] at hbound
  exact (readMany_meets hchild (h₂.unread_prefix_of_append hb₁) (by omega)).map (core', ·)

/-- What was made for a node asks for the fields behind its descriptor. -/
theorem readBody_meets {n p : Command α} (hp : p.SameType Recorded.Takes capacity n)
    (hcapacity : capacity < UInt64.size) (hlen : n.children.length ≤ capacity)
    (hchild : ∀ c ∈ n.children, AsksFor child bound c)
    (hb : b.unread <+: n.core.bytes ++ (n.fieldBytes ++ (n.children.flatMap bytes ++ rest)))
    (hbound : b.remaining < bound + bodyHeadSize) :
    (readBody child p).Meets b
      (n.core.fields ++ ([n.fieldBytes] ++ n.children.flatMap fields)) := by
  cases hp with
  | null => exact (Core.meets_read hb).bind fun core b₁ _ _ => Stream.meets_pure _ b₁ rfl
  | @leaf core core' p a htakes =>
    obtain ⟨a', hreads⟩ := htakes.exists_reads
    refine (Core.meets_read hb).bind fun core b₁ _ h₁ => ?_
    rw [Core.flatten_fields] at h₁
    exact (Stream.meets_read hreads (h₁.unread_prefix_of_append hb)).map (leaf core ·)
  | composite =>
    exact (readComposite_meets hcapacity hlen hchild hb hbound).map
      fun p => Command.composite p.1 capacity p.2

/-- A record is asked for field by field.  Each level of nesting takes the head of a composite off
the buffer, so the bound on the unread bytes goes down with the allowance. -/
theorem readWithin_meets (ht : r.Accepts capacity t) (hcapacity : capacity < UInt64.size)
    (limit : Nat) : AsksFor (r.readWithin limit) (compositeHeadSize * limit) t := by
  induction t using induction_on_children generalizing limit with
  | step t ih =>
    intro b rest hb hbound
    cases limit with
    | zero => exact absurd hbound (Nat.not_lt_zero _)
    | succ limit =>
      rw [bytes_eq, headBytes] at hb
      simp only [List.append_assoc] at hb
      obtain ⟨p, hp, htype⟩ := ht.exists_create? t.mem_nodes_self
      rw [fields_eq, readWithin_succ]
      have hread := Stream.meets_read (Descriptor.lawful_layout.codes t.descriptor).reads hb
      refine hread.bind fun found b₁ hfound h₁ => ?_
      rw [List.flatten_singleton] at h₁
      rw [Stream.eq_of_read_eq_ok Descriptor.lawful_layout hfound h₁,
        instantiate_of_create? hp (htype.descriptor_eq fun _ _ h => h.descriptor_eq)]
      have hbound₁ : b₁.remaining < compositeHeadSize * limit + bodyHeadSize := by
        have hremaining := h₁.remaining_eq
        have hhead : compositeHeadSize = Descriptor.layout.size + bodyHeadSize := rfl
        rw [Descriptor.lawful_layout.length_bytes] at hremaining
        rw [Nat.mul_succ] at hbound
        omega
      exact readBody_meets htype hcapacity (ht.passes t t.mem_nodes_self).length_le
        (fun c hc => ih c hc (ht.of_mem_children hc) limit) (h₁.unread_prefix_of_append hb) hbound₁

/-- A truncated record is an `underflow`.  Cut the `fields` of a command that the registry
`Accepts` anywhere, within a field or between two.  Then `readCommand` stops in front of the first
`field` that is not complete, having consumed all of those in `front`, requests as many bytes as
`field` has, and finds those that are left of it.

The capacity is one that composites can be made with (`capacityLimit`). -/
theorem readCommand_of_truncated (hcapacity : capacity < capacityLimit) (ht : r.Accepts capacity t) :
    t.write.Appends t.fields.flatten ∧
    ∀ b : Buffer, b.unread <+: t.fields.flatten → b.unread ≠ t.fields.flatten →
      ∃ front field back b', t.fields = front ++ field :: back ∧
        front.flatten <+: b.unread ∧ b.unread.length < front.flatten.length + field.length ∧
        r.readCommand b = .error (.underflow b'.readPos field.length
          (b.unread.length - front.flatten.length)) b' ∧
        b'.readPos = b.readPos + front.flatten.length ∧ b'.written = b.written := by
  refine ⟨flatten_fields t ▸ write_receives ht.storable, fun b hb hne => ?_⟩
  have hb' : b.unread <+: t.bytes ++ [] := by
    rwa [List.append_nil, ← flatten_fields]
  cases readWithin_meets ht (lt_size_of_lt_capacityLimit hcapacity) _ hb' (remaining_lt_mul b) with
  | whole _ hconsumes =>
    have hle : t.fields.flatten.length ≤ b.unread.length := by
      rw [hconsumes.unread_eq, List.length_append]
      exact Nat.le_add_right _ _
    exact absurd (hb.eq_of_length_le hle) hne
  | @cut front back field b' hfields hconsumes hlt hread =>
    have hlength : b.unread.length = front.flatten.length + b'.remaining := by
      rw [Buffer.length_unread, hconsumes.remaining_eq]
    refine ⟨front, field, back, b', hfields, ⟨_, hconsumes.unread_eq.symm⟩, by omega, ?_,
      hconsumes.readPos_eq, hconsumes.written_eq⟩
    rw [hlength, Nat.add_sub_cancel_left]
    exact hread

/-- Of the first 300 bytes of the sample, 88 are left for the descriptor of its core. -/
theorem readCommand_of_truncated_sample :
    3 < capacityLimit ∧ ∃ r b b', withLeaves 3 [Tally.inc, .addN 0, .dec] = .ok r ∧
      Tally.sample.write.Appends Tally.sample.fields.flatten ∧
      b.unread = Tally.sample.fields.flatten.take 300 ∧
      r.readCommand b = .error (.underflow 212 212 88) b' := by
  have hcapacity : 3 < capacityLimit := by decide
  obtain ⟨r, hr⟩ : ∃ r, withLeaves 3 [Tally.inc, .addN 0, .dec] = .ok r := ⟨_, rfl⟩
  have haccepts : r.Accepts 3 Tally.sample :=
    ⟨Tally.suits_of_fullName hr fun _ _ _ _ _ => Tally.takes, (carries_sample hr).passes⟩
  have hsize : Tally.sample.fields.flatten.length = 2618 := by
    rw [flatten_fields, length_bytes haccepts.storable]
    rfl
  obtain ⟨b, hunread, hstart⟩ :
      ∃ b : Buffer, b.unread = Tally.sample.fields.flatten.take 300 ∧ b.readPos = 0 :=
    ⟨_, (Buffer.receives_append .empty _).unread_eq_of_empty, rfl⟩
  have hlength : b.unread.length = 300 := by
    rw [hunread, List.length_take_of_le (by omega)]
  obtain ⟨happends, hcut⟩ := readCommand_of_truncated hcapacity haccepts
  obtain ⟨front, field, back, b', hfields, hfront, hlt, hread, hpos, -⟩ :=
    hcut b (hunread ▸ List.take_prefix _ _) fun h => by
      rw [h, hsize] at hlength
      exact absurd hlength (by decide)
  have hle := hfront.length_le
  rw [hlength] at hle hlt hread
  have hdescriptor (d : Descriptor) : (Descriptor.layout.bytes d).length = 212 :=
    Descriptor.lawful_layout.length_bytes d
  -- the first two fields of the record are descriptors, and the bytes end in the second one
  rw [fields_eq, Core.fields] at hfields
  rcases front with _ | ⟨first, _ | ⟨second, front⟩⟩
  · injection hfields with hfield
    rw [← hfield, hdescriptor] at hlt
    exact absurd hlt (by decide)
  · injection hfields with hfirst hfields
    injection hfields with hfield
    have hsum : [first].flatten.length = 212 := by
      rw [List.flatten_singleton, ← hfirst, hdescriptor]
    rw [hpos, hstart, hsum, ← hfield, hdescriptor] at hread
    exact ⟨hcapacity, r, b, b', hr, happends, hunread, hread⟩
  · injection hfields with hfirst hfields
    injection hfields with hsecond
    rw [List.flatten_cons, List.flatten_cons, List.length_append, List.length_append, ← hfirst,
      ← hsecond, hdescriptor, hdescriptor] at hle
    omega

end Registry

end RecordStream
