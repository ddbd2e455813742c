import Mathlib.Algebra.Ring.Nat
import Mathlib.Data.List.Basic
import RecordStream.Proofs.Tally

/-!
# Records field by field

The record of a command is what writing it adds to an empty buffer (`Command.record`).  It
begins with the same four fields for all commands (`Command.opening`), behind which stand
the fields of its type, none for most of them (`Command.OwnFields`), and last the records of
the children, one behind the other.

Hence the sizes of records add up as the records do, and the sizes of the children in front
of a child say where in the record of a composite that child begins.
-/

namespace RecordStream

theorem Core.bytes_layout (c : Core) :
    layout.bytes c = Word.bytes .little c.id ++ [c.ok.toUInt8] := by
  have hcodes : layout.Codes c (Word.bytes .little c.id ++ [c.ok.toUInt8]) := by
    rw [layout]
    refine .imap ?_ rfl
    exact (Layout.codes_word .native c.id).pair (Layout.codes_bool c.ok)
  exact hcodes.bytes_eq

namespace Command

variable {α : Type} [Recorded α] {t c : Command α}

/-- What writing a command adds to an empty buffer. -/
def record (c : Command α) : Bytes :=
  (c.write.final .empty).written

/-- The fields that all records begin with: the descriptor of the type, the descriptor of commands
in general, the id, lowest byte first, and the mark. -/
def opening (c : Command α) : List Bytes :=
  [Descriptor.layout.bytes c.descriptor, Descriptor.layout.bytes .command,
    Word.bytes .little c.id, [c.ok.toUInt8]]

/-- The fields that only records of some types have: the number of a leaf that carries one, and the
number of the children of a composite, both lowest byte first. -/
inductive OwnFields : Command α → Bytes → Prop
  | null {core : Core} : OwnFields (.null core) []
  | plain {core : Core} {a : α} : Recorded.fields a = .nothing a → OwnFields (.leaf core a) []
  | number {core : Core} {make : Int32 → α} {n : Int32} : Recorded.Numbered make →
      OwnFields (.leaf core (make n)) (Word.bytes .little n)
  | composite {core : Core} {k : Nat} {cs : List (Command α)} :
      OwnFields (.composite core k cs) (Word.bytes .little (UInt64.ofNat cs.length))

theorem record_eq_bytes (h : c.Storable) : c.record = c.bytes := by
  obtain ⟨b', hwrite, hreceives⟩ := write_receives h .empty
  rw [record, Stream.final_of_ok hwrite, hreceives.written_eq]
  rfl

theorem length_opening (c : Command α) : c.opening.map List.length = [212, 212, 8, 1] := by
  rw [opening, List.map_cons, List.map_cons, List.map_cons, List.map_cons,
    Descriptor.lawful_layout.length_bytes, Descriptor.lawful_layout.length_bytes,
    Word.length_bytes]
  rfl

theorem length_flatten_opening (c : Command α) : c.opening.flatten.length = 433 := by
  rw [List.length_flatten, length_opening]
  rfl

theorem headBytes_eq (c : Command α) : c.headBytes = c.opening.flatten ++ c.fieldBytes := by
  rw [headBytes, Core.bytes, Core.bytes_layout, opening]
  simp [Command.id, Command.ok]

theorem ownFields_leaf {p a : α} (h : Recorded.SameType p a) (core : Core) :
    OwnFields (.leaf core a) ((Recorded.fields a).bytes a) := by
  cases h with
  | plain h =>
    rw [h, (Layout.codes_nothing p).bytes_eq]
    exact .plain h
  | number h m n =>
    rw [h.bytes_eq]
    exact .number h

theorem ownFields_fieldBytes (h : ∀ a ∈ t.action?, Recorded.SameType a a) :
    t.OwnFields t.fieldBytes := by
  cases t with
  | null core => exact .null
  | leaf core action => exact ownFields_leaf (h action rfl) core
  | composite core k cs =>
    rw [fieldBytes, countLayout, (Layout.codes_word .native _).bytes_eq]
    exact .composite

/-- A record consists of what the command itself has to store and the records of its children. -/
theorem record_eq (h : t.Storable) :
    t.record = t.opening.flatten ++ t.fieldBytes ++ t.children.flatMap record := by
  have hchildren : t.children.flatMap record = t.children.flatMap bytes :=
    List.flatMap_congr fun c hc => record_eq_bytes (h.of_mem_children hc)
  rw [record_eq_bytes h, bytes_eq, headBytes_eq, hchildren]

theorem length_record (h : t.Storable) : t.record.length = t.recordSize := by
  rw [record_eq_bytes h, length_bytes h]

theorem length_flatMap_record {cs : List (Command α)} (h : ∀ c ∈ cs, c.Storable) :
    (cs.flatMap record).length = (cs.map recordSize).sum := by
  rw [List.length_flatMap]
  congr 1
  exact List.map_congr_left fun c hc => length_record (h c hc)

/-- A place in a list is a place in what is put together from its elements. -/
theorem flatMap_eq_append_getElem {β γ : Type} (f : β → List γ) (xs : List β) {k : Nat}
    (hk : k < xs.length) :
    xs.flatMap f = (xs.take k).flatMap f ++ (f xs[k] ++ (xs.drop (k + 1)).flatMap f) := by
  rw [← List.flatMap_cons, ← List.drop_eq_getElem_cons hk, ← List.flatMap_append,
    List.take_append_drop]

/-- What has children stores their number, in eight bytes. -/
theorem length_fieldBytes_of_mem_children (hc : c ∈ t.children) : t.fieldBytes.length = 8 := by
  cases t with
  | null core => cases hc
  | leaf core action => cases hc
  | composite core k cs =>
    rw [fieldBytes, lawful_countLayout.length_bytes]
    rfl

/-- Where the record of a child begins. -/
theorem exists_record_eq_append (h : t.Storable) {k : Nat} (hk : k < t.children.length) :
    ∃ front rest, t.record = front ++ (t.children[k].record ++ rest) ∧
      front.length = 441 + ((t.children.take k).map recordSize).sum := by
  refine ⟨t.opening.flatten ++ t.fieldBytes ++ (t.children.take k).flatMap record,
    (t.children.drop (k + 1)).flatMap record, ?_, ?_⟩
  · rw [record_eq h, flatMap_eq_append_getElem record t.children hk]
    simp only [List.append_assoc]
  · have hfront : ∀ c ∈ t.children.take k, c.Storable := fun c hc =>
      h.of_mem_children (List.mem_of_mem_take hc)
    rw [List.length_append, List.length_append, length_flatten_opening,
      length_fieldBytes_of_mem_children (List.getElem_mem hk), length_flatMap_record hfront]

/-- The layout of a record.  For a command whose leaves store a number or nothing, `write`
succeeds on any buffer and appends `record`, which has `recordSize` bytes: two descriptors, the id
and the mark (`opening`), the fields of the type (`OwnFields`), and then the records of the
children.  The `k`th child begins at 441 plus the record sizes of the children in front of it. -/
theorem write_appends_record (ht : ∀ n ∈ t.nodes, ∀ a ∈ n.action?, Recorded.SameType a a) :
    t.write.Appends t.record ∧ t.record.length = t.recordSize ∧
    t.opening.map List.length = [212, 212, 8, 1] ∧
    (∃ own, t.OwnFields own ∧
      t.record = t.opening.flatten ++ own ++ t.children.flatMap record ∧
      t.recordSize = 433 + own.length + (t.children.map recordSize).sum) ∧
    ∀ k (hk : k < t.children.length), ∃ front rest,
      t.record = front ++ (t.children[k].record ++ rest) ∧
        front.length = 441 + ((t.children.take k).map recordSize).sum := by
  have h : t.Storable := fun n hn a ha => (ht n hn a ha).restores.storable
  refine ⟨fun b => ?_, length_record h, t.length_opening,
    ⟨t.fieldBytes, ownFields_fieldBytes (ht t t.mem_nodes_self), record_eq h, ?_⟩,
    fun k hk => exists_record_eq_append h hk⟩
  · rw [record_eq_bytes h]
    exact write_receives h b
  · rw [← length_record h, record_eq h, List.length_append, List.length_append,
      length_flatten_opening, length_flatMap_record fun c hc => h.of_mem_children hc]

/-- The second child of the sample, a composite of 1311 bytes, begins behind a leaf of 433. -/
theorem write_appends_record_sample :
    (∀ n ∈ Tally.sample.nodes, ∀ a ∈ n.action?, Recorded.SameType a a) ∧
      Tally.sample.write.Appends Tally.sample.record ∧ Tally.sample.record.length = 2618 ∧
      ∃ front rest, Tally.sample.record = front ++ (Tally.sample.children[1].record ++ rest) ∧
        front.length = 874 := by
  have ht : ∀ n ∈ Tally.sample.nodes, ∀ a ∈ n.action?, Recorded.SameType a a :=
    fun _ _ a _ => a.sameType_refl
  obtain ⟨happends, hlength, -, -, hchild⟩ := write_appends_record ht
  exact ⟨ht, happends, hlength, hchild 1 (by decide)⟩

end Command

end RecordStream
