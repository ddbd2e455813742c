import RecordStream.Entity
import RecordStream.Proofs.Command.Equality

/-!
# Equal entities have equal records

Two entities are equal if and only if they are written as the same bytes, and the
record of none starts with that of another one (`Entity.equals_iff_bytes_eq`).  The
descriptor in front of every record says what sort of entity it is of, and what
stands behind it can be read in one way only.
-/

namespace RecordStream

theorem Object.lawful_layout : layout.Lawful :=
  (Layout.lawful_word .native).imap fun _ _ => ⟨by rintro rfl; rfl, by rintro rfl; rfl⟩

theorem Generator.lawful_layout : layout.Lawful :=
  ((Layout.lawful_word .native).pair ((Layout.lawful_word .native).pair
    (Layout.lawful_word .native))).imap fun _ _ =>
      ⟨by rintro rfl; rfl, by rintro rfl; rfl⟩

theorem Reading.lawful_layout : layout.Lawful :=
  ((Layout.lawful_word .native).pair ((Layout.lawful_word .big).pair
    (Layout.lawful_word .native))).imap fun _ _ =>
      ⟨by rintro rfl; rfl, by rintro rfl; rfl⟩

namespace Entity

section Equality

variable {α : Type}

/-- The entity with the given capacity in all composites. -/
def fit (capacity : Nat) : Entity α → Entity α
  | .command c => .command (c.fit capacity)
  | e => e

/-- Entities are equal if they are the same once all composites have one capacity. -/
theorem equals_iff_fit_eq [DecidableEq α] (capacity : Nat) (a b : Entity α) :
    a.equals b = true ↔ a.fit capacity = b.fit capacity := by
  cases a with
  | object o => cases b <;> simp [equals, fit]
  | generator g => cases b <;> simp [equals, fit]
  | reading r => cases b <;> simp [equals, fit]
  | command c =>
    cases b with
    | command d => rw [equals, Command.equals_iff_fit_eq capacity, fit, fit, command.injEq]
    | _ => simp [equals, fit]

theorem equivalence_equals [DecidableEq α] :
    Equivalence fun a b : Entity α => a.equals b = true := by
  simp only [equals_iff_fit_eq 0]
  exact ⟨fun _ => rfl, Eq.symm, Eq.trans⟩

end Equality

/-! ## Records -/

section Records

variable {α : Type} [Recorded α]

/-- The bytes of the record. -/
def bytes : Entity α → Bytes
  | .object o => Descriptor.layout.bytes .object ++ Object.layout.bytes o
  | .generator g => Descriptor.layout.bytes .generator ++ Generator.layout.bytes g
  | .reading r => Descriptor.layout.bytes Reading.descriptor ++ Reading.layout.bytes r
  | .command c => c.bytes

theorem write_appends {e : Entity α} (h : ∀ c, e = .command c → c.Storable) :
    e.write.Appends e.bytes := by
  cases e with
  | object o => exact Stream.writeRecord_receives (Object.lawful_layout.codes o).writes
  | generator g => exact Stream.writeRecord_receives (Generator.lawful_layout.codes g).writes
  | reading r => exact Stream.writeRecord_receives (Reading.lawful_layout.codes r).writes
  | command c => exact Command.write_receives (h c rfl)

theorem descriptor_fit (capacity : Nat) (e : Entity α) :
    (e.fit capacity).descriptor = e.descriptor := by
  cases e with
  | command c => exact c.descriptor_fit capacity
  | _ => rfl

/-- Capacities are not stored. -/
theorem bytes_fit (capacity : Nat) (e : Entity α) : (e.fit capacity).bytes = e.bytes := by
  cases e with
  | command c => exact c.bytes_fit capacity
  | _ => rfl

/-- Every record starts with its descriptor. -/
theorem exists_bytes_eq (e : Entity α) :
    ∃ body, e.bytes = Descriptor.layout.bytes e.descriptor ++ body := by
  cases e with
  | command c =>
    rw [bytes, Command.bytes_eq, Command.headBytes, List.append_assoc, List.append_assoc]
    exact ⟨_, rfl⟩
  | _ => exact ⟨_, rfl⟩

theorem descriptor_eq_of_append_eq {a b : Entity α} {rest rest' : Bytes}
    (h : a.bytes ++ rest = b.bytes ++ rest') : a.descriptor = b.descriptor := by
  obtain ⟨body, ha⟩ := exists_bytes_eq a
  obtain ⟨body', hb⟩ := exists_bytes_eq b
  rw [ha, hb, List.append_assoc, List.append_assoc] at h
  exact (Descriptor.lawful_layout.eq_of_append_eq h).1

end Records

/-! ## Sorts of entities -/

/-- Two entities of one sort. -/
inductive SameSort {α : Type} : Entity α → Entity α → Prop
  | object (o o' : Object) : SameSort (.object o) (.object o')
  | generator (g g' : Generator) : SameSort (.generator g) (.generator g')
  | reading (r r' : Reading) : SameSort (.reading r) (.reading r')
  | command (c c' : Command α) : SameSort (.command c) (.command c')

/-- The descriptors of all entities but commands. -/
def plainDescriptors : List Descriptor :=
  [.object, .generator, Reading.descriptor]

theorem fullName_not_mem_plainDescriptors (t : Tally) :
    t.fullName ∉ plainDescriptors.map Descriptor.fullName := by
  have hnames : plainDescriptors.map Descriptor.fullName =
      ["objwire::Object", "objwire::Generator", "tests::Reading"] := rfl
  rw [hnames]
  cases t <;> simp [Tally.fullName]

theorem descriptor_not_mem_plainDescriptors (c : Command Tally) :
    c.descriptor ∉ plainDescriptors := by
  cases c with
  | null core =>
    change Descriptor.nullCommand ∉ plainDescriptors
    decide
  | leaf core t =>
    intro hmem
    apply fullName_not_mem_plainDescriptors t
    rw [← t.fullName_descriptor]
    exact List.mem_map_of_mem hmem
  | composite core k cs =>
    change Descriptor.compositeCommand ∉ plainDescriptors
    decide

/-- The descriptor tells what sort of entity it is. -/
theorem sameSort_of_descriptor_eq {a b : Entity Tally} (h : a.descriptor = b.descriptor) :
    SameSort a b := by
  obtain ⟨hobject, hgenerator, hreading⟩ : Descriptor.object ∈ plainDescriptors ∧
      Descriptor.generator ∈ plainDescriptors ∧ Reading.descriptor ∈ plainDescriptors := by decide
  obtain ⟨hog, hor, hgr⟩ : Descriptor.object ≠ .generator ∧
      Descriptor.object ≠ Reading.descriptor ∧ Descriptor.generator ≠ Reading.descriptor := by decide
  have hcommand (c : Command Tally) {d : Descriptor} (hd : d ∈ plainDescriptors) :
      c.descriptor ≠ d := by
    rintro rfl
    exact descriptor_not_mem_plainDescriptors c hd
  cases a with
  | object o =>
    cases b with
    | object o' => exact .object o o'
    | generator g => exact absurd h hog
    | reading r => exact absurd h hor
    | command c => exact absurd h.symm (hcommand c hobject)
  | generator g =>
    cases b with
    | object o => exact absurd h.symm hog
    | generator g' => exact .generator g g'
    | reading r => exact absurd h hgr
    | command c => exact absurd h.symm (hcommand c hgenerator)
  | reading r =>
    cases b with
    | object o => exact absurd h.symm hor
    | generator g => exact absurd h.symm hgr
    | reading r' => exact .reading r r'
    | command c => exact absurd h.symm (hcommand c hreading)
  | command c =>
    cases b with
    | object o => exact absurd h (hcommand c hobject)
    | generator g => exact absurd h (hcommand c hgenerator)
    | reading r => exact absurd h (hcommand c hreading)
    | command c' => exact .command c c'

/-! ## Entities that are stored as a whole -/

/-- Nothing of the entity is left out of its record: if it is a command there are no counters,
whose hits are not stored, and the numbers of children can be written. -/
def Stored : Entity Tally → Prop
  | .command c => c.Countable ∧ ∀ n ∈ c.nodes, ∀ hits, n.action? ≠ some (.counter hits)
  | _ => True

/-- There is a registry that carries all such commands. -/
theorem exists_carries :
    ∃ (r : Registry Tally) (capacity : Nat), ∀ c, (command c).Stored → r.Carries capacity c := by
  obtain ⟨r, hr⟩ : ∃ r, Registry.withLeaves (UInt64.size - 1)
      [Tally.inc, .dec, .incFail, .undoFail, .addN 0] = .ok r := ⟨_, rfl⟩
  refine ⟨r, UInt64.size - 1, fun c ⟨hcount, hcounter⟩ => ?_⟩
  refine Registry.carries_withLeaves hr (by decide) ⟨fun n hn => Nat.le_pred_of_lt (hcount n hn), ?_⟩
  intro n hn t ht
  have ht' : ∀ hits, t ≠ .counter hits := by
    rintro hits rfl
    exact hcounter n hn hits ht
  have hsame {p : Tally} (hname : p.fullName = t.fullName) : Recorded.Restores p t :=
    (Tally.sameType hname ht').restores
  cases t with
  | counter hits => exact absurd rfl (ht' hits)
  | addN amount => exact ⟨.addN 0, by simp, hsame rfl⟩
  | inc => exact ⟨.inc, by simp, hsame rfl⟩
  | dec => exact ⟨.dec, by simp, hsame rfl⟩
  | incFail => exact ⟨.incFail, by simp, hsame rfl⟩
  | undoFail => exact ⟨.undoFail, by simp, hsame rfl⟩

/-- Of two entities neither has a record that starts with that of the other one, unless they are
equal. -/
theorem fit_eq_of_append_eq {a b : Entity Tally} (ha : a.Stored) (hb : b.Stored)
    {rest rest' : Bytes} (h : a.bytes ++ rest = b.bytes ++ rest') (capacity : Nat) :
    a.fit capacity = b.fit capacity ∧ rest = rest' := by
  cases sameSort_of_descriptor_eq (descriptor_eq_of_append_eq h) with
  | object o o' =>
    rw [bytes, bytes, List.append_assoc, List.append_assoc] at h
    obtain ⟨rfl, hrest⟩ := Object.lawful_layout.eq_of_append_eq (List.append_cancel_left h)
    exact ⟨rfl, hrest⟩
  | generator g g' =>
    rw [bytes, bytes, List.append_assoc, List.append_assoc] at h
    obtain ⟨rfl, hrest⟩ := Generator.lawful_layout.eq_of_append_eq (List.append_cancel_left h)
    exact ⟨rfl, hrest⟩
  | reading r r' =>
    rw [bytes, bytes, List.append_assoc, List.append_assoc] at h
    obtain ⟨rfl, hrest⟩ := Reading.lawful_layout.eq_of_append_eq (List.append_cancel_left h)
    exact ⟨rfl, hrest⟩
  | command c c' =>
    obtain ⟨r, k, hcarries⟩ := exists_carries
    obtain ⟨hfit, hrest⟩ := (hcarries c ha).fit_eq_of_append_eq (hcarries c' hb) h
    have hequals := (Command.equals_iff_fit_eq k c c').2 hfit
    exact ⟨congrArg command ((Command.equals_iff_fit_eq capacity c c').1 hequals), hrest⟩

theorem write_appends_of_stored {e : Entity Tally} (h : e.Stored) : e.write.Appends e.bytes := by
  refine write_appends ?_
  rintro c rfl
  obtain ⟨r, k, hcarries⟩ := exists_carries
  exact (hcarries c h).storable

/-- `Entity.equals` is equality of written bytes.  It is an equivalence that identifies entities
of one type which differ in nothing but capacities (`fit`), and no written entity is a proper
prefix of another one. -/
theorem equals_iff_bytes_eq :
    (Equivalence fun a b : Entity Tally => a.equals b = true) ∧
    (∀ a b : Entity Tally, a.equals b = true ↔ ∀ capacity, a.fit capacity = b.fit capacity) ∧
    (∀ a b : Entity Tally, a.equals b = true → a.descriptor = b.descriptor) ∧
    ∀ a b : Entity Tally, a.Stored → b.Stored →
      ∃ as bs, a.write.Appends as ∧ b.write.Appends bs ∧
        (a.equals b = true ↔ as = bs) ∧ (as <+: bs → as = bs) := by
  have hfit (a b : Entity Tally) : a.equals b = true ↔ ∀ k, a.fit k = b.fit k :=
    ⟨fun h k => (equals_iff_fit_eq k a b).1 h, fun h => (equals_iff_fit_eq 0 a b).2 (h 0)⟩
  have hbytes {a b : Entity Tally} (h : a.equals b = true) : a.bytes = b.bytes := by
    rw [← bytes_fit 0 a, (hfit a b).1 h 0, bytes_fit]
  refine ⟨equivalence_equals, hfit, fun a b h => ?_, fun a b ha hb => ?_⟩
  · rw [← descriptor_fit 0 a, (hfit a b).1 h 0, descriptor_fit]
  · have hstart : a.bytes <+: b.bytes → a.equals b = true := by
      rintro ⟨rest, hrest⟩
      have hrest : a.bytes ++ rest = b.bytes ++ [] := by rw [hrest, List.append_nil]
      exact (hfit a b).2 fun k => (fit_eq_of_append_eq ha hb hrest k).1
    refine ⟨a.bytes, b.bytes, write_appends_of_stored ha, write_appends_of_stored hb,
      ⟨hbytes, fun h => hstart (h ▸ List.prefix_refl _)⟩, fun h => hbytes (hstart h)⟩

/-- The sample and a copy of it with more room in its composites: the two are equal, and they are
written as the same bytes. -/
theorem equals_iff_bytes_eq_sample :
    (command Tally.sample).Stored ∧ (command (Tally.sample.fit 9)).Stored ∧
      (command Tally.sample).equals (command (Tally.sample.fit 9)) = true ∧
      ∃ bs, (command Tally.sample).write.Appends bs ∧
        (command (Tally.sample.fit 9)).write.Appends bs := by
  have hsample : (command Tally.sample).Stored := ⟨Tally.countable_sample, Tally.action?_sample⟩
  have hfit : (command (Tally.sample.fit 9)).Stored := by
    refine ⟨?_, ?_⟩
    · unfold Command.Countable
      decide
    · simp [Tally.sample, Command.fit, Command.fitAll, Command.nodes, Command.nodesAll,
        Command.action?]
  have hequals : (command Tally.sample).equals (command (Tally.sample.fit 9)) = true := by decide
  obtain ⟨-, -, -, hbytes⟩ := equals_iff_bytes_eq
  obtain ⟨as, bs, has, hbs, heq, -⟩ := hbytes _ _ hsample hfit
  exact ⟨hsample, hfit, hequals, bs, heq.1 hequals ▸ has, hbs⟩

end Entity

end RecordStream
