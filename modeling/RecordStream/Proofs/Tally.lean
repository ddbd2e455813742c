import RecordStream.Proofs.Command.Reading
import RecordStream.Proofs.Registry
import RecordStream.Tally

/-!
# Tallies and their names

The names of the types of tallies differ from each other and from those of the null
command and of composites.  Hence a registry of such types makes for every name what
the name stands for, and commands without counters, whose hits are not stored, find
the types of their leaves in it or nothing at all.
-/

namespace RecordStream

namespace Tally

theorem numbered_addN : Recorded.Numbered addN where
  descriptor_eq _ _ := rfl
  fields_eq _ := ⟨_, rfl, fun _ => rfl⟩

/-- The full name of the type of a tally. -/
def fullName : Tally → String
  | .inc => "tests::Inc"
  | .dec => "tests::Dec"
  | .incFail => "tests::IncFail"
  | .undoFail => "tests::UndoFail"
  | .counter _ => "objwire::Counter"
  | .addN _ => "tests::AddN"

theorem fullName_descriptor (t : Tally) : (Recorded.descriptor t).fullName = t.fullName := by
  cases t <;> rfl

/-- Tallies of one name are of one type, counters apart. -/
theorem sameType {p a : Tally} (hname : p.fullName = a.fullName) (ha : ∀ hits, a ≠ .counter hits) :
    Recorded.SameType p a := by
  cases a with
  | counter hits => exact absurd rfl (ha hits)
  | addN n =>
    cases p with
    | addN m => exact .number numbered_addN m n
    | _ => simp [fullName] at hname
  | _ =>
    cases p <;> first
      | exact .plain rfl
      | simp [fullName] at hname

theorem fullName_ne_nullCommand (t : Tally) :
    t.fullName ≠ Descriptor.nullCommand.fullName := by
  have hnull : Descriptor.nullCommand.fullName = "objwire::NullCommand" := rfl
  rw [hnull]
  cases t <;> simp [fullName]

theorem fullName_ne_compositeCommand (t : Tally) :
    t.fullName ≠ Descriptor.compositeCommand.fullName := by
  have hcomposite : Descriptor.compositeCommand.fullName = "objwire::CompositeCommand" := rfl
  rw [hcomposite]
  cases t <;> simp [fullName]

theorem sameType_refl (a : Tally) : Recorded.SameType a a := by
  cases a with
  | addN n => exact .number numbered_addN n n
  | _ => exact .plain rfl

/-- Tallies of one name take each other's records.  The hits of a counter are not stored. -/
theorem takes {p a : Tally} (hname : p.fullName = a.fullName) : Recorded.Takes p a := by
  cases a with
  | counter hits =>
    cases p with
    | counter hits' => exact Recorded.takes_of_plain rfl rfl rfl
    | _ => simp [fullName] at hname
  | _ => exact (sameType hname nofun).restores.takes

/-- Commands of one name are of one sort, up to what becomes of two tallies of one name. -/
theorem sameType_of_fullName_eq {R : Tally → Tally → Prop} {capacity : Nat} {p n : Command Tally}
    (hname : p.descriptor.fullName = n.descriptor.fullName)
    (hcapacity : ∀ core k cs, p = .composite core k cs → k = capacity)
    (hR : ∀ a ∈ n.action?, ∀ q : Tally, q.fullName = a.fullName → R q a) :
    p.SameType R capacity n := by
  cases n with
  | null core =>
    cases p with
    | null core' => exact .null
    | leaf core' q => exact absurd (q.fullName_descriptor.symm.trans hname) q.fullName_ne_nullCommand
    | composite core' k cs =>
      exact absurd hname.symm Registry.fullName_nullCommand_ne_compositeCommand
  | leaf core a =>
    have hname := hname.trans a.fullName_descriptor
    cases p with
    | null core' => exact absurd hname.symm a.fullName_ne_nullCommand
    | leaf core' q => exact .leaf (hR a rfl q (q.fullName_descriptor.symm.trans hname))
    | composite core' k cs => exact absurd hname.symm a.fullName_ne_compositeCommand
  | composite core k cs =>
    cases p with
    | null core' => exact absurd hname Registry.fullName_nullCommand_ne_compositeCommand
    | leaf core' q =>
      exact absurd (q.fullName_descriptor.symm.trans hname) q.fullName_ne_compositeCommand
    | composite core' k' cs' =>
      cases hcapacity core' k' cs' rfl
      exact .composite

/-- A registry of types of tallies makes for each name what the name stands for, up to what
becomes of two tallies of one name. -/
theorem suits_of_fullName {R : Tally → Tally → Prop} {capacity : Nat} {actions : List Tally}
    {r : Registry Tally} (h : Registry.withLeaves capacity actions = .ok r) {t : Command Tally}
    (ht : ∀ n ∈ t.nodes, ∀ a ∈ n.action?, ∀ p : Tally, p.fullName = a.fullName → R p a) :
    r.Suits R capacity t := by
  intro n hn p hp
  obtain ⟨hname, hmade⟩ := (Registry.create?_withLeaves h).1 hp
  refine sameType_of_fullName_eq hname ?_ (ht n hn)
  rintro core k cs rfl
  rcases hmade with hmade | hmade | ⟨action, -, hmade⟩
  · cases hmade
  · cases hmade
    rfl
  · cases hmade

theorem suits_withLeaves {capacity : Nat} {actions : List Tally} {r : Registry Tally}
    (h : Registry.withLeaves capacity actions = .ok r) {t : Command Tally}
    (ht : ∀ n ∈ t.nodes, ∀ hits, n.action? ≠ some (.counter hits)) :
    r.Suits Recorded.SameType capacity t := by
  refine suits_of_fullName h fun n hn a ha p hname => sameType hname ?_
  rintro hits rfl
  exact ht n hn hits ha

/-! ## A sample -/

/-- A composite with another one in it. -/
def sample : Command Tally :=
  .composite ⟨7, true⟩ 3 [
    .leaf ⟨1, false⟩ .inc,
    .composite ⟨2, false⟩ 2 [.leaf ⟨3, true⟩ (.addN 5), .leaf ⟨4, false⟩ .dec],
    .null ⟨5, false⟩]

theorem countable_sample : sample.Countable := by
  unfold Command.Countable
  decide

/-- There are no counters in it. -/
theorem action?_sample : ∀ n ∈ sample.nodes, ∀ hits, n.action? ≠ some (.counter hits) := by
  simp [sample, Command.nodes, Command.nodesAll, Command.action?]

theorem sameType_sample {n : Command Tally} (hn : n ∈ sample.nodes) {a : Tally}
    (ha : a ∈ n.action?) : Recorded.SameType a a := by
  refine sameType rfl ?_
  rintro hits rfl
  exact action?_sample n hn hits ha

theorem storable_sample : sample.Storable :=
  fun _ hn _ ha => (sameType_sample hn ha).restores.storable

end Tally

end RecordStream
