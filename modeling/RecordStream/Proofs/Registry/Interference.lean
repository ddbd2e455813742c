import RecordStream.Proofs.Command.Nesting
import RecordStream.Proofs.Descriptor

/-!
# Types that get in each other's way

Whatever a registry is asked about a type it looks up under the full name of the type.  So
there are two sorts of answers: nothing is registered under that name (`Registry.Lacks`), or
some entry is, and the registry answers with that (`Registry.Offers`), whatever type it was
registered for.

Hence registering a type changes the answers for the types that share its full name, and for
no others.  Types that are called differently share their full name just if what they are
called overlaps (`Registry.register_interferes_iff`).
-/

namespace RecordStream.Registry

open Command

variable {α : Type} [Recorded α] {r r' : Registry α} {a d : Descriptor} {e : Entry α}
  {p : Command α}

/-- Reading a record stops behind its descriptor, with the fault. -/
def StopsAt (r : Registry α) (d : Descriptor) (fault : Fault) : Prop :=
  ∀ (b : Buffer) (rest : Bytes), b.unread = Descriptor.layout.bytes d ++ rest →
    ∃ b', b.Consumes (Descriptor.layout.bytes d) b' ∧ r.readCommand b = .error fault b'

/-- To the registry the type is not registered. -/
structure Lacks (r : Registry α) (d : Descriptor) : Prop where
  contains_eq : r.contains d = false
  registered?_eq : r.registered? d = none
  create?_eq : r.create? d = none
  register_eq : ∀ p, ∃ r', r.register d p = .ok r'
  stopsAt : r.StopsAt d (.unknownType d.fullName)

/-- To the registry the type is what is registered with the entry. -/
structure Offers (r : Registry α) (e : Entry α) (d : Descriptor) : Prop where
  contains_eq : r.contains d = true
  registered?_eq : r.registered? d = some e.descriptor
  create?_eq : r.create? d = some e.prototype
  register_eq : ∀ p, r.register d p = .error (.duplicateType d.fullName)
  stopsAt : e.prototype.descriptor ≠ d →
    r.StopsAt d (.typeMismatch e.prototype.descriptor.text d.text)

theorem stopsAt_of_instantiate {fault : Fault} (h : r.instantiate d = .error fault) :
    r.StopsAt d fault := by
  intro b rest hb
  obtain ⟨hle, hconsumes⟩ := Buffer.consumes_advance hb
  refine ⟨_, hconsumes, ?_⟩
  rw [← readBy_readCommand, readBy, bind_of_ok (Stream.readDescriptor_eq_ok_iff.2 hconsumes), h]
  rfl

theorem lacks_iff : r.Lacks d ↔ r.lookup? d = none := by
  constructor
  · intro h
    exact Option.map_eq_none_iff.1 h.create?_eq
  · intro h
    have hcontains : r.contains d = false := by
      rw [contains, h]
      rfl
    constructor
    · exact hcontains
    · rw [registered?, h]
      rfl
    · rw [create?, h]
      rfl
    · intro p
      exact ⟨_, if_neg (Bool.eq_false_iff.1 hcontains)⟩
    · exact stopsAt_of_instantiate (instantiate_of_contains_eq_false hcontains)

theorem offers_iff : r.Offers e d ↔ r.lookup? d = some e := by
  constructor
  · intro h
    obtain ⟨e', he', hdescriptor⟩ := Option.map_eq_some_iff.1 h.registered?_eq
    have hprototype := h.create?_eq
    rw [create?, he', Option.map_some, Option.some.injEq] at hprototype
    cases e
    cases hdescriptor
    cases hprototype
    exact he'
  · intro h
    have hcontains : r.contains d = true := by
      rw [contains, h]
      rfl
    have hcreate : r.create? d = some e.prototype := by
      rw [create?, h]
      rfl
    constructor
    · exact hcontains
    · rw [registered?, h]
      rfl
    · exact hcreate
    · intro p
      exact if_pos hcontains
    · intro hne
      refine stopsAt_of_instantiate ?_
      rw [instantiate, hcreate]
      exact if_neg hne

theorem lacks_or_offers (r : Registry α) (d : Descriptor) : r.Lacks d ∨ ∃ e, r.Offers e d := by
  simp only [lacks_iff, offers_iff]
  cases r.lookup? d with
  | none => exact .inl rfl
  | some e => exact .inr ⟨e, rfl⟩

/-- Registering `a` changes what the registry answers for another descriptor `d` if and only if
the two `Overlap`, that is, have the same full name.  A registry that accepts `a` has no entry for
`d` then, and afterwards it offers the entry of `a` for `d`. -/
theorem register_interferes_iff (h : r.register a p = .ok r')
    (hnames : a.space ≠ d.space ∨ a.className ≠ d.className) :
    (r.Lacks d ∨ ∃ e, r.Offers e d) ∧
    (¬(a.Overlaps d ∨ d.Overlaps a) →
      (r'.Lacks d ↔ r.Lacks d) ∧ ∀ e, r'.Offers e d ↔ r.Offers e d) ∧
    (a.Overlaps d ∨ d.Overlaps a → r.Lacks d ∧ r'.Offers ⟨a, p⟩ d) := by
  have hlookup := lookup?_of_register_eq_ok h d
  refine ⟨lacks_or_offers r d, ?_, ?_⟩
  · intro hoverlaps
    have hne : d.fullName ≠ a.fullName := by
      intro hname
      rcases (Descriptor.fullName_eq_iff a d).1 hname.symm with hsame | hoverlaps'
      · exact hnames.elim (absurd hsame.1) (absurd hsame.2)
      · exact hoverlaps hoverlaps'
    rw [if_neg hne] at hlookup
    simp [lacks_iff, offers_iff, hlookup]
  · intro hoverlaps
    have hname : d.fullName = a.fullName :=
      ((Descriptor.fullName_eq_iff a d).2 (.inr hoverlaps)).symm
    rw [if_pos hname] at hlookup
    refine ⟨lacks_iff.2 ?_, offers_iff.2 hlookup⟩
    have hfree := lookup?_eq_none_of_register_eq_ok h
    rwa [lookup?, ← hname] at hfree

/-- The class `b::C` in the namespace `a`. -/
def shortSpace : Descriptor :=
  ⟨⟨"a", by decide, by decide⟩, ⟨"b::C", by decide, by decide⟩, ⟨1, 0, 0⟩⟩

/-- The class `C` in the namespace `a::b`. -/
def longSpace : Descriptor :=
  ⟨⟨"a::b", by decide, by decide⟩, ⟨"C", by decide, by decide⟩, ⟨1, 0, 0⟩⟩

/-- Registering a type makes one known that is called differently, as what they are called
overlaps; types of other names go on to be unknown, or known. -/
theorem register_interferes_iff_sample :
    ∃ r r', withLeaves 3 [Tally.inc] = .ok r ∧
      r.register shortSpace (.leaf (.fresh nullId) .dec) = .ok r' ∧
      shortSpace.space ≠ longSpace.space ∧ r.Lacks longSpace ∧
      r'.Offers ⟨shortSpace, .leaf (.fresh nullId) .dec⟩ longSpace ∧
      r'.Lacks Tally.dec.descriptor ∧ r'.Offers (leafEntry .inc) Tally.inc.descriptor := by
  obtain ⟨r, r', hr, hr', hdec, hinc⟩ : ∃ r r', withLeaves 3 [Tally.inc] = .ok r ∧
      r.register shortSpace (.leaf (.fresh nullId) .dec) = .ok r' ∧
      r.lookup? Tally.dec.descriptor = none ∧
      r.lookup? Tally.inc.descriptor = some (leafEntry .inc) := ⟨_, _, rfl, rfl, rfl, rfl⟩
  have hoverlaps : shortSpace.Overlaps longSpace := .colons "b" rfl rfl
  obtain ⟨-, -, hlong⟩ := register_interferes_iff (d := longSpace) hr' (.inl (by decide))
  obtain ⟨hlacks, hoffers⟩ := hlong (.inl hoverlaps)
  -- there are no colons in the names of the other types
  obtain ⟨-, hother, -⟩ := register_interferes_iff (d := Tally.dec.descriptor) hr' (.inl (by decide))
  obtain ⟨-, hother', -⟩ := register_interferes_iff (d := Tally.inc.descriptor) hr' (.inl (by decide))
  refine ⟨r, r', hr, hr', by decide, hlacks, hoffers, ?_, ?_⟩
  · refine (hother ?_).1.2 (lacks_iff.2 hdec)
    rintro (h | h)
    · exact absurd h.colon_mem.2 (by decide)
    · exact absurd h.colon_mem.1 (by decide)
  · refine ((hother' ?_).2 _).2 (offers_iff.2 hinc)
    rintro (h | h)
    · exact absurd h.colon_mem.2 (by decide)
    · exact absurd h.colon_mem.1 (by decide)

/-- A type is taken for another one that has another namespace and another class name. -/
theorem taken_for_longSpace :
    ∃ (p : Command Tally) (r r' : Registry Tally) (b b' : Buffer),
      p = .leaf (.fresh nullId) .inc ∧ r = withBuiltins 10 ∧ r.register shortSpace p = .ok r' ∧
      shortSpace.space ≠ longSpace.space ∧ shortSpace.className ≠ longSpace.className ∧
      r.contains longSpace = false ∧ r'.contains longSpace = true ∧
      r.create? longSpace = none ∧ r'.create? longSpace = some p ∧
      (∃ r'', r.register longSpace p = .ok r'') ∧
      r'.register longSpace p = .error (.duplicateType "a::b::C") ∧
      r.readCommand b = .error (.unknownType "a::b::C") b' ∧
      r'.readCommand b = .error (.typeMismatch "tests::Inc v1.0.0" "a::b::C v1.0.0") b' := by
  let p : Command Tally := .leaf (.fresh nullId) .inc
  obtain ⟨r', hr'⟩ : ∃ r', (withBuiltins 10).register shortSpace p = .ok r' := ⟨_, rfl⟩
  have hlacks : (withBuiltins 10 : Registry Tally).Lacks longSpace := lacks_iff.2 rfl
  have hoffers : r'.Offers ⟨shortSpace, p⟩ longSpace := by
    rw [offers_iff, lookup?_of_register_eq_ok hr']
    rfl
  have hb : (Buffer.empty.load (Descriptor.layout.bytes longSpace)).unread =
      Descriptor.layout.bytes longSpace ++ [] :=
    (Buffer.written_load _ _).trans (List.append_nil _).symm
  obtain ⟨b₁, hconsumes₁, hread₁⟩ := hlacks.stopsAt _ _ hb
  obtain ⟨b₂, hconsumes₂, hread₂⟩ := hoffers.stopsAt (by decide) _ _ hb
  have hfound : longSpace.text = "a::b::C v1.0.0" := by decide
  have hexpected : p.descriptor.text = "tests::Inc v1.0.0" := by decide
  rw [hconsumes₂.unique hconsumes₁, hfound, show Descriptor.text _ = _ from hexpected] at hread₂
  exact ⟨p, _, r', _, b₁, rfl, rfl, hr', by decide, by decide, hlacks.contains_eq,
    hoffers.contains_eq, hlacks.create?_eq, hoffers.create?_eq, hlacks.register_eq p,
    hoffers.register_eq p, hread₁, hread₂⟩

end RecordStream.Registry
