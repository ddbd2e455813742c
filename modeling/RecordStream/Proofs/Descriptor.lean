import RecordStream.Descriptor

/-!
# Full names

A full name is a namespace, two colons and a class name, and names may have colons
themselves.  So a full name does not always tell where the namespace ends:
`Descriptor.fullName_eq_iff` says which descriptors have one full name.  Either they have
namespace and class name in common, or the colons behind the namespace of one of them are
found in the class name of the other one, and the reverse (`Descriptor.Overlaps`).
-/

namespace RecordStream

theorem Name.text_inj {m n : Name} : m.text = n.text ↔ m = n := by
  rw [Name.mk.injEq]

namespace Descriptor

variable {a b : Descriptor}

/-- The descriptors have namespace and class name in common. -/
def SameNames (a b : Descriptor) : Prop :=
  a.space = b.space ∧ a.className = b.className

/-- Both have one full name, of which `b` has the longer namespace: it goes on behind that of `a`
with two colons and more, or with one colon. -/
inductive Overlaps (a b : Descriptor) : Prop
  | colons (middle : String) : b.space.text = a.space.text ++ "::" ++ middle →
      a.className.text = middle ++ "::" ++ b.className.text → Overlaps a b
  | colon : b.space.text = a.space.text ++ ":" → a.className.text = ":" ++ b.className.text →
      Overlaps a b

theorem Overlaps.colon_mem (h : a.Overlaps b) :
    ':' ∈ a.className.text.toList ∧ ':' ∈ b.space.text.toList := by
  cases h with
  | colons middle hspace hname => simp [hspace, hname]
  | colon hspace hname => simp [hspace, hname]

theorem toList_fullName (d : Descriptor) :
    d.fullName.toList = d.space.text.toList ++ ':' :: ':' :: d.className.text.toList := by
  change (toString d.space.text ++ toString "::" ++ toString d.className.text).toList = _
  simp only [toString, String.toList_append, List.append_assoc]
  rfl

/-- If the full names are one text, in which the second descriptor has a namespace that is longer
by the given characters. -/
theorem sameNames_or_overlaps_of_append {cs : List Char}
    (hspace : b.space.text.toList = a.space.text.toList ++ cs)
    (hname : ':' :: ':' :: a.className.text.toList = cs ++ ':' :: ':' :: b.className.text.toList) :
    a.SameNames b ∨ a.Overlaps b := by
  rcases cs with _ | ⟨c, _ | ⟨c', cs⟩⟩
  · left
    rw [List.append_nil, String.toList_inj] at hspace
    simp only [List.nil_append, List.cons.injEq, true_and, String.toList_inj] at hname
    exact ⟨Name.text_inj.1 hspace.symm, Name.text_inj.1 hname⟩
  · right
    simp only [List.cons_append, List.nil_append, List.cons.injEq, true_and] at hname
    obtain ⟨rfl, hname⟩ := hname
    refine .colon (String.toList_inj.1 ?_) (String.toList_inj.1 ?_)
    · simp [hspace]
    · simp [hname]
  · right
    simp only [List.cons_append, List.cons.injEq] at hname
    obtain ⟨rfl, rfl, hname⟩ := hname
    refine .colons (String.ofList cs) (String.toList_inj.1 ?_) (String.toList_inj.1 ?_)
    · simp [hspace]
    · simp [hname]

theorem Overlaps.fullName_eq (h : a.Overlaps b) : a.fullName = b.fullName := by
  rw [← String.toList_inj, toList_fullName, toList_fullName]
  cases h with
  | colons middle hspace hname => simp [hspace, hname]
  | colon hspace hname => simp [hspace, hname]

theorem SameNames.fullName_eq (h : a.SameNames b) : a.fullName = b.fullName := by
  rw [fullName, fullName, h.1, h.2]

/-- Which descriptors have one full name. -/
theorem fullName_eq_iff (a b : Descriptor) :
    a.fullName = b.fullName ↔ a.SameNames b ∨ a.Overlaps b ∨ b.Overlaps a := by
  constructor
  · intro h
    rw [← String.toList_inj, toList_fullName, toList_fullName, List.append_eq_append_iff] at h
    rcases h with ⟨cs, hspace, hname⟩ | ⟨cs, hspace, hname⟩
    · rcases sameNames_or_overlaps_of_append hspace hname with hsame | hoverlaps
      · exact .inl hsame
      · exact .inr (.inl hoverlaps)
    · rcases sameNames_or_overlaps_of_append hspace hname with hsame | hoverlaps
      · exact .inl ⟨hsame.1.symm, hsame.2.symm⟩
      · exact .inr (.inr hoverlaps)
  · rintro (h | h | h)
    · exact h.fullName_eq
    · exact h.fullName_eq
    · exact h.fullName_eq.symm

end Descriptor

end RecordStream
