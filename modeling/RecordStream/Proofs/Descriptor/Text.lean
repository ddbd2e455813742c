import Mathlib
import RecordStream.Proofs.Descriptor

/-!
# Texts of descriptors

The text of a descriptor is its full name and its version, with a blank and a letter in
between, and names may have all of that themselves.  A text is taken apart from the right: a
version has no blank, so it stands behind the last blank of the text, and the three decimals
that it is written as have no point (`Version.text_inj`, `Descriptor.text_eq_iff`).

So two descriptors have one text just when they have one version and one full name, which
takes a colon in a class name if they are not the same (`Descriptor.Plain.text_eq_iff`).
-/

namespace RecordStream

/-- A longer first part has the separator in it, and so has the other last part. -/
theorem eq_nil_of_cons_eq_append {α : Type} {c : α} {cs ys ys' : List α} (hys : c ∉ ys)
    (h : c :: ys = cs ++ c :: ys') : cs = [] := by
  cases cs with
  | nil => rfl
  | cons d cs =>
    injection h with _ h
    exact absurd (h ▸ List.mem_append_right cs List.mem_cons_self) hys

/-- Lists are taken apart at the last separator in one way. -/
theorem eq_of_append_cons_eq {α : Type} {c : α} {xs xs' ys ys' : List α} (hys : c ∉ ys)
    (hys' : c ∉ ys') (h : xs ++ c :: ys = xs' ++ c :: ys') : xs = xs' ∧ ys = ys' := by
  obtain ⟨cs, rfl, hcs⟩ | ⟨cs, rfl, hcs⟩ := List.append_eq_append_iff.1 h
  · obtain rfl := eq_nil_of_cons_eq_append hys hcs
    injection hcs with _ hcs
    exact ⟨(List.append_nil _).symm, hcs⟩
  · obtain rfl := eq_nil_of_cons_eq_append hys' hcs
    injection hcs with _ hcs
    exact ⟨List.append_nil _, hcs.symm⟩

namespace Version

/-- Decimals consist of digits and signs. -/
theorem notMem_repr {c : Char} (hdigit : c.isDigit = false) (hsign : c ≠ '-') (n : Int) :
    c ∉ n.repr.toList := by
  have hdigits (m : Nat) : c ∉ m.repr.toList := by
    intro h
    rw [Nat.repr_eq_ofList_toDigits, String.toList_ofList] at h
    rw [Nat.isDigit_of_mem_toDigits (by decide) (by decide) h] at hdigit
    cases hdigit
  rw [Int.repr_eq_if]
  split
  · exact hdigits _
  · rw [String.toList_append, List.mem_append, not_or]
    exact ⟨fun h => hsign (List.mem_singleton.1 h), hdigits _⟩

theorem point_notMem_repr (n : Int) : '.' ∉ n.repr.toList :=
  notMem_repr (by decide) (by decide) n

theorem toList_text (v : Version) :
    v.text.toList = (v.publicPart.toInt.repr.toList ++ '.' :: v.protectedPart.toInt.repr.toList) ++
      '.' :: v.privatePart.toInt.repr.toList := by
  simp [text, toString]

theorem blank_notMem_text (v : Version) : ' ' ∉ v.text.toList := by
  have hpart := notMem_repr (c := ' ') (by decide) (by decide)
  simp [toList_text, hpart]

theorem repr_toInt_inj {i j : Int32} (h : i.toInt.repr.toList = j.toInt.repr.toList) : i = j :=
  Int32.toInt_inj.1 (Int.repr_inj.1 (String.toList_inj.1 h))

theorem text_inj {v w : Version} : v.text = w.text ↔ v = w := by
  refine ⟨fun h => ?_, congrArg text⟩
  rw [← String.toList_inj, toList_text, toList_text] at h
  -- the last point comes off first, then the one that is the last of what is left
  obtain ⟨h, hprivate⟩ := eq_of_append_cons_eq (point_notMem_repr _) (point_notMem_repr _) h
  obtain ⟨hpublic, hprotected⟩ := eq_of_append_cons_eq (point_notMem_repr _) (point_notMem_repr _) h
  cases v
  cases w
  rw [mk.injEq]
  exact ⟨repr_toInt_inj hpublic, repr_toInt_inj hprotected, repr_toInt_inj hprivate⟩

end Version

namespace Descriptor

variable {a b : Descriptor}

theorem toList_text (d : Descriptor) :
    d.text.toList = d.fullName.toList ++ ' ' :: 'v' :: d.version.text.toList := by
  simp [text, fullName, toString]

/-- Behind the last blank of a text stands the version. -/
theorem text_eq_iff : a.text = b.text ↔ a.fullName = b.fullName ∧ a.version = b.version := by
  constructor
  · intro h
    have hversion (v : Version) : ' ' ∉ 'v' :: v.text.toList := by
      rw [List.mem_cons, not_or]
      exact ⟨by decide, v.blank_notMem_text⟩
    rw [← String.toList_inj, toList_text, toList_text] at h
    obtain ⟨hname, h⟩ := eq_of_append_cons_eq (hversion _) (hversion _) h
    injection h with _ h
    exact ⟨String.toList_inj.1 hname, Version.text_inj.1 (String.toList_inj.1 h)⟩
  · rintro ⟨hname, hversion⟩
    rw [← String.toList_inj, toList_text, toList_text, hname, hversion]

/-- There is no colon in the class name. -/
def Plain (d : Descriptor) : Prop :=
  ':' ∉ d.className.text.toList

theorem Plain.fullName_eq_iff (ha : a.Plain) (hb : b.Plain) :
    a.fullName = b.fullName ↔ a.SameNames b := by
  rw [Descriptor.fullName_eq_iff]
  refine ⟨?_, .inl⟩
  rintro (h | h | h)
  · exact h
  · exact absurd h.colon_mem.1 ha
  · exact absurd h.colon_mem.1 hb

theorem Plain.text_eq_iff (ha : a.Plain) (hb : b.Plain) : a.text = b.text ↔ a = b := by
  rw [Descriptor.text_eq_iff, ha.fullName_eq_iff hb, SameNames, mk.injEq, and_assoc]

/-- With a colon in a class name two descriptors may have one text. -/
example : text ⟨⟨"a", by decide, by decide⟩, ⟨"b::C", by decide, by decide⟩, .null⟩ =
    text ⟨⟨"a::b", by decide, by decide⟩, ⟨"C", by decide, by decide⟩, .null⟩ := by
  decide

end Descriptor

end RecordStream
