import RecordStream.Layout
import RecordStream.Text.Utf8

/-!
# Names

A name is a text of at most 100 bytes of UTF-8 without NUL.  It is written in
exactly 100 bytes, padded with zeros, so that the first zero ends the text and
nothing but zeros may follow it.
-/

namespace RecordStream

/-- The number of bytes in which every name is written. -/
def Name.maxSize : Nat := 100

structure Name where
  text : String
  size_le : text.utf8ByteSize ≤ Name.maxSize
  noNul : '\x00' ∉ text.toList
  deriving DecidableEq

namespace Name

/-- The name without text. -/
def empty : Name := ⟨"", by decide, by decide⟩

def isEmpty (n : Name) : Bool :=
  n.text.isEmpty

/-- A text as a name.  A text with both faults counts as too long. -/
def ofString (s : String) : Except Fault Name :=
  if hsize : s.utf8ByteSize ≤ maxSize then
    if hnul : '\x00' ∈ s.toList then .error (.invalidData (.nameNul s))
    else .ok ⟨s, hsize, hnul⟩
  else .error (.nameTooLong s maxSize)

/-- Copies bytes of a literal into a block, to place `i` and those behind it, and looks at each of
them on its way. -/
def copyFrom (i : Nat) (block : Block maxSize) : Bytes → Except Misuse (Block maxSize)
  | [] => .ok block
  | x :: xs => if x = 0 then .error .literalHasNul else copyFrom (i + 1) (block.set i x) xs

theorem zero_notMem_of_copyFrom {i : Nat} {block b : Block maxSize} {bs : Bytes}
    (h : copyFrom i block bs = .ok b) : 0 ∉ bs := by
  induction bs generalizing i block with
  | nil => exact List.not_mem_nil
  | cons x xs ih =>
    rw [copyFrom] at h
    split at h
    · cases h
    · rename_i hx
      rw [List.mem_cons, not_or]
      exact ⟨fun hzero => hx hzero.symm, ih h⟩

/-- The block that a literal is copied to. -/
def literalBlock (s : String) : Except Misuse (Block maxSize) :=
  if (Bytes.ofText s).length ≤ maxSize then copyFrom 0 (.zeros maxSize) (Bytes.ofText s)
  else .error .literalTooLong

/-- A text that is copied to the end is a name. -/
theorem size_le_and_noNul_of_literalBlock {s : String} {b : Block maxSize}
    (h : literalBlock s = .ok b) : s.utf8ByteSize ≤ maxSize ∧ '\x00' ∉ s.toList := by
  unfold literalBlock at h
  split at h
  · exact ⟨‹_›, fun hnul => zero_notMem_of_copyFrom h ((Bytes.zero_mem_ofText_iff s).2 hnul)⟩
  · cases h

/-- A text that is known in advance, as the name that is written in its block.  A text that is no
name is a breach of its author. -/
def ofLiteral (s : String) : Except Misuse Name :=
  match h : literalBlock s with
  | .ok _ =>
    .ok ⟨s, (size_le_and_noNul_of_literalBlock h).1, (size_le_and_noNul_of_literalBlock h).2⟩
  | .error breach => .error breach

/-- The text of a name in quotes. -/
def quoted (n : Name) : String :=
  Text.quote n.text

/-- The bytes of the text, then zeros. -/
def toBlock (n : Name) : Block maxSize where
  toBytes := Bytes.ofText n.text ++ List.replicate (maxSize - n.text.utf8ByteSize) 0
  length_toBytes := by
    have := n.size_le
    simp only [List.length_append, Bytes.length_ofText, List.length_replicate]
    omega

/-- The name that is written in the given bytes. -/
def ofBlock (b : Block maxSize) : Except Fault Name :=
  if (b.toBytes.dropWhile (· != 0)).all (· == 0) then
    match h : Bytes.toText? (b.toBytes.takeWhile (· != 0)) with
    | none => .error (.invalidData .nameEncoding)
    | some s => .ok {
        text := s
        size_le := by
          rw [← Bytes.length_ofText, ← Bytes.toText?_eq_some_iff.1 h]
          exact Nat.le_trans (List.takeWhile_sublist _).length_le (Nat.le_of_eq b.length_toBytes)
        noNul := by
          rw [← Bytes.zero_mem_ofText_iff, ← Bytes.toText?_eq_some_iff.1 h]
          intro hzero
          simpa using List.all_eq_true.1 List.all_takeWhile 0 hzero }
  else .error (.invalidData .nameTail)

def layout : Layout Name :=
  (Layout.block maxSize).checked ofBlock toBlock

@[simp] theorem size_layout : layout.size = 100 := rfl

end Name

end RecordStream
