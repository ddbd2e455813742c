import RecordStream.Proofs.Layout.Canonical

/-!
# Names are bounded texts

Names are made of texts and written as blocks, and both ways in lead to the same names:
a text is a name if it has at most 100 bytes and no NUL (`exists_ofString_eq_ok_iff`), and a
block is one if it is what such a text is written as (`decode_iff_ofString`).

`Name.front?` is the text in front of the first zero of some bytes.  The encoding of a name
always has one, and it is the text of the name: a name of 100 bytes has no zero and is not
cut, and only the empty name begins with one.
-/

namespace RecordStream.Name

variable {s : String} {n : Name} {bs : Bytes} {fault : Fault}

/-! ## Texts -/

theorem ofString_eq_ok_iff : ofString s = .ok n ↔ n.text = s := by
  constructor
  · intro h
    unfold ofString at h
    split at h
    · split at h
      · cases h
      · cases h
        rfl
    · cases h
  · rintro rfl
    rw [ofString, dif_pos n.size_le, dif_neg n.noNul]

theorem exists_ofString_eq_ok_iff :
    (∃ n, ofString s = .ok n) ↔ s.utf8ByteSize ≤ maxSize ∧ '\x00' ∉ s.toList := by
  constructor
  · rintro ⟨n, h⟩
    rw [← ofString_eq_ok_iff.1 h]
    exact ⟨n.size_le, n.noNul⟩
  · rintro ⟨hsize, hnul⟩
    exact ⟨⟨s, hsize, hnul⟩, ofString_eq_ok_iff.2 rfl⟩

/-- A text that is too long is refused for that, whether it has a NUL or not. -/
theorem ofString_of_lt (h : maxSize < s.utf8ByteSize) :
    ofString s = .error (.nameTooLong s maxSize) :=
  dif_neg (Nat.not_le.2 h)

theorem ofString_of_nul_mem (hsize : s.utf8ByteSize ≤ maxSize) (hnul : '\x00' ∈ s.toList) :
    ofString s = .error (.invalidData (.nameNul s)) := by
  rw [ofString, dif_pos hsize, dif_pos hnul]

theorem isEmpty_iff_text_eq : n.isEmpty = true ↔ n.text = "" :=
  String.isEmpty_iff

/-! ## Blocks -/

/-- What stands in front of the first zero of some bytes, if it is UTF-8. -/
def front? (bs : Bytes) : Option String :=
  Bytes.toText? (bs.takeWhile (· != 0))

theorem encode_eq (n : Name) : layout.encode n = .ok n.toBlock.toBytes := by
  have hcodes := (Layout.codes_block n.toBlock).checked (ofBlock_toBlock n)
  exact hcodes.writes.encode_eq

theorem front?_toBlock (n : Name) : front? n.toBlock.toBytes = some n.text := by
  rw [front?, takeWhile_toBlock, Bytes.toText?_ofText]

theorem front?_of_encode (h : layout.encode n = .ok bs) : front? bs = some n.text := by
  rw [encode_eq] at h
  cases h
  exact front?_toBlock n

/-- Only the bytes of the empty name begin with a zero. -/
theorem head?_toBlock_eq_zero_iff (n : Name) :
    n.toBlock.toBytes.head? = some 0 ↔ n.text = "" := by
  change (Bytes.ofText n.text ++ List.replicate (maxSize - n.text.utf8ByteSize) 0).head? = _ ↔ _
  cases htext : Bytes.ofText n.text with
  | nil =>
    have hempty : n.text = "" := by
      rw [← String.utf8ByteSize_eq_zero_iff, ← Bytes.length_ofText, htext, List.length_nil]
    simp [hempty, maxSize]
  | cons x xs =>
    have hx : (x != 0) = true := n.ne_zero_of_mem_ofText (htext ▸ List.mem_cons_self)
    have hne : n.text ≠ "" := by
      intro hempty
      rw [hempty] at htext
      cases htext
    simpa [hne] using hx

/-- The bytes that are read as a name are those that it is written as. -/
theorem decode_eq_ok_iff_encode : layout.decode bs = .ok n ↔ layout.encode n = .ok bs := by
  rw [lawful_layout.decode_eq_ok_iff, lawful_layout.encode_eq, Except.ok.injEq, eq_comm]

/-- Names and their blocks.  `ofString s` succeeds if and only if `s` has at most 100 bytes of
UTF-8 and no NUL, and is otherwise refused for its length first; the name has the text `s`, which
stands in front of the first zero of its encoding (`front?`).  A block of 100 bytes decodes if and
only if it encodes such a text, and then there is only one, the text of the decoded name. -/
theorem decode_iff_ofString (s : String) (b : Block maxSize) :
    ((∃ n, ofString s = .ok n) ↔ s.utf8ByteSize ≤ 100 ∧ '\x00' ∉ s.toList) ∧
    (100 < s.utf8ByteSize → ofString s = .error (.nameTooLong s 100)) ∧
    (s.utf8ByteSize ≤ 100 → '\x00' ∈ s.toList →
      ofString s = .error (.invalidData (.nameNul s))) ∧
    (∀ n, ofString s = .ok n → n.text = s ∧ (n.isEmpty = true ↔ s = "") ∧
      ∃ bs, layout.encode n = .ok bs ∧ front? bs = some s ∧ (bs.head? = some 0 ↔ s = "")) ∧
    ((∃ n, layout.decode b.toBytes = .ok n) ↔
      ∃ t n, ofString t = .ok n ∧ layout.encode n = .ok b.toBytes) ∧
    ∀ n, layout.decode b.toBytes = .ok n → front? b.toBytes = some n.text ∧
      ∀ t, (∃ m, ofString t = .ok m ∧ layout.encode m = .ok b.toBytes) ↔ t = n.text := by
  refine ⟨exists_ofString_eq_ok_iff, ofString_of_lt, ofString_of_nul_mem, fun n h => ?_, ?_,
    fun n h => ⟨front?_of_encode (decode_eq_ok_iff_encode.1 h), fun t => ?_⟩⟩
  · obtain rfl := ofString_eq_ok_iff.1 h
    exact ⟨rfl, isEmpty_iff_text_eq, _, encode_eq n, front?_toBlock n,
      head?_toBlock_eq_zero_iff n⟩
  · constructor
    · rintro ⟨n, h⟩
      exact ⟨n.text, n, ofString_eq_ok_iff.2 rfl, decode_eq_ok_iff_encode.1 h⟩
    · rintro ⟨t, n, -, h⟩
      exact ⟨n, decode_eq_ok_iff_encode.2 h⟩
  · constructor
    · rintro ⟨m, hm, hencode⟩
      rw [decode_eq_ok_iff_encode.2 hencode] at h
      cases h
      exact (ofString_eq_ok_iff.1 hm).symm
    · rintro rfl
      exact ⟨n, ofString_eq_ok_iff.2 rfl, decode_eq_ok_iff_encode.1 h⟩

/-- Two bytes short of its end a name takes in one more character of two bytes, but none of three. -/
example :
    (∃ n, ofString (String.ofList (List.replicate 98 'a') ++ "é") = .ok n) ∧
      ¬ ∃ n, ofString (String.ofList (List.replicate 98 'a') ++ "€") = .ok n := by
  rw [exists_ofString_eq_ok_iff, exists_ofString_eq_ok_iff]
  decide

end RecordStream.Name
