import RecordStream.Bytes

/-!
# UTF-8

Texts as byte lists.  `toText?_eq_some_iff` says that the bytes that are a text
are exactly those that some text is written as, and `zero_mem_ofText_iff` that the
zero byte stands for NUL and nothing else.
-/

namespace RecordStream.Bytes

/-- The UTF-8 bytes of a text. -/
def ofText (s : String) : Bytes :=
  s.toUTF8.data.toList

/-- The text with the given UTF-8 bytes. -/
def toText? (bs : Bytes) : Option String :=
  String.fromUTF8? ⟨bs.toArray⟩

theorem ofText_eq_flatMap (s : String) : ofText s = s.toList.flatMap String.utf8EncodeChar := by
  have h : s.toByteArray = s.toList.utf8Encode := by simp
  change s.toByteArray.data.toList = _
  rw [h, List.utf8Encode]
  simp

@[simp] theorem length_ofText (s : String) : (ofText s).length = s.utf8ByteSize := rfl

theorem toText?_ofText (s : String) : toText? (ofText s) = some s :=
  dif_pos s.isValidUTF8

theorem toText?_eq_some_iff {bs : Bytes} {s : String} : toText? bs = some s ↔ bs = ofText s := by
  refine ⟨fun h => ?_, fun h => h ▸ toText?_ofText s⟩
  unfold toText? String.fromUTF8? at h
  split at h
  · cases h
    rfl
  · cases h

private theorem ofNat_ne_zero {x k : Nat} (hk : 0 < k) (hx : x + k < 256) :
    UInt8.ofNat (x + k) ≠ 0 := by
  intro h
  have hnat : (UInt8.ofNat (x + k)).toNat = 0 := by rw [h]; rfl
  rw [UInt8.toNat_ofNat'] at hnat
  omega

/-- Only NUL has a zero byte in its encoding. -/
theorem eq_nul_of_zero_mem {c : Char} (h : 0 ∈ String.utf8EncodeChar c) : c = '\x00' := by
  unfold String.utf8EncodeChar at h
  by_cases hv : c.val.toNat ≤ 127
  · simp only [hv, if_true, List.mem_singleton] at h
    have hnat : (UInt8.ofNat c.val.toNat).toNat = 0 := by rw [← h]; rfl
    rw [UInt8.toNat_ofNat'] at hnat
    have hzero : c.val.toNat = 0 := by omega
    exact Char.ext (UInt32.toNat_inj.1 hzero)
  · simp only [hv, if_false] at h
    split at h
    · simp only [List.mem_cons, List.not_mem_nil, or_false] at h
      rcases h with h | h <;> exact absurd h.symm (ofNat_ne_zero (by omega) (by omega))
    · split at h <;> simp only [List.mem_cons, List.not_mem_nil, or_false] at h
      · rcases h with h | h | h <;> exact absurd h.symm (ofNat_ne_zero (by omega) (by omega))
      · rcases h with h | h | h | h <;> exact absurd h.symm (ofNat_ne_zero (by omega) (by omega))

theorem zero_mem_ofText_iff (s : String) : 0 ∈ ofText s ↔ '\x00' ∈ s.toList := by
  rw [ofText_eq_flatMap, List.mem_flatMap]
  refine ⟨?_, fun h => ⟨_, h, by decide⟩⟩
  rintro ⟨c, hc, h⟩
  exact eq_nul_of_zero_mem h ▸ hc

end RecordStream.Bytes
