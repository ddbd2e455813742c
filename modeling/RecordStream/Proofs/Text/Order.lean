import RecordStream.Text.Utf8

/-!
# The order of texts

Texts are ordered by their characters, bytes by their numbers, and both orders look at what
comes first.  UTF-8 keeps the order of characters, so texts are ordered as the bytes that
they are written as (`ofText_lt_ofText`).
-/

namespace RecordStream.Bytes

/-- The first byte decides; what comes behind it counts only where the first bytes are equal. -/
theorem cons_ofNat_lt_cons {m n : Nat} {xs ys : Bytes} (hmn : m ≤ n) (hn : n < 256)
    (h : m = n → xs < ys) : UInt8.ofNat m :: xs < UInt8.ofNat n :: ys := by
  rw [List.cons_lt_cons_iff]
  rcases Nat.eq_or_lt_of_le hmn with rfl | hlt
  · exact .inr ⟨rfl, h rfl⟩
  · left
    rw [UInt8.lt_iff_toNat_lt, UInt8.toNat_ofNat', UInt8.toNat_ofNat']
    omega

/-- Of two characters the lower one has the lower bytes, and it is seen in these bytes which one
that is. -/
theorem utf8EncodeChar_append_lt {c d : Char} (h : c < d) (xs ys : Bytes) :
    String.utf8EncodeChar c ++ xs < String.utf8EncodeChar d ++ ys := by
  have hmn : c.val.toNat < d.val.toNat := h
  have hn : d.val.toNat < 1114112 := by
    rcases d.valid with hd | ⟨-, hd⟩
    · exact Nat.lt_trans hd (by decide)
    · exact hd
  unfold String.utf8EncodeChar
  generalize c.val.toNat = m at hmn
  generalize d.val.toNat = n at hmn hn
  -- The lead byte of a longer encoding is the higher one.  In encodings of one length the
  -- digits of the code points are compared, the highest ones first.
  by_cases hm₁ : m ≤ 127
  · rw [if_pos hm₁]
    by_cases hn₁ : n ≤ 127
    · rw [if_pos hn₁]
      exact cons_ofNat_lt_cons (by omega) (by omega) fun h => by omega
    · rw [if_neg hn₁]
      split
      · exact cons_ofNat_lt_cons (by omega) (by omega) fun h => by omega
      · split
        · exact cons_ofNat_lt_cons (by omega) (by omega) fun h => by omega
        · exact cons_ofNat_lt_cons (by omega) (by omega) fun h => by omega
  rw [if_neg hm₁, if_neg (by omega : ¬n ≤ 127)]
  by_cases hm₂ : m ≤ 2047
  · rw [if_pos hm₂]
    by_cases hn₂ : n ≤ 2047
    · rw [if_pos hn₂]
      exact cons_ofNat_lt_cons (by omega) (by omega) fun h =>
        cons_ofNat_lt_cons (by omega) (by omega) fun h => by omega
    · rw [if_neg hn₂]
      split
      · exact cons_ofNat_lt_cons (by omega) (by omega) fun h => by omega
      · exact cons_ofNat_lt_cons (by omega) (by omega) fun h => by omega
  rw [if_neg hm₂, if_neg (by omega : ¬n ≤ 2047)]
  by_cases hm₃ : m ≤ 65535
  · rw [if_pos hm₃]
    by_cases hn₃ : n ≤ 65535
    · rw [if_pos hn₃]
      exact cons_ofNat_lt_cons (by omega) (by omega) fun h =>
        cons_ofNat_lt_cons (by omega) (by omega) fun h =>
          cons_ofNat_lt_cons (by omega) (by omega) fun h => by omega
    · rw [if_neg hn₃]
      exact cons_ofNat_lt_cons (by omega) (by omega) fun h => by omega
  rw [if_neg hm₃, if_neg (by omega : ¬n ≤ 65535)]
  exact cons_ofNat_lt_cons (by omega) (by omega) fun h =>
    cons_ofNat_lt_cons (by omega) (by omega) fun h =>
      cons_ofNat_lt_cons (by omega) (by omega) fun h =>
        cons_ofNat_lt_cons (by omega) (by omega) fun h => by omega

/-- Texts are ordered as their bytes. -/
theorem ofText_lt_ofText {s t : String} (h : s < t) : ofText s < ofText t := by
  have flatMap_lt (cs ds : List Char) (hlt : cs < ds) :
      cs.flatMap String.utf8EncodeChar < ds.flatMap String.utf8EncodeChar := by
    induction cs generalizing ds with
    | nil =>
      cases ds with
      | nil => exact absurd hlt (List.lt_irrefl [])
      | cons d ds =>
        have hne : (d :: ds).flatMap String.utf8EncodeChar ≠ [] := by simp
        obtain ⟨b, bs, hbs⟩ := List.exists_cons_of_ne_nil hne
        rw [hbs]
        exact List.nil_lt_cons b bs
    | cons c cs ih =>
      cases ds with
      | nil => exact absurd hlt (List.not_lt_nil _)
      | cons d ds =>
        rw [List.flatMap_cons, List.flatMap_cons]
        rcases List.cons_lt_cons_iff.1 hlt with hcd | ⟨rfl, hrest⟩
        · exact utf8EncodeChar_append_lt hcd _ _
        · exact List.append_left_lt (ih ds hrest)
  rw [ofText_eq_flatMap, ofText_eq_flatMap]
  exact flatMap_lt _ _ h

end RecordStream.Bytes
