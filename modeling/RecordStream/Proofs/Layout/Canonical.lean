import RecordStream.Proofs.Entity

/-!
# Encodings are canonical

The layouts of this library are those of words, truth values, blocks, names,
descriptors and the data of entities, and whatever is put together from these by
writing one value behind the other (`Layout.Composed`).  For all of them values and
the byte lists that are decoded correspond one to one: decoding undoes encoding, and
encoding undoes decoding (`decode_eq_ok_iff_of_composed`).

That a layout is lawful says as much of windows that hold more than one value; here
the window is of just the right size, so that nothing can be left in it.
-/

namespace RecordStream.Layout

variable {α β : Type} {L : Layout α}

/-- The layouts of the types of this library, and those of series of values with such layouts. -/
inductive Composed : {α : Type} → Layout α → Prop
  /-- Integers of any width and floats as bit patterns, in any byte order. -/
  | word {ω : Type} [Word ω] (o : ByteOrder) : Composed (word o : Layout ω)
  | bool : Composed bool
  | block (n : Nat) : Composed (block n)
  | name : Composed Name.layout
  | descriptor : Composed Descriptor.layout
  | object : Composed Object.layout
  | core : Composed Core.layout
  | generator : Composed Generator.layout
  /-- No values at all. -/
  | nothing : Composed (nothing ())
  /-- A value, and behind it another one, which may be a series itself. -/
  | pair {α β : Type} {L : Layout α} {M : Layout β} : Composed L → Composed M →
      Composed (L.pair M)
  /-- The series under the names of a structure. -/
  | named {α β : Type} {L : Layout α} {f : α → β} {g : β → α} : Composed L →
      (∀ a, g (f a) = a) → (∀ b, f (g b) = b) → Composed (L.imap f g)

theorem lawful_nothing : (nothing ()).Lawful where
  exists_codes a := ⟨[], codes_nothing a⟩
  codes_of_take := by
    rintro s _ _ ⟨⟩
    exact ⟨[], codes_nothing (), rfl⟩

theorem Composed.lawful (h : L.Composed) : L.Lawful := by
  induction h with
  | word o => exact lawful_word o
  | bool => exact lawful_bool
  | block n => exact lawful_block n
  | name => exact Name.lawful_layout
  | descriptor => exact Descriptor.lawful_layout
  | object => exact Object.lawful_layout
  | core => exact Core.lawful_layout
  | generator => exact Generator.lawful_layout
  | nothing => exact lawful_nothing
  | pair _ _ ihL ihM => exact ihL.pair ihM
  | named _ hgf hfg ih =>
    refine ih.imap fun a b => ⟨?_, ?_⟩
    · rintro rfl
      exact (hgf a).symm
    · rintro rfl
      exact hfg b

namespace Lawful

theorem encode_eq (hL : L.Lawful) (a : α) : L.encode a = .ok (L.bytes a) :=
  (hL.codes a).writes.encode_eq

theorem decode_eq_ok_iff (hL : L.Lawful) {bs : Bytes} {a : α} :
    L.decode bs = .ok a ↔ bs = L.bytes a := by
  constructor
  · intro h
    unfold decode at h
    split at h
    case isFalse => cases h
    case isTrue hlen =>
    split at h
    case h_2 => cases h
    case h_1 a' s htake =>
    cases h
    exact hL.eq_bytes_of_take hlen htake
  · rintro rfl
    exact (hL.codes a).reads.decode_eq

theorem bytes_inj (hL : L.Lawful) {a b : α} : L.bytes a = L.bytes b ↔ a = b := by
  constructor
  · intro h
    have hdecode := hL.decode_eq_ok_iff.2 h
    rw [hL.decode_eq_ok_iff.2 rfl] at hdecode
    cases hdecode
    rfl
  · rintro rfl
    rfl

end Lawful

/-- Layouts that are `Composed` of those of the library are canonical: `encode` succeeds for every
value with `size` bytes, `decode` gives a value for its encoding and for nothing else, and byte
lists of another length are refused with that length.  So two values are equal if and only if
their encodings are. -/
theorem decode_eq_ok_iff_of_composed (hL : L.Composed) :
    (∀ a, ∃ bs, L.encode a = .ok bs ∧ bs.length = L.size) ∧
    (∀ bs a, L.decode bs = .ok a ↔ L.encode a = .ok bs) ∧
    (∀ bs, bs.length ≠ L.size →
      L.decode bs = .error (.invalidData (.length L.size bs.length))) ∧
    ∀ a b, a = b ↔ L.encode a = L.encode b := by
  have hlawful := hL.lawful
  refine ⟨fun a => ⟨_, hlawful.encode_eq a, hlawful.length_bytes a⟩, fun bs a => ?_,
    fun bs hlen => if_neg hlen, fun a b => ?_⟩
  · rw [hlawful.decode_eq_ok_iff, hlawful.encode_eq, Except.ok.injEq, eq_comm]
  · rw [hlawful.encode_eq, hlawful.encode_eq, Except.ok.injEq, hlawful.bytes_inj]

/-- A mark and a reading. -/
def markedReading : Layout (Bool × Reading) :=
  bool.pair Reading.layout

theorem composed_markedReading : markedReading.Composed :=
  .pair .bool (.named (.pair (.word .native) (.pair (.word .big) (.word .native)))
    (fun _ => rfl) fun _ => rfl)

/-- The ratio of the reading is a signalling NaN, written highest byte first. -/
theorem decode_eq_ok_iff_of_composed_markedReading :
    markedReading.Composed ∧
      ∃ v bs, v = (true, ⟨7, ⟨0x7ff0000000000001⟩, -2⟩) ∧
        bs = 1 :: [7, 0, 0, 0, 0, 0, 0, 0] ++ [127, 240, 0, 0, 0, 0, 0, 1] ++
          [254, 255, 255, 255, 255, 255, 255, 255] ∧
        markedReading.encode v = .ok bs ∧ markedReading.decode bs = .ok v ∧
        markedReading.decode (bs.drop 1) = .error (.invalidData (.length 25 24)) := by
  obtain ⟨-, hdecode, hlength, -⟩ := decode_eq_ok_iff_of_composed composed_markedReading
  refine ⟨composed_markedReading, _, _, rfl, rfl, ?_⟩
  have hencode : markedReading.encode (true, ⟨7, ⟨0x7ff0000000000001⟩, -2⟩) =
      .ok (1 :: [7, 0, 0, 0, 0, 0, 0, 0] ++ [127, 240, 0, 0, 0, 0, 0, 1] ++
        [254, 255, 255, 255, 255, 255, 255, 255]) := by
    decide
  exact ⟨hencode, (hdecode _ _).2 hencode, hlength _ (by decide)⟩

end RecordStream.Layout
