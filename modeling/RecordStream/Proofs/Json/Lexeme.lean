import RecordStream.Json.Lexeme

/-!
# Reading lexemes

Lexemes are read as what they stand for, whatever comes behind them: strings, in which a character
may stand for itself or be escaped (`Spells`, `string_of_spells`), and natural numbers in decimal if
what comes behind them does not go on with the number (`number_toDigits`, `natural?_toDigits`).
-/

namespace RecordStream.Json

section Readers

variable {α β : Type} {m : Reader α} {f : α → Reader β} {a : α} {cs cs' : List Char}

theorem Reader.bind_of_ok (h : m cs = .ok (a, cs')) : (m >>= f) cs = f a cs' := by
  change StateT.bind m f cs = _
  rw [StateT.bind, h]
  rfl

theorem Reader.pure_apply : (pure a : Reader α) cs = .ok (a, cs) := rfl

end Readers

/-! ## Blanks -/

/-- Nothing but blanks. -/
def Blank (cs : List Char) : Prop := ∀ c ∈ cs, isBlank c = true

instance : DecidablePred Blank := fun _ => decidable_of_iff _ List.all_eq_true

theorem dropBlank_cons {c : Char} (hc : isBlank c = false) (cs : List Char) :
    dropBlank (c :: cs) = c :: cs :=
  List.dropWhile_cons_of_neg (by simp [hc])

theorem dropBlank_append {b : List Char} (hb : Blank b) (cs : List Char) :
    dropBlank (b ++ cs) = dropBlank cs :=
  List.dropWhile_append_of_pos hb

theorem dropBlank_of_blank {b : List Char} (hb : Blank b) : dropBlank b = [] := by
  have h := dropBlank_append hb []
  rw [List.append_nil] at h
  exact h

theorem next_append_cons {b : List Char} (hb : Blank b) {c : Char} (hc : isBlank c = false)
    (cs : List Char) : next (b ++ c :: cs) = .ok (c, cs) := by
  rw [next, dropBlank_append hb, dropBlank_cons hc]

/-! ## Strings -/

/-- A character that stands for itself in a string. -/
def IsPlain (c : Char) : Prop := c ≠ '"' ∧ c ≠ '\\' ∧ ¬ c < ' '

instance : DecidablePred IsPlain := fun _ => inferInstanceAs (Decidable (_ ∧ _))

/-- What may stand between the quotes of a string for a text: its characters, as they are or
escaped in a short form or by the numbers of their 16-bit units. -/
inductive Spells : List Char → List Char → Prop
  | nil : Spells [] []
  | plain {c : Char} {cs s : List Char} : IsPlain c → Spells cs s → Spells (c :: cs) (c :: s)
  | short {e c : Char} {cs s : List Char} : shortEscape? e = some c → Spells cs s →
      Spells (c :: cs) ('\\' :: e :: s)
  | unit {a b c d : Char} {n : Nat} {cs s : List Char} : unit? a b c d = some n →
      isHighSurrogate n = false → isLowSurrogate n = false → Spells cs s →
      Spells (.ofNat n :: cs) ('\\' :: 'u' :: a :: b :: c :: d :: s)
  | pair {a b c d a' b' c' d' : Char} {high low : Nat} {cs s : List Char} :
      unit? a b c d = some high → unit? a' b' c' d' = some low →
      isHighSurrogate high = true → isLowSurrogate low = true → Spells cs s →
      Spells (pairChar high low :: cs)
        ('\\' :: 'u' :: a :: b :: c :: d :: '\\' :: 'u' :: a' :: b' :: c' :: d' :: s)

theorem pieces_plain {c : Char} (hc : IsPlain c) (cs : List Char) :
    pieces (c :: cs) = (.char c :: (pieces cs).1, (pieces cs).2) := by
  obtain ⟨hquote, hslash, hcontrol⟩ := hc
  rw [pieces.eq_def]
  simp [hslash, hcontrol]

theorem pieces_short {e c : Char} (h : shortEscape? e = some c) (cs : List Char) :
    pieces ('\\' :: e :: cs) = (.char c :: (pieces cs).1, (pieces cs).2) := by
  unfold shortEscape? at h
  split at h
  all_goals cases h
  all_goals rfl

theorem pieces_unit {a b c d : Char} {n : Nat} (h : unit? a b c d = some n) (cs : List Char) :
    pieces ('\\' :: 'u' :: a :: b :: c :: d :: cs) = (.unit n :: (pieces cs).1, (pieces cs).2) := by
  rw [pieces, h]

theorem joinPieces_unit {n : Nat} (follow : Except JsonFlaw (List Char)) (ps : List Piece)
    (hhigh : isHighSurrogate n = false) (hlow : isLowSurrogate n = false) :
    joinPieces follow (.unit n :: ps) =
      (joinPieces follow ps).map fun (cs, rest) => (.ofNat n :: cs, rest) := by
  cases ps with
  | nil => simp [joinPieces, hhigh, hlow]
  | cons p ps =>
    cases p with
    | char c => simp [joinPieces, hhigh, hlow]
    | unit m => simp [joinPieces, hhigh, hlow]

theorem joinPieces_pair {high low : Nat} (follow : Except JsonFlaw (List Char)) (ps : List Piece)
    (hhigh : isHighSurrogate high = true) (hlow : isLowSurrogate low = true) :
    joinPieces follow (.unit high :: .unit low :: ps) =
      (joinPieces follow ps).map fun (cs, rest) => (pairChar high low :: cs, rest) := by
  rw [joinPieces, hhigh, hlow]
  rfl

/-- The pieces of a string are joined to the text that it stands for. -/
theorem exists_pieces_of_spells {cs s : List Char} (h : Spells cs s) (rest : List Char) :
    ∃ ps, pieces (s ++ '"' :: rest) = (ps, .ok rest) ∧
      joinPieces (.ok rest) ps = .ok (cs, rest) := by
  induction h with
  | nil => exact ⟨[], by simp [pieces], rfl⟩
  | @plain c cs s hc _ ih =>
    obtain ⟨ps, hpieces, hjoin⟩ := ih
    refine ⟨.char c :: ps, ?_, ?_⟩
    · rw [List.cons_append, pieces_plain hc, hpieces]
    · rw [joinPieces, hjoin]
      rfl
  | @short e c cs s he _ ih =>
    obtain ⟨ps, hpieces, hjoin⟩ := ih
    refine ⟨.char c :: ps, ?_, ?_⟩
    · rw [List.cons_append, List.cons_append, pieces_short he, hpieces]
    · rw [joinPieces, hjoin]
      rfl
  | @unit a b c d n cs s hn hhigh hlow _ ih =>
    obtain ⟨ps, hpieces, hjoin⟩ := ih
    refine ⟨.unit n :: ps, ?_, ?_⟩
    · simp only [List.cons_append]
      rw [pieces_unit hn, hpieces]
    · rw [joinPieces_unit _ ps hhigh hlow, hjoin]
      rfl
  | @pair a b c d a' b' c' d' high low cs s hhigh hlow ishigh islow _ ih =>
    obtain ⟨ps, hpieces, hjoin⟩ := ih
    refine ⟨.unit high :: .unit low :: ps, ?_, ?_⟩
    · simp only [List.cons_append]
      rw [pieces_unit hhigh, pieces_unit hlow, hpieces]
    · rw [joinPieces_pair _ ps ishigh islow, hjoin]
      rfl

/-- The string is read as the text that it stands for. -/
theorem string_of_spells {cs s : List Char} (h : Spells cs s) (rest : List Char) :
    string (s ++ '"' :: rest) = .ok (cs, rest) := by
  obtain ⟨ps, hpieces, hjoin⟩ := exists_pieces_of_spells h rest
  rw [string, hpieces]
  exact hjoin

/-- A text of such characters is written as it is. -/
theorem spells_of_plain {cs : List Char} (hcs : ∀ c ∈ cs, IsPlain c) : Spells cs cs := by
  induction cs with
  | nil => exact .nil
  | cons c cs ih =>
    exact .plain (hcs c List.mem_cons_self) (ih fun d hd => hcs d (List.mem_cons_of_mem c hd))

/-! ## Numbers -/

/-- The text does not go on with a number. -/
def EndsNumber (rest : List Char) : Prop :=
  ∀ c ∈ rest.head?, isDigit c = false ∧ c ≠ '.' ∧ c ≠ 'e' ∧ c ≠ 'E'

theorem isDigit_of_mem_toDigits {n : Nat} {c : Char} (h : c ∈ Nat.toDigits 10 n) :
    isDigit c = true :=
  Nat.isDigit_of_mem_toDigits (by decide) (by decide) h

theorem isBlank_iff {c : Char} :
    isBlank c = true ↔ ((c = ' ' ∨ c = '\t') ∨ c = '\n') ∨ c = '\r' := by
  simp [isBlank]

theorem isBlank_eq_false_of_isDigit {c : Char} (h : isDigit c = true) : isBlank c = false := by
  rw [Bool.eq_false_iff]
  intro hblank
  obtain ((rfl | rfl) | rfl) | rfl := isBlank_iff.1 hblank
  all_goals exact absurd h (by decide)

theorem endsNumber_append {b : List Char} (hb : Blank b) {rest : List Char}
    (hrest : EndsNumber rest) : EndsNumber (b ++ rest) := by
  cases b with
  | nil => exact hrest
  | cons c b =>
    rintro _ ⟨⟩
    obtain ((rfl | rfl) | rfl) | rfl := isBlank_iff.1 (hb c List.mem_cons_self)
    all_goals decide

/-- A number with more than one digit does not start with a zero. -/
theorem toDigits_ne_zero_cons (n : Nat) (c : Char) (cs : List Char) :
    Nat.toDigits 10 n ≠ '0' :: c :: cs := by
  induction n using Nat.strongRecOn generalizing c cs with
  | ind n ih =>
    intro h
    rw [Nat.toDigits_eq_if (by decide)] at h
    split at h
    case isTrue => simp at h
    case isFalse hn =>
    cases hfront : Nat.toDigits 10 (n / 10) with
    | nil => exact Nat.toDigits_ne_nil hfront
    | cons d ds =>
      rw [hfront, List.cons_append] at h
      injection h with hd hds
      subst hd
      cases ds with
      | nil =>
        have hvalue := Nat.ofDigitChars_toDigits (b := 10) (n := n / 10) (by decide) (by decide)
        rw [hfront] at hvalue
        change 0 = n / 10 at hvalue
        omega
      | cons c' cs' => exact ih (n / 10) (by omega) c' cs' hfront

theorem digits_toDigits {rest : List Char} (hrest : EndsNumber rest) (short : JsonFlaw) (n : Nat) :
    digits short (Nat.toDigits 10 n ++ rest) = .ok (Nat.toDigits 10 n, rest) := by
  have hall : ∀ c ∈ Nat.toDigits 10 n, isDigit c = true := fun _ => isDigit_of_mem_toDigits
  have hend : rest.takeWhile isDigit = [] ∧ rest.dropWhile isDigit = rest := by
    cases rest with
    | nil => exact ⟨rfl, rfl⟩
    | cons c cs =>
      have hc := (hrest c rfl).1
      exact ⟨List.takeWhile_cons_of_neg (by simp [hc]), List.dropWhile_cons_of_neg (by simp [hc])⟩
  have htake : (Nat.toDigits 10 n ++ rest).takeWhile isDigit = Nat.toDigits 10 n := by
    rw [List.takeWhile_append_of_pos hall, hend.1, List.append_nil]
  have hdrop : (Nat.toDigits 10 n ++ rest).dropWhile isDigit = rest := by
    rw [List.dropWhile_append_of_pos hall, hend.2]
  unfold digits
  rw [htake]
  obtain ⟨d, ds, hdigits⟩ := List.exists_cons_of_ne_nil (Nat.toDigits_ne_nil (b := 10) (n := n))
  rw [hdigits] at hdrop ⊢
  change Except.ok (d :: ds, (d :: ds ++ rest).dropWhile isDigit) = _
  rw [hdrop]

theorem wholePart_toDigits {rest : List Char} (hrest : EndsNumber rest) (short : JsonFlaw)
    (n : Nat) : wholePart short (Nat.toDigits 10 n ++ rest) = .ok (Nat.toDigits 10 n, rest) := by
  rw [wholePart, Reader.bind_of_ok (digits_toDigits hrest short n), ← Reader.pure_apply]
  refine congrFun ?_ rest
  split
  case h_1 c cs h => exact absurd h (toDigits_ne_zero_cons n c cs)
  case h_2 => rfl

theorem fractionPart_of_endsNumber {rest : List Char} (hrest : EndsNumber rest)
    (short : JsonFlaw) : fractionPart short rest = .ok ([], rest) := by
  unfold fractionPart
  split
  · exact absurd rfl (hrest '.' rfl).2.1
  · rfl

theorem exponentPart_of_endsNumber {rest : List Char} (hrest : EndsNumber rest)
    (short : JsonFlaw) : exponentPart short rest = .ok (none, rest) := by
  unfold exponentPart
  split
  · exact absurd rfl (hrest 'e' rfl).2.2.1
  · exact absurd rfl (hrest 'E' rfl).2.2.2
  · rfl

/-- Where a number may end, it does. -/
theorem number_toDigits {rest : List Char} (hrest : EndsNumber rest) (short : JsonFlaw) (n : Nat) :
    number short (Nat.toDigits 10 n ++ rest) = .ok (⟨Nat.toDigits 10 n, [], none⟩, rest) := by
  rw [number, Reader.bind_of_ok (wholePart_toDigits hrest short n),
    Reader.bind_of_ok (fractionPart_of_endsNumber hrest short),
    Reader.bind_of_ok (exponentPart_of_endsNumber hrest short), Reader.pure_apply]

theorem natural?_toDigits {n : Nat} (h : n < UInt64.size) :
    Number.natural? ⟨Nat.toDigits 10 n, [], none⟩ = some n := by
  have hlength : (Nat.toDigits 10 n).length ≤ Number.maxWordDigits :=
    (Nat.length_toDigits_le_iff (by decide) (by decide)).2 (Nat.lt_trans h (by decide))
  rw [Number.natural?, if_pos hlength, digitsValue,
    Nat.ofDigitChars_toDigits (by decide) (by decide)]

end RecordStream.Json
