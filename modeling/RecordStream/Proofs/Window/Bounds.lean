import RecordStream.Proofs.Stream
import RecordStream.Proofs.Window

/-!
# Bounds of requests

A request for some bytes should be answered by comparing their number with what there is
room for, and move nothing where there is not enough (`ChecksBounds`).  Buffers do so.
Windows look at the end of the request instead (`LooksAtEnd`), which may be no 64-bit
position: then the request is a misuse, and a series of requests (`attempt`) ends with it.

Whatever has been taken off a window before, its offset and what remains make up the window
(`Source.Over`, which every request keeps that is answered).  So a request that breaks down
would have been refused, and there is one at every offset but the first
(`Source.checksBounds_iff`).
-/

namespace RecordStream

section Attempts

variable {σ β γ : Type} {m : EStateM Fault σ β} {f : Except Fault β → StateT σ (Except Misuse) γ}
  {s t : σ} {x : β} {fault : Fault} {breach : Misuse}

theorem attempt_of_ok (h : m s = .ok x t) : attempt m s = .ok (.ok x, t) := by
  rw [attempt, h]

theorem attempt_of_error (h : m s = .error fault t) (hfault : fault.isMisuse = false) :
    attempt m s = .ok (.error fault, t) := by
  rw [attempt, h]
  cases fault with
  | misuse breach => cases hfault
  | _ => rfl

theorem attempt_of_misuse (h : m s = .error (.misuse breach) t) : attempt m s = .error breach := by
  rw [attempt, h]

/-- A failure that is answered leaves the state in which it failed. -/
theorem eq_of_attempt {answer : Except Fault β} {t' : σ} (h : m s = .error fault t)
    (h' : attempt m s = .ok (answer, t')) : t' = t := by
  rw [attempt, h] at h'
  cases fault with
  | misuse breach => cases h'
  | _ =>
    cases h'
    rfl

theorem bind_of_answer {answer : Except Fault β} (h : attempt m s = .ok (answer, t)) :
    (attempt m >>= f) s = f answer t := by
  change Except.bind (attempt m s) (fun p => f p.1 p.2) = _
  rw [h]
  rfl

theorem bind_of_misuse (h : attempt m s = .error breach) : (attempt m >>= f) s = .error breach := by
  change Except.bind (attempt m s) (fun p => f p.1 p.2) = _
  rw [h]
  rfl

end Attempts

/-! ## Checks -/

section Checks

variable {σ β : Type} {m : EStateM Fault σ β} {s : σ} {offset len room : Nat} {refusal : Fault}

/-- The request for `len` bytes, of which there is room for `room`, is granted just if these are
enough, and otherwise refused with the given fault and nothing moved. -/
structure ChecksBounds (m : EStateM Fault σ β) (s : σ) (len room : Nat) (refusal : Fault) :
    Prop where
  accepts : len ≤ room → ∃ x t, attempt m s = .ok (.ok x, t)
  refuses : room < len → attempt m s = .ok (.error refusal, s)

/-- A request that breaks down is neither granted nor refused. -/
theorem not_checksBounds {breach : Misuse} (h : attempt m s = .error breach) :
    ¬ ChecksBounds m s len room refusal := by
  intro hchecks
  by_cases hle : len ≤ room
  · obtain ⟨x, t, hok⟩ := hchecks.accepts hle
    cases hok.symm.trans h
  · cases (hchecks.refuses (Nat.not_le.1 hle)).symm.trans h

/-- The request of a window whose offset is given: it is granted where there is room, and else
refused if its end is a 64-bit position. -/
structure LooksAtEnd (m : EStateM Fault σ β) (s : σ) (offset len room : Nat) (refusal : Fault) :
    Prop where
  accepts : len ≤ room → ∃ x t, attempt m s = .ok (.ok x, t)
  refuses : room < len → offset + len < UInt64.size → attempt m s = .ok (.error refusal, s)
  breaks : room < len → UInt64.size ≤ offset + len → attempt m s = .error .positionOverflow

/-- Windows end at a position, so a request that ends at none asks for too much. -/
theorem LooksAtEnd.checks_iff (h : LooksAtEnd m s offset len room refusal)
    (hroom : offset + room < UInt64.size) :
    ChecksBounds m s len room refusal ↔ offset + len < UInt64.size := by
  constructor
  · intro hchecks
    by_contra hposition
    exact not_checksBounds (h.breaks (by omega) (Nat.not_lt.1 hposition)) hchecks
  · intro hposition
    exact ⟨h.accepts, fun hlt => h.refuses hlt hposition⟩

theorem looksAtEnd_of_requestFault {refuse : Nat → String → Fault} {reason : String}
    (hrefusal : (refuse offset reason).isMisuse = false)
    (hok : len ≤ room → ∃ x t, m s = .ok x t)
    (herror : room < len → m s = .error (requestFault refuse reason offset len) s) :
    LooksAtEnd m s offset len room (refuse offset reason) where
  accepts h := by
    obtain ⟨x, t, hm⟩ := hok h
    exact ⟨x, t, attempt_of_ok hm⟩
  refuses h hposition := by
    rw [requestFault, if_pos hposition] at herror
    exact attempt_of_error (herror h) hrefusal
  breaks h hposition := by
    rw [requestFault, if_neg (Nat.not_lt.2 hposition)] at herror
    exact attempt_of_misuse (herror h)

end Checks

/-! ## Buffers -/

namespace Stream

theorem checksBounds_peek (b : Buffer) (len : Nat) :
    ChecksBounds (peek len) b len b.remaining (.underflow b.readPos len b.remaining) :=
  ⟨fun h => ⟨_, _, attempt_of_ok (peek_of_le h)⟩, fun h => attempt_of_error (peek_of_lt h) rfl⟩

theorem checksBounds_skip (b : Buffer) (len : Nat) :
    ChecksBounds (skip len) b len b.remaining (.underflow b.readPos len b.remaining) :=
  ⟨fun h => ⟨_, _, attempt_of_ok (skip_of_le h)⟩, fun h => attempt_of_error (skip_of_lt h) rfl⟩

end Stream

/-! ## Windows that are filled -/

namespace Sink

variable {n : Nat} {s : Sink n} {bs : Bytes}

/-- The bytes are checked for the room that is left before they are put into the window. -/
def Checks (s : Sink n) (bs : Bytes) : Prop :=
  ChecksBounds (put bs) s bs.length s.remaining (.writeFailed s.offset "buffer too small")

theorem looksAtEnd_put (s : Sink n) (bs : Bytes) :
    LooksAtEnd (put bs) s s.offset bs.length s.remaining
      (.writeFailed s.offset "buffer too small") :=
  looksAtEnd_of_requestFault rfl (fun h => ⟨_, _, put_of_le h⟩) put_of_lt

theorem checks_iff (hn : n < UInt64.size) :
    s.Checks bs ↔ s.offset + bs.length < UInt64.size := by
  have hwindow : s.offset + s.remaining = n := s.length_eq
  exact (looksAtEnd_put s bs).checks_iff (by omega)

end Sink

/-! ## Windows that are read -/

namespace Source

variable {s : Source} {bs : Bytes} {len : Nat}

/-- The request is checked for what remains. -/
def Checks (s : Source) (len : Nat) : Prop :=
  ChecksBounds (take len) s len s.remaining (.readFailed s.offset "unexpected end of buffer")

/-- The window has been read up to its offset and is otherwise that over the given bytes. -/
structure Over (bs : Bytes) (s : Source) : Prop where
  offset_le : s.offset ≤ bs.length
  rest_eq : s.rest = bs.drop s.offset

theorem over_ofBytes (bs : Bytes) : Over bs (.ofBytes bs) :=
  ⟨Nat.zero_le _, rfl⟩

theorem Over.remaining_eq (h : s.Over bs) : s.offset + s.remaining = bs.length := by
  have hle := h.offset_le
  rw [remaining, h.rest_eq, List.length_drop]
  omega

theorem looksAtEnd_take (s : Source) (len : Nat) :
    LooksAtEnd (take len) s s.offset len s.remaining
      (.readFailed s.offset "unexpected end of buffer") :=
  looksAtEnd_of_requestFault rfl (fun h => ⟨_, _, take_of_le h⟩) take_of_lt

theorem Over.checks_iff (h : s.Over bs) (hbs : bs.length < UInt64.size) :
    s.Checks len ↔ s.offset + len < UInt64.size :=
  (looksAtEnd_take s len).checks_iff (h.remaining_eq ▸ hbs)

/-! ### Series of requests -/

/-- Asks for items of the given kinds, one after the other, whatever the answers are. -/
def requestEach : List Item.Kind → StateT Source (Except Misuse) Unit
  | [] => pure ()
  | k :: kinds => do
    let _ ← attempt k.take
    requestEach kinds

variable {kinds more : List Item.Kind} {k : Item.Kind} {t : Source}

theorem requestEach_append (h : requestEach kinds s = .ok ((), t)) :
    requestEach (kinds ++ more) s = requestEach more t := by
  induction kinds generalizing s with
  | nil =>
    cases h
    rfl
  | cons k kinds ih =>
    rw [requestEach] at h
    rw [List.cons_append, requestEach]
    cases hk : attempt k.take s with
    | error breach => cases h.symm.trans (bind_of_misuse hk)
    | ok p =>
      rw [bind_of_answer hk] at h
      rw [bind_of_answer hk]
      exact ih h

/-- A request takes an item off the window, or leaves it as it is. -/
theorem take_cases (k : Item.Kind) (s : Source) :
    (∃ x, k.take s = .ok x ⟨s.offset + k.size, s.rest.drop k.size⟩ ∧ k.size ≤ s.remaining) ∨
    ∃ fault, k.take s = .error fault s := by
  by_cases h : k.size ≤ s.remaining
  · have htake := take_of_le h
    cases k with
    | scalar k o => exact .inl ⟨_, bind_of_ok htake, h⟩
    | bytes n => exact .inl ⟨_, htake, h⟩
  · have htake := take_of_lt (Nat.not_le.1 h)
    cases k with
    | scalar k o => exact .inr ⟨_, bind_of_error htake⟩
    | bytes n => exact .inr ⟨_, htake⟩

/-- Any answer leaves a window over the same bytes. -/
theorem Over.attempt (h : s.Over bs) {answer : Except Fault k.Value}
    (ht : RecordStream.attempt k.take s = .ok (answer, t)) : t.Over bs := by
  rcases take_cases k s with ⟨x, hok, hle⟩ | ⟨fault, herror⟩
  · cases ht.symm.trans (attempt_of_ok hok)
    have hlength := h.remaining_eq
    refine ⟨?_, ?_⟩
    · change s.offset + k.size ≤ bs.length
      omega
    · change s.rest.drop k.size = bs.drop (s.offset + k.size)
      rw [h.rest_eq, List.drop_drop]
  · rwa [eq_of_attempt herror ht]

theorem Over.requestEach (h : s.Over bs) (ht : requestEach kinds s = .ok ((), t)) : t.Over bs := by
  induction kinds generalizing s with
  | nil =>
    cases ht
    exact h
  | cons k kinds ih =>
    rw [Source.requestEach] at ht
    cases hk : RecordStream.attempt k.take s with
    | error breach => cases ht.symm.trans (bind_of_misuse hk)
    | ok p =>
      rw [bind_of_answer hk] at ht
      exact ih (h.attempt hk) ht

/-- A window compares the end of a request with its own.  Let `s` be left of the window over `bs`
by any series of requests (`requestEach`).  Then `s` checks a request for `len` bytes rightly if
and only if `s.offset + len` is a 64-bit position.  Otherwise the sum overflows: `len` is more
than what remains, but instead of being refused the request ends the whole series.  As every
offset but zero makes the sum overflow for some 64-bit `len`, a window checks all requests only as
long as nothing has been taken off it.

A `Sink` makes the same comparison, but it and the bytes put into it are spans of memory, and two
of these have less than `2 ^ 64` bytes.  A buffer compares `len` with what remains, so `peek` and
`skip` check every `len`. -/
theorem checksBounds_iff (hbs : bs.length < UInt64.size) (kinds : List Item.Kind)
    (hs : requestEach kinds (.ofBytes bs) = .ok ((), s)) :
    s.offset + s.remaining = bs.length ∧
    (∀ len, s.Checks len ↔ s.offset + len < UInt64.size) ∧
    (∀ len, UInt64.size ≤ s.offset + len → s.remaining < len ∧
      requestEach (kinds ++ [.bytes len]) (.ofBytes bs) = .error .positionOverflow) ∧
    ((∀ len < UInt64.size, s.Checks len) ↔ s.offset = 0) ∧
    (∀ n (t : Sink n) (data : Bytes), n < 2 ^ 63 → data.length < 2 ^ 63 → t.Checks data) ∧
    ∀ (b : Buffer) (len : Nat),
      ChecksBounds (Stream.peek len) b len b.remaining (.underflow b.readPos len b.remaining) ∧
      ChecksBounds (Stream.skip len) b len b.remaining (.underflow b.readPos len b.remaining) := by
  have hover : s.Over bs := (over_ofBytes bs).requestEach hs
  have hlength := hover.remaining_eq
  refine ⟨hlength, fun len => hover.checks_iff hbs, ?breaks, ?all, ?sinks, fun b len =>
    ⟨Stream.checksBounds_peek b len, Stream.checksBounds_skip b len⟩⟩
  case breaks =>
    intro len hposition
    have hlt : s.remaining < len := by omega
    refine ⟨hlt, ?_⟩
    rw [requestEach_append hs, requestEach]
    exact bind_of_misuse ((looksAtEnd_take s len).breaks hlt hposition)
  case all =>
    simp only [hover.checks_iff hbs]
    constructor
    · intro h
      -- the greatest number of bytes still ends at a position only if it is asked for at the start
      have hlast := h (UInt64.size - 1) (by decide)
      have hpos : 0 < UInt64.size := by decide
      omega
    · intro h len hlen
      omega
  case sinks =>
    intro n t data hn hdata
    have hwindow : t.offset + t.remaining = n := t.length_eq
    have hsize : UInt64.size = 2 ^ 63 + 2 ^ 63 := by decide
    exact (Sink.checks_iff (by omega)).2 (by omega)

/-- One byte has been read, and nothing is left. -/
theorem checksBounds_iff_readByte :
    ([1] : Bytes).length < UInt64.size ∧
    requestEach [.scalar .u8 .little] (.ofBytes [1]) = .ok ((), ⟨1, []⟩) ∧
    (∀ len, Checks ⟨1, []⟩ len ↔ 1 + len < UInt64.size) ∧
    requestEach [.scalar .u8 .little, .bytes (UInt64.size - 1)] (.ofBytes [1]) =
      .error .positionOverflow := by
  have hs : requestEach [.scalar .u8 .little] (.ofBytes [1]) = .ok ((), ⟨1, []⟩) := rfl
  have hbs : ([1] : Bytes).length < UInt64.size := by decide
  obtain ⟨-, hchecks, hbreaks, -⟩ := checksBounds_iff hbs _ hs
  exact ⟨hbs, hs, hchecks, (hbreaks (UInt64.size - 1) (by decide)).2⟩

/-- A request for the greatest number of bytes is not refused there: it ends the series. -/
theorem not_checks_readByte :
    requestEach [.scalar .u8 .little] (.ofBytes [1]) = .ok ((), ⟨1, []⟩) ∧
    requestEach [.scalar .u8 .little, .bytes (UInt64.size - 1)] (.ofBytes [1]) =
      .error .positionOverflow ∧
    ¬ Checks ⟨1, []⟩ (UInt64.size - 1) := by
  have hlt : remaining ⟨1, []⟩ < UInt64.size - 1 := by decide
  have htake : attempt (take (UInt64.size - 1)) ⟨1, []⟩ = .error .positionOverflow :=
    (looksAtEnd_take ⟨1, []⟩ _).breaks hlt (by decide)
  have hs : requestEach [.scalar .u8 .little] (.ofBytes [1]) = .ok ((), ⟨1, []⟩) := rfl
  exact ⟨hs, (requestEach_append hs).trans (bind_of_misuse htake), not_checksBounds htake⟩

end Source

end RecordStream
