import RecordStream.Proofs.Stream
import RecordStream.Sample

/-!
# Buffers are lists with a position

Seen from outside, a buffer is a list of bytes and a position in it: `Plain` is that
and nothing more.  Its operations are stated with lists alone; it has no storage, and
no bytes are kept that do not count.

A `Buffer.Call` is an operation with its arguments, indexed by the type of the reply.
A buffer and the list that it stands for answer every call alike, and stand for each
other afterwards (`Buffer.Stands.answer`); hence they do so for any series of calls.
Writing is where this needs an argument: it goes to a window that shows the bytes left
in storage, and layouts do not look at the window that they fill.

No call asks for the capacity, so a copy answers like the original
(`Buffer.transcript_copy`).
-/

namespace RecordStream

namespace Layout

variable {α : Type}

/-- Writing the value fills the window, unless it fails. -/
def Exact (L : Layout α) (a : α) : Prop :=
  ∀ s, L.put a (Sink.ofByte L.size 0) = .ok () s → s.free = []

end Layout

namespace Stream

variable {α : Type} {L : Layout α} {a : α} {bs : Bytes} {f : Fault}

/-- The window of a buffer is filled like one of zeros. -/
theorem agree_window (L : Layout α) (a : α) (b : Buffer) :
    Sink.Agree (L.put a (b.window L.size)) (L.put a (Sink.ofByte L.size 0)) :=
  L.put_blind a rfl

/-- A value that can be encoded is written: the window is filled with the same bytes as one of
zeros, and holds what it held before behind them. -/
theorem exists_write_eq_ok (h : L.encode a = .ok bs) (b : Buffer) :
    ∃ s t : Sink L.size, write L a b = .ok () (b.append s.contents) ∧
      L.put a (Sink.ofByte L.size 0) = .ok () t ∧ t.contents = bs ∧ s.filled = t.filled := by
  have hagree := agree_window L a b
  cases hput : L.put a (Sink.ofByte L.size 0) with
  | error f t =>
    rw [Layout.encode, hput] at h
    cases h
  | ok u t =>
    rw [Layout.encode, hput] at h
    rw [hput] at hagree
    cases h
    generalize hwindow : L.put a (b.window L.size) = result at hagree
    cases hagree with
    | @ok _ s _ hfilled =>
      refine ⟨s, t, ?_, rfl, rfl, hfilled⟩
      rw [write, hwindow]

theorem write_of_encode_eq_ok (hexact : L.Exact a) (h : L.encode a = .ok bs) (b : Buffer) :
    write L a b = .ok () (b.append bs) := by
  obtain ⟨s, t, hwrite, hput, rfl, hfilled⟩ := exists_write_eq_ok h b
  -- both windows are full, so nothing is left of what they held before
  have hfree : t.free = [] := hexact t hput
  have hfree' : s.free = [] := by
    have hs := s.length_eq
    have ht := t.length_eq
    rw [hfree, ← hfilled, List.length_nil] at ht
    exact List.eq_nil_of_length_eq_zero (by omega)
  rw [hwrite, Sink.contents, Sink.contents, hfilled, hfree, hfree']

/-- What of a value was written before the fault does not count. -/
theorem write_of_encode_eq_error (h : L.encode a = .error f) (b : Buffer) :
    ∃ bs, write L a b = .error f (b.abandon bs) := by
  have hagree := agree_window L a b
  cases hput : L.put a (Sink.ofByte L.size 0) with
  | ok u t =>
    rw [Layout.encode, hput] at h
    cases h
  | error g t =>
    rw [Layout.encode, hput] at h
    rw [hput] at hagree
    cases h
    generalize hwindow : L.put a (b.window L.size) = result at hagree
    cases hagree with
    | @error _ s _ hfilled =>
      refine ⟨s.contents, ?_⟩
      rw [write, hwindow]

/-- Reading decodes the next bytes, and counts them as read if that goes well. -/
theorem read_eq_of_le {b : Buffer} (h : L.size ≤ b.remaining) :
    read L b =
      match L.decode (b.unread.take L.size) with
      | .ok a => .ok a (b.advance L.size h)
      | .error f => .error f b := by
  have hlen : (b.unread.take L.size).length = L.size := by
    rw [List.length_take, Buffer.length_unread, Nat.min_eq_left h]
  rw [read_of_le h, Layout.decode, if_pos hlen]
  cases L.take (.ofBytes (b.unread.take L.size)) with
  | ok a s => rfl
  | error f s => rfl

theorem readBytes_of_le {n : Nat} {b : Buffer} (h : n ≤ b.remaining) :
    readBytes n b = .ok (b.unread.take n) (b.advance n h) := by
  rw [readBytes, bind_of_ok (peek_of_le h), bind_of_ok (skip_of_le h)]
  rfl

theorem readBytes_of_lt {n : Nat} {b : Buffer} (h : b.remaining < n) :
    readBytes n b = .error (.underflow b.readPos n b.remaining) b :=
  bind_of_error (peek_of_lt h)

end Stream

/-! ## Calls -/

/-- What can be done to a buffer, by the type of the reply. -/
inductive Buffer.Call : Type → Type 1 where
  | append (bs : Bytes) : Call (Except Fault Unit)
  | write {α : Type} (L : Layout α) (a : α) : Call (Except Fault Unit)
  | read {α : Type} (L : Layout α) : Call (Except Fault α)
  | readInto (dest : Bytes) : Call (Bytes × Except Fault Unit)
  | peek (n : Nat) : Call (Except Fault Bytes)
  | skip (n : Nat) : Call (Except Fault Unit)
  | rewind : Call Unit
  | clear : Call Unit

/-- A value that is written fills its window. -/
def Buffer.Call.Exact {ρ : Type} : Buffer.Call ρ → Prop
  | .write L a => L.Exact a
  | _ => True

/-- What can be seen of a buffer. -/
structure Observation where
  written : Bytes
  length : Nat
  readPos : Nat
  remaining : Nat
  isEmpty : Bool
  deriving DecidableEq

namespace Buffer

variable {ρ β : Type}

/-- The value or the fault, and the buffer that is left. -/
def settle : EStateM.Result Fault Buffer β → Except Fault β × Buffer
  | .ok a b => (.ok a, b)
  | .error f b => (.error f, b)

/-- What a buffer replies to a call, and what it is afterwards. -/
def answer : Call ρ → Buffer → ρ × Buffer
  | .append bs, b => settle (Stream.append bs b)
  | .write L a, b => settle (Stream.write L a b)
  | .read L, b => settle (Stream.read L b)
  | .readInto dest, b =>
    let p := Stream.readInto dest b
    ((p.1, (settle p.2).1), (settle p.2).2)
  | .peek n, b => settle (Stream.peek n b)
  | .skip n, b => settle (Stream.skip n b)
  | .rewind, b => ((), b.rewind)
  | .clear, b => ((), b.clear)

def observe (b : Buffer) : Observation :=
  ⟨b.written, b.length, b.readPos, b.remaining, b.isEmpty⟩

end Buffer

/-- A list of bytes, and the number of those that have been read. -/
structure Plain where
  written : Bytes
  pos : Nat

namespace Plain

variable {ρ : Type}

def empty : Plain := ⟨[], 0⟩

def remaining (p : Plain) : Nat := p.written.length - p.pos

def next (p : Plain) (n : Nat) : Bytes := (p.written.drop p.pos).take n

def append (p : Plain) (bs : Bytes) : Plain := { p with written := p.written ++ bs }

def advance (p : Plain) (n : Nat) : Plain := { p with pos := p.pos + n }

def underflow (p : Plain) (n : Nat) : Fault := .underflow p.pos n p.remaining

/-- What a list of bytes replies to a call, and what it is afterwards. -/
def answer : Buffer.Call ρ → Plain → ρ × Plain
  | .append bs, p => (.ok (), p.append bs)
  | .write L a, p =>
    match L.encode a with
    | .ok bs => (.ok (), p.append bs)
    | .error f => (.error f, p)
  | .read L, p =>
    if L.size ≤ p.remaining then
      match L.decode (p.next L.size) with
      | .ok a => (.ok a, p.advance L.size)
      | .error f => (.error f, p)
    else (.error (p.underflow L.size), p)
  | .readInto dest, p =>
    if dest.length ≤ p.remaining then ((p.next dest.length, .ok ()), p.advance dest.length)
    else ((dest, .error (p.underflow dest.length)), p)
  | .peek n, p =>
    if n ≤ p.remaining then (.ok (p.next n), p) else (.error (p.underflow n), p)
  | .skip n, p =>
    if n ≤ p.remaining then (.ok (), p.advance n) else (.error (p.underflow n), p)
  | .rewind, p => ((), { p with pos := 0 })
  | .clear, _ => ((), empty)

def observe (p : Plain) : Observation :=
  ⟨p.written, p.written.length, p.pos, p.remaining, p.written.isEmpty⟩

end Plain

/-! ## Buffers stand for lists -/

/-- The buffer has the bytes of the list, and as many of them have been read. -/
structure Buffer.Stands (b : Buffer) (p : Plain) : Prop where
  written_eq : b.written = p.written
  readPos_eq : b.readPos = p.pos

namespace Buffer.Stands

variable {ρ : Type} {b : Buffer} {p : Plain} {bs : Bytes} {n : Nat}

theorem length_eq (h : b.Stands p) : b.length = p.written.length := by
  rw [← length_written, h.written_eq]

theorem remaining_eq (h : b.Stands p) : b.remaining = p.remaining := by
  rw [remaining, Plain.remaining, ← h.readPos_eq, ← h.length_eq, length]

theorem unread_take (h : b.Stands p) (n : Nat) : b.unread.take n = p.next n := by
  rw [unread, Plain.next, h.written_eq, h.readPos_eq]

theorem underflow_eq (h : b.Stands p) (n : Nat) :
    Fault.underflow b.readPos n b.remaining = p.underflow n := by
  rw [Plain.underflow, h.readPos_eq, h.remaining_eq]

theorem observe_eq (h : b.Stands p) : b.observe = p.observe := by
  have hempty : b.isEmpty = p.written.isEmpty := by
    rw [isEmpty, ← length, h.length_eq]
    cases p.written <;> rfl
  rw [observe, Plain.observe, h.written_eq, h.length_eq, h.readPos_eq, h.remaining_eq, hempty]

theorem append (h : b.Stands p) (bs : Bytes) : (b.append bs).Stands (p.append bs) :=
  ⟨by rw [written_append, h.written_eq]; rfl, h.readPos_eq⟩

theorem abandon (h : b.Stands p) (bs : Bytes) : (b.abandon bs).Stands p :=
  ⟨by rw [written_abandon, h.written_eq], h.readPos_eq⟩

theorem advance (h : b.Stands p) (hn : n ≤ b.remaining) :
    (b.advance n hn).Stands (p.advance n) :=
  ⟨h.written_eq, congrArg (· + n) h.readPos_eq⟩

theorem rewind (h : b.Stands p) : b.rewind.Stands { p with pos := 0 } :=
  ⟨h.written_eq, rfl⟩

theorem clear (b : Buffer) : b.clear.Stands .empty :=
  ⟨written_clear b, rfl⟩

theorem withCapacity (capacity : Nat) : (Buffer.withCapacity capacity).Stands .empty :=
  ⟨rfl, rfl⟩

/-- One call is answered alike. -/
def Answers (c : Call ρ) (b : Buffer) (p : Plain) : Prop :=
  (b.answer c).1 = (p.answer c).1 ∧ (b.answer c).2.Stands (p.answer c).2

variable {α : Type} {L : Layout α}

theorem answers_write (h : b.Stands p) {a : α} (hexact : L.Exact a) :
    Answers (.write L a) b p := by
  cases hencode : L.encode a with
  | ok bs =>
    rw [Answers, Buffer.answer, Stream.write_of_encode_eq_ok hexact hencode, Plain.answer, hencode]
    exact ⟨rfl, h.append bs⟩
  | error f =>
    obtain ⟨bs, hwrite⟩ := Stream.write_of_encode_eq_error hencode b
    rw [Answers, Buffer.answer, hwrite, Plain.answer, hencode]
    exact ⟨rfl, h.abandon bs⟩

theorem answers_read (h : b.Stands p) (L : Layout α) : Answers (.read L) b p := by
  rw [Answers, Buffer.answer, Plain.answer]
  by_cases hle : L.size ≤ b.remaining
  · rw [if_pos (h.remaining_eq ▸ hle), Stream.read_eq_of_le hle, h.unread_take]
    cases L.decode (p.next L.size) with
    | ok a => exact ⟨rfl, h.advance hle⟩
    | error f => exact ⟨rfl, h⟩
  · rw [if_neg (h.remaining_eq ▸ hle), Stream.read_of_lt (Nat.not_le.1 hle), h.underflow_eq]
    exact ⟨rfl, h⟩

theorem answers_readInto (h : b.Stands p) (dest : Bytes) : Answers (.readInto dest) b p := by
  rw [Answers, Buffer.answer, Plain.answer, Stream.readInto]
  by_cases hle : dest.length ≤ b.remaining
  · rw [if_pos (h.remaining_eq ▸ hle), Stream.readBytes_of_le hle, h.unread_take]
    exact ⟨rfl, h.advance hle⟩
  · rw [if_neg (h.remaining_eq ▸ hle), Stream.readBytes_of_lt (Nat.not_le.1 hle), h.underflow_eq]
    exact ⟨rfl, h⟩

theorem answers_peek (h : b.Stands p) (n : Nat) : Answers (.peek n) b p := by
  rw [Answers, Buffer.answer, Plain.answer]
  by_cases hle : n ≤ b.remaining
  · rw [if_pos (h.remaining_eq ▸ hle), Stream.peek_of_le hle, h.unread_take]
    exact ⟨rfl, h⟩
  · rw [if_neg (h.remaining_eq ▸ hle), Stream.peek_of_lt (Nat.not_le.1 hle), h.underflow_eq]
    exact ⟨rfl, h⟩

theorem answers_skip (h : b.Stands p) (n : Nat) : Answers (.skip n) b p := by
  rw [Answers, Buffer.answer, Plain.answer]
  by_cases hle : n ≤ b.remaining
  · rw [if_pos (h.remaining_eq ▸ hle), Stream.skip_of_le hle]
    exact ⟨rfl, h.advance hle⟩
  · rw [if_neg (h.remaining_eq ▸ hle), Stream.skip_of_lt (Nat.not_le.1 hle), h.underflow_eq]
    exact ⟨rfl, h⟩

/-- Every call is answered alike. -/
theorem answers (h : b.Stands p) (c : Call ρ) (hexact : c.Exact) : Answers c b p := by
  cases c with
  | append bs => exact ⟨rfl, h.append bs⟩
  | write L a => exact h.answers_write hexact
  | read L => exact h.answers_read L
  | readInto dest => exact h.answers_readInto dest
  | peek n => exact h.answers_peek n
  | skip n => exact h.answers_skip n
  | rewind => exact ⟨rfl, h.rewind⟩
  | clear => exact ⟨rfl, clear b⟩

end Buffer.Stands

/-! ## Series of calls -/

namespace Buffer

/-- The replies to some calls, each with what is seen after it. -/
def transcript {σ : Type} (answer : {ρ : Type} → Call ρ → σ → ρ × σ) (observe : σ → Observation) :
    List (Sigma Call) → σ → List ((ρ : Type) × ρ × Observation)
  | [], _ => []
  | ⟨ρ, c⟩ :: calls, s =>
    ⟨ρ, (answer c s).1, observe (answer c s).2⟩ :: transcript answer observe calls (answer c s).2

/-- What a buffer is after some calls. -/
def after (calls : List (Sigma Call)) (b : Buffer) : Buffer :=
  calls.foldl (fun b c => (b.answer c.2).2) b

theorem Stands.transcript_eq {b : Buffer} {p : Plain} (h : b.Stands p)
    {calls : List (Sigma Call)} (hexact : ∀ c ∈ calls, c.2.Exact) :
    transcript answer observe calls b = transcript Plain.answer Plain.observe calls p := by
  induction calls generalizing b p with
  | nil => rfl
  | cons c calls ih =>
    obtain ⟨ρ, c⟩ := c
    obtain ⟨hreply, hstands⟩ := h.answers c (hexact _ List.mem_cons_self)
    have hrest := ih hstands fun c hc => hexact c (List.mem_cons_of_mem _ hc)
    rw [transcript, transcript, hreply, hstands.observe_eq, hrest]

/-- A buffer made with any capacity has the same `transcript` as the plain list `Plain.empty`:
every answer to a call and everything observed between two calls agree, for any calls in any
order.  The read position never passes the write position, nor this one the end of the storage. -/
theorem transcript_withCapacity (capacity : Nat) {calls : List (Sigma Call)}
    (hexact : ∀ c ∈ calls, c.2.Exact) :
    transcript answer observe calls (withCapacity capacity) =
        transcript Plain.answer Plain.observe calls .empty ∧
      ∀ done rest, calls = done ++ rest →
        let b := after done (withCapacity capacity)
        b.readPos ≤ b.writePos ∧ b.writePos ≤ b.storage.size := by
  refine ⟨(Stands.withCapacity capacity).transcript_eq hexact, ?_⟩
  intro done rest _ b
  exact ⟨b.readPos_le, b.writePos_le⟩

/-- A value that does not fit leaves bytes in storage, and so does clearing; the word that
is written over them is read alone. -/
theorem transcript_withCapacity_overrun :
    transcript answer observe
        [⟨_, .write Overrun.layout ⟨1, 2⟩⟩, ⟨_, .append [9, 9, 9]⟩, ⟨_, .clear⟩,
          ⟨_, .write (.word .native) (7 : UInt16)⟩, ⟨_, .readInto [0, 0, 0]⟩,
          ⟨_, .read Layout.bool⟩, ⟨_, .read (.word .native : Layout UInt16)⟩]
        (withCapacity 2) =
      transcript Plain.answer Plain.observe
        [⟨_, .write Overrun.layout ⟨1, 2⟩⟩, ⟨_, .append [9, 9, 9]⟩, ⟨_, .clear⟩,
          ⟨_, .write (.word .native) (7 : UInt16)⟩, ⟨_, .readInto [0, 0, 0]⟩,
          ⟨_, .read Layout.bool⟩, ⟨_, .read (.word .native : Layout UInt16)⟩]
        .empty := by
  refine (transcript_withCapacity 2 ?_).1
  simp only [List.forall_mem_cons]
  refine ⟨?_, trivial, trivial, ?_, trivial, trivial, trivial, ?_⟩
  · intro s h
    have hput : Overrun.layout.put ⟨1, 2⟩ (Sink.ofByte 6 0) =
        .error (.writeFailed 4 "buffer too small") ⟨[1, 0, 0, 0], [0, 0], rfl⟩ := rfl
    exact absurd (hput.symm.trans h) (by simp)
  · intro s h
    cases h
    rfl
  · intro c hc
    exact absurd hc List.not_mem_nil

/-! ## Copies -/

/-- Calls are answered alike by a buffer and by its copy, which differ in their capacities. -/
theorem answer_copy (c : Call ρ) (b : Buffer) :
    (b.copy.answer c).1 = (b.answer c).1 ∧ (b.copy.answer c).2.copy = (b.answer c).2.copy := by
  cases c with
  | append bs => exact ⟨rfl, rfl⟩
  | write L a =>
    have hwindow : b.copy.window L.size = b.window L.size := rfl
    rw [answer, answer, Stream.write, Stream.write, hwindow]
    cases L.put a (b.window L.size) with
    | ok u s => exact ⟨rfl, rfl⟩
    | error f s => exact ⟨rfl, rfl⟩
  | read L =>
    rw [answer, answer]
    by_cases hle : L.size ≤ b.remaining
    · have hunread : b.copy.unread = b.unread := rfl
      rw [Stream.read_eq_of_le hle, Stream.read_eq_of_le (b := b.copy) hle, hunread]
      cases L.decode (b.unread.take L.size) with
      | ok a => exact ⟨rfl, rfl⟩
      | error f => exact ⟨rfl, rfl⟩
    · rw [Stream.read_of_lt (Nat.not_le.1 hle), Stream.read_of_lt (b := b.copy) (Nat.not_le.1 hle)]
      exact ⟨rfl, rfl⟩
  | readInto dest =>
    rw [answer, answer, Stream.readInto, Stream.readInto]
    by_cases hle : dest.length ≤ b.remaining
    · rw [Stream.readBytes_of_le hle, Stream.readBytes_of_le (b := b.copy) hle]
      exact ⟨rfl, rfl⟩
    · rw [Stream.readBytes_of_lt (Nat.not_le.1 hle),
        Stream.readBytes_of_lt (b := b.copy) (Nat.not_le.1 hle)]
      exact ⟨rfl, rfl⟩
  | peek n =>
    rw [answer, answer]
    by_cases hle : n ≤ b.remaining
    · rw [Stream.peek_of_le hle, Stream.peek_of_le (b := b.copy) hle]
      exact ⟨rfl, rfl⟩
    · rw [Stream.peek_of_lt (Nat.not_le.1 hle), Stream.peek_of_lt (b := b.copy) (Nat.not_le.1 hle)]
      exact ⟨rfl, rfl⟩
  | skip n =>
    rw [answer, answer]
    by_cases hle : n ≤ b.remaining
    · rw [Stream.skip_of_le hle, Stream.skip_of_le (b := b.copy) hle]
      exact ⟨rfl, rfl⟩
    · rw [Stream.skip_of_lt (Nat.not_le.1 hle), Stream.skip_of_lt (b := b.copy) (Nat.not_le.1 hle)]
      exact ⟨rfl, rfl⟩
  | rewind => exact ⟨rfl, rfl⟩
  | clear => exact ⟨rfl, rfl⟩

@[simp] theorem observe_copy (b : Buffer) : b.copy.observe = b.observe := rfl

theorem transcript_copy (calls : List (Sigma Call)) (b : Buffer) :
    transcript answer observe calls b.copy = transcript answer observe calls b := by
  induction calls generalizing b with
  | nil => rfl
  | cons c calls ih =>
    obtain ⟨ρ, c⟩ := c
    obtain ⟨hreply, hcopy⟩ := answer_copy c b
    have hobserve : (b.copy.answer c).2.observe = (b.answer c).2.observe := by
      rw [← observe_copy, hcopy, observe_copy]
    have hrest := ih (b.copy.answer c).2
    rw [hcopy, ih] at hrest
    rw [transcript, transcript, hreply, hobserve, hrest]

/-- Buffers that differ in nothing but their capacities cannot be told apart. -/
theorem transcript_eq_of_copy_eq {b b' : Buffer} (h : b.copy = b'.copy)
    (calls : List (Sigma Call)) :
    transcript answer observe calls b = transcript answer observe calls b' := by
  rw [← transcript_copy, h, transcript_copy]

/-- Nothing is left of a buffer, in storage or elsewhere, but its capacity. -/
theorem copy_load (b : Buffer) (bs : Bytes) : (b.load bs).copy = (empty.append bs).copy := by
  have hstorage : overwrite #[] 0 bs = bs.toArray := by
    rw [← Array.toList_inj, toList_overwrite (Nat.le_refl 0)]
    simp
  simp only [load, append, copy, empty, withCapacity, hstorage, Nat.zero_add]

end Buffer

end RecordStream
