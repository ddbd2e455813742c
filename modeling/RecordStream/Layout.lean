import RecordStream.Window
import RecordStream.Word

/-!
# Layouts

A layout says how the values of a type are written in a fixed number of bytes,
without padding, and read back.  Layouts are built from words, booleans and
blocks by putting them behind each other (`pair`) and by naming the parts
(`imap`); `checked` adds a check to reading, for types whose values do not use up
all byte patterns.
-/

namespace RecordStream

structure Layout (α : Type) where
  /-- The number of bytes of every value. -/
  size : Nat
  put : {n : Nat} → α → EStateM Fault (Sink n) Unit
  take : EStateM Fault Source α
  /-- What is put does not depend on the bytes that are overwritten. -/
  put_blind : ∀ {n : Nat} (a : α), Sink.Blind (put a : EStateM Fault (Sink n) Unit)

namespace Layout

variable {α β ω : Type}

/-- The bytes of a value, written into a window of just the right size. -/
def encode (L : Layout α) (a : α) : Except Fault Bytes :=
  match L.put a (Sink.ofByte L.size 0) with
  | .ok _ s => .ok s.contents
  | .error f _ => .error f

/-- The value of exactly `L.size` bytes. -/
def decode (L : Layout α) (bs : Bytes) : Except Fault α :=
  if bs.length = L.size then
    match L.take (.ofBytes bs) with
    | .ok a _ => .ok a
    | .error f _ => .error f
  else .error (.invalidData (.length L.size bs.length))

/-! ## Building layouts -/

/-- Words in the given byte order. -/
def word [Word ω] (o : ByteOrder) : Layout ω where
  size := Word.width ω
  put w := Sink.put (Word.bytes o w)
  take := do
    let b ← Source.take (Word.width ω)
    return Word.ofBytes o b.toBytes
  put_blind _ := Sink.blind_put _

/-- Blocks of `n` bytes, as they are. -/
def block (n : Nat) : Layout (Block n) where
  size := n
  put b := Sink.put b.toBytes
  take := Source.take n
  put_blind _ := Sink.blind_put _

/-- No bytes at all; reading gives the value `a`. -/
def nothing (a : α) : Layout α where
  size := 0
  put _ := pure ()
  take := pure a
  put_blind _ := Sink.blind_pure ()

/-- One value, then another. -/
def pair (L : Layout α) (M : Layout β) : Layout (α × β) where
  size := L.size + M.size
  put p := do
    L.put p.1
    M.put p.2
  take := do
    let a ← L.take
    let b ← M.take
    return (a, b)
  put_blind p := (L.put_blind p.1).bind fun _ => M.put_blind p.2

/-- A type with the same values as another, written as those. -/
def imap (L : Layout α) (f : α → β) (g : β → α) : Layout β where
  size := L.size
  put b := L.put (g b)
  take := do
    let a ← L.take
    return f a
  put_blind b := L.put_blind (g b)

/-- A type whose values are some of another's; the rest is refused on reading. -/
def checked (L : Layout α) (f : α → Except Fault β) (g : β → α) : Layout β where
  size := L.size
  put b := L.put (g b)
  take := do
    let a ← L.take
    match f a with
    | .ok b => return b
    | .error fault => throw fault
  put_blind b := L.put_blind (g b)

/-- The truth value of a byte. -/
def boolOfByte : UInt8 → Except Fault Bool
  | 0 => .ok false
  | 1 => .ok true
  | b => .error (.invalidData (.boolByte b))

/-- Truth values, in one byte that is `0` or `1`. -/
def bool : Layout Bool :=
  (word .native).checked boolOfByte Bool.toUInt8

@[simp] theorem size_word [Word ω] (o : ByteOrder) : (word o : Layout ω).size = Word.width ω := rfl

@[simp] theorem size_block (n : Nat) : (block n).size = n := rfl

@[simp] theorem size_nothing (a : α) : (nothing a).size = 0 := rfl

@[simp] theorem size_pair (L : Layout α) (M : Layout β) :
    (L.pair M).size = L.size + M.size := rfl

@[simp] theorem size_imap (L : Layout α) (f : α → β) (g : β → α) :
    (L.imap f g).size = L.size := rfl

@[simp] theorem size_checked (L : Layout α) (f : α → Except Fault β) (g : β → α) :
    (L.checked f g).size = L.size := rfl

@[simp] theorem size_bool : bool.size = 1 := rfl

end Layout

end RecordStream
