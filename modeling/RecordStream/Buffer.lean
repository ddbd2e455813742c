import RecordStream.Layout

/-!
# Buffers

A buffer takes bytes at its end and gives them out again from a read position
of its own.  It keeps its storage: bytes that were cleared, or left behind by a
value that could not be written to its end, stay in storage beyond the write
position until they are written over, and nothing ever reads them there.

`written` is the list of the bytes up to the write position, and each operation
has a lemma on what it does to that list.

Operations that can fail are actions of `Stream`, the state monad over buffers;
an action that fails leaves the read position where it was.
-/

namespace RecordStream

structure Buffer where
  /-- The storage in use: the written bytes, and behind them bytes that do not count. -/
  storage : Array UInt8
  /-- The number of bytes written so far. -/
  writePos : Nat
  /-- The number of written bytes that have been read. -/
  readPos : Nat
  /-- The number of bytes that storage is reserved for. -/
  capacity : Nat
  readPos_le : readPos ≤ writePos
  writePos_le : writePos ≤ storage.size
  deriving DecidableEq

namespace Buffer

/-- The capacity of buffers for which none is asked. -/
def defaultCapacity : Nat := 4096

/-- An empty buffer with room for `capacity` bytes. -/
def withCapacity (capacity : Nat) : Buffer :=
  ⟨#[], 0, 0, capacity, Nat.le_refl 0, Nat.le_refl 0⟩

def empty : Buffer := withCapacity defaultCapacity

/-- The storage with the given bytes from `pos` on, in place of what is there; it grows
where they go beyond its end. -/
def overwrite (storage : Array UInt8) (pos : Nat) : Bytes → Array UInt8
  | [] => storage
  | x :: xs =>
    overwrite (if h : pos < storage.size then storage.set pos x else storage.push x) (pos + 1) xs

theorem toList_overwrite {storage : Array UInt8} {pos : Nat} (h : pos ≤ storage.size) (bs : Bytes) :
    (overwrite storage pos bs).toList =
      storage.toList.take pos ++ bs ++ storage.toList.drop (pos + bs.length) := by
  induction bs generalizing storage pos with
  | nil => simp [overwrite]
  | cons x xs ih =>
    have hcons : pos + (x :: xs).length = pos + 1 + xs.length := by
      rw [List.length_cons]
      omega
    rw [overwrite, hcons]
    by_cases hlt : pos < storage.size
    · have hset : (storage.toList.set pos x).take (pos + 1) = storage.toList.take pos ++ [x] := by
        rw [List.take_add_one, List.take_set_of_le (Nat.le_refl pos),
          List.getElem?_set_self (by simpa using hlt)]
        rfl
      rw [dif_pos hlt, ih (by rw [Array.size_set]; omega), Array.toList_set, hset,
        List.drop_set_of_lt (by omega)]
      simp
    · have hend : storage.toList.length = pos := by
        rw [Array.length_toList]
        omega
      have hpush : (storage.push x).toList.length = pos + 1 := by
        rw [Array.toList_push, List.length_append, hend, List.length_singleton]
      rw [dif_neg hlt, ih (by rw [Array.size_push]; omega), List.take_of_length_le (by omega),
        List.drop_eq_nil_of_le (by omega), List.take_of_length_le (by omega),
        List.drop_eq_nil_of_le (by omega), Array.toList_push]
      simp

theorem le_size_overwrite {storage : Array UInt8} {pos : Nat} (h : pos ≤ storage.size)
    (bs : Bytes) : pos + bs.length ≤ (overwrite storage pos bs).size := by
  rw [← Array.length_toList, toList_overwrite h]
  simp only [List.length_append, List.length_take, Array.length_toList]
  omega

variable (b : Buffer)

/-- The bytes written so far, first byte first. -/
def written : Bytes := (b.storage.extract 0 b.writePos).toList

def length : Nat := b.writePos

def isEmpty : Bool := b.writePos = 0

/-- The written bytes that have not been read. -/
def unread : Bytes := b.written.drop b.readPos

def remaining : Nat := b.writePos - b.readPos

/-- The `n` bytes of the storage behind those that have been read. -/
def next (n : Nat) : Bytes := (b.storage.extract b.readPos (b.readPos + n)).toList

theorem written_eq : b.written = b.storage.toList.take b.writePos := by
  simp [written, List.extract_eq_take_drop]

@[simp] theorem length_written : b.written.length = b.length := by
  have := b.writePos_le
  rw [written_eq, List.length_take, Array.length_toList, length]
  omega

@[simp] theorem length_unread : b.unread.length = b.remaining := by
  rw [unread, List.length_drop, length_written, length, remaining]

/-- As long as there are that many unread bytes, the next ones are among them. -/
theorem next_eq {n : Nat} (h : n ≤ b.remaining) : b.next n = b.unread.take n := by
  rw [remaining] at h
  rw [next, unread, written_eq, Array.toList_extract, List.extract_eq_take_drop, List.drop_take,
    List.take_take]
  congr 1
  omega

/-- Forgets all bytes and keeps the storage. -/
def clear : Buffer :=
  { b with
    writePos := 0
    readPos := 0
    readPos_le := Nat.le_refl 0
    writePos_le := Nat.zero_le _ }

/-- Goes back to the first byte. -/
def rewind : Buffer :=
  { b with
    readPos := 0
    readPos_le := Nat.zero_le _ }

/-- The capacity after storage has grown to `n` bytes: at least doubled if it was
too small. -/
def grownCapacity (n : Nat) : Nat :=
  if n ≤ b.capacity then b.capacity else max (max (2 * b.capacity) n) 8

/-- Writes the given bytes. -/
def append (bs : Bytes) : Buffer :=
  -- The capacity comes first: the storage is then taken out of `b` and changed in place.
  let capacity := b.grownCapacity (b.length + bs.length)
  { storage := overwrite b.storage b.writePos bs
    writePos := b.writePos + bs.length
    readPos := b.readPos
    capacity
    readPos_le := Nat.le_trans b.readPos_le (Nat.le_add_right _ _)
    writePos_le := le_size_overwrite b.writePos_le bs }

/-- The next `n` bytes of the storage behind the written ones, with zeros where it
ends. -/
def window (n : Nat) : Sink n :=
  .ofBytes ((b.storage.extract b.writePos (b.writePos + n)).toList ++
      List.replicate (n - (b.storage.size - b.writePos)) 0) (by
    simp only [List.length_append, Array.length_toList, Array.size_extract, List.length_replicate]
    omega)

/-- Leaves the given bytes in the storage behind the written ones. -/
def abandon (bs : Bytes) : Buffer :=
  let capacity := b.grownCapacity (b.length + bs.length)
  { storage := overwrite b.storage b.writePos bs
    writePos := b.writePos
    readPos := b.readPos
    capacity
    readPos_le := b.readPos_le
    writePos_le := Nat.le_trans (Nat.le_add_right _ _) (le_size_overwrite b.writePos_le bs) }

/-- Counts the next `n` bytes as read. -/
def advance (n : Nat) (h : n ≤ b.remaining) : Buffer :=
  { b with
    readPos := b.readPos + n
    readPos_le := by
      have := b.readPos_le
      unfold remaining at h
      omega }

/-- Replaces the contents, as if they had just been written. -/
def load (bs : Bytes) : Buffer where
  storage := bs.toArray
  writePos := bs.length
  readPos := 0
  capacity := max bs.length b.capacity
  readPos_le := Nat.zero_le _
  writePos_le := Nat.le_refl _

/-- A buffer with the same contents and no more storage than it needs. -/
def copy : Buffer :=
  { b with capacity := b.storage.size }

@[simp] theorem written_withCapacity (capacity : Nat) : (withCapacity capacity).written = [] := rfl

@[simp] theorem written_clear : b.clear.written = [] := by
  simp [written, clear]

@[simp] theorem written_rewind : b.rewind.written = b.written := rfl

@[simp] theorem written_append (bs : Bytes) : (b.append bs).written = b.written ++ bs := by
  have hpos : (b.storage.toList.take b.writePos).length = b.writePos := by
    rw [List.length_take, Array.length_toList, Nat.min_eq_left b.writePos_le]
  rw [written_eq, written_eq, append, toList_overwrite b.writePos_le]
  apply List.take_left'
  rw [List.length_append, hpos]

@[simp] theorem written_abandon (bs : Bytes) : (b.abandon bs).written = b.written := by
  have hpos : (b.storage.toList.take b.writePos).length = b.writePos := by
    rw [List.length_take, Array.length_toList, Nat.min_eq_left b.writePos_le]
  rw [written_eq, written_eq, abandon, toList_overwrite b.writePos_le, List.append_assoc]
  exact List.take_left' hpos

@[simp] theorem written_advance (n : Nat) (h : n ≤ b.remaining) :
    (b.advance n h).written = b.written := rfl

@[simp] theorem written_load (bs : Bytes) : (b.load bs).written = bs := by
  simp [written, load]

@[simp] theorem written_copy : b.copy.written = b.written := rfl

end Buffer

/-- An operation on a buffer that may fail. -/
abbrev Stream := EStateM Fault Buffer

namespace Stream

variable {α : Type}

/-- Writes bytes as they are. -/
def append (bs : Bytes) : Stream Unit := fun b =>
  .ok () (b.append bs)

/-- Writes a value.  The bytes of a value that cannot be written to its end do not
count as written. -/
def write (L : Layout α) (a : α) : Stream Unit := fun b =>
  match L.put a (b.window L.size) with
  | .ok _ s => .ok () (b.append s.contents)
  | .error f s => .error f (b.abandon s.contents)

/-- Counts the next `n` bytes as read. -/
def skip (n : Nat) : Stream Unit := fun b =>
  if h : n ≤ b.remaining then .ok () (b.advance n h)
  else .error (.underflow b.readPos n b.remaining) b

/-- The next `n` bytes, which remain unread. -/
def peek (n : Nat) : Stream Bytes := fun b =>
  if n ≤ b.remaining then .ok (b.next n) b
  else .error (.underflow b.readPos n b.remaining) b

/-- Reads the next `n` bytes. -/
def readBytes (n : Nat) : Stream Bytes := do
  let bs ← peek n
  skip n
  return bs

/-- Reads as many bytes as `dest` has and puts them in their place.  If there are too
few, `dest` keeps what it holds. -/
def readInto (dest : Bytes) (b : Buffer) : Bytes × EStateM.Result Fault Buffer Unit :=
  match readBytes dest.length b with
  | .ok bs b => (bs, .ok () b)
  | .error f b => (dest, .error f b)

/-- Reads a value.  Bytes that are no value remain unread. -/
def read (L : Layout α) : Stream α := do
  let bs ← peek L.size
  match L.take (.ofBytes bs) with
  | .ok a _ =>
    skip L.size
    return a
  | .error f _ => throw f

end Stream

end RecordStream
