import RecordStream.Fault

/-!
# Windows

A window is a span of bytes of fixed length that is used up from its front: a
`Source` is read, a `Sink` is filled.  A request that does not fit fails with the
offset at which it was made and moves nothing, so the next request goes on from
there.  Only a request whose end is no 64-bit position ends everything
(`Misuse.positionOverflow`).
-/

namespace RecordStream

/-- A block of exactly `n` bytes. -/
structure Block (n : Nat) where
  toBytes : Bytes
  length_toBytes : toBytes.length = n
  deriving DecidableEq

namespace Block

def zeros (n : Nat) : Block n :=
  ⟨List.replicate n 0, List.length_replicate⟩

/-- The block with the given byte at place `i`. -/
def set {n : Nat} (b : Block n) (i : Nat) (x : UInt8) : Block n :=
  ⟨b.toBytes.set i x, List.length_set.trans b.length_toBytes⟩

@[simp] theorem toBytes_set {n : Nat} (b : Block n) (i : Nat) (x : UInt8) :
    (b.set i x).toBytes = b.toBytes.set i x := rfl

end Block

/-- The fault of a request for `len` bytes at `offset` that does not fit.  A window compares
the end of the request with its own, and offsets are 64-bit positions: if `offset + len`
is none, the sum overflows.  That is a misuse, which ends a run of requests (`attempt`). -/
def requestFault (refuse : Nat → String → Fault) (reason : String) (offset len : Nat) : Fault :=
  if offset + len < UInt64.size then refuse offset reason else .misuse .positionOverflow

/-! ## Reading -/

/-- A window that is read: `offset` bytes are behind, `rest` are ahead. -/
structure Source where
  offset : Nat
  rest : Bytes
  deriving DecidableEq

namespace Source

/-- The unread window over the given bytes. -/
def ofBytes (bs : Bytes) : Source :=
  ⟨0, bs⟩

def remaining (s : Source) : Nat :=
  s.rest.length

def isEnd (s : Source) : Bool :=
  s.rest.isEmpty

/-- The next `n` bytes. -/
def take (n : Nat) : EStateM Fault Source (Block n) := fun s =>
  if h : n ≤ s.rest.length then
    .ok ⟨s.rest.take n, List.length_take_of_le h⟩ ⟨s.offset + n, s.rest.drop n⟩
  else
    .error (requestFault .readFailed "unexpected end of buffer" s.offset n) s

theorem take_of_le {n : Nat} {s : Source} (h : n ≤ s.rest.length) :
    take n s = .ok ⟨s.rest.take n, List.length_take_of_le h⟩ ⟨s.offset + n, s.rest.drop n⟩ :=
  dif_pos h

theorem take_of_lt {n : Nat} {s : Source} (h : s.rest.length < n) :
    take n s =
      .error (requestFault .readFailed "unexpected end of buffer" s.offset n) s :=
  dif_neg (by omega)

end Source

/-! ## Writing -/

/-- A window of `n` bytes that is filled: `free` still holds what was there before. -/
structure Sink (n : Nat) where
  filled : Bytes
  free : Bytes
  length_eq : filled.length + free.length = n
  deriving DecidableEq

namespace Sink

variable {n : Nat}

/-- The window over the given bytes, nothing of it filled. -/
def ofBytes (bs : Bytes) (h : bs.length = n) : Sink n :=
  ⟨[], bs, by simpa using h⟩

/-- A window of `n` equal bytes. -/
def ofByte (n : Nat) (b : UInt8) : Sink n :=
  .ofBytes (List.replicate n b) (by simp)

def offset (s : Sink n) : Nat :=
  s.filled.length

def remaining (s : Sink n) : Nat :=
  s.free.length

/-- All bytes of the window. -/
def contents (s : Sink n) : Bytes :=
  s.filled ++ s.free

@[simp] theorem length_contents (s : Sink n) : s.contents.length = n := by
  simp [contents, s.length_eq]

/-- The window after some bytes have been filled in. -/
def fill (s : Sink n) (bs : Bytes) (h : bs.length ≤ s.free.length) : Sink n :=
  ⟨s.filled ++ bs, s.free.drop bs.length, by
    have := s.length_eq
    simp
    omega⟩

/-- Fills in the given bytes. -/
def put (bs : Bytes) : EStateM Fault (Sink n) Unit := fun s =>
  if h : bs.length ≤ s.free.length then .ok () (s.fill bs h)
  else .error (requestFault .writeFailed "buffer too small" s.offset bs.length) s

theorem put_of_le {bs : Bytes} {s : Sink n} (h : bs.length ≤ s.free.length) :
    put bs s = .ok () (s.fill bs h) :=
  dif_pos h

theorem put_of_lt {bs : Bytes} {s : Sink n} (h : s.free.length < bs.length) :
    put bs s =
      .error (requestFault .writeFailed "buffer too small" s.offset bs.length) s :=
  dif_neg (by omega)

/-! ### Actions that do not look at the window

`put` depends on how much room is left and not on the bytes that are still in it, and
nothing else fills a window. -/

variable {β γ : Type}

/-- Two runs that differ at most in the bytes that are still free in their windows. -/
inductive Agree : EStateM.Result Fault (Sink n) β → EStateM.Result Fault (Sink n) β → Prop
  | ok (b : β) {s t : Sink n} : s.filled = t.filled → Agree (.ok b s) (.ok b t)
  | error (f : Fault) {s t : Sink n} : s.filled = t.filled → Agree (.error f s) (.error f t)

/-- Whether an action goes the same way whatever bytes are still in its window. -/
def Blind (m : EStateM Fault (Sink n) β) : Prop :=
  ∀ ⦃s t : Sink n⦄, s.filled = t.filled → Agree (m s) (m t)

theorem blind_pure (b : β) : Blind (pure b : EStateM Fault (Sink n) β) :=
  fun _ _ h => .ok b h

theorem blind_put (bs : Bytes) : Blind (put bs : EStateM Fault (Sink n) Unit) := by
  intro s t h
  have hfree : s.free.length = t.free.length := by
    have hs := s.length_eq
    have ht := t.length_eq
    rw [h] at hs
    omega
  by_cases hle : bs.length ≤ s.free.length
  · rw [put_of_le hle, put_of_le (hfree ▸ hle)]
    exact .ok () (by simp only [fill, h])
  · rw [put_of_lt (by omega), put_of_lt (by omega), offset, offset, h]
    exact .error _ h

theorem Blind.bind {m : EStateM Fault (Sink n) β} {f : β → EStateM Fault (Sink n) γ}
    (hm : Blind m) (hf : ∀ b, Blind (f b)) : Blind (m >>= f) := by
  intro s t h
  change Agree (EStateM.bind m f s) (EStateM.bind m f t)
  unfold EStateM.bind
  match m s, m t, hm h with
  | _, _, .ok b h => exact hf b h
  | _, _, .error g h => exact .error g h

end Sink

end RecordStream
