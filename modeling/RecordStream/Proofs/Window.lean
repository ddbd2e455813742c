import Mathlib.Algebra.Ring.Nat
import RecordStream.Proofs.Layout

/-!
# Windows that are filled and read item by item

An item is what one request to a window puts there or takes off: an integer or a float in a
byte order, or a run of bytes.  A request fits if there is as much room as the item has
bytes, and otherwise fails with its offset and moves nothing (`Item.put_of_le`,
`Item.put_of_lt`, `Item.Kind.take_of_lt`).

So after any series of requests the accepted items stand one behind the other in front of
what the window held before (`Sink.Holds`, which is kept at every turn), and they are read
again by asking for their kinds (`Source.readEach_of_holds`).
-/

namespace RecordStream

/-! ## Items -/

/-- The types of words that windows know. -/
inductive Scalar
  | u8
  | u16
  | i16
  | u32
  | i32
  | u64
  | i64
  | f32
  | f64
  deriving DecidableEq

/-- The words of the type; floats are bit patterns. -/
def Scalar.Value : Scalar → Type
  | .u8 => UInt8
  | .u16 => UInt16
  | .i16 => Int16
  | .u32 => UInt32
  | .i32 => Int32
  | .u64 => UInt64
  | .i64 => Int64
  | .f32 => Binary32
  | .f64 => Binary64

instance Scalar.word : (k : Scalar) → Word k.Value
  | .u8 => inferInstanceAs (Word UInt8)
  | .u16 => inferInstanceAs (Word UInt16)
  | .i16 => inferInstanceAs (Word Int16)
  | .u32 => inferInstanceAs (Word UInt32)
  | .i32 => inferInstanceAs (Word Int32)
  | .u64 => inferInstanceAs (Word UInt64)
  | .i64 => inferInstanceAs (Word Int64)
  | .f32 => inferInstanceAs (Word Binary32)
  | .f64 => inferInstanceAs (Word Binary64)

/-- What a request is for. -/
inductive Item.Kind
  | scalar (k : Scalar) (o : ByteOrder)
  | bytes (n : Nat)
  deriving DecidableEq

namespace Item.Kind

def Value : Kind → Type
  | .scalar k _ => k.Value
  | .bytes n => Block n

def layout : (k : Kind) → Layout k.Value
  | .scalar k o => (.word o : Layout k.Value)
  | .bytes n => .block n

/-- The number of bytes that are asked for. -/
def size (k : Kind) : Nat := k.layout.size

/-- Takes what is asked for off a window. -/
def take (k : Kind) : EStateM Fault Source k.Value := k.layout.take

end Item.Kind

structure Item where
  kind : Item.Kind
  value : kind.Value

namespace Item

variable {n : Nat}

def size (i : Item) : Nat := i.kind.size

/-- The bytes that the item is written as. -/
def bytes (i : Item) : Bytes := i.kind.layout.bytes i.value

/-- Puts the item into a window. -/
def put (i : Item) : EStateM Fault (Sink n) Unit := i.kind.layout.put i.value

theorem codes (i : Item) : i.kind.layout.Codes i.value i.bytes := by
  have hlawful : i.kind.layout.Lawful := by
    cases i.kind with
    | scalar k o => exact Layout.lawful_word (ω := k.Value) o
    | bytes m => exact Layout.lawful_block m
  exact hlawful.codes i.value

@[simp] theorem length_bytes (i : Item) : i.bytes.length = i.size :=
  i.codes.writes.length_eq

/-! ## Single requests -/

/-- An item is put by a single request. -/
theorem put_eq (i : Item) : (i.put : EStateM Fault (Sink n) Unit) = Sink.put i.bytes := by
  obtain ⟨kind, value⟩ := i
  cases kind with
  | scalar k o => exact congrArg Sink.put (Layout.codes_word (ω := k.Value) o value).bytes_eq.symm
  | bytes m => exact congrArg Sink.put (Layout.codes_block value).bytes_eq.symm

theorem put_of_le {i : Item} {s : Sink n} (h : i.size ≤ s.remaining) :
    ∃ hroom, i.put s = .ok () (s.fill i.bytes hroom) := by
  have hroom : i.bytes.length ≤ s.free.length := by
    rwa [length_bytes]
  rw [put_eq]
  exact ⟨hroom, Sink.put_of_le hroom⟩

theorem put_of_lt {i : Item} {s : Sink n} (hsize : n + i.size < UInt64.size)
    (h : s.remaining < i.size) :
    i.put s = .error (.writeFailed s.offset "buffer too small") s := by
  have hposition : s.offset + i.size < UInt64.size := by
    have hoffset : s.offset + s.remaining = n := s.length_eq
    omega
  have hroom : s.free.length < i.bytes.length := by
    rwa [length_bytes]
  rw [put_eq, Sink.put_of_lt hroom, length_bytes, requestFault, if_pos hposition]

theorem Kind.take_of_lt {k : Kind} {s : Source} (hposition : s.offset + k.size < UInt64.size)
    (h : s.remaining < k.size) :
    k.take s = .error (.readFailed s.offset "unexpected end of buffer") s := by
  have htake := Source.take_of_lt h
  rw [requestFault, if_pos hposition] at htake
  cases k with
  | scalar k o => exact bind_of_error htake
  | bytes m => exact htake

/-- An item is taken by its kind, whatever comes behind it. -/
theorem take_append (i : Item) (offset : Nat) (rest : Bytes) :
    i.kind.take ⟨offset, i.bytes ++ rest⟩ = .ok i.value ⟨offset + i.bytes.length, rest⟩ :=
  i.codes.reads.take_eq offset rest

end Item

/-! ## Series of requests -/

namespace Sink

variable {n : Nat} {i : Item} {items : List Item} {s t : Sink n}

theorem filled_fill {bs : Bytes} (hroom : bs.length ≤ s.free.length) :
    (s.fill bs hroom).filled = s.filled ++ bs := rfl

theorem free_fill {bs : Bytes} (hroom : bs.length ≤ s.free.length) :
    (s.fill bs hroom).free = s.free.drop bs.length := rfl

theorem offset_fill {bs : Bytes} (hroom : bs.length ≤ s.free.length) :
    (s.fill bs hroom).offset = s.offset + bs.length :=
  List.length_append

/-- Puts another item into a window, behind those that were accepted so far. -/
def putNext (p : List Item × Sink n) (i : Item) : List Item × Sink n :=
  match i.put p.2 with
  | .ok _ s => (p.1 ++ [i], s)
  | .error _ s => (p.1, s)

/-- Puts items into a window, one after the other, and goes on behind one that is refused.  Gives
the items that were accepted. -/
def putEach (items : List Item) (s : Sink n) : List Item × Sink n :=
  items.foldl putNext ([], s)

/-- The window over a block, nothing of it filled. -/
def ofBlock (b : Block n) : Sink n := .ofBytes b.toBytes b.length_toBytes

/-- What becomes of the accepted items and of the window at the turn of another item. -/
inductive Turn (i : Item) : List Item × Sink n → List Item × Sink n → Prop
  /-- The item fits, and goes to the front of the room that is left. -/
  | accepted {items : List Item} {s : Sink n} (hroom : i.bytes.length ≤ s.free.length) :
      i.size ≤ s.remaining → i.put s = .ok () (s.fill i.bytes hroom) →
      Turn i (items, s) (items ++ [i], s.fill i.bytes hroom)
  /-- The item does not fit, and changes nothing. -/
  | refused {items : List Item} {s : Sink n} : s.remaining < i.size →
      i.put s = .error (.writeFailed s.offset "buffer too small") s → Turn i (items, s) (items, s)

/-- The window holds the accepted items, one behind the other, and then what it held before. -/
structure Holds (before : Block n) (items : List Item) (s : Sink n) : Prop where
  filled_eq : s.filled = items.flatMap Item.bytes
  free_eq : s.free = before.toBytes.drop s.offset

theorem turn_putNext (hsize : n + i.size < UInt64.size) (p : List Item × Sink n) :
    Turn i p (putNext p i) := by
  obtain ⟨items, s⟩ := p
  by_cases h : i.size ≤ s.remaining
  · obtain ⟨hroom, hput⟩ := Item.put_of_le h
    rw [putNext, hput]
    exact .accepted hroom h hput
  · have hput := Item.put_of_lt hsize (Nat.not_le.1 h)
    rw [putNext, hput]
    exact .refused (Nat.not_le.1 h) hput

/-- At each turn of a series the window is that of the items in front. -/
theorem turn_putEach (hsize : n + i.size < UInt64.size) (items : List Item) (s : Sink n) :
    Turn i (putEach items s) (putEach (items ++ [i]) s) := by
  rw [putEach, putEach, List.foldl_append, List.foldl_cons, List.foldl_nil]
  exact turn_putNext hsize _

variable {before : Block n}

theorem Holds.turn {items' : List Item} (h : Holds before items s)
    (hturn : Turn i (items, s) (items', t)) : Holds before items' t := by
  cases hturn with
  | accepted hroom hle hput =>
    constructor
    · rw [filled_fill, h.filled_eq, List.flatMap_append, List.flatMap_singleton]
    · rw [free_fill, offset_fill, h.free_eq, List.drop_drop]
  | refused hlt hput => exact h

theorem Holds.foldl (h : Holds before items s) {more : List Item}
    (hmore : ∀ i ∈ more, n + i.size < UInt64.size) :
    Holds before (more.foldl putNext (items, s)).1 (more.foldl putNext (items, s)).2 := by
  induction more generalizing items s with
  | nil => exact h
  | cons i more ih =>
    have hturn := turn_putNext (hmore i List.mem_cons_self) (items, s)
    exact ih (h.turn hturn) fun j hj => hmore j (List.mem_cons_of_mem i hj)

theorem holds_ofBlock (before : Block n) : Holds before [] (.ofBlock before) :=
  ⟨rfl, rfl⟩

theorem Holds.contents_eq (h : Holds before items s) :
    s.contents = items.flatMap Item.bytes ++ before.toBytes.drop s.offset := by
  rw [contents, h.filled_eq, h.free_eq]

theorem Holds.offset_eq (h : Holds before items s) : s.offset = (items.map Item.size).sum := by
  rw [offset, h.filled_eq, List.length_flatMap]
  simp only [Item.length_bytes]

end Sink

namespace Source

/-- Takes items of the given kinds off a window, one after the other. -/
def readEach : List Item.Kind → EStateM Fault Source (List Item)
  | [] => pure []
  | k :: kinds => do
    let value ← k.take
    return ⟨k, value⟩ :: (← readEach kinds)

/-- Items that stand one behind the other are read by their kinds, whatever comes behind them. -/
theorem readEach_append (items : List Item) (offset : Nat) (rest : Bytes) :
    readEach (items.map Item.kind) ⟨offset, items.flatMap Item.bytes ++ rest⟩ =
      .ok items ⟨offset + (items.flatMap Item.bytes).length, rest⟩ := by
  induction items generalizing offset with
  | nil => rfl
  | cons i items ih =>
    rw [List.map_cons, readEach, List.flatMap_cons, List.append_assoc,
      bind_of_ok (i.take_append offset _), bind_of_ok (ih _), pure_apply, List.length_append,
      Nat.add_assoc]

theorem readEach_of_holds {n : Nat} {before : Block n} {items : List Item} {s : Sink n}
    (h : s.Holds before items) :
    readEach (items.map Item.kind) (.ofBytes s.contents) =
      .ok items ⟨s.offset, before.toBytes.drop s.offset⟩ := by
  have hoffset : s.offset = (items.flatMap Item.bytes).length := congrArg List.length h.filled_eq
  rw [h.contents_eq, ofBytes, readEach_append, Nat.zero_add, ← hoffset]

end Source

/-- A window is filled and read item by item.  At its `Turn` each item goes to the front of the
free room, or it does not fit, is refused with the offset and changes nothing.  In the end the
window holds the accepted items and behind them what it held `before`; its offset is the sum of
their sizes.  `readEach` gives the accepted items back by their kinds, and at any offset of the
window refuses what does not fit.

The invariant of the series is `Sink.Holds`.  Window and items are spans of memory, so no request
ends beyond the 64-bit positions. -/
theorem Source.readEach_of_putEach {n : Nat} (before : Block n) (items : List Item)
    (hitems : ∀ i ∈ items, n + i.size < UInt64.size) :
    (∀ done i rest, items = done ++ i :: rest → Sink.Turn i (Sink.putEach done (.ofBlock before))
      (Sink.putEach (done ++ [i]) (.ofBlock before))) ∧
    ∃ accepted final, Sink.putEach items (.ofBlock before) = (accepted, final) ∧
      final.contents = accepted.flatMap Item.bytes ++ before.toBytes.drop final.offset ∧
      final.offset = (accepted.map Item.size).sum ∧
      final.offset + final.remaining = n ∧
      readEach (accepted.map Item.kind) (.ofBytes final.contents) =
        .ok accepted ⟨final.offset, before.toBytes.drop final.offset⟩ ∧
      ∀ k : Item.Kind, n + k.size < UInt64.size → ∀ s : Source, s.offset + s.remaining = n →
        s.remaining < k.size →
        k.take s = .error (.readFailed s.offset "unexpected end of buffer") s := by
  have hholds := (Sink.holds_ofBlock before).foldl hitems
  refine ⟨?_, _, _, rfl, hholds.contents_eq, hholds.offset_eq, Sink.length_eq _,
    readEach_of_holds hholds, ?_⟩
  · intro done i rest hsplit
    exact Sink.turn_putEach (hitems i (by simp [hsplit])) done _
  · intro k hk s hs h
    have hposition : s.offset + k.size < UInt64.size := by omega
    exact Item.Kind.take_of_lt hposition h

/-- Words of several types and orders, the float a signalling NaN, and two bytes. -/
def Item.mixed : List Item :=
  [⟨.scalar .u8 .little, (0xAB : UInt8)⟩, ⟨.scalar .u16 .big, (0xCDEF : UInt16)⟩,
    ⟨.scalar .u64 .little, (1 : UInt64)⟩, ⟨.scalar .f32 .little, (⟨0x7FA00001⟩ : Binary32)⟩,
    ⟨.bytes 2, (⟨[9, 8], rfl⟩ : Block 2)⟩]

/-- Of eight bytes the long word asks for too many once three are filled, and so do the two bytes
at the end. -/
theorem Source.readEach_of_putEach_mixed :
    (∀ i ∈ Item.mixed, 8 + i.size < UInt64.size) ∧
    ∃ accepted final,
      Sink.putEach Item.mixed (.ofBlock ⟨List.replicate 8 0xEE, rfl⟩) = (accepted, final) ∧
      accepted = Item.mixed.take 2 ++ (Item.mixed.drop 3).take 1 ∧ final.offset = 7 ∧
      final.contents = [0xAB, 0xCD, 0xEF, 0x01, 0x00, 0xA0, 0x7F, 0xEE] ∧
      readEach (accepted.map Item.kind) (.ofBytes final.contents) = .ok accepted ⟨7, [0xEE]⟩ := by
  have hitems : ∀ i ∈ Item.mixed, 8 + i.size < UInt64.size := by
    simp only [Item.mixed, List.forall_mem_cons]
    decide
  obtain ⟨-, accepted, final, hput, hcontents, hoffset, -, hread, -⟩ :=
    readEach_of_putEach ⟨List.replicate 8 0xEE, rfl⟩ Item.mixed hitems
  have haccepted : (accepted, final) =
      (Item.mixed.take 2 ++ (Item.mixed.drop 3).take 1,
        ⟨[0xAB, 0xCD, 0xEF, 0x01, 0x00, 0xA0, 0x7F], [0xEE], rfl⟩) := hput.symm
  cases haccepted
  exact ⟨hitems, _, _, hput, rfl, rfl, rfl, hread⟩

end RecordStream
