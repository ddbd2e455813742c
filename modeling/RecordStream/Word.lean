import RecordStream.Bytes

/-!
# Words

A word is a value of a fixed number of bytes that is known by its bit pattern:
the fixed-width integers, and floats taken as patterns.  Comparing words
compares patterns, so a NaN equals itself and the two zeros differ; that makes
equality of words the same thing as equality of their bytes.

`Word.ofBytes_bytes` and `Word.bytes_ofBytes` say that in either byte order the
words and the byte lists of their width correspond one to one.
-/

namespace RecordStream

/-- A single-precision float, known by its bit pattern. -/
structure Binary32 where
  bits : UInt32
  deriving DecidableEq

/-- A double-precision float, known by its bit pattern. -/
structure Binary64 where
  bits : UInt64
  deriving DecidableEq

/-- The order in which the digits of a word are written. -/
inductive ByteOrder
  /-- Lowest digit first. -/
  | little
  /-- Highest digit first. -/
  | big
  deriving DecidableEq

/-- The order of fields that do not name one. -/
def ByteOrder.native : ByteOrder := .little

/-- Lowest-first digits, put into the order; its own inverse. -/
def ByteOrder.arrange : ByteOrder → Bytes → Bytes
  | .little, bs => bs
  | .big, bs => bs.reverse

@[simp] theorem ByteOrder.length_arrange (o : ByteOrder) (bs : Bytes) :
    (o.arrange bs).length = bs.length := by
  cases o <;> simp [ByteOrder.arrange]

@[simp] theorem ByteOrder.arrange_arrange (o : ByteOrder) (bs : Bytes) :
    o.arrange (o.arrange bs) = bs := by
  cases o <;> simp [ByteOrder.arrange]

/-- A type whose values are exactly the bit patterns of `width` bytes. -/
class Word (ω : Type) where
  width : Nat
  toNat : ω → Nat
  ofNat : Nat → ω
  toNat_lt (w : ω) : toNat w < 256 ^ width
  toNat_ofNat {n : Nat} : n < 256 ^ width → toNat (ofNat n) = n
  ofNat_toNat (w : ω) : ofNat (toNat w) = w

namespace Word

variable {ω : Type} [Word ω]

/-- The bytes of a word. -/
def bytes (o : ByteOrder) (w : ω) : Bytes :=
  o.arrange (Bytes.ofNat (width ω) (toNat w))

/-- The word with the given bytes. -/
def ofBytes (o : ByteOrder) (bs : Bytes) : ω :=
  ofNat (o.arrange bs).toNat

@[simp] theorem length_bytes (o : ByteOrder) (w : ω) : (bytes o w).length = width ω := by
  simp [bytes]

@[simp] theorem ofBytes_bytes (o : ByteOrder) (w : ω) : ofBytes o (bytes o w) = w := by
  rw [ofBytes, bytes, ByteOrder.arrange_arrange, Bytes.toNat_ofNat,
    Nat.mod_eq_of_lt (toNat_lt w), ofNat_toNat]

theorem bytes_ofBytes (o : ByteOrder) {bs : Bytes} (h : bs.length = width ω) :
    bytes o (ofBytes o bs : ω) = bs := by
  have hlt : (o.arrange bs).toNat < 256 ^ width ω := by
    simpa [h] using Bytes.toNat_lt (o.arrange bs)
  have hdigits := Bytes.ofNat_toNat (o.arrange bs)
  rw [ByteOrder.length_arrange, h] at hdigits
  rw [bytes, ofBytes, toNat_ofNat hlt, hdigits, ByteOrder.arrange_arrange]

end Word

section Instances

instance : Word UInt8 where
  width := 1
  toNat := UInt8.toNat
  ofNat := UInt8.ofNat
  toNat_lt := UInt8.toNat_lt
  toNat_ofNat h := UInt8.toNat_ofNat_of_lt h
  ofNat_toNat w := by simp

instance : Word UInt16 where
  width := 2
  toNat := UInt16.toNat
  ofNat := UInt16.ofNat
  toNat_lt := UInt16.toNat_lt
  toNat_ofNat h := UInt16.toNat_ofNat_of_lt h
  ofNat_toNat w := by simp

instance : Word UInt32 where
  width := 4
  toNat := UInt32.toNat
  ofNat := UInt32.ofNat
  toNat_lt := UInt32.toNat_lt
  toNat_ofNat h := UInt32.toNat_ofNat_of_lt h
  ofNat_toNat w := by simp

instance : Word UInt64 where
  width := 8
  toNat := UInt64.toNat
  ofNat := UInt64.ofNat
  toNat_lt := UInt64.toNat_lt
  toNat_ofNat h := UInt64.toNat_ofNat_of_lt h
  ofNat_toNat w := by simp

instance : Word Int8 where
  width := 1
  toNat w := w.toUInt8.toNat
  ofNat n := (UInt8.ofNat n).toInt8
  toNat_lt w := w.toUInt8.toNat_lt
  toNat_ofNat h := UInt8.toNat_ofNat_of_lt h
  ofNat_toNat w := by simp

instance : Word Int16 where
  width := 2
  toNat w := w.toUInt16.toNat
  ofNat n := (UInt16.ofNat n).toInt16
  toNat_lt w := w.toUInt16.toNat_lt
  toNat_ofNat h := UInt16.toNat_ofNat_of_lt h
  ofNat_toNat w := by simp

instance : Word Int32 where
  width := 4
  toNat w := w.toUInt32.toNat
  ofNat n := (UInt32.ofNat n).toInt32
  toNat_lt w := w.toUInt32.toNat_lt
  toNat_ofNat h := UInt32.toNat_ofNat_of_lt h
  ofNat_toNat w := by simp

instance : Word Int64 where
  width := 8
  toNat w := w.toUInt64.toNat
  ofNat n := (UInt64.ofNat n).toInt64
  toNat_lt w := w.toUInt64.toNat_lt
  toNat_ofNat h := UInt64.toNat_ofNat_of_lt h
  ofNat_toNat w := by simp

instance : Word Binary32 where
  width := 4
  toNat w := w.bits.toNat
  ofNat n := ⟨UInt32.ofNat n⟩
  toNat_lt w := w.bits.toNat_lt
  toNat_ofNat h := UInt32.toNat_ofNat_of_lt h
  ofNat_toNat w := by simp

instance : Word Binary64 where
  width := 8
  toNat w := w.bits.toNat
  ofNat n := ⟨UInt64.ofNat n⟩
  toNat_lt w := w.bits.toNat_lt
  toNat_ofNat h := UInt64.toNat_ofNat_of_lt h
  ofNat_toNat w := by simp

end Instances

end RecordStream
