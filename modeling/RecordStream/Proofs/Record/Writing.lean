import RecordStream.Proofs.Record

/-!
# How writing a record ends

A record is written in two steps, the descriptor and then the value, and each of them is
done as a whole or not at all.  The two together are not: descriptors can always be
written, so a value that cannot be encoded leaves its descriptor behind
(`writeRecord_of_encode_eq_error`), and a reader takes the next bytes for the missing
value.

A record is thus written as a whole or not at all just if the value can be encoded
(`writeRecord_allOrNothing_iff`), which is so for all values of the types of this library.
-/

namespace RecordStream.Stream

variable {α : Type} {d : Descriptor} {L : Layout α} {a : α} {b b' : Buffer} {bs : Bytes}
  {fault : Fault}

theorem writeDescriptor_eq (d : Descriptor) (b : Buffer) :
    writeDescriptor d b = .ok () (b.append (Descriptor.layout.bytes d)) :=
  write_of_writes (Descriptor.lawful_layout.codes d).writes b

/-- The descriptor is there, and the value is all that can fail. -/
theorem writeRecord_eq (d : Descriptor) (L : Layout α) (a : α) (b : Buffer) :
    writeRecord d L a b = write L a (b.append (Descriptor.layout.bytes d)) :=
  bind_of_ok (writeDescriptor_eq d b)

/-- Writing fails with the fault of the value, whose descriptor stays. -/
theorem writeRecord_of_encode_eq_error (h : L.encode a = .error fault) (d : Descriptor)
    (b : Buffer) :
    ∃ b', writeRecord d L a b = .error fault b' ∧ b.Receives (Descriptor.layout.bytes d) b' := by
  obtain ⟨left, hwrite⟩ := write_of_encode_eq_error h (b.append (Descriptor.layout.bytes d))
  refine ⟨_, (writeRecord_eq d L a b).trans hwrite, ?_, rfl⟩
  rw [Buffer.written_abandon, Buffer.written_append]

theorem writeRecord_of_encode_eq_ok (hexact : L.Exact a) (h : L.encode a = .ok bs) (d : Descriptor)
    (b : Buffer) :
    ∃ b', writeRecord d L a b = .ok () b' ∧ b.Receives (Descriptor.layout.bytes d ++ bs) b' := by
  have hwrite := write_of_encode_eq_ok hexact h (b.append (Descriptor.layout.bytes d))
  exact ⟨_, (writeRecord_eq d L a b).trans hwrite,
    (b.receives_append _).trans (Buffer.receives_append _ _)⟩

/-- If the record cannot be written, the buffer shows nothing of it. -/
def AllOrNothing (d : Descriptor) (L : Layout α) (a : α) (b : Buffer) : Prop :=
  ∀ fault b', writeRecord d L a b = .error fault b' →
    b'.written = b.written ∧ b'.length = b.length ∧ b'.readPos = b.readPos

theorem allOrNothing_of_encode_eq_ok (h : L.encode a = .ok bs) : AllOrNothing d L a b := by
  intro fault b' hwrite
  obtain ⟨s, -, hok, -⟩ := exists_write_eq_ok h (b.append (Descriptor.layout.bytes d))
  rw [writeRecord_eq, hok] at hwrite
  cases hwrite

theorem not_allOrNothing_of_encode_eq_error (h : L.encode a = .error fault) :
    ¬ AllOrNothing d L a b := by
  intro hnothing
  obtain ⟨b', hwrite, hreceives⟩ := writeRecord_of_encode_eq_error h d b
  obtain ⟨-, hlength, -⟩ := hnothing fault b' hwrite
  have hadded : (Descriptor.layout.bytes d).length = 212 := Descriptor.lawful_layout.length_bytes d
  rw [hreceives.length_eq, hadded] at hlength
  omega

/-- `writeRecord` is all or nothing if and only if the value can be encoded.  The descriptor is
written first, so if `encode` fails the buffer has received the descriptor, 212 bytes, and nothing
behind it.  If `encode` succeeds the buffer receives both, and for `Composed` layouts it always
does. -/
theorem writeRecord_allOrNothing_iff (d : Descriptor) (L : Layout α) (a : α) (b : Buffer) :
    (AllOrNothing d L a b ↔ ∃ bs, L.encode a = .ok bs) ∧
    (∀ fault, L.encode a = .error fault → ∃ b', writeRecord d L a b = .error fault b' ∧
      b.Receives (Descriptor.layout.bytes d) b' ∧ b'.length = b.length + 212) ∧
    (∀ bs, L.encode a = .ok bs → L.Exact a → ∃ b', writeRecord d L a b = .ok () b' ∧
      b.Receives (Descriptor.layout.bytes d ++ bs) b') ∧
    (L.Composed → ∃ b', writeRecord d L a b = .ok () b' ∧
      b.Receives (Descriptor.layout.bytes d ++ L.bytes a) b') := by
  refine ⟨⟨fun h => ?_, fun ⟨bs, h⟩ => allOrNothing_of_encode_eq_ok h⟩, fun fault h => ?_,
    fun bs h hexact => writeRecord_of_encode_eq_ok hexact h d b,
    fun h => writeRecord_receives (h.lawful.codes a).writes b⟩
  · cases hencode : L.encode a with
    | ok bs => exact ⟨bs, rfl⟩
    | error fault => exact absurd h (not_allOrNothing_of_encode_eq_error hencode)
  · obtain ⟨b', hwrite, hreceives⟩ := writeRecord_of_encode_eq_error h d b
    have hlength := hreceives.length_eq
    rw [Descriptor.lawful_layout.length_bytes, Descriptor.size_layout] at hlength
    exact ⟨b', hwrite, hreceives, hlength⟩

/-- The descriptor of objects stays alone in a buffer, since the two numbers behind it do not fit
in six bytes. -/
theorem not_allOrNothing_overrun :
    ∃ b', writeRecord .object Overrun.layout ⟨1, 2⟩ .empty =
        .error (.writeFailed 4 "buffer too small") b' ∧
      b'.written = Descriptor.layout.bytes .object ∧ b'.length = 212 ∧
      Buffer.empty.written = [] ∧ ¬ AllOrNothing .object Overrun.layout ⟨1, 2⟩ .empty := by
  have hencode : Overrun.layout.encode ⟨1, 2⟩ = .error (.writeFailed 4 "buffer too small") := rfl
  obtain ⟨b', hwrite, hreceives⟩ := writeRecord_of_encode_eq_error hencode .object .empty
  have hwritten : b'.written = Descriptor.layout.bytes .object := by
    rw [hreceives.written_eq, Buffer.empty, Buffer.written_withCapacity, List.nil_append]
  have hlength : b'.length = 212 := by
    rw [← Buffer.length_written, hwritten]
    exact Descriptor.lawful_layout.length_bytes _
  exact ⟨b', hwrite, hwritten, hlength, rfl, not_allOrNothing_of_encode_eq_error hencode⟩

end RecordStream.Stream
