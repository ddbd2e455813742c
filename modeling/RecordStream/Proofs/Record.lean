import RecordStream.Proofs.Buffer
import RecordStream.Proofs.Layout.Canonical

/-!
# How reading a record ends

A record is read if its descriptor comes next, byte for byte, and behind it as many bytes
as the layout has, which decode.  Otherwise reading fails for one of five causes: there
are too few bytes for a descriptor, or they are none; the descriptor is another one; there are
too few bytes for the value, or they are none.  `Stream.Refuses` lists them, each with its
fault and with the number of bytes that are read in spite of it, which is that of the
descriptor if there is one.  None of this depends on what the layout does.

Descriptors are compared after they have been decoded.  That is comparing bytes, since
no other bytes are decoded to a descriptor than those that it is written as.
-/

namespace RecordStream

theorem Layout.Decisive.exists_of_decode_eq_error {α : Type} {L : Layout α} (hL : L.Decisive)
    {bs : Bytes} {fault : Fault} (h : L.decode bs = .error fault) :
    ∃ m, fault = .invalidData m := by
  unfold decode at h
  split at h
  · rename_i hlen
    obtain ⟨a, ha⟩ | ⟨m, s, hm⟩ := hL (.ofBytes bs) (Nat.le_of_eq hlen.symm)
    · rw [ha] at h
      cases h
    · rw [hm] at h
      cases h
      exact ⟨m, rfl⟩
  · cases h
    exact ⟨_, rfl⟩

namespace Buffer

theorem remaining_advance (b : Buffer) {n : Nat} (h : n ≤ b.remaining) :
    (b.advance n h).remaining = b.remaining - n := by
  rw [← length_unread, unread_advance, List.length_drop, length_unread]

theorem advance_advance (b : Buffer) {m n : Nat} (hm : m ≤ b.remaining)
    (hn : n ≤ (b.advance m hm).remaining) (hle : m + n ≤ b.remaining) :
    (b.advance m hm).advance n hn = b.advance (m + n) hle := by
  simp only [advance, Nat.add_assoc]

end Buffer

namespace Stream

variable {α : Type} {d found : Descriptor} {L : Layout α} {b b' : Buffer} {v : α} {fault : Fault}
  {n : Nat}

/-! ## The causes of a failure -/

/-- The causes for which no record of the type is read, with the fault and the number of bytes
that count as read. -/
inductive Refuses (d : Descriptor) (L : Layout α) (b : Buffer) : Fault → Nat → Prop
  /-- There are too few bytes for a descriptor. -/
  | short : b.remaining < 212 → Refuses d L b (.underflow b.readPos 212 b.remaining) 0
  /-- The next bytes are no descriptor. -/
  | malformed {m : Malformation} : 212 ≤ b.remaining →
      Descriptor.layout.decode (b.unread.take 212) = .error (.invalidData m) →
      Refuses d L b (.invalidData m) 0
  /-- The next bytes are another descriptor. -/
  | foreign {found : Descriptor} : Descriptor.layout.encode found = .ok (b.unread.take 212) →
      found ≠ d → Refuses d L b (.typeMismatch d.text found.text) 212
  /-- There are too few bytes behind the descriptor. -/
  | cut : Descriptor.layout.encode d = .ok (b.unread.take 212) → b.remaining < 212 + L.size →
      Refuses d L b (.underflow (b.readPos + 212) L.size (b.remaining - 212)) 212
  /-- The bytes behind the descriptor are no value. -/
  | invalid {fault : Fault} : Descriptor.layout.encode d = .ok (b.unread.take 212) →
      212 + L.size ≤ b.remaining →
      L.decode ((b.unread.drop 212).take L.size) = .error fault → Refuses d L b fault 212

/-- The descriptor comes next, and behind it the bytes of a value. -/
structure Offers (d : Descriptor) (L : Layout α) (b : Buffer) (v : α) : Prop where
  encode_eq : Descriptor.layout.encode d = .ok (b.unread.take 212)
  size_le : 212 + L.size ≤ b.remaining
  decode_eq : L.decode ((b.unread.drop 212).take L.size) = .ok v

theorem read_of_decode_eq_ok (hle : L.size ≤ b.remaining)
    (h : L.decode (b.unread.take L.size) = .ok v) :
    read L b = .ok v (b.advance L.size hle) := by
  rw [read_eq_of_le hle, h]

theorem read_of_decode_eq_error (hle : L.size ≤ b.remaining)
    (h : L.decode (b.unread.take L.size) = .error fault) : read L b = .error fault b := by
  rw [read_eq_of_le hle, h]

theorem readDescriptor_of_encode (h : Descriptor.layout.encode found = .ok (b.unread.take 212)) :
    ∃ hle, readDescriptor b = .ok found (b.advance 212 hle) := by
  rw [Descriptor.lawful_layout.encode_eq, Except.ok.injEq] at h
  have hle : 212 ≤ b.remaining := by
    have hlen := Descriptor.lawful_layout.length_bytes found
    rw [h, List.length_take, Buffer.length_unread, Descriptor.size_layout] at hlen
    omega
  have hdecode := Descriptor.lawful_layout.decode_eq_ok_iff.2 h.symm
  exact ⟨hle, read_of_decode_eq_ok (L := Descriptor.layout) hle hdecode⟩

theorem readRecord_of_encode (h : Descriptor.layout.encode d = .ok (b.unread.take 212)) :
    ∃ hle, readRecord d L b = read L (b.advance 212 hle) := by
  obtain ⟨hle, hd⟩ := readDescriptor_of_encode h
  have hverify : verify d b = .ok () (b.advance 212 hle) := by
    rw [verify_of_readDescriptor hd, if_pos rfl]
  exact ⟨hle, bind_of_ok hverify⟩

theorem Offers.readRecord_eq (h : Offers d L b v) :
    readRecord d L b = .ok v (b.advance (212 + L.size) h.size_le) := by
  obtain ⟨hle, hread⟩ := readRecord_of_encode (L := L) h.encode_eq
  have hsize : L.size ≤ (b.advance 212 hle).remaining := by
    rw [Buffer.remaining_advance]
    exact Nat.le_sub_of_add_le' h.size_le
  rw [hread, ← b.advance_advance hle hsize h.size_le]
  exact read_of_decode_eq_ok hsize (by rw [Buffer.unread_advance, h.decode_eq])

theorem Refuses.readRecord_eq (h : Refuses d L b fault n) :
    ∃ hle, readRecord d L b = .error fault (b.advance n hle) := by
  cases h with
  | short h => exact ⟨Nat.zero_le _, bind_of_error (bind_of_error (read_of_lt h))⟩
  | @malformed m hle h =>
    have hread : readDescriptor b = .error (.invalidData m) b :=
      read_of_decode_eq_error (L := Descriptor.layout) hle h
    exact ⟨Nat.zero_le _, bind_of_error (bind_of_error hread)⟩
  | @foreign found h hne =>
    obtain ⟨hle, hd⟩ := readDescriptor_of_encode h
    have hverify : verify d b = .error (.typeMismatch d.text found.text) (b.advance 212 hle) := by
      rw [verify_of_readDescriptor hd, if_neg hne]
    exact ⟨hle, bind_of_error hverify⟩
  | cut h hlt =>
    obtain ⟨hle, hread⟩ := readRecord_of_encode (L := L) h
    have hremaining := b.remaining_advance hle
    refine ⟨hle, ?_⟩
    rw [hread, read_of_lt (by omega), hremaining]
    rfl
  | invalid h hsize hdecode =>
    obtain ⟨hle, hread⟩ := readRecord_of_encode (L := L) h
    have hroom : L.size ≤ (b.advance 212 hle).remaining := by
      rw [Buffer.remaining_advance]
      exact Nat.le_sub_of_add_le' hsize
    refine ⟨hle, hread.trans (read_of_decode_eq_error hroom ?_)⟩
    rw [Buffer.unread_advance, hdecode]

/-- There is nothing else that could come next. -/
theorem offers_or_refuses (d : Descriptor) (L : Layout α) (b : Buffer) :
    (∃ v, Offers d L b v) ∨ ∃ fault n, Refuses d L b fault n := by
  by_cases hle : 212 ≤ b.remaining
  case neg => exact .inr ⟨_, _, .short (Nat.not_le.1 hle)⟩
  case pos =>
  cases hfound : Descriptor.layout.decode (b.unread.take 212) with
  | error fault =>
    obtain ⟨m, rfl⟩ := Descriptor.decisive_layout.exists_of_decode_eq_error hfound
    exact .inr ⟨_, _, .malformed hle hfound⟩
  | ok found =>
    have hencode : Descriptor.layout.encode found = .ok (b.unread.take 212) := by
      rw [Descriptor.lawful_layout.encode_eq, ← Descriptor.lawful_layout.decode_eq_ok_iff.1 hfound]
    by_cases hd : found = d
    case neg => exact .inr ⟨_, _, .foreign hencode hd⟩
    case pos =>
    subst hd
    by_cases hsize : 212 + L.size ≤ b.remaining
    case neg => exact .inr ⟨_, _, .cut hencode (Nat.not_le.1 hsize)⟩
    case pos =>
    cases hvalue : L.decode ((b.unread.drop 212).take L.size) with
    | ok v => exact .inl ⟨v, hencode, hsize, hvalue⟩
    | error fault => exact .inr ⟨_, _, .invalid hencode hsize hvalue⟩

theorem readRecord_eq_iff (d : Descriptor) (L : Layout α) (b : Buffer) :
    (∀ v b', readRecord d L b = .ok v b' ↔
      ∃ h : Offers d L b v, b' = b.advance (212 + L.size) h.size_le) ∧
    ∀ fault b', readRecord d L b = .error fault b' ↔
      ∃ n hle, Refuses d L b fault n ∧ b' = b.advance n hle := by
  refine eq_iff_of_covered ?_ ?_ ?_
  · rintro v b' ⟨hoffers, rfl⟩
    exact hoffers.readRecord_eq
  · rintro fault b' ⟨n, hle, hrefuses, rfl⟩
    obtain ⟨_, hread⟩ := hrefuses.readRecord_eq
    exact hread
  · obtain ⟨v, hoffers⟩ | ⟨fault, n, hrefuses⟩ := offers_or_refuses d L b
    · exact .inl ⟨v, _, hoffers, rfl⟩
    · obtain ⟨hle, -⟩ := hrefuses.readRecord_eq
      exact .inr ⟨fault, _, n, hle, hrefuses, rfl⟩

theorem written_of_readRecord_eq_error (h : readRecord d L b = .error fault b') :
    b'.written = b.written := by
  obtain ⟨n, hle, -, rfl⟩ := ((readRecord_eq_iff d L b).2 fault b').1 h
  rfl

/-- Behind the descriptor of a record of another type its value can be skipped. -/
theorem skip_of_foreign {bs rest : Bytes} (hne : found ≠ d)
    (hb : b.unread = Descriptor.layout.bytes found ++ (bs ++ rest)) :
    ∃ b₁ b₂, readRecord d L b = .error (.typeMismatch d.text found.text) b₁ ∧
      skip bs.length b₁ = .ok () b₂ ∧ b₂.unread = rest ∧ b₂.written = b.written := by
  obtain ⟨_, h₁⟩ := Buffer.consumes_advance hb
  have hverify := verify_of_readDescriptor (d := d) (readDescriptor_eq_ok_iff.2 h₁)
  rw [if_neg hne] at hverify
  have hrest := h₁.unread_eq_of_append hb
  obtain ⟨hle, h₂⟩ := Buffer.consumes_advance hrest
  exact ⟨_, _, bind_of_error hverify, skip_of_le hle, h₂.unread_eq_of_append hrest,
    h₂.written_eq.trans h₁.written_eq⟩

end Stream

/-! ## Destinations -/

section Destinations

variable {γ : Type} [Recorded γ] {fault : Fault} {b b' : Buffer}

theorem Outcome.ofResult_of_fault {τ ε : Type} {old : τ} {f : ε → τ}
    {result : EStateM.Result Fault Buffer ε} (h : (ofResult old f result).fault? = some fault) :
    ∃ b', result = .error fault b' ∧ ofResult old f result = ⟨old, b', some fault⟩ := by
  cases result with
  | ok a b' => cases h
  | error fault' b' =>
    cases h
    exact ⟨b', rfl, rfl⟩

/-- An entity that consists of its record alone is either read as a whole or not at all. -/
theorem Entity.readInto_of_fault {r : Registry γ} {e : Entity γ} (he : ∀ c, e ≠ .command c)
    (h : (e.readInto r b).fault? = some fault) :
    (e.readInto r b).subject = e ∧ (e.readInto r b).world.written = b.written := by
  cases e with
  | object o =>
    obtain ⟨b', hread, ho⟩ := Outcome.ofResult_of_fault h
    rw [readInto, ho]
    exact ⟨rfl, Stream.written_of_readRecord_eq_error hread⟩
  | generator g =>
    obtain ⟨b', hread, hg⟩ := Outcome.ofResult_of_fault h
    rw [readInto, hg]
    exact ⟨rfl, Stream.written_of_readRecord_eq_error hread⟩
  | reading x =>
    obtain ⟨b', hread, hx⟩ := Outcome.ofResult_of_fault h
    rw [readInto, hx]
    exact ⟨rfl, Stream.written_of_readRecord_eq_error hread⟩
  | command c => exact absurd rfl (he c)

/-- A body whose core cannot be read leaves the command as it is, whatever its type. -/
theorem Registry.fill_of_read_core_eq_error (r : Registry γ) (c : Command γ)
    (h : Core.read b = .error fault b') : r.fill c b = ⟨c, b', some fault⟩ := by
  cases c with
  | null core => rw [fill, Command.fill, h, Outcome.ofResult]
  | leaf core action => rw [fill, Command.fill, h]
  | composite core k cs =>
    rw [fill, Command.fill, Command.readComposite, bind_of_error h, Outcome.ofResult]

end Destinations

namespace Stream

variable {α β γ : Type} [Recorded γ]

/-- `readRecord` succeeds with `v` if and only if the buffer `Offers` the descriptor and the bytes
of `v`, and consumes these.  It fails if and only if the buffer `Refuses` it, for one of five
causes that fix the fault and the bytes consumed, none or the descriptor.  The written bytes stay,
and so does an object, a generator or a core that was to be read.  After a mismatch, `skip` over
the payload of the foreign record leads to what follows it. -/
theorem readRecord_outcome (d : Descriptor) (L : Layout α) (b : Buffer) (r : Registry γ) :
    (∀ v b', readRecord d L b = .ok v b' ↔
      ∃ h : Offers d L b v, b' = b.advance (212 + L.size) h.size_le) ∧
    (∀ fault b', readRecord d L b = .error fault b' ↔
      ∃ n hle, Refuses d L b fault n ∧ b' = b.advance n hle) ∧
    (∀ fault b', readRecord d L b = .error fault b' → b'.written = b.written) ∧
    (∀ e : Entity γ, (∀ c, e ≠ .command c) → ∀ fault, (e.readInto r b).fault? = some fault →
      (e.readInto r b).subject = e ∧ (e.readInto r b).world.written = b.written) ∧
    (∀ fault b', Core.read b = .error fault b' →
      b'.written = b.written ∧ ∀ c : Command γ, r.fill c b = ⟨c, b', some fault⟩) ∧
    ∀ (found : Descriptor) (M : Layout β) (bs rest : Bytes), found ≠ d → bs.length = M.size →
      b.unread = Descriptor.layout.bytes found ++ (bs ++ rest) →
      ∃ b₁ b₂, readRecord d L b = .error (.typeMismatch d.text found.text) b₁ ∧
        skip M.size b₁ = .ok () b₂ ∧ b₂.unread = rest ∧ b₂.written = b.written := by
  obtain ⟨hok, herror⟩ := readRecord_eq_iff d L b
  refine ⟨hok, herror, fun fault b' => written_of_readRecord_eq_error,
    fun e he fault => Entity.readInto_of_fault he, fun fault b' h =>
      ⟨written_of_readRecord_eq_error h, fun c => r.fill_of_read_core_eq_error c h⟩, ?_⟩
  intro found M bs rest hne hlen hb
  rw [← hlen]
  exact skip_of_foreign hne hb

/-- A record of objects in another version is not read into an object, and can be skipped. -/
theorem readRecord_outcome_foreign :
    ∃ (found : Descriptor) (b b₁ b₂ : Buffer),
      found = .ofLibrary ⟨"Object", by decide, by decide⟩ 2 ∧
      writeRecord found Object.layout ⟨99⟩ .empty = .ok () b ∧
      readRecord .object Object.layout b =
        .error (.typeMismatch "objwire::Object v1.1.1" "objwire::Object v2.1.1") b₁ ∧
      (Entity.readInto (.empty : Registry Tally) (.object ⟨5⟩) b).subject = .object ⟨5⟩ ∧
      skip 8 b₁ = .ok () b₂ ∧ b₂.unread = [] := by
  obtain ⟨b, hwrite, hreceives⟩ := writeRecord_receives
    (d := .ofLibrary ⟨"Object", by decide, by decide⟩ 2) (Object.lawful_layout.codes ⟨99⟩).writes
    .empty
  have hlen : (Object.layout.bytes ⟨99⟩).length = Object.layout.size :=
    Object.lawful_layout.length_bytes _
  have hunread := hreceives.unread_eq_of_empty
  rw [← List.append_nil (Object.layout.bytes _)] at hunread
  obtain ⟨-, -, -, hentity, -, hforeign⟩ :=
    readRecord_outcome .object Object.layout b (.empty : Registry Tally)
  obtain ⟨b₁, b₂, hread, hskip, hrest, -⟩ :=
    hforeign _ Object.layout _ _ (by decide) hlen hunread
  have hfault : (Entity.readInto (.empty : Registry Tally) (.object ⟨5⟩) b).fault? =
      some (.typeMismatch "objwire::Object v1.1.1" "objwire::Object v2.1.1") := by
    rw [Entity.readInto, Object.read, hread]
    rfl
  obtain ⟨hsubject, -⟩ := hentity (.object ⟨5⟩) (by rintro c ⟨⟩) _ hfault
  exact ⟨_, b, b₁, b₂, rfl, hwrite, hread, hsubject, hskip, hrest⟩

end Stream

end RecordStream
