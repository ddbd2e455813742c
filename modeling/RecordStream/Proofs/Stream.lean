import RecordStream.Proofs.Layout
import RecordStream.Record

/-!
# What streams read and write

Reading moves the read position of a buffer and nothing else: `b.Consumes bs b'`
says that `b'` is `b` after its next bytes, `bs`, have been read.  Writing adds
bytes behind the written ones and leaves the read position alone:
`b.Receives bs b'`.  Both go together with `++`, so what a series of steps reads
or writes is put together from what each step does.

For lawful layouts a value is read if and only if the bytes that it is written as
come next (`Stream.read_eq_ok_iff`), and so are records.
-/

namespace RecordStream

namespace Buffer

/-- `b'` is `b` after its next bytes, `bs`, have been read. -/
structure Consumes (b : Buffer) (bs : Bytes) (b' : Buffer) : Prop where
  unread_eq : b.unread = bs ++ b'.unread
  eq_advance : ∃ h, b' = b.advance bs.length h

/-- `b'` has the bytes of `b` and then `bs`, of which nothing more has been read. -/
structure Receives (b : Buffer) (bs : Bytes) (b' : Buffer) : Prop where
  written_eq : b'.written = b.written ++ bs
  readPos_eq : b'.readPos = b.readPos

variable {b b' b'' : Buffer} {bs cs : Bytes}

theorem unread_advance (n : Nat) (h : n ≤ b.remaining) :
    (b.advance n h).unread = b.unread.drop n := by
  rw [unread, unread, written_advance, List.drop_drop]
  rfl

theorem consumes_advance (h : b.unread = bs ++ cs) :
    ∃ hle, b.Consumes bs (b.advance bs.length hle) := by
  have hle : bs.length ≤ b.remaining := by
    rw [← length_unread, h, List.length_append]
    omega
  refine ⟨hle, ?_, hle, rfl⟩
  rw [unread_advance, h, List.drop_left]

namespace Consumes

theorem refl (b : Buffer) : b.Consumes [] b := ⟨rfl, Nat.zero_le _, rfl⟩

theorem written_eq (h : b.Consumes bs b') : b'.written = b.written := by
  obtain ⟨_, rfl⟩ := h.eq_advance
  rfl

theorem readPos_eq (h : b.Consumes bs b') : b'.readPos = b.readPos + bs.length := by
  obtain ⟨_, rfl⟩ := h.eq_advance
  rfl

theorem remaining_eq (h : b.Consumes bs b') : b.remaining = bs.length + b'.remaining := by
  rw [← length_unread, ← length_unread, h.unread_eq, List.length_append]

theorem trans (h : b.Consumes bs b') (h' : b'.Consumes cs b'') : b.Consumes (bs ++ cs) b'' := by
  refine ⟨by rw [h.unread_eq, h'.unread_eq, List.append_assoc], ?_⟩
  have hle : (bs ++ cs).length ≤ b.remaining := by
    rw [h.remaining_eq, h'.remaining_eq, List.length_append]
    omega
  refine ⟨hle, ?_⟩
  obtain ⟨_, rfl⟩ := h'.eq_advance
  obtain ⟨_, rfl⟩ := h.eq_advance
  simp only [advance, List.length_append, Nat.add_assoc]

theorem unique (h : b.Consumes bs b') (h' : b.Consumes bs b'') : b' = b'' := by
  obtain ⟨_, rfl⟩ := h.eq_advance
  obtain ⟨_, rfl⟩ := h'.eq_advance
  rfl

/-- What is left to be read is determined by what has been read. -/
theorem unread_eq_of_append (h : b.Consumes bs b') (hb : b.unread = bs ++ cs) :
    b'.unread = cs := by
  rw [h.unread_eq] at hb
  exact List.append_cancel_left hb

/-- The beginning of some bytes is still one of the rest of them when both have lost the same. -/
theorem unread_prefix_of_append (h : b.Consumes bs b') (hb : b.unread <+: bs ++ cs) :
    b'.unread <+: cs := by
  rw [h.unread_eq] at hb
  exact (List.prefix_append_right_inj bs).1 hb

/-- Bytes that are read in one go can be read in two. -/
theorem of_append (h : b.Consumes (bs ++ cs) b') : ∃ b₁, b.Consumes bs b₁ ∧ b₁.Consumes cs b' := by
  have hb : b.unread = bs ++ (cs ++ b'.unread) := by
    rw [h.unread_eq, List.append_assoc]
  obtain ⟨hle, h₁⟩ := consumes_advance hb
  have hrest := h₁.unread_eq_of_append hb
  obtain ⟨hle', h₂⟩ := consumes_advance hrest
  exact ⟨_, h₁, h.unique (h₁.trans h₂) ▸ h₂⟩

end Consumes

/-- The bytes that have been read last are `bs`. -/
def JustRead (b : Buffer) (bs : Bytes) : Prop :=
  bs <:+ b.written.take b.readPos

theorem Consumes.justRead (h : b.Consumes bs b') : b'.JustRead bs := by
  have hunread : b.written.drop b.readPos = bs ++ b'.unread := h.unread_eq
  refine ⟨b.written.take b.readPos, ?_⟩
  rw [h.written_eq, h.readPos_eq, List.take_add, hunread, List.take_left]

namespace Receives

theorem refl (b : Buffer) : b.Receives [] b := ⟨(List.append_nil _).symm, rfl⟩

theorem trans (h : b.Receives bs b') (h' : b'.Receives cs b'') : b.Receives (bs ++ cs) b'' :=
  ⟨by rw [h'.written_eq, h.written_eq, List.append_assoc], h'.readPos_eq.trans h.readPos_eq⟩

theorem length_eq (h : b.Receives bs b') : b'.length = b.length + bs.length := by
  rw [← length_written, h.written_eq, List.length_append, length_written]

theorem unread_eq (h : b.Receives bs b') : b'.unread = b.unread ++ bs := by
  have hle : b.readPos ≤ b.written.length := by
    rw [length_written]
    exact b.readPos_le
  rw [unread, unread, h.written_eq, h.readPos_eq, List.drop_append_of_le_length hle]

/-- What an empty buffer receives is what can be read from it. -/
theorem unread_eq_of_empty (h : empty.Receives bs b') : b'.unread = bs := by
  have hempty : empty.unread = [] := rfl
  rw [h.unread_eq, hempty, List.nil_append]

end Receives

theorem receives_append (b : Buffer) (bs : Bytes) : b.Receives bs (b.append bs) :=
  ⟨written_append b bs, rfl⟩

end Buffer

/-- The fault is a breach of a promise, to which there is no answer. -/
def Fault.isMisuse : Fault → Bool
  | .misuse _ => true
  | _ => false

namespace Stream

variable {α : Type} {L : Layout α} {a : α} {b b' : Buffer} {bs rest : Bytes} {f : Fault}

/-! ## Single steps -/

theorem peek_of_le {n : Nat} (h : n ≤ b.remaining) : peek n b = .ok (b.unread.take n) b := by
  rw [peek, if_pos h, b.next_eq h]

theorem peek_of_lt {n : Nat} (h : b.remaining < n) :
    peek n b = .error (.underflow b.readPos n b.remaining) b :=
  if_neg (by omega)

theorem skip_of_le {n : Nat} (h : n ≤ b.remaining) : skip n b = .ok () (b.advance n h) :=
  dif_pos h

theorem skip_of_lt {n : Nat} (h : b.remaining < n) :
    skip n b = .error (.underflow b.readPos n b.remaining) b :=
  dif_neg (by omega)

/-- Reading looks at just as many bytes as the layout has, and counts them as read if they
are a value. -/
theorem read_of_le (h : L.size ≤ b.remaining) :
    read L b =
      match L.take (.ofBytes (b.unread.take L.size)) with
      | .ok a _ => .ok a (b.advance L.size h)
      | .error f _ => .error f b := by
  rw [read, bind_of_ok (peek_of_le h)]
  cases L.take (.ofBytes (b.unread.take L.size)) with
  | ok a s => exact bind_of_ok (skip_of_le h)
  | error f s => rfl

theorem read_of_lt (h : b.remaining < L.size) :
    read L b = .error (.underflow b.readPos L.size b.remaining) b :=
  bind_of_error (peek_of_lt h)

/-- Reading that fails leaves everything as it was. -/
theorem eq_of_read_eq_error (h : read L b = .error f b') : b' = b := by
  by_cases hle : L.size ≤ b.remaining
  · rw [read_of_le hle] at h
    split at h
    · cases h
    · cases h
      rfl
  · rw [read_of_lt (by omega)] at h
    cases h
    rfl

theorem read_of_reads (h : L.Reads bs a) (hb : b.unread = bs ++ rest) :
    ∃ b', read L b = .ok a b' ∧ b.Consumes bs b' := by
  obtain ⟨hle, hconsumes⟩ := Buffer.consumes_advance hb
  refine ⟨_, ?_, hconsumes⟩
  have hnext : b.unread.take L.size = bs := by
    rw [← h.length_eq, hb, List.take_left]
  rw [read_of_le (h.length_eq ▸ hle), hnext, h.take_ofBytes]
  simp only [h.length_eq]

theorem exists_take_of_read (h : read L b = .ok a b') :
    ∃ bs s, L.take (.ofBytes bs) = .ok a s ∧ bs.length = L.size ∧ b.Consumes bs b' := by
  by_cases hle : L.size ≤ b.remaining
  · rw [read_of_le hle] at h
    split at h
    · rename_i a' s htake
      cases h
      have hlen : (b.unread.take L.size).length = L.size := by
        rw [List.length_take, Buffer.length_unread, Nat.min_eq_left hle]
      refine ⟨_, s, htake, hlen, ?_, hlen.symm ▸ hle, by simp only [hlen]⟩
      rw [Buffer.unread_advance, List.take_append_drop]
    · cases h
  · rw [read_of_lt (by omega)] at h
    cases h

/-- A value is read if and only if the bytes that it is written as come next. -/
theorem read_eq_ok_iff (hL : L.Lawful) : read L b = .ok a b' ↔ b.Consumes (L.bytes a) b' := by
  constructor
  · intro h
    obtain ⟨bs, s, htake, hlen, hconsumes⟩ := exists_take_of_read h
    rwa [← hL.eq_bytes_of_take hlen htake]
  · intro h
    obtain ⟨b₁, hread, h₁⟩ := read_of_reads (hL.codes a).reads h.unread_eq
    exact h.unique h₁ ▸ hread

/-- An action that takes just the bytes of its result has no choice if those of some result come
next. -/
theorem eq_of_unread_eq_append {m : Stream α} {bytes : α → Bytes} {a' : α} {rest : Bytes}
    (hm : ∀ {a b'}, m b = .ok a b' ↔ b.Consumes (bytes a) b') (hb : b.unread = bytes a ++ rest)
    (h : m b = .ok a' b') : a' = a := by
  obtain ⟨_, hconsumes⟩ := Buffer.consumes_advance hb
  rw [hm.2 hconsumes] at h
  cases h
  rfl

theorem eq_of_read_eq_ok {c : α} (hL : L.Lawful) (h : read L b = .ok a b')
    (hconsumes : b.Consumes (L.bytes c) b') : a = c := by
  rw [(read_eq_ok_iff hL).2 hconsumes] at h
  cases h
  rfl

theorem write_of_writes (h : L.Writes a bs) (b : Buffer) :
    write L a b = .ok () (b.append bs) := by
  have hfree : (b.window L.size).free.length = L.size := by
    have := (b.window L.size).length_eq
    rwa [show (b.window L.size).filled = [] from rfl, List.length_nil, Nat.zero_add] at this
  have hroom : bs.length ≤ (b.window L.size).free.length :=
    Nat.le_of_eq (h.length_eq.trans hfree.symm)
  have hcontents : ((b.window L.size).fill bs hroom).contents = bs := by
    change [] ++ bs ++ (b.window L.size).free.drop bs.length = bs
    rw [List.drop_eq_nil_of_le (Nat.le_of_eq (hfree.trans h.length_eq.symm)), List.append_nil,
      List.nil_append]
  rw [write, h.put_eq _ hroom]
  simp only [hcontents]

theorem write_receives (h : L.Writes a bs) (b : Buffer) :
    ∃ b', write L a b = .ok () b' ∧ b.Receives bs b' :=
  ⟨_, write_of_writes h b, b.receives_append bs⟩

/-- The action never fails, and adds these bytes behind the written ones. -/
def Appends (m : Stream Unit) (bs : Bytes) : Prop :=
  ∀ b, ∃ b', m b = .ok () b' ∧ b.Receives bs b'

/-! ## Actions that only read -/

section OnlyReads

variable {β γ : Type} {m : Stream β} {f : β → Stream γ}

/-- The buffer that an action leaves, whether it fails or not. -/
def final (m : Stream β) (b : Buffer) : Buffer :=
  match m b with
  | .ok _ b' => b'
  | .error _ b' => b'

theorem final_of_ok {x : β} (h : m b = .ok x b') : m.final b = b' := by
  rw [final, h]

theorem final_of_error {fault : Fault} (h : m b = .error fault b') : m.final b = b' := by
  rw [final, h]

/-- Whatever comes of it, the action reads some bytes and does nothing else to a buffer. -/
def OnlyReads (m : Stream β) : Prop :=
  ∀ b : Buffer, ∃ bs, b.Consumes bs (m.final b)

theorem onlyReads_pure (x : β) : (pure x : Stream β).OnlyReads :=
  fun b => ⟨[], .refl b⟩

theorem onlyReads_throw (fault : Fault) : (throw fault : Stream β).OnlyReads :=
  fun b => ⟨[], .refl b⟩

theorem OnlyReads.bind (hm : m.OnlyReads) (hf : ∀ x, (f x).OnlyReads) :
    (m >>= f).OnlyReads := by
  intro b
  obtain ⟨bs, hbs⟩ := hm b
  cases h : m b with
  | ok x b₁ =>
    obtain ⟨cs, hcs⟩ := hf x b₁
    rw [final_of_ok h] at hbs
    have hfinal : (m >>= f).final b = (f x).final b₁ := by
      rw [final, bind_of_ok h, final]
    exact ⟨bs ++ cs, hfinal ▸ hbs.trans hcs⟩
  | error fault b₁ =>
    rw [final_of_error h] at hbs
    rw [final_of_error (bind_of_error h)]
    exact ⟨bs, hbs⟩

theorem onlyReads_read (L : Layout α) : (read L).OnlyReads := by
  intro b
  cases h : read L b with
  | ok a b' =>
    obtain ⟨bs, -, -, -, hconsumes⟩ := exists_take_of_read h
    exact ⟨bs, final_of_ok h ▸ hconsumes⟩
  | error fault b' =>
    rw [final_of_error h, eq_of_read_eq_error h]
    exact ⟨[], .refl b⟩

theorem onlyReads_verify (d : Descriptor) : (verify d).OnlyReads := by
  refine (onlyReads_read Descriptor.layout).bind fun found => ?_
  split
  · exact onlyReads_pure ()
  · exact onlyReads_throw _

theorem onlyReads_readRecord (d : Descriptor) (L : Layout α) : (readRecord d L).OnlyReads :=
  (onlyReads_verify d).bind fun _ => onlyReads_read L

end OnlyReads

/-! ## Faults of readers -/

section FailsWith

variable {β γ : Type} {m : Stream β} {f : β → Stream γ} {P : Fault → Buffer → Prop}

/-- Where the action fails, its fault and the buffer that it leaves satisfy `P`. -/
def FailsWith (m : Stream β) (P : Fault → Buffer → Prop) : Prop :=
  ∀ b fault b', m b = .error fault b' → P fault b'

/-- The action never fails with a misuse. -/
def Safe (m : Stream β) : Prop :=
  ∀ b fault b', m b = .error fault b' → fault.isMisuse = false

theorem failsWith_pure (x : β) : (pure x : Stream β).FailsWith P := by
  rintro b fault b' ⟨⟩

theorem failsWith_throw {fault : Fault} (h : ∀ b, P fault b) :
    (throw fault : Stream β).FailsWith P := by
  rintro b _ b' ⟨⟩
  exact h b

/-- The second part may depend on what the first one has read. -/
theorem FailsWith.bind_of_ok (hm : m.FailsWith P)
    (hf : ∀ b x b', m b = .ok x b' → ∀ fault b'', f x b' = .error fault b'' → P fault b'') :
    (m >>= f).FailsWith P := by
  intro b fault b' h
  obtain h | ⟨x, b₁, hok, h⟩ := bind_eq_error_iff.1 h
  · exact hm b fault b' h
  · exact hf b x b₁ hok fault b' h

theorem FailsWith.bind (hm : m.FailsWith P) (hf : ∀ x, (f x).FailsWith P) :
    (m >>= f).FailsWith P :=
  hm.bind_of_ok fun _ x b' _ => hf x b'

variable (hshort : ∀ b n, P (.underflow b.readPos n b.remaining) b)
  (hbad : ∀ m b, P (.invalidData m) b)

include hshort hbad

theorem failsWith_read (hL : L.Decisive) : (read L).FailsWith P := by
  intro b fault b' h
  by_cases hle : L.size ≤ b.remaining
  · have hlen : L.size ≤ (Source.ofBytes (b.unread.take L.size)).rest.length := by
      change L.size ≤ (b.unread.take L.size).length
      rw [List.length_take, Buffer.length_unread]
      exact Nat.le_min.2 ⟨Nat.le_refl _, hle⟩
    rw [read_of_le hle] at h
    obtain ⟨a, ha⟩ | ⟨m, s, hm⟩ := hL _ hlen
    · rw [ha] at h
      cases h
    · rw [hm] at h
      cases h
      exact hbad m _
  · rw [read_of_lt (by omega)] at h
    cases h
    exact hshort _ _

theorem failsWith_readDescriptor : readDescriptor.FailsWith P :=
  failsWith_read hshort hbad Descriptor.decisive_layout

theorem failsWith_verify {d : Descriptor}
    (hother : ∀ found b, b.JustRead (Descriptor.layout.bytes found) → found ≠ d →
      P (.typeMismatch d.text found.text) b) : (verify d).FailsWith P := by
  refine (failsWith_readDescriptor hshort hbad).bind_of_ok fun b found b' hfound => ?_
  have hconsumes := (read_eq_ok_iff Descriptor.lawful_layout).1 hfound
  intro fault b'' h
  split at h
  · cases h
  · rename_i hne
    cases h
    exact hother found _ hconsumes.justRead hne

end FailsWith

/-! ## Records -/

variable {d : Descriptor}

theorem readDescriptor_eq_ok_iff :
    readDescriptor b = .ok d b' ↔ b.Consumes (Descriptor.layout.bytes d) b' :=
  read_eq_ok_iff Descriptor.lawful_layout

/-- Another descriptor counts as read, too. -/
theorem verify_of_readDescriptor {found : Descriptor} (h : readDescriptor b = .ok found b') :
    verify d b =
      if found = d then .ok () b' else .error (.typeMismatch d.text found.text) b' := by
  rw [verify, bind_of_ok h]
  split <;> rfl

theorem verify_eq_ok_iff {u : Unit} :
    verify d b = .ok u b' ↔ b.Consumes (Descriptor.layout.bytes d) b' := by
  rw [← readDescriptor_eq_ok_iff]
  cases h : readDescriptor b with
  | ok found b₁ =>
    rw [verify_of_readDescriptor h]
    by_cases hd : found = d
    · rw [if_pos hd]
      constructor
      · rintro ⟨⟩
        rw [hd]
      · rintro ⟨⟩
        rfl
    · rw [if_neg hd]
      constructor
      · rintro ⟨⟩
      · rintro ⟨⟩
        exact absurd rfl hd
  | error f b₁ =>
    rw [verify, bind_of_error h]
    constructor
    · rintro ⟨⟩
    · rintro ⟨⟩

theorem readRecord_eq_ok_iff (hL : L.Lawful) :
    readRecord d L b = .ok a b' ↔
      b.Consumes (Descriptor.layout.bytes d ++ L.bytes a) b' := by
  rw [readRecord, bind_eq_ok_iff]
  constructor
  · rintro ⟨u, b₁, hd, ha⟩
    exact (verify_eq_ok_iff.1 hd).trans ((read_eq_ok_iff hL).1 ha)
  · intro h
    obtain ⟨b₁, h₁, h₂⟩ := h.of_append
    exact ⟨(), b₁, verify_eq_ok_iff.2 h₁, (read_eq_ok_iff hL).2 h₂⟩

theorem writeRecord_receives (h : L.Writes a bs) (b : Buffer) :
    ∃ b', writeRecord d L a b = .ok () b' ∧
      b.Receives (Descriptor.layout.bytes d ++ bs) b' := by
  obtain ⟨b₁, hd, h₁⟩ := write_receives (Descriptor.lawful_layout.codes d).writes b
  obtain ⟨b₂, ha, h₂⟩ := write_receives h b₁
  exact ⟨b₂, (bind_of_ok hd).trans ha, h₁.trans h₂⟩

end Stream

end RecordStream
