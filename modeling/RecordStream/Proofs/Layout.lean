import RecordStream.Descriptor

/-!
# What layouts write and read

A layout `Writes` a value as some bytes if it fills any window that has room for
them with just these, and `Reads` them if it takes them off any source, whatever
follows there.  It is `Lawful` if every value is written and read back, and if
nothing else is read than what is written: then values and the byte lists that
are read correspond one to one.

The layouts of words, blocks, truth values, names and descriptors are lawful, and
so are those that are built from lawful ones.
-/

namespace RecordStream

/-! ## Runs of actions -/

section Runs

variable {ε σ α β : Type} {m : EStateM ε σ α} {f : α → EStateM ε σ β} {s s' : σ}

theorem bind_of_ok {a : α} (h : m s = .ok a s') : (m >>= f) s = f a s' := by
  change EStateM.bind m f s = _
  rw [EStateM.bind, h]

theorem bind_of_error {e : ε} (h : m s = .error e s') : (m >>= f) s = .error e s' := by
  change EStateM.bind m f s = _
  rw [EStateM.bind, h]

/-- What went well went well in both of its parts. -/
theorem bind_eq_ok_iff {b : β} :
    (m >>= f) s = .ok b s' ↔ ∃ a t, m s = .ok a t ∧ f a t = .ok b s' := by
  cases h : m s with
  | ok a t =>
    rw [bind_of_ok h]
    constructor
    · intro hf
      exact ⟨a, t, rfl, hf⟩
    · rintro ⟨_, _, hm, hf⟩
      cases hm
      exact hf
  | error e t =>
    rw [bind_of_error h]
    constructor
    · intro hf
      cases hf
    · rintro ⟨_, _, hm, _⟩
      cases hm

/-- What failed did so in its first part, or in the second one after the first went well. -/
theorem bind_eq_error_iff {e : ε} :
    (m >>= f) s = .error e s' ↔ m s = .error e s' ∨ ∃ a t, m s = .ok a t ∧ f a t = .error e s' := by
  cases h : m s with
  | ok a t =>
    rw [bind_of_ok h]
    constructor
    · intro hf
      exact .inr ⟨a, t, rfl, hf⟩
    · rintro (hm | ⟨_, _, hm, hf⟩)
      · cases hm
      · cases hm
        exact hf
  | error e' t =>
    rw [bind_of_error h]
    constructor
    · rintro ⟨⟩
      exact .inl rfl
    · rintro (hm | ⟨_, _, hm, _⟩)
      · cases hm
        rfl
      · cases hm

/-- If the good and the bad ends that have been foreseen cover all cases, there are no others. -/
theorem eq_iff_of_covered {good : α → σ → Prop} {bad : ε → σ → Prop}
    (hgood : ∀ a t, good a t → m s = .ok a t) (hbad : ∀ e t, bad e t → m s = .error e t)
    (hcovered : (∃ a t, good a t) ∨ ∃ e t, bad e t) :
    (∀ a t, m s = .ok a t ↔ good a t) ∧ ∀ e t, m s = .error e t ↔ bad e t := by
  obtain ⟨a', t', hend⟩ | ⟨e', t', hend⟩ := hcovered
  · have hm := hgood a' t' hend
    refine ⟨fun a t => ⟨fun h => ?_, hgood a t⟩, fun e t => ⟨fun h => ?_, hbad e t⟩⟩
    · cases hm.symm.trans h
      exact hend
    · cases hm.symm.trans h
  · have hm := hbad e' t' hend
    refine ⟨fun a t => ⟨fun h => ?_, hgood a t⟩, fun e t => ⟨fun h => ?_, hbad e t⟩⟩
    · cases hm.symm.trans h
    · cases hm.symm.trans h
      exact hend

/-- Where two runs go differs only if one of their parts does. -/
theorem bind_congr_of_ok {m' : EStateM ε σ α} {g : α → EStateM ε σ β} (hm : m' s = m s)
    (hf : ∀ a t, m s = .ok a t → g a t = f a t) : (m' >>= g) s = (m >>= f) s := by
  cases h : m s with
  | ok a t => rw [bind_of_ok h, bind_of_ok (hm.trans h), hf a t h]
  | error e t => rw [bind_of_error h, bind_of_error (hm.trans h)]

theorem pure_apply (a : α) : (pure a : EStateM ε σ α) s = .ok a s := rfl

end Runs

theorem Source.take_append {n offset : Nat} {bs : Bytes} (h : bs.length = n) (rest : Bytes) :
    take n ⟨offset, bs ++ rest⟩ = .ok ⟨bs, h⟩ ⟨offset + n, rest⟩ := by
  have hle : n ≤ (bs ++ rest).length := by
    rw [List.length_append, h]
    omega
  rw [take_of_le hle]
  simp only [List.take_left' h, List.drop_left' h]

theorem Source.rest_of_take {n : Nat} {s s' : Source} {b : Block n} (h : take n s = .ok b s') :
    s.rest = b.toBytes ++ s'.rest := by
  by_cases hle : n ≤ s.rest.length
  · rw [take_of_le hle] at h
    cases h
    exact (List.take_append_drop _ _).symm
  · rw [take_of_lt (by omega)] at h
    cases h

theorem Sink.fill_fill {n : Nat} (s : Sink n) {bs cs : Bytes} (hb : bs.length ≤ s.free.length)
    (hc : cs.length ≤ (s.fill bs hb).free.length) (h : (bs ++ cs).length ≤ s.free.length) :
    (s.fill bs hb).fill cs hc = s.fill (bs ++ cs) h := by
  simp only [Sink.fill, List.append_assoc, List.drop_drop, List.length_append]

namespace Layout

variable {α β ω : Type}

/-- `L` writes `a` as the bytes `bs`, whichever window they go to. -/
structure Writes (L : Layout α) (a : α) (bs : Bytes) : Prop where
  length_eq : bs.length = L.size
  put_eq : ∀ {n : Nat} (s : Sink n) (h : bs.length ≤ s.free.length),
    L.put a s = .ok () (s.fill bs h)

/-- `L` reads the bytes `bs` as `a`, whatever comes behind them. -/
structure Reads (L : Layout α) (bs : Bytes) (a : α) : Prop where
  length_eq : bs.length = L.size
  take_eq : ∀ (offset : Nat) (rest : Bytes),
    L.take ⟨offset, bs ++ rest⟩ = .ok a ⟨offset + bs.length, rest⟩

/-- `L` writes `a` as `bs` and reads it from there. -/
structure Codes (L : Layout α) (a : α) (bs : Bytes) : Prop where
  writes : L.Writes a bs
  reads : L.Reads bs a

/-- Every value is written and read back, and whatever is read is written like that. -/
structure Lawful (L : Layout α) : Prop where
  exists_codes : ∀ a, ∃ bs, L.Codes a bs
  codes_of_take : ∀ {s s' : Source} {a : α}, L.take s = .ok a s' →
    ∃ bs, L.Codes a bs ∧ s.rest = bs ++ s'.rest

/-- The bytes that a value is written as; none if it cannot be written. -/
def bytes (L : Layout α) (a : α) : Bytes :=
  match L.encode a with
  | .ok bs => bs
  | .error _ => []

theorem Writes.encode_eq {L : Layout α} {a : α} {bs : Bytes} (h : L.Writes a bs) :
    L.encode a = .ok bs := by
  have hroom : bs.length ≤ (Sink.ofByte L.size 0).free.length := by
    simp [Sink.ofByte, Sink.ofBytes, h.length_eq]
  rw [encode, h.put_eq _ hroom]
  simp [Sink.contents, Sink.fill, Sink.ofByte, Sink.ofBytes, h.length_eq]

theorem Writes.bytes_eq {L : Layout α} {a : α} {bs : Bytes} (h : L.Writes a bs) :
    L.bytes a = bs := by
  rw [bytes, h.encode_eq]

theorem Reads.take_ofBytes {L : Layout α} {a : α} {bs : Bytes} (h : L.Reads bs a) :
    L.take (.ofBytes bs) = .ok a ⟨0 + bs.length, []⟩ := by
  have htake := h.take_eq 0 []
  rwa [List.append_nil] at htake

theorem Reads.decode_eq {L : Layout α} {a : α} {bs : Bytes} (h : L.Reads bs a) :
    L.decode bs = .ok a := by
  rw [decode, if_pos h.length_eq, h.take_ofBytes]

theorem Codes.bytes_eq {L : Layout α} {a : α} {bs : Bytes} (h : L.Codes a bs) : L.bytes a = bs :=
  h.writes.bytes_eq

namespace Lawful

variable {L : Layout α} {M : Layout β}

theorem codes (hL : L.Lawful) (a : α) : L.Codes a (L.bytes a) := by
  obtain ⟨bs, h⟩ := hL.exists_codes a
  rwa [h.bytes_eq]

@[simp] theorem length_bytes (hL : L.Lawful) (a : α) : (L.bytes a).length = L.size :=
  (hL.codes a).writes.length_eq

theorem rest_of_take (hL : L.Lawful) {s s' : Source} {a : α} (h : L.take s = .ok a s') :
    s.rest = L.bytes a ++ s'.rest := by
  obtain ⟨bs, hcodes, hrest⟩ := hL.codes_of_take h
  rw [hcodes.bytes_eq, hrest]

/-- In a window of just the right size there is room for nothing but the bytes of the value. -/
theorem eq_bytes_of_take (hL : L.Lawful) {bs : Bytes} {s : Source} {a : α}
    (hlen : bs.length = L.size) (h : L.take (.ofBytes bs) = .ok a s) : bs = L.bytes a := by
  have hrest : bs = L.bytes a ++ s.rest := hL.rest_of_take h
  exact List.append_inj_left ((List.append_nil bs).trans hrest)
    (hlen.trans (hL.length_bytes a).symm)

/-- Values can be told apart by their bytes, whatever comes behind these. -/
theorem eq_of_append_eq (hL : L.Lawful) {a b : α} {rest rest' : Bytes}
    (h : L.bytes a ++ rest = L.bytes b ++ rest') : a = b ∧ rest = rest' := by
  obtain ⟨hbytes, hrest⟩ := List.append_inj h (by rw [hL.length_bytes, hL.length_bytes])
  have hdecode := (hL.codes a).reads.decode_eq
  rw [hbytes, (hL.codes b).reads.decode_eq] at hdecode
  cases hdecode
  exact ⟨rfl, hrest⟩

end Lawful

/-! ## Words and blocks -/

theorem codes_word [Word ω] (o : ByteOrder) (w : ω) :
    (word o).Codes w (Word.bytes o w) where
  writes := {
    length_eq := Word.length_bytes o w
    put_eq := fun _ h => Sink.put_of_le h }
  reads := {
    length_eq := Word.length_bytes o w
    take_eq := by
      intro offset rest
      have hlen := Word.length_bytes o w
      change (Source.take (Word.width ω) >>= fun b => pure (Word.ofBytes o b.toBytes)) _ = _
      rw [bind_of_ok (Source.take_append hlen rest), pure_apply, Word.ofBytes_bytes, hlen] }

theorem lawful_word [Word ω] (o : ByteOrder) : (word o : Layout ω).Lawful where
  exists_codes w := ⟨_, codes_word o w⟩
  codes_of_take := by
    intro s s' w h
    obtain ⟨b, t, htake, hpure⟩ := bind_eq_ok_iff.1 h
    cases hpure
    have hw := codes_word o (Word.ofBytes o b.toBytes : ω)
    rw [Word.bytes_ofBytes o b.length_toBytes] at hw
    exact ⟨b.toBytes, hw, Source.rest_of_take htake⟩

theorem codes_block {n : Nat} (b : Block n) : (block n).Codes b b.toBytes where
  writes := {
    length_eq := b.length_toBytes
    put_eq := fun _ h => Sink.put_of_le h }
  reads := {
    length_eq := b.length_toBytes
    take_eq := by
      intro offset rest
      rw [b.length_toBytes]
      exact Source.take_append b.length_toBytes rest }

theorem lawful_block (n : Nat) : (block n).Lawful where
  exists_codes b := ⟨_, codes_block b⟩
  codes_of_take h := ⟨_, codes_block _, Source.rest_of_take h⟩

theorem codes_nothing (a : α) : (nothing a).Codes a [] where
  writes := {
    length_eq := rfl
    put_eq := fun s _ => by
      change EStateM.Result.ok () s = .ok () (s.fill [] _)
      simp [Sink.fill] }
  reads := {
    length_eq := rfl
    take_eq := fun _ _ => rfl }

/-! ## Layouts built from others -/

section Building

variable {L : Layout α} {M : Layout β} {f : α → β} {g : β → α}

theorem Codes.pair {a : α} {b : β} {bs cs : Bytes} (ha : L.Codes a bs) (hb : M.Codes b cs) :
    (L.pair M).Codes (a, b) (bs ++ cs) := by
  have hlen : (bs ++ cs).length = (L.pair M).size := by
    rw [List.length_append, ha.writes.length_eq, hb.writes.length_eq, size_pair]
  refine ⟨⟨hlen, ?_⟩, ⟨hlen, ?_⟩⟩
  · intro n s h
    have hroom : bs.length ≤ s.free.length := by
      rw [List.length_append] at h
      omega
    have hrest : cs.length ≤ (s.fill bs hroom).free.length := by
      rw [List.length_append] at h
      simp only [Sink.fill, List.length_drop]
      omega
    change (L.put a >>= fun _ => M.put b) s = _
    rw [bind_of_ok (ha.writes.put_eq s hroom), hb.writes.put_eq _ hrest,
      Sink.fill_fill s hroom hrest h]
  · intro offset rest
    change (L.take >>= fun a => M.take >>= fun b => pure (a, b)) _ = _
    rw [List.append_assoc, bind_of_ok (ha.reads.take_eq offset _),
      bind_of_ok (hb.reads.take_eq _ rest), pure_apply, List.length_append, Nat.add_assoc]

theorem Lawful.pair (hL : L.Lawful) (hM : M.Lawful) : (L.pair M).Lawful where
  exists_codes p := ⟨_, (hL.codes p.1).pair (hM.codes p.2)⟩
  codes_of_take := by
    intro s s' p h
    obtain ⟨a, t, ha, h⟩ := bind_eq_ok_iff.1 h
    obtain ⟨b, u, hb, hpure⟩ := bind_eq_ok_iff.1 h
    cases hpure
    refine ⟨_, (hL.codes a).pair (hM.codes b), ?_⟩
    rw [hL.rest_of_take ha, hM.rest_of_take hb, List.append_assoc]

theorem Codes.checked {f : α → Except Fault β} {b : β} {bs : Bytes} (h : L.Codes (g b) bs)
    (hf : f (g b) = .ok b) : (L.checked f g).Codes b bs := by
  refine ⟨⟨h.writes.length_eq, h.writes.put_eq⟩, ⟨h.reads.length_eq, ?_⟩⟩
  intro offset rest
  change (L.take >>= fun a => _) _ = _
  rw [bind_of_ok (h.reads.take_eq offset rest), hf]
  rfl

/-- A check keeps the law if it accepts what is written and undoes it. -/
theorem Lawful.checked {f : α → Except Fault β} (hL : L.Lawful)
    (hf : ∀ a b, f a = .ok b ↔ a = g b) : (L.checked f g).Lawful where
  exists_codes b := ⟨_, (hL.codes (g b)).checked ((hf _ _).2 rfl)⟩
  codes_of_take := by
    intro s s' b h
    obtain ⟨a, t, ha, h⟩ := bind_eq_ok_iff.1 h
    cases hfa : f a with
    | error fault =>
      rw [hfa] at h
      cases h
    | ok b' =>
      rw [hfa] at h
      cases h
      have hab := (hf a b).1 hfa
      subst hab
      exact ⟨_, (hL.codes (g b)).checked hfa, hL.rest_of_take ha⟩

theorem Codes.imap {b : β} {bs : Bytes} (h : L.Codes (g b) bs) (hf : f (g b) = b) :
    (L.imap f g).Codes b bs := by
  refine ⟨⟨h.writes.length_eq, h.writes.put_eq⟩, ⟨h.reads.length_eq, ?_⟩⟩
  intro offset rest
  change (L.take >>= fun a => pure (f a)) _ = _
  rw [bind_of_ok (h.reads.take_eq offset rest), pure_apply, hf]

theorem Lawful.imap (hL : L.Lawful) (hf : ∀ a b, f a = b ↔ a = g b) : (L.imap f g).Lawful where
  exists_codes b := ⟨_, (hL.codes (g b)).imap ((hf _ _).2 rfl)⟩
  codes_of_take := by
    intro s s' b h
    obtain ⟨a, t, ha, hpure⟩ := bind_eq_ok_iff.1 h
    rw [pure_apply] at hpure
    injection hpure with hfa ht
    have hab := (hf a b).1 hfa
    subst hab ht
    exact ⟨_, (hL.codes (g b)).imap hfa, hL.rest_of_take ha⟩

end Building

theorem boolOfByte_eq_ok_iff (x : UInt8) (b : Bool) : boolOfByte x = .ok b ↔ x = b.toUInt8 := by
  have hfalse : false.toUInt8 = 0 := rfl
  have htrue : true.toUInt8 = 1 := rfl
  unfold boolOfByte
  split
  · cases b <;> simp [hfalse, htrue]
  · cases b <;> simp [hfalse, htrue]
  · rename_i hzero hone
    cases b
    · simpa [hfalse] using hzero
    · simpa [htrue] using hone

theorem codes_bool (b : Bool) : bool.Codes b [b.toUInt8] := by
  have hbytes : [b.toUInt8] = Word.bytes .native b.toUInt8 := by
    cases b <;> rfl
  rw [hbytes]
  exact (codes_word .native b.toUInt8).checked ((boolOfByte_eq_ok_iff _ b).2 rfl)

theorem lawful_bool : bool.Lawful :=
  (lawful_word .native).checked boolOfByte_eq_ok_iff

/-! ## Enough bytes -/

/-- Where there are as many bytes as the layout has, it reads just these, or finds them
malformed. -/
def Decisive (L : Layout α) : Prop :=
  ∀ s : Source, L.size ≤ s.rest.length →
    (∃ a, L.take s = .ok a ⟨s.offset + L.size, s.rest.drop L.size⟩) ∨
      ∃ m s', L.take s = .error (.invalidData m) s'

section Decisive

variable {L : Layout α} {M : Layout β} {g : β → α}

theorem decisive_block (n : Nat) : (block n).Decisive :=
  fun _ h => .inl ⟨_, Source.take_of_le h⟩

theorem decisive_word [Word ω] (o : ByteOrder) : (word o : Layout ω).Decisive :=
  fun _ h => .inl ⟨_, bind_of_ok (Source.take_of_le h)⟩

theorem decisive_nothing (a : α) : (nothing a).Decisive :=
  fun _ _ => .inl ⟨a, rfl⟩

theorem Decisive.imap {f : α → β} (hL : L.Decisive) : (L.imap f g).Decisive := by
  intro s h
  obtain ⟨a, ha⟩ | ⟨m, s', hm⟩ := hL s h
  · exact .inl ⟨f a, bind_of_ok ha⟩
  · exact .inr ⟨m, s', bind_of_error hm⟩

theorem Decisive.checked {f : α → Except Fault β} (hL : L.Decisive)
    (hf : ∀ a fault, f a = .error fault → ∃ m, fault = .invalidData m) :
    (L.checked f g).Decisive := by
  intro s h
  obtain ⟨a, ha⟩ | ⟨m, s', hm⟩ := hL s h
  · cases hfa : f a with
    | ok b =>
      refine .inl ⟨b, (bind_of_ok ha).trans ?_⟩
      rw [hfa]
      rfl
    | error fault =>
      obtain ⟨m, rfl⟩ := hf a fault hfa
      refine .inr ⟨m, ⟨s.offset + L.size, s.rest.drop L.size⟩, (bind_of_ok ha).trans ?_⟩
      rw [hfa]
      rfl
  · exact .inr ⟨m, s', bind_of_error hm⟩

theorem Decisive.pair (hL : L.Decisive) (hM : M.Decisive) : (L.pair M).Decisive := by
  intro s h
  rw [size_pair] at h
  obtain ⟨a, ha⟩ | ⟨m, s', hm⟩ := hL s (by omega)
  · obtain ⟨b, hb⟩ | ⟨m, s', hm⟩ := hM ⟨s.offset + L.size, s.rest.drop L.size⟩ (by
      rw [List.length_drop]
      omega)
    · refine .inl ⟨(a, b), (bind_of_ok ha).trans ((bind_of_ok hb).trans ?_)⟩
      rw [pure_apply, List.drop_drop, size_pair, Nat.add_assoc]
    · exact .inr ⟨m, s', (bind_of_ok ha).trans (bind_of_error hm)⟩
  · exact .inr ⟨m, s', bind_of_error hm⟩

theorem decisive_bool : bool.Decisive := by
  refine (decisive_word .native).checked fun x fault h => ?_
  unfold boolOfByte at h
  split at h
  · cases h
  · cases h
  · cases h
    exact ⟨_, rfl⟩

end Decisive

end Layout

/-! ## Names and descriptors -/

namespace Name

/-- The bytes of a name in front of its padding have no zero among them. -/
theorem ne_zero_of_mem_ofText (n : Name) {x : UInt8} (h : x ∈ Bytes.ofText n.text) :
    (x != 0) = true := by
  have hx : x ≠ 0 := by
    rintro rfl
    exact n.noNul ((Bytes.zero_mem_ofText_iff n.text).1 h)
  simpa using hx

theorem takeWhile_toBlock (n : Name) :
    n.toBlock.toBytes.takeWhile (· != 0) = Bytes.ofText n.text := by
  rw [toBlock, List.takeWhile_append_of_pos fun _ => n.ne_zero_of_mem_ofText]
  simp

theorem dropWhile_toBlock (n : Name) :
    n.toBlock.toBytes.dropWhile (· != 0) =
      List.replicate (maxSize - n.text.utf8ByteSize) 0 := by
  rw [toBlock, List.dropWhile_append_of_pos fun _ => n.ne_zero_of_mem_ofText]
  simp

theorem ofBlock_toBlock (n : Name) : ofBlock n.toBlock = .ok n := by
  have hzeros : (n.toBlock.toBytes.dropWhile (· != 0)).all (· == 0) = true := by
    rw [dropWhile_toBlock]
    simp
  unfold ofBlock
  rw [if_pos hzeros]
  split
  · rename_i hnone
    rw [takeWhile_toBlock, Bytes.toText?_ofText] at hnone
    cases hnone
  · rename_i s hsome
    rw [takeWhile_toBlock, Bytes.toText?_ofText] at hsome
    cases hsome
    rfl

theorem eq_toBlock_of_ofBlock {b : Block maxSize} {n : Name} (h : ofBlock b = .ok n) :
    b = n.toBlock := by
  obtain ⟨bs, hlen⟩ := b
  unfold ofBlock at h
  split at h
  case isFalse => cases h
  case isTrue hzeros =>
  split at h
  · cases h
  · rename_i s hsome
    cases h
    have htext : bs.takeWhile (· != 0) = Bytes.ofText s := Bytes.toText?_eq_some_iff.1 hsome
    have hpadding : bs.dropWhile (· != 0) =
        List.replicate (bs.dropWhile (· != 0)).length 0 := by
      refine List.eq_replicate_iff.2 ⟨rfl, fun x hx => ?_⟩
      simpa using List.all_eq_true.1 hzeros x hx
    have hsplit : Bytes.ofText s ++ bs.dropWhile (· != 0) = bs := by
      rw [← htext]
      exact List.takeWhile_append_dropWhile
    have hcount : (bs.dropWhile (· != 0)).length = maxSize - s.utf8ByteSize := by
      have hsum := congrArg List.length hsplit
      rw [List.length_append, Bytes.length_ofText, hlen] at hsum
      omega
    simp only [toBlock, Block.mk.injEq]
    rw [← hcount, ← hpadding, hsplit]

theorem ofBlock_eq_ok_iff (b : Block maxSize) (n : Name) : ofBlock b = .ok n ↔ b = n.toBlock :=
  ⟨eq_toBlock_of_ofBlock, fun h => h ▸ ofBlock_toBlock n⟩

theorem lawful_layout : layout.Lawful :=
  (Layout.lawful_block maxSize).checked ofBlock_eq_ok_iff

theorem decisive_layout : layout.Decisive := by
  refine (Layout.decisive_block maxSize).checked fun b fault h => ?_
  unfold ofBlock at h
  split at h
  · split at h
    · cases h
      exact ⟨_, rfl⟩
    · cases h
  · cases h
    exact ⟨_, rfl⟩

end Name

theorem Version.lawful_layout : Version.layout.Lawful :=
  ((Layout.lawful_word .native).pair ((Layout.lawful_word .native).pair
    (Layout.lawful_word .native))).imap fun _ _ =>
      ⟨by rintro rfl; rfl, by rintro rfl; rfl⟩

theorem Version.decisive_layout : Version.layout.Decisive :=
  ((Layout.decisive_word .native).pair ((Layout.decisive_word .native).pair
    (Layout.decisive_word .native))).imap

theorem Descriptor.lawful_layout : Descriptor.layout.Lawful :=
  (Name.lawful_layout.pair (Name.lawful_layout.pair Version.lawful_layout)).imap fun _ _ =>
    ⟨by rintro rfl; rfl, by rintro rfl; rfl⟩

theorem Descriptor.decisive_layout : Descriptor.layout.Decisive :=
  (Name.decisive_layout.pair (Name.decisive_layout.pair Version.decisive_layout)).imap

end RecordStream
