import RecordStream.Proofs.Command.Exchange

/-!
# Commands are written in one way only

Whatever the bytes of a buffer are: if a command is read from it, the bytes that were
read are those that the command is written as.  So no two records are read as the
same command, and nothing is accepted that a writer would not have written.

Along with that goes what the reader has checked of every node (`Registry.Checks`):
its descriptor is the registered one, and its children are not too many.
-/

namespace RecordStream

namespace Registry

open Command

variable {α : Type} [Recorded α]

/-- What holds of every node of a command that was read. -/
structure Checks (r : Registry α) (capacity : Nat) (n : Command α) : Prop where
  made : ∃ p, r.create? n.descriptor = some p ∧ p.descriptor = n.descriptor
  length_le : n.children.length ≤ capacity
  storable : ∀ a ∈ n.action?, Recorded.Storable a

/-- What the registry makes reads nothing but what is written. -/
def Strict (r : Registry α) (capacity : Nat) : Prop :=
  ∀ d p, r.create? d = some p → p.SameType (fun a _ => Recorded.Canonical a) capacity p

variable {r : Registry α} {capacity : Nat} {child : Stream (Command α)} {b b' : Buffer}
  {c p t : Command α}

/-- Whether whatever an action reads is the record of a command that passes the checks. -/
def ReadsChecked (r : Registry α) (capacity : Nat) (child : Stream (Command α)) : Prop :=
  ∀ {b b' : Buffer} {c : Command α}, child b = .ok c b' →
    (∀ n ∈ c.nodes, r.Checks capacity n) ∧ b.Consumes c.bytes b'

theorem readMany_checked (hchild : r.ReadsChecked capacity child) {n : Nat}
    {cs : List (Command α)} (h : readMany child n b = .ok cs b') :
    cs.length = n ∧ (∀ c ∈ cs, ∀ n ∈ c.nodes, r.Checks capacity n) ∧
      b.Consumes (cs.flatMap bytes) b' := by
  induction n generalizing b cs with
  | zero =>
    cases h
    exact ⟨rfl, fun c hc => absurd hc List.not_mem_nil, .refl _⟩
  | succ n ih =>
    obtain ⟨c, b₁, hc, h⟩ := bind_eq_ok_iff.1 h
    obtain ⟨ds, b₂, hds, hpure⟩ := bind_eq_ok_iff.1 h
    cases hpure
    obtain ⟨hchecks, hconsumes⟩ := hchild hc
    obtain ⟨hlen, hall, hconsumes'⟩ := ih hds
    refine ⟨by rw [List.length_cons, hlen], ?_, hconsumes.trans hconsumes'⟩
    intro d hd
    rcases List.mem_cons.1 hd with rfl | hd
    · exact hchecks
    · exact hall d hd

theorem readComposite_checked (hchild : r.ReadsChecked capacity child) {core : Core}
    {cs : List (Command α)} (h : readComposite child capacity b = .ok (core, cs) b') :
    cs.length ≤ capacity ∧ (∀ c ∈ cs, ∀ n ∈ c.nodes, r.Checks capacity n) ∧
      b.Consumes (core.bytes ++ (countLayout.bytes (.ofNat cs.length) ++ cs.flatMap bytes)) b' := by
  rw [readComposite_eq] at h
  obtain ⟨core', b₁, hcore, h⟩ := bind_eq_ok_iff.1 h
  obtain ⟨count, b₂, hcount, h⟩ := bind_eq_ok_iff.1 h
  split at h
  · cases h
  · rename_i hle
    obtain ⟨ds, b₃, hds, hpure⟩ := bind_eq_ok_iff.1 h
    cases hpure
    obtain ⟨hlen, hall, hconsumes⟩ := readMany_checked hchild hds
    -- the number that was read is the number that is written
    have hofNat : UInt64.ofNat cs.length = count := by
      rw [hlen, UInt64.ofNat_toNat]
    refine ⟨by omega, hall, ?_⟩
    rw [hofNat]
    exact (Core.read_eq_ok_iff.1 hcore).trans
      (((Stream.read_eq_ok_iff lawful_countLayout).1 hcount).trans hconsumes)

/-- A body is read as it is written, by a command of the type that is made for it. -/
theorem readBody_checked (hchild : r.ReadsChecked capacity child)
    (hp : p.SameType (fun a _ => Recorded.Canonical a) capacity p)
    (h : readBody child p b = .ok t b') :
    t.descriptor = p.descriptor ∧ t.children.length ≤ capacity ∧
      (∀ a ∈ t.action?, Recorded.Storable a) ∧
      (∀ c ∈ t.children, ∀ n ∈ c.nodes, r.Checks capacity n) ∧
      b.Consumes (t.core.bytes ++ (t.fieldBytes ++ t.children.flatMap bytes)) b' := by
  cases hp with
  | @null core =>
    obtain ⟨core', b₁, hcore, hpure⟩ := bind_eq_ok_iff.1 h
    cases hpure
    refine ⟨rfl, Nat.zero_le _, fun a ha => ?_, fun c hc => absurd hc List.not_mem_nil, ?_⟩
    · cases ha
    · have hconsumes := Core.read_eq_ok_iff.1 hcore
      rwa [← List.append_nil core'.bytes] at hconsumes
  | @leaf core _ a _ hp =>
    obtain ⟨core', b₁, hcore, h⟩ := bind_eq_ok_iff.1 h
    obtain ⟨a', b₂, ha', hpure⟩ := bind_eq_ok_iff.1 h
    cases hpure
    obtain ⟨hdescriptor, hstorable, hconsumes⟩ := hp.of_read ha'
    refine ⟨hdescriptor, Nat.zero_le _, fun a ha => ?_, fun c hc => absurd hc List.not_mem_nil, ?_⟩
    · cases ha
      exact hstorable
    · rw [← List.append_nil ((Recorded.fields a').bytes a')] at hconsumes
      exact (Core.read_eq_ok_iff.1 hcore).trans hconsumes
  | @composite core _ _ cs _ =>
    obtain ⟨⟨core', ds⟩, b₁, hread, hpure⟩ := bind_eq_ok_iff.1 h
    cases hpure
    obtain ⟨hlen, hall, hconsumes⟩ := readComposite_checked hchild hread
    refine ⟨rfl, hlen, fun a ha => ?_, hall, hconsumes⟩
    cases ha

theorem create?_of_instantiate {d : Descriptor} (h : r.instantiate d = .ok p) :
    r.create? d = some p ∧ p.descriptor = d := by
  unfold instantiate at h
  split at h
  · cases h
  · rename_i c hc
    split at h
    · cases h
      exact ⟨hc, ‹_›⟩
    · cases h

theorem readWithin_checked (hr : r.Strict capacity) (limit : Nat) :
    r.ReadsChecked capacity (r.readWithin limit) := by
  induction limit with
  | zero =>
    intro b b' c h
    cases h
  | succ limit ih =>
    intro b b' t h
    rw [readWithin_succ] at h
    obtain ⟨found, b₁, hfound, h⟩ := bind_eq_ok_iff.1 h
    cases hmake : r.instantiate found with
    | error fault =>
      rw [hmake] at h
      cases h
    | ok p =>
      rw [hmake] at h
      obtain ⟨hp, hdescriptor⟩ := create?_of_instantiate hmake
      obtain ⟨ht, hlen, hstorable, hall, hconsumes⟩ := readBody_checked ih (hr found p hp) h
      have hfound' : t.descriptor = found := ht.trans hdescriptor
      constructor
      · intro n hn
        rw [nodes_eq] at hn
        rcases List.mem_cons.1 hn with rfl | hn
        · refine ⟨⟨p, ?_, ht.symm⟩, hlen, hstorable⟩
          rw [hfound', hp]
        · obtain ⟨c, hc, hn⟩ := List.mem_flatMap.1 hn
          exact hall c hc n hn
      · rw [bytes_eq, headBytes, hfound']
        have htotal := (Stream.readDescriptor_eq_ok_iff.1 hfound).trans hconsumes
        simpa only [List.append_assoc] using htotal

theorem strict_withLeaves {actions : List α} (h : withLeaves capacity actions = .ok r)
    (hactions : ∀ a ∈ actions, Recorded.SameType a a) : r.Strict capacity := by
  intro d p hp
  obtain ⟨-, rfl | rfl | ⟨a, ha, rfl⟩⟩ := (create?_withLeaves h).1 hp
  · exact .null
  · exact .composite
  · exact .leaf (hactions a ha).canonical

/-- Reading is canonical.  If `readCommand` gives `t`, the bytes that it has consumed are those
that `t.write` appends to any buffer, `t.recordSize` of them.  Among them stands the descriptor of
every node, which is the registered one, and no composite has more children than `capacity`. -/
theorem readCommand_canonical {actions : List α} (hr : withLeaves capacity actions = .ok r)
    (hactions : ∀ a ∈ actions, Recorded.SameType a a) (h : r.readCommand b = .ok t b') :
    b'.written = b.written ∧ ∃ consumed,
      b.unread = consumed ++ b'.unread ∧ b'.readPos = b.readPos + consumed.length ∧
      consumed.length = t.recordSize ∧
      (∀ b₀, ∃ b₁, t.write b₀ = .ok () b₁ ∧ b₁.written = b₀.written ++ consumed) ∧
      ∀ before n after, t.nodes = before ++ n :: after →
        r.registered? n.descriptor = some n.descriptor ∧
        Descriptor.layout.decode ((consumed.drop (headSizes before)).take 212) =
          .ok n.descriptor ∧
        n.children.length ≤ capacity := by
  obtain ⟨hchecks, hconsumes⟩ := readWithin_checked (strict_withLeaves hr hactions) _ h
  have hstorable : t.Storable := fun n hn => (hchecks n hn).storable
  refine ⟨hconsumes.written_eq, t.bytes, hconsumes.unread_eq, hconsumes.readPos_eq,
    length_bytes hstorable, ?_, ?_⟩
  · intro b₀
    obtain ⟨b₁, hwrite, hreceives⟩ := write_receives hstorable b₀
    exact ⟨b₁, hwrite, hreceives.written_eq⟩
  · intro before n after hnodes
    have hn : n ∈ t.nodes := by
      rw [hnodes]
      exact List.mem_append_right _ List.mem_cons_self
    obtain ⟨p, hp, hdescriptor⟩ := (hchecks n hn).made
    refine ⟨?_, ?_, (hchecks n hn).length_le⟩
    · rw [registered?_withLeaves hr hp, hdescriptor]
    · obtain ⟨pre, rest, hbytes, hpre⟩ := exists_bytes_eq_append hstorable hnodes
      rw [hbytes, ← hpre, List.drop_left]
      exact decode_take_bytes n rest

/-- The sample is read from what was written of it. -/
theorem readCommand_canonical_sample :
    ∃ r b b' consumed, withLeaves 3 [Tally.inc, .addN 0, .dec] = .ok r ∧
      r.readCommand b = .ok (Tally.sample.fit 3) b' ∧ b.unread = consumed ++ b'.unread ∧
      consumed.length = (Tally.sample.fit 3).recordSize := by
  obtain ⟨r, hr⟩ : ∃ r, withLeaves 3 [Tally.inc, .addN 0, .dec] = .ok r := ⟨_, rfl⟩
  obtain ⟨b, b', -, -, hread⟩ := readCommand_sample hr
  obtain ⟨-, consumed, hconsumed, -, hsize, -⟩ :=
    readCommand_canonical hr (fun a _ => a.sameType_refl) hread
  exact ⟨r, b, b', consumed, hr, hread, hconsumed, hsize⟩

end Registry

end RecordStream
