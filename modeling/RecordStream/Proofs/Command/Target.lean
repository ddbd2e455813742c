import RecordStream.Proofs.Command.Nesting
import RecordStream.Proofs.Layout.Canonical

/-!
# Reading by type and reading into a command

There are two ways to read a command.  A registry looks at the descriptor first and makes
a command of that type; or there is a command already, and the descriptor has to be the
one of its type.  From then on both read a body into a command, and what a command holds
before does not matter but for what is stored of it nowhere: the actions of leaves, and
the capacity of composites (`Command.blank`).

So if the registry makes for the type of a command one that is the same in this, then both
ways come to the same wherever the descriptor of that type comes next
(`Registry.readInto_eq_readCommand`).
-/

namespace RecordStream

namespace Outcome

variable {τ σ : Type} {o : Outcome τ σ} {x : τ} {s : σ} {fault : Fault}

theorem toResult_eq_ok_iff : o.toResult = .ok x s ↔ o = ⟨x, s, none⟩ := by
  obtain ⟨y, t, _ | fault⟩ := o
  · simp [toResult]
  · simp [toResult]

theorem toResult_eq_error_iff : o.toResult = .error fault s ↔ ∃ x, o = ⟨x, s, some fault⟩ := by
  obtain ⟨y, t, _ | fault⟩ := o
  · simp [toResult]
  · simp [toResult, and_comm]

end Outcome

theorem Stream.exists_readDescriptor {b : Buffer} {found : Descriptor}
    (h : Descriptor.layout.decode (b.unread.take 212) = .ok found) :
    ∃ b', readDescriptor b = .ok found b' ∧ b.Consumes (Descriptor.layout.bytes found) b' := by
  have hbytes := Descriptor.lawful_layout.decode_eq_ok_iff.1 h
  have hunread : b.unread = Descriptor.layout.bytes found ++ b.unread.drop 212 := by
    rw [← hbytes, List.take_append_drop]
  obtain ⟨hle, hconsumes⟩ := Buffer.consumes_advance hunread
  exact ⟨_, readDescriptor_eq_ok_iff.2 hconsumes, hconsumes⟩

namespace Command

variable {α : Type}

/-- A fresh command of the type of the given one: with the same action or capacity, and with
neither core nor children of its own. -/
def blank : Command α → Command α
  | .null _ => .null (.fresh nullId)
  | .leaf _ action => .leaf (.fresh nullId) action
  | .composite _ capacity _ => emptyComposite nullId capacity

variable [Recorded α] {p target : Command α}

theorem descriptor_blank (c : Command α) : c.blank.descriptor = c.descriptor := by
  cases c with
  | null core => rfl
  | leaf core action => rfl
  | composite core k cs => rfl

theorem readBody_blank (child : Stream (Command α)) (c : Command α) :
    readBody child c.blank = readBody child c := by
  cases c with
  | null core => rfl
  | leaf core action => rfl
  | composite core k cs => rfl

theorem descriptor_eq_of_blank_eq (h : p.blank = target.blank) :
    p.descriptor = target.descriptor := by
  rw [← descriptor_blank, h, descriptor_blank]

/-- What is read into a command does not depend on its core and its children. -/
theorem readBody_eq_of_blank_eq (h : p.blank = target.blank) (child : Stream (Command α)) :
    readBody child p = readBody child target := by
  rw [← readBody_blank, h, readBody_blank]

end Command

namespace Registry

open Command

variable {α : Type} [Recorded α] {r : Registry α} {p target : Command α} {b b' : Buffer}

/-- `readInto` verifies the descriptor and reads a body.  `toResult` drops what has become of the
target where that fails. -/
theorem toResult_readInto (r : Registry α) (target : Command α) (b : Buffer) :
    (r.readInto target b).toResult =
      (Stream.verify target.descriptor >>= fun _ => readBody r.readCommand target) b := by
  rw [readInto]
  cases h : Stream.verify target.descriptor b with
  | ok u b₁ =>
    rw [bind_of_ok h]
    exact toResult_fill r.readCommand target b₁
  | error fault b₁ =>
    rw [bind_of_error h]
    rfl

theorem toResult_readInto_eq_readCommand (hp : r.create? target.descriptor = some p)
    (hblank : p.blank = target.blank)
    (hd : Stream.readDescriptor b = .ok target.descriptor b') :
    (r.readInto target b).toResult = r.readCommand b := by
  have hverify : Stream.verify target.descriptor b = .ok () b' := by
    rw [Stream.verify_of_readDescriptor hd, if_pos rfl]
  have hmake := instantiate_of_create? hp (descriptor_eq_of_blank_eq hblank)
  calc (r.readInto target b).toResult
    _ = readBody r.readCommand target b' := by rw [toResult_readInto, bind_of_ok hverify]
    _ = readBody r.readCommand p b' := by rw [readBody_eq_of_blank_eq hblank]
    _ = r.readBy r.readCommand b := by rw [readBy, bind_of_ok hd, hmake]
    _ = r.readCommand b := readBy_readCommand b

theorem readInto_of_descriptor_ne {found : Descriptor} (hne : found ≠ target.descriptor)
    (hd : Stream.readDescriptor b = .ok found b') :
    r.readInto target b =
      ⟨target, b', some (.typeMismatch target.descriptor.text found.text)⟩ := by
  have hverify : Stream.verify target.descriptor b =
      .error (.typeMismatch target.descriptor.text found.text) b' := by
    rw [Stream.verify_of_readDescriptor hd, if_neg hne]
  rw [readInto, hverify]

/-- Reading by type and reading into a command agree.  Let `p` be what the registry makes for the
type of `target`, like it in action and capacity, and `found` the descriptor that comes next.  If
`found` is that of `target`, `readCommand` gives `c` if and only if `readInto` succeeds with `c`,
and the faults and the buffers are the same, too.  Otherwise `readInto` fails with `typeMismatch`
behind the descriptor and leaves `target` as it is. -/
theorem readInto_eq_readCommand (hp : r.create? target.descriptor = some p)
    (hblank : p.blank = target.blank) {found : Descriptor}
    (hfound : Descriptor.layout.decode (b.unread.take 212) = .ok found) :
    (found = target.descriptor →
      (∀ c b', r.readCommand b = .ok c b' ↔ r.readInto target b = ⟨c, b', none⟩) ∧
      ∀ fault b', r.readCommand b = .error fault b' ↔
        ∃ c, r.readInto target b = ⟨c, b', some fault⟩) ∧
    (found ≠ target.descriptor →
      ∃ b', r.readInto target b =
          ⟨target, b', some (.typeMismatch target.descriptor.text found.text)⟩ ∧
        b'.readPos = b.readPos + 212 ∧ b'.written = b.written) := by
  obtain ⟨b', hd, hconsumes⟩ := Stream.exists_readDescriptor hfound
  refine ⟨?_, fun hne => ⟨b', readInto_of_descriptor_ne hne hd, ?_, hconsumes.written_eq⟩⟩
  · rintro rfl
    rw [← toResult_readInto_eq_readCommand hp hblank hd]
    exact ⟨fun c b' => Outcome.toResult_eq_ok_iff, fun fault b' => Outcome.toResult_eq_error_iff⟩
  · rw [hconsumes.readPos_eq, Descriptor.lawful_layout.length_bytes, Descriptor.size_layout]

/-- The sample is read into an empty composite as it is read by type, and not read into an
increment. -/
theorem readInto_eq_readCommand_sample :
    ∃ r b b' b'', withLeaves 3 [Tally.inc, .addN 0, .dec] = .ok r ∧
      Tally.sample.write .empty = .ok () b ∧
      Descriptor.layout.decode (b.unread.take 212) = .ok .compositeCommand ∧
      r.create? .compositeCommand = some (.emptyComposite nullId 3) ∧
      r.readInto (.emptyComposite 9 3) b = ⟨Tally.sample.fit 3, b', none⟩ ∧
      r.create? (leaf (.fresh 9) Tally.inc).descriptor = some (.leaf (.fresh nullId) .inc) ∧
      r.readInto (.leaf (.fresh 9) .inc) b = ⟨.leaf (.fresh 9) .inc, b'',
        some (.typeMismatch "tests::Inc v1.0.0" "objwire::CompositeCommand v2.1.1")⟩ ∧
      b''.readPos = 212 := by
  obtain ⟨r, hr⟩ : ∃ r, withLeaves 3 [Tally.inc, .addN 0, .dec] = .ok r := ⟨_, rfl⟩
  obtain ⟨b, b', hwrite, hreceives, hread⟩ := readCommand_sample hr
  have hfound : Descriptor.layout.decode (b.unread.take 212) = .ok .compositeCommand := by
    rw [hreceives.unread_eq_of_empty, ← List.append_nil Tally.sample.bytes]
    exact decode_take_bytes Tally.sample []
  have hcomposite : r.create? (emptyComposite 9 3 : Command Tally).descriptor =
      some (.emptyComposite nullId 3) :=
    (create?_withLeaves hr).2 ⟨rfl, .inr (.inl rfl)⟩
  have hinc : r.create? (leaf (.fresh 9) Tally.inc).descriptor =
      some (.leaf (.fresh nullId) .inc) :=
    (create?_withLeaves hr).2 ⟨rfl, .inr (.inr ⟨.inc, List.mem_cons_self, rfl⟩)⟩
  obtain ⟨hsame, -⟩ := readInto_eq_readCommand hcomposite rfl hfound
  obtain ⟨-, hother⟩ := readInto_eq_readCommand hinc rfl hfound
  obtain ⟨b'', hmismatch, hreadPos, -⟩ := hother (by decide)
  have hstart : b.readPos = 0 := hreceives.readPos_eq
  rw [hstart, Nat.zero_add] at hreadPos
  exact ⟨r, b, b', b'', hr, hwrite, hfound, hcomposite, ((hsame rfl).1 _ _).1 hread, hinc,
    hmismatch, hreadPos⟩

end Registry

end RecordStream
