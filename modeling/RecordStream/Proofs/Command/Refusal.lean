import RecordStream.Proofs.Tally

/-!
# Where a written command is refused

A command that was written anywhere in a buffer is read from there unless one of its
nodes is refused: its type is not registered, or it has more children than the
registry gives composites room for.  The first such node, parents before children,
decides on the fault and on where the reader stops: right behind the descriptor of
the node, or right behind its number of children.  What comes after it does not matter.
-/

namespace RecordStream

/-- The action fails in such a buffer, at the given position, and leaves the bytes as they
are. -/
def Stream.FailsAt {β : Type} (m : Stream β) (b : Buffer) (f : Fault) (pos : Nat) : Prop :=
  ∃ b', m b = .error f b' ∧ b'.written = b.written ∧ b'.readPos = pos

theorem Stream.RunsTo.failsAt {β : Type} {m : Stream β} {b : Buffer} {bs : Bytes} {a : β}
    {s : Stop} (h : m.RunsTo b bs a (some s)) : m.FailsAt b s.fault (b.readPos + s.after) := by
  cases h with
  | error hm hb _ => exact ⟨_, hm, hb.written_eq, hb.readPos_eq⟩

namespace Registry

open Command

variable {α : Type} [Recorded α] {r : Registry α} {capacity : Nat}

/-- The first node that does not pass decides. -/
theorem stop?_append_cons {before after : List (Command α)} {n : Command α} {s : Stop}
    (hbefore : ∀ m ∈ before, r.Passes capacity m) (hn : r.refusal? capacity n = some s) :
    r.stop? capacity (before ++ n :: after) = some (s.behind (headSizes before)) := by
  rw [stop?_append, stop?_eq_none hbefore, stop?, hn]
  rfl

/-- A record is read from wherever it was written, up to the first node that the registry refuses.
If all nodes pass, `readCommand` gives the command and stops at the end of its record, whatever
follows.  Otherwise let `n` be the first node, in pre-order, that does not pass: the reader fails
with `unknownType` behind the descriptor of `n` (212 bytes), or with `capacityExceeded` behind its
number of children (441 bytes). -/
theorem readCommand_of_write {t : Command α} (hcount : t.Countable)
    (hleaves : ∀ n ∈ t.nodes, ∀ a ∈ n.action?, Recorded.SameType a a)
    (hsuits : r.Suits Recorded.SameType capacity t) (b₀ : Buffer) :
    ∃ b₁, t.write b₀ = .ok () b₁ ∧ ∀ (b : Buffer) (later : Bytes),
      b.written = b₁.written ++ later → b.readPos = b₀.length →
        ((∀ n ∈ t.nodes, r.Passes capacity n) → ∃ b', r.readCommand b = .ok (t.fit capacity) b' ∧
          b'.written = b.written ∧ b'.readPos = b.readPos + t.recordSize) ∧
        ∀ (before : List (Command α)) (n : Command α) (after : List (Command α)) (start : Nat),
          t.nodes = before ++ n :: after → (∀ m ∈ before, r.Passes capacity m) →
          start = b.readPos + headSizes before →
            (∃ c, n.write .empty = .ok () c ∧ c.written <+: b.written.drop start) ∧
            (r.contains n.descriptor = false →
              r.readCommand.FailsAt b (.unknownType n.descriptor.fullName) (start + 212)) ∧
            (r.contains n.descriptor = true → capacity < n.children.length →
              r.readCommand.FailsAt b (.capacityExceeded capacity) (start + 441)) := by
  have hstorable : t.Storable := fun n hn a ha => (hleaves n hn a ha).restores.storable
  -- what is unread is the record and what was written later
  obtain ⟨b₁, hwrite, hreceives⟩ := write_receives hstorable b₀
  refine ⟨b₁, hwrite, ?_⟩
  intro b later hwritten hpos
  have hlength : b₀.written.length = b.readPos := by
    rw [Buffer.length_written, hpos]
  have hunread : b.unread = t.bytes ++ later := by
    rw [Buffer.unread, hwritten, hreceives.written_eq, List.append_assoc, ← hlength,
      List.drop_left]
  have hlegible : r.Legible capacity t :=
    ⟨hstorable, hcount, fun n hn p hp => (hsuits n hn p hp).mono fun _ _ h => h.restores⟩
  have hrun := readCommand_runsTo hlegible hunread
  constructor
  · intro hpass
    rw [stop?_eq_none hpass] at hrun
    cases hrun with
    | ok hread hconsumes =>
      refine ⟨_, hread, hconsumes.written_eq, ?_⟩
      rw [hconsumes.readPos_eq, length_bytes hstorable]
  · intro before n after start hnodes hbefore hstart
    have hn : n ∈ t.nodes := by
      rw [hnodes]
      exact List.mem_append_right _ List.mem_cons_self
    refine ⟨?_, ?_, ?_⟩
    · obtain ⟨c, hc, hbytes⟩ := write_receives (hstorable.of_mem_nodes hn) .empty
      obtain ⟨pre, rest, hrest, hpre⟩ := exists_bytes_eq_append hstorable hnodes
      refine ⟨c, hc, rest ++ later, ?_⟩
      have hdrop : b.written.drop start = b.unread.drop pre.length := by
        rw [Buffer.unread, List.drop_drop, hpre, hstart]
      have hempty : Buffer.empty.written = [] := rfl
      rw [hbytes.written_eq, hempty, hdrop, hunread, hrest]
      simp only [List.nil_append, List.append_assoc, List.drop_left]
    · intro hknown
      have hn : r.refusal? capacity n = some ⟨.unknownType n.descriptor.fullName, 212⟩ := by
        rw [refusal?, hknown]
        rfl
      rw [hnodes, stop?_append_cons hbefore hn] at hrun
      rw [hstart, Nat.add_assoc]
      exact hrun.failsAt
    · intro hknown hlt
      have hn : r.refusal? capacity n = some ⟨.capacityExceeded capacity, 441⟩ := by
        rw [refusal?, if_pos hknown, if_pos hlt]
        rfl
      rw [hnodes, stop?_append_cons hbefore hn] at hrun
      rw [hstart, Nat.add_assoc]
      exact hrun.failsAt

/-- The sample, read where `dec` is not registered, is refused at its fifth node. -/
theorem readCommand_of_write_sample :
    ∃ r b₁, withLeaves 3 [Tally.inc, .addN 0] = .ok r ∧
      Tally.sample.write .empty = .ok () b₁ ∧
      r.readCommand.FailsAt b₁.rewind (.unknownType "tests::Dec") (1752 + 212) := by
  obtain ⟨r, hr, hcomposite, hinc, haddN, hdec⟩ :
      ∃ r, withLeaves 3 [Tally.inc, .addN 0] = .ok r ∧ r.contains .compositeCommand = true ∧
        r.contains (Recorded.descriptor Tally.inc) = true ∧
        r.contains (Recorded.descriptor (Tally.addN 5)) = true ∧
        r.contains (Recorded.descriptor Tally.dec) = false :=
    ⟨_, rfl, rfl, rfl, rfl, rfl⟩
  obtain ⟨b₁, hwrite, hread⟩ := readCommand_of_write Tally.countable_sample
    (fun _ hn _ ha => Tally.sameType_sample hn ha)
    (Tally.suits_withLeaves hr Tally.action?_sample) .empty
  refine ⟨r, b₁, hr, hwrite, ?_⟩
  have hwritten : b₁.rewind.written = b₁.written ++ [] := (List.append_nil _).symm
  obtain ⟨-, hrefused⟩ := hread b₁.rewind [] hwritten rfl
  obtain ⟨-, hunknown, -⟩ := hrefused (Tally.sample.nodes.take 4) (.leaf ⟨4, false⟩ .dec)
    [.null ⟨5, false⟩] 1752 rfl (by
      intro m hm
      simp [Tally.sample, nodes, nodesAll] at hm
      rcases hm with rfl | rfl | rfl | rfl
      · exact ⟨hcomposite, by decide⟩
      · exact ⟨hinc, by decide⟩
      · exact ⟨hcomposite, by decide⟩
      · exact ⟨haddN, by decide⟩) rfl
  exact hunknown hdec

end Registry

end RecordStream
