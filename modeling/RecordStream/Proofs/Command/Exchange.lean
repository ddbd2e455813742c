import RecordStream.Proofs.Tally

/-!
# Commands through a buffer

A `Session` is a buffer to which commands are written and from which they are read, in any
order of `Session.Call`s, together with the commands sent and received so far.

The invariant `Session.Holds` says that what was received is what was sent first, and
that the unread bytes are the records of the rest.  Every step keeps it, so the buffer
is a queue of commands (`readCommand_of_schedule`).
-/

namespace RecordStream

open Command

/-- A buffer, and what has gone through it. -/
structure Session (α : Type) where
  buffer : Buffer
  sent : List (Command α)
  received : List (Command α)

/-- What is done to a buffer of commands. -/
inductive Session.Call (α : Type) where
  | write (c : Command α)
  | read

/-- The command that is written. -/
def Session.Call.command? {α : Type} : Call α → Option (Command α)
  | .write c => some c
  | .read => none

namespace Registry

variable {α : Type} [Recorded α]

/-- The record of the command goes through a buffer: it can be written, and every node
gets past the reader. -/
structure Carries (r : Registry α) (capacity : Nat) (t : Command α) : Prop
    extends Legible r capacity t where
  passes : ∀ n ∈ t.nodes, r.Passes capacity n

variable {r : Registry α} {capacity : Nat} {t : Command α} {b : Buffer} {rest : Bytes}

theorem Carries.readCommand (h : r.Carries capacity t) (hb : b.unread = t.bytes ++ rest) :
    ∃ b', r.readCommand b = .ok (t.fit capacity) b' ∧ b.Consumes t.bytes b' := by
  have hrun := readCommand_runsTo h.toLegible hb
  rw [stop?_eq_none h.passes] at hrun
  cases hrun with
  | @ok b' hread hconsumes => exact ⟨b', hread, hconsumes⟩

/-- A buffer without unread bytes stays as it is. -/
theorem readCommand_of_unread_eq_nil (hb : b.unread = []) :
    r.readCommand b = .error (.underflow b.readPos 212 0) b := by
  have hremaining : b.remaining = 0 := by
    rw [← Buffer.length_unread, hb, List.length_nil]
  have hlt : b.remaining < Descriptor.layout.size := by
    rw [hremaining]
    decide
  have hread : Stream.readDescriptor b = .error (.underflow b.readPos 212 0) b := by
    have herror := Stream.read_of_lt hlt
    rwa [hremaining] at herror
  change r.readWithin _ b = _
  rw [readWithin_succ, bind_of_error hread]

/-- The leaves of the command are of the given types, which store all their fields, and none
of its composites has more children than there is room for. -/
structure Allows (leaves : List α) (capacity : Nat) (t : Command α) : Prop where
  length_le : ∀ n ∈ t.nodes, n.children.length ≤ capacity
  leaf : ∀ n ∈ t.nodes, ∀ a ∈ n.action?, ∃ p ∈ leaves, Recorded.Restores p a

/-- What such a registry makes for a node of an allowed command. -/
theorem exists_create?_withLeaves {leaves : List α} (hr : withLeaves capacity leaves = .ok r)
    (h : Allows leaves capacity t) {n : Command α} (hn : n ∈ t.nodes) :
    ∃ p, r.create? n.descriptor = some p ∧ p.SameType Recorded.Restores capacity n := by
  cases n with
  | null core =>
    exact ⟨.null (.fresh nullId), (create?_withLeaves hr).2 ⟨rfl, .inl rfl⟩, .null⟩
  | composite core k cs =>
    exact ⟨.emptyComposite nullId capacity, (create?_withLeaves hr).2 ⟨rfl, .inr (.inl rfl)⟩,
      .composite⟩
  | leaf core a =>
    obtain ⟨p, hp, hrestores⟩ := h.leaf _ hn a rfl
    have hname : (Recorded.descriptor p).fullName = (Recorded.descriptor a).fullName := by
      rw [hrestores.descriptor_eq]
    exact ⟨.leaf (.fresh nullId) p, (create?_withLeaves hr).2 ⟨hname, .inr (.inr ⟨p, hp, rfl⟩)⟩,
      .leaf hrestores⟩

theorem carries_withLeaves {leaves : List α} (hr : withLeaves capacity leaves = .ok r)
    (hcapacity : capacity < UInt64.size) (h : Allows leaves capacity t) : r.Carries capacity t where
  toLegible := by
    refine legible_of_exists_create? (fun n hn => ?_) fun n hn => exists_create?_withLeaves hr h hn
    exact Nat.lt_of_le_of_lt (h.length_le n hn) hcapacity
  passes := by
    intro n hn
    obtain ⟨p, hp, -⟩ := exists_create?_withLeaves hr h hn
    exact ⟨contains_of_create? hp, h.length_le n hn⟩

/-! ### The sample -/

/-- The leaves of the sample are of three types, and none of its composites has more than three
children. -/
theorem allows_sample : Allows [Tally.inc, .addN 0, .dec] 3 Tally.sample where
  length_le := by decide
  leaf := by
    have hknown : ∀ n ∈ Tally.sample.nodes, ∀ a ∈ n.action?,
        ∃ p ∈ [Tally.inc, .addN 0, .dec], p.fullName = a.fullName := by decide
    intro n hn a ha
    obtain ⟨p, hp, hname⟩ := hknown n hn a ha
    refine ⟨p, hp, (Tally.sameType hname ?_).restores⟩
    rintro hits rfl
    exact Tally.action?_sample n hn hits ha

section Sample

variable {r : Registry Tally} (hr : withLeaves 3 [Tally.inc, .addN 0, .dec] = .ok r)

include hr

/-- The registry of the types of its leaves carries the sample. -/
theorem carries_sample : r.Carries 3 Tally.sample :=
  carries_withLeaves hr (by decide) allows_sample

/-- The sample is read from what is written of it. -/
theorem readCommand_sample :
    ∃ b b', Tally.sample.write .empty = .ok () b ∧ Buffer.empty.Receives Tally.sample.bytes b ∧
      r.readCommand b = .ok (Tally.sample.fit 3) b' := by
  obtain ⟨b, hwrite, hreceives⟩ := write_receives Tally.storable_sample .empty
  obtain ⟨b', hread, -⟩ := (carries_sample hr).readCommand
    (hreceives.unread_eq_of_empty.trans (List.append_nil _).symm)
  exact ⟨b, b', hwrite, hreceives, hread⟩

end Sample

end Registry

namespace Session

variable {α : Type} [Recorded α] {r : Registry α} {capacity : Nat} {s : Session α}
  {done pending : List (Command α)} {t : Command α}

def start : Session α :=
  ⟨.empty, [], []⟩

/-- What fails leaves no trace in what was sent or received. -/
def step (r : Registry α) (s : Session α) : Call α → Session α
  | .write c =>
    match c.write s.buffer with
    | .ok _ b => { s with buffer := b, sent := s.sent ++ [c] }
    | .error _ b => { s with buffer := b }
  | .read =>
    match r.readCommand s.buffer with
    | .ok c b => { s with buffer := b, received := s.received ++ [c] }
    | .error _ b => { s with buffer := b }

theorem step_write_of_ok {b : Buffer} (h : t.write s.buffer = .ok () b) :
    s.step r (.write t) = { s with buffer := b, sent := s.sent ++ [t] } := by
  rw [step, h]

theorem step_read_of_ok {b : Buffer} (h : r.readCommand s.buffer = .ok t b) :
    s.step r .read = { s with buffer := b, received := s.received ++ [t] } := by
  rw [step, h]

def run (r : Registry α) (calls : List (Call α)) : Session α :=
  calls.foldl (step r) start

/-- The commands `done` have been received, and after them `pending` have been sent. -/
structure Holds (r : Registry α) (capacity : Nat) (s : Session α)
    (done pending : List (Command α)) : Prop where
  sent_eq : s.sent = done ++ pending
  received_eq : s.received = done.map (fit capacity)
  unread_eq : s.buffer.unread = pending.flatMap bytes
  carries : ∀ t ∈ pending, r.Carries capacity t

theorem holds_start : (start : Session α).Holds r capacity [] [] :=
  ⟨rfl, rfl, rfl, fun _ ht => absurd ht List.not_mem_nil⟩

theorem Holds.step_write (h : s.Holds r capacity done pending) (ht : r.Carries capacity t) :
    (s.step r (.write t)).Holds r capacity done (pending ++ [t]) := by
  obtain ⟨b, hwrite, hreceives⟩ := write_receives ht.storable s.buffer
  rw [step_write_of_ok hwrite]
  refine ⟨?_, h.received_eq, ?_, ?_⟩
  · rw [h.sent_eq, List.append_assoc]
  · rw [hreceives.unread_eq, h.unread_eq, List.flatMap_append, List.flatMap_singleton]
  · intro u hu
    rcases List.mem_append.1 hu with hu | hu
    · exact h.carries u hu
    · rw [List.mem_singleton.1 hu]
      exact ht

/-- The first pending command is read. -/
theorem Holds.readCommand (h : s.Holds r capacity done (t :: pending)) :
    ∃ b, r.readCommand s.buffer = .ok (t.fit capacity) b ∧ s.buffer.Consumes t.bytes b := by
  have hunread : s.buffer.unread = t.bytes ++ pending.flatMap bytes := by
    rw [h.unread_eq, List.flatMap_cons]
  exact (h.carries t List.mem_cons_self).readCommand hunread

theorem Holds.step_read (h : s.Holds r capacity done (t :: pending)) :
    (s.step r .read).Holds r capacity (done ++ [t]) pending := by
  obtain ⟨b, hread, hconsumes⟩ := h.readCommand
  rw [step_read_of_ok hread]
  refine ⟨?_, ?_, ?_, fun u hu => h.carries u (List.mem_cons_of_mem _ hu)⟩
  · rw [h.sent_eq, List.append_assoc, List.singleton_append]
  · rw [h.received_eq, List.map_append, List.map_singleton]
  · refine hconsumes.unread_eq_of_append ?_
    rw [h.unread_eq, List.flatMap_cons]

theorem Holds.step_read_nil (h : s.Holds r capacity done []) : s.step r .read = s := by
  rw [step, Registry.readCommand_of_unread_eq_nil h.unread_eq]

/-- One call keeps the invariant, whatever it is. -/
theorem Holds.exists_step (h : s.Holds r capacity done pending) (call : Call α)
    (hcall : ∀ t ∈ call.command?, r.Carries capacity t) :
    ∃ done' pending', (s.step r call).Holds r capacity done' pending' ∧
      done' ++ pending' = done ++ pending ++ call.command?.toList := by
  cases call with
  | write t =>
    refine ⟨done, pending ++ [t], h.step_write (hcall t rfl), ?_⟩
    rw [← List.append_assoc]
    rfl
  | read =>
    cases pending with
    | nil => exact ⟨done, [], h.step_read_nil.symm ▸ h, (List.append_nil _).symm⟩
    | cons t pending =>
      refine ⟨done ++ [t], pending, h.step_read, ?_⟩
      rw [List.append_assoc, List.singleton_append]
      exact (List.append_nil _).symm

/-- Any calls keep the invariant, in any order. -/
theorem Holds.exists_foldl (h : s.Holds r capacity done pending) {calls : List (Call α)}
    (hcalls : ∀ t ∈ calls.filterMap Call.command?, r.Carries capacity t) :
    ∃ done' pending', (calls.foldl (step r) s).Holds r capacity done' pending' ∧
      done' ++ pending' = done ++ pending ++ calls.filterMap Call.command? := by
  -- the invariant is carried along the calls, with the commands that they send
  induction calls generalizing s done pending with
  | nil => exact ⟨done, pending, h, (List.append_nil _).symm⟩
  | cons call calls ih =>
    have hsplit : (call :: calls).filterMap Call.command? =
        call.command?.toList ++ calls.filterMap Call.command? := by
      rw [List.filterMap_cons]
      cases call <;> rfl
    rw [hsplit] at hcalls ⊢
    obtain ⟨done₁, pending₁, h₁, heq₁⟩ := h.exists_step call fun t ht =>
      hcalls t (List.mem_append_left _ (Option.mem_toList.2 ht))
    obtain ⟨done₂, pending₂, h₂, heq₂⟩ := ih h₁ fun t ht => hcalls t (List.mem_append_right _ ht)
    refine ⟨done₂, pending₂, h₂, ?_⟩
    rw [heq₂, heq₁, List.append_assoc]

end Session

namespace Registry

variable {α : Type} [Recorded α] [DecidableEq α] {r : Registry α}

/-- A buffer of commands is a queue.  After any `Session.run` of writes and reads all commands
that were to be written are sent, and the `k`th one received `equals` the `k`th one sent.
`readCommand` then gives the next one sent and advances by its `recordSize`; if all have been
received it fails with an `underflow` and changes nothing.

The invariant is `Session.Holds`: what was received is the front of what was sent, and the unread
bytes are the records of the rest.  The capacity is one that composites can be made with
(`capacityLimit`). -/
theorem readCommand_of_schedule {leaves : List α} {capacity : Nat}
    (hcapacity : capacity < capacityLimit) (hr : withLeaves capacity leaves = .ok r)
    {calls : List (Session.Call α)}
    (hcalls : ∀ t ∈ calls.filterMap Session.Call.command?, Allows leaves capacity t)
    {s : Session α} (hs : s = Session.run r calls) :
    s.sent = calls.filterMap Session.Call.command? ∧
    s.received.length ≤ s.sent.length ∧
    (∀ (k : Nat) (got t : Command α), s.received[k]? = some got → s.sent[k]? = some t →
      got.equals t = true) ∧
    (∀ t, s.sent[s.received.length]? = some t → ∃ got b,
      r.readCommand s.buffer = .ok got b ∧ got.equals t = true ∧
      b.readPos = s.buffer.readPos + t.recordSize ∧ b.written = s.buffer.written) ∧
    (s.received.length = s.sent.length →
      r.readCommand s.buffer = .error (.underflow s.buffer.readPos 212 0) s.buffer) := by
  obtain ⟨done, pending, h, hdone⟩ := Session.holds_start.exists_foldl fun t ht =>
    carries_withLeaves hr (lt_size_of_lt_capacityLimit hcapacity) (hcalls t ht)
  change (Session.run r calls).Holds r capacity done pending at h
  rw [← hs] at h
  have hlen : s.received.length = done.length := by
    rw [h.received_eq, List.length_map]
  refine ⟨?_, ?_, ?_, ?_, ?_⟩
  · rw [h.sent_eq, hdone]
    rfl
  · rw [hlen, h.sent_eq, List.length_append]
    omega
  · intro k got t hgot ht
    rw [h.received_eq, List.getElem?_map] at hgot
    obtain ⟨u, hu, rfl⟩ := Option.map_eq_some_iff.1 hgot
    have hk := (List.getElem?_eq_some_iff.1 hu).1
    rw [h.sent_eq, List.getElem?_append_left hk, hu] at ht
    cases ht
    exact equals_fit _ _
  · intro t ht
    rw [hlen, h.sent_eq, List.getElem?_append_right (Nat.le_refl _), Nat.sub_self] at ht
    cases pending with
    | nil => cases ht
    | cons u pending =>
      cases ht
      obtain ⟨b, hread, hconsumes⟩ := h.readCommand
      refine ⟨_, b, hread, equals_fit _ _, ?_, hconsumes.written_eq⟩
      rw [hconsumes.readPos_eq, length_bytes (h.carries t List.mem_cons_self).storable]
  · intro heq
    have hnil : pending = [] := by
      rw [hlen, h.sent_eq, List.length_append] at heq
      exact List.eq_nil_of_length_eq_zero (by omega)
    rw [hnil] at h
    exact readCommand_of_unread_eq_nil h.unread_eq

/-- A sample that was written is read. -/
theorem readCommand_of_schedule_sample :
    3 < capacityLimit ∧ ∃ r b got b', withLeaves 3 [Tally.inc, .addN 0, .dec] = .ok r ∧
      Tally.sample.write .empty = .ok () b ∧ r.readCommand b = .ok got b' ∧
      got.equals Tally.sample = true ∧ b'.readPos = b.readPos + Tally.sample.recordSize := by
  have hcapacity : 3 < capacityLimit := by decide
  obtain ⟨r, hr⟩ : ∃ r, withLeaves 3 [Tally.inc, .addN 0, .dec] = .ok r := ⟨_, rfl⟩
  obtain ⟨b, -, hwrite, -, -⟩ := readCommand_sample hr
  have hcalls : ∀ t ∈ [Session.Call.write Tally.sample].filterMap Session.Call.command?,
      Allows [Tally.inc, .addN 0, .dec] 3 t := by
    intro t ht
    rw [List.mem_singleton.1 ht]
    exact allows_sample
  have hs : ⟨b, [Tally.sample], []⟩ = Session.run r [.write Tally.sample] := by
    rw [Session.run, List.foldl_cons, Session.step_write_of_ok (s := .start) hwrite]
    rfl
  obtain ⟨-, -, -, hnext, -⟩ := readCommand_of_schedule hcapacity hr hcalls hs
  obtain ⟨got, b', hread, hequals, hpos, -⟩ := hnext Tally.sample rfl
  exact ⟨hcapacity, r, b, got, b', hr, hwrite, hread, hequals, hpos⟩

end Registry

end RecordStream
