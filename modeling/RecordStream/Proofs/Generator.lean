import RecordStream.Proofs.IdPool
import RecordStream.Proofs.Record

/-!
# Generators go on where they were stored

A generator is asked by calls (`Generator.Call`) and answers with ids; `Generator.serve` is
a series of them.  Draws alone give an arithmetic progression modulo `2 ^ 64`
(`Generator.serve_replicate_draw`).

Reading the record of a generator into another one makes the other one answer any further
calls as the first one would, whatever has been asked of either before
(`Generator.resumes_from_record`).
-/

namespace RecordStream.Generator

/-- What may be asked of a generator. -/
inductive Call where
  | draw
  /-- What the next draw would give. -/
  | next
  | current
  | setValue (value : UInt64)

/-- The answer to a call is an id if the call is for one. -/
def Call.answer : Call → StateM Generator (Option EntityId)
  | draw => some <$> Generator.draw
  | next => fun g => (some g.next, g)
  | current => fun g => (some g.value, g)
  | setValue value => fun g => (none, { g with value })

/-- Answers some calls, from first to last. -/
def serve : List Call → StateM Generator (List (Option EntityId))
  | [] => pure []
  | c :: cs => do
    let id? ← c.answer
    return id? :: (← serve cs)

theorem serve_cons (c : Call) (cs : List Call) (g : Generator) :
    serve (c :: cs) g =
      ((c.answer g).1 :: (serve cs (c.answer g).2).1, (serve cs (c.answer g).2).2) :=
  rfl

theorem serve_append (cs ds : List Call) (g : Generator) :
    serve (cs ++ ds) g =
      ((serve cs g).1 ++ (serve ds (serve cs g).2).1, (serve ds (serve cs g).2).2) := by
  induction cs generalizing g with
  | nil => rfl
  | cons c cs ih => rw [List.cons_append, serve_cons, ih, serve_cons, List.cons_append]

/-- The ids that are drawn one after the other, from the `m`th one on. -/
theorem serve_replicate_draw_idAt (id start step : UInt64) (m n : Nat) :
    serve (List.replicate n .draw) ⟨id, idAt start step m, step⟩ =
      ((List.range' (m + 1) n).map fun k => some (idAt start step k),
        ⟨id, idAt start step (m + n), step⟩) := by
  induction n generalizing m with
  | zero => rfl
  | succ n ih =>
    have hdraw : Call.draw.answer ⟨id, idAt start step m, step⟩ =
        (some (idAt start step (m + 1)), ⟨id, idAt start step (m + 1), step⟩) := by
      rw [idAt_succ]
      rfl
    rw [List.replicate_succ, serve_cons, hdraw]
    simp only [ih, List.range'_succ, List.map_cons, Nat.add_assoc, Nat.add_comm 1]

theorem serve_replicate_draw (g : Generator) (n : Nat) :
    serve (List.replicate n .draw) g =
      ((List.range' 1 n).map fun k => some (idAt g.value g.step k),
        ⟨g.id, idAt g.value g.step n, g.step⟩) := by
  have h := serve_replicate_draw_idAt g.id g.value g.step 0 n
  rwa [idAt_zero, Nat.zero_add, Nat.zero_add] at h

/-- After some draws, the next one gives what was to be expected, and this remains the current
value. -/
theorem serve_draws (g : Generator) (n : Nat) :
    (serve (List.replicate n .draw ++ [.next, .draw, .current]) g).1 =
      (List.range' 1 n).map (fun k => some (idAt g.value g.step k)) ++
        List.replicate 3 (some (idAt g.value g.step (n + 1))) := by
  rw [serve_append, serve_replicate_draw, idAt_succ]
  rfl

variable {γ : Type} [DecidableEq γ] [Recorded γ]

/-- A generator resumes from its record.  Let `g` be a generator after any calls; `g.write`
appends a record, and reading this into any generator `h` makes it equal to `g`.  From then on the
two answer all calls alike, with `idAt g.value g.step k` as the `k`th id drawn, also across the
wrap.  If reading fails `h` stays as it is. -/
theorem resumes_from_record (g₀ : Generator) (before : List Call) (h : Generator)
    (r : Registry γ) :
    let g := (serve before g₀).2
    (∃ record, g.write.Appends record ∧
      ∀ b rest, b.unread = record ++ rest →
        ∃ h' b', Entity.readInto r (.generator h) b = ⟨.generator h', b', none⟩ ∧
          b'.unread = rest ∧ (Entity.generator h' : Entity γ).equals (.generator g) = true ∧
          (∀ calls, (serve calls h').1 = (serve calls g).1) ∧
          ∀ n, (serve (List.replicate n .draw ++ [.next, .draw, .current]) h').1 =
            (List.range' 1 n).map (fun k => some (idAt g.value g.step k)) ++
              List.replicate 3 (some (idAt g.value g.step (n + 1)))) ∧
    ∀ b fault, (Entity.readInto r (.generator h) b).fault? = some fault →
      (Entity.readInto r (.generator h) b).subject = .generator h := by
  intro g
  refine ⟨⟨_, Stream.writeRecord_receives (lawful_layout.codes g).writes, ?_⟩, ?_⟩
  · intro b rest hb
    obtain ⟨hle, hconsumes⟩ := Buffer.consumes_advance hb
    have hread : read b = .ok g _ := (Stream.readRecord_eq_ok_iff lawful_layout).2 hconsumes
    refine ⟨g, _, ?_, hconsumes.unread_eq_of_append hb, ?_, fun _ => rfl, serve_draws g⟩
    · rw [Entity.readInto, hread]
      rfl
    · simp [Entity.equals]
  · intro b fault hfault
    exact (Entity.readInto_of_fault (by rintro c ⟨⟩) hfault).1

/-- A generator that is about to wrap goes on behind zero where its record is read, and
another record cannot be read there. -/
theorem resumes_from_record_wrap :
    ∃ (b b' : Buffer) (h' : Generator),
      write ⟨7, 0xfffffffffffffffe, 3⟩ .empty = .ok () b ∧
      Entity.readInto (.empty : Registry Tally) (.generator .initial) b =
        ⟨.generator h', b', none⟩ ∧
      (serve [.draw, .draw, .next, .draw, .current] h').1 =
        [some 1, some 4, some 7, some 7, some 7] ∧
      (Entity.readInto (.empty : Registry Tally) (.generator .initial) b').subject =
        .generator .initial := by
  obtain ⟨⟨record, hwrite, hread⟩, hfault⟩ :=
    resumes_from_record ⟨7, 0, 3⟩ [.draw, .setValue 0xfffffffffffffffe] .initial
      (.empty : Registry Tally)
  obtain ⟨b, hb, hreceives⟩ := hwrite .empty
  have hunread := hreceives.unread_eq_of_empty
  rw [← List.append_nil record] at hunread
  obtain ⟨h', b', hinto, hrest, -, -, hids⟩ := hread b [] hunread
  have hempty : b'.remaining = 0 := by
    rw [← Buffer.length_unread, hrest]
    rfl
  have hshort : b'.remaining < 212 := by
    rw [hempty]
    decide
  obtain ⟨_, hagain⟩ := (Stream.Refuses.short (d := .generator) (L := layout) hshort).readRecord_eq
  have hagain? : (Entity.readInto (.empty : Registry Tally) (.generator .initial) b').fault? =
      some (.underflow b'.readPos 212 b'.remaining) := by
    rw [Entity.readInto, read, hagain]
    rfl
  exact ⟨b, b', h', hb, hinto, (hids 2).trans (by decide), hfault b' _ hagain?⟩

end RecordStream.Generator
