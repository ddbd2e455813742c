import RecordStream.Context
import RecordStream.Proofs.IdPool
import RecordStream.Proofs.Tally

/-!
# Requests for ids

Everything that asks a context for an id is a `Request`: drawing for a type, creating
with an id or the null id, duplicating, and making an entity of the context.  All of these
come down to one operation of the id pool (`Context.Request.answer_eq`), so what one
request does is known, and by induction what a context answers to some requests one after
the other (`Context.serve`).

The ids that are drawn for a type are those of a generator of its own
(`Context.drawn_of_serve`).  The generator wraps around, and it depends on the settings and
on the number of requests whether it gives the null id (`Context.nullId_answered_iff`).
-/

namespace RecordStream.Context

variable {α : Type} [Recorded α]

/-- What may be asked of a context, or of its id pool, that an id comes from. -/
inductive Request (α : Type) where
  | next (d : Descriptor)
  | resolve (d : Descriptor) (id : EntityId)
  | createObject (id : EntityId)
  | createCommand (prototype : Command α) (id : EntityId)
  | duplicateObject (o : Object)
  | duplicateCommand (c : Command α)
  | object
  | composite
  | command (prototype : Command α)

namespace Request

/-- Does what is asked for; the answer is the id, or that of the entity that was made. -/
def answer : Request α → StateM (Context α) EntityId
  | next d => liftIds (IdPool.nextId d)
  | resolve d id => liftIds (IdPool.resolve d id)
  | createObject id => Object.id <$> liftIds (Object.create id)
  | createCommand prototype id => Command.id <$> liftIds (prototype.create id)
  | duplicateObject o => Object.id <$> liftIds o.duplicate
  | duplicateCommand c => Command.id <$> liftIds c.duplicate
  | object => Object.id <$> Context.object
  | composite => Command.id <$> Context.composite
  | command prototype => Command.id <$> Context.command prototype

/-- The type for which an id is asked. -/
def descriptor : Request α → Descriptor
  | next d => d
  | resolve d _ => d
  | createObject _ => .object
  | createCommand prototype _ => prototype.descriptor
  | duplicateObject _ => .object
  | duplicateCommand c => c.descriptor
  | object => .object
  | composite => .compositeCommand
  | command prototype => prototype.descriptor

/-- The id that comes with the request; the null id if there is none. -/
def given : Request α → EntityId
  | resolve _ id => id
  | createObject id => id
  | createCommand _ id => id
  | _ => nullId

/-- Whether the request is for a new id of the type. -/
def draws (d : Descriptor) (q : Request α) : Bool :=
  q.descriptor = d ∧ q.given = nullId

theorem draws_object : (object : Request α).draws .object = true := rfl

/-- Every request is one to the id pool. -/
theorem answer_eq (q : Request α) :
    q.answer = liftIds (IdPool.resolve q.descriptor q.given) := by
  funext ctx
  cases q with
  -- a command that is made has the id of the answer in its core
  | createCommand prototype id => exact congrArg (·, _) (Command.id_setId ..)
  | duplicateCommand c => exact congrArg (·, _) (Command.id_setId ..)
  | command prototype => exact congrArg (·, _) (Command.id_setId ..)
  | _ => rfl

end Request

/-- Answers some requests, from first to last, and keeps a log of that. -/
def serve : List (Request α) → StateM (Context α) (List (Request α × EntityId))
  | [] => pure []
  | q :: qs => do
    let id ← q.answer
    return (q, id) :: (← serve qs)

/-- The ids in a log that have been drawn for a type. -/
def drawn (d : Descriptor) (log : List (Request α × EntityId)) : List EntityId :=
  (log.filter (·.1.draws d)).map (·.2)

theorem drawn_cons_of_draws {d : Descriptor} {e : Request α × EntityId}
    (h : e.1.draws d = true) (log : List (Request α × EntityId)) :
    drawn d (e :: log) = e.2 :: drawn d log := by
  rw [drawn, List.filter_cons, if_pos h, List.map_cons, drawn]

theorem drawn_cons_of_not_draws {d : Descriptor} {e : Request α × EntityId}
    (h : ¬e.1.draws d = true) (log : List (Request α × EntityId)) :
    drawn d (e :: log) = drawn d log := by
  rw [drawn, List.filter_cons, if_neg h, drawn]

/-! ## What is answered -/

section Answers

variable {start step : UInt64} {n : Descriptor → Nat} {ctx ctx' : Context α}
  {log : List (Request α × EntityId)}

theorem serve_cons (q : Request α) (qs : List (Request α)) (ctx : Context α) :
    serve (q :: qs) ctx =
      ((q, (q.answer ctx).1) :: (serve qs (q.answer ctx).2).1, (serve qs (q.answer ctx).2).2) :=
  rfl

theorem Request.answer_of_given {q : Request α} (h : q.given ≠ nullId) (ctx : Context α) :
    q.answer ctx = (q.given, ctx) := by
  rw [answer_eq, IdPool.resolve_of_ne h]
  rfl

theorem Request.answer_of_draws {q : Request α} (hn : ctx.ids.HasDrawn start step n)
    {d : Descriptor} (h : q.draws d = true) : (q.answer ctx).1 = idAt start step (n d + 1) := by
  obtain ⟨rfl, hgiven⟩ := of_decide_eq_true h
  rw [answer_eq, hgiven]
  exact hn.resolve_nullId q.descriptor

theorem id_object (hn : ctx.ids.HasDrawn start step n) :
    (object ctx).1.id = idAt start step (n .object + 1) :=
  Request.answer_of_draws hn Request.draws_object

theorem Request.hasDrawn_answer (hn : ctx.ids.HasDrawn start step n) (q : Request α) :
    (q.answer ctx).2.ids.HasDrawn start step fun d => n d + if q.draws d then 1 else 0 := by
  simp only [draws, decide_eq_true_eq, answer_eq]
  exact hn.resolve q.descriptor q.given

theorem hasDrawn_serve (hn : ctx.ids.HasDrawn start step n) (qs : List (Request α)) :
    (serve qs ctx).2.ids.HasDrawn start step fun d => n d + qs.countP (·.draws d) := by
  induction qs generalizing n ctx with
  | nil => exact hn
  | cons q qs ih =>
    intro d
    dsimp only [serve_cons]
    rw [List.countP_cons, Nat.add_comm (List.countP ..), ← Nat.add_assoc]
    exact ih (q.hasDrawn_answer hn) d

theorem map_fst_serve (qs : List (Request α)) (ctx : Context α) :
    (serve qs ctx).1.map (·.1) = qs := by
  induction qs generalizing ctx with
  | nil => rfl
  | cons q qs ih => rw [serve_cons, List.map_cons, ih]

theorem snd_of_mem_serve (qs : List (Request α)) (ctx : Context α) :
    ∀ e ∈ (serve qs ctx).1, e.1.given ≠ nullId → e.2 = e.1.given := by
  induction qs generalizing ctx with
  | nil => exact fun e he => absurd he List.not_mem_nil
  | cons q qs ih =>
    rintro ⟨q', id⟩ he hgiven
    rcases List.mem_cons.1 he with hq | he
    · obtain ⟨rfl, rfl⟩ := Prod.mk.inj hq
      exact congrArg Prod.fst (Request.answer_of_given hgiven ctx)
    · exact ih _ _ he hgiven

/-- The ids that are drawn for a type follow each other, whatever else is asked in between. -/
theorem drawn_serve (hn : ctx.ids.HasDrawn start step n) (qs : List (Request α))
    (d : Descriptor) : drawn d (serve qs ctx).1 =
      (List.range' (n d + 1) (qs.countP (·.draws d))).map (idAt start step) := by
  induction qs generalizing n ctx with
  | nil => rfl
  | cons q qs ih =>
    rw [serve_cons]
    by_cases hq : q.draws d = true
    · rw [drawn_cons_of_draws hq, ih (q.hasDrawn_answer hn), Request.answer_of_draws hn hq,
        if_pos hq, List.countP_cons_of_pos hq, List.range'_succ, List.map_cons]
    · rw [drawn_cons_of_not_draws hq, ih (q.hasDrawn_answer hn), if_neg hq, Nat.add_zero,
        List.countP_cons_of_neg hq]

/-- The ids that a context gives out are an arithmetic progression per type.  Whatever `Request`s
for several types are served, the `j`th id `drawn` for `d` is `start + j * step` modulo `2 ^ 64`,
and the generator of `d` ends at the last of these.  An id given with a request is answered and
draws nothing.  The ids drawn for one type are distinct until the progression repeats, after `2 ^
64 / gcd step (2 ^ 64)` of them. -/
theorem drawn_of_serve {requests : List (Request α)} (hfresh : ctx.ids = .fresh start step)
    (h : serve requests ctx = (log, ctx')) :
    log.map (·.1) = requests ∧
      (∀ e ∈ log, e.1.given ≠ nullId → e.2 = e.1.given) ∧
      ∀ d, (drawn d log).map UInt64.toNat =
          (List.range' 1 (requests.countP (·.draws d))).map
            (fun j => (start.toNat + j * step.toNat) % 2 ^ 64) ∧
        (ctx'.ids.generator d).value.toNat =
          (start.toNat + requests.countP (·.draws d) * step.toNat) % 2 ^ 64 ∧
        ((drawn d log).take (2 ^ 64 / Nat.gcd step.toNat (2 ^ 64))).Nodup := by
  obtain ⟨rfl, rfl⟩ := Prod.mk.inj h
  have hn : ctx.ids.HasDrawn start step fun _ => 0 := by
    rw [hfresh]
    exact IdPool.hasDrawn_fresh
  refine ⟨map_fst_serve requests ctx, snd_of_mem_serve requests ctx, fun d => ⟨?_, ?_, ?_⟩⟩
  · rw [drawn_serve hn, List.map_map]
    exact List.map_congr_left fun j _ => toNat_idAt j
  · rw [hasDrawn_serve hn requests d, toNat_idAt]
    simp only [Nat.zero_add]
  · rw [drawn_serve hn]
    exact nodup_take_idAt ..

/-- Ids of objects are drawn although a command and a type of another version come in between. -/
theorem drawn_of_serve_mixed :
    ∃ log ctx', serve [.object, .duplicateCommand Tally.sample, .resolve .object 7,
        .next { Descriptor.object with version := .null }, .object]
      (ofSettings { Settings.default with idStart := 100, idStep := 5 }) = (log, ctx') ∧
      (drawn .object log).map UInt64.toNat = [105, 110] := by
  have hfresh : (ofSettings { Settings.default with idStart := 100, idStep := 5 } :
    Context Tally).ids = .fresh 100 5 := rfl
  obtain ⟨-, -, hd⟩ := drawn_of_serve hfresh Prod.mk.eta.symm
  exact ⟨_, _, Prod.mk.eta.symm, (hd .object).1.trans (by decide)⟩

/-! ## Whether the null id is drawn -/

/-- Every id that is answered has been given with the request or drawn for its type. -/
theorem exists_nullId_mem_drawn_iff (qs : List (Request α)) (ctx : Context α) :
    (∃ d, nullId ∈ drawn d (serve qs ctx).1) ↔ nullId ∈ (serve qs ctx).1.map (·.2) := by
  constructor
  · rintro ⟨d, h⟩
    obtain ⟨e, he, hnull⟩ := List.mem_map.1 h
    exact List.mem_map.2 ⟨e, (List.mem_filter.1 he).1, hnull⟩
  · intro h
    obtain ⟨e, he, hnull⟩ := List.mem_map.1 h
    have hgiven : e.1.given = nullId := by
      by_contra hne
      exact hne ((snd_of_mem_serve qs ctx e he hne).symm.trans hnull)
    have hdraws : e.1.draws e.1.descriptor = true := decide_eq_true ⟨rfl, hgiven⟩
    exact ⟨e.1.descriptor, List.mem_map.2 ⟨e, List.mem_filter.2 ⟨he, hdraws⟩, hnull⟩⟩

theorem nullId_mem_serve_iff (hn : ctx.ids.HasDrawn start step fun _ => 0)
    (qs : List (Request α)) : nullId ∈ (serve qs ctx).1.map (·.2) ↔
      ∃ d j, 0 < j ∧ j ≤ qs.countP (·.draws d) ∧ idAt start step j = nullId := by
  rw [← exists_nullId_mem_drawn_iff]
  simp only [drawn_serve hn, List.mem_map, List.mem_range'_1, and_assoc, Nat.zero_add,
    Nat.one_add, Nat.lt_succ_iff, Nat.succ_le_iff]

theorem exists_nullId_mem_serve_iff (hn : ctx.ids.HasDrawn start step fun _ => 0)
    (hstep : step ≠ 0) : (∃ qs : List (Request α), nullId ∈ (serve qs ctx).1.map (·.2)) ↔
      Nat.gcd step.toNat (2 ^ 64) ∣ start.toNat := by
  rw [← exists_idAt_eq_nullId_iff hstep]
  constructor
  · rintro ⟨qs, hnull⟩
    obtain ⟨d, j, hpos, -, hj⟩ := (nullId_mem_serve_iff hn qs).1 hnull
    exact ⟨j, hpos, hj⟩
  · rintro ⟨j, hpos, hj⟩
    -- asking for objects alone gets there
    refine ⟨List.replicate j .object, (nullId_mem_serve_iff hn _).2 ⟨.object, j, hpos, ?_, hj⟩⟩
    rw [List.countP_replicate, if_pos Request.draws_object]

/-- When a context gives out `nullId`.  It does so at the `j`th id drawn for a type if and only if
`2 ^ 64` divides `idStart + j * idStep`, because the generator wraps around; so it never does,
whatever the requests, if and only if `gcd idStep (2 ^ 64)` does not divide `idStart`. -/
theorem nullId_answered_iff {s : Settings} (h : withSettings s = .ok ctx) :
    (∀ requests : List (Request α),
      (nullId ∈ (serve requests ctx).1.map (·.2) ↔
        ∃ d j, 0 < j ∧ j ≤ requests.countP (·.draws d) ∧
          2 ^ 64 ∣ s.idStart.toNat + j * s.idStep.toNat) ∧
      ((object (serve requests ctx).2).1.isNull = true ↔
        2 ^ 64 ∣ s.idStart.toNat + (requests.countP (·.draws .object) + 1) * s.idStep.toNat)) ∧
    ((∀ requests : List (Request α), nullId ∉ (serve requests ctx).1.map (·.2)) ↔
      ¬Nat.gcd s.idStep.toNat (2 ^ 64) ∣ s.idStart.toNat) := by
  obtain ⟨⟨hstep, -⟩, rfl⟩ := withSettings_eq_ok_iff.1 h
  have hn : (ofSettings s : Context α).ids.HasDrawn s.idStart s.idStep fun _ => 0 :=
    IdPool.hasDrawn_fresh
  refine ⟨fun requests => ⟨?_, ?_⟩, ?_⟩
  · simpa only [idAt_eq_nullId_iff] using nullId_mem_serve_iff hn requests
  · rw [Object.isNull, decide_eq_true_eq, id_object (hasDrawn_serve hn requests),
      idAt_eq_nullId_iff, Nat.zero_add]
  · rw [← exists_nullId_mem_serve_iff hn hstep, not_exists]

/-- Who counts in twos from an odd number never comes by the null id. -/
theorem nullId_not_answered_from_odd :
    ∃ ctx : Context Tally,
      withSettings { Settings.default with idStart := 1, idStep := 2 } = .ok ctx ∧
        ∀ requests : List (Request Tally), nullId ∉ (serve requests ctx).1.map (·.2) :=
  have h : withSettings { Settings.default with idStart := 1, idStep := 2 } =
      .ok (ofSettings { Settings.default with idStart := 1, idStep := 2 } : Context Tally) := rfl
  ⟨_, h, (nullId_answered_iff h).2.2 (by decide)⟩

/-- These settings are valid, and the first object is the null one. -/
theorem isNull_first_object :
    ∃ ctx : Context Tally,
      withSettings { Settings.default with idStart := 18446744073709551615 } = .ok ctx ∧
        (object ctx).1.isNull = true :=
  ⟨_, rfl, by decide⟩

end Answers

end RecordStream.Context
