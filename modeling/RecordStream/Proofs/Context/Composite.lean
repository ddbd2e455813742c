import RecordStream.Context
import RecordStream.Proofs.Command.Acceptance

/-!
# Reading back what a context has built

A context makes composites in two ways: `Context.composite` gives them the capacity in the
settings, `Context.command` the one that composites have if nothing else is said.  The
registry of the context reads composites of the capacity in the settings.

So what is built from composites of the first kind can always be read back, and what is built
from both can be unless one of its composites has more children than the settings allow
(`Context.readBack_of_built`).
-/

namespace RecordStream

namespace Registry

variable {α : Type} {r r' : Registry α} {d : Descriptor} {prototype p : Command α}

/-- What a registry makes it goes on to make. -/
theorem create?_of_register_eq_ok (h : r.register d prototype = .ok r') {d' : Descriptor}
    (hp : r.create? d' = some p) : r'.create? d' = some p := by
  obtain ⟨e, he, rfl⟩ := Option.map_eq_some_iff.1 hp
  have hne : d'.fullName ≠ d.fullName := by
    intro hname
    have hfree := lookup?_eq_none_of_register_eq_ok h
    rw [lookup?, ← hname] at hfree
    rw [lookup?, hfree] at he
    cases he
  rw [create?, lookup?_of_register_eq_ok h, if_neg hne, he]
  rfl

end Registry

namespace Context

open Command

variable {α : Type}

/-- The context was made with the settings.  Since then types may have been registered in it,
and anything may have been done with its id pool. -/
inductive MadeWith (s : Settings) : Context α → Prop
  | new {ctx : Context α} : withSettings s = .ok ctx → MadeWith s ctx
  | register {ctx : Context α} {r : Registry α} {d : Descriptor} {prototype : Command α} :
      MadeWith s ctx → ctx.registry.register d prototype = .ok r →
        MadeWith s { ctx with registry := r }
  | draw {ctx : Context α} (ids : IdPool) : MadeWith s ctx → MadeWith s { ctx with ids }

section MadeWith

variable {s : Settings} {ctx : Context α}

theorem MadeWith.settings_eq (h : MadeWith s ctx) : ctx.settings = s := by
  induction h with
  | new h =>
    obtain ⟨-, rfl⟩ := withSettings_eq_ok_iff.1 h
    rfl
  | register _ _ ih => exact ih
  | draw ids _ ih => exact ih

theorem MadeWith.create?_builtin (h : MadeWith s ctx) {e : Registry.Entry α}
    (he : e ∈ Registry.builtins s.compositeCapacity.toNat) :
    ctx.registry.create? e.descriptor = some e.prototype := by
  induction h with
  | new h =>
    obtain ⟨-, rfl⟩ := withSettings_eq_ok_iff.1 h
    exact Option.map_eq_some_iff.2 ⟨e, (Registry.knows_withBuiltins _ _ e).2 ⟨he, rfl⟩, rfl⟩
  | register _ hr ih => exact Registry.create?_of_register_eq_ok hr ih
  | draw ids _ ih => exact ih

theorem MadeWith.create?_nullCommand (h : MadeWith s ctx) :
    ctx.registry.create? .nullCommand = some (.null (.fresh nullId)) :=
  h.create?_builtin (e := ⟨.nullCommand, _⟩) (Registry.mem_builtins_iff.2 (.inl rfl))

theorem MadeWith.create?_compositeCommand (h : MadeWith s ctx) :
    ctx.registry.create? .compositeCommand =
      some (.emptyComposite nullId s.compositeCapacity.toNat) :=
  h.create?_builtin (e := ⟨.compositeCommand, _⟩) (Registry.mem_builtins_iff.2 (.inr rfl))

end MadeWith

/-! ## What is built -/

variable [Recorded α]

/-- How a context makes a composite. -/
inductive Way
  /-- With the capacity in the settings. -/
  | composite
  /-- As a command of its type, with the capacity that is used if nothing else is said. -/
  | command
  deriving DecidableEq

def Way.make : Way → StateM (Context α) (Command α)
  | .composite => Context.composite
  | .command => Context.command (.emptyComposite nullId defaultCapacity)

/-- The capacity of what is made. -/
def Way.capacity (s : Settings) : Way → Nat
  | .composite => s.compositeCapacity.toNat
  | .command => defaultCapacity

/-- What can be built with contexts that were made with the settings, where the registry knows the
types: null commands, leaves of registered types that store all their fields, and composites that
such a context has made in one of the ways, filled with what has been built. -/
inductive Built (s : Settings) (r : Registry α) (ways : List Way) : Command α → Prop
  | null (core : Core) : Built s r ways (.null core)
  | leaf {core core' : Core} {p a : α} :
      r.create? (Recorded.descriptor a) = some (.leaf core' p) → Recorded.Restores p a →
        Built s r ways (.leaf core a)
  | make {ctx : Context α} {way : Way} : way ∈ ways → MadeWith s ctx →
      Built s r ways (way.make ctx).1
  | add {parent child c : Command α} : Built s r ways parent → Built s r ways child →
      parent.tryAdd child = .ok c → Built s r ways c

/-- A node of what is built. -/
inductive Part (s : Settings) (r : Registry α) (ways : List Way) : Command α → Prop
  | null (core : Core) : Part s r ways (.null core)
  | leaf {core core' : Core} {p a : α} :
      r.create? (Recorded.descriptor a) = some (.leaf core' p) → Recorded.Restores p a →
        Part s r ways (.leaf core a)
  | composite {core : Core} {way : Way} {cs : List (Command α)} : way ∈ ways →
      cs.length ≤ way.capacity s → Part s r ways (.composite core (way.capacity s) cs)

section Built

variable {s : Settings} {r : Registry α} {ways : List Way} {ctx : Context α} {t : Command α}
  {b : Buffer}

theorem Way.make_eq (way : Way) (h : MadeWith s ctx) :
    ∃ id, (way.make ctx).1 = .emptyComposite id (way.capacity s) := by
  cases way with
  | composite =>
    refine ⟨(ctx.ids.generator .compositeCommand).next, ?_⟩
    rw [capacity, ← h.settings_eq]
    rfl
  | command => exact ⟨(ctx.ids.generator .compositeCommand).next, rfl⟩

theorem Built.part (h : Built s r ways t) : ∀ n ∈ t.nodes, Part s r ways n := by
  induction h with
  | null core => exact List.forall_mem_singleton.2 (.null core)
  | leaf hp ha => exact List.forall_mem_singleton.2 (.leaf hp ha)
  | @make ctx way hway hctx =>
    obtain ⟨id, hmake⟩ := way.make_eq hctx
    rw [hmake]
    exact List.forall_mem_singleton.2 (.composite hway (Nat.zero_le _))
  | add _ _ hadd ihparent ihchild =>
    obtain ⟨core, k, cs, rfl, hroom, rfl⟩ := tryAdd_eq_ok_iff.1 hadd
    intro n hn
    rw [nodes_eq] at hn
    rcases List.mem_cons.1 hn with rfl | hn
    · cases ihparent _ (mem_nodes_self _) with
      | composite hway _ =>
        refine .composite hway ?_
        rw [List.length_append]
        exact hroom
    · obtain ⟨d, hd, hnode⟩ := List.mem_flatMap.1 hn
      rcases List.mem_append.1 hd with hd | hd
      · exact ihparent n (mem_nodes_of_mem_children hd hnode)
      · obtain rfl := List.mem_singleton.1 hd
        exact ihchild n hnode

/-- The registry makes something for each node, and that is of its type. -/
theorem Part.exists_create? (hctx : MadeWith s ctx) {n : Command α}
    (h : Part s ctx.registry ways n) : ∃ p, ctx.registry.create? n.descriptor = some p ∧
      p.SameType Recorded.Restores s.compositeCapacity.toNat n := by
  cases h with
  | null core => exact ⟨_, hctx.create?_nullCommand, .null⟩
  | leaf hp ha => exact ⟨_, hp, .leaf ha⟩
  | composite => exact ⟨_, hctx.create?_compositeCommand, .composite⟩

/-- No node has more children than one of the ways provides for. -/
theorem Part.length_le {n : Command α} {k : Nat} (h : Part s r ways n)
    (hk : ∀ way ∈ ways, way.capacity s ≤ k) : n.children.length ≤ k := by
  cases h with
  | null core => exact Nat.zero_le k
  | leaf => exact Nat.zero_le k
  | composite hway hle => exact Nat.le_trans hle (hk _ hway)

theorem Way.capacity_lt (way : Way) : way.capacity s < UInt64.size := by
  cases way with
  | composite => exact s.compositeCapacity.toNat_lt
  | command =>
    rw [capacity]
    decide

theorem Part.length_lt {n : Command α} (h : Part s r ways n) :
    n.children.length < UInt64.size := by
  cases h with
  | null core => exact Nat.zero_lt_succ _
  | leaf => exact Nat.zero_lt_succ _
  | composite _ hle => exact Nat.lt_of_le_of_lt hle (Way.capacity_lt _)

theorem Built.legible (hctx : MadeWith s ctx) (h : Built s ctx.registry ways t) :
    ctx.registry.Legible s.compositeCapacity.toNat t :=
  Registry.legible_of_exists_create? (fun n hn => (h.part n hn).length_lt)
    fun n hn => (h.part n hn).exists_create? hctx

theorem Built.known (hctx : MadeWith s ctx) (h : Built s ctx.registry ways t) :
    ∀ n ∈ t.nodes, ctx.registry.contains n.descriptor = true := by
  intro n hn
  obtain ⟨p, hp, -⟩ := (h.part n hn).exists_create? hctx
  exact Registry.contains_of_create? hp

theorem Built.readBack_eq_ok (hctx : MadeWith s ctx) (h : Built s ctx.registry ways t)
    (hlen : ∀ n ∈ t.nodes, n.children.length ≤ s.compositeCapacity.toNat) (hb : b.unread = []) :
    ∃ b', ctx.registry.readBack t b = .ok (t.fit s.compositeCapacity.toNat) b' := by
  refine Registry.Carries.readBack ⟨h.legible hctx, fun n hn => ?_⟩ hb
  exact ⟨h.known hctx n hn, hlen n hn⟩

theorem Built.readBack_eq_error (hctx : MadeWith s ctx) (h : Built s ctx.registry ways t)
    (hlen : ∃ n ∈ t.nodes, s.compositeCapacity.toNat < n.children.length) (hb : b.unread = []) :
    ∃ b', ctx.registry.readBack t b = .error (.capacityExceeded s.compositeCapacity.toNat) b' := by
  obtain ⟨k, hstop⟩ := Registry.exists_stop?_of_lt (h.known hctx) hlen
  exact (h.legible hctx).readBack_eq_error hstop hb

/-- What a context builds, its registry reads back.  Whatever is `Built` in the two ways,
`readBack` gives something equal if `Context.command` is not used for composites, or if
`compositeCapacity` is at least `defaultCapacity`.  In general it gives something equal if no
composite has more children than `compositeCapacity`, and fails with `capacityExceeded` if one
has, as `Context.command` allows.

The capacity is one that composites can be made with (`capacityLimit`); there are valid settings
beyond, with which the context makes no composites. -/
theorem readBack_of_built [DecidableEq α] (_hcapacity : s.compositeCapacity.toNat < capacityLimit)
    (hctx : MadeWith s ctx) (h : Built s ctx.registry ways t) (hb : b.unread = []) :
    ((.command ∈ ways → defaultCapacity ≤ s.compositeCapacity.toNat) →
      ∃ got b', ctx.registry.readBack t b = .ok got b' ∧ got.equals t = true) ∧
    ((∀ n ∈ t.nodes, n.children.length ≤ s.compositeCapacity.toNat) →
      ∃ got b', ctx.registry.readBack t b = .ok got b' ∧ got.equals t = true) ∧
    ((∃ n ∈ t.nodes, s.compositeCapacity.toNat < n.children.length) →
      ∃ b', ctx.registry.readBack t b =
        .error (.capacityExceeded s.compositeCapacity.toNat) b') := by
  have hread (hlen : ∀ n ∈ t.nodes, n.children.length ≤ s.compositeCapacity.toNat) :
      ∃ got b', ctx.registry.readBack t b = .ok got b' ∧ got.equals t = true := by
    obtain ⟨b', hread⟩ := h.readBack_eq_ok hctx hlen hb
    exact ⟨_, b', hread, equals_fit _ t⟩
  refine ⟨fun hways => hread fun n hn => (h.part n hn).length_le fun way hway => ?_, hread,
    fun hlen => h.readBack_eq_error hctx hlen hb⟩
  cases way with
  | composite => exact Nat.le_refl _
  | command => exact hways hway

end Built

/-! ## Settings with little room -/

/-- Composites of these settings hold two children. -/
def narrow : Settings :=
  { Settings.default with compositeCapacity := 2 }

theorem madeWith_narrow : MadeWith narrow (ofSettings narrow : Context Tally) :=
  .new rfl

/-- A composite that was made as a command of its type, with as many children as there may be. -/
def pairOfNulls : Command Tally :=
  .composite (.fresh 1) 10 [.null (.fresh 1), .null (.fresh 2)]

theorem built_pairOfNulls {r : Registry Tally} :
    Built narrow r [.composite, .command] pairOfNulls := by
  have hway : Way.command ∈ [Way.composite, .command] := by decide
  exact ((Built.make hway madeWith_narrow).add (.null (.fresh 1)) rfl).add (.null (.fresh 2)) rfl

/-- A composite of the context that holds a leaf and a composite of the other kind is read back. -/
theorem readBack_of_built_narrow :
    narrow.compositeCapacity.toNat < capacityLimit ∧
    ∃ (r : Registry Tally) (outer got : Command Tally) (b : Buffer),
      (ofSettings narrow).registry.register Tally.inc.descriptor (.leaf (.fresh nullId) .inc) =
        .ok r ∧
      [.leaf (.fresh 1) .inc, pairOfNulls].foldlM tryAdd (composite (ofSettings narrow)).1 =
        .ok outer ∧
      r.readBack outer .empty = .ok got b ∧ got.equals outer = true := by
  obtain ⟨r, hr⟩ : ∃ r, (ofSettings narrow : Context Tally).registry.register
      Tally.inc.descriptor (.leaf (.fresh nullId) .inc) = .ok r := ⟨_, rfl⟩
  have hinc : r.create? Tally.inc.descriptor = some (.leaf (.fresh nullId) .inc) := by
    rw [Registry.create?, Registry.lookup?_of_register_eq_ok hr, if_pos rfl]
    rfl
  have hleaf : Built narrow r [.composite, .command] (.leaf (.fresh 1) Tally.inc) :=
    .leaf hinc (Tally.sameType_refl .inc).restores
  have hway : Way.composite ∈ [Way.composite, .command] := by decide
  have houter : Built narrow r [.composite, .command]
      (.composite (.fresh 1) 2 [.leaf (.fresh 1) .inc, pairOfNulls]) :=
    ((Built.make hway madeWith_narrow).add hleaf rfl).add built_pairOfNulls rfl
  have hcapacity : narrow.compositeCapacity.toNat < capacityLimit := by decide
  obtain ⟨-, hread, -⟩ :=
    readBack_of_built (b := .empty) hcapacity (madeWith_narrow.register hr) houter rfl
  obtain ⟨got, b, hgot, heq⟩ := hread (by decide)
  exact ⟨hcapacity, r, _, got, b, hr, rfl, hgot, heq⟩

/-- With one more child, the context that made the composite refuses to read it. -/
theorem capacityExceeded_of_command :
    withSettings narrow = .ok (ofSettings narrow : Context Tally) ∧
      [1, 2, 3].foldlM (fun (c : Command Tally) id => c.tryAdd (.null (.fresh id)))
        (command (.emptyComposite nullId defaultCapacity) (ofSettings narrow)).1 =
          .ok (.composite (.fresh 1) 10 [.null (.fresh 1), .null (.fresh 2), .null (.fresh 3)]) ∧
      ∃ b, (ofSettings narrow : Context Tally).registry.readBack
        (.composite (.fresh 1) 10 [.null (.fresh 1), .null (.fresh 2), .null (.fresh 3)]) .empty =
          .error (.capacityExceeded 2) b := by
  have hbuilt : Built narrow (.withBuiltins 2) [.composite, .command] (.composite (.fresh 1) 10
      [.null (.fresh 1), .null (.fresh 2), .null (.fresh 3)] : Command Tally) :=
    built_pairOfNulls.add (.null (.fresh 3)) rfl
  have hread := hbuilt.readBack_eq_error (b := .empty) madeWith_narrow
    ⟨_, mem_nodes_self _, by decide⟩ rfl
  exact ⟨rfl, rfl, hread⟩

end Context

end RecordStream
