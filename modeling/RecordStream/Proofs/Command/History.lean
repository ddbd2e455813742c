import RecordStream.Proofs.Command.Execution
import RecordStream.Tally

/-!
# What the mark of a command tells

A command is marked if and only if some run of it has returned without fault, and as
long as none has, undoing it does nothing.  The mark does not tell how the last run
ended: a command that has been run well once is undone even if it has failed since.
Composites get there by taking in a child that fails.
-/

namespace RecordStream.Command

variable {α σ : Type} [Action α σ] {c d : Command α} {outcomes : List (Option Fault)}

/-- Calls on the command `c` have made it into another one, each in whatever world.  The list
says how the runs among them ended, the last one first.  Composites may take in further
children; an addition that is refused changes nothing. -/
inductive History (c : Command α) : List (Option Fault) → Command α → Prop
  | start : History c [] c
  | run {outcomes : List (Option Fault)} {d : Command α} (w : σ) : History c outcomes d →
      History c ((run d w).fault? :: outcomes) (run d w).subject
  | undo {outcomes : List (Option Fault)} {d : Command α} (w : σ) : History c outcomes d →
      History c outcomes (undo d w).subject
  | add {outcomes : List (Option Fault)} {d d' child : Command α} : History c outcomes d →
      d.tryAdd child = .ok d' → History c outcomes d'

theorem core_of_tryAdd {child : Command α} (h : c.tryAdd child = .ok d) : d.core = c.core := by
  obtain ⟨core, k, cs, rfl, -, rfl⟩ := tryAdd_eq_ok_iff.1 h
  rfl

theorem History.ok_iff (h : History c outcomes d) (hc : c.ok = false) :
    d.ok = true ↔ none ∈ outcomes := by
  induction h with
  | start => simp [hc]
  | @run outcomes d w _ ih =>
    rw [ok_run, Bool.or_eq_true, ih, List.mem_cons, Option.isNone_iff_eq_none, or_comm, eq_comm]
  | @undo outcomes d w _ ih => rw [ok_undo, ih]
  | @add outcomes d d' child _ hadd ih => rw [ok, core_of_tryAdd hadd, ← ih, ok]

/-- What `undo` does depends on all runs so far and not on the last one.  After any `History` of
calls on a command that was not ok, it is ok if and only if some run returned without fault.  As
long as none has, `undo` has no effect.  So it is without effect after a failed run just if every
run before failed, too. -/
theorem undo_of_history (hc : c.ok = false) (h : History c outcomes d) :
    (d.ok = true ↔ none ∈ outcomes) ∧
    (none ∉ outcomes → ∀ w : σ, undo d w = ⟨d, w, none⟩) ∧
    ∀ fault, outcomes.head? = some (some fault) →
      ((d.ok = false ∧ ∀ w : σ, undo d w = ⟨d, w, none⟩) ↔ none ∉ outcomes) := by
  have hok := h.ok_iff hc
  have hidle : none ∉ outcomes → ∀ w : σ, undo d w = ⟨d, w, none⟩ := by
    intro hnone
    refine undo_of_not_ok ?_
    rwa [← hok, Bool.not_eq_true] at hnone
  refine ⟨hok, hidle, fun fault _ => ⟨?_, fun hnone => ⟨?_, hidle hnone⟩⟩⟩
  · rintro ⟨hd, -⟩ hnone
    rw [hok.2 hnone] at hd
    cases hd
  · rwa [← hok, Bool.not_eq_true] at hnone

/-! ## A failed run that is undone -/

/-- A composite of one command, which goes well. -/
def wellRun : Command Tally :=
  .composite (.fresh 1) 2 [.leaf (.fresh 2) .inc]

/-- The same composite after a run, with a command behind the first one that fails. -/
def extended : Command Tally :=
  .composite ⟨1, true⟩ 2 [.leaf ⟨2, true⟩ .inc, .leaf (.fresh 3) .incFail]

/-- The last run of the composite has failed, but the one before it had not, so it is marked and
undoing it takes back what its first child has done. -/
theorem undo_after_failed_run :
    ∃ (c : Command Tally) (w₁ w₂ w₃ : Ledger), run wellRun .empty = ⟨c, w₁, none⟩ ∧
      c.tryAdd (.leaf (.fresh 3) .incFail) = .ok extended ∧
      run extended w₁ = ⟨extended, w₂, some (.commandFailed "IncFail" "refused")⟩ ∧
      extended.ok = true ∧ undo extended w₂ = ⟨extended, w₃, none⟩ ∧
      w₂.count = 2 ∧ w₃.count = 1 ∧ w₃.events.length = w₂.events.length + 1 :=
  ⟨_, _, _, _, rfl, rfl, rfl, rfl, rfl, rfl, rfl, rfl⟩

theorem undo_of_history_extended :
    ∃ fault, History wellRun [some fault, none] extended ∧ extended.ok = true ∧
      ¬ (extended.ok = false ∧ ∀ w : Ledger, undo extended w = ⟨extended, w, none⟩) := by
  have hran : History wellRun [none] (run wellRun Ledger.empty).subject :=
    History.start.run Ledger.empty
  have hadd : (run wellRun Ledger.empty).subject.tryAdd (.leaf (.fresh 3) .incFail) =
      .ok extended := rfl
  have hfailed : History wellRun [some (.commandFailed "IncFail" "refused"), none] extended :=
    (hran.add hadd).run (run wellRun Ledger.empty).world
  obtain ⟨hok, -, hleft⟩ := undo_of_history rfl hfailed
  have hmem : none ∈ [some (Fault.commandFailed "IncFail" "refused"), none] := by decide
  exact ⟨_, hfailed, hok.2 hmem, fun h => (hleft _ rfl).1 h hmem⟩

end RecordStream.Command
