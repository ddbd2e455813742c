import Mathlib.Data.Nat.ModEq
import Mathlib.Tactic.Ring
import RecordStream.Generator

/-!
# Ids that are drawn

The ids that are drawn for one type are an arithmetic progression modulo `2 ^ 64`:
`idAt start step n` is the value of a generator after `n` draws, which is also the `n`th
id.  `idAt_eq_iff` says when two of them agree and `exists_idAt_eq_nullId_iff` whether one
of them is the null id.

A pool draws for each type as if there were no other: `p.HasDrawn start step n` says that
`n d` ids have been drawn for each `d`, and `HasDrawn.resolve` how a request goes on.
-/

namespace RecordStream

/-! ## The ids of one type -/

/-- The value of a generator after `n` draws. -/
def idAt (start step : UInt64) (n : Nat) : EntityId :=
  .ofNat (start.toNat + n * step.toNat)

section idAt

variable {start step : UInt64}

theorem toNat_idAt (n : Nat) :
    (idAt start step n).toNat = (start.toNat + n * step.toNat) % 2 ^ 64 :=
  UInt64.toNat_ofNat

@[simp] theorem idAt_zero : idAt start step 0 = start := by
  simp [idAt]

theorem idAt_succ (n : Nat) : idAt start step (n + 1) = idAt start step n + step := by
  rw [← UInt64.toNat_inj, UInt64.toNat_add, toNat_idAt, toNat_idAt, Nat.mod_add_mod,
    Nat.add_assoc, Nat.succ_mul]

theorem idAt_eq_nullId_iff {n : Nat} :
    idAt start step n = nullId ↔ 2 ^ 64 ∣ start.toNat + n * step.toNat := by
  rw [← UInt64.toNat_inj, toNat_idAt, Nat.dvd_iff_mod_eq_zero]
  rfl

/-- The ids come back after `2 ^ 64 / gcd` of them and not before. -/
theorem idAt_eq_iff {m n : Nat} :
    idAt start step m = idAt start step n ↔ m ≡ n [MOD 2 ^ 64 / Nat.gcd step.toNat (2 ^ 64)] := by
  have hsteps : idAt start step m = idAt start step n ↔
      m * step.toNat ≡ n * step.toNat [MOD 2 ^ 64] := by
    rw [← UInt64.toNat_inj, toNat_idAt, toNat_idAt]
    exact ⟨Nat.ModEq.add_left_cancel' start.toNat, Nat.ModEq.add_left start.toNat⟩
  rw [hsteps, Nat.gcd_comm]
  constructor
  · exact Nat.ModEq.cancel_right_div_gcd (by decide)
  · intro h
    -- the step is a multiple of the common divisor, which makes the modulus whole again
    have hwhole : 2 ^ 64 ∣ 2 ^ 64 / Nat.gcd (2 ^ 64) step.toNat * step.toNat := by
      rw [Nat.div_mul_right_comm (Nat.gcd_dvd_left ..), Nat.mul_div_assoc _ (Nat.gcd_dvd_right ..)]
      exact Nat.dvd_mul_right ..
    exact (h.mul_right' step.toNat).of_dvd hwhole

/-- The ids of one round are distinct. -/
theorem nodup_take_idAt (s n : Nat) :
    (((List.range' s n).map (idAt start step)).take
      (2 ^ 64 / Nat.gcd step.toNat (2 ^ 64))).Nodup := by
  refine List.pairwise_iff_getElem.2 ?_
  intro i j hi hj hij hids
  have hround := hj.trans_le (List.length_take_le ..)
  simp only [List.getElem_take, List.getElem_map, List.getElem_range', Nat.one_mul] at hids
  have hoffsets := Nat.ModEq.add_left_cancel' s (idAt_eq_iff.1 hids)
  exact hij.ne (hoffsets.eq_of_lt_of_lt (hij.trans hround) hround)

/-- Counting in steps reaches the null id just if the common divisor of the step and
`2 ^ 64` divides the start. -/
theorem exists_idAt_eq_nullId_iff (hstep : step ≠ 0) :
    (∃ n, 0 < n ∧ idAt start step n = nullId) ↔ Nat.gcd step.toNat (2 ^ 64) ∣ start.toNat := by
  constructor
  · rintro ⟨n, -, hn⟩
    have hsum := (Nat.gcd_dvd_right step.toNat (2 ^ 64)).trans (idAt_eq_nullId_iff.1 hn)
    exact (Nat.dvd_add_left ((Nat.gcd_dvd_left step.toNat (2 ^ 64)).mul_left n)).1 hsum
  · rintro ⟨t, ht⟩
    have hpos : 0 < step.toNat := Nat.pos_of_ne_zero fun h => hstep (UInt64.toNat_inj.1 h)
    obtain ⟨m, hm⟩ := Nat.exists_mul_mod_eq_gcd
      ((Nat.gcd_le_left (2 ^ 64) hpos).trans_lt step.toNat_lt)
    -- `m` steps count as one common divisor, so `(2 ^ 64 - 1) * t * m` of them take the start away
    refine ⟨(2 ^ 64 - 1) * t * m + 2 ^ 64, by omega, idAt_eq_nullId_iff.2 ?_⟩
    have hsteps : step.toNat * m ≡ Nat.gcd step.toNat (2 ^ 64) [MOD 2 ^ 64] := by
      rw [← hm.2]
      exact (Nat.mod_modEq ..).symm
    refine Nat.modEq_zero_iff_dvd.1 ?_
    calc start.toNat + ((2 ^ 64 - 1) * t * m + 2 ^ 64) * step.toNat
      _ = start.toNat + (2 ^ 64 - 1) * t * (step.toNat * m) + 2 ^ 64 * step.toNat := by ring
      _ ≡ start.toNat + (2 ^ 64 - 1) * t * Nat.gcd step.toNat (2 ^ 64) + 2 ^ 64 * step.toNat
          [MOD 2 ^ 64] := ((hsteps.mul_left _).add_left _).add_right _
      _ = 2 ^ 64 * (start.toNat + step.toNat) := by rw [ht]; ring
      _ ≡ 0 [MOD 2 ^ 64] := Nat.modEq_zero_iff_dvd.2 (Nat.dvd_mul_right ..)

end idAt

/-! ## Pools -/

namespace IdPool

/-- Types that differ at all, be it in a version number, have generators of their own. -/
theorem generator_setGenerator (p : IdPool) (d : Descriptor) (g : Generator) (d' : Descriptor) :
    (p.setGenerator d g).generator d' = if d' = d then g else p.generator d' := by
  unfold generator setGenerator
  by_cases hd : d' = d
  · rw [if_pos hd, List.lookup_cons, beq_iff_eq.2 hd]
    rfl
  · have hfilter : (p.generators.filter (·.1 ≠ d)).lookup d' = p.generators.lookup d' := by
      induction p.generators with
      | nil => rfl
      | cons e es ih =>
        by_cases he : e.1 = d
        · rw [List.filter_cons_of_neg (by simpa using he), ih, List.lookup_cons,
            beq_eq_false_iff_ne.2 (he ▸ hd)]
        · rw [List.filter_cons_of_pos (by simpa using he), List.lookup_cons, List.lookup_cons, ih]
    rw [if_neg hd, List.lookup_cons, beq_eq_false_iff_ne.2 hd, hfilter]

theorem resolve_of_ne {d : Descriptor} {id : EntityId} (h : id ≠ nullId) :
    resolve d id = pure id :=
  if_neg h

section HasDrawn

variable {p : IdPool} {start step : UInt64} {n : Descriptor → Nat}

/-- For each type `d`, `n d` ids have been drawn. -/
def HasDrawn (p : IdPool) (start step : UInt64) (n : Descriptor → Nat) : Prop :=
  ∀ d, p.generator d = ⟨nullId, idAt start step (n d), step⟩

theorem hasDrawn_fresh : (fresh start step).HasDrawn start step fun _ => 0 := by
  intro d
  rw [idAt_zero]
  rfl

theorem HasDrawn.next_generator (h : p.HasDrawn start step n) (d : Descriptor) :
    (p.generator d).next = idAt start step (n d + 1) := by
  rw [h d, idAt_succ]
  rfl

theorem HasDrawn.nextId (h : p.HasDrawn start step n) (d : Descriptor) :
    (nextId d p).2.HasDrawn start step fun e => n e + if d = e then 1 else 0 := by
  intro e
  have hpool : (IdPool.nextId d p).2 =
      p.setGenerator d ⟨nullId, idAt start step (n d + 1), step⟩ := by
    rw [← h.next_generator d]
    simp only [IdPool.nextId, Generator.draw, h d]
  rw [hpool, generator_setGenerator]
  dsimp only
  by_cases hd : e = d
  · rw [if_pos hd, if_pos hd.symm, hd]
  · rw [if_neg hd, if_neg (Ne.symm hd), h e, Nat.add_zero]

/-- A request draws for its type, if for any, and for no other. -/
theorem HasDrawn.resolve (h : p.HasDrawn start step n) (d : Descriptor) (id : EntityId) :
    (resolve d id p).2.HasDrawn start step
      fun e => n e + if d = e ∧ id = nullId then 1 else 0 := by
  by_cases hid : id = nullId
  · simpa only [IdPool.resolve, if_pos, hid, and_true] using h.nextId d
  · simp only [resolve_of_ne hid, hid, and_false, if_false, Nat.add_zero]
    exact h

theorem HasDrawn.resolve_nullId (h : p.HasDrawn start step n) (d : Descriptor) :
    (IdPool.resolve d nullId p).1 = idAt start step (n d + 1) := by
  rw [IdPool.resolve, if_pos rfl]
  exact h.next_generator d

end HasDrawn

end IdPool

end RecordStream
