import Handheld.Proofs.Timer.ReloadWindow
import Mathlib.Algebra.Ring.Nat
import Mathlib.Order.Monotone.Basic

/-!
# The schedule of the falling edges

While the timer is enabled its signal falls whenever the divider reaches a multiple of the period. So
the cycle of every falling edge is known in advance, and every cycle has its place: so many edges have
come up to it, and the last one so many cycles ago.

* `period`, `edgeCycle`, `overflowEdge`: the schedule in closed form.
* `edgesIn`, `sinceEdge`: the place of a cycle; `edgesIn_eq_iff`, `eq_edgeCycle_iff`.
* `edgesIn_still`, `edgesIn_edge`: the place of the cycle after it.
* `falls_iff_last`, `fallingEdges_cycles`: where the signal falls, and how often.
-/

namespace Handheld.Timer

variable {t : Timer} {n k i : Nat}

/-- The cycles from one falling edge to the next, for each clock select. -/
def periods : Vector Nat 4 := #v[1024, 16, 64, 256]

theorem select_lt (tac : UInt8) : tac.toNat % 4 < 4 := Nat.mod_lt _ (by decide)

def periodOf (tac : UInt8) : Nat := periods.get ⟨tac.toNat % 4, select_lt tac⟩

def period (t : Timer) : Nat := periodOf t.tac

theorem periodOf_eq (tac : UInt8) :
    periodOf tac = 2 * 2 ^ selectedBits.get ⟨tac.toNat % 4, select_lt tac⟩ ∧
      (periodOf tac = 1024 ∨ periodOf tac = 16 ∨ periodOf tac = 64 ∨ periodOf tac = 256) := by
  revert tac
  exact forall_byte (by decide +kernel)

theorem period_cases (t : Timer) :
    t.period = 1024 ∨ t.period = 16 ∨ t.period = 64 ∨ t.period = 256 :=
  (periodOf_eq t.tac).2

/-- A reload lands well within a period. -/
theorem four_lt_period (t : Timer) : 4 < t.period := by
  rcases t.period_cases with h | h | h | h <;> omega

/-- **The cycle of the `k`-th falling edge**, counted from one. -/
def edgeCycle (t : Timer) (k : Nat) : Nat := t.period * k - t.divider.toNat % t.period

/-- The falling edges in the first `n` cycles. -/
def edgesIn (t : Timer) (n : Nat) : Nat := (t.divider.toNat % t.period + n) / t.period

/-- The cycles since the last of them, or since the divider was a multiple of the period. -/
def sinceEdge (t : Timer) (n : Nat) : Nat := (t.divider.toNat % t.period + n) % t.period

theorem offset_lt (t : Timer) : t.divider.toNat % t.period < t.period :=
  Nat.mod_lt _ (Nat.lt_trans (by decide) t.four_lt_period)

theorem sinceEdge_lt (t : Timer) (n : Nat) : t.sinceEdge n < t.period :=
  Nat.mod_lt _ (Nat.lt_trans (by decide) t.four_lt_period)

theorem edgesIn_zero (t : Timer) : t.edgesIn 0 = 0 := Nat.div_eq_of_lt t.offset_lt

/-- The cycles up to the `n`-th are whole periods and a rest. -/
theorem place_eq (t : Timer) (n : Nat) :
    t.divider.toNat % t.period + n = t.period * t.edgesIn n + t.sinceEdge n :=
  (Nat.div_add_mod _ _).symm

/-- There is no other way to split them. -/
theorem place_unique (hi : i < t.period) (h : t.divider.toNat % t.period + n = t.period * k + i) :
    t.edgesIn n = k ∧ t.sinceEdge n = i := by
  have hpos : 0 < t.period := Nat.lt_trans (by decide) t.four_lt_period
  unfold edgesIn sinceEdge
  rw [h, Nat.mul_add_div hpos, Nat.mul_add_mod, Nat.div_eq_of_lt hi, Nat.mod_eq_of_lt hi]
  exact ⟨rfl, rfl⟩

/-- The cycle of an edge, without the subtraction. -/
theorem edgeCycle_add (t : Timer) (hk : 1 ≤ k) :
    t.divider.toNat % t.period + t.edgeCycle k = t.period * k := by
  have hle : t.period * 1 ≤ t.period * k := Nat.mul_le_mul_left _ hk
  have hlt := t.offset_lt
  unfold edgeCycle
  omega

/-- **A cycle comes `i` cycles after the edge `k`** exactly if that is its place. -/
theorem eq_edgeCycle_iff (hk : 1 ≤ k) (hi : i < t.period) :
    n = t.edgeCycle k + i ↔ t.edgesIn n = k ∧ t.sinceEdge n = i := by
  have hcycle := t.edgeCycle_add hk
  constructor
  · rintro rfl
    apply place_unique hi
    omega
  · rintro ⟨rfl, rfl⟩
    have hplace := t.place_eq n
    omega

/-- **The edges up to a cycle** are those whose cycle has come. -/
theorem edgesIn_eq_iff : t.edgesIn n = k ↔ t.edgeCycle k ≤ n ∧ n < t.edgeCycle (k + 1) := by
  have hplace := t.place_eq n
  have hwithin := t.sinceEdge_lt n
  have hlater := t.edgeCycle_add (Nat.le_add_left 1 k)
  have hlt := t.offset_lt
  constructor
  · rintro rfl
    have hnext : t.period * (t.edgesIn n + 1) = t.period * t.edgesIn n + t.period := Nat.mul_succ _ _
    unfold edgeCycle at *
    omega
  · rintro ⟨hle, hbefore⟩
    have hupper : t.period * t.edgesIn n < t.period * (k + 1) := by omega
    have hlower : t.period * k < t.period * (t.edgesIn n + 1) := by
      rw [Nat.mul_succ]
      unfold edgeCycle at hle
      omega
    have hup := Nat.lt_of_mul_lt_mul_left hupper
    have hlow := Nat.lt_of_mul_lt_mul_left hlower
    omega

/-- Within a period the last edge is one cycle further back. -/
theorem edgesIn_still (h : t.sinceEdge n + 1 < t.period) :
    t.edgesIn (n + 1) = t.edgesIn n ∧ t.sinceEdge (n + 1) = t.sinceEdge n + 1 := by
  have hplace := t.place_eq n
  apply place_unique h
  omega

/-- The last cycle of a period is an edge. -/
theorem edgesIn_edge (h : t.sinceEdge n + 1 = t.period) :
    t.edgesIn (n + 1) = t.edgesIn n + 1 ∧ t.sinceEdge (n + 1) = 0 := by
  have hplace := t.place_eq n
  have hlong := t.four_lt_period
  apply place_unique (by omega)
  rw [Nat.mul_succ]
  omega

/-- The next cycle is that of an edge if it ends a period. -/
theorem succ_eq_edgeCycle_iff (hk : 1 ≤ k) :
    n + 1 = t.edgeCycle k ↔ t.edgesIn n + 1 = k ∧ t.sinceEdge n + 1 = t.period := by
  have hlong := t.four_lt_period
  have hplace : n + 1 = t.edgeCycle k ↔ t.edgesIn (n + 1) = k ∧ t.sinceEdge (n + 1) = 0 :=
    eq_edgeCycle_iff (i := 0) hk (by omega)
  rw [hplace]
  by_cases hlast : t.sinceEdge n + 1 = t.period
  · obtain ⟨hedges, hsince⟩ := edgesIn_edge hlast
    rw [hedges, hsince]
    exact and_congr_right fun _ => ⟨fun _ => hlast, fun _ => rfl⟩
  · have hwithin := t.sinceEdge_lt n
    obtain ⟨-, hsince⟩ := edgesIn_still (by omega : t.sinceEdge n + 1 < t.period)
    constructor
    · rintro ⟨-, hzero⟩
      omega
    · rintro ⟨-, heq⟩
      exact absurd heq hlast

/-- **The signal falls in the last cycle of a period**, and in no other. -/
theorem falls_iff_last (henabled : t.tac.toNat.testBit 2 = true) :
    t.falls .cycle = true ↔ t.divider.toNat % t.period + 1 = t.period := by
  have hafter : (t.after .cycle).signal = signalOf (t.divider + 1) t.tac := by
    refine (cycle_signal t).trans ?_
    rw [moved, advanceReload_eq]
    rfl
  have hnext : (t.divider + 1).toNat = (t.divider.toNat + 1) % 65536 := UInt16.toNat_add ..
  have hlt := t.divider.toNat_lt
  -- the selected bit is high in the second half of every period
  have hhalf : t.period = 2 * 2 ^ selectedBits[t.tac.toNat % 4] := (periodOf_eq t.tac).1
  rw [falls, hafter, signal, signalOf_eq, signalOf_eq, henabled, Bool.true_and, Bool.true_and,
    Bool.and_eq_true_iff, Bool.not_eq_true', Nat.testBit_eq_decide_div_mod_eq,
    Nat.testBit_eq_decide_div_mod_eq, decide_eq_true_iff, decide_eq_false_iff_not, hnext]
  generalize 2 ^ selectedBits[t.tac.toNat % 4] = half at hhalf ⊢
  rcases t.period_cases with hp | hp | hp | hp <;> rw [hp] at hhalf ⊢
  · obtain rfl : half = 512 := by omega
    omega
  · obtain rfl : half = 8 := by omega
    omega
  · obtain rfl : half = 32 := by omega
    omega
  · obtain rfl : half = 128 := by omega
    omega

theorem cycle_tac (t : Timer) : t.cycle.1.tac = t.tac := by
  rw [cycle_eq, count_eq, moved, advanceReload_eq]
  split <;> rfl

/-- **The falling edges of any number of cycles.** -/
theorem fallingEdges_cycles (henabled : t.tac.toNat.testBit 2 = true) (n : Nat) :
    fallingEdges ((t.trail (.replicate n .cycle)).map signal) = t.edgesIn n := by
  induction n generalizing t with
  | zero => exact t.edgesIn_zero.symm
  | succ n ih =>
    have htac := cycle_tac t
    have hsame : t.cycle.1.period = t.period := congrArg periodOf htac
    have hnext := cycle_next t
    have hfirst : (t.falls .cycle).toNat =
        if t.divider.toNat % t.period + 1 = t.period then 1 else 0 := by
      simp only [← falls_iff_last henabled]
      cases t.falls .cycle <;> rfl
    have hlater : fallingEdges (((t.after .cycle).trail (.replicate n .cycle)).map signal) =
        t.cycle.1.edgesIn n :=
      ih (htac ▸ henabled)
    rw [List.replicate_succ, fallingEdges_trail, hfirst, hlater, edgesIn, edgesIn, hsame, hnext]
    -- the divider wraps at a multiple of every period
    rcases t.period_cases with hp | hp | hp | hp <;> rw [hp] <;> split <;> omega

/-- **The edge of an overflow**, counted from one; the overflows are counted from zero. -/
def overflowEdge (t : Timer) (j : Nat) : Nat := (256 - t.tima.toNat) + j * (256 - t.tma.toNat)

theorem overflowEdge_zero (t : Timer) : t.overflowEdge 0 = 256 - t.tima.toNat := by
  rw [overflowEdge, Nat.zero_mul, Nat.add_zero]

theorem overflowEdge_succ (t : Timer) (j : Nat) :
    t.overflowEdge (j + 1) = t.overflowEdge j + (256 - t.tma.toNat) := by
  rw [overflowEdge, overflowEdge, Nat.succ_mul, Nat.add_assoc]

/-- Overflows come one after the other. -/
theorem overflowEdge_strictMono (t : Timer) : StrictMono t.overflowEdge := by
  apply strictMono_nat_of_lt_succ
  intro j
  have hmodulo := t.tma.toNat_lt
  rw [overflowEdge_succ]
  omega

theorem overflowEdge_zero_le (t : Timer) (j : Nat) : t.overflowEdge 0 ≤ t.overflowEdge j :=
  t.overflowEdge_strictMono.monotone (Nat.zero_le j)

theorem overflowEdge_pos (t : Timer) (j : Nat) : 1 ≤ t.overflowEdge j := by
  have hcounter := t.tima.toNat_lt
  have hfirst := t.overflowEdge_zero_le j
  rw [overflowEdge_zero] at hfirst
  omega

/-- A moment follows on one overflow only. -/
theorem overflowEdge_unique {e j : Nat} (hi : t.overflowEdge i ≤ e)
    (hi' : e < t.overflowEdge (i + 1)) (hj : t.overflowEdge j ≤ e)
    (hj' : e < t.overflowEdge (j + 1)) : i = j := by
  have hij := t.overflowEdge_strictMono.lt_iff_lt.1 (Nat.lt_of_le_of_lt hi hj')
  have hji := t.overflowEdge_strictMono.lt_iff_lt.1 (Nat.lt_of_le_of_lt hj hi')
  omega

end Handheld.Timer
