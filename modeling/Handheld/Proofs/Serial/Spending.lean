import Mathlib.Logic.Function.Iterate
import Handheld.Serial

/-!
# Cycles of the serial port, in parts

The port spends the cycles of a step on its bits, and a step may end within a bit, with one or
several bits later. How the cycles of a transfer come in steps makes no difference.

* `step_add` (any state): cycles spent at once or in two parts.
* `step_eq_ticks`: one step, or as many as there are cycles.
* `Spending`, `Spending.round`: the same as a loop, which spends what is left of one bit in a round;
  `Spending.ends`: it ends, and with what the step gives.
-/

namespace Handheld.Serial

/-- Cycles that do not end the current bit are taken from it. -/
theorem clock_running (s : Serial) (period bitsAfter : Nat) {countdown n : Nat}
    (hn : n < countdown) :
    s.clock period bitsAfter countdown n =
      ({ s with transfer := some ⟨bitsAfter, countdown - n, period⟩ }, false) := by
  cases bitsAfter <;> rw [clock, if_pos hn]

theorem clock_last (s : Serial) (period : Nat) {countdown n : Nat} (hn : ¬n < countdown) :
    s.clock period 0 countdown n =
      ({ s.shiftIn with control := s.control &&& 0x7F, transfer := none }, true) := by
  rw [clock, if_neg hn]

theorem clock_next (s : Serial) (period bits : Nat) {countdown n : Nat} (hn : ¬n < countdown) :
    s.clock period (bits + 1) countdown n = s.shiftIn.clock period bits period (n - countdown) := by
  rw [clock, if_neg hn]

/-- What is left of the current bit is kept with the rest of the transfer. -/
theorem clock_withTransfer (s : Serial) (t : Option Transfer) (period bitsAfter countdown n : Nat) :
    { s with transfer := t }.clock period bitsAfter countdown n =
      s.clock period bitsAfter countdown n := by
  induction bitsAfter generalizing s countdown n with
  | zero =>
    rw [clock, clock]
    rfl
  | succ bits ih =>
    rw [clock, clock]
    split
    · rfl
    · exact ih s.shiftIn period _

/-- The current bit is spent in parts. -/
theorem clock_rest (s : Serial) (period bitsAfter : Nat) {countdown m : Nat} (hm : m < countdown)
    (n : Nat) :
    s.clock period bitsAfter countdown (m + n) = s.clock period bitsAfter (countdown - m) n := by
  -- the second part ends the bit exactly if both together do
  by_cases hn : n < countdown - m
  · rw [clock_running s _ _ hn, clock_running s _ _ (by omega), Nat.sub_sub]
  · have hmn : ¬m + n < countdown := by omega
    cases bitsAfter with
    | zero => rw [clock_last s _ hn, clock_last s _ hmn]
    | succ bits =>
      have hleft : m + n - countdown = n - (countdown - m) := by omega
      rw [clock_next s _ _ hn, clock_next s _ _ hmn, hleft]

theorem withTransfer_self {s : Serial} {t : Option Transfer} (h : s.transfer = t) :
    { s with transfer := t } = s := by
  rw [← h]

theorem step_idle {s : Serial} (h : s.transfer = none) (n : Nat) : s.step n = (s, false) := by
  rw [step, h]

theorem step_busy {s : Serial} {t : Transfer} (h : s.transfer = some t) (n : Nat) :
    s.step n = s.clock t.period t.bitsAfter t.countdown n := by
  rw [step, h]

/-- One step after another; true if either of them requested the interrupt. -/
def thenStep (r : Serial × Bool) (n : Nat) : Serial × Bool :=
  ((r.1.step n).1, r.2 || (r.1.step n).2)

theorem clock_add_running (s : Serial) (period bitsAfter : Nat) {countdown m : Nat}
    (hm : m < countdown) (n : Nat) :
    s.clock period bitsAfter countdown (m + n) =
      thenStep (s.clock period bitsAfter countdown m) n := by
  have hrest := clock_withTransfer s (some ⟨bitsAfter, countdown - m, period⟩) period bitsAfter
    (countdown - m) n
  rw [clock_running s _ _ hm, clock_rest s _ _ hm, ← hrest, thenStep, step_busy rfl]
  rfl

theorem clock_add (s : Serial) (period bitsAfter countdown m n : Nat) :
    s.clock period bitsAfter countdown (m + n) =
      thenStep (s.clock period bitsAfter countdown m) n := by
  induction bitsAfter generalizing s countdown m with
  | zero =>
    by_cases hm : m < countdown
    · exact clock_add_running s _ _ hm n
    · rw [clock_last s _ hm, clock_last s _ (n := m + n) (by omega)]
      rfl
  | succ bits ih =>
    by_cases hm : m < countdown
    · exact clock_add_running s _ _ hm n
    · have hleft : m + n - countdown = m - countdown + n := by omega
      rw [clock_next s _ _ hm, clock_next s _ _ (n := m + n) (by omega), hleft]
      exact ih s.shiftIn period (m - countdown)

/-- **Cycles are spent in parts.** -/
theorem step_add (s : Serial) (m n : Nat) : s.step (m + n) = thenStep (s.step m) n := by
  cases ht : s.transfer with
  | none =>
    rw [step_idle ht, step_idle ht, thenStep, step_idle ht]
    rfl
  | some t =>
    rw [step_busy ht, step_busy ht]
    exact clock_add s ..

theorem iterate_step (s : Serial) (k n : Nat) :
    (fun s => (step s k).1)^[n + 1] s = (s.step (k * (n + 1))).1 := by
  induction n with
  | zero => rw [Nat.zero_add, Nat.mul_one, Function.iterate_one]
  | succ n ih =>
    rw [Function.iterate_succ_apply', ih, Nat.mul_succ k (n + 1), step_add]
    rfl

/-- `n` steps of a cycle each; true if one of them requested the interrupt. -/
def ticks (s : Serial) : Nat → Serial × Bool
  | 0 => (s, false)
  | n + 1 => thenStep (s.ticks n) 1

/-- Each bit of the transfer takes its time. -/
def Ticking (s : Serial) : Prop := ∀ t, s.transfer = some t → 0 < t.countdown ∧ 0 < t.period

theorem Ticking.step_zero {s : Serial} (h : s.Ticking) : s.step 0 = (s, false) := by
  cases ht : s.transfer with
  | none => exact step_idle ht 0
  | some t =>
    rw [step_busy ht, clock_running s _ _ (h t ht).1, Nat.sub_zero]
    exact congrArg (·, false) (withTransfer_self ht)

/-- **A step is as many steps of a cycle each.** -/
theorem Ticking.step_eq_ticks {s : Serial} (h : s.Ticking) (n : Nat) : s.step n = s.ticks n := by
  induction n with
  | zero => exact h.step_zero
  | succ n ih => rw [step_add, ih, ticks]

/-- A step on its way: the port, the cycles left to spend, and whether the interrupt was requested. -/
structure Spending where
  port : Serial
  left : Nat
  asked : Bool := false

namespace Spending

/-- Spends as many cycles as are left, but no more than the current bit takes. If the bit has then
run out, it is shifted in, and the next one begins unless it was the last. -/
def round (p : Spending) : Spending :=
  match p.port.transfer with
  | none => p
  | some t =>
    let spent := min p.left t.countdown
    if spent < t.countdown then
      { p with
        port := { p.port with transfer := some { t with countdown := t.countdown - spent } }
        left := p.left - spent }
    else
      match t.bitsAfter with
      | 0 =>
        { port := { p.port.shiftIn with control := p.port.control &&& 0x7F, transfer := none }
          left := p.left - spent
          asked := true }
      | bits + 1 =>
        { p with
          port := { p.port.shiftIn with transfer := some ⟨bits, t.period, t.period⟩ }
          left := p.left - spent }

/-- Nothing to spend, or nothing to spend it on. -/
def Over (p : Spending) : Prop := p.left = 0 ∨ p.port.transfer = none

/-- **The loop ends**: it runs `rounds` rounds, each of them because it is not over yet, and leaves
the port as `r` says. -/
structure Ends (p : Spending) (rounds : Nat) (r : Serial × Bool) : Prop where
  goes : ∀ i < rounds, ¬(round^[i] p).Over
  ended : (round^[rounds] p).Over
  port : (round^[rounds] p).port = r.1
  asked : (round^[rounds] p).asked = r.2

theorem Ends.now {p : Spending} (h : p.Over) : Ends p 0 (p.port, p.asked) :=
  ⟨fun i hi => absurd hi (Nat.not_lt_zero i), h, rfl, rfl⟩

theorem Ends.next {p : Spending} {rounds : Nat} {r : Serial × Bool} (hp : ¬p.Over)
    (h : Ends p.round rounds r) : Ends p (rounds + 1) r := by
  refine ⟨?_, h.ended, h.port, h.asked⟩
  intro i hi
  cases i with
  | zero => exact hp
  | succ i => exact h.goes i (Nat.lt_of_succ_lt_succ hi)

theorem not_over {s : Serial} {t : Transfer} {n : Nat} {asked : Bool} (ht : s.transfer = some t)
    (hn : n ≠ 0) : ¬Over ⟨s, n, asked⟩ := by
  rintro (hleft | hidle)
  · exact hn hleft
  · exact absurd (ht.symm.trans hidle) (Option.some_ne_none t)

theorem round_within {s : Serial} {bitsAfter countdown period n : Nat} {asked : Bool}
    (ht : s.transfer = some ⟨bitsAfter, countdown, period⟩) (hn : n < countdown) :
    round ⟨s, n, asked⟩ =
      ⟨{ s with transfer := some ⟨bitsAfter, countdown - n, period⟩ }, 0, asked⟩ := by
  have hspent : min n countdown = n := Nat.min_eq_left (Nat.le_of_lt hn)
  simp only [round, ht, hspent, if_pos hn, Nat.sub_self]

theorem round_last {s : Serial} {countdown period n : Nat} {asked : Bool}
    (ht : s.transfer = some ⟨0, countdown, period⟩) (hn : ¬n < countdown) :
    round ⟨s, n, asked⟩ =
      ⟨{ s.shiftIn with control := s.control &&& 0x7F, transfer := none }, n - countdown, true⟩ := by
  have hspent : min n countdown = countdown := Nat.min_eq_right (Nat.le_of_not_lt hn)
  simp only [round, ht, hspent, Nat.lt_irrefl, if_false]

theorem round_next {s : Serial} {bits countdown period n : Nat} {asked : Bool}
    (ht : s.transfer = some ⟨bits + 1, countdown, period⟩) (hn : ¬n < countdown) :
    round ⟨s, n, asked⟩ =
      ⟨{ s.shiftIn with transfer := some ⟨bits, period, period⟩ }, n - countdown, asked⟩ := by
  have hspent : min n countdown = countdown := Nat.min_eq_right (Nat.le_of_not_lt hn)
  simp only [round, ht, hspent, Nat.lt_irrefl, if_false]

/-- Cycles that do not end the current bit take one round, if there are any. -/
theorem ends_running {s : Serial} {bitsAfter countdown period n : Nat}
    (ht : s.transfer = some ⟨bitsAfter, countdown, period⟩) (hn : n < countdown) :
    ∃ rounds ≤ 1, Ends ⟨s, n, false⟩ rounds (s.clock period bitsAfter countdown n) := by
  rw [clock_running s _ _ hn]
  cases n with
  | zero =>
    rw [Nat.sub_zero, withTransfer_self ht]
    exact ⟨0, Nat.zero_le 1, .now (.inl rfl)⟩
  | succ n =>
    refine ⟨1, Nat.le_refl 1, .next (not_over ht (Nat.succ_ne_zero n)) ?_⟩
    rw [round_within ht hn]
    exact .now (.inl rfl)

/-- One bit after another: a round for each, at most. -/
theorem ends_clock {s : Serial} {bitsAfter countdown period n : Nat}
    (ht : s.transfer = some ⟨bitsAfter, countdown, period⟩) (hc : 0 < countdown)
    (hp : 0 < period) :
    ∃ rounds ≤ bitsAfter + 1, Ends ⟨s, n, false⟩ rounds (s.clock period bitsAfter countdown n) := by
  induction bitsAfter generalizing s countdown n with
  | zero =>
    by_cases hn : n < countdown
    · exact ends_running ht hn
    · refine ⟨1, Nat.le_refl 1, .next (not_over ht (by omega)) ?_⟩
      rw [round_last ht hn, clock_last s _ hn]
      exact .now (.inr rfl)
  | succ bits ih =>
    by_cases hn : n < countdown
    · obtain ⟨rounds, hle, hends⟩ := ends_running ht hn
      exact ⟨rounds, by omega, hends⟩
    · -- the rest is spent from the beginning of the next bit
      obtain ⟨rounds, hle, hends⟩ :=
        ih (s := { s.shiftIn with transfer := some ⟨bits, period, period⟩ }) (n := n - countdown)
          rfl hp
      refine ⟨rounds + 1, Nat.succ_le_succ hle, .next (not_over ht (by omega)) ?_⟩
      rw [round_next ht hn, clock_next s _ _ hn]
      rw [clock_withTransfer] at hends
      exact hends

/-- **The loop ends with what the step gives**, after eight rounds at most. -/
theorem ends {s : Serial} (h : s.Ticking) (hbits : ∀ t, s.transfer = some t → t.bitsAfter < 8)
    (n : Nat) : ∃ rounds ≤ 8, Ends { port := s, left := n } rounds (s.step n) := by
  cases ht : s.transfer with
  | none => exact ⟨0, Nat.zero_le 8, step_idle ht n ▸ .now (.inr ht)⟩
  | some t =>
    obtain ⟨hc, hp⟩ := h t ht
    obtain ⟨rounds, hle, hends⟩ := ends_clock (n := n) ht hc hp
    rw [step_busy ht]
    exact ⟨rounds, Nat.le_trans hle (hbits t ht), hends⟩

end Spending

end Handheld.Serial
