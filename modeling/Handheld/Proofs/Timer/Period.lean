import Handheld.Proofs.Timer.Schedule

/-!
# The period of the timer

A timer that nobody touches keeps its period for ever: neither the cycles that a reload takes nor the
wrap of the divider move its edges. Which values TIMA has on the way, and when the interrupt is
requested, follows from the edges alone.

* `Stage`: TIMA and the reload at a place of the schedule; `Stage.still`, `Stage.edge`: one cycle.
* `Free`: a timer to leave to itself; `Free.stage` (any number of cycles): it goes through the stages.
* `Stage.at_overflow`, `Stage.after_overflow`, `Stage.full_iff`, `Stage.lands_iff`: what they show.
* `OnSchedule`: the edges, overflows, requests and values of TIMA, each at its cycle.
* `period_without_drift` (every timer that is left to itself, in steps of any size).
-/

namespace Handheld.Timer

variable {t w : Timer} {e f j n : Nat}

/-- **TIMA and the reload**, `f` cycles after the edge `e`. TIMA counts up to its first overflow. On an
overflow a reload is on its way for four cycles; then TIMA counts from the modulo to the next one. -/
inductive Stage (t : Timer) (e f : Nat) (w : Timer) : Prop where
  | counting (he : e < t.overflowEdge 0) (tima : w.tima.toNat = t.tima.toNat + e)
      (reload : w.reload = none)
  | waiting (j : Nat) (he : e = t.overflowEdge j) (hf : f < 4) (tima : w.tima = 0)
      (reload : w.reload = some ⟨t.tma, 3 - f⟩)
  | recounting (j : Nat) (he : t.overflowEdge j ≤ e) (he' : e < t.overflowEdge (j + 1))
      (hf : e = t.overflowEdge j → 4 ≤ f)
      (tima : w.tima.toNat = t.tma.toNat + (e - t.overflowEdge j)) (reload : w.reload = none)

/-- **A cycle without an edge** lets a reload come closer or land. -/
theorem Stage.still (h : Stage t e f w) (hlevel : w.level = w.signal)
    (hedge : w.falls .cycle = false) : Stage t e (f + 1) w.cycle.1 := by
  obtain ⟨htima, hreload⟩ := cycle_still hlevel hedge
  have hmodulo := t.tma.toNat_lt
  cases h with
  | counting he tima reload =>
    rw [landing?, reload] at htima
    rw [waiting?, reload] at hreload
    exact .counting he ((congrArg UInt8.toNat htima).trans tima) hreload
  | waiting j he hf tima reload =>
    by_cases hlast : f = 3
    · -- the reload lands
      subst hlast
      rw [landing?, reload] at htima
      rw [waiting?, reload] at hreload
      have hnext := t.overflowEdge_succ j
      refine .recounting j (Nat.le_of_eq he.symm) (by omega) (fun _ => Nat.le_refl 4) ?_ hreload
      rw [he, Nat.sub_self]
      exact congrArg UInt8.toNat htima
    · obtain ⟨d, hd⟩ : ∃ d, 3 - f = d + 1 := ⟨2 - f, by omega⟩
      rw [landing?, reload, hd] at htima
      rw [waiting?, reload, hd] at hreload
      obtain rfl : d = 3 - (f + 1) := by omega
      exact .waiting j he (by omega) (htima.trans tima) hreload
  | recounting j he he' hf tima reload =>
    rw [landing?, reload] at htima
    rw [waiting?, reload] at hreload
    refine .recounting j he he' ?_ ((congrArg UInt8.toNat htima).trans tima) hreload
    intro heq
    exact Nat.le_succ_of_le (hf heq)

/-- Without a reload a cycle loads nothing into TIMA, and leaves none. -/
theorem loaded_of_idle (h : w.reload = none) :
    w.loaded .cycle = w.tima ∧ w.armed .cycle = none := by
  constructor
  · show w.landing?.getD w.tima = w.tima
    rw [landing?, h]
    rfl
  · show w.waiting? = none
    rw [waiting?, h]

/-- An edge that finds no reload counts, or overflows. -/
theorem cycle_edge (hlevel : w.level = w.signal) (hedge : w.falls .cycle = true)
    (hidle : w.reload = none) :
    (w.tima.toNat = 255 →
      w.cycle.1.tima = 0 ∧ w.cycle.1.reload = some ⟨w.armedModulo, 3⟩) ∧
    (w.tima.toNat ≠ 255 → w.cycle.1.tima.toNat = w.tima.toNat + 1 ∧ w.cycle.1.reload = none) := by
  have hcounted := counted hlevel .cycle
  obtain ⟨hloaded, harmed⟩ := loaded_of_idle hidle
  constructor
  · intro hfull
    apply hcounted.overflow hedge
    rw [hloaded]
    exact UInt8.toNat_inj.1 hfull
  · intro hroom
    constructor
    · have htima : w.cycle.1.tima = w.tima + 1 := by
        have hone := hcounted.tima
        rw [hedge, hloaded] at hone
        exact hone
      have hlt := w.tima.toNat_lt
      rw [htima, UInt8.toNat_add]
      simp only [UInt8.reduceToNat]
      omega
    · refine (hcounted.armed ?_).trans harmed
      rintro ⟨-, hfull⟩
      apply hroom
      rw [← hloaded, hfull]
      rfl

/-- **An edge**, when the reload before it has long landed. -/
theorem Stage.edge (h : Stage t e f w) (hlevel : w.level = w.signal)
    (hmodulo : w.armedModulo = t.tma) (hf : 4 ≤ f) (hedge : w.falls .cycle = true) :
    Stage t (e + 1) 0 w.cycle.1 := by
  cases h with
  | counting he tima reload =>
    obtain ⟨hover, hcount⟩ := cycle_edge hlevel hedge reload
    have hfirst := t.overflowEdge_zero
    have hcounter := t.tima.toNat_lt
    by_cases hlast : w.tima.toNat = 255
    · obtain ⟨htima, hreload⟩ := hover hlast
      rw [hmodulo] at hreload
      exact .waiting 0 (by omega) (by omega) htima hreload
    · obtain ⟨htima, hreload⟩ := hcount hlast
      exact .counting (by omega) (by omega) hreload
  | waiting j he hf' => omega
  | recounting j he he' hf' tima reload =>
    obtain ⟨hover, hcount⟩ := cycle_edge hlevel hedge reload
    have hnext := t.overflowEdge_succ j
    have hlt := t.tma.toNat_lt
    by_cases hlast : w.tima.toNat = 255
    · obtain ⟨htima, hreload⟩ := hover hlast
      rw [hmodulo] at hreload
      exact .waiting (j + 1) (by omega) (by omega) htima hreload
    · obtain ⟨htima, hreload⟩ := hcount hlast
      exact .recounting j (by omega) (by omega) (by omega) (by omega) hreload

/-- **A timer to leave to itself**: it is enabled, and neither a reload nor a write to the modulo is
on its way. -/
structure Free (t : Timer) : Prop where
  enabled : t.tac.toNat.testBit 2 = true
  idle : t.reload = none
  level : t.level = t.signal
  latch : t.tmaBefore = none

/-- What cycles leave alone. -/
structure Untouched (t w : Timer) : Prop where
  tac : w.tac = t.tac
  tma : w.tma = t.tma
  level : w.level = w.signal
  latch : w.tmaBefore = none

theorem Free.untouched (h : Free t) (n : Nat) : Untouched t (t.inStep n) := by
  induction n with
  | zero => exact ⟨rfl, rfl, h.level, h.latch⟩
  | succ n ih =>
    obtain ⟨hlatch, htma⟩ := cycle_latch (t.inStep n)
    rw [inStep_succ]
    exact ⟨(cycle_tac _).trans ih.tac, htma.trans ih.tma, after_level ih.level .cycle, hlatch⟩

/-- The signal falls in the last cycle of a period, counted from `t`. -/
theorem Free.falls_iff (h : Free t) (n : Nat) :
    (t.inStep n).falls .cycle = true ↔ t.sinceEdge n + 1 = t.period := by
  have htac := (h.untouched n).tac
  have hsame : (t.inStep n).period = t.period := congrArg periodOf htac
  have hdivider : (t.inStep n).divider.toNat = (t.divider.toNat + n) % 65536 := step_divider t n
  rw [falls_iff_last (htac ▸ h.enabled), hsame, hdivider, sinceEdge]
  rcases t.period_cases with hp | hp | hp | hp <;> rw [hp] <;> omega

/-- **Any number of cycles** leads to the stage of their place. -/
theorem Free.stage (h : Free t) (n : Nat) :
    Stage t (t.edgesIn n) (t.sinceEdge n) (t.inStep n) := by
  induction n with
  | zero =>
    have hcounter := t.tima.toNat_lt
    have hfirst := t.overflowEdge_zero
    rw [edgesIn_zero]
    exact .counting (by omega) rfl h.idle
  | succ n ih =>
    have hsame := h.untouched n
    rw [inStep_succ]
    by_cases hlast : t.sinceEdge n + 1 = t.period
    · have hmodulo : (t.inStep n).armedModulo = t.tma := by
        rw [armedModulo, hsame.latch, Option.getD_none, hsame.tma]
      have hlong := t.four_lt_period
      obtain ⟨hedges, hsince⟩ := edgesIn_edge hlast
      rw [hedges, hsince]
      exact ih.edge hsame.level hmodulo (by omega) ((h.falls_iff n).2 hlast)
    · have hwithin := t.sinceEdge_lt n
      have hedge : (t.inStep n).falls .cycle = false := by
        apply Bool.eq_false_iff.2
        intro hfalls
        exact hlast ((h.falls_iff n).1 hfalls)
      obtain ⟨hedges, hsince⟩ := edgesIn_still (by omega : t.sinceEdge n + 1 < t.period)
      rw [hedges, hsince]
      exact ih.still hsame.level hedge

theorem Stage.before_overflow (h : Stage t e f w) (he : e < t.overflowEdge 0) :
    w.tima.toNat = t.tima.toNat + e := by
  cases h with
  | counting _ tima => exact tima
  | waiting j hj =>
    have hfirst := t.overflowEdge_zero_le j
    omega
  | recounting j hj =>
    have hfirst := t.overflowEdge_zero_le j
    omega

/-- In the four cycles from an overflow on the reload is on its way. -/
theorem Stage.at_overflow (h : Stage t (t.overflowEdge j) f w) (hf : f < 4) :
    w.tima = 0 ∧ w.reload = some ⟨t.tma, 3 - f⟩ := by
  cases h with
  | counting he =>
    have hfirst := t.overflowEdge_zero_le j
    omega
  | waiting _ _ _ tima reload => exact ⟨tima, reload⟩
  | recounting i he he' hf' =>
    have hstep := t.overflowEdge_strictMono (Nat.lt_succ_self j)
    obtain rfl := overflowEdge_unique he he' (Nat.le_refl _) hstep
    have hlanded := hf' rfl
    omega

/-- From then on TIMA counts from the modulo. -/
theorem Stage.after_overflow (h : Stage t e f w) (he : t.overflowEdge j ≤ e)
    (he' : e < t.overflowEdge (j + 1)) (hf : e = t.overflowEdge j → 4 ≤ f) :
    w.tima.toNat = t.tma.toNat + (e - t.overflowEdge j) := by
  cases h with
  | counting hbefore =>
    have hfirst := t.overflowEdge_zero_le j
    omega
  | waiting i hi hf' =>
    subst hi
    have hstep := t.overflowEdge_strictMono (Nat.lt_succ_self i)
    obtain rfl := overflowEdge_unique he he' (Nat.le_refl _) hstep
    have hlanded := hf rfl
    omega
  | recounting i hi hi' _ tima =>
    obtain rfl := overflowEdge_unique he he' hi hi'
    exact tima

/-- Where a period ends no reload is on its way. -/
theorem Stage.idle (h : Stage t e f w) (hf : 4 ≤ f) : w.reload = none := by
  cases h with
  | counting _ _ reload => exact reload
  | waiting _ _ hf' => omega
  | recounting _ _ _ _ _ reload => exact reload

/-- **TIMA is full** exactly before the edge of an overflow. -/
theorem Stage.full_iff (h : Stage t e f w) (hf : 4 ≤ f) :
    w.tima.toNat = 255 ↔ ∃ j, e + 1 = t.overflowEdge j := by
  cases h with
  | counting he tima =>
    have hfirst := t.overflowEdge_zero
    have hcounter := t.tima.toNat_lt
    constructor
    · intro hfull
      exact ⟨0, by omega⟩
    · rintro ⟨j, hj⟩
      have hle := t.overflowEdge_zero_le j
      omega
  | waiting _ _ hf' => omega
  | recounting i he he' _ tima =>
    have hnext := t.overflowEdge_succ i
    have hmodulo := t.tma.toNat_lt
    constructor
    · intro hfull
      exact ⟨i + 1, by omega⟩
    · rintro ⟨j, hj⟩
      -- an overflow after the `i`-th is no earlier than the next one
      have hij : i < j := t.overflowEdge_strictMono.lt_iff_lt.1 (by omega)
      have hle : t.overflowEdge (i + 1) ≤ t.overflowEdge j :=
        t.overflowEdge_strictMono.monotone hij
      omega

/-- **A reload lands** in the fourth cycle after an overflow. -/
theorem Stage.lands_iff (h : Stage t e f w) :
    w.landing?.isSome = true ↔ ∃ j, e = t.overflowEdge j ∧ f = 3 := by
  constructor
  · intro hlands
    cases h with
    | counting _ _ reload =>
      rw [landing?, reload] at hlands
      cases hlands
    | waiting j he hf _ reload =>
      refine ⟨j, he, ?_⟩
      by_contra hnot
      obtain ⟨d, hd⟩ : ∃ d, 3 - f = d + 1 := ⟨2 - f, by omega⟩
      rw [landing?, reload, hd] at hlands
      cases hlands
    | recounting _ _ _ _ _ reload =>
      rw [landing?, reload] at hlands
      cases hlands
  · rintro ⟨j, rfl, rfl⟩
    obtain ⟨-, hreload⟩ := h.at_overflow (by decide)
    rw [landing?, hreload]
    rfl

/-- **A timer on schedule.** The `k`-th falling edge is in cycle `edgeCycle k`. TIMA overflows with
the edges `overflowEdge j`, and the interrupt is requested four cycles after each of them and never
else, however the cycles are split into steps. TIMA reads zero until then, the modulo from then on,
and one more after each further edge. -/
structure OnSchedule (t : Timer) : Prop where
  falls : ∀ n, (t.inStep n).falls .cycle = true ↔ ∃ k, 1 ≤ k ∧ n + 1 = t.edgeCycle k
  edges : ∀ n k, fallingEdges ((t.trail (.replicate n .cycle)).map signal) = k ↔
    t.edgeCycle k ≤ n ∧ n < t.edgeCycle (k + 1)
  overflows : ∀ n, (t.inStep n).Overflows .cycle ↔ ∃ j, n + 1 = t.edgeCycle (t.overflowEdge j)
  asks : ∀ n, (t.inStep n).cycle.2 = true ↔ ∃ j, n + 1 = t.edgeCycle (t.overflowEdge j) + 4
  counts : ∀ n k, t.edgeCycle k ≤ n → n < t.edgeCycle (k + 1) → k < t.overflowEdge 0 →
    (t.inStep n).tima.toNat = t.tima.toNat + k
  zero : ∀ j i, i < 4 → (t.inStep (t.edgeCycle (t.overflowEdge j) + i)).tima = 0
  modulo : ∀ j, (t.inStep (t.edgeCycle (t.overflowEdge j) + 4)).tima = t.tma
  recounts : ∀ j n k, t.overflowEdge j ≤ k → k < t.overflowEdge (j + 1) →
    t.edgeCycle k ≤ n → n < t.edgeCycle (k + 1) → t.edgeCycle (t.overflowEdge j) + 4 ≤ n →
      (t.inStep n).tima.toNat = t.tma.toNat + (k - t.overflowEdge j)

theorem Free.overflows_iff (h : Free t) (n : Nat) :
    (t.inStep n).Overflows .cycle ↔ ∃ j, n + 1 = t.edgeCycle (t.overflowEdge j) := by
  have hlong := t.four_lt_period
  have hfull : (t.inStep n).tima = 0xFF ↔ (t.inStep n).tima.toNat = 255 := UInt8.toNat_inj.symm
  unfold Overflows
  constructor
  · rintro ⟨hfalls, hover⟩
    have hlast := (h.falls_iff n).1 hfalls
    have hlate : 4 ≤ t.sinceEdge n := by omega
    rw [(loaded_of_idle ((h.stage n).idle hlate)).1, hfull, (h.stage n).full_iff hlate] at hover
    obtain ⟨j, hj⟩ := hover
    exact ⟨j, (succ_eq_edgeCycle_iff (t.overflowEdge_pos j)).2 ⟨hj, hlast⟩⟩
  · rintro ⟨j, hn⟩
    obtain ⟨hj, hlast⟩ := (succ_eq_edgeCycle_iff (t.overflowEdge_pos j)).1 hn
    have hlate : 4 ≤ t.sinceEdge n := by omega
    rw [(loaded_of_idle ((h.stage n).idle hlate)).1, hfull, (h.stage n).full_iff hlate]
    exact ⟨(h.falls_iff n).2 hlast, j, hj⟩

theorem Free.asks_iff (h : Free t) (n : Nat) :
    (t.inStep n).cycle.2 = true ↔ ∃ j, n + 1 = t.edgeCycle (t.overflowEdge j) + 4 := by
  have hlong := t.four_lt_period
  rw [(cycle_asks _).1, (h.stage n).lands_iff]
  apply exists_congr
  intro j
  rw [← eq_edgeCycle_iff (t.overflowEdge_pos j) (by omega : 3 < t.period)]
  omega

/-- **A timer left to itself is on schedule.** -/
theorem Free.onSchedule (h : Free t) : OnSchedule t where
  falls n := by
    rw [h.falls_iff]
    constructor
    · intro hlast
      have hpos : 1 ≤ t.edgesIn n + 1 := Nat.le_add_left 1 _
      exact ⟨_, hpos, (succ_eq_edgeCycle_iff hpos).2 ⟨rfl, hlast⟩⟩
    · rintro ⟨k, hk, hn⟩
      exact ((succ_eq_edgeCycle_iff hk).1 hn).2
  edges n k := by
    rw [fallingEdges_cycles h.enabled]
    exact edgesIn_eq_iff
  overflows := h.overflows_iff
  asks := h.asks_iff
  counts n k hle hlt hk := by
    obtain rfl := edgesIn_eq_iff.2 ⟨hle, hlt⟩
    exact (h.stage n).before_overflow hk
  zero j i hi := by
    have hlong := t.four_lt_period
    have hplace := (eq_edgeCycle_iff (t.overflowEdge_pos j) (by omega : i < t.period)).1 rfl
    have hstage := h.stage (t.edgeCycle (t.overflowEdge j) + i)
    rw [hplace.1, hplace.2] at hstage
    exact (hstage.at_overflow hi).1
  modulo j := by
    -- the reload comes four cycles into the stage of its overflow, before anything is counted
    have hplace := (eq_edgeCycle_iff (t.overflowEdge_pos j) t.four_lt_period).1 rfl
    have hstage := h.stage (t.edgeCycle (t.overflowEdge j) + 4)
    rw [hplace.1, hplace.2] at hstage
    have hstep := t.overflowEdge_strictMono (Nat.lt_succ_self j)
    have htima := hstage.after_overflow (Nat.le_refl _) hstep fun _ => Nat.le_refl 4
    rw [Nat.sub_self] at htima
    exact UInt8.toNat_inj.1 htima
  recounts j n k hj hj' hle hlt hlanded := by
    obtain rfl := edgesIn_eq_iff.2 ⟨hle, hlt⟩
    apply (h.stage n).after_overflow hj hj'
    intro heq
    have hplace := (eq_edgeCycle_iff (t.overflowEdge_pos j) (t.sinceEdge_lt n)).2 ⟨heq, rfl⟩
    omega

/-- The interrupt is requested by the steps in which its cycles fall. -/
theorem OnSchedule.step_asks (h : OnSchedule t) (m n : Nat) :
    ((t.inStep m).step n).2 = true ↔
      ∃ j, m < t.edgeCycle (t.overflowEdge j) + 4 ∧ t.edgeCycle (t.overflowEdge j) + 4 ≤ m + n := by
  have hshift (i : Nat) : (t.inStep m).inStep i = t.inStep (m + i) := (step_add t m i).symm
  rw [Timer.step_asks, List.any_eq_true]
  simp only [List.mem_range, hshift, h.asks]
  constructor
  · rintro ⟨i, hi, j, hj⟩
    exact ⟨j, by omega, by omega⟩
  · rintro ⟨j, hlt, hle⟩
    exact ⟨t.edgeCycle (t.overflowEdge j) + 4 - 1 - m, by omega, j, by omega⟩

/-- Steps of any size add up. -/
theorem foldl_steps (t : Timer) (chunks : List Nat) :
    (chunks.map Call.step).foldl perform t = t.inStep chunks.sum := by
  induction chunks generalizing t with
  | nil => rfl
  | cons n rest ih =>
    rw [List.map_cons, List.foldl_cons, ih, List.sum_cons]
    exact (step_add t n rest.sum).symm

/-- **A timer that has just been running can be left to itself**, if it is enabled and no reload is
pending. -/
theorem free_after_step (h : Reachable t) (hn : 0 < n) (henabled : (t.step n).1.tac &&& 4 ≠ 0)
    (hidle : (t.step n).1.reloadArmed = false) : Free (t.step n).1 := by
  obtain ⟨m, rfl⟩ : ∃ m, n = m + 1 := ⟨n - 1, by omega⟩
  have hlast : (t.step (m + 1)).1 = (t.inStep m).cycle.1 := inStep_succ t m
  refine ⟨?_, ?_, reachable_level (h.perform (.step (m + 1))), ?_⟩
  · rw [← (selectedBit_eq _).2.2]
    exact bne_iff_ne.2 henabled
  · exact Option.not_isSome_iff_eq_none.1 (Bool.eq_false_iff.1 hidle)
  · rw [hlast]
    exact (cycle_latch _).1

/-- **The period of the timer does not drift.** A timer that has just been running, that is enabled
and has no reload pending, is on schedule for as long as nothing is written: in steps of any size it
comes to where single cycles lead, and a step requests the interrupt if and only if the fourth cycle
after an overflow is one of its own. -/
theorem period_without_drift (h : Reachable t) (hn : 0 < n) (henabled : (t.step n).1.tac &&& 4 ≠ 0)
    (hidle : (t.step n).1.reloadArmed = false) :
    OnSchedule (t.step n).1 ∧
      ∀ (chunks : List Nat) (m : Nat),
        (chunks.map Call.step).foldl perform (t.step n).1 = (t.step n).1.inStep chunks.sum ∧
        ((((t.step n).1.inStep chunks.sum).step m).2 = true ↔
          ∃ j, chunks.sum < (t.step n).1.edgeCycle ((t.step n).1.overflowEdge j) + 4 ∧
            (t.step n).1.edgeCycle ((t.step n).1.overflowEdge j) + 4 ≤ chunks.sum + m) := by
  have hschedule := (free_after_step h hn henabled hidle).onSchedule
  refine ⟨hschedule, ?_⟩
  intro chunks m
  exact ⟨foldl_steps _ chunks, hschedule.step_asks chunks.sum m⟩

/-- A timer on the fastest clock that overflows with every edge. -/
def brimming : Timer :=
  ((({} : Timer).perform (.write 0xFF05 0xFF)).perform (.write 0xFF06 0xFF)).perform
    (.write 0xFF07 5)

/-- **A reload of `FF` overflows again with the next edge**: the requests are a period apart. -/
theorem period_of_sixteen :
    Reachable brimming ∧
      ((brimming.step 1).1.inStep 18).cycle.2 = true ∧
      ((brimming.step 1).1.inStep 34).cycle.2 = true := by
  have hreach : Reachable brimming := .perform (.perform (.perform .powerOn _) _) _
  obtain ⟨hschedule, -⟩ :=
    period_without_drift hreach (by decide : 0 < 1) (by decide +kernel) (by decide +kernel)
  exact ⟨hreach, (hschedule.asks 18).2 ⟨0, by decide +kernel⟩,
    (hschedule.asks 34).2 ⟨1, by decide +kernel⟩⟩

end Handheld.Timer
