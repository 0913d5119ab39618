import Handheld.Proofs.Timer.Reloads

/-!
# The window of a reload

What becomes of an overflow is decided by the next two accesses, if cycles come in groups of four
with one access before each. The first access finds the reload pending. It cancels the reload with a
write to TIMA, brings it one cycle closer by clearing the divider, or leaves it alone. The second
finds it landed, and is still in the cycle of the landing only if nothing has brought it closer.

* `Access`, `mCycle`: a group of cycles with the access before it; `InGroups`: the timers in
  between.
* `Overflows`: TIMA goes up from `FF`; `overflow_pends`: what the group leaves in which it does.
* `LandsIn`, `Cancelled`: what the next group brings; `lands_in`, `cancelled`.
* `SeesLanding`, `MissesLanding`: what the access after it meets.
* `reload_window` (every timer between groups): the outcome, for every access.
-/

namespace Handheld.Timer

variable {t w : Timer}

/-- What is done to a timer before a group of cycles. -/
inductive Access where
  | nothing
  | clearDivider
  | divider (v : UInt8)
  | counter (v : UInt8)
  | modulo (v : UInt8)
  | control (v : UInt8)

def access (t : Timer) : Access → Timer × Bool
  | .nothing => (t, false)
  | .clearDivider => t.clearDivider
  | .divider v => t.write 0xFF04 v
  | .counter v => t.write 0xFF05 v
  | .modulo v => t.write 0xFF06 v
  | .control v => t.write 0xFF07 v

/-- The timer after an access and four cycles. -/
def mCycle (t : Timer) (a : Access) : Timer := ((t.access a).1.step 4).1

/-- **The timers between groups**, from power-on or from the end of the boot image. -/
inductive InGroups : Timer → Prop where
  | powerOn : InGroups {}
  | afterBoot : InGroups afterBoot
  | mCycle {t : Timer} (h : InGroups t) (a : Access) : InGroups (t.mCycle a)

/-- The timer after the first cycles of a step. -/
def inStep (t : Timer) (n : Nat) : Timer := (t.step n).1

theorem inStep_eq (t : Timer) (n : Nat) :
    t.inStep n = (List.replicate n Moment.cycle).foldl after t :=
  run_eq n t false

theorem inStep_succ (t : Timer) (n : Nat) : t.inStep (n + 1) = (t.inStep n).cycle.1 := by
  rw [inStep_eq, inStep_eq, List.replicate_succ', List.foldl_append]
  rfl

theorem access_group (h : Calm t) (a : Access) : Poised (t.access a).1 := by
  cases a with
  | nothing => exact h.poised
  | clearDivider => exact (access_poised h (m := .clearDivider) nofun).2
  | divider v | counter v | modulo v | control v =>
    exact (access_poised h (m := .write _ v) nofun).2

theorem mCycle_calm (h : Calm t) (a : Access) : Calm (t.mCycle a) := by
  show Calm ((t.access a).1.inStep 4)
  rw [inStep_eq]
  exact (group_calm (access_group h a)).2

theorem InGroups.calm (h : InGroups t) : Calm t := by
  induction h with
  | powerOn => exact powerOn_calm
  | afterBoot => exact afterBoot_calm
  | mCycle _ a ih => exact mCycle_calm ih a

/-- The cycle requests the interrupt if the reload lands, and remembers that it did. -/
theorem cycle_asks (t : Timer) :
    t.cycle.2 = t.landing?.isSome ∧ t.cycle.1.reloading = t.landing?.isSome := by
  constructor
  · obtain ⟨divider, tima, tma, tac, level, tmaBefore, reload, reloading⟩ := t
    rcases reload with _ | ⟨v, _ | d⟩ <;> rfl
  · rw [cycle_eq, count_eq, moved, advanceReload_eq]
    split <;> rfl

/-- The step requests the interrupt if one of its cycles does. -/
theorem step_asks (t : Timer) (n : Nat) :
    (t.step n).2 = (List.range n).any fun j => (t.inStep j).cycle.2 := by
  have hrun (asked : Bool) :
      (run n t asked).2 = (asked || (List.range n).any fun j => (t.inStep j).cycle.2) := by
    induction n generalizing t asked with
    | zero => exact (Bool.or_false asked).symm
    | succ n ih =>
      have hlater (j : Nat) : t.cycle.1.inStep j = t.inStep (j + 1) := by
        rw [inStep_eq, inStep_eq, List.replicate_succ]
        rfl
      rw [run, ih, List.range_succ_eq_map, List.any_cons, List.any_map, Bool.or_assoc]
      simp only [hlater]
      rfl
  exact hrun false

/-- **A step that has not come to an edge**: `w` is `t` after `n` cycles, fewer than sixteen, that
began at a multiple of sixteen. -/
structure Smooth (t : Timer) (n : Nat) (w : Timer) : Prop where
  steady : Steady w
  divider : w.divider.toNat % 16 = n
  tma : w.tma = t.tma

theorem inStep_smooth (h : Steady t) (hd : t.divider.toNat % 16 = 0) {n : Nat} (hn : n < 16) :
    Smooth t n (t.inStep n) := by
  induction n with
  | zero => exact ⟨h, hd, rfl⟩
  | succ n ih =>
    have hbefore := ih (by omega)
    have hnext := cycle_next (t.inStep n)
    have hdivider := hbefore.divider
    rw [inStep_succ]
    exact ⟨cycle_steady hbefore.steady, by omega, (cycle_latch _).2.trans hbefore.tma⟩

/-- **A cycle without an edge** does to TIMA and the reload what advancing the reload does. -/
theorem cycle_still (h : w.level = w.signal) (hedge : w.falls .cycle = false) :
    w.cycle.1.tima = w.landing?.getD w.tima ∧ w.cycle.1.reload = w.waiting? := by
  have hcounted := counted h .cycle
  constructor
  · have htima := hcounted.tima
    rw [hedge] at htima
    exact htima
  · apply hcounted.armed
    rintro ⟨hfalls, -⟩
    rw [hedge] at hfalls
    cases hfalls

theorem Smooth.next {n : Nat} (h : Smooth t n w) (hn : n < 15) :
    w.cycle.1.tima = w.landing?.getD w.tima ∧ w.cycle.1.reload = w.waiting? := by
  apply cycle_still h.steady.level
  apply Bool.eq_false_iff.2
  intro hfalls
  have hlate := cycle_falls hfalls
  have hdivider := h.divider
  omega

/-- A moment at which TIMA goes up from `FF`. -/
def Overflows (t : Timer) (m : Moment) : Prop := t.falls m = true ∧ t.loaded m = 0xFF

/-- TIMA does not overflow along the way. -/
def NoOverflow (t : Timer) : List Moment → Prop
  | [] => True
  | m :: rest => ¬ t.Overflows m ∧ (t.after m).NoOverflow rest

/-- True if the interrupt is requested at this moment. -/
def asks (t : Timer) : Moment → Bool
  | .cycle => t.cycle.2
  | .write addr v => (t.write addr v).2
  | .clearDivider => t.clearDivider.2

/-- True if the interrupt is requested along the way. -/
def asksAlong (t : Timer) : List Moment → Bool
  | [] => false
  | m :: rest => t.asks m || (t.after m).asksAlong rest

/-- **A reload lands in one cycle of a step**, and in no other: that cycle requests the interrupt,
and the step ends with the modulo in TIMA. -/
structure LandsIn (t : Timer) (n : Nat) : Prop where
  cycles : ∀ j < 4, (t.inStep j).cycle.2 = decide (j = n)
  requested : (t.step 4).2 = true
  modulo : (t.step 4).1.tima = (t.step 4).1.tma

/-- **A reload that no longer comes**: TIMA keeps what was written to it, and there is no request
until TIMA overflows once more. -/
structure Cancelled (t : Timer) (v : UInt8) : Prop where
  requested : (t.step 4).2 = false
  counter : (t.step 4).1.tima = v
  later : ∀ moments, t.NoOverflow moments → t.asksAlong moments = false

/-- An access in the cycle of the landing: a write to TIMA is lost, one to the modulo reaches TIMA.
-/
structure SeesLanding (t : Timer) : Prop where
  counter : ∀ v, t.access (.counter v) = (t, false)
  modulo : ∀ v, (t.access (.modulo v)).1.tima = v

/-- An access after the cycle of the landing: both registers are written, each for itself. -/
structure MissesLanding (t : Timer) : Prop where
  counter : ∀ v, (t.access (.counter v)).1.tima = v
  modulo : ∀ v, (t.access (.modulo v)).1.tima = t.tima

/-- A reload comes closer with every cycle. -/
theorem inStep_waiting (h : Steady t) (hd : t.divider.toNat % 16 = 0) {v : UInt8} {d n : Nat}
    (hr : t.reload = some ⟨v, d⟩) (hdelay : d ≤ 3) (hn : n ≤ d) :
    (t.inStep n).reload = some ⟨v, d - n⟩ := by
  induction n with
  | zero => exact hr
  | succ n ih =>
    have hnext := ((inStep_smooth h hd (by omega)).next (by omega : n < 15)).2
    rw [inStep_succ, hnext, waiting_eq_some, ih (by omega)]
    simp only [Option.some.injEq, Reload.mk.injEq, true_and]
    omega

/-- Without a reload TIMA stays as it is. -/
theorem inStep_idle (h : Steady t) (hd : t.divider.toNat % 16 = 0) {i n : Nat}
    (hr : (t.inStep i).reload = none) (hi : i ≤ n) (hn : n ≤ 4) :
    (t.inStep n).reload = none ∧ (t.inStep n).tima = (t.inStep i).tima := by
  induction hi with
  | refl => exact ⟨hr, rfl⟩
  | @step n _ ih =>
    obtain ⟨hnone, hsame⟩ := ih (by omega)
    obtain ⟨htima, hreload⟩ := (inStep_smooth h hd (by omega)).next (by omega : n < 15)
    rw [inStep_succ, htima, hreload, landing?, waiting?, hnone]
    exact ⟨rfl, hsame⟩

/-- **A reload lands when its cycles are over.** -/
theorem lands_in (h : Steady t) (hd : t.divider.toNat % 16 = 0) {d : Nat}
    (hr : t.reload = some ⟨t.tma, d⟩) (hdelay : d ≤ 3) :
    LandsIn t d ∧ (t.step 4).1.reload = none ∧ (t.step 4).1.reloading = decide (d = 3) := by
  have hwaits {n : Nat} (hn : n ≤ d) : (t.inStep n).reload = some ⟨t.tma, d - n⟩ :=
    inStep_waiting h hd hr hdelay hn
  -- the cycle that lands it
  have hland : (t.inStep (d + 1)).tima = t.tma ∧ (t.inStep (d + 1)).reload = none := by
    obtain ⟨htima, hreload⟩ := (inStep_smooth h hd (by omega)).next (by omega : d < 15)
    rw [inStep_succ, htima, hreload, landing?, waiting?, hwaits (Nat.le_refl d), Nat.sub_self]
    exact ⟨rfl, rfl⟩
  have hafter {n : Nat} (hn : d + 1 ≤ n) (hn' : n ≤ 4) := inStep_idle h hd hland.2 hn hn'
  have hcycles : ∀ j < 4, (t.inStep j).landing?.isSome = decide (j = d) := by
    intro j hj
    rcases Nat.lt_trichotomy j d with hlt | rfl | hgt
    · obtain ⟨k, hk⟩ : ∃ k, d - j = k + 1 := ⟨d - j - 1, by omega⟩
      rw [landing?, hwaits (by omega), hk, decide_eq_false (by omega)]
      rfl
    · rw [landing?, hwaits (Nat.le_refl j), Nat.sub_self, decide_eq_true rfl]
      rfl
    · rw [landing?, (hafter hgt (by omega)).1, decide_eq_false (by omega)]
      rfl
  have hasks : ∀ j < 4, (t.inStep j).cycle.2 = decide (j = d) := by
    intro j hj
    rw [(cycle_asks _).1, hcycles j hj]
  obtain ⟨hnone, htima⟩ := hafter (by omega : d + 1 ≤ 4) (Nat.le_refl 4)
  refine ⟨⟨hasks, ?_, ?_⟩, hnone, ?_⟩
  · rw [step_asks, List.any_eq_true]
    refine ⟨d, List.mem_range.2 (by omega), ?_⟩
    rw [hasks d (by omega), decide_eq_true rfl]
  · show (t.inStep 4).tima = (t.inStep 4).tma
    rw [htima, hland.1, (inStep_smooth h hd (by omega : 4 < 16)).tma]
  · show (t.inStep 4).reloading = _
    rw [inStep_succ, (cycle_asks _).2, hcycles 3 (by omega)]
    exact decide_eq_decide.2 eq_comm

/-- Only an overflow arms a reload, and only a reload requests the interrupt. -/
theorem idle_moment (h : t.level = t.signal) (hr : t.reload = none) (m : Moment) :
    t.asks m = false ∧ (¬ t.Overflows m → (t.after m).reload = none) := by
  have hclear : t.clearDivider.2 = false := by
    unfold clearDivider advanceReload
    rw [hr]
  have harmed : t.armed m = none := by
    unfold armed waiting?
    rw [hr]
    cases m with
    | cycle | clearDivider => rfl
    | write addr v =>
      simp only [Option.map_none, ite_self]
      split
      · rfl
      · split <;> rfl
  refine ⟨?_, fun hno => ((counted h m).armed hno).trans harmed⟩
  cases m with
  | cycle =>
    show t.cycle.2 = false
    rw [(cycle_asks t).1, landing?, hr]
    rfl
  | write addr v =>
    show (t.write addr v).2 = false
    unfold write
    split
    · exact hclear
    all_goals rfl
  | clearDivider => exact hclear

theorem asksAlong_of_noOverflow (h : t.level = t.signal) (hr : t.reload = none)
    {moments : List Moment} (hno : t.NoOverflow moments) : t.asksAlong moments = false := by
  induction moments generalizing t with
  | nil => rfl
  | cons m rest ih =>
    obtain ⟨hquiet, hkeeps⟩ := idle_moment h hr m
    rw [asksAlong, hquiet, Bool.false_or]
    exact ih (after_level h m) (hkeeps hno.1) hno.2

/-- **Without a reload nothing lands.** -/
theorem cancelled (h : Steady t) (hd : t.divider.toNat % 16 = 0) (hr : t.reload = none) :
    Cancelled t t.tima := by
  have hidle {n : Nat} (hn : n ≤ 4) := inStep_idle h hd (i := 0) hr (Nat.zero_le n) hn
  refine ⟨?_, (hidle (Nat.le_refl 4)).2, fun _ => asksAlong_of_noOverflow h.level hr⟩
  rw [step_asks, List.any_eq_false]
  intro j hj
  have hj := List.mem_range.1 hj
  rw [(cycle_asks _).1, landing?, (hidle (by omega)).1]
  decide

/-! ## The overflow -/

/-- **What a group leaves in which TIMA overflows**: the overflow came in its last cycle, and the
reload has all its cycles before it. -/
structure Pends (t : Timer) : Prop where
  calm : Calm t
  low : t.signal = false
  divider : t.divider.toNat % 16 = 0
  reload : t.reload = some ⟨t.tma, 3⟩
  reloading : t.reloading = false

theorem overflow_pends (h : Poised t) {n : Nat} (hn : n < 4)
    (hover : (t.inStep n).Overflows .cycle) : n = 3 ∧ Pends (t.step 4).1 := by
  obtain ⟨hfalls, hfull⟩ := hover
  have hlate := cycle_falls hfalls
  have hsteady : ∀ n, Steady (t.inStep n) ∧ (t.inStep n).divider.toNat % 4 = n % 4 := by
    intro n
    induction n with
    | zero => exact ⟨h.steady, h.divider⟩
    | succ n ih =>
      have hnext := cycle_next (t.inStep n)
      rw [inStep_succ]
      exact ⟨cycle_steady ih.1, by omega⟩
  have hgroup := (hsteady n).2
  obtain rfl : n = 3 := by omega
  refine ⟨rfl, ?_⟩
  have hlast : (t.step 4).1 = (t.inStep 3).cycle.1 := inStep_succ t 3
  rw [hlast]
  have hbefore := (hsteady 3).1
  have hnext := cycle_next (t.inStep 3)
  -- a reload that was pending would have kept the signal from falling
  have hnone : (t.inStep 3).reload = none := by
    cases hr : (t.inStep 3).reload with
    | none => rfl
    | some r =>
      have hedge := hbefore.no_edge hr
      rw [hfalls] at hedge
      cases hedge
  refine ⟨cycle_calm hbefore (by omega), cycle_low hfalls, by omega, ?_, ?_⟩
  · have harmed := ((counted hbefore.level .cycle).overflow hfalls hfull).2
    rw [hbefore.armedModulo (by omega)] at harmed
    rw [(cycle_latch _).2]
    exact harmed
  · rw [(cycle_asks _).2, landing?, hnone]
    rfl

/-- Accesses that leave the reload alone: it lands in the last cycle of their group. -/
theorem Pends.lands (h : Pends t) {a : Access} (hasked : (t.access a).2 = false)
    (hdivider : (t.access a).1.divider = t.divider)
    (hreload : (t.access a).1.reload = some ⟨(t.access a).1.tma, 3⟩) :
    (t.access a).2 = false ∧ LandsIn (t.access a).1 3 ∧ SeesLanding (t.mCycle a) := by
  obtain ⟨hlands, -, hreloading⟩ := lands_in (access_group h.calm a).steady
    (by rw [hdivider, h.divider]) hreload (Nat.le_refl 3)
  refine ⟨hasked, hlands, ?_⟩
  have hreloading : (t.mCycle a).reloading = true := hreloading
  constructor
  · intro v
    have hlocked : (t.mCycle a).counterLocked = true := by
      rw [counterLocked, hreloading, Bool.true_or]
    show ((t.mCycle a).writeCounter v, false) = _
    rw [writeCounter, if_pos hlocked]
  · intro v
    show ((t.mCycle a).writeModulo v).tima = v
    rw [writeModulo, hreloading]
    rfl

/-- **Clearing the divider** brings the reload one cycle closer. -/
theorem Pends.lands_early (h : Pends t) {a : Access} (ha : t.access a = t.clearDivider) :
    (t.access a).2 = false ∧ LandsIn (t.access a).1 2 ∧ MissesLanding (t.mCycle a) := by
  have hasked : t.clearDivider.2 = false := by
    unfold clearDivider advanceReload
    rw [h.reload]
  have hzero := (clearDivider_low t).1
  have hreload : t.clearDivider.1.reload = some ⟨t.clearDivider.1.tma, 2⟩ := by
    rw [(clearDivider_latch t).1, clearDivider_eq, settle_eq, h.low, Bool.false_and,
      if_neg Bool.false_ne_true, advanceReload_eq, waiting?, h.reload]
  have hsteady := (access_group h.calm a).steady
  rw [ha] at hsteady
  obtain ⟨hlands, hnone, hreloading⟩ := lands_in hsteady (by rw [hzero]; rfl) hreload (by decide)
  have hlater : t.mCycle a = (t.clearDivider.1.step 4).1 := by rw [mCycle, ha]
  rw [ha, hlater]
  refine ⟨hasked, hlands, ?_, ?_⟩
  · intro v
    have hfree : (t.clearDivider.1.step 4).1.counterLocked = false := by
      rw [counterLocked, hreloading, hnone]
      rfl
    show ((t.clearDivider.1.step 4).1.writeCounter v).tima = v
    rw [writeCounter, hfree]
    rfl
  · intro v
    show ((t.clearDivider.1.step 4).1.writeModulo v).tima = _
    rw [writeModulo, hreloading]
    rfl

/-- **A write to TIMA** cancels the reload. -/
theorem Pends.cancelled (h : Pends t) (v : UInt8) :
    (t.access (.counter v)).2 = false ∧ Cancelled (t.access (.counter v)).1 v := by
  have hfree : t.counterLocked = false := by
    rw [counterLocked, h.reloading, h.reload]
    rfl
  have hwritten : (t.access (.counter v)).1 = { t with tima := v, reload := none } := by
    show t.writeCounter v = _
    rw [writeCounter, hfree]
    rfl
  have hsteady := (access_group h.calm (.counter v)).steady
  rw [hwritten] at hsteady ⊢
  exact ⟨rfl, Timer.cancelled hsteady h.divider rfl⟩

/-- **What follows on an overflow** in cycle `n` of a group: `t` is the timer after the group. A
write to TIMA cancels the reload. Any other access lets it land four cycles after the overflow, and
the next access meets the landing; but what clears the divider brings it forward, so that the next
access comes too late. -/
def Outcome (t : Timer) (n : Nat) (a : Access) : Prop :=
  (t.access a).2 = false ∧
    match a with
    | .counter v => Cancelled (t.access a).1 v
    | .clearDivider | .divider _ =>
      (∃ k, k + 1 = n ∧ LandsIn (t.access a).1 k) ∧ MissesLanding (t.mCycle a)
    | .nothing | .modulo _ | .control _ => LandsIn (t.access a).1 n ∧ SeesLanding (t.mCycle a)

/-- **The window of a reload**: after an overflow within a group the next two accesses decide. -/
theorem reload_window (h : InGroups t) (a : Access) {n : Nat} (hn : n < 4)
    (hover : ((t.access a).1.inStep n).Overflows .cycle) (next : Access) :
    (t.mCycle a).Outcome n next := by
  obtain ⟨rfl, hpends⟩ := overflow_pends (access_group h.calm a) hn hover
  have hpends : Pends (t.mCycle a) := hpends
  have hearly {b : Access} (hb : (t.mCycle a).access b = (t.mCycle a).clearDivider) :
      ((t.mCycle a).access b).2 = false ∧ (∃ k, k + 1 = 3 ∧ LandsIn ((t.mCycle a).access b).1 k) ∧
        MissesLanding ((t.mCycle a).mCycle b) := by
    obtain ⟨hasked, hlands, hmisses⟩ := hpends.lands_early hb
    exact ⟨hasked, ⟨2, rfl, hlands⟩, hmisses⟩
  cases next with
  | counter v => exact hpends.cancelled v
  | clearDivider | divider v => exact hearly rfl
  | nothing => exact hpends.lands rfl rfl hpends.reload
  | modulo v =>
    refine hpends.lands rfl rfl ?_
    show (t.mCycle a).reload.map (fun r => { r with value := v }) = some ⟨v, 3⟩
    rw [hpends.reload]
    rfl
  | control v =>
    refine hpends.lands rfl (settle_divider _ _) ?_
    show ((t.mCycle a).writeControl v).reload = some ⟨((t.mCycle a).writeControl v).tma, 3⟩
    -- the signal is low, so the change of the selection is no edge
    rw [writeControl, settle_eq, hpends.low]
    exact hpends.reload

/-- A timer on the fastest clock, one group before TIMA overflows. -/
def full : Timer :=
  ((({} : Timer).mCycle (.counter 0xFF)).mCycle (.modulo 0xAB)).mCycle (.control 5)

theorem full_inGroups : InGroups full :=
  .mCycle (.mCycle (.mCycle .powerOn _) _) _

theorem full_overflows : ((full.access .nothing).1.inStep 3).Overflows .cycle := by
  unfold Overflows
  decide +kernel

/-- A new modulo while the reload is pending is the one that it brings, and a write to TIMA after it
is lost. -/
theorem reload_window_modulo :
    ((full.mCycle .nothing).mCycle (.modulo 0x66)).tima = 0x66 ∧
      ((full.mCycle .nothing).mCycle (.modulo 0x66)).access (.counter 0x42) =
        ((full.mCycle .nothing).mCycle (.modulo 0x66), false) := by
  obtain ⟨-, hlands, hsees⟩ :=
    reload_window full_inGroups .nothing (by decide : 3 < 4) full_overflows (.modulo 0x66)
  exact ⟨hlands.modulo.trans (by decide +kernel), hsees.counter 0x42⟩

/-- **A divider cleared while the reload is pending moves the window**: the next write to TIMA
counts. -/
theorem divider_moves_window :
    ¬ ∀ (t : Timer) (a next : Access) (n : Nat), InGroups t → n < 4 →
      ((t.access a).1.inStep n).Overflows .cycle → (∀ v, next ≠ .counter v) →
        ((t.mCycle a).access next).2 = false ∧ LandsIn ((t.mCycle a).access next).1 n ∧
          SeesLanding ((t.mCycle a).mCycle next) := by
  intro hclaim
  obtain ⟨-, -, hsees⟩ :=
    hclaim full .nothing (.divider 0) 3 full_inGroups (by decide) full_overflows nofun
  have hlost := congrArg (fun r => r.1.tima) (hsees.counter 0x42)
  revert hlost
  decide +kernel

end Handheld.Timer
