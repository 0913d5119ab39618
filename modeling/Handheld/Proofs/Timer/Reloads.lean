import Handheld.Proofs.Timer.Edges

/-!
# Reloads in groups of four cycles

An overflow in the first cycle after a write to the modulo arms the modulo from before the write. If
cycles come in fours, the first at a multiple of four, and a write comes only before such a group, this
never happens: the signal falls in the last cycle of a group, and a reload lands within one.

* `signalOf_next`, `falls_at_sixteen`: where the signal can change, and where it can fall.
* `Steady`: what holds after every cycle; `Poised`, `Calm`: before a group and after one.
* `group_calm`: a group leads from the one to the other, and its reloads bring the modulo.
* `access_poised`, `clear_calm`: an access between two groups, and clearing the divider.
* `step_unlatched`: the modulo from before a write plays no part in a group.
-/

namespace Handheld.Timer

variable {t : Timer} {r : Reload} {l l' : List Moment}

/-- A selected bit changes every 8, 32, 128 or 512 cycles. -/
theorem signalOf_half (tac : UInt8) :
    ∃ half, (half = 8 ∨ half = 32 ∨ half = 128 ∨ half = 512) ∧ ∀ divider,
      signalOf divider tac = (tac.toNat.testBit 2 && decide (divider.toNat / half % 2 = 1)) := by
  have hbits : selectedBits[tac.toNat % 4] = 3 ∨ selectedBits[tac.toNat % 4] = 5 ∨
      selectedBits[tac.toNat % 4] = 7 ∨ selectedBits[tac.toNat % 4] = 9 := by
    revert tac
    exact forall_byte (by decide +kernel)
  refine ⟨2 ^ selectedBits[tac.toNat % 4], ?_, fun divider => ?_⟩
  · rcases hbits with h | h | h | h <;> rw [h] <;> decide
  · rw [signalOf_eq, Nat.testBit_eq_decide_div_mod_eq (x := divider.toNat)]

theorem signalOf_next {d : UInt16} (h : d.toNat % 8 ≠ 7) (tac : UInt8) :
    signalOf (d + 1) tac = signalOf d tac := by
  obtain ⟨half, hhalf, hsignal⟩ := signalOf_half tac
  have hd : (d + 1).toNat = (d.toNat + 1) % 65536 := UInt16.toNat_add ..
  have hlt := d.toNat_lt
  rw [hsignal, hsignal, hd]
  congr 1
  rw [decide_eq_decide]
  rcases hhalf with rfl | rfl | rfl | rfl <;> omega

/-- **The signal falls at multiples of sixteen only.** -/
theorem falls_at_sixteen {d : UInt16} {tac : UInt8} (hhigh : signalOf d tac = true)
    (hlow : signalOf (d + 1) tac = false) : d.toNat % 16 = 15 := by
  obtain ⟨half, hhalf, hsignal⟩ := signalOf_half tac
  have hd : (d + 1).toNat = (d.toNat + 1) % 65536 := UInt16.toNat_add ..
  have hlt := d.toNat_lt
  rw [hsignal, Bool.and_eq_true_iff, decide_eq_true_iff] at hhigh
  rw [hsignal, hhigh.1, Bool.true_and, decide_eq_false_iff_not, hd] at hlow
  rcases hhalf with rfl | rfl | rfl | rfl <;> omega

/-- A pending reload will bring the modulo. -/
def BringsModulo (t : Timer) : Prop := ∀ r, t.reload = some r → r.value = t.tma

/-- **Along the way every reload brings the modulo of its moment**: so would the one that is pending,
and one that lands leaves the modulo in TIMA. -/
def Latest (t : Timer) : List Moment → Prop
  | [] => t.BringsModulo
  | m :: rest => t.BringsModulo ∧
      (m.advances = true → t.landing?.isSome = true → (t.after m).tima = (t.after m).tma) ∧
      (t.after m).Latest rest

theorem Latest.append (h : t.Latest l) (h' : (l.foldl after t).Latest l') : t.Latest (l ++ l') := by
  induction l generalizing t with
  | nil => exact h'
  | cons m l ih =>
    obtain ⟨hmodulo, hlands, hrest⟩ := h
    exact ⟨hmodulo, hlands, ih hrest h'⟩

/-- A moment at which nothing can land. -/
theorem Latest.one {m : Moment} (hm : m.advances = false) (h : t.BringsModulo)
    (hafter : (t.after m).BringsModulo) : t.Latest [m] :=
  ⟨h, fun hadvances => absurd (hm.symm.trans hadvances) (by decide), hafter⟩

/-- **A timer in order between two groups.** -/
structure Tuned (t : Timer) : Prop where
  divider : t.divider.toNat % 4 = 0
  modulo : t.BringsModulo

/-- **A reload that lands within the group of four cycles**, with the modulo, before the signal can
fall. -/
structure OnTime (t : Timer) (r : Reload) : Prop where
  value : r.value = t.tma
  delay : r.delay + t.divider.toNat % 4 ≤ 3
  still : t.signal = false ∨ t.divider.toNat % 16 ≤ 3

/-- **A timer after any cycle of a group.** -/
structure Steady (t : Timer) : Prop where
  level : t.level = t.signal
  /-- The modulo from before a write is remembered for the first cycle only. -/
  latch : t.tmaBefore.isSome = true → t.divider.toNat % 4 = 0
  reload : ∀ r, t.reload = some r → OnTime t r

/-- **A timer before a group of cycles.** -/
structure Poised (t : Timer) : Prop where
  steady : Steady t
  divider : t.divider.toNat % 4 = 0

/-- **A timer after a group of cycles.** A reload is pending only if the signal has just fallen. -/
structure Calm (t : Timer) : Prop where
  level : t.level = t.signal
  latch : t.tmaBefore = none
  divider : t.divider.toNat % 4 = 0
  reload : ∀ r, t.reload = some r →
    OnTime t r ∧ t.signal = false ∧ t.divider.toNat % 16 = 0

theorem powerOn_calm : Calm {} := ⟨by decide, rfl, by decide, nofun⟩

theorem afterBoot_calm : Calm afterBoot := ⟨by decide, rfl, by decide, nofun⟩

theorem Steady.bringsModulo (h : Steady t) : t.BringsModulo := fun r hr => (h.reload r hr).value

theorem Poised.tuned (h : Poised t) : Tuned t := ⟨h.divider, h.steady.bringsModulo⟩

theorem Calm.poised (h : Calm t) : Poised t where
  divider := h.divider
  steady.level := h.level
  steady.latch _ := h.divider
  steady.reload r hr := (h.reload r hr).1

theorem Calm.bringsModulo (h : Calm t) : t.BringsModulo := h.poised.steady.bringsModulo

theorem landing_eq_some {v : UInt8} : t.landing? = some v ↔ t.reload = some ⟨v, 0⟩ := by
  unfold landing?
  split
  · rename_i h
    simp [h]
  · rename_i h
    exact ⟨nofun, fun hr => absurd hr (h v)⟩

theorem waiting_eq_some : t.waiting? = some r ↔ t.reload = some ⟨r.value, r.delay + 1⟩ := by
  unfold waiting?
  split
  · rename_i h
    obtain ⟨v, d⟩ := r
    simp [h]
  · rename_i h
    exact ⟨nofun, fun hr => absurd hr (h _ _)⟩

/-- A reload that is pending after a moment was pending before it, or a falling edge armed it. -/
theorem after_reload (h : t.level = t.signal) {m : Moment} (hr : (t.after m).reload = some r) :
    t.armed m = some r ∨ t.falls m = true ∧ r = ⟨t.armedModulo, 3⟩ := by
  have hcounted := counted h m
  by_cases hover : t.falls m = true ∧ t.loaded m = 0xFF
  · rw [(hcounted.overflow hover.1 hover.2).2] at hr
    exact .inr ⟨hover.1, (Option.some.inj hr).symm⟩
  · exact .inl ((hcounted.armed hover).symm.trans hr)

/-- A reload that lands without an edge leaves the modulo in TIMA. -/
theorem after_lands (h : Steady t) {m : Moment} (hm : m.advances = true)
    (hland : t.landing?.isSome = true) (hedge : t.falls m = false)
    (htma : (t.after m).tma = t.tma) : (t.after m).tima = (t.after m).tma := by
  obtain ⟨v, hv⟩ := Option.isSome_iff_exists.1 hland
  have hloaded : t.loaded m = v := by
    unfold loaded
    rw [if_pos hm, hv, Option.getD_some]
  rw [(counted h.level m).tima, hedge, htma, hloaded]
  exact (h.reload _ (landing_eq_some.1 hv)).value

theorem falls_low {m : Moment} (h : t.falls m = true) : (t.after m).signal = false := by
  simpa using (Bool.and_eq_true_iff.1 h).2

theorem falls_high {m : Moment} (h : t.falls m = true) : t.signal = true :=
  (Bool.and_eq_true_iff.1 h).1

theorem cycle_low (h : t.falls .cycle = true) : t.cycle.1.signal = false := falls_low (m := .cycle) h

theorem cycle_falls (h : t.falls .cycle = true) : t.divider.toNat % 16 = 15 := by
  have hlow := cycle_low h
  rw [cycle_signal, moved, advanceReload_eq] at hlow
  exact falls_at_sixteen (falls_high h) hlow

theorem cycle_latch (t : Timer) : t.cycle.1.tmaBefore = none ∧ t.cycle.1.tma = t.tma := by
  rw [cycle_eq, count_eq, moved, advanceReload_eq]
  split <;> exact ⟨rfl, rfl⟩

theorem cycle_next (t : Timer) : t.cycle.1.divider.toNat = (t.divider.toNat + 1) % 65536 := by
  rw [cycle_divider]
  exact UInt16.toNat_add ..

/-- After the first cycle of a group the modulo from before a write is forgotten. -/
theorem Steady.armedModulo (h : Steady t) (hd : t.divider.toNat % 4 ≠ 0) :
    t.armedModulo = t.tma := by
  cases hb : t.tmaBefore with
  | none => rw [Timer.armedModulo, hb, Option.getD_none]
  | some v => exact absurd (h.latch (by rw [hb]; rfl)) hd

/-- No edge comes while a reload is pending. -/
theorem Steady.no_edge (h : Steady t) (hr : t.reload = some r) : t.falls .cycle = false := by
  refine Bool.eq_false_iff.2 fun hfalls => ?_
  have hlate := cycle_falls hfalls
  rcases (h.reload r hr).still with hlow | hearly
  · exact absurd (hlow.symm.trans (falls_high hfalls)) (by decide)
  · omega

/-- What is pending after a cycle: a reload that has come closer, or one that an overflow in the last
cycle of the group has armed. -/
theorem cycle_reload (h : Steady t) (hr : t.cycle.1.reload = some r) :
    OnTime t ⟨r.value, r.delay + 1⟩ ∨
      t.falls .cycle = true ∧ t.divider.toNat % 16 = 15 ∧ r = ⟨t.tma, 3⟩ := by
  rcases after_reload h.level (m := .cycle) hr with hwaits | ⟨hfalls, hr'⟩
  · exact .inl (h.reload _ (waiting_eq_some.1 hwaits))
  · have hlate := cycle_falls hfalls
    rw [h.armedModulo (by omega)] at hr'
    exact .inr ⟨hfalls, hlate, hr'⟩

/-- **Every cycle leaves a reload on time.** -/
theorem cycle_steady (h : Steady t) : Steady t.cycle.1 := by
  have hnext := cycle_next t
  obtain ⟨hlatch, htma⟩ := cycle_latch t
  refine ⟨after_level h.level .cycle, ?_, ?_⟩
  · rw [hlatch]
    exact nofun
  · intro r hr
    rcases cycle_reload h hr with hwaits | ⟨hfalls, hlate, hr'⟩
    · have hdelay : r.delay + 1 + t.divider.toNat % 4 ≤ 3 := hwaits.delay
      -- this is not the last cycle of the group, so the signal stays as it is
      have hsame : t.cycle.1.signal = t.signal := by
        rw [cycle_signal, moved, advanceReload_eq]
        exact signalOf_next (by omega) t.tac
      refine ⟨hwaits.value.trans htma.symm, by omega, ?_⟩
      rw [hsame]
      exact hwaits.still.imp_right fun hearly => by omega
    · -- armed in the last cycle, by a signal that is low now
      rw [hr']
      exact ⟨htma.symm, by simp only; omega, .inl (cycle_low hfalls)⟩

theorem cycle_lands (h : Steady t) (hland : t.landing?.isSome = true) :
    t.cycle.1.tima = t.cycle.1.tma := by
  obtain ⟨v, hv⟩ := Option.isSome_iff_exists.1 hland
  exact after_lands h (m := .cycle) rfl hland (h.no_edge (landing_eq_some.1 hv)) (cycle_latch t).2

/-- **The last cycle of a group** leaves nothing pending but what it has armed itself. -/
theorem cycle_calm (h : Steady t) (hd : t.divider.toNat % 4 = 3) : Calm t.cycle.1 := by
  have hnext := cycle_next t
  have hlater := cycle_steady h
  refine ⟨hlater.level, (cycle_latch t).1, by omega, fun r hr => ?_⟩
  rcases cycle_reload h hr with hwaits | ⟨hfalls, hlate, -⟩
  · have hdelay : r.delay + 1 + t.divider.toNat % 4 ≤ 3 := hwaits.delay
    omega
  · exact ⟨hlater.reload r hr, cycle_low hfalls, by omega⟩

/-- What is left of a group brings a timer to rest. -/
theorem rest_calm {n : Nat} (h : Steady t) (hn : t.divider.toNat % 4 + n = 3) :
    t.Latest (.replicate (n + 1) .cycle) ∧
      Calm ((List.replicate (n + 1) Moment.cycle).foldl after t) := by
  have hlands : t.landing?.isSome = true → t.cycle.1.tima = t.cycle.1.tma := cycle_lands h
  -- on the cycles left after the next one; the last of them is the one that can have an edge
  induction n generalizing t with
  | zero =>
    have hcalm := cycle_calm h hn
    exact ⟨⟨h.bringsModulo, fun _ => hlands, hcalm.bringsModulo⟩, hcalm⟩
  | succ n ih =>
    have hnext := cycle_next t
    have hlater := cycle_steady h
    obtain ⟨hlatest, hcalm⟩ := ih hlater (by omega) (cycle_lands hlater)
    exact ⟨⟨h.bringsModulo, fun _ => hlands, hlatest⟩, hcalm⟩

/-- **A group of four cycles** brings a timer to rest, and its reloads bring the modulo. -/
theorem group_calm (h : Poised t) :
    t.Latest (.replicate 4 .cycle) ∧ Calm ((List.replicate 4 Moment.cycle).foldl after t) :=
  rest_calm h.steady (by rw [h.divider])

theorem Calm.armedModulo (h : Calm t) : t.armedModulo = t.tma := by
  rw [Timer.armedModulo, h.latch, Option.getD_none]

theorem settle_tma (t : Timer) (before : Bool) : (t.settle before).tma = t.tma := by
  rw [settle_eq, count_eq]
  split <;> rfl

theorem settle_latch (h : t.tmaBefore = none) (before : Bool) :
    (t.settle before).tmaBefore = none := by
  rw [settle_eq]
  split
  · rfl
  · exact h

theorem clearDivider_latch (t : Timer) :
    t.clearDivider.1.tma = t.tma ∧ (t.tmaBefore = none → t.clearDivider.1.tmaBefore = none) := by
  rw [clearDivider_eq, settle_tma, advanceReload_eq]
  refine ⟨rfl, fun h => settle_latch ?_ _⟩
  exact h

/-- **Clearing the divider** between two groups lets a reload come closer or land, and may arm one. -/
theorem clear_calm {m : Moment} (h : Calm t) (hm : m.advances = true)
    (hafter : t.after m = t.clearDivider.1) : t.Latest [m] ∧ Calm (t.after m) := by
  obtain ⟨hzero, hlow⟩ := clearDivider_low t
  obtain ⟨htma, hlatch⟩ := clearDivider_latch t
  have hlevel := after_level h.level m
  have harmed : t.armed m = t.waiting? := if_pos hm
  have hreload (r : Reload) (hr : (t.after m).reload = some r) :
      r.value = t.tma ∧ r.delay ≤ 3 := by
    rcases after_reload h.level hr with hwaits | ⟨-, hr'⟩
    · rw [harmed] at hwaits
      have hdue := (h.reload _ (waiting_eq_some.1 hwaits)).1
      have hdelay : r.delay + 1 + t.divider.toNat % 4 ≤ 3 := hdue.delay
      exact ⟨hdue.value, by omega⟩
    · rw [hr', h.armedModulo]
      exact ⟨rfl, Nat.le_refl 3⟩
  rw [hafter] at hlevel hreload
  have hcalm : Calm t.clearDivider.1 := by
    refine ⟨hlevel, hlatch h.latch, by rw [hzero]; rfl, fun r hr => ⟨⟨?_, ?_, .inl hlow⟩, hlow, ?_⟩⟩
    · exact (hreload r hr).1.trans htma.symm
    · rw [hzero]
      exact (hreload r hr).2
    · rw [hzero]
      rfl
  -- the signal is low while a reload is pending, so the one that lands here meets no edge
  have hlands (hland : t.landing?.isSome = true) : (t.after m).tima = (t.after m).tma := by
    obtain ⟨v, hv⟩ := Option.isSome_iff_exists.1 hland
    have hidle : t.signal = false := (h.reload _ (landing_eq_some.1 hv)).2.1
    refine after_lands h.poised.steady hm hland ?_ (by rw [hafter, htma])
    rw [falls, hidle, Bool.false_and]
  rw [Latest, Latest, hafter]
  rw [hafter] at hlands
  exact ⟨⟨h.bringsModulo, fun _ => hlands, hcalm.bringsModulo⟩, hcalm⟩

/-- An access that leaves the divider, the modulo and a pending reload alone. -/
theorem kept_poised {m : Moment} (h : Calm t) (hdivider : (t.after m).divider = t.divider)
    (htma : (t.after m).tma = t.tma) (harmed : ∀ r, t.armed m = some r → t.reload = some r) :
    Poised (t.after m) := by
  have hquarter : (t.after m).divider.toNat % 4 = 0 := by rw [hdivider, h.divider]
  refine ⟨⟨after_level h.level m, fun _ => hquarter, fun r hr => ?_⟩, hquarter⟩
  rcases after_reload h.level hr with hkept | ⟨hfalls, hr'⟩
  · obtain ⟨hdue, -, hsixteen⟩ := h.reload r (harmed r hkept)
    refine ⟨hdue.value.trans htma.symm, by rw [hdivider]; exact hdue.delay, .inr ?_⟩
    rw [hdivider, hsixteen]
    exact Nat.zero_le 3
  · rw [hr', h.armedModulo]
    exact ⟨htma.symm, by simp only; omega, .inl (falls_low hfalls)⟩

theorem writeModulo_poised (h : Calm t) (v : UInt8) : Poised (t.after (.write 0xFF06 v)) := by
  refine ⟨⟨h.level, fun _ => h.divider, fun r hr => ?_⟩, h.divider⟩
  have hr : t.reload.map (fun r => { r with value := v }) = some r := hr
  obtain ⟨old, hold, rfl⟩ := Option.map_eq_some_iff.1 hr
  obtain ⟨hdue, hlow, -⟩ := h.reload old hold
  exact ⟨rfl, hdue.delay, .inl hlow⟩

/-- **An access between two groups.** -/
theorem access_poised (h : Calm t) {m : Moment} (hm : m ≠ .cycle) :
    t.Latest [m] ∧ Poised (t.after m) := by
  have hquiet (hnot : m.advances = false) (hp : Poised (t.after m)) :
      t.Latest [m] ∧ Poised (t.after m) :=
    ⟨.one hnot h.bringsModulo hp.steady.bringsModulo, hp⟩
  cases m using Moment.byRegister with
  | cycle => exact absurd rfl hm
  | clearDivider | divider v => exact (clear_calm h rfl rfl).imp_right Calm.poised
  | counter v =>
    refine hquiet rfl (kept_poised h ?_ ?_ ?_)
    · show (t.writeCounter v).divider = t.divider
      unfold writeCounter
      split <;> rfl
    · show (t.writeCounter v).tma = t.tma
      unfold writeCounter
      split <;> rfl
    · intro r hr
      have hr : (if t.counterLocked then t.reload else none) = some r := hr
      split at hr
      · exact hr
      · cases hr
  | modulo v => exact hquiet rfl (writeModulo_poised h v)
  | control v => exact hquiet rfl (kept_poised h (settle_divider _ _) (settle_tma _ _) fun _ => id)
  | other addr v h4 h5 h6 h7 =>
    have hnot : (Moment.write addr v).advances = false := by simp [Moment.advances, h4]
    refine hquiet hnot ?_
    rw [write_other h4 h5 h6 h7]
    exact h.poised

/-- **What was the modulo before a write plays no part in a cycle**: where it would still be looked at
there is no edge. -/
theorem cycle_unlatched (h : Steady t) : { t with tmaBefore := none }.cycle = t.cycle := by
  have hmoved : moved { t with tmaBefore := none } = t.moved := by
    rw [moved, moved, advanceReload_eq, advanceReload_eq]
    rfl
  refine Prod.ext ?_ ?_
  · rw [cycle_eq, cycle_eq, hmoved]
    by_cases hfalls : (t.level && !t.moved.signal) = true
    · have hmodulo : t.armedModulo = t.tma := by
        rw [h.level, ← cycle_signal] at hfalls
        have hlate := cycle_falls hfalls
        exact h.armedModulo (by omega)
      rw [hmodulo]
      rfl
    · rw [if_neg hfalls, if_neg hfalls]
  · obtain ⟨divider, tima, tma, tac, level, tmaBefore, reload, reloading⟩ := t
    rcases reload with _ | ⟨v, _ | d⟩ <;> rfl

theorem step_unlatched (h : Poised t) : { t with tmaBefore := none }.step 4 = t.step 4 := by
  have hfirst : { t with tmaBefore := none }.cycle = t.cycle := cycle_unlatched h.steady
  unfold step run
  rw [hfirst]

end Handheld.Timer
