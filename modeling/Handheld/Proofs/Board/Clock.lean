import Handheld.Proofs.Board.Untouched
import Handheld.Proofs.Ppu.Clock

/-!
# The board keeps time

Every bus cycle, also one for which a transfer or a speed switch holds the CPU, runs the display for
as many dots as it reports.

* `cycle_synced`, `drain_synced`, `tick_synced`: the dots of a bus cycle are the display's.
* `write_synced`: a write leaves the time alone, unless it switches the LCD off.
* `step_synced`: so does a step of the CPU, for any instruction, handler and speed.
-/

namespace Handheld.Board

open Ppu (Synced)

variable {b : Board} {c : Nat}

theorem stepOamDma_synced (h : Synced c b.ppu) : Synced c b.stepOamDma.ppu := by
  unfold stepOamDma
  split
  · exact h
  · split
    · exact h.withMemories ..
    · exact h

theorem stepOamDma_doubleSpeed (b : Board) : b.stepOamDma.doubleSpeed = b.doubleSpeed := by
  unfold stepOamDma
  split
  · rfl
  · split <;> rfl

theorem Fills.synced {d : Board} (hf : Fills b d) (h : Synced c b.ppu) : Synced c d.ppu := by
  obtain ⟨_, _, _, rfl⟩ := hf
  exact h.withMemories ..

theorem runDisplay_synced (h : Synced c b.ppu) :
    Synced (c + b.cycleDots) b.runDisplay.value.ppu := by
  have hs := h.step b.cycleDots
  simp only [runDisplay, Logged.value_bind, Logged.value_pure]
  split
  · exact (enterHBlank_fills _).synced hs
  · exact hs

/-- **A bus cycle runs the display for its dots**, four at normal speed and two at double speed. -/
theorem cycle_synced (h : Synced c b.ppu) : Synced (c + b.cycleDots) b.cycle.value.ppu := by
  have hdots : b.runTimer.runSerial.stepOamDma.cycleDots = b.cycleDots := by
    rw [cycleDots, stepOamDma_doubleSpeed]
    rfl
  have hd := runDisplay_synced (stepOamDma_synced (b := b.runTimer.runSerial) h)
  rwa [hdots] at hd

theorem progress_synced {p : Progress} (h : Synced (c + p.dots) p.board.ppu) :
    Synced (c + p.cycle.dots) p.cycle.board.ppu := by
  have hc := cycle_synced h
  rwa [Nat.add_assoc] at hc

/-- The bus cycles for which the CPU is held count as well. -/
theorem drain_synced (p : Progress) (h : Synced (c + p.dots) p.board.ppu) :
    Synced (c + (drain p).dots) (drain p).board.ppu := by
  induction p using drain.induct with
  | case1 p hstall =>
    rw [drain_free hstall]
    exact h
  | case2 p hstall ih =>
    rw [drain_held hstall]
    exact ih (progress_synced (p := { p with board := p.board.release }) h)

theorem tick_synced (h : Synced c b.ppu) :
    Synced (c + (tick b).value.1) (tick b).value.2.ppu :=
  drain_synced _ (progress_synced (p := ⟨b, 0, []⟩) h)

theorem le_drain_dots (p : Progress) : p.dots ≤ (drain p).dots := by
  induction p using drain.induct with
  | case1 p hstall =>
    exact Nat.le_of_eq (congrArg Progress.dots (drain_free hstall).symm)
  | case2 p hstall ih =>
    rw [drain_held hstall]
    exact Nat.le_trans (Nat.le_add_right _ _) ih

/-- A bus cycle takes two dots or four. -/
theorem cycleDots_bounds (b : Board) : 2 ≤ b.cycleDots ∧ b.cycleDots ≤ 4 := by
  unfold cycleDots
  split <;> decide

theorem two_le_tick_dots (b : Board) : 2 ≤ (tick b).value.1 := by
  have hcycle : 2 ≤ 0 + b.cycleDots := by
    rw [Nat.zero_add]
    exact (cycleDots_bounds b).1
  exact Nat.le_trans hcycle (le_drain_dots (Progress.cycle ⟨b, 0, []⟩))

theorem writePort_synced (h : Synced c b.ppu) {addr : UInt16} {v : UInt8}
    (hv : .lcdOff ∉ (b.writePort addr v).events) : Synced c (b.writePort addr v).value.ppu := by
  unfold writePort at hv ⊢
  cases hp : Port.of b.model addr with
  | display =>
    -- the display reports through the board
    rw [hp] at hv
    exact h.writePort hv
  | vramDma => exact (writeVramDma_fills b addr v).synced h
  | vramBank => exact h.withMemories ..
  | outputMode =>
    simp only [writeOutputMode]
    split
    · exact h.withMemories ..
    · exact h
  | _ => exact h

/-- **A write leaves the time alone**, unless it switches the LCD off. -/
theorem write_synced (h : Synced c b.ppu) {addr : UInt16} {v : UInt8}
    (hv : .lcdOff ∉ (b.write addr v).events) : Synced c (b.write addr v).value.ppu := by
  unfold write at hv ⊢
  cases hr : Region.of addr with
  | port =>
    rw [hr] at hv
    exact writePort_synced h hv
  | vram => exact h.writeVram addr v
  | oam =>
    simp only [writeOam]
    split
    · exact h
    · exact h.writeOam addr v
  | _ => exact h

theorem switchSpeed_synced (h : Synced c b.ppu) : Synced c b.switchSpeed.value.2.ppu := by
  unfold switchSpeed
  split
  · exact h
  · exact h

/-- **A CPU in step with its display** since the time `start`, or one that has switched the LCD off. -/
def InStep (start : Nat) (c : Core Board) : Prop :=
  .lcdOff ∈ c.events ∨ Synced (start + c.dots) c.bus.ppu

/-- Every access to the board keeps the two in step. -/
theorem inStep_kept (start : Nat) : Core.Kept (InStep start) where
  withCpu h _ := h
  instruction h _ _ _ _ := h.imp_left fun hm => List.mem_append_left _ hm
  locked h _ _ := h.imp_left fun hm => List.mem_append_left _ hm
  tick {c} h := by
    have he : c.tick.events = Logged.join c.events (Bus.tick c.bus).events := rfl
    rcases h with hm | hs
    · refine .inl ?_
      rw [he, Logged.join_eq]
      exact List.mem_append_left _ hm
    · have ht := tick_synced hs
      rw [Nat.add_assoc] at ht
      exact .inr ht
  read h _ := h
  write {c} h addr v := by
    simp only [InStep, Logged.join_eq, List.mem_append]
    rcases h with hm | hs
    · exact .inl (.inl hm)
    · -- the write that switches the LCD off ends the claim of being in step
      by_cases hv : .lcdOff ∈ (Bus.write8 c.bus addr v).events
      · exact .inl (.inr hv)
      · exact .inr (write_synced hs hv)
  clear h _ := h
  switchSpeed {c} h := by
    simp only [InStep, Logged.join_eq, List.mem_append]
    exact h.imp .inl switchSpeed_synced
  clearDivider h := h

/-- **A step of the CPU takes as many dots as the display**, whatever it executes and whatever holds
it, at either speed. -/
theorem step_synced {cpu : Cpu} (h : Synced c b.ppu) (hrun : cpu.activity ≠ .stopped)
    (hoff : .lcdOff ∉ (cpu.step b).events) :
    Synced (c + (cpu.step b).dots) (cpu.step b).bus.ppu := by
  have hstart : InStep c { cpu, bus := b } := .inr h
  rcases Core.step_keeps (inStep_kept c) hstart (fun hs => absurd hs hrun) with hm | hs
  · exact absurd hm hoff
  · exact hs

end Handheld.Board
