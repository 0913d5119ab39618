import Handheld.Board.Write
import Handheld.Cpu.Bus

/-!
# Time on the board

A bus cycle is four cycles for the timer and the serial port and, at normal speed, four dots for the
display; at double speed it is two. A tick is one bus cycle and those for which the CPU is held.

* `Board.cycle`: one bus cycle of all peripherals.
* `Board.pressure_cycle_le`: copying a block holds the CPU for longer, but there are only so many
  blocks left; therefore a tick ends.
* `Board.tick`: the board as a bus of the CPU.
-/

namespace Handheld.Board

/-- Cycles of the CPU in a bus cycle. -/
def cpuCycles : Nat := 4

/-- Dots in a bus cycle. -/
def cycleDots (b : Board) : Nat := if b.doubleSpeed then 2 else 4

def runTimer (b : Board) : Board := b.withTimer (b.timer.step cpuCycles)

def runSerial (b : Board) : Board := b.withSerial (b.serial.step cpuCycles)

/-- Takes over a display and the interrupts that it may request. -/
def withDisplay (b : Board) (ppu : Ppu) (s : Ppu.Signals) : Board :=
  { b with ppu, interrupts := (b.interrupts.raiseIf s.vblank .vblank).raiseIf s.stat .stat }

/-- At the start of a horizontal blank a block may be due. -/
def enterHBlank (b : Board) : Board := if b.vramDma.active then b.moveBlock else b

/-- Runs the display for one bus cycle. -/
def runDisplay (b : Board) : Logged Board := do
  let (ppu, s) ← b.ppu.step b.cycleDots
  let b := b.withDisplay ppu s
  return if s.hblank then b.enterHBlank else b

/-- One bus cycle. -/
def cycle (b : Board) : Logged Board := b.runTimer.runSerial.stepOamDma.runDisplay

/-- A bound on the bus cycles for which the CPU can still be held: a block costs at most sixteen,
and one more is needed to reach the next. -/
def pressure (b : Board) : Nat :=
  b.stall + if b.vramDma.active then 17 * max 1 b.vramDma.blocks else 0

theorem pressure_runTimer (b : Board) : b.runTimer.pressure = b.pressure := rfl

theorem pressure_runSerial (b : Board) : b.runSerial.pressure = b.pressure := rfl

theorem pressure_stepOamDma (b : Board) : b.stepOamDma.pressure = b.pressure := by
  unfold stepOamDma
  split
  · rfl
  · split <;> rfl

theorem copyVramBytes_stall (n : Nat) (b : Board) : (copyVramBytes n b).stall = b.stall := by
  induction n generalizing b with
  | zero => rfl
  | succ n ih => rw [copyVramBytes, ih]; rfl

theorem copyVramBytes_blocks (n : Nat) (b : Board) :
    (copyVramBytes n b).vramDma.blocks = b.vramDma.blocks := by
  induction n generalizing b with
  | zero => rfl
  | succ n ih => rw [copyVramBytes, ih]; rfl

theorem copyVramBytes_active (n : Nat) (b : Board) :
    (copyVramBytes n b).vramDma.active = b.vramDma.active := by
  induction n generalizing b with
  | zero => rfl
  | succ n ih => rw [copyVramBytes, ih]; rfl

theorem blockCost_le (b : Board) : b.blockCost ≤ 16 := by
  unfold blockCost
  split <;> decide

/-- A block adds to the stall what it takes from the blocks left. -/
theorem pressure_moveBlock_le {b : Board} (h : b.vramDma.active) :
    b.moveBlock.pressure ≤ b.pressure := by
  have cost := blockCost_le (copyVramBytes 16 b)
  simp only [moveBlock, copyBlock, pressure, VramDma.blockDone, copyVramBytes_stall,
    copyVramBytes_blocks, copyVramBytes_active, h, Bool.true_and, if_true, bne_iff_ne, ne_eq]
  split <;> omega

theorem pressure_enterHBlank_le (b : Board) : b.enterHBlank.pressure ≤ b.pressure := by
  unfold enterHBlank
  split
  · exact pressure_moveBlock_le ‹_›
  · exact Nat.le_refl _

theorem pressure_runDisplay_le (b : Board) : b.runDisplay.value.pressure ≤ b.pressure := by
  simp only [runDisplay, Logged.value_bind, Logged.value_pure]
  split
  · exact pressure_enterHBlank_le _
  · exact Nat.le_refl _

theorem pressure_cycle_le (b : Board) : b.cycle.value.pressure ≤ b.pressure := by
  have h := pressure_runDisplay_le b.runTimer.runSerial.stepOamDma
  rwa [pressure_stepOamDma, pressure_runSerial, pressure_runTimer] at h

/-- Counts down the bus cycles for which the CPU is held. -/
def release (b : Board) : Board := { b with stall := b.stall - 1 }

theorem pressure_release_lt {b : Board} (h : b.stall ≠ 0) : b.release.pressure < b.pressure :=
  Nat.add_lt_add_right (Nat.pred_lt h) _

/-- One bus cycle with its dots, on top of what was reported so far (newest first). -/
structure Progress where
  board : Board
  dots : Nat
  reported : List Event

/-- Runs one bus cycle. -/
def Progress.cycle : Progress → Progress
  | ⟨b, dots, reported⟩ =>
    let now := b.cycleDots
    let c := b.cycle
    ⟨c.value, dots + now, c.events.reverseAux reported⟩

/-- Runs the bus cycles for which the CPU is held. -/
def drain (p : Progress) : Progress :=
  if p.board.stall = 0 then p
  else drain { p with board := p.board.release }.cycle
termination_by p.board.pressure
decreasing_by
  exact Nat.lt_of_le_of_lt (pressure_cycle_le _) (pressure_release_lt ‹_›)

/-- One bus cycle and those for which the CPU is held; returns the dots that elapsed. -/
def tick (b : Board) : Logged (Nat × Board) :=
  let p := drain (Progress.cycle ⟨b, 0, []⟩)
  ⟨(p.dots, p.board), p.reported.reverse⟩

instance : Bus Board where
  read8 b addr := (b.read addr, b)
  write8 := write
  tick := tick
  interrupts b := b.interrupts
  setInterrupts b i := { b with interrupts := i }
  clearDivider := clearDivider
  switchSpeed := switchSpeed
  buttonHeld b := b.joypad.anyLineLow

end Handheld.Board
