import Handheld.Proofs.Checked.Board
import Handheld.Proofs.Cpu.Lockstep

/-!
# Time on the checked board

Whatever holds the CPU is counted down while blocks are copied that hold it longer. `drainLimit`
bounds the pressure at any time, and with it the bus cycles and the dots of a tick.

* `Board.checkedCycle_eq`: one bus cycle of all peripherals.
* `Board.checkedTick_eq`: a tick ends, and its dots fit their counter.
* `Board.lockstep`: the checked board is a bus that answers like the board.
* `Board.checked_step`: a step of the CPU on the checked board.
-/

namespace Handheld.Board

open Checked

variable {b : Board} {x : Checked Board}

def checkedRunTimer (b : Board) : Checked Board := b.withTimer <$> b.timer.checkedStep cpuCycles

def checkedRunSerial (b : Board) : Checked Board := b.withSerial <$> b.serial.checkedStep cpuCycles

def checkedEnterHBlank (b : Board) : Checked Board :=
  if b.vramDma.active then b.checkedMoveBlock else return b

def checkedRunDisplay (b : Board) : Checked Board := do
  let (ppu, s) ← b.ppu.checkedStep b.cycleDots
  let b := b.withDisplay ppu s
  if s.hblank then b.checkedEnterHBlank else return b

def checkedCycle (b : Board) : Checked Board := do
  let b ← b.checkedRunTimer
  let b ← b.checkedRunSerial
  let b ← b.checkedStepOamDma
  b.checkedRunDisplay

/-- The highest pressure: that of a board at rest and what a speed switch adds. -/
def drainLimit : Nat := restingPressure + switchStall

theorem InRange.stepOamDma (h : b.InRange) : b.stepOamDma.InRange := by
  unfold Board.stepOamDma
  cases b.oamDma with
  | none => exact h
  | some d =>
    dsimp only
    split
    · exact (h.withDisplay (.moveOam d.index (b.dmaRead d.address))).withDevices ..
    · exact h.withDevices ..

theorem checkedEnterHBlank_eq (h : b.InRange) (hp : b.pressure ≤ drainLimit) :
    b.checkedEnterHBlank = .ok b.enterHBlank ∧ b.enterHBlank.InRange := by
  have hstall : b.stall ≤ b.pressure := Nat.le_add_right _ _
  have hlimit : drainLimit = 4226 := rfl
  unfold checkedEnterHBlank enterHBlank
  split
  · exact checkedMoveBlock_eq h (by omega)
  · exact ⟨rfl, h⟩

theorem checkedRunDisplay_eq (h : b.InRange) (hp : b.pressure ≤ drainLimit) :
    b.checkedRunDisplay = .ok b.runDisplay.value ∧ b.runDisplay.value.InRange := by
  have hshown : (b.withDisplay (b.ppu.step b.cycleDots).value.1
      (b.ppu.step b.cycleDots).value.2).InRange :=
    (h.withDisplay (.run b.cycleDots)).withDevices ..
  obtain ⟨heq, hok⟩ := checkedEnterHBlank_eq hshown hp
  rw [checkedRunDisplay, Ppu.checkedStep_eq h.ppu, ok_bind]
  simp only [runDisplay, Logged.value_bind, Logged.value_pure]
  split
  · exact ⟨heq, hok⟩
  · exact ⟨rfl, hshown⟩

/-- **A bus cycle passes without fault**, and what can hold the CPU does not grow. -/
theorem checkedCycle_eq (h : b.InRange) (hp : b.pressure ≤ drainLimit) :
    b.checkedCycle = .ok b.cycle.value ∧ b.cycle.value.InRange := by
  have hclocks : b.runTimer.runSerial.InRange := h.withDevices ..
  have hpressure : b.runTimer.runSerial.stepOamDma.pressure = b.pressure := by
    rw [pressure_stepOamDma, pressure_runSerial, pressure_runTimer]
  have htimer : b.checkedRunTimer = .ok b.runTimer := by
    rw [checkedRunTimer, Timer.checkedStep_eq]
    rfl
  have hserial : b.runTimer.checkedRunSerial = .ok b.runTimer.runSerial := by
    rw [checkedRunSerial, Serial.checkedStep_eq]
    rfl
  rw [checkedCycle, htimer, ok_bind, hserial, ok_bind, checkedStepOamDma_eq hclocks, ok_bind]
  exact checkedRunDisplay_eq hclocks.stepOamDma (hpressure ▸ hp)

def checkedRelease (b : Board) : Checked Board := do
  let stall ← minus b.stall 1
  return { b with stall }

/-- Counts the CPU's wait down; a loop that needs more than `fuel` rounds is at fault. -/
def checkedDrain : (fuel : Nat) → Board → (dots : Nat) → Checked (Nat × Board)
  | 0, _, _ => .error .unfinished
  | fuel + 1, b, dots =>
    if b.stall = 0 then return (dots, b)
    else do
      let b ← b.checkedRelease
      let c ← b.checkedCycle
      let dots ← unsigned 32 (dots + b.cycleDots)
      checkedDrain fuel c dots

def checkedTick (b : Board) : Checked (Nat × Board) := do
  let c ← b.checkedCycle
  checkedDrain (drainLimit + 1) c b.cycleDots

/-- The dots of the longest tick. -/
def longestTick : Nat := 4 * (drainLimit + 1)

theorem checkedRelease_eq (hs : b.stall ≠ 0) : b.checkedRelease = .ok b.release := by
  rw [checkedRelease, minus_ok (Nat.one_le_iff_ne_zero.2 hs)]
  rfl

/-- A tick of `t` dots is over: the CPU is not held any more. -/
structure Ticked (r : Checked (Nat × Board)) (t : Nat) (b : Board) (bound : Nat) : Prop where
  faultless : r = .ok (t, b)
  inRange : b.InRange
  released : b.stall = 0
  dots : t ≤ bound

theorem checkedDrain_eq (fuel : Nat) (b : Board) (dots : Nat) (reported : List Event)
    (h : b.InRange) (hfuel : b.pressure < fuel) (hp : b.pressure ≤ drainLimit)
    (hdots : dots + 4 * b.pressure < 2 ^ 32) :
    Ticked (checkedDrain fuel b dots) (drain ⟨b, dots, reported⟩).dots
      (drain ⟨b, dots, reported⟩).board (dots + 4 * b.pressure) := by
  induction fuel generalizing b dots reported with
  | zero => omega
  | succ fuel ih =>
    rw [drain, checkedDrain]
    dsimp only
    split
    · rename_i hs
      exact ⟨rfl, h, hs, Nat.le_add_right _ _⟩
    · -- a bus cycle less to wait pays for the dots of this one
      rename_i hs
      have hless := pressure_release_lt hs
      have hrest := pressure_cycle_le b.release
      have hfour := (cycleDots_bounds b.release).2
      have hreleased : b.release.InRange := h.withDevices ..
      obtain ⟨heq, hok⟩ := checkedCycle_eq hreleased (by omega)
      have hwidth : dots + b.release.cycleDots < 2 ^ 32 := by omega
      have hnext := ih b.release.cycle.value (dots + b.release.cycleDots)
        (b.release.cycle.events.reverseAux reported) hok (by omega) (by omega) (by omega)
      rw [checkedRelease_eq hs, ok_bind, heq, ok_bind, unsigned_ok hwidth, ok_bind]
      exact ⟨hnext.faultless, hnext.inRange, hnext.released, Nat.le_trans hnext.dots (by omega)⟩

/-- **A tick ends without fault**, and soon enough for its dots to fit their counter. -/
theorem checkedTick_eq (h : b.InRange) (hp : b.pressure ≤ drainLimit) :
    Ticked b.checkedTick (tick b).value.1 (tick b).value.2 longestTick := by
  obtain ⟨heq, hok⟩ := checkedCycle_eq h hp
  have hpressure := pressure_cycle_le b
  have hfour := (cycleDots_bounds b).2
  have hlimit : drainLimit = 4226 := rfl
  have hlongest : longestTick = 4 * drainLimit + 4 := rfl
  have hdrained := checkedDrain_eq (drainLimit + 1) b.cycle.value b.cycleDots
    (b.cycle.events.reverseAux []) hok (by omega) (by omega) (by omega)
  have htick : drain (Progress.cycle ⟨b, 0, []⟩) =
      drain ⟨b.cycle.value, b.cycleDots, b.cycle.events.reverseAux []⟩ := by
    rw [Progress.cycle, Nat.zero_add]
  have hdots : (drain ⟨b.cycle.value, b.cycleDots, b.cycle.events.reverseAux []⟩).dots ≤
      longestTick := by
    have hle := hdrained.dots
    omega
  rw [checkedTick, heq, ok_bind, tick, htick]
  exact ⟨hdrained.faultless, hdrained.inRange, hdrained.released, hdots⟩

def checkedClearDivider (b : Board) : Checked Board := b.withTimer <$> b.timer.checkedClearDivider

/-- Turns the speed over, without the wait. -/
def turnSpeed (b : Board) : Board := { b with doubleSpeed := !b.doubleSpeed, speedArmed := false }

def checkedSwitchSpeed (b : Board) : Checked (Bool × Board) :=
  if b.model.isColor && b.speedArmed then do
    let b ← b.turnSpeed.checkedClearDivider
    let stall ← unsigned 32 (b.stall + switchStall)
    return (true, { b with stall })
  else return (false, b)

theorem checkedClearDivider_eq (b : Board) : b.checkedClearDivider = .ok b.clearDivider := by
  rw [checkedClearDivider, Timer.checkedClearDivider_eq]
  rfl

theorem switchSpeed_value (b : Board) :
    b.switchSpeed.value =
      if b.model.isColor && b.speedArmed then
        (true, { b.turnSpeed.clearDivider with stall := b.stall + switchStall })
      else (false, b) := by
  unfold switchSpeed
  split <;> rfl

/-- **A speed switch adds its time without fault**, if the CPU is not held. -/
theorem checkedSwitchSpeed_eq (h : b.InRange) (hs : b.stall = 0) :
    b.checkedSwitchSpeed = .ok b.switchSpeed.value ∧ b.switchSpeed.value.2.InRange ∧
      b.switchSpeed.value.2.pressure ≤ drainLimit := by
  have hrest := h.resting hs
  rw [switchSpeed_value, checkedSwitchSpeed]
  split
  · have hturned : b.turnSpeed.clearDivider.InRange := h.withDevices ..
    have hstall : b.turnSpeed.clearDivider.stall = b.stall := rfl
    have hwidth : b.turnSpeed.clearDivider.stall + switchStall < 2 ^ 32 := by
      rw [hstall, hs]
      decide
    rw [checkedClearDivider_eq, ok_bind, unsigned_ok hwidth]
    refine ⟨rfl, hturned.withDevices .., ?_⟩
    have hmore :
        ({ b.turnSpeed.clearDivider with stall := b.stall + switchStall } : Board).pressure =
          b.pressure + switchStall := Nat.add_right_comm ..
    rw [hmore]
    exact Nat.add_le_add_right hrest _
  · exact ⟨rfl, h, Nat.le_trans hrest (by decide)⟩

/-- What the CPU sees of a computation on the board; after a fault it sees `silent`. -/
def observe {α : Type} (silent : α) (r : Checked (α × Board)) : α × Checked Board :=
  match r with
  | .ok (a, b) => (a, .ok b)
  | .error e => (silent, .error e)

/-- The checked board. A fault stays. -/
instance : Bus (Checked Board) where
  read8 x addr := observe 0xFF do
    let b ← x
    let v ← b.checkedRead addr
    return (v, b)
  write8 x addr v := pure (x >>= fun b => b.checkedWrite addr v)
  tick x := pure (observe 0 (x >>= checkedTick))
  interrupts x := (observe {} ((fun b => (b.interrupts, b)) <$> x)).1
  setInterrupts x i := (fun b => { b with interrupts := i }) <$> x
  clearDivider x := x >>= checkedClearDivider
  switchSpeed x := pure (observe false (x >>= checkedSwitchSpeed))
  buttonHeld x := (observe false ((fun b => (b.joypad.anyLineLow, b)) <$> x)).1

/-- **The checked board has met no fault** and is the board, at any time of a step. -/
structure Faultless (b : Board) (x : Checked Board) : Prop where
  same : x = .ok b
  inRange : b.InRange
  pressure : b.pressure ≤ drainLimit

/-- The same after a bus cycle: the CPU is not held. -/
structure Rested (b : Board) (x : Checked Board) : Prop where
  same : x = .ok b
  inRange : b.InRange
  released : b.stall = 0

theorem Rested.faultless (h : Rested b x) : Faultless b x :=
  ⟨h.same, h.inRange, Nat.le_trans (h.inRange.resting h.released) (by decide)⟩

/-- **The board and the checked board are in lockstep.** -/
theorem lockstep : Lockstep Rested Faultless longestTick where
  weaken h := h.faultless
  idle := by decide
  tick {b x} h := by
    obtain ⟨rfl, hok, hp⟩ := h
    have ht := checkedTick_eq hok hp
    have hbus : Bus.tick (.ok b : Checked Board) = pure (observe 0 b.checkedTick) := rfl
    rw [hbus, ht.faultless]
    exact ⟨rfl, ht.dots, rfl, ht.inRange, ht.released⟩
  read {b x} h addr := by
    obtain ⟨rfl, hok, hp⟩ := h
    have hbus : Bus.read8 (.ok b : Checked Board) addr =
        observe 0xFF (b.checkedRead addr >>= fun v => pure (v, b)) := rfl
    rw [hbus, checkedRead_eq hok]
    exact ⟨rfl, rfl, hok, hp⟩
  write {b x} h addr v := by
    obtain ⟨rfl, hok, hs⟩ := h
    -- a write may start a transfer that holds the next bus cycle
    obtain ⟨heq, hok', hp⟩ := checkedWrite_eq hok hs addr v
    exact ⟨heq, hok', Nat.le_trans hp (by decide)⟩
  interrupts {b x} h := by
    obtain ⟨rfl, -, -⟩ := h
    rfl
  setInterrupts {b x} h i := by
    obtain ⟨rfl, hok, hs⟩ := h
    exact ⟨rfl, hok.withDevices .., hs⟩
  clearDivider {b x} h := by
    obtain ⟨rfl, hok, hp⟩ := h
    exact ⟨checkedClearDivider_eq b, hok.withDevices .., hp⟩
  switchSpeed {b x} h := by
    obtain ⟨rfl, hok, hs⟩ := h
    obtain ⟨heq, hok', hp⟩ := checkedSwitchSpeed_eq hok hs
    have hbus : Bus.switchSpeed (.ok b : Checked Board) =
        pure (observe false b.checkedSwitchSpeed) := rfl
    rw [hbus, heq]
    exact ⟨rfl, rfl, hok', hp⟩
  buttonHeld {b x} h := by
    obtain ⟨rfl, -, -⟩ := h
    rfl

/-- **A step of the CPU meets no fault**, and its dots fit their counter. -/
theorem checked_step (cpu : Cpu) (h : b.InRange) (hp : b.pressure ≤ drainLimit) :
    (cpu.step (.ok b : Checked Board)).cpu = (cpu.step b).cpu ∧
      (cpu.step (.ok b : Checked Board)).dots = (cpu.step b).dots ∧
      (cpu.step b).dots < 2 ^ 32 ∧
      Faultless (cpu.step b).bus (cpu.step (.ok b : Checked Board)).bus := by
  obtain ⟨hcpu, hdots, hbound, hbus⟩ := Core.step_agree lockstep cpu ⟨rfl, h, hp⟩
  exact ⟨hcpu, hdots, Nat.lt_of_le_of_lt hbound (by decide), hbus⟩

end Handheld.Board
