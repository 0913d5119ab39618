import Mathlib.Logic.Function.Iterate
import Handheld.Proofs.Board.Reachable
import Handheld.Proofs.Ppu.Odometer
import Handheld.Proofs.Serial.Spending
import Handheld.Proofs.Timer.Edges

/-!
# The clocks of a tick

A tick is a loop: it runs bus cycles until none is left for which the CPU is held, and each of them
may hold it for longer by moving a block. What the loop does is read off its rounds, one by one.

* `Clocked`: what some bus cycles do to the clocks, whatever they find.
* `drain_rounds`: the loop runs the rounds up to the first that leaves the CPU free.
* `rounds_stall`: the rounds still to come, counted with the blocks moved so far.
* `tick_lockstep`: all clocks in step, and the price of a block.
-/

namespace Handheld.Board

open Ppu (Passes)

variable {b d e : Board} {m n moved moved' : Nat}

/-- The bus cycle from `b` moves a block. -/
def movesBlock (b : Board) : Bool := b.signals.hblank && b.vramDma.active

/-- Blocks that the horizontal blanks may still move. An engine that is active moves at least one. -/
def owed (b : Board) : Nat := if b.vramDma.active then max 1 b.vramDma.blocks else 0

/-- **`n` bus cycles, in which `moved` blocks are moved, lead from `b` to `d`.** -/
structure Clocked (b d : Board) (n moved : Nat) : Prop where
  speed : d.doubleSpeed = b.doubleSpeed
  timer : d.timer = (b.timer.step (cpuCycles * n)).1
  serial : d.serial = (fun s => (Serial.step s cpuCycles).1)^[n] b.serial
  display : Passes (n * b.cycleDots) b.ppu d.ppu
  source : d.vramDma.source.toNat = (b.vramDma.source.toNat + 16 * moved) % 65536
  owed : b.owed = d.owed + moved

theorem Clocked.refl (b : Board) : Clocked b b 0 0 where
  speed := rfl
  timer := rfl
  serial := rfl
  display := by
    rw [Nat.zero_mul]
    exact .start b.ppu
  source := (Nat.mod_eq_of_lt b.vramDma.source.toNat_lt).symm
  owed := rfl

theorem Clocked.trans (h : Clocked b d m moved) (h' : Clocked d e n moved') :
    Clocked b e (m + n) (moved + moved') where
  speed := h'.speed.trans h.speed
  timer := by rw [h'.timer, h.timer, Nat.mul_add, Timer.step_add]
  serial := by rw [h'.serial, h.serial, Nat.add_comm m, Function.iterate_add_apply]
  display := by
    have hdots : d.cycleDots = b.cycleDots := by rw [cycleDots, h.speed, cycleDots]
    have hlater := h'.display
    rw [hdots] at hlater
    rw [Nat.add_mul]
    exact h.display.trans hlater
  source := by
    rw [h'.source, h.source]
    omega
  owed := by
    rw [h.owed, h'.owed]
    omega

theorem copyVramBytes_source (n : Nat) (b : Board) :
    (copyVramBytes n b).vramDma.source.toNat = (b.vramDma.source.toNat + n) % 65536 := by
  induction n generalizing b with
  | zero => exact (Nat.mod_eq_of_lt b.vramDma.source.toNat_lt).symm
  | succ n ih =>
    have hone : b.copyVramByte.vramDma.source.toNat = (b.vramDma.source.toNat + 1) % 65536 :=
      UInt16.toNat_add ..
    rw [copyVramBytes, ih, hone]
    omega

theorem moveBlock_vramDma (b : Board) :
    b.moveBlock.vramDma = (copyVramBytes 16 b).vramDma.blockDone := by
  rw [moveBlock_eq, copyBlock_eq]

/-- A block takes the engine sixteen bytes further and leaves it with one block less. -/
theorem moveBlock_source (b : Board) :
    b.moveBlock.vramDma.source.toNat = (b.vramDma.source.toNat + 16) % 65536 := by
  rw [moveBlock_vramDma, VramDma.blockDone]
  exact copyVramBytes_source 16 b

theorem moveBlock_owed (h : b.vramDma.active = true) : b.owed = b.moveBlock.owed + 1 := by
  rw [owed, owed, moveBlock_vramDma, VramDma.blockDone]
  simp only [copyVramBytes_blocks, copyVramBytes_active, h, Bool.true_and, if_true, bne_iff_ne,
    ne_eq]
  split <;> omega

/-- The clocks and the transfer into object memory leave the display's place and the other engine
alone. -/
theorem beforeDisplay_parts (b : Board) :
    b.beforeDisplay.timer = (b.timer.step cpuCycles).1 ∧
      b.beforeDisplay.serial = (b.serial.step cpuCycles).1 ∧
      b.beforeDisplay.vramDma = b.vramDma ∧ b.beforeDisplay.stall = b.stall ∧
      Passes 0 b.ppu b.beforeDisplay.ppu := by
  unfold beforeDisplay stepOamDma
  split
  · exact ⟨rfl, rfl, rfl, rfl, .start _⟩
  · split
    · exact ⟨rfl, rfl, rfl, rfl, (Passes.start b.ppu).store b.ppu.vram _⟩
    · exact ⟨rfl, rfl, rfl, rfl, .start _⟩

theorem afterDots_vramDma (b : Board) : b.afterDots.vramDma = b.vramDma :=
  b.beforeDisplay_parts.2.2.1

theorem afterDots_stall (b : Board) : b.afterDots.stall = b.stall :=
  b.beforeDisplay_parts.2.2.2.1

theorem afterDots_clocked (b : Board) : Clocked b b.afterDots 1 0 := by
  obtain ⟨htimer, hserial, -, -, hstore⟩ := b.beforeDisplay_parts
  have hspeed : b.afterDots.doubleSpeed = b.doubleSpeed := by
    obtain ⟨_, _, _, _, _, hb⟩ := b.beforeDisplay_eq
    rw [afterDots, hb]
    rfl
  refine ⟨hspeed, htimer, hserial, ?_, ?_, ?_⟩
  · have hdots := hstore.dots b.cycleDots
    rw [Nat.zero_add] at hdots
    rw [Nat.one_mul]
    exact hdots
  · rw [afterDots_vramDma]
    exact (Nat.mod_eq_of_lt b.vramDma.source.toNat_lt).symm
  · rw [owed, owed, afterDots_vramDma, Nat.add_zero]

theorem moveBlock_clocked (h : b.vramDma.active = true) : Clocked b b.moveBlock 0 1 := by
  have hsource := moveBlock_source b
  have howed := moveBlock_owed h
  obtain ⟨vram, vramDma, stall, hd⟩ := moveBlock_fills b
  rw [hd] at hsource howed ⊢
  refine ⟨rfl, rfl, rfl, ?_, ?_, howed⟩
  · rw [Nat.zero_mul]
    exact (Passes.start b.ppu).store vram b.ppu.oam
  · rw [hsource, Nat.mul_one]

theorem cycle_eq (b : Board) :
    b.cycle.value = if b.movesBlock then b.afterDots.moveBlock else b.afterDots := by
  rw [cycle_value, movesBlock, enterHBlank, afterDots_vramDma]
  cases b.signals.hblank <;> cases b.vramDma.active <;> simp

/-- **One bus cycle.** -/
theorem cycle_clocked (b : Board) : Clocked b b.cycle.value 1 b.movesBlock.toNat := by
  have hdots := b.afterDots_clocked
  rw [cycle_eq]
  cases hm : b.movesBlock with
  | false => exact hdots
  | true =>
    have hactive : b.afterDots.vramDma.active = true := by
      rw [afterDots_vramDma]
      exact (Bool.and_eq_true_iff.1 hm).2
    exact hdots.trans (moveBlock_clocked hactive)

theorem moveBlock_stall (b : Board) : b.moveBlock.stall = b.stall + b.blockCost := by
  obtain ⟨_, _, _, hf⟩ := copyVramBytes_fills 16 b
  have hspeed : (copyVramBytes 16 b).doubleSpeed = b.doubleSpeed := by rw [hf]
  rw [moveBlock_eq, copyBlock_eq]
  dsimp only
  rw [copyVramBytes_stall, blockCost, hspeed, blockCost]

/-- Either speed makes a block cost the same dots. -/
theorem blockCost_dots (b : Board) : b.blockCost * b.cycleDots = 32 := by
  unfold blockCost cycleDots
  cases b.doubleSpeed <;> rfl

theorem copyBlocks_stall (n : Nat) (b : Board) :
    (copyBlocks n b).stall = b.stall + b.blockCost * n := by
  induction n generalizing b with
  | zero => rfl
  | succ n ih =>
    obtain ⟨_, _, _, hf⟩ := copyBlock_fills b
    have hcost : b.copyBlock.blockCost = b.blockCost := by rw [hf]; rfl
    have hone : b.copyBlock.stall = b.stall + b.blockCost := moveBlock_stall b
    rw [copyBlocks, ih, hcost, hone, Nat.mul_succ]
    omega

theorem moveAll_stall (b : Board) (blocks : Nat) :
    (b.moveAll blocks).stall = b.stall + b.blockCost * blocks :=
  copyBlocks_stall blocks b

theorem cycle_stall (b : Board) :
    b.cycle.value.stall = b.stall + b.blockCost * b.movesBlock.toNat := by
  have hcost : b.afterDots.blockCost = b.blockCost := by
    rw [blockCost, b.afterDots_clocked.speed, blockCost]
  rw [cycle_eq]
  cases b.movesBlock with
  | false => exact afterDots_stall b
  | true =>
    rw [if_pos rfl, moveBlock_stall, hcost, afterDots_stall]
    exact congrArg _ (Nat.mul_one _).symm

/-- One round: a bus cycle for which the CPU is held. -/
def round (b : Board) : Board := b.release.cycle.value

/-- The blocks moved in the first `n` rounds. -/
def movedIn (b : Board) (n : Nat) : Nat :=
  (List.range n).countP fun i => movesBlock (round^[i] b)

theorem movedIn_succ (b : Board) (n : Nat) :
    b.movedIn (n + 1) = b.movedIn n + (movesBlock (round^[n] b)).toNat := by
  unfold movedIn
  rw [List.range_succ, List.countP_append, List.countP_singleton]
  cases movesBlock (round^[n] b) <;> rfl

/-- The engines do not see for how long the CPU is held. -/
theorem release_movesBlock (b : Board) : b.release.movesBlock = b.movesBlock := by
  have hdisplay : b.release.beforeDisplay.ppu = b.beforeDisplay.ppu := by
    have hdma : b.release.runTimer.runSerial.oamDma = b.runTimer.runSerial.oamDma := rfl
    unfold beforeDisplay stepOamDma
    rw [hdma]
    split
    · rfl
    · split <;> rfl
  have hdots : b.release.cycleDots = b.cycleDots := rfl
  rw [movesBlock, movesBlock, signals, signals, hdisplay, hdots]
  rfl

theorem round_clocked (b : Board) : Clocked b b.round 1 b.movesBlock.toNat := by
  obtain ⟨hspeed, htimer, hserial, hdisplay, hsource, howed⟩ := b.release.cycle_clocked
  rw [release_movesBlock] at hsource howed
  exact ⟨hspeed, htimer, hserial, hdisplay, hsource, howed⟩

/-- **Any number of rounds.** -/
theorem rounds_clocked (b : Board) (n : Nat) : Clocked b (round^[n] b) n (b.movedIn n) := by
  induction n with
  | zero => exact .refl b
  | succ n ih =>
    rw [Function.iterate_succ_apply', movedIn_succ]
    exact ih.trans (round_clocked _)

/-- While the CPU is held, each round takes one bus cycle off the stall and each block puts its cost
on: **what is left, with the rounds run, is what was there and the blocks' cost.** -/
theorem rounds_stall (b : Board) (n : Nat) (hheld : ∀ i < n, (round^[i] b).stall ≠ 0) :
    (round^[n] b).stall + n = b.stall + b.blockCost * b.movedIn n := by
  induction n with
  | zero => rfl
  | succ n ih =>
    have hstall := ih fun i hi => hheld i (Nat.lt_succ_of_lt hi)
    have hpos := hheld n (Nat.lt_succ_self n)
    have hcost : (round^[n] b).blockCost = b.blockCost := by
      rw [blockCost, (b.rounds_clocked n).speed, blockCost]
    have hround : (round^[n] b).round.stall =
        (round^[n] b).stall - 1 + b.blockCost * (movesBlock (round^[n] b)).toNat := by
      have hcycle := cycle_stall (round^[n] b).release
      rw [release_movesBlock] at hcycle
      rw [← hcost]
      exact hcycle
    rw [Function.iterate_succ_apply', hround, movedIn_succ, Nat.mul_add]
    omega

/-- **The loop runs the rounds up to the first that leaves the CPU free**, and counts their dots. -/
theorem drain_rounds (p : Progress) :
    ∃ n, (drain p).board = round^[n] p.board ∧ (drain p).dots = p.dots + n * p.board.cycleDots ∧
      (∀ i < n, (round^[i] p.board).stall ≠ 0) ∧ (round^[n] p.board).stall = 0 := by
  -- the loop's own recursion: it ends at a free CPU, and otherwise goes on after one round
  induction p using drain.induct with
  | case1 p hstall =>
    rw [drain_free hstall]
    refine ⟨0, rfl, ?_, fun i hi => absurd hi (Nat.not_lt_zero i), hstall⟩
    rw [Nat.zero_mul, Nat.add_zero]
  | case2 p hstall ih =>
    obtain ⟨n, hboard, hdots, hheld, hfree⟩ := ih
    rw [drain_held hstall]
    have hspeed : p.board.round.cycleDots = p.board.cycleDots := by
      rw [cycleDots, p.board.round_clocked.speed, cycleDots]
    refine ⟨n + 1, hboard, ?_, ?_, hfree⟩
    · have hstart : ({ p with board := p.board.release } : Progress).cycle.dots =
          p.dots + p.board.cycleDots := rfl
      have hround : ({ p with board := p.board.release } : Progress).cycle.board = p.board.round :=
        rfl
      rw [hdots, hstart, hround, hspeed, Nat.succ_mul]
      omega
    · intro i hi
      cases i with
      | zero => exact hstall
      | succ i => exact hheld i (Nat.lt_of_succ_lt_succ hi)

/-- **A tick of `rounds + 1` bus cycles, in which `moved` blocks are moved.** -/
structure Ticks (b : Board) (rounds moved : Nat) : Prop where
  /-- After the first bus cycle the loop runs `rounds` more, and no more than it has to. -/
  run : (tick b).value.2 = round^[rounds] b.cycle.value
  held : ∀ i < rounds, (round^[i] b.cycle.value).stall ≠ 0
  free : (tick b).value.2.stall = 0
  blocks : moved = b.movesBlock.toNat + b.cycle.value.movedIn rounds
  cycles : rounds + 1 = 1 + b.stall + (if b.doubleSpeed then 16 else 8) * moved
  dots : (tick b).value.1 = (rounds + 1) * if b.doubleSpeed then 2 else 4
  /-- The clocks of the CPU's time. -/
  timer : (tick b).value.2.timer = (b.timer.step (4 * (rounds + 1))).1
  divider : (tick b).value.2.timer.divider.toNat =
    (b.timer.divider.toNat + 4 * (rounds + 1)) % 65536
  serial : (tick b).value.2.serial = (b.serial.step (4 * (rounds + 1))).1
  /-- The engine for video memory. -/
  source : (tick b).value.2.vramDma.source.toNat = (b.vramDma.source.toNat + 16 * moved) % 65536
  owed : b.owed = (tick b).value.2.owed + moved
  /-- The display, in dots. -/
  display : Passes (tick b).value.1 b.ppu (tick b).value.2.ppu

theorem tick_ticks (b : Board) : ∃ rounds moved, Ticks b rounds moved := by
  obtain ⟨rounds, hrun, hdots, hheld, hfree⟩ := drain_rounds (Progress.cycle ⟨b, 0, []⟩)
  have hfirst : (Progress.cycle ⟨b, 0, []⟩).board = b.cycle.value := rfl
  have hbegun : (Progress.cycle ⟨b, 0, []⟩).dots = b.cycleDots := Nat.zero_add _
  have hspeed : b.cycle.value.cycleDots = b.cycleDots := by
    rw [cycleDots, b.cycle_clocked.speed, cycleDots]
  have hcost : b.cycle.value.blockCost = b.blockCost := by
    rw [blockCost, b.cycle_clocked.speed, blockCost]
  rw [hfirst] at hrun hdots hheld hfree
  rw [hbegun, hspeed] at hdots
  -- the first bus cycle and the rounds after it add up
  have hall := b.cycle_clocked.trans (b.cycle.value.rounds_clocked rounds)
  have hstall := b.cycle.value.rounds_stall rounds hheld
  rw [Nat.add_comm 1] at hall
  rw [hfree, cycle_stall, hcost] at hstall
  have hcycles : (tick b).value.1 = (rounds + 1) * b.cycleDots := by
    rw [Nat.succ_mul, Nat.add_comm]
    exact hdots
  have hrun' : (tick b).value.2 = round^[rounds] b.cycle.value := hrun
  refine ⟨rounds, _, hrun', hheld, by rw [hrun', hfree], rfl, ?_, hcycles, ?_, ?_, ?_, ?_, ?_, ?_⟩
  · have hcycles : rounds + 1 =
        1 + b.stall + b.blockCost * (b.movesBlock.toNat + b.cycle.value.movedIn rounds) := by
      rw [Nat.mul_add]
      omega
    exact hcycles
  · rw [hrun']
    exact hall.timer
  · rw [hrun', hall.timer]
    exact Timer.step_divider ..
  · rw [hrun', hall.serial, Serial.iterate_step]
    rfl
  · rw [hrun']
    exact hall.source
  · rw [hrun']
    exact hall.owed
  · rw [hcycles, hrun']
    exact hall.display

theorem lcdOff_notMem_cycle (b : Board) : .lcdOff ∉ b.cycle.events := by
  simp only [cycle, runDisplay, Logged.events_bind, Logged.events_pure, List.append_nil]
  exact Ppu.lcdOff_notMem_step _ _

theorem lcdOff_notMem_progress {p : Progress} (h : .lcdOff ∉ p.reported) :
    .lcdOff ∉ p.cycle.reported := by
  have hreported : p.cycle.reported = p.board.cycle.events.reverseAux p.reported := rfl
  rw [hreported, List.reverseAux_eq, List.mem_append, List.mem_reverse, not_or]
  exact ⟨lcdOff_notMem_cycle p.board, h⟩

/-- **No bus cycle switches the LCD off.** -/
theorem lcdOff_notMem_tick (b : Board) : .lcdOff ∉ (tick b).events := by
  have hdrain : ∀ p : Progress, .lcdOff ∉ p.reported → .lcdOff ∉ (drain p).reported := by
    intro p
    induction p using drain.induct with
    | case1 p hstall =>
      rw [drain_free hstall]
      exact id
    | case2 p hstall ih =>
      intro h
      rw [drain_held hstall]
      exact ih (lcdOff_notMem_progress h)
  intro hmem
  exact hdrain _ (lcdOff_notMem_progress List.not_mem_nil) (List.mem_reverse.1 hmem)

/-- **A tick ends and keeps all clocks in lockstep.** It runs one bus cycle, one for each for which the
CPU was held and what the blocks cost that are moved meanwhile, sixteen each at double speed and eight
otherwise; it leaves the CPU free. The timer and the serial port count four cycles for each bus cycle.
The display counts the dots that are returned, or stands still while the LCD is off. Each block costs
32 dots, whether a tick moves it or a write did before, alone or with others. -/
theorem tick_lockstep (h : Reachable b) :
    (∃ rounds moved, Ticks b rounds moved ∧
      (tick b).value.1 = (1 + b.stall) * b.cycleDots + 32 * moved) ∧
    (b.ppu.lcdOn = true → (tick b).value.2.ppu.lcdOn = true ∧
      (tick b).value.2.ppu.odometer = b.ppu.odometer + (tick b).value.1) ∧
    (b.ppu.lcdOn = false → ∃ vram oam, (tick b).value.2.ppu = { b.ppu with vram, oam }) ∧
    b.moveBlock.stall * b.cycleDots = b.stall * b.cycleDots + 32 ∧
    ∀ blocks, (b.moveAll blocks).stall * b.cycleDots = b.stall * b.cycleDots + 32 * blocks := by
  obtain ⟨rounds, moved, ht⟩ := tick_ticks b
  have hprice := blockCost_dots b
  refine ⟨⟨rounds, moved, ht, ?_⟩, ?_, ht.display.dark, ?_, ?_⟩
  · have hcycles : rounds + 1 = 1 + b.stall + b.blockCost * moved := ht.cycles
    have hdots : (tick b).value.1 = (rounds + 1) * b.cycleDots := ht.dots
    rw [hdots, hcycles, Nat.add_mul, Nat.mul_right_comm, hprice]
  · intro hon
    exact (ht.display.lit (reachable_steady h).phase hon).2
  · rw [moveBlock_stall, Nat.add_mul, hprice]
  · intro blocks
    rw [moveAll_stall, Nat.add_mul, Nat.mul_right_comm, hprice]

/-- A board on which four blocks have just been moved at once. -/
def movedBoard : Board := ((afterBoot .color none).value.write 0xFF55 3).value

/-- The next tick takes their 128 dots and its own four, which a lit display counts. -/
theorem tick_after_blocks : Reachable movedBoard ∧ (tick movedBoard).value.1 = 4 + 32 * 4 ∧
    (tick movedBoard).value.2.ppu.odometer = movedBoard.ppu.odometer + 132 := by
  have hreach : Reachable movedBoard := .perform (.afterBoot .color none) (.write 0xFF55 3)
  have hmoved : movedBoard = (afterBoot .color none).value.moveAll 4 := rfl
  obtain ⟨vram, vramDma, stall, hfills⟩ := moveAll_fills (afterBoot .color none).value 4
  rw [← hmoved] at hfills
  obtain ⟨⟨rounds, moved, ht, hprice⟩, hlit, -⟩ := tick_lockstep hreach
  have hstall : movedBoard.stall = 32 := by
    rw [hmoved, moveAll_stall]
    rfl
  have hspeed : movedBoard.cycleDots = 4 := by
    rw [hfills]
    rfl
  have hlcd : movedBoard.ppu.lcdOn = true := by
    rw [hfills]
    exact (Ppu.handOver_ok (Ppu.powerOn_ok .color) none).2.2
  -- the transfer is over, so no block is moved in the tick
  have hnone : moved = 0 := (Nat.add_eq_zero_iff.1 ht.owed.symm).2
  rw [hstall, hspeed, hnone] at hprice
  have hodometer := (hlit hlcd).2
  rw [hprice] at hodometer
  exact ⟨hreach, hprice, hodometer⟩

end Handheld.Board
