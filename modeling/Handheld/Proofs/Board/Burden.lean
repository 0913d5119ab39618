import Handheld.Proofs.Board.Ticking
import Handheld.Proofs.Checked.Board

/-!
# The time of a step

Dots are not only spent by bus cycles: a write or a speed switch puts off dots that a later bus
cycle takes. What is spent and what is put off are counted together here. Together they grow by a
bounded amount with each access of the CPU, however the transfers and speed switches stack up.

* `Board.burden`: the dots put off.
* `tick_burden`: a tick takes the dots that were put off and its own.
* `Core.step_spent`: what a step spends and puts off.
* `Board.step_frames`: no step is long enough for two frames.
-/

namespace Handheld

namespace Board

variable {b d : Board}

/-- The dots put off: those for which the CPU is held already, and those of the blocks that
horizontal blanks may still move. -/
def burden (b : Board) : Nat := b.stall * b.cycleDots + 32 * b.owed

/-- **What a tick takes, and leaves put off, was put off before**, but for its own bus cycle. -/
theorem tick_burden (b : Board) :
    (tick b).value.1 + (tick b).value.2.burden = b.cycleDots + b.burden := by
  obtain ⟨rounds, moved, ht⟩ := tick_ticks b
  have hprice := blockCost_dots b
  have hcycles : rounds + 1 = 1 + b.stall + b.blockCost * moved := ht.cycles
  have hdots : (tick b).value.1 = (rounds + 1) * b.cycleDots := ht.dots
  have howed := ht.owed
  rw [hdots, hcycles, burden, ht.free, burden, Nat.add_mul, Nat.mul_right_comm, hprice, Nat.add_mul,
    howed]
  omega

/-- A block that is moved trades a block that is owed for its price. -/
theorem moveBlock_burden (h : b.vramDma.active = true) : b.moveBlock.burden = b.burden := by
  have hprice := blockCost_dots b
  have howed := moveBlock_owed h
  have hspeed : b.moveBlock.cycleDots = b.cycleDots := by
    rw [cycleDots, (moveBlock_clocked h).speed, cycleDots]
  rw [burden, burden, moveBlock_stall, hspeed, howed, Nat.add_mul, hprice]
  omega

theorem moveAll_burden (b : Board) (blocks : Nat) :
    (b.moveAll blocks).burden ≤ b.burden + 32 * blocks := by
  have hprice := blockCost_dots b
  have hspeed : (b.moveAll blocks).cycleDots = b.cycleDots := by
    obtain ⟨_, _, _, hf⟩ := moveAll_fills b blocks
    rw [hf]
    rfl
  have howed : (b.moveAll blocks).owed = 0 := rfl
  rw [burden, burden, moveAll_stall, hspeed, howed, Nat.add_mul, Nat.mul_right_comm, hprice]
  omega

theorem withBlocks_owed (b : Board) {blocks : Nat} (hn : blocks ≤ 0x80) :
    (b.withBlocks blocks).owed ≤ 128 := by
  have hmax : (b.withBlocks blocks).owed = max 1 blocks := rfl
  omega

/-- Blocks that are put off until the horizontal blanks are put off at their price. -/
theorem withBlocks_burden (b : Board) {blocks : Nat} (hn : blocks ≤ 0x80) :
    (b.withBlocks blocks).burden ≤ b.burden + 4096 := by
  have howed := withBlocks_owed b hn
  have hheld : (b.withBlocks blocks).stall * (b.withBlocks blocks).cycleDots =
      b.stall * b.cycleDots := rfl
  rw [burden, burden, hheld]
  omega

/-- **A write to the control port puts off the price of 128 blocks at most.** -/
theorem controlVramDma_burden (b : Board) (v : UInt8) :
    (b.controlVramDma v).value.burden ≤ b.burden + 4096 := by
  have hn := requestedBlocks_le v
  unfold controlVramDma
  dsimp only
  split
  · have hlater := withBlocks_burden b hn
    rw [startHBlankDma_value]
    split
    · exact hlater
    · rwa [moveBlock_burden rfl]
  · split
    · -- a cancelled transfer owes nothing
      have howed : b.cancelVramDma.value.owed = 0 := rfl
      have hheld : b.cancelVramDma.value.stall * b.cancelVramDma.value.cycleDots =
          b.stall * b.cycleDots := rfl
      rw [burden, burden, howed, hheld]
      omega
    · exact Nat.le_trans (moveAll_burden b _) (by omega)

/-- What a board puts off is read from these. -/
def waits (b : Board) : Nat × Bool × Bool × Nat :=
  (b.stall, b.doubleSpeed, b.vramDma.active, b.vramDma.blocks)

theorem owed_congr (h : d.waits = b.waits) : d.owed = b.owed := by
  simp only [waits, Prod.mk.injEq] at h
  rw [owed, owed, h.2.2.1, h.2.2.2]

theorem burden_congr (h : d.waits = b.waits) : d.burden = b.burden := by
  have howed := owed_congr h
  simp only [waits, Prod.mk.injEq] at h
  rw [burden, burden, howed, h.1, cycleDots, h.2.1, cycleDots]

theorem writePort_waits (b : Board) (addr : UInt16) (v : UInt8) :
    (b.writePort addr v).value.waits = b.waits ∨
      (b.writePort addr v).value = (b.controlVramDma v).value := by
  unfold writePort
  cases Port.of b.model addr with
  | vramDma =>
    unfold writeVramDma
    dsimp only
    split
    · exact .inr rfl
    · -- the ports of the addresses leave the blocks alone
      refine .inl ?_
      unfold VramDma.writeAddress waits
      split <;> rfl
  | outputMode =>
    simp only [writeOutputMode]
    split <;> exact .inl rfl
  | _ => exact .inl rfl

/-- **Only writes to the control port put anything off.** -/
theorem write_waits (b : Board) (addr : UInt16) (v : UInt8) :
    (b.write addr v).value.waits = b.waits ∨
      (b.write addr v).value = (b.controlVramDma v).value := by
  unfold write
  cases Region.of addr with
  | port => exact writePort_waits b addr v
  | oam =>
    simp only [writeOam]
    split <;> exact .inl rfl
  | _ => exact .inl rfl

/-- **A write puts off 4096 dots at most.** -/
theorem write_burden (b : Board) (addr : UInt16) (v : UInt8) :
    (b.write addr v).value.burden ≤ b.burden + 4096 := by
  rcases write_waits b addr v with hsame | hcontrol
  · rw [burden_congr hsame]
    exact Nat.le_add_right _ _
  · rw [hcontrol]
    exact controlVramDma_burden b v

/-- A speed switch puts off its wait; dots put off before it would be counted at another speed. -/
theorem switchSpeed_burden (h : b.stall = 0) : b.switchSpeed.value.2.burden ≤ b.burden + 8200 := by
  unfold switchSpeed
  split
  · have hwaits : ∀ d : Board, d.vramDma = b.vramDma → d.stall = switchStall →
        d.burden ≤ b.burden + 8200 := by
      intro d hdma hstall
      have hdots := (cycleDots_bounds d).2
      have hwait : 2050 * d.cycleDots ≤ 2050 * 4 := Nat.mul_le_mul_left 2050 hdots
      have howed : d.owed = b.owed := by rw [owed, owed, hdma]
      rw [burden, burden, hstall, howed, switchStall]
      omega
    refine hwaits _ rfl ?_
    show b.stall + switchStall = switchStall
    rw [h, Nat.zero_add]
  · exact Nat.le_add_right _ _

theorem controlVramDma_owed (b : Board) (v : UInt8) : (b.controlVramDma v).value.owed ≤ 128 := by
  have hn := requestedBlocks_le v
  unfold controlVramDma
  dsimp only
  split
  · have howed := withBlocks_owed b hn
    rw [startHBlankDma_value]
    split
    · exact howed
    · have hone := moveBlock_owed (b := b.withBlocks (VramDma.requestedBlocks v)) rfl
      omega
  · split <;> exact Nat.zero_le _

theorem write_owed (h : b.owed ≤ 128) (addr : UInt16) (v : UInt8) :
    (b.write addr v).value.owed ≤ 128 := by
  rcases write_waits b addr v with hsame | hcontrol
  · rwa [owed_congr hsame]
  · rw [hcontrol]
    exact controlVramDma_owed b v

/-- **No more blocks are owed than can be asked for.** -/
theorem reachable_owed (h : Reachable b) : b.owed ≤ 128 := by
  induction h with
  | powerOn | afterBoot => exact Nat.zero_le _
  | insert _ _ ih | mapBoot _ _ ih | setButton _ _ _ ih => exact ih
  | @perform b _ e ih =>
    cases e with
    | read | setInterrupts | clearDivider => exact ih
    | switchSpeed =>
      show b.switchSpeed.value.2.owed ≤ 128
      unfold switchSpeed
      split <;> exact ih
    | write addr v => exact write_owed ih addr v
    | tick =>
      obtain ⟨_, _, ht⟩ := tick_ticks b
      exact Nat.le_trans (Nat.le_trans (Nat.le_add_right _ _) (Nat.le_of_eq ht.owed.symm)) ih

end Board

/-! ## Steps -/

theorem Operand.accesses_le (o : Operand) : o.accesses ≤ 1 := by
  cases o <;> simp [accesses]

theorem Instruction.busCycles_le (ahead : Bool) (i : Instruction) : i.busCycles ahead ≤ 5 := by
  cases i with
  | ld dst src =>
    have hdst := dst.accesses_le
    have hsrc := src.accesses_le
    simp only [busCycles]
    omega
  | ldImm o | inc o | dec o | alu _ o =>
    have ho := o.accesses_le
    simp only [busCycles]
    omega
  | ret cond => cases cond <;> cases ahead <;> simp [busCycles]
  | jr | jp | call => cases ahead <;> simp [busCycles]
  | _ => simp [busCycles]

theorem BitInstruction.busCycles_le (b : BitInstruction) : b.busCycles ≤ 2 := by
  cases b with
  | bit _ o | shift _ o | res _ o | set _ o =>
    have ho := o.accesses_le
    simp only [busCycles]
    omega

namespace Core

open Board (burden)

variable {c d : Core Board} {n : Nat}

/-- The dots spent, and those put off. -/
def spent (c : Core Board) : Nat := c.dots + c.bus.burden

theorem tick_spent (c : Core Board) : c.tick.spent ≤ c.spent + 4 := by
  have hbus := Board.tick_burden c.bus
  have hdots := (Board.cycleDots_bounds c.bus).2
  have htick : c.tick.spent =
      c.dots + (Board.tick c.bus).value.1 + (Board.tick c.bus).value.2.burden := rfl
  rw [htick, spent]
  omega

/-- Every access of the CPU spends or puts off 4100 dots at most. -/
theorem Work.spent (h : Work n c d) : d.spent ≤ c.spent + 4100 * n := by
  induction h with
  | start => exact Nat.le_refl _
  | modify _ f ih => exact ih
  | @tick n c d _ ih =>
    have hone := tick_spent d
    omega
  | @read n c d _ addr ih =>
    have hone : (d.read addr).2.spent ≤ d.spent + 4 := tick_spent _
    omega
  | @write n c d _ addr v ih =>
    have hwrite := Board.write_burden d.bus addr v
    have hone : (d.write addr v).spent ≤
        d.dots + (d.bus.write addr v).value.burden + 4 := tick_spent _
    rw [Core.spent] at ih
    omega

/-- A bus cycle ends with the CPU free. -/
theorem Work.free (h : Work n c d) (hn : n ≠ 0) : d.bus.stall = 0 := by
  have htick : ∀ d : Core Board, d.tick.bus.stall = 0 := by
    intro d
    obtain ⟨_, _, ht⟩ := Board.tick_ticks d.bus
    exact ht.free
  induction h with
  | start => exact absurd rfl hn
  | modify _ f ih => exact ih hn
  | tick => exact htick _
  | read => exact htick _
  | write => exact htick _

theorem plain_work_le {i : Instruction} (c : Core Board) (hi : i.plain) :
    ∃ n ≤ 5, Work n c (c.execute i) := by
  by_cases hp : i = .bitPage
  · have hbits := (decodeBit c.fetch8.1).op.busCycles_le
    exact ⟨_, by omega, hp ▸ bitPage_work c⟩
  · exact ⟨_, Instruction.busCycles_le _ i, execute_work c hi hp⟩

/-- STOP comes right after a bus cycle, so only its own wait can be put off. -/
theorem stop_spent (h : c.bus.stall = 0) : c.stop.spent ≤ c.spent + 8200 := by
  have hswitch := Board.switchSpeed_burden h
  have hwait : c.dots + c.bus.switchSpeed.value.2.burden ≤ c.spent + 8200 := by
    rw [spent]
    omega
  unfold stop
  dsimp only
  split
  · exact hwait
  · split <;> exact hwait

theorem execute_spent (h : c.bus.stall = 0) (i : Instruction) :
    (c.execute i).spent ≤ c.spent + 20500 := by
  cases i using Instruction.byMode with
  | plain i hi =>
    obtain ⟨n, hn, hw⟩ := plain_work_le c hi
    have hspent := hw.spent
    omega
  | stop => exact Nat.le_trans (stop_spent h) (by omega)
  | halt =>
    simp only [execute, halt]
    split <;> exact Nat.le_add_right _ _
  | di | ei | undefined => exact Nat.le_add_right _ _
  | reti =>
    have hspent := (Work.start c).returnFrom.spent
    have hreti : (c.execute .reti).spent = c.returnFrom.spent := rfl
    omega

theorem runInstruction_spent (c : Core Board) : c.runInstruction.spent ≤ c.spent + 24600 := by
  -- one access for the opcode, which also ends every wait that was left over
  have hfetch : c.fetched.spent ≤ c.spent + 4100 * 1 := (fetchOpcode_work c).spent
  have hfree : c.fetched.bus.stall = 0 := (fetchOpcode_work c).free (by decide)
  have hexecute := execute_spent hfree c.decoded
  have hrun : c.runInstruction.spent = (c.fetched.execute c.decoded).spent := by
    rw [runInstruction_eq]
    split <;> rfl
  omega

theorem act_spent (c : Core Board) : c.act.spent ≤ c.spent + 24600 := by
  by_cases hr : c.ready
  · rw [act_of_ready hr]
    exact runInstruction_spent (c.setActivity .running)
  · rcases act_of_not_ready hr with ⟨-, ht⟩ | ⟨-, ht⟩ <;> rw [ht]
    · exact Nat.le_trans (tick_spent c) (by omega)
    · have hidle : ({ c with dots := c.dots + idleDots } : Core Board).spent = c.spent + 4 :=
        Nat.add_right_comm ..
      omega

theorem dispatch_spent (c : Core Board) : c.dispatch.spent ≤ c.spent + 20500 := by
  -- the source is acknowledged between the two writes of the program counter
  obtain ⟨d, hd, hc⟩ := dispatch_work c
  have hbefore : d.spent ≤ c.spent + 4100 * 3 := hd.spent
  have hafter := hc.spent
  have hack : d.acknowledge.2.spent = d.spent := by
    unfold acknowledge
    dsimp only
    split <;> rfl
  omega

/-- **A step spends, and puts off, no more than 45100 dots beyond those put off before it.** -/
theorem step_spent (c : Core Board) : c.step.spent ≤ c.spent + 45100 := by
  have hact := act_spent c
  have hservice : c.act.service.spent ≤ c.act.spent + 20500 := by
    by_cases hint : c.act.interrupted
    · rw [service_of_interrupted hint]
      exact dispatch_spent (c.act.setActivity .running)
    · rcases service_of_not_interrupted hint with hs | ⟨hs, -⟩ <;> rw [hs] <;>
        exact Nat.le_add_right _ _
  rw [step]
  omega

/-- Between steps the CPU is held by a speed switch at most: every other wait is over with the bus
cycle of the access that caused it. -/
theorem Work.stays_free (h : Work n c d) (hfree : c.bus.stall = 0) : d.bus.stall = 0 := by
  induction h with
  | start => exact hfree
  | modify _ f ih => exact ih hfree
  | tick h => exact h.tick.free (Nat.succ_ne_zero _)
  | read h addr => exact (h.read addr).free (Nat.succ_ne_zero _)
  | write h addr v => exact (h.write addr v).free (Nat.succ_ne_zero _)

theorem execute_stall (h : c.bus.stall = 0) (i : Instruction) :
    (c.execute i).bus.stall ≤ Board.switchStall := by
  have hrest : c.bus.stall ≤ Board.switchStall := by
    rw [h]
    exact Nat.zero_le _
  cases i using Instruction.byMode with
  | plain i hi =>
    obtain ⟨n, hw⟩ := plain_work c hi
    rw [hw.stays_free h]
    exact Nat.zero_le _
  | stop =>
    -- nothing but a speed switch holds the CPU beyond its instruction
    have hswitch : c.bus.switchSpeed.value.2.stall ≤ Board.switchStall := by
      unfold Board.switchSpeed
      split
      · show c.bus.stall + Board.switchStall ≤ Board.switchStall
        omega
      · exact hrest
    show c.stop.bus.stall ≤ Board.switchStall
    unfold stop
    dsimp only
    split
    · exact hswitch
    · split <;> exact hswitch
  | halt =>
    simp only [execute, halt]
    split <;> exact hrest
  | di | ei | undefined => exact hrest
  | reti =>
    have hfree : c.returnFrom.bus.stall = 0 := (Work.start c).returnFrom.free (by decide)
    exact Nat.le_trans (Nat.le_of_eq hfree) (Nat.zero_le _)

theorem act_stall (h : c.bus.stall ≤ Board.switchStall) : c.act.bus.stall ≤ Board.switchStall := by
  by_cases hr : c.ready
  · have hfree : (c.setActivity .running).fetched.bus.stall = 0 :=
      (fetchOpcode_work _).free (by decide)
    have hexecute := execute_stall hfree (c.setActivity .running).decoded
    rw [act_of_ready hr, runInstruction_eq]
    split <;> exact hexecute
  · rcases act_of_not_ready hr with ⟨-, ht⟩ | ⟨-, ht⟩ <;> rw [ht]
    · have hfree : c.tick.bus.stall = 0 := (Work.start c).tick.free (by decide)
      rw [hfree]
      exact Nat.zero_le _
    · exact h

/-- **Between steps no more than a speed switch holds the CPU.** -/
theorem step_stall (h : c.bus.stall ≤ Board.switchStall) :
    c.step.bus.stall ≤ Board.switchStall := by
  have hact := act_stall h
  rw [step]
  by_cases hint : c.act.interrupted
  · obtain ⟨d, -, hd⟩ := dispatch_work (c.act.setActivity .running)
    rw [service_of_interrupted hint, hd.free (by decide)]
    exact Nat.zero_le _
  · rcases service_of_not_interrupted hint with hs | ⟨hs, -⟩ <;> rw [hs] <;> exact hact

end Core

namespace Board

variable {b : Board} {cpu : Cpu}

theorem Fills.access {d : Board} (h : Fills b d) : Ppu.Access b.ppu d.ppu := by
  obtain ⟨_, _, _, rfl⟩ := h
  exact .memories ..

theorem writePort_access (b : Board) (addr : UInt16) (v : UInt8) :
    Ppu.Access b.ppu (b.writePort addr v).value.ppu := by
  unfold writePort
  cases Port.of b.model addr with
  | display => exact .port addr v
  | vramDma => exact (writeVramDma_fills b addr v).access
  | vramBank => exact .memories ..
  | outputMode =>
    simp only [writeOutputMode]
    split
    · exact .memories ..
    · exact .refl b.ppu
  | _ => exact .refl b.ppu

/-- **What a write does to the display.** -/
theorem write_access (b : Board) (addr : UInt16) (v : UInt8) :
    Ppu.Access b.ppu (b.write addr v).value.ppu := by
  unfold write
  cases Region.of addr with
  | port => exact writePort_access b addr v
  | vram =>
    obtain ⟨vram, hq⟩ := Ppu.writeVram_eq b.ppu addr v
    rw [Logged.value_pure, hq]
    exact .memories ..
  | oam =>
    simp only [writeOam]
    split
    · exact .refl b.ppu
    · obtain ⟨oam, hq⟩ := Ppu.writeOam_eq b.ppu addr v
      rw [Logged.value_pure, hq]
      exact .memories ..
  | _ => exact .refl b.ppu

theorem switchSpeed_ppu (b : Board) : b.switchSpeed.value.2.ppu = b.ppu := by
  unfold switchSpeed
  split <;> rfl

/-- **Every reachable display that is lit tells the time.** -/
theorem reachable_tellsTime (h : Reachable b) : b.ppu.TellsTime := by
  induction h with
  | powerOn model =>
    intro hon
    exact absurd (hon.symm.trans (Ppu.powerOn_lcdOn model)) (by decide)
  | afterBoot model palettes => exact fun _ => ⟨0, Ppu.handOver_synced model palettes⟩
  | insert _ _ ih | mapBoot _ _ ih | setButton _ _ _ ih => exact ih
  | @perform b h e ih =>
    have hphase := (reachable_steady h).phase
    cases e with
    | read | setInterrupts | clearDivider => exact ih
    | switchSpeed =>
      show b.switchSpeed.value.2.ppu.TellsTime
      rwa [switchSpeed_ppu]
    | write addr v => exact (write_access b addr v).tellsTime hphase ih
    | tick =>
      intro hon
      obtain ⟨_, _, ht⟩ := tick_ticks b
      cases hlit : b.ppu.lcdOn with
      | true =>
        obtain ⟨c, hc⟩ := ih hlit
        exact ⟨_, tick_synced hc⟩
      | false =>
        -- no bus cycle switches the LCD on
        obtain ⟨vram, oam, hdark⟩ := ht.display.dark hlit
        have hoff : (tick b).value.2.ppu.lcdOn = false := by
          rw [hdark]
          exact hlit
        exact absurd (hon.symm.trans hoff) (by decide)

/-- **A CPU in whose time the display has come no further than the time allows**, and at whose start it
had counted `frames` frames and `visible` visible dots. -/
structure OnPace (frames visible : Nat) (c : Core Board) : Prop where
  reachable : Reachable c.bus
  counted : frames ≤ c.bus.ppu.frames
  pace : c.bus.ppu.progress ≤ visible + c.dots

/-- Every access keeps the pace: only bus cycles move the display on. -/
theorem onPace_kept (frames visible : Nat) : Core.Kept (OnPace frames visible) where
  withCpu h _ := ⟨h.reachable, h.counted, h.pace⟩
  instruction h _ _ _ _ := ⟨h.reachable, h.counted, h.pace⟩
  locked h _ _ := ⟨h.reachable, h.counted, h.pace⟩
  tick {c} h := by
    obtain ⟨_, _, ht⟩ := tick_ticks c.bus
    obtain ⟨hpace, hcounted⟩ := ht.display.progress (reachable_steady h.reachable).phase
    have hbefore := h.pace
    refine ⟨h.reachable.perform .tick, Nat.le_trans h.counted hcounted, ?_⟩
    have hdots : c.tick.dots = c.dots + (tick c.bus).value.1 := rfl
    have hbus : c.tick.bus = (tick c.bus).value.2 := rfl
    rw [hdots, hbus]
    omega
  read h _ := ⟨h.reachable, h.counted, h.pace⟩
  write {c} h addr v := by
    have hrests := (write_access c.bus addr v).rests
    exact ⟨h.reachable.perform (.write addr v), Nat.le_trans h.counted (Nat.le_of_eq hrests.1.symm),
      Nat.le_trans hrests.progress h.pace⟩
  clear h s := ⟨h.reachable.perform (.setInterrupts _), h.counted, h.pace⟩
  switchSpeed {c} h := by
    have hppu := switchSpeed_ppu c.bus
    refine ⟨h.reachable.perform .switchSpeed, ?_, ?_⟩
    · exact Nat.le_trans h.counted (Nat.le_of_eq (congrArg Ppu.frames hppu).symm)
    · exact Nat.le_trans (Nat.le_of_eq (congrArg Ppu.progress hppu)) h.pace
  clearDivider h := ⟨h.reachable.perform .clearDivider, h.counted, h.pace⟩

/-- **A step is shorter than the visible dots of a frame.** What it takes was put off before it, or is
bounded by its few accesses. -/
theorem step_dots_le (h : Reachable b) (hstall : b.stall ≤ switchStall) (cpu : Cpu) :
    (cpu.step b).dots ≤ 57396 := by
  -- at most a speed switch and 128 blocks are put off when the step begins
  have hspent : (cpu.step b).spent ≤ 0 + b.burden + 45100 := Core.step_spent { cpu, bus := b }
  have hdots : (cpu.step b).dots ≤ (cpu.step b).spent := Nat.le_add_right _ _
  have howed := reachable_owed h
  have hheld : b.stall * b.cycleDots ≤ 2050 * 4 :=
    Nat.mul_le_mul hstall (cycleDots_bounds b).2
  rw [burden] at hspent
  omega

/-- **A step counts one frame at most**, whatever holds the CPU in it. Visible dots are needed for a
frame, and a step is shorter than those of one. -/
theorem step_frames (h : Reachable b) (hstall : b.stall ≤ switchStall) (cpu : Cpu) :
    Reachable (cpu.step b).bus ∧ b.ppu.frames ≤ (cpu.step b).bus.ppu.frames ∧
      (cpu.step b).bus.ppu.frames ≤ b.ppu.frames + 1 := by
  rcases Core.waits_or_acts { cpu, bus := b } with ⟨ha, hb⟩ | hacts
  · -- a CPU that waits for a button leaves the board alone
    have hs : cpu.step b = _ := Core.step_stopped (c := { cpu, bus := b }) ha hb
    rw [hs]
    exact ⟨h, Nat.le_refl _, Nat.le_succ _⟩
  · have hstart : OnPace b.ppu.frames b.ppu.progress { cpu, bus := b } :=
      ⟨h, Nat.le_refl _, Nat.le_add_right _ _⟩
    obtain ⟨hreach, hcounted, hpace⟩ := Core.step_keeps (onPace_kept _ _) hstart hacts
    have hdots := step_dots_le h hstall cpu
    have hbefore := b.ppu.progress_bounds.2
    have hafter := (cpu.step b).bus.ppu.progress_bounds.1
    have hpace' : (cpu.step b).bus.ppu.progress ≤ b.ppu.progress + (cpu.step b).dots := hpace
    rw [Ppu.visibleDots_eq] at hbefore hafter
    exact ⟨hreach, hcounted, by omega⟩

end Board

end Handheld
