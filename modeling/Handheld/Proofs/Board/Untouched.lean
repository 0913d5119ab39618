import Handheld.Board.Tick
import Handheld.Proofs.Cpu.Invariant
import Mathlib.Tactic.SplitIfs

/-!
# What the board's operations leave alone

Time moves the devices and the transfer engines; the memories, the slot, the buttons and the speed
wait for an access. No access of the CPU changes the hardware or swaps the cartridge.

* `writeVramDma_fills`, `enterHBlank_fills`: blocks go to video memory and nowhere else.
* `tick_elapses`: a bus cycle, with those for which the CPU is held, moves the devices only.
* `Elapses.dmaRead_eq`: a transfer engine finds the same bytes later on.
* `write_plate`: a write leaves the model, the image and its header alone.
* `step_plate`: so does a step of the CPU.
-/

namespace Handheld.Board

variable {b d e : Board}

/-- **Time moves the devices only**: the boards that bus cycles can lead to from `b`. -/
def Elapses (b d : Board) : Prop :=
  ∃ interrupts timer ppu serial oamDma vramDma stall,
    d = { b with interrupts, timer, ppu, serial, oamDma, vramDma, stall }

theorem Elapses.refl (b : Board) : Elapses b b := ⟨_, _, _, _, _, _, _, rfl⟩

theorem Elapses.trans (h : Elapses b d) (h' : Elapses d e) : Elapses b e := by
  obtain ⟨_, _, _, _, _, _, _, rfl⟩ := h
  obtain ⟨_, _, _, _, _, _, _, rfl⟩ := h'
  exact ⟨_, _, _, _, _, _, _, rfl⟩

theorem stepOamDma_elapses (b : Board) : Elapses b b.stepOamDma := by
  unfold stepOamDma
  split
  · exact .refl b
  · split <;> exact ⟨_, _, _, _, _, _, _, rfl⟩

/-- **Blocks go to video memory**: nothing else changes but the engine that copies them and the time
for which it holds the CPU. -/
def Fills (b d : Board) : Prop :=
  ∃ vram vramDma stall, d = { b with ppu := { b.ppu with vram }, vramDma, stall }

theorem Fills.trans (h : Fills b d) (h' : Fills d e) : Fills b e := by
  obtain ⟨_, _, _, rfl⟩ := h
  obtain ⟨_, _, _, rfl⟩ := h'
  exact ⟨_, _, _, rfl⟩

theorem Fills.elapses (h : Fills b d) : Elapses b d := by
  obtain ⟨_, _, _, rfl⟩ := h
  exact ⟨_, _, _, _, _, _, _, rfl⟩

theorem withVramDma_fills (b : Board) (vramDma : VramDma) (stall : Nat) :
    Fills b { b with vramDma, stall } :=
  ⟨_, _, _, rfl⟩

theorem copyVramBytes_fills (n : Nat) (b : Board) : Fills b (copyVramBytes n b) := by
  induction n generalizing b with
  | zero => exact ⟨_, _, _, rfl⟩
  | succ n ih =>
    have hbyte : Fills b b.copyVramByte := ⟨_, _, _, rfl⟩
    exact hbyte.trans (ih b.copyVramByte)

theorem copyBlock_eq (b : Board) :
    b.copyBlock =
      { copyVramBytes 16 b with
        stall := (copyVramBytes 16 b).stall + (copyVramBytes 16 b).blockCost } := by
  unfold copyBlock
  rfl

theorem moveBlock_eq (b : Board) :
    b.moveBlock = { b.copyBlock with vramDma := b.copyBlock.vramDma.blockDone } := by
  unfold moveBlock
  rfl

theorem copyBlock_fills (b : Board) : Fills b b.copyBlock := by
  rw [copyBlock_eq]
  exact (copyVramBytes_fills 16 b).trans (withVramDma_fills _ _ _)

theorem copyBlocks_fills (n : Nat) (b : Board) : Fills b (copyBlocks n b) := by
  induction n generalizing b with
  | zero => exact ⟨_, _, _, rfl⟩
  | succ n ih => exact (copyBlock_fills b).trans (ih b.copyBlock)

theorem moveBlock_fills (b : Board) : Fills b b.moveBlock := by
  rw [moveBlock_eq]
  exact (copyBlock_fills b).trans (withVramDma_fills _ _ _)

theorem moveAll_fills (b : Board) (blocks : Nat) : Fills b (b.moveAll blocks) :=
  (copyBlocks_fills blocks b).trans (withVramDma_fills _ _ _)

theorem enterHBlank_fills (b : Board) : Fills b b.enterHBlank := by
  unfold enterHBlank
  split
  · exact moveBlock_fills b
  · exact ⟨_, _, _, rfl⟩

/-- Nor does a write to a port of that engine change anything else. -/
theorem writeVramDma_fills (b : Board) (addr : UInt16) (v : UInt8) :
    Fills b (b.writeVramDma addr v).value := by
  have hsame (vramDma : VramDma) : Fills b { b with vramDma } := ⟨_, _, _, rfl⟩
  unfold writeVramDma
  split
  · unfold controlVramDma
    simp only
    split
    · unfold startHBlankDma
      simp only
      split
      · exact hsame _
      · exact (hsame _).trans (moveBlock_fills _)
    · split
      · exact hsame _
      · exact moveAll_fills b _
  · exact hsame _

theorem runDisplay_elapses (b : Board) : Elapses b b.runDisplay.value := by
  have hdisplay (ppu : Ppu) (s : Ppu.Signals) : Elapses b (b.withDisplay ppu s) :=
    ⟨_, _, _, _, _, _, _, rfl⟩
  simp only [runDisplay, Logged.value_bind, Logged.value_pure]
  split
  · exact (hdisplay _ _).trans (enterHBlank_fills _).elapses
  · exact hdisplay _ _

theorem cycle_elapses (b : Board) : Elapses b b.cycle.value := by
  have hclocks : Elapses b b.runTimer.runSerial := ⟨_, _, _, _, _, _, _, rfl⟩
  exact (hclocks.trans (stepOamDma_elapses _)).trans (runDisplay_elapses _)

theorem drain_free {p : Progress} (h : p.board.stall = 0) : drain p = p := by
  rw [drain, if_pos h]

theorem drain_held {p : Progress} (h : p.board.stall ≠ 0) :
    drain p = drain { p with board := p.board.release }.cycle := by
  rw [drain, if_neg h]

theorem drain_elapses (p : Progress) : Elapses p.board (drain p).board := by
  induction p using drain.induct with
  | case1 p hstall =>
    rw [drain_free hstall]
    exact .refl _
  | case2 p hstall ih =>
    rw [drain_held hstall]
    have hrelease : Elapses p.board p.board.release := ⟨_, _, _, _, _, _, _, rfl⟩
    exact (hrelease.trans (cycle_elapses _)).trans ih

/-- **A bus cycle moves the devices only**, however long the CPU is held. -/
theorem tick_elapses (b : Board) : Elapses b (tick b).value.2 :=
  (cycle_elapses b).trans (drain_elapses (Progress.cycle ⟨b, 0, []⟩))

/-- The address map in numbers. -/
theorem region_eq (addr : UInt16) :
    Region.of addr =
      if addr.toNat < 0x8000 then .rom
      else if addr.toNat < 0xA000 then .vram
      else if addr.toNat < 0xC000 then .cartridgeRam
      else if addr.toNat < 0xD000 then .workRamFixed
      else if addr.toNat < 0xE000 then .workRamBanked
      else if addr.toNat < 0xF000 then .workRamFixed
      else if addr.toNat < 0xFE00 then .workRamBanked
      else if addr.toNat < 0xFEA0 then .oam
      else if addr.toNat < 0xFF00 then .unusable
      else if addr.toNat < 0xFF80 then .port
      else if addr.toNat < 0xFFFF then .highRam
      else .interruptEnable := by
  simp only [Region.of, UInt16.lt_iff_toNat_lt, UInt16.reduceToNat]

/-- The cell of an address in high RAM. -/
theorem hramCell_val {addr : UInt16} (h : 0xFF80 ≤ addr.toNat) (h' : addr.toNat < 0xFFFF) :
    (hramCell addr).val = addr.toNat - 0xFF80 := by
  unfold hramCell
  dsimp only
  omega

theorem region_oam {addr : UInt16} (h : 0xFE00 ≤ addr) (h' : addr < 0xFEA0) :
    Region.of addr = .oam := by
  have hlow {a : UInt16} (ha : a ≤ 0xFE00) : ¬ addr < a := UInt16.not_lt.2 (UInt16.le_trans ha h)
  unfold Region.of
  iterate 7 rw [if_neg (hlow (by decide))]
  rw [if_pos h']

theorem region_port {addr : UInt16} (h : 0xFF00 ≤ addr) (h' : addr ≤ 0xFF7F) :
    Region.of addr = .port := by
  have hlow {a : UInt16} (ha : a ≤ 0xFF00) : ¬ addr < a := UInt16.not_lt.2 (UInt16.le_trans ha h)
  unfold Region.of
  iterate 9 rw [if_neg (hlow (by decide))]
  rw [if_pos (UInt16.lt_of_le_of_lt h' (by decide))]

theorem region_ne_vram {addr : UInt16} (h : addr < 0x8000 ∨ 0xA000 ≤ addr) :
    Region.of addr ≠ .vram := by
  unfold Region.of
  rcases h with h | h
  · rw [if_pos h]
    decide
  · have hlow {a : UInt16} (ha : a ≤ 0xA000) : ¬ addr < a := UInt16.not_lt.2 (UInt16.le_trans ha h)
    rw [if_neg (hlow (by decide)), if_neg (hlow (by decide))]
    -- nothing above is video memory again
    repeat refine iteInduction (motive := (· ≠ Region.vram)) (fun _ => by decide) fun _ => ?_
    decide

/-- Some devices answer at one port only. -/
theorem port_address {model : Model} {addr : UInt16} :
    (Port.of model addr = .joypad → addr = 0xFF00) ∧
      (Port.of model addr = .interruptFlags → addr = 0xFF0F) ∧
      (Port.of model addr = .oamDma → addr = 0xFF46) := by
  refine ⟨?_, ?_, ?_⟩ <;>
  · intro h
    unfold Port.of Port.ofColor at h
    split at h <;> first | rfl | cases h | skip
    split_ifs at h
    split at h <;> cases h

/-- The addresses in the reach of a transfer engine are wired to the slot and the memories. -/
theorem region_of_lt {addr : UInt16} (h : addr < 0xFE00) :
    Region.of addr = .rom ∨ Region.of addr = .vram ∨ Region.of addr = .cartridgeRam ∨
      Region.of addr = .workRamFixed ∨ Region.of addr = .workRamBanked := by
  unfold Region.of
  split_ifs <;> simp

theorem dmaRead_of_lt (b : Board) {addr : UInt16} (h : addr < 0xFE00) :
    b.dmaRead addr = b.read addr :=
  if_pos h

theorem dmaRead_of_le (b : Board) {addr : UInt16} (h : 0xFE00 ≤ addr) : b.dmaRead addr = 0xFF :=
  if_neg (UInt16.not_lt.2 h)

/-- **Time changes nothing that a transfer engine finds**, outside of video memory. -/
theorem Elapses.dmaRead_eq (h : Elapses b d) {addr : UInt16}
    (hv : Region.of addr = .vram → d.ppu.readVram addr = b.ppu.readVram addr) :
    d.dmaRead addr = b.dmaRead addr := by
  unfold dmaRead
  split
  · rename_i hlt
    unfold read
    rcases region_of_lt hlt with hr | hr | hr | hr | hr <;> simp only [hr]
    case inr.inl => exact hv hr
    all_goals
      obtain ⟨_, _, _, _, _, _, _, rfl⟩ := h
      rfl
  · rfl

/-- The model, and the image in the slot with its header. -/
def plate (b : Board) : Model × Option (ByteArray × Header) :=
  (b.model, b.cartridge.map fun c => (c.rom, c.header))

theorem plate_isSome (b : Board) : b.plate.2.isSome = b.cartridge.isSome := by
  unfold plate
  cases b.cartridge <;> rfl

theorem Elapses.plate_eq (h : Elapses b d) : d.plate = b.plate := by
  obtain ⟨_, _, _, _, _, _, _, rfl⟩ := h
  rfl

/-- A cartridge answers a write with its bank registers and its RAM. -/
theorem cartridge_write_eq (c : Cartridge) (addr : UInt16) (v : UInt8) :
    ∃ ram banking, c.write addr v = { c with ram, banking } := by
  unfold Cartridge.write Cartridge.writeRam
  split
  · split
    · exact ⟨_, _, rfl⟩
    · exact ⟨_, _, rfl⟩
  · exact ⟨_, _, rfl⟩

theorem writeCartridge_plate (b : Board) (addr : UInt16) (v : UInt8) :
    (b.writeCartridge addr v).plate = b.plate := by
  have hc (c : Cartridge) : ((c.write addr v).rom, (c.write addr v).header) = (c.rom, c.header) := by
    obtain ⟨ram, banking, hw⟩ := cartridge_write_eq c addr v
    rw [hw]
  unfold plate writeCartridge
  cases b.cartridge with
  | none => rfl
  | some c => simp only [Option.map_some, hc]

theorem writePort_plate (b : Board) (addr : UInt16) (v : UInt8) :
    (b.writePort addr v).value.plate = b.plate := by
  unfold writePort
  cases Port.of b.model addr with
  | vramDma => exact (writeVramDma_fills b addr v).elapses.plate_eq
  | outputMode =>
    simp only [writeOutputMode]
    split <;> rfl
  | _ => rfl

/-- **A write leaves the model, the image and its header alone.** -/
theorem write_plate (b : Board) (addr : UInt16) (v : UInt8) :
    (b.write addr v).value.plate = b.plate := by
  unfold write
  cases Region.of addr with
  | rom | cartridgeRam => exact writeCartridge_plate b addr v
  | port => exact writePort_plate b addr v
  | oam =>
    simp only [writeOam]
    split <;> rfl
  | _ => rfl

theorem switchSpeed_plate (b : Board) : b.switchSpeed.value.2.plate = b.plate := by
  unfold switchSpeed
  split <;> rfl

/-- Every access of the CPU leaves the plate alone. -/
theorem plate_kept (p : Model × Option (ByteArray × Header)) :
    Core.Kept fun c : Core Board => c.bus.plate = p where
  withCpu h _ := h
  instruction h _ _ _ _ := h
  locked h _ _ := h
  tick {c} h := ((tick_elapses c.bus).plate_eq).trans h
  read h _ := h
  write {c} h addr v := (write_plate c.bus addr v).trans h
  clear h _ := h
  switchSpeed {c} h := (switchSpeed_plate c.bus).trans h
  clearDivider h := h

/-- **A step of the CPU leaves the model, the image and its header alone.** -/
theorem step_plate (cpu : Cpu) (b : Board) : (cpu.step b).bus.plate = b.plate := by
  rcases Core.waits_or_acts { cpu, bus := b } with ⟨ha, hb⟩ | hacts
  · have hs : cpu.step b = _ := Core.step_stopped (c := { cpu, bus := b }) ha hb
    rw [hs]
  · exact Core.step_keeps (c := { cpu, bus := b }) (plate_kept b.plate) rfl hacts

end Handheld.Board
