import Handheld.Proofs.Board.Clock
import Handheld.Proofs.Checked.Cartridge
import Handheld.Proofs.Checked.Display
import Handheld.Proofs.Checked.Peripherals

/-!
# The checked board

Addresses lead to tables: of pages, of ports, and behind them of the memories. The two transfer
engines count bytes and blocks, and each block lengthens the time for which the CPU is held.

* `Board.InRange`: what makes every place on the board exist.
* `Board.checkedRead_eq`: reading any address.
* `Board.checkedStepOamDma_eq`, `Board.checkedMoveAll_eq`: the transfer engines.
* `Board.checkedWrite_eq`: writing to any address, while the CPU is not held; the invariant stays.
-/

namespace Handheld.Board

open Checked

variable {b d : Board}

/-- **The invariant of a board.** -/
structure InRange (b : Board) : Prop where
  ppu : Ppu.Reachable b.model b.ppu
  wramBank : b.wramBank.toNat < b.model.wramBanks
  cartridge : ∀ c, b.cartridge = some c → c.InRange
  blocks : b.vramDma.blocks ≤ 0x80

/-- Neither registers and memories nor the devices around the display decide which places exist. -/
theorem InRange.withDevices (h : b.InRange) (wram : Vector UInt8 0x8000) (hram : Vector UInt8 0x7F)
    (boot : Option ByteArray) (interrupts : Interrupts) (timer : Timer) (joypad : Joypad)
    (serial : Serial) (sound : Sound) (doubleSpeed speedArmed : Bool) (oamDmaPage : UInt8)
    (oamDma : Option OamDma) (stall : Nat) :
    InRange { b with
      wram, hram, boot, interrupts, timer, joypad, serial, sound, doubleSpeed, speedArmed,
      oamDmaPage, oamDma, stall } :=
  ⟨h.ppu, h.wramBank, h.cartridge, h.blocks⟩

/-- The display after an operation is as reachable as before it. -/
theorem InRange.withDisplay (h : b.InRange) (op : Ppu.Operation) :
    InRange { b with ppu := b.ppu.perform op } :=
  ⟨h.ppu.perform op, h.wramBank, h.cartridge, h.blocks⟩

theorem InRange.withCartridge (h : b.InRange) {c : Cartridge} (hc : c.InRange) :
    InRange { b with cartridge := some c } :=
  ⟨h.ppu, h.wramBank, fun _ he => Option.some.inj he ▸ hc, h.blocks⟩

theorem InRange.withVramDma (h : b.InRange) {vramDma : VramDma} (hb : vramDma.blocks ≤ 0x80) :
    InRange { b with vramDma } :=
  ⟨h.ppu, h.wramBank, h.cartridge, hb⟩

/-- The region of an address, from the table of pages. -/
def checkedRegion (addr : UInt16) : Checked Region := do
  let _ ← place 0x100 (addr.toNat / 0x100)
  return Region.of addr

/-- The device at a port, from the table of ports. -/
def checkedPort (model : Model) (addr : UInt16) : Checked Port := do
  let _ ← place 0x80 (addr.toNat % 0x80)
  return Port.of model addr

theorem checkedRegion_eq (addr : UInt16) : checkedRegion addr = .ok (Region.of addr) := by
  have haddr := addr.toNat_lt
  rw [checkedRegion, place_ok (by omega)]
  rfl

theorem checkedPort_eq (model : Model) (addr : UInt16) :
    checkedPort model addr = .ok (Port.of model addr) := by
  rw [checkedPort, place_ok (Nat.mod_lt _ (by decide))]
  rfl

/-- The decoder comes to a region after it has passed those before. -/
theorem passed {c : Prop} [Decidable c] {r other rest : Region}
    (h : (if c then other else rest) = r) (hne : other ≠ r) : ¬c ∧ rest = r := by
  by_cases hc : c
  · exact absurd ((if_pos hc).symm.trans h) hne
  · exact ⟨hc, (if_neg hc).symm.trans h⟩

/-- The regions of the last two pages. -/
theorem lastPages {addr : UInt16} {r : Region} (h : Region.of addr = r)
    (hr : r = .oam ∨ r = .unusable ∨ r = .highRam) :
    ¬addr < 0xFE00 ∧
      (if addr < 0xFEA0 then Region.oam
        else if addr < 0xFF00 then .unusable
        else if addr < 0xFF80 then .port
        else if addr < 0xFFFF then .highRam
        else .interruptEnable) = r := by
  have hne : Region.rom ≠ r ∧ Region.vram ≠ r ∧ Region.cartridgeRam ≠ r ∧
      Region.workRamFixed ≠ r ∧ Region.workRamBanked ≠ r := by
    rcases hr with rfl | rfl | rfl <;> decide
  obtain ⟨hrom, hvram, hram, hfixed, hbanked⟩ := hne
  obtain ⟨-, h⟩ := passed h hrom
  obtain ⟨-, h⟩ := passed h hvram
  obtain ⟨-, h⟩ := passed h hram
  obtain ⟨-, h⟩ := passed h hfixed
  obtain ⟨-, h⟩ := passed h hbanked
  obtain ⟨-, h⟩ := passed h hfixed
  exact passed h hbanked

theorem oam_bounds {addr : UInt16} (h : Region.of addr = .oam) :
    0xFE00 ≤ addr.toNat ∧ addr.toNat < 0xFEA0 := by
  obtain ⟨hlow, h⟩ := lastPages h (.inl rfl)
  refine ⟨UInt16.le_iff_toNat_le.1 (UInt16.not_lt.1 hlow), ?_⟩
  by_cases hhigh : addr < 0xFEA0
  · exact UInt16.lt_iff_toNat_lt.1 hhigh
  · rw [if_neg hhigh] at h
    obtain ⟨-, h⟩ := passed h (by decide)
    obtain ⟨-, h⟩ := passed h (by decide)
    obtain ⟨-, h⟩ := passed h (by decide)
    cases h

theorem unusable_bounds {addr : UInt16} (h : Region.of addr = .unusable) :
    0xFEA0 ≤ addr.toNat := by
  obtain ⟨-, h⟩ := lastPages h (.inr (.inl rfl))
  obtain ⟨hlow, -⟩ := passed h (by decide)
  exact UInt16.le_iff_toNat_le.1 (UInt16.not_lt.1 hlow)

theorem highRam_bounds {addr : UInt16} (h : Region.of addr = .highRam) :
    0xFF80 ≤ addr.toNat ∧ addr.toNat < 0xFFFF := by
  obtain ⟨-, h⟩ := lastPages h (.inr (.inr rfl))
  obtain ⟨-, h⟩ := passed h (by decide)
  obtain ⟨-, h⟩ := passed h (by decide)
  obtain ⟨hlow, h⟩ := passed h (by decide)
  refine ⟨UInt16.le_iff_toNat_le.1 (UInt16.not_lt.1 hlow), ?_⟩
  by_cases hhigh : addr < 0xFFFF
  · exact UInt16.lt_iff_toNat_lt.1 hhigh
  · rw [if_neg hhigh] at h
    cases h

def checkedWramByte (b : Board) (bank : UInt8) (addr : UInt16) : Checked UInt8 := do
  let _ ← place b.model.wramBanks bank.toNat
  let _ ← place 0x1000 (addr.toNat % 0x1000)
  return b.wramByte bank addr

def checkedHramByte (b : Board) (addr : UInt16) : Checked UInt8 := do
  let i ← minus addr.toNat 0xFF80
  get b.hram i

def checkedCartridgeByte (b : Board) (addr : UInt16) : Checked UInt8 :=
  match b.cartridge with
  | some c => c.checkedRead addr
  | none => return 0xFF

def checkedReadPort (b : Board) (addr : UInt16) : Checked UInt8 := do
  match ← checkedPort b.model addr with
  | .sound => b.sound.checkedRead addr
  | .display => b.ppu.checkedReadPort addr
  | _ => return b.readPort addr

/-- The object memory as the CPU reads it; the gap after it is on the same page. -/
def checkedReadOam (b : Board) (addr : UInt16) : Checked UInt8 := do
  let i ← minus addr.toNat 0xFE00
  if Ppu.oamSize ≤ i ∨ b.oamBusy then return 0xFF else b.ppu.checkedReadOam addr

def checkedRead (b : Board) (addr : UInt16) : Checked UInt8 := do
  match ← checkedRegion addr with
  | .rom =>
    match b.bootByte? addr with
    | some v => return v
    | none => b.checkedCartridgeByte addr
  | .vram => b.ppu.checkedReadVram addr
  | .cartridgeRam => b.checkedCartridgeByte addr
  | .workRamFixed => b.checkedWramByte 0 addr
  | .workRamBanked => b.checkedWramByte b.wramBank addr
  | .oam | .unusable => b.checkedReadOam addr
  | .port => b.checkedReadPort addr
  | .highRam => b.checkedHramByte addr
  | .interruptEnable => return b.interrupts.readEnable

def checkedDmaRead (b : Board) (addr : UInt16) : Checked UInt8 :=
  if addr < 0xFE00 then b.checkedRead addr else return 0xFF

theorem checkedWramByte_eq {bank : UInt8} (h : bank.toNat < b.model.wramBanks) (addr : UInt16) :
    b.checkedWramByte bank addr = .ok (b.wramByte bank addr) := by
  rw [checkedWramByte, place_ok h, ok_bind, place_ok (Nat.mod_lt _ (by decide))]
  rfl

theorem wramBanks_pos (model : Model) : (0 : UInt8).toNat < model.wramBanks := by
  cases model <;> decide

theorem checkedHramByte_eq {addr : UInt16} (h : 0xFF80 ≤ addr.toNat) (h' : addr.toNat < 0xFFFF) :
    b.checkedHramByte addr = .ok (b.hramByte addr) := by
  have hi : addr.toNat - 0xFF80 < 0x7F := by omega
  have hcell := hramCell_val h h'
  rw [checkedHramByte, minus_ok h, ok_bind, get_ok _ hi, hramByte]
  simp only [Fin.getElem_fin, hcell]

theorem checkedCartridgeByte_eq (h : b.InRange) (addr : UInt16) :
    b.checkedCartridgeByte addr = .ok (b.cartridgeByte addr) := by
  unfold checkedCartridgeByte cartridgeByte
  cases hc : b.cartridge with
  | none => rfl
  | some c => exact Cartridge.checkedRead_eq (h.cartridge c hc) addr

theorem checkedReadPort_eq (b : Board) (addr : UInt16) :
    b.checkedReadPort addr = .ok (b.readPort addr) := by
  unfold checkedReadPort
  rw [checkedPort_eq, ok_bind]
  cases hp : Port.of b.model addr with
  | sound =>
    have hread : b.readPort addr = b.sound.read addr := by
      unfold readPort
      rw [hp]
    rw [hread]
    exact b.sound.checkedRead_eq addr
  | display =>
    have hread : b.readPort addr = b.ppu.readPort addr := by
      unfold readPort
      rw [hp]
    rw [hread]
    exact b.ppu.checkedReadPort_eq addr
  | _ => rfl

theorem checkedReadOam_eq (b : Board) {addr : UInt16} (h : 0xFE00 ≤ addr.toNat)
    (h' : addr.toNat < 0xFEA0) :
    b.checkedReadOam addr = .ok (if b.oamBusy then 0xFF else b.ppu.readOam addr) := by
  have hi : ¬Ppu.oamSize ≤ addr.toNat - 0xFE00 := by
    unfold Ppu.oamSize
    omega
  rw [checkedReadOam, minus_ok h, ok_bind, b.ppu.checkedReadOam_eq h h']
  simp only [hi, false_or, pure_eq_ok, ite_ok]

theorem checkedReadOam_gap (b : Board) {addr : UInt16} (h : 0xFEA0 ≤ addr.toNat) :
    b.checkedReadOam addr = .ok 0xFF := by
  have hi : Ppu.oamSize ≤ addr.toNat - 0xFE00 := by
    unfold Ppu.oamSize
    omega
  rw [checkedReadOam, minus_ok (Nat.le_trans (by decide) h), ok_bind, if_pos (.inl hi)]
  rfl

/-- **Any address is read without fault.** -/
theorem checkedRead_eq (h : b.InRange) (addr : UInt16) :
    b.checkedRead addr = .ok (b.read addr) := by
  unfold checkedRead read
  rw [checkedRegion_eq, ok_bind]
  cases hr : Region.of addr with
  | rom =>
    dsimp only
    cases b.bootByte? addr with
    | some v => rfl
    | none => exact checkedCartridgeByte_eq h addr
  | vram => exact b.ppu.checkedReadVram_eq addr
  | cartridgeRam => exact checkedCartridgeByte_eq h addr
  | workRamFixed => exact checkedWramByte_eq (wramBanks_pos _) addr
  | workRamBanked => exact checkedWramByte_eq h.wramBank addr
  | oam =>
    obtain ⟨hlow, hhigh⟩ := oam_bounds hr
    exact b.checkedReadOam_eq hlow hhigh
  | unusable => exact b.checkedReadOam_gap (unusable_bounds hr)
  | port => exact b.checkedReadPort_eq addr
  | highRam =>
    obtain ⟨hlow, hhigh⟩ := highRam_bounds hr
    exact checkedHramByte_eq hlow hhigh
  | interruptEnable => rfl

theorem checkedDmaRead_eq (h : b.InRange) (addr : UInt16) :
    b.checkedDmaRead addr = .ok (b.dmaRead addr) := by
  rw [checkedDmaRead, dmaRead, checkedRead_eq h, pure_eq_ok, ite_ok]

/-! ## Transfers -/

/-- The page that a transfer reads: the last ones stand for those of work RAM that they echo. -/
def checkedSourcePage (page : UInt8) : Checked UInt8 :=
  if page ≥ 0xE0 then do
    let page ← minus page.toNat 0x20
    return page.toUInt8
  else return page

def checkedStartOamDma (b : Board) (page : UInt8) : Checked Board := do
  let source ← checkedSourcePage page
  return { b with
    oamDmaPage := page
    oamDma := some { OamDma.start page with source := word source 0 } }

def checkedCopyOamByte (b : Board) (d : OamDma) : Checked Board := do
  let v ← b.checkedDmaRead d.address
  let ppu ← b.ppu.checkedSetOam d.index v
  let index ← unsigned 16 (d.index + 1)
  return { b with
    ppu
    oamDma := if h : index < Ppu.oamSize then some { d with index := ⟨index, h⟩ } else none }

def checkedStepOamDma (b : Board) : Checked Board :=
  match b.oamDma with
  | none => return b
  | some d =>
    if d.delay = 0 then b.checkedCopyOamByte d
    else do
      let delay ← minus d.delay 1
      return { b with oamDma := some { d with delay } }

def checkedCopyVramByte (b : Board) : Checked Board := do
  let v ← b.checkedDmaRead b.vramDma.source
  let ppu ← b.ppu.checkedSetVram b.ppu.vramUpper (b.vramDma.target.toNat % 0x2000) v
  return { b with ppu, vramDma := b.vramDma.advance }

def checkedCopyVramBytes : Nat → Board → Checked Board
  | 0, b => return b
  | n + 1, b => do
    let b ← b.checkedCopyVramByte
    checkedCopyVramBytes n b

def checkedCopyBlock (b : Board) : Checked Board := do
  let b ← checkedCopyVramBytes 16 b
  let stall ← unsigned 32 (b.stall + b.blockCost)
  return { b with stall }

def checkedCopyBlocks : Nat → Board → Checked Board
  | 0, b => return b
  | n + 1, b => do
    let b ← b.checkedCopyBlock
    checkedCopyBlocks n b

def checkedMoveBlock (b : Board) : Checked Board := do
  let b ← b.checkedCopyBlock
  return { b with vramDma := b.vramDma.blockDone }

def checkedMoveAll (b : Board) (blocks : Nat) : Checked Board := do
  let b ← checkedCopyBlocks blocks b
  return { b with vramDma := b.vramDma.allDone }

/-- The board with blocks to copy in the horizontal blanks. -/
def withBlocks (b : Board) (blocks : Nat) : Board :=
  { b with vramDma.blocks := blocks, vramDma.active := true }

def checkedStartHBlankDma (b : Board) (blocks : Nat) : Checked Board :=
  if b.ppu.lcdOn then return b.withBlocks blocks else (b.withBlocks blocks).checkedMoveBlock

def checkedControlVramDma (b : Board) (v : UInt8) : Checked Board := do
  let blocks ← unsigned 8 ((v &&& 0x7F).toNat + 1)
  if v &&& 0x80 != 0 then b.checkedStartHBlankDma blocks
  else if b.vramDma.active then return b.cancelVramDma.value
  else b.checkedMoveAll blocks

def checkedWriteVramDma (b : Board) (addr : UInt16) (v : UInt8) : Checked Board :=
  if addr = 0xFF55 then b.checkedControlVramDma v
  else return { b with vramDma := b.vramDma.writeAddress addr v }

theorem checkedSourcePage_eq (page : UInt8) :
    checkedSourcePage page = .ok (if page ≥ 0xE0 then page - 0x20 else page) := by
  unfold checkedSourcePage
  split
  · rename_i he
    have hlow : (0x20 : UInt8) ≤ page := UInt8.le_trans (by decide) he
    have hlow' : 0x20 ≤ page.toNat := UInt8.le_iff_toNat_le.1 hlow
    have hsub : (page.toNat - 0x20).toUInt8 = page - 0x20 := by
      have hlt := page.toNat_lt
      rw [← UInt8.toNat_inj, UInt8.toNat_sub_of_le _ _ hlow]
      exact Nat.mod_eq_of_lt (by omega)
    rw [minus_ok hlow', ok_bind, hsub]
    rfl
  · rfl

theorem checkedStartOamDma_eq (b : Board) (page : UInt8) :
    b.checkedStartOamDma page = .ok (b.startOamDma page).value := by
  rw [checkedStartOamDma, checkedSourcePage_eq]
  rfl

theorem checkedCopyOamByte_eq (h : b.InRange) (d : OamDma) :
    b.checkedCopyOamByte d = .ok (b.copyOamByte d) := by
  have hindex : d.index.val + 1 < 2 ^ 16 := by
    have hlt : d.index.val < 0xA0 := d.index.isLt
    omega
  rw [checkedCopyOamByte, checkedDmaRead_eq h, ok_bind, Ppu.checkedSetOam_eq, ok_bind,
    unsigned_ok hindex]
  rfl

/-- **A transfer into object memory goes on without fault.** -/
theorem checkedStepOamDma_eq (h : b.InRange) : b.checkedStepOamDma = .ok b.stepOamDma := by
  unfold checkedStepOamDma stepOamDma
  cases b.oamDma with
  | none => rfl
  | some d =>
    dsimp only
    cases hd : d.delay with
    | zero => exact checkedCopyOamByte_eq h d
    | succ n => rfl

theorem checkedCopyVramByte_eq (h : b.InRange) :
    b.checkedCopyVramByte = .ok b.copyVramByte := by
  rw [checkedCopyVramByte, checkedDmaRead_eq h, ok_bind, Ppu.checkedSetVram_eq]
  rfl

theorem InRange.copyVramByte (h : b.InRange) : b.copyVramByte.InRange :=
  (h.withDisplay (.moveVram b.ppu.vramUpper b.vramDma.target.toNat
    (b.dmaRead b.vramDma.source))).withVramDma h.blocks

theorem checkedCopyVramBytes_eq (n : Nat) (h : b.InRange) :
    checkedCopyVramBytes n b = .ok (copyVramBytes n b) ∧ (copyVramBytes n b).InRange := by
  induction n generalizing b with
  | zero => exact ⟨rfl, h⟩
  | succ n ih =>
    obtain ⟨heq, hok⟩ := ih h.copyVramByte
    refine ⟨?_, hok⟩
    rw [checkedCopyVramBytes, checkedCopyVramByte_eq h, ok_bind]
    exact heq

/-- A block that finds the CPU held for some time holds it a little longer. -/
theorem checkedCopyBlock_eq (h : b.InRange) (hs : b.stall + 16 < 2 ^ 32) :
    b.checkedCopyBlock = .ok b.copyBlock ∧ b.copyBlock.InRange ∧ b.copyBlock.stall ≤ b.stall + 16 ∧
      b.copyBlock.vramDma.blocks = b.vramDma.blocks := by
  obtain ⟨heq, hok⟩ := checkedCopyVramBytes_eq 16 h
  have hstall := copyVramBytes_stall 16 b
  have hblocks := copyVramBytes_blocks 16 b
  have hcost := blockCost_le (copyVramBytes 16 b)
  rw [checkedCopyBlock, heq, ok_bind, copyBlock_eq]
  generalize copyVramBytes 16 b = c at *
  rw [unsigned_ok (by omega)]
  exact ⟨rfl, hok.withDevices .., by dsimp only; omega, hblocks⟩

theorem checkedCopyBlocks_eq (n : Nat) (h : b.InRange) (hs : b.stall + 16 * n < 2 ^ 32) :
    checkedCopyBlocks n b = .ok (copyBlocks n b) ∧ (copyBlocks n b).InRange ∧
      (copyBlocks n b).stall ≤ b.stall + 16 * n := by
  induction n generalizing b with
  | zero => exact ⟨rfl, h, Nat.le_refl _⟩
  | succ n ih =>
    obtain ⟨heq, hok, hstall, -⟩ := checkedCopyBlock_eq h (by omega)
    obtain ⟨heq', hok', hstall'⟩ := ih hok (by omega)
    rw [checkedCopyBlocks, heq, ok_bind, copyBlocks]
    exact ⟨heq', hok', by omega⟩

theorem blockDone_blocks_le (d : VramDma) : d.blockDone.blocks ≤ d.blocks := Nat.sub_le ..

theorem checkedMoveBlock_eq (h : b.InRange) (hs : b.stall + 16 < 2 ^ 32) :
    b.checkedMoveBlock = .ok b.moveBlock ∧ b.moveBlock.InRange := by
  obtain ⟨heq, hok, -, hblocks⟩ := checkedCopyBlock_eq h hs
  have hle := h.blocks
  rw [checkedMoveBlock, heq, ok_bind, moveBlock_eq]
  generalize b.copyBlock = c at *
  have hdone := blockDone_blocks_le c.vramDma
  exact ⟨rfl, hok.withVramDma (by omega)⟩

/-- **All blocks are copied without fault**, if the CPU is not held yet. -/
theorem checkedMoveAll_eq (h : b.InRange) (hs : b.stall = 0) {blocks : Nat} (hn : blocks ≤ 0x80) :
    b.checkedMoveAll blocks = .ok (b.moveAll blocks) ∧ (b.moveAll blocks).InRange ∧
      (b.moveAll blocks).pressure ≤ 2048 := by
  obtain ⟨heq, hok, hstall⟩ := checkedCopyBlocks_eq blocks h (by omega)
  rw [checkedMoveAll, heq, ok_bind]
  refine ⟨rfl, hok.withVramDma (Nat.zero_le _), ?_⟩
  show (copyBlocks blocks b).stall + 0 ≤ 2048
  omega

theorem requestedBlocks_le (v : UInt8) : VramDma.requestedBlocks v ≤ 0x80 :=
  forall_byte (P := fun v => VramDma.requestedBlocks v ≤ 0x80) (by decide +kernel) v

/-- The pressure of a board on which the CPU is not held. -/
def restingPressure : Nat := 17 * 0x80

theorem InRange.pressure_le (h : b.InRange) : b.pressure ≤ b.stall + restingPressure := by
  have hblocks := h.blocks
  unfold pressure restingPressure
  split <;> omega

theorem InRange.resting (h : b.InRange) (hs : b.stall = 0) : b.pressure ≤ restingPressure := by
  have hp := h.pressure_le
  omega

theorem InRange.withBlocks (h : b.InRange) {blocks : Nat} (hn : blocks ≤ 0x80) :
    (b.withBlocks blocks).InRange :=
  h.withVramDma hn

theorem startHBlankDma_value (b : Board) (blocks : Nat) :
    (b.startHBlankDma blocks).value =
      if b.ppu.lcdOn then b.withBlocks blocks else (b.withBlocks blocks).moveBlock :=
  rfl

theorem checkedStartHBlankDma_eq (h : b.InRange) (hs : b.stall = 0) {blocks : Nat}
    (hn : blocks ≤ 0x80) :
    b.checkedStartHBlankDma blocks = .ok (b.startHBlankDma blocks).value ∧
      (b.startHBlankDma blocks).value.InRange ∧
      (b.startHBlankDma blocks).value.pressure ≤ restingPressure := by
  have hok := h.withBlocks hn
  have hstall : (b.withBlocks blocks).stall = 0 := hs
  have hactive : (b.withBlocks blocks).vramDma.active = true := rfl
  rw [startHBlankDma_value, checkedStartHBlankDma]
  generalize b.withBlocks blocks = c at *
  have hp := hok.resting hstall
  split
  · exact ⟨rfl, hok, hp⟩
  · -- the first block is copied at once
    obtain ⟨heq, hok'⟩ := checkedMoveBlock_eq hok (by omega)
    exact ⟨heq, hok', Nat.le_trans (pressure_moveBlock_le hactive) hp⟩

theorem checkedControlVramDma_eq (h : b.InRange) (hs : b.stall = 0) (v : UInt8) :
    b.checkedControlVramDma v = .ok (b.controlVramDma v).value ∧
      (b.controlVramDma v).value.InRange ∧
      (b.controlVramDma v).value.pressure ≤ restingPressure := by
  have hn := requestedBlocks_le v
  have hwidth : (v &&& 0x7F).toNat + 1 < 2 ^ 8 := Nat.lt_of_le_of_lt hn (by decide)
  unfold checkedControlVramDma controlVramDma
  rw [unsigned_ok hwidth, ok_bind]
  dsimp only
  split
  · exact checkedStartHBlankDma_eq h hs hn
  · split
    · have hok : b.cancelVramDma.value.InRange := h.withVramDma h.blocks
      exact ⟨rfl, hok, hok.resting hs⟩
    · obtain ⟨heq, hok, hp⟩ := checkedMoveAll_eq h hs hn
      exact ⟨heq, hok, Nat.le_trans hp (by decide)⟩

theorem checkedWriteVramDma_eq (h : b.InRange) (hs : b.stall = 0) (addr : UInt16) (v : UInt8) :
    b.checkedWriteVramDma addr v = .ok (b.writeVramDma addr v).value ∧
      (b.writeVramDma addr v).value.InRange ∧
      (b.writeVramDma addr v).value.pressure ≤ restingPressure := by
  unfold checkedWriteVramDma writeVramDma
  split
  · exact checkedControlVramDma_eq h hs v
  · have hsame : (b.vramDma.writeAddress addr v).blocks = b.vramDma.blocks := by
      unfold VramDma.writeAddress
      split <;> rfl
    have hok : ({ b with vramDma := b.vramDma.writeAddress addr v } : Board).InRange :=
      h.withVramDma (hsame ▸ h.blocks)
    exact ⟨rfl, hok, hok.resting hs⟩

/-! ## Writing -/

def checkedWritePort (b : Board) (addr : UInt16) (v : UInt8) : Checked Board := do
  match ← checkedPort b.model addr with
  | .timer => do
    let r ← b.timer.checkedWrite addr v
    return b.withTimer r
  | .sound => do
    let sound ← b.sound.checkedWrite addr v
    return { b with sound }
  | .display => do
    let ppu ← b.ppu.checkedWritePort addr v
    return b.withPpu ppu
  | .oamDma => b.checkedStartOamDma v
  | .vramDma => b.checkedWriteVramDma addr v
  | _ => return (b.writePort addr v).value

def checkedWriteCartridge (b : Board) (addr : UInt16) (v : UInt8) : Checked Board :=
  match b.cartridge with
  | none => return b
  | some c => do
    let c ← c.checkedWrite addr v
    return { b with cartridge := some c }

def checkedSetWramByte (b : Board) (bank : UInt8) (addr : UInt16) (v : UInt8) : Checked Board := do
  let _ ← place b.model.wramBanks bank.toNat
  let _ ← place 0x1000 (addr.toNat % 0x1000)
  return b.setWramByte bank addr v

def checkedSetHramByte (b : Board) (addr : UInt16) (v : UInt8) : Checked Board := do
  let i ← minus addr.toNat 0xFF80
  let hram ← set b.hram i v
  return { b with hram }

def checkedWriteOam (b : Board) (addr : UInt16) (v : UInt8) : Checked Board := do
  let i ← minus addr.toNat 0xFE00
  if Ppu.oamSize ≤ i ∨ b.oamBusy then return b
  else do
    let ppu ← b.ppu.checkedWriteOam addr v
    return { b with ppu }

def checkedWrite (b : Board) (addr : UInt16) (v : UInt8) : Checked Board := do
  match ← checkedRegion addr with
  | .rom | .cartridgeRam => b.checkedWriteCartridge addr v
  | .vram => do
    let ppu ← b.ppu.checkedWriteVram addr v
    return { b with ppu }
  | .workRamFixed => b.checkedSetWramByte 0 addr v
  | .workRamBanked => b.checkedSetWramByte b.wramBank addr v
  | .oam | .unusable => b.checkedWriteOam addr v
  | .port => b.checkedWritePort addr v
  | .highRam => b.checkedSetHramByte addr v
  | .interruptEnable => return { b with interrupts := b.interrupts.writeEnable v }

/-- What an access to a board on which the CPU is not held leaves. -/
structure Written (r : Checked Board) (d : Board) : Prop where
  faultless : r = .ok d
  inRange : d.InRange
  pressure : d.pressure ≤ restingPressure

theorem Written.of_eq {r : Checked Board} (heq : r = .ok d) (hok : d.InRange) (hs : d.stall = 0) :
    Written r d :=
  ⟨heq, hok, hok.resting hs⟩

/-- A new bank of work RAM exists; only color hardware has the port. -/
theorem InRange.selectWramBank (h : b.InRange) (hc : b.model.isColor = true) (v : UInt8) :
    (b.selectWramBank v).InRange := by
  have hbank : (max 1 (v &&& 7)).toNat < 8 :=
    forall_byte (P := fun v => (max 1 (v &&& 7)).toNat < 8) (by decide +kernel) v
  have hbanks : b.model.wramBanks = 8 := by
    cases hm : b.model with
    | mono =>
      rw [hm] at hc
      cases hc
    | color => rfl
  have hexists : (max 1 (v &&& 7)).toNat < b.model.wramBanks := hbanks ▸ hbank
  exact ⟨h.ppu, hexists, h.cartridge, h.blocks⟩

theorem workRamBank_isColor {model : Model} {addr : UInt16}
    (h : Port.of model addr = .workRamBank) : model.isColor = true := by
  cases model with
  | color => rfl
  | mono =>
    unfold Port.of at h
    split at h
    all_goals try cases h
    split at h
    · cases h
    · split at h <;> cases h

theorem checkedWritePort_eq (h : b.InRange) (hs : b.stall = 0) (addr : UInt16) (v : UInt8) :
    Written (b.checkedWritePort addr v) (b.writePort addr v).value := by
  unfold checkedWritePort writePort
  rw [checkedPort_eq, ok_bind]
  cases hp : Port.of b.model addr with
  | timer =>
    rw [Timer.checkedWrite_eq]
    exact .of_eq rfl (h.withDevices ..) hs
  | sound =>
    rw [Sound.checkedWrite_eq]
    exact .of_eq rfl (h.withDevices ..) hs
  | display =>
    rw [Ppu.checkedWritePort_eq]
    exact .of_eq rfl (h.withDisplay (.port addr v)) hs
  | oamDma =>
    exact .of_eq (b.checkedStartOamDma_eq v) (h.withDevices ..) hs
  | vramDma =>
    obtain ⟨heq, hok, hpressure⟩ := checkedWriteVramDma_eq h hs addr v
    exact ⟨heq, hok, hpressure⟩
  | outputMode =>
    simp only [writeOutputMode]
    split
    · exact .of_eq rfl (h.withDisplay .monochrome) hs
    · exact .of_eq rfl h hs
  | vramBank => exact .of_eq rfl (h.withDisplay (.vramBank v)) hs
  | workRamBank => exact .of_eq rfl (h.selectWramBank (workRamBank_isColor hp) v) hs
  | _ => exact .of_eq rfl (h.withDevices ..) hs

theorem checkedWriteCartridge_eq (h : b.InRange) (hs : b.stall = 0) (addr : UInt16) (v : UInt8) :
    Written (b.checkedWriteCartridge addr v) (b.writeCartridge addr v) := by
  unfold checkedWriteCartridge writeCartridge
  cases hc : b.cartridge with
  | none =>
    have hsame : { b with cartridge := none } = b := by rw [← hc]
    rw [Option.map_none, hsame]
    exact .of_eq rfl h hs
  | some c =>
    have hok := h.cartridge c hc
    dsimp only
    rw [Cartridge.checkedWrite_eq hok]
    exact .of_eq rfl (h.withCartridge (hok.write addr v)) hs

theorem checkedSetWramByte_eq (h : b.InRange) (hs : b.stall = 0) {bank : UInt8}
    (hbank : bank.toNat < b.model.wramBanks) (addr : UInt16) (v : UInt8) :
    Written (b.checkedSetWramByte bank addr v) (b.setWramByte bank addr v) := by
  rw [checkedSetWramByte, place_ok hbank, ok_bind, place_ok (Nat.mod_lt _ (by decide))]
  exact .of_eq rfl (h.withDevices ..) hs

theorem checkedSetHramByte_eq (h : b.InRange) (hs : b.stall = 0) {addr : UInt16}
    (hlow : 0xFF80 ≤ addr.toNat) (hhigh : addr.toNat < 0xFFFF) (v : UInt8) :
    Written (b.checkedSetHramByte addr v) (b.setHramByte addr v) := by
  have hi : addr.toNat - 0xFF80 < 0x7F := by omega
  have hcell : hramCell addr = ⟨addr.toNat - 0xFF80, hi⟩ := Fin.ext (hramCell_val hlow hhigh)
  have hset : b.setHramByte addr v = { b with hram := b.hram.set (addr.toNat - 0xFF80) v } := by
    simp only [setHramByte, hcell]
  rw [checkedSetHramByte, minus_ok hlow, ok_bind, set_ok _ hi, hset]
  exact .of_eq rfl (h.withDevices ..) hs

theorem checkedWriteOam_eq (h : b.InRange) (hs : b.stall = 0) {addr : UInt16}
    (hlow : 0xFE00 ≤ addr.toNat) (hhigh : addr.toNat < 0xFEA0) (v : UInt8) :
    Written (b.checkedWriteOam addr v) (b.writeOam addr v) := by
  have hi : ¬Ppu.oamSize ≤ addr.toNat - 0xFE00 := by
    unfold Ppu.oamSize
    omega
  rw [checkedWriteOam, minus_ok hlow, ok_bind, b.ppu.checkedWriteOam_eq hlow hhigh, writeOam]
  simp only [hi, false_or]
  split
  · exact .of_eq rfl h hs
  · exact .of_eq rfl (h.withDisplay (.oam addr v)) hs

theorem checkedWriteOam_gap (h : b.InRange) (hs : b.stall = 0) {addr : UInt16}
    (hgap : 0xFEA0 ≤ addr.toNat) (v : UInt8) : Written (b.checkedWriteOam addr v) b := by
  have hi : Ppu.oamSize ≤ addr.toNat - 0xFE00 := by
    unfold Ppu.oamSize
    omega
  rw [checkedWriteOam, minus_ok (Nat.le_trans (by decide) hgap), ok_bind, if_pos (.inl hi)]
  exact .of_eq rfl h hs

/-- **Any address is written without fault**, while the CPU is not held. -/
theorem checkedWrite_eq (h : b.InRange) (hs : b.stall = 0) (addr : UInt16) (v : UInt8) :
    Written (b.checkedWrite addr v) (b.write addr v).value := by
  unfold checkedWrite write
  rw [checkedRegion_eq, ok_bind]
  cases hr : Region.of addr with
  | rom | cartridgeRam => exact checkedWriteCartridge_eq h hs addr v
  | vram =>
    dsimp only
    rw [Ppu.checkedWriteVram_eq]
    exact .of_eq rfl (h.withDisplay (.vram addr v)) hs
  | workRamFixed => exact checkedSetWramByte_eq h hs (wramBanks_pos _) addr v
  | workRamBanked => exact checkedSetWramByte_eq h hs h.wramBank addr v
  | oam =>
    obtain ⟨hlow, hhigh⟩ := oam_bounds hr
    exact checkedWriteOam_eq h hs hlow hhigh v
  | unusable => exact checkedWriteOam_gap h hs (unusable_bounds hr) v
  | port => exact checkedWritePort_eq h hs addr v
  | highRam =>
    obtain ⟨hlow, hhigh⟩ := highRam_bounds hr
    exact checkedSetHramByte_eq h hs hlow hhigh v
  | interruptEnable => exact .of_eq rfl (h.withDevices ..) hs

end Handheld.Board
