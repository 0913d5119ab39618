import Handheld.Board.Basic

/-!
# Transfers

The engines at work. A block for video memory holds the CPU for as long as 32 dots take.

* `Board.stepOamDma`: one bus cycle of a transfer into object memory.
* `Board.moveBlock`: one block into video memory during a horizontal blank.
* `Board.moveAll`: all blocks at once.
-/

namespace Handheld.Board

def startOamDma (b : Board) (page : UInt8) : Logged Board where
  value := { b with oamDmaPage := page, oamDma := some (.start page) }
  events := [.oamDma (OamDma.start page).source]

/-- Copies the next byte of a transfer. -/
def copyOamByte (b : Board) (d : OamDma) : Board :=
  let v := b.dmaRead d.address
  { b with ppu := b.ppu.setOamByte d.index v, oamDma := d.next? }

/-- One bus cycle: waits, or copies a byte. -/
def stepOamDma (b : Board) : Board :=
  match b.oamDma with
  | none => b
  | some d =>
    match d.delay with
    | 0 => b.copyOamByte d
    | n + 1 => { b with oamDma := some { d with delay := n } }

/-- Copies one byte, whatever the display is doing. -/
def copyVramByte (b : Board) : Board :=
  let v := b.dmaRead b.vramDma.source
  { b with
    ppu := b.ppu.setVramByte b.ppu.vramUpper b.vramDma.target.toNat v
    vramDma := b.vramDma.advance }

def copyVramBytes : Nat → Board → Board
  | 0, b => b
  | n + 1, b => copyVramBytes n b.copyVramByte

/-- Bus cycles for which one block holds the CPU: the same time at either speed. -/
def blockCost (b : Board) : Nat := if b.doubleSpeed then 16 else 8

/-- Copies a block. -/
def copyBlock (b : Board) : Board :=
  let b := copyVramBytes 16 b
  { b with stall := b.stall + b.blockCost }

def copyBlocks : Nat → Board → Board
  | 0, b => b
  | n + 1, b => copyBlocks n b.copyBlock

/-- Copies one block of a transfer that goes on in the horizontal blanks. -/
def moveBlock (b : Board) : Board :=
  let b := b.copyBlock
  { b with vramDma := b.vramDma.blockDone }

/-- Copies all blocks at once. -/
def moveAll (b : Board) (blocks : Nat) : Board :=
  let b := copyBlocks blocks b
  { b with vramDma := b.vramDma.allDone }

/-- Cancels a transfer that goes on in the horizontal blanks. -/
def cancelVramDma (b : Board) : Logged Board where
  value := { b with vramDma.active := false }
  events := [.hblankDmaCancelled b.vramDma.blocks]

def startGeneralDma (b : Board) (blocks : Nat) : Logged Board where
  value := b.moveAll blocks
  events := [.generalDma b.vramDma.source b.vramDma.target blocks]

/-- Starts a transfer in the horizontal blanks. There are none while the LCD is off; the first block
is copied at once then. -/
def startHBlankDma (b : Board) (blocks : Nat) : Logged Board where
  value :=
    let b := { b with vramDma.blocks := blocks, vramDma.active := true }
    if b.ppu.lcdOn then b else b.moveBlock
  events := [.hblankDma b.vramDma.source b.vramDma.target blocks]

/-- A write to the control port: bit 7 chooses the horizontal blanks. -/
def controlVramDma (b : Board) (v : UInt8) : Logged Board :=
  let blocks := VramDma.requestedBlocks v
  if v &&& 0x80 != 0 then b.startHBlankDma blocks
  else if b.vramDma.active then b.cancelVramDma
  else b.startGeneralDma blocks

def writeVramDma (b : Board) (addr : UInt16) (v : UInt8) : Logged Board :=
  if addr = 0xFF55 then b.controlVramDma v
  else pure { b with vramDma := b.vramDma.writeAddress addr v }

end Handheld.Board
