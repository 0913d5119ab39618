import Handheld.Ppu.Sprite
import Handheld.Word

/-!
# Transfer engines

The states of the two engines that copy memory on their own: one fills the object memory, the other,
on color hardware only, copies blocks of 16 bytes into video memory.

* `OamDma.start`, `OamDma.next?`: 160 bytes, one each bus cycle, after a delay of two.
* `VramDma.alignTarget`: blocks land in video memory at multiples of their size.
-/

namespace Handheld

/-- A transfer into object memory under way. -/
structure OamDma where
  source : UInt16
  /-- The next byte. -/
  index : Fin Ppu.oamSize := 0
  /-- Bus cycles before the first byte. -/
  delay : Nat := 2
  deriving DecidableEq

namespace OamDma

/-- A transfer from a page. Pages from `E0` on stand for those of work RAM that they echo. -/
def start (page : UInt8) : OamDma where
  source := word (if page ≥ 0xE0 then page - 0x20 else page) 0

/-- The address of the next byte. -/
def address (d : OamDma) : UInt16 := d.source + d.index.val.toUInt16

/-- The transfer after one byte; none after the last. -/
def next? (d : OamDma) : Option OamDma :=
  if h : d.index.val + 1 < Ppu.oamSize then some { d with index := ⟨d.index.val + 1, h⟩ } else none

end OamDma

/-- The registers of the engine for video memory. -/
structure VramDma where
  source : UInt16 := 0
  target : UInt16 := 0x8000
  /-- Blocks left. -/
  blocks : Nat := 0
  /-- A block is copied at the start of each horizontal blank. -/
  active : Bool := false
  deriving DecidableEq

namespace VramDma

/-- An address of video memory at which a block can start. -/
def alignTarget (addr : UInt16) : UInt16 := 0x8000 ||| (addr &&& 0x1FF0)

/-- The status port: the blocks left less one, and in bit 7 whether the engine is idle. -/
def status (d : VramDma) : UInt8 :=
  let left := ((d.blocks + 127) % 128).toUInt8
  if d.active then left else 0x80 ||| left

/-- One byte further. The target wraps within video memory. -/
def advance (d : VramDma) : VramDma :=
  { d with source := d.source + 1, target := 0x8000 ||| ((d.target + 1) &&& 0x1FFF) }

/-- The engine after a block during a horizontal blank; it stops after the last. -/
def blockDone (d : VramDma) : VramDma :=
  { d with
    target := alignTarget d.target
    blocks := d.blocks - 1
    active := d.active && d.blocks - 1 != 0 }

/-- The engine after all blocks at once. -/
def allDone (d : VramDma) : VramDma :=
  { d with target := alignTarget d.target, blocks := 0, active := false }

/-- A write to one of the four address ports. -/
def writeAddress (d : VramDma) (addr : UInt16) (v : UInt8) : VramDma :=
  match addr with
  | 0xFF51 => { d with source := word v (lowByte d.source) }
  | 0xFF52 => { d with source := word (highByte d.source) (v &&& 0xF0) }
  | 0xFF53 => { d with target := alignTarget (word v (lowByte d.target)) }
  | 0xFF54 => { d with target := alignTarget (word (highByte d.target) v) }
  | _ => d

/-- What a write to the control port asks for, less one block. -/
def requestedBlocks (v : UInt8) : Nat := (v &&& 0x7F).toNat + 1

end VramDma

end Handheld
