import Handheld.Event
import Handheld.Ppu.Palette
import Handheld.Ppu.Sprite

/-!
# The display unit

Its registers, memories, position within the frame and the latches it uses while drawing.

* `Ppu.powerOn`: the state before any code has run.
* `Ppu.readVram`, `Ppu.writeVram`, `Ppu.readOam`, `Ppu.writeOam`: the memories as the CPU sees them,
  which is not at all while the display uses them.
-/

namespace Handheld

namespace Ppu

abbrev screenWidth : Nat := 160

abbrev screenHeight : Nat := 144

def dotsPerLine : Nat := 456

def linesPerFrame : Nat := 154

def dotsPerFrame : Nat := dotsPerLine * linesPerFrame

/-- A line of pixels. -/
abbrev Row := Vector UInt32 screenWidth

/-- The picture. -/
abbrev Frame := Vector Row screenHeight

/-- Size of both banks of video memory. -/
abbrev vramSize : Nat := 0x4000

/-- The registers that hold what was written to them. -/
structure Controls where
  lcdc : UInt8 := 0
  /-- The interrupt sources of STAT. -/
  sources : UInt8 := 0
  scy : UInt8 := 0
  scx : UInt8 := 0
  lyc : UInt8 := 0
  bgp : UInt8 := 0
  obp0 : UInt8 := 0
  obp1 : UInt8 := 0
  wy : UInt8 := 0
  wx : UInt8 := 0
  opri : UInt8 := 0
  deriving DecidableEq

namespace Controls

def lcdOn (c : Controls) : Bool := c.lcdc &&& 0x80 != 0

def windowMapUpper (c : Controls) : Bool := c.lcdc &&& 0x40 != 0

def windowOn (c : Controls) : Bool := c.lcdc &&& 0x20 != 0

/-- Tile numbers count up from the start of video memory, not both ways from its middle. -/
def tilesFromStart (c : Controls) : Bool := c.lcdc &&& 0x10 != 0

def mapUpper (c : Controls) : Bool := c.lcdc &&& 0x08 != 0

def tallSprites (c : Controls) : Bool := c.lcdc &&& 0x04 != 0

def spritesOn (c : Controls) : Bool := c.lcdc &&& 0x02 != 0

def backgroundOn (c : Controls) : Bool := c.lcdc &&& 0x01 != 0

def spriteHeight (c : Controls) : Nat := if c.tallSprites then 16 else 8

/-- Coincidence of line and LYC is an interrupt source. -/
def onCoincidence (c : Controls) : Bool := c.sources &&& 0x40 != 0

def onOamScan (c : Controls) : Bool := c.sources &&& 0x20 != 0

def onVBlank (c : Controls) : Bool := c.sources &&& 0x10 != 0

def onHBlank (c : Controls) : Bool := c.sources &&& 0x08 != 0

end Controls

/-- The window's progress through the frame. -/
structure Window where
  /-- Window lines drawn in this frame. -/
  line : UInt8 := 0
  /-- WY was reached in this frame. -/
  triggered : Bool := false
  /-- The window starts on the line under way. -/
  onLine : Bool := false
  deriving DecidableEq

/-- What single dots brought about: interrupt requests, and whether a visible line entered its
horizontal blank. -/
structure Signals where
  vblank : Bool := false
  stat : Bool := false
  hblank : Bool := false
  deriving DecidableEq

def Signals.merge (a b : Signals) : Signals where
  vblank := a.vblank || b.vblank
  stat := a.stat || b.stat
  hblank := a.hblank || b.hblank

end Ppu

structure Ppu where
  model : Model
  /-- Tiles use attributes and palette RAM. Off on monochrome hardware, and on color hardware that
  runs a monochrome cartridge. -/
  colorOutput : Bool
  /-- Two banks of tiles and maps. -/
  vram : Vector UInt8 Ppu.vramSize
  /-- The CPU sees the second bank. -/
  vramUpper : Bool := false
  oam : Vector UInt8 Ppu.oamSize
  controls : Ppu.Controls := {}
  background : Ppu.PaletteRam
  objects : Ppu.PaletteRam
  /-- The line under way. -/
  ly : UInt8 := 0
  /-- Dots elapsed on it. -/
  dot : Nat := 0
  mode : Ppu.Mode := .hblank
  /-- Length of the transfer on this line. -/
  transferDots : Nat := 172
  /-- Line and LYC agreed when last compared. -/
  coincidence : Bool := true
  window : Ppu.Window := {}
  /-- The sprites of the line, in drawing order, and the height they were picked with. -/
  sprites : List Ppu.Sprite := []
  spriteHeight : Nat := 8
  /-- The level whose rising edges request the STAT interrupt. -/
  statLine : Bool := false
  /-- Set on the dot on which monochrome hardware enters line 144. -/
  extraScanEdge : Bool := false
  /-- Vertical blanks entered. -/
  frames : Nat := 0
  frame : Ppu.Frame

namespace Ppu

/-- The picture while the LCD is off. -/
def blankFrame (model : Model) : Frame := .replicate _ (.replicate _ (blankColor model))

/-- The display unit before any code has run. -/
def powerOn (model : Model) : Ppu where
  model
  colorOutput := model.isColor
  vram := .replicate _ 0
  oam := .replicate _ 0
  background := .powerOn model
  objects := .powerOn model
  frame := blankFrame model

def lcdOn (p : Ppu) : Bool := p.controls.lcdOn

/-- The CPU has no access to video memory during a transfer. -/
def vramFree (p : Ppu) : Bool := !p.lcdOn || p.mode != .transfer

/-- The CPU has access to object memory during the blanks only. -/
def oamFree (p : Ppu) : Bool := !p.lcdOn || p.mode == .hblank || p.mode == .vblank

/-- The place of an offset in one of the banks. -/
def vramCell (upper : Bool) (offset : Nat) : Fin vramSize :=
  ⟨upper.toNat * 0x2000 + offset % 0x2000, by
    have := Bool.toNat_le upper
    simp only [vramSize]
    omega⟩

/-- A byte of a bank of video memory. -/
def vramByte (p : Ppu) (upper : Bool) (offset : Nat) : UInt8 := p.vram[vramCell upper offset]

def setVramByte (p : Ppu) (upper : Bool) (offset : Nat) (v : UInt8) : Ppu :=
  { p with vram := p.vram.set (vramCell upper offset) v }

def readVram (p : Ppu) (addr : UInt16) : UInt8 :=
  if p.vramFree then p.vramByte p.vramUpper addr.toNat else 0xFF

def writeVram (p : Ppu) (addr : UInt16) (v : UInt8) : Ppu :=
  if p.vramFree then p.setVramByte p.vramUpper addr.toNat v else p

/-- The bank register reads as ones but for its last bit. -/
def vramBankStatus (p : Ppu) : UInt8 := 0xFE ||| p.vramUpper.toUInt8

def selectVramBank (p : Ppu) (v : UInt8) : Ppu := { p with vramUpper := v &&& 1 != 0 }

/-- The place of an address in object memory. -/
def oamIndex? (addr : UInt16) : Option (Fin oamSize) :=
  let i := (addr - 0xFE00).toNat
  if h : i < oamSize then some ⟨i, h⟩ else none

def readOam (p : Ppu) (addr : UInt16) : UInt8 :=
  match oamIndex? addr with
  | some i => if p.oamFree then p.oam[i] else 0xFF
  | none => 0xFF

/-- Stores a byte whatever the display is doing. -/
def setOamByte (p : Ppu) (i : Fin oamSize) (v : UInt8) : Ppu := { p with oam := p.oam.set i v }

def writeOam (p : Ppu) (addr : UInt16) (v : UInt8) : Ppu :=
  match oamIndex? addr with
  | some i => if p.oamFree then p.setOamByte i v else p
  | none => p

end Ppu

end Handheld
