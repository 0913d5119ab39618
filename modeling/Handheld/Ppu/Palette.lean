import Handheld.Cartridge.BootPalettes
import Handheld.Model
import Handheld.Word

/-!
# Colors and palette RAM

Pixels are `RRGGBBAA`. Monochrome hardware has four fixed shades; color hardware has two memories of
eight palettes of four 15-bit colors, each behind an index port and a data port.

* `PaletteRam.writeData`: a write stores a byte and, if the index says so, moves on; the index wraps
  within the memory.
* `PaletteRam.color`: a color as a pixel.
-/

namespace Handheld.Ppu

/-- The shades of the monochrome display, lightest first. -/
def monoShade (shade : UInt8) : UInt32 :=
  match shade with
  | 0 => 0x9BBC0FFF
  | 1 => 0x8BAC0FFF
  | 2 => 0x306230FF
  | _ => 0x0F380FFF

/-- The display of a model while the LCD is off. -/
def blankColor : Model → UInt32
  | .mono => monoShade 0
  | .color => 0xFFFFFFFF

/-- Five bits of intensity as eight. -/
def expandIntensity (c : UInt16) : UInt32 :=
  let c := (c &&& 0x1F).toUInt32
  (c <<< 3) ||| (c >>> 2)

/-- A 15-bit color (red in the low bits) as a pixel. -/
def pixelOf (color : UInt16) : UInt32 :=
  (expandIntensity color <<< 24) ||| (expandIntensity (color >>> 5) <<< 16) |||
    (expandIntensity (color >>> 10) <<< 8) ||| 0xFF

/-- The shade that a monochrome palette register gives to a color number. -/
def shadeOf (palette number : UInt8) : UInt8 := (palette >>> (number * 2)) &&& 3

structure PaletteRam where
  /-- The cell number, and in bit 7 whether writes move it on. Bit 6 is always one. -/
  index : UInt8 := 0x40
  cells : Vector UInt8 0x40
  deriving DecidableEq

namespace PaletteRam

/-- Palette RAM at power-on: white on color hardware. -/
def powerOn : Model → PaletteRam
  | .mono => { cells := .replicate 0x40 0 }
  | .color => { cells := .ofFn fun i => if i.val % 2 = 0 then 0xFF else 0x7F }

/-- The cell that the data port shows. -/
def place (p : PaletteRam) : Fin 0x40 := ⟨p.index.toNat % 0x40, Nat.mod_lt _ (by decide)⟩

def writeIndex (p : PaletteRam) (v : UInt8) : PaletteRam :=
  { p with index := (v &&& 0xBF) ||| 0x40 }

/-- The index after a write to the data port. -/
def nextIndex (index : UInt8) : UInt8 :=
  if index &&& 0x80 = 0 then index else 0xC0 ||| ((index + 1) &&& 0x3F)

def readData (p : PaletteRam) : UInt8 := p.cells[p.place]

def writeData (p : PaletteRam) (v : UInt8) : PaletteRam :=
  { cells := p.cells.set p.place v, index := nextIndex p.index }

/-- The first of the two cells of a color. -/
def offset (palette number : Nat) : Nat := palette * 8 + number * 2

/-- Color `number` of a palette. -/
def color (p : PaletteRam) (palette number : Nat) : UInt32 :=
  let i := offset palette number
  pixelOf (word p.cells[(i + 1) % 0x40] p.cells[i % 0x40])

/-- Stores the four colors of a palette. -/
def setPalette (p : PaletteRam) (palette : Nat) (colors : Vector UInt16 4) : PaletteRam :=
  { p with
    cells := p.cells.mapFinIdx fun i v _ =>
      if i / 8 = palette then
        let c := colors[i % 8 / 2]
        if i % 2 = 0 then lowByte c else highByte c
      else v }

end PaletteRam

end Handheld.Ppu
