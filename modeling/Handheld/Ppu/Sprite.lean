/-!
# Sprites

Object memory holds 40 sprites of four bytes. At the end of the scan the display latches those that
it will draw on the line: the first ten that cover it.

* `Sprite.pick`: the scan, which stops when its places are full.
* `Sprite.arrange`: the order in which sprites are drawn; the first opaque pixel wins.
-/

namespace Handheld.Ppu

/-- Size of the object memory. -/
abbrev oamSize : Nat := 0xA0

structure Sprite where
  /-- Column of the left edge; negative on the left of the screen. -/
  x : Int
  /-- Line of the upper edge; negative above the screen. -/
  y : Int
  tile : UInt8
  flags : UInt8
  /-- Place in object memory. -/
  index : Nat
  deriving DecidableEq

namespace Sprite

/-- One of the four bytes of a sprite. -/
def byte (oam : Vector UInt8 oamSize) (i : Fin 40) (k : Fin 4) : UInt8 :=
  oam.get ⟨4 * i.val + k.val, by simp only [oamSize]; omega⟩

/-- The sprite in a place of object memory. Positions are stored relative to a point above and left
of the screen, so that sprites can leave it. -/
def ofMemory (oam : Vector UInt8 oamSize) (i : Fin 40) : Sprite where
  x := (byte oam i 1).toNat - 8
  y := (byte oam i 0).toNat - 16
  tile := byte oam i 2
  flags := byte oam i 3
  index := i.val

theorem ofMemory_x (oam : Vector UInt8 oamSize) (i : Fin 40) :
    (ofMemory oam i).x = (byte oam i 1).toNat - 8 := rfl

theorem ofMemory_y (oam : Vector UInt8 oamSize) (i : Fin 40) :
    (ofMemory oam i).y = (byte oam i 0).toNat - 16 := rfl

/-- All sprites in the order of object memory. -/
def all (oam : Vector UInt8 oamSize) : List Sprite := (List.finRange 40).map (ofMemory oam)

/-- A sprite covers a line by its rows, wherever it is horizontally. -/
def covers (s : Sprite) (line height : Nat) : Bool :=
  s.y ≤ line && (line : Int) < s.y + height

/-- Scans sprites for at most `places` that cover the line. -/
def pick (line height : Nat) : (places : Nat) → List Sprite → List Sprite
  | 0, _ => []
  | _ + 1, [] => []
  | places + 1, s :: rest =>
    if s.covers line height then s :: pick line height places rest
    else pick line height (places + 1) rest

/-- Sprites on the left come first, then those that come first in object memory. -/
def leftmost (s t : Sprite) : Bool := s.x < t.x || (s.x == t.x && s.index ≤ t.index)

/-- The drawing order of latched sprites: that of object memory, or from left to right. -/
def arrange (byIndex : Bool) (sprites : List Sprite) : List Sprite :=
  if byIndex then sprites else sprites.mergeSort leftmost

/-- Sprites on one line. -/
def perLine : Nat := 10

/-- What the display latches for a line. -/
def latch (oam : Vector UInt8 oamSize) (line height : Nat) (byIndex : Bool) : List Sprite :=
  arrange byIndex (pick line height perLine (all oam))

def behindBackground (s : Sprite) : Bool := s.flags &&& 0x80 != 0

def flippedDown (s : Sprite) : Bool := s.flags &&& 0x40 != 0

def flippedAcross (s : Sprite) : Bool := s.flags &&& 0x20 != 0

/-- The monochrome palette: OBP0 or OBP1. -/
def secondPalette (s : Sprite) : Bool := s.flags &&& 0x10 != 0

/-- The bank of video memory that holds the tile on color output. -/
def upperBank (s : Sprite) : Bool := s.flags &&& 0x08 != 0

/-- The palette on color output. -/
def palette (s : Sprite) : Nat := (s.flags &&& 0x07).toNat

end Sprite

end Handheld.Ppu
