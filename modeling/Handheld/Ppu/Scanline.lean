import Handheld.Ppu.Basic

/-!
# Drawing a line

A line is drawn all at once when its transfer ends: background and window first, then the sprites in
drawing order. The first sprite with an opaque pixel in a column owns it, even where the background
covers that pixel.

* `Ppu.backdrop`: the background or window pixel of a column.
* `Ppu.paintSprite`: mixes a sprite into a line.
* `Ppu.drawLine`: draws the line under way into the picture.
-/

namespace Handheld.Ppu

/-- A pixel of the line under way: its color so far, and what sprites must know about it. -/
structure Pixel where
  color : UInt32
  /-- The color number of the background or window. -/
  number : UInt8 := 0
  /-- The background's attributes put it in front of sprites. -/
  priority : Bool := false
  /-- A sprite owns this pixel. -/
  owned : Bool := false

/-- The color number that bit `bit` of a tile row's two bytes makes. -/
def colorNumber (low high : UInt8) (bit : Nat) : UInt8 :=
  ((high >>> bit.toUInt8) &&& 1) <<< 1 ||| ((low >>> bit.toUInt8) &&& 1)

/-- Where a map of tile numbers starts. -/
def mapBase (upper : Bool) : Nat := if upper then 0x1C00 else 0x1800

/-- Where the tile number for column `x` and row `y` of a map is. -/
def mapPlace (base x y : Nat) : Nat := base + y / 8 * 32 + x / 8

/-- Where a row of a tile starts. -/
def tileRow (p : Ppu) (tile : UInt8) (row : Nat) : Nat :=
  let start :=
    if p.controls.tilesFromStart || tile ≥ 0x80 then tile.toNat * 16 else 0x1000 + tile.toNat * 16
  start + row * 2

/-- The color of a background shade. Color hardware looks shades up in its first palette. -/
def backgroundShade (p : Ppu) (shade : UInt8) : UInt32 :=
  match p.model with
  | .mono => monoShade shade
  | .color => p.background.color 0 shade.toNat

/-- The pixel in column `x` and row `y` of a map. -/
def mapPixel (p : Ppu) (base x y : Nat) : Pixel :=
  let place := mapPlace base x y
  let attributes := if p.colorOutput then p.vramByte true place else 0
  let row := if attributes &&& 0x40 != 0 then 7 - y % 8 else y % 8
  let bit := if attributes &&& 0x20 != 0 then x % 8 else 7 - x % 8
  let upper := attributes &&& 0x08 != 0
  let start := p.tileRow (p.vramByte false place) row
  let number := colorNumber (p.vramByte upper start) (p.vramByte upper (start + 1)) bit
  { number
    priority := attributes &&& 0x80 != 0
    color :=
      if p.colorOutput then p.background.color (attributes &&& 7).toNat number.toNat
      else p.backgroundShade (shadeOf p.controls.bgp number) }

/-- Monochrome output can switch background and window off; color output always shows them. -/
def showsBackground (p : Ppu) : Bool := p.colorOutput || p.controls.backgroundOn

/-- Background and sprites are mixed by their priorities. On color output the background's switch
takes its priority away. -/
def mixesPriorities (p : Ppu) : Bool := !p.colorOutput || p.controls.backgroundOn

/-- Part of the line shows the window. Its left edge is at column `WX - 7`. -/
def showsWindow (p : Ppu) : Bool :=
  p.showsBackground && p.window.onLine && p.controls.wx.toNat < screenWidth + 7

def backdrop (p : Ppu) (x : Nat) : Pixel :=
  let wx := p.controls.wx.toNat
  if !p.showsBackground then { color := p.backgroundShade 0 }
  else if p.showsWindow && wx ≤ x + 7 then
    p.mapPixel (mapBase p.controls.windowMapUpper) (x + 7 - wx) p.window.line.toNat
  else
    p.mapPixel (mapBase p.controls.mapUpper) ((x + p.controls.scx.toNat) % 0x100)
      ((p.ly.toNat + p.controls.scy.toNat) % 0x100)

/-- The row of a sprite's tile pair that lies on the line. -/
def spriteRow (p : Ppu) (s : Sprite) : Nat :=
  let row := (p.ly.toNat - s.y).toNat
  if s.flippedDown then p.spriteHeight - 1 - row else row

/-- Where the row of a sprite starts. Tall sprites use two tiles, an even one and the next. -/
def spriteRowStart (p : Ppu) (s : Sprite) : Nat :=
  let tile := if p.spriteHeight = 16 then s.tile &&& 0xFE else s.tile
  tile.toNat * 16 + p.spriteRow s * 2

/-- The color number in column `column` of a sprite; zero is transparent. -/
def spriteNumber (p : Ppu) (s : Sprite) (column : Nat) : UInt8 :=
  let upper := p.colorOutput && s.upperBank
  let start := p.spriteRowStart s
  colorNumber (p.vramByte upper start) (p.vramByte upper (start + 1))
    (if s.flippedAcross then column else 7 - column)

/-- The color of a sprite's pixel. -/
def spriteColor (p : Ppu) (s : Sprite) (number : UInt8) : UInt32 :=
  if p.colorOutput then p.objects.color s.palette number.toNat
  else
    let shade := shadeOf (if s.secondPalette then p.controls.obp1 else p.controls.obp0) number
    match p.model with
    | .mono => monoShade shade
    | .color => p.objects.color s.secondPalette.toNat shade.toNat

/-- True if the background covers a sprite's pixel. -/
def hides (p : Ppu) (s : Sprite) (under : Pixel) : Bool :=
  p.mixesPriorities && under.number != 0 &&
    (s.behindBackground || (p.colorOutput && under.priority))

/-- Mixes one column of a sprite into the pixels of the line. -/
def paintColumn (p : Ppu) (s : Sprite) (pixels : Vector Pixel screenWidth) (column : Nat) :
    Vector Pixel screenWidth :=
  let number := p.spriteNumber s column
  let x := s.x + column
  if h : number ≠ 0 ∧ 0 ≤ x ∧ x.toNat < screenWidth then
    let under := pixels[x.toNat]
    if under.owned then pixels
    else
      let color := if p.hides s under then under.color else p.spriteColor s number
      pixels.set x.toNat { under with color, owned := true }
  else pixels

def paintSprite (p : Ppu) (pixels : Vector Pixel screenWidth) (s : Sprite) :
    Vector Pixel screenWidth :=
  (List.range 8).foldl (p.paintColumn s) pixels

/-- The pixels of the line under way. -/
def linePixels (p : Ppu) : Vector Pixel screenWidth :=
  let pixels := Vector.ofFn fun x => p.backdrop x.val
  if p.controls.spritesOn then p.sprites.foldl p.paintSprite pixels else pixels

/-- Draws the line under way. The window moves on by one line if any of it was shown. -/
def drawLine (p : Ppu) : Ppu :=
  if h : p.ly.toNat < screenHeight then
    { p with
      frame := p.frame.set p.ly.toNat (p.linePixels.map Pixel.color)
      window.line := if p.showsWindow then p.window.line + 1 else p.window.line }
  else p

end Handheld.Ppu
