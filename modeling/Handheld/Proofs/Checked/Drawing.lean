import Handheld.Ppu.Scanline
import Handheld.Proofs.Checked.Basic

/-!
# Checked drawing

A pixel is looked up in a map, a tile and a palette, and each place is computed from registers,
positions and bytes of video memory that the program chooses. A sprite has rows only on the lines
that it covers; `Drawable` says that the latched ones cover the line under way.

* `Ppu.checkedMapPixel_eq`, `Ppu.checkedBackdrop_eq`: background and window.
* `Ppu.checkedPaintSprite_eq`: a sprite that covers the line.
* `Ppu.checkedDrawLine_eq`: the whole line.
-/

namespace Handheld.Ppu

open Checked

variable (p : Ppu)

/-- The four shades are a table. -/
def checkedMonoShade (shade : UInt8) : Checked UInt32 := do
  let _ ← place 4 shade.toNat
  return monoShade shade

def PaletteRam.checkedColor (r : PaletteRam) (palette number : Nat) : Checked UInt32 := do
  let i ← unsigned 64 (palette * 8 + number * 2)
  let next ← unsigned 64 (i + 1)
  let low ← get r.cells i
  let high ← get r.cells next
  return pixelOf (word high low)

def checkedShadeOf (palette number : UInt8) : Checked UInt8 := do
  let n ← unsigned 8 (number.toNat * 2)
  let n ← amount 8 n
  return (palette >>> n.toUInt8) &&& 3

def checkedColorNumber (low high : UInt8) (bit : Nat) : Checked UInt8 := do
  let bit ← amount 8 bit
  return colorNumber low high bit

def checkedBackgroundShade (shade : UInt8) : Checked UInt32 :=
  match p.model with
  | .mono => checkedMonoShade shade
  | .color => p.background.checkedColor 0 shade.toNat

theorem checkedMonoShade_eq {shade : UInt8} (h : shade.toNat ≤ 3) :
    checkedMonoShade shade = .ok (monoShade shade) := by
  rw [checkedMonoShade, place_ok (Nat.lt_succ_of_le h)]
  rfl

theorem PaletteRam.checkedColor_eq (r : PaletteRam) {palette number : Nat} (hp : palette ≤ 7)
    (hn : number ≤ 3) : r.checkedColor palette number = .ok (r.color palette number) := by
  have hi : palette * 8 + number * 2 + 1 < 0x40 := by omega
  have hi' : palette * 8 + number * 2 < 0x40 := by omega
  have hwidth : 0x40 < 2 ^ 64 := by decide
  unfold checkedColor color offset
  rw [unsigned_ok (Nat.lt_trans hi' hwidth), ok_bind, unsigned_ok (Nat.lt_trans hi hwidth), ok_bind,
    get_ok _ hi', ok_bind, get_ok _ hi]
  simp only [Nat.mod_eq_of_lt hi, Nat.mod_eq_of_lt hi', ok_bind, pure_eq_ok]

/-- The last bit of a byte. -/
theorem and_one_cases (v : UInt8) : v &&& 1 = 0 ∨ v &&& 1 = 1 :=
  forall_byte (P := fun v => v &&& 1 = 0 ∨ v &&& 1 = 1) (by decide +kernel) v

theorem colorNumber_le (low high : UInt8) (bit : Nat) : (colorNumber low high bit).toNat ≤ 3 := by
  unfold colorNumber
  rcases and_one_cases (high >>> bit.toUInt8) with hh | hh <;>
    rcases and_one_cases (low >>> bit.toUInt8) with hl | hl <;> rw [hh, hl] <;> decide

theorem shadeOf_le (palette number : UInt8) : (shadeOf palette number).toNat ≤ 3 :=
  forall_byte (P := fun v => (v &&& 3).toNat ≤ 3) (by decide +kernel) (palette >>> (number * 2))

theorem and_seven_le (v : UInt8) : (v &&& 7).toNat ≤ 7 :=
  forall_byte (P := fun v => (v &&& 7).toNat ≤ 7) (by decide +kernel) v

theorem checkedShadeOf_eq {palette number : UInt8} (h : number.toNat ≤ 3) :
    checkedShadeOf palette number = .ok (shadeOf palette number) := by
  have hamount : number.toNat * 2 < 8 := by omega
  have htwice : (number.toNat * 2).toUInt8 = number * 2 := by
    rw [← UInt8.toNat_inj]
    simp
  rw [checkedShadeOf, unsigned_ok (Nat.lt_trans hamount (by decide)), ok_bind, amount_ok hamount,
    ok_bind, htwice]
  rfl

theorem checkedColorNumber_eq (low high : UInt8) {bit : Nat} (h : bit < 8) :
    checkedColorNumber low high bit = .ok (colorNumber low high bit) := by
  rw [checkedColorNumber, amount_ok h]
  rfl

theorem checkedBackgroundShade_eq {shade : UInt8} (h : shade.toNat ≤ 3) :
    p.checkedBackgroundShade shade = .ok (p.backgroundShade shade) := by
  unfold checkedBackgroundShade backgroundShade
  cases p.model with
  | mono => exact checkedMonoShade_eq h
  | color => exact p.background.checkedColor_eq (Nat.zero_le _) h

/-- A cell of a bank of video memory. -/
def checkedVram (upper : Bool) (i : Nat) : Checked UInt8 :=
  (fun j : Fin 0x2000 => p.vramByte upper j) <$> place 0x2000 i

/-- Where a tile starts. -/
def checkedTileStart (tile : UInt8) : Checked Nat :=
  if p.controls.tilesFromStart then unsigned 64 (tile.toNat * 16)
  else do
    -- the second half of the numbers is negative
    let number := (tile.toNat : Int) - if tile ≥ 0x80 then 0x100 else 0
    let offset ← signed 63 (number * 16)
    asSize <$> signed 63 (0x1000 + offset)

def checkedTileRow (tile : UInt8) (row : Nat) : Checked Nat := do
  let start ← p.checkedTileStart tile
  unsigned 64 (start + row * 2)

def checkedAttributes (place : Nat) : Checked UInt8 :=
  if p.colorOutput then p.checkedVram true place else return 0

/-- A place within a tile, from the other side if it is mirrored. -/
def checkedWithin (mirrored : Bool) (i : Nat) : Checked Nat :=
  if mirrored then minus 7 (i % 8) else return i % 8

def checkedTileColor (attributes number : UInt8) : Checked UInt32 :=
  if p.colorOutput then p.background.checkedColor (attributes &&& 7).toNat number.toNat
  else do
    let shade ← checkedShadeOf p.controls.bgp number
    p.checkedBackgroundShade shade

def checkedMapPixel (base x y : Nat) : Checked Pixel := do
  let place ← unsigned 64 (base + y / 8 * 32 + x / 8)
  let tile ← p.checkedVram false place
  let attributes ← p.checkedAttributes place
  let row ← checkedWithin (attributes &&& 0x40 != 0) y
  let bit ← checkedWithin (!(attributes &&& 0x20 != 0)) x
  let upper := attributes &&& 0x08 != 0
  let start ← p.checkedTileRow tile row
  let next ← unsigned 64 (start + 1)
  let low ← p.checkedVram upper start
  let high ← p.checkedVram upper next
  let number ← checkedColorNumber low high bit
  let color ← p.checkedTileColor attributes number
  return { number, priority := attributes &&& 0x80 != 0, color }

def checkedBackdrop (x : Nat) : Checked Pixel := do
  let edge ← signed 15 (p.controls.wx.toNat - 7)
  let shown := p.showsBackground && p.window.onLine && decide (edge < screenWidth)
  if !p.showsBackground then do
    let color ← p.checkedBackgroundShade 0
    return { color }
  else if shown && decide (edge ≤ x) then do
    let column ← signed 15 (x - edge)
    p.checkedMapPixel (mapBase p.controls.windowMapUpper) (asSize column) p.window.line.toNat
  else do
    let column ← unsigned 64 (x + p.controls.scx.toNat)
    let row ← unsigned 64 (p.ly.toNat + p.controls.scy.toNat)
    p.checkedMapPixel (mapBase p.controls.mapUpper) (column % 0x100) (row % 0x100)

theorem checkedVram_eq (upper : Bool) {i : Nat} (h : i < 0x2000) :
    p.checkedVram upper i = .ok (p.vramByte upper i) := by
  rw [checkedVram, place_ok h]
  rfl

/-- A row of a tile lies below the maps. -/
theorem tileRow_lt (tile : UInt8) {row : Nat} (h : row ≤ 7) : p.tileRow tile row + 1 < 0x1800 := by
  have ht := tile.toNat_lt
  unfold tileRow
  split
  · dsimp only
    omega
  · rename_i hs
    have hlow : tile.toNat < 0x80 := by
      simp only [Bool.or_eq_true, decide_eq_true_eq, not_or, ge_iff_le, UInt8.not_le] at hs
      exact UInt8.lt_iff_toNat_lt.1 hs.2
    dsimp only
    omega

theorem checkedTileRow_eq (tile : UInt8) {row : Nat} (h : row ≤ 7) :
    p.checkedTileRow tile row = .ok (p.tileRow tile row) := by
  have ht := tile.toNat_lt
  unfold checkedTileRow checkedTileStart tileRow
  cases p.controls.tilesFromStart with
  | true =>
    simp only [if_true, Bool.true_or]
    rw [unsigned_ok (by omega), ok_bind, unsigned_ok (by omega)]
  | false =>
    simp only [Bool.false_eq_true, if_false, Bool.false_or, decide_eq_true_eq]
    by_cases hs : tile ≥ 0x80
    · -- the number is negative, the row lies before the middle
      have hhigh : 0x80 ≤ tile.toNat := UInt8.le_iff_toNat_le.1 hs
      have hstart : asSize (0x1000 + ((tile.toNat : Int) - 0x100) * 16) = tile.toNat * 16 := by
        rw [asSize_eq (by omega) (by omega)]
        omega
      rw [if_pos hs, if_pos hs, signed_ok (by omega) (by omega), ok_bind,
        signed_ok (by omega) (by omega), map_ok, ok_bind, hstart, unsigned_ok (by omega)]
    · have hstart : asSize (0x1000 + ((tile.toNat : Int) - 0) * 16) = 0x1000 + tile.toNat * 16 := by
        rw [asSize_eq (by omega) (by omega)]
        omega
      rw [if_neg hs, if_neg hs, signed_ok (by omega) (by omega), ok_bind,
        signed_ok (by omega) (by omega), map_ok, ok_bind, hstart, unsigned_ok (by omega)]

theorem checkedAttributes_eq {place : Nat} (h : place < 0x2000) :
    p.checkedAttributes place = .ok (if p.colorOutput then p.vramByte true place else 0) := by
  rw [checkedAttributes, p.checkedVram_eq true h, pure_eq_ok, ite_ok]

theorem checkedWithin_eq (mirrored : Bool) (i : Nat) :
    checkedWithin mirrored i = .ok (if mirrored then 7 - i % 8 else i % 8) := by
  rw [checkedWithin, minus_ok (by omega), pure_eq_ok, ite_ok]

theorem within_le (mirrored : Bool) (i : Nat) : (if mirrored then 7 - i % 8 else i % 8) ≤ 7 := by
  split <;> omega

theorem checkedTileColor_eq (attributes : UInt8) {number : UInt8} (h : number.toNat ≤ 3) :
    p.checkedTileColor attributes number =
      .ok (if p.colorOutput then p.background.color (attributes &&& 7).toNat number.toNat
        else p.backgroundShade (shadeOf p.controls.bgp number)) := by
  rw [checkedTileColor, p.background.checkedColor_eq (and_seven_le attributes) h,
    checkedShadeOf_eq h, ok_bind, p.checkedBackgroundShade_eq (shadeOf_le ..), ite_ok]

theorem mapBase_le (upper : Bool) : mapBase upper ≤ 0x1C00 := by
  cases upper <;> decide

theorem checkedMapPixel_eq (upper : Bool) {x y : Nat} (hx : x < 0x100) (hy : y < 0x100) :
    p.checkedMapPixel (mapBase upper) x y = .ok (p.mapPixel (mapBase upper) x y) := by
  have hbase := mapBase_le upper
  have hplace : mapBase upper + y / 8 * 32 + x / 8 < 0x2000 := by omega
  have hwidth : 0x2000 < 2 ^ 64 := by decide
  unfold checkedMapPixel mapPixel mapPlace
  rw [unsigned_ok (Nat.lt_trans hplace hwidth), ok_bind, p.checkedVram_eq false hplace, ok_bind,
    p.checkedAttributes_eq hplace, ok_bind]
  dsimp only
  generalize (if p.colorOutput = true then
    p.vramByte true (mapBase upper + y / 8 * 32 + x / 8) else 0) = attributes
  generalize p.vramByte false (mapBase upper + y / 8 * 32 + x / 8) = tile
  have hrow := within_le (attributes &&& 0x40 != 0) y
  have hbit := within_le (!(attributes &&& 0x20 != 0)) x
  have hstart := p.tileRow_lt tile hrow
  have hmirror : (if (!(attributes &&& 0x20 != 0)) = true then 7 - x % 8 else x % 8) =
      if attributes &&& 0x20 != 0 then x % 8 else 7 - x % 8 := by
    cases attributes &&& 0x20 != 0 <;> rfl
  rw [checkedWithin_eq, ok_bind, checkedWithin_eq, ok_bind, p.checkedTileRow_eq tile hrow, ok_bind,
    unsigned_ok (by omega), ok_bind, p.checkedVram_eq _ (by omega), ok_bind,
    p.checkedVram_eq _ (by omega), ok_bind, checkedColorNumber_eq _ _ (Nat.lt_succ_of_le hbit),
    ok_bind, p.checkedTileColor_eq attributes (colorNumber_le ..), hmirror]
  rfl

theorem checkedBackdrop_eq {x : Nat} (hx : x < screenWidth) :
    p.checkedBackdrop x = .ok (p.backdrop x) := by
  have hwx := p.controls.wx.toNat_lt
  have hly := p.ly.toNat_lt
  have hscx := p.controls.scx.toNat_lt
  have hscy := p.controls.scy.toNat_lt
  have hline := p.window.line.toNat_lt
  have hx' : x < 160 := hx
  have hshown : decide ((p.controls.wx.toNat : Int) - 7 < screenWidth) =
      decide (p.controls.wx.toNat < screenWidth + 7) := by
    apply decide_eq_decide.2
    unfold screenWidth
    omega
  have hinside : decide ((p.controls.wx.toNat : Int) - 7 ≤ x) =
      decide (p.controls.wx.toNat ≤ x + 7) := by
    apply decide_eq_decide.2
    omega
  unfold checkedBackdrop backdrop showsWindow
  rw [signed_ok (by omega) (by omega), ok_bind]
  dsimp only
  rw [hshown, hinside]
  cases p.showsBackground with
  | false =>
    simp only [Bool.not_false, if_true]
    rw [p.checkedBackgroundShade_eq (by decide)]
    rfl
  | true =>
    simp only [Bool.not_true, Bool.false_eq_true, if_false]
    split
    · rename_i hw
      simp only [Bool.and_eq_true, decide_eq_true_eq] at hw
      rw [signed_ok (by omega) (by omega), ok_bind, asSize_eq (by omega) (by omega)]
      have hcolumn :
          ((x : Int) - (p.controls.wx.toNat - 7)).toNat = x + 7 - p.controls.wx.toNat := by omega
      rw [hcolumn]
      exact p.checkedMapPixel_eq _ (by omega) hline
    · rw [unsigned_ok (by omega), ok_bind, unsigned_ok (by omega), ok_bind]
      exact p.checkedMapPixel_eq _ (Nat.mod_lt _ (by decide)) (Nat.mod_lt _ (by decide))

/-! ## Sprites -/

/-- The row of a sprite that lies on the line, from below if the sprite is upside down. -/
def checkedSpriteRow (s : Sprite) : Checked Int := do
  let row ← signed 15 (p.ly.toNat - s.y)
  if s.flippedDown then do
    let last ← signed 15 (p.spriteHeight - 1)
    signed 15 (last - row)
  else return row

def checkedSpriteRowStart (s : Sprite) : Checked Nat := do
  let row ← p.checkedSpriteRow s
  let tile := if p.spriteHeight = 16 then s.tile &&& 0xFE else s.tile
  unsigned 64 (tile.toNat * 16 + asSize row * 2)

def checkedSpriteColor (s : Sprite) (number : UInt8) : Checked UInt32 :=
  if p.colorOutput then p.objects.checkedColor s.palette number.toNat
  else do
    let shade ← checkedShadeOf (if s.secondPalette then p.controls.obp1 else p.controls.obp0) number
    match p.model with
    | .mono => checkedMonoShade shade
    | .color => p.objects.checkedColor s.secondPalette.toNat shade.toNat

/-- The cell of column `i` of the line in the picture, which is stored row by row. -/
def checkedPictureCell (i : Fin screenWidth) : Checked (Fin (screenWidth * screenHeight)) := do
  let row ← unsigned 64 (p.ly.toNat * screenWidth)
  place (screenWidth * screenHeight) (row + i)

def checkedColorPixel (pixels : Vector Pixel screenWidth) (i : Fin screenWidth) (color : UInt32) :
    Checked (Vector Pixel screenWidth) := do
  let _ ← p.checkedPictureCell i
  return pixels.set i { pixels.get i with color, owned := true } i.isLt

/-- The pixel under a sprite's: nothing is drawn where the background covers the sprite. -/
def checkedMix (s : Sprite) (number : UInt8) (pixels : Vector Pixel screenWidth)
    (i : Fin screenWidth) : Checked (Vector Pixel screenWidth) :=
  if (pixels.get i).owned then return pixels
  else if p.hides s (pixels.get i) then
    return pixels.set i { pixels.get i with owned := true } i.isLt
  else do
    let color ← p.checkedSpriteColor s number
    p.checkedColorPixel pixels i color

def checkedPaintColumn (s : Sprite) (low high : UInt8) (pixels : Vector Pixel screenWidth)
    (column : Nat) : Checked (Vector Pixel screenWidth) := do
  let bit ← checkedWithin (!s.flippedAcross) column
  let number ← checkedColorNumber low high bit
  if number = 0 then return pixels
  else do
    let x ← signed 15 (s.x + column)
    if 0 ≤ x ∧ x < screenWidth then do
      let i ← place screenWidth (asSize x)
      p.checkedMix s number pixels i
    else return pixels

def checkedPaintSprite (pixels : Vector Pixel screenWidth) (s : Sprite) :
    Checked (Vector Pixel screenWidth) := do
  let start ← p.checkedSpriteRowStart s
  let next ← unsigned 64 (start + 1)
  let upper := p.colorOutput && s.upperBank
  let low ← p.checkedVram upper start
  let high ← p.checkedVram upper next
  (List.range 8).foldlM (p.checkedPaintColumn s low high) pixels

/-- A sprite as object memory can hold it, on a line that it covers. -/
structure Sprite.Fits (s : Sprite) (line height : Nat) : Prop where
  left : -8 ≤ s.x
  right : s.x < 0x100
  covers : s.covers line height = true

/-- What the checks of drawing rest on: sprites have one of two heights, there is a cell for each
latched sprite, and each has a row on the line. -/
structure Drawable (p : Ppu) : Prop where
  height : p.spriteHeight = 8 ∨ p.spriteHeight = 16
  few : p.sprites.length ≤ Sprite.perLine
  fit : ∀ s ∈ p.sprites, s.Fits p.ly.toNat p.spriteHeight

variable {p} {s : Sprite}

/-- The row is one of the sprite's. -/
theorem spriteRow_lt (hs : s.Fits p.ly.toNat p.spriteHeight) :
    s.y ≤ p.ly.toNat ∧ (p.ly.toNat : Int) < s.y + p.spriteHeight ∧
      p.spriteRow s < p.spriteHeight := by
  have hc := hs.covers
  simp only [Sprite.covers, Bool.and_eq_true, decide_eq_true_eq] at hc
  obtain ⟨hupper, hlower⟩ := hc
  refine ⟨hupper, hlower, ?_⟩
  unfold spriteRow
  dsimp only
  split <;> omega

theorem checkedSpriteRow_eq (hh : p.spriteHeight = 8 ∨ p.spriteHeight = 16)
    (hs : s.Fits p.ly.toNat p.spriteHeight) :
    p.checkedSpriteRow s = .ok (p.spriteRow s : Int) := by
  obtain ⟨hupper, hlower, -⟩ := spriteRow_lt hs
  have hly := p.ly.toNat_lt
  unfold checkedSpriteRow spriteRow
  rw [signed_ok (by omega) (by omega), ok_bind]
  cases s.flippedDown with
  | false =>
    simp only [Bool.false_eq_true, if_false, pure_eq_ok, Except.ok.injEq]
    omega
  | true =>
    simp only [if_true]
    rw [signed_ok (by omega) (by omega), ok_bind, signed_ok (by omega) (by omega)]
    simp only [Except.ok.injEq]
    omega

/-- Clearing the last bit of a tile number leaves room for the second tile. -/
theorem and_even_le (v : UInt8) : (v &&& 0xFE).toNat ≤ 254 :=
  forall_byte (P := fun v => (v &&& 0xFE).toNat ≤ 254) (by decide +kernel) v

theorem spriteRowStart_lt (hh : p.spriteHeight = 8 ∨ p.spriteHeight = 16)
    (hs : s.Fits p.ly.toNat p.spriteHeight) : p.spriteRowStart s + 1 < 0x1000 := by
  have hrow := (spriteRow_lt hs).2.2
  have ht := s.tile.toNat_lt
  have heven := and_even_le s.tile
  unfold spriteRowStart
  rcases hh with hh | hh
  · rw [hh] at hrow
    have hshort : ¬ p.spriteHeight = 16 := by omega
    rw [if_neg hshort]
    dsimp only
    omega
  · rw [if_pos hh]
    dsimp only
    omega

theorem checkedSpriteRowStart_eq (hh : p.spriteHeight = 8 ∨ p.spriteHeight = 16)
    (hs : s.Fits p.ly.toNat p.spriteHeight) :
    p.checkedSpriteRowStart s = .ok (p.spriteRowStart s) := by
  have hstart := spriteRowStart_lt hh hs
  have hrow := (spriteRow_lt hs).2.2
  have hsize : asSize (p.spriteRow s : Int) = p.spriteRow s := by
    rw [asSize_eq (by omega) (by omega)]
    rfl
  unfold spriteRowStart at hstart ⊢
  dsimp only at hstart ⊢
  rw [checkedSpriteRowStart, checkedSpriteRow_eq hh hs, ok_bind, hsize]
  exact unsigned_ok (by omega)

theorem checkedSpriteColor_eq (s : Sprite) {number : UInt8} (h : number.toNat ≤ 3) :
    p.checkedSpriteColor s number = .ok (p.spriteColor s number) := by
  unfold checkedSpriteColor spriteColor
  split
  · exact p.objects.checkedColor_eq (and_seven_le s.flags) h
  · rw [checkedShadeOf_eq h, ok_bind]
    cases p.model with
    | mono => exact checkedMonoShade_eq (shadeOf_le ..)
    | color =>
      have hpalette : s.secondPalette.toNat ≤ 7 := Nat.le_trans (Bool.toNat_le _) (by decide)
      exact p.objects.checkedColor_eq hpalette (shadeOf_le ..)

/-- Every column of a visible line has its cell. -/
theorem checkedPictureCell_ok (hl : p.ly.toNat < screenHeight) (i : Fin screenWidth) :
    ∃ cell, p.checkedPictureCell i = .ok cell := by
  have hi : i.val < 160 := i.isLt
  have hl' : p.ly.toNat < 144 := hl
  have hrow : p.ly.toNat * screenWidth < 2 ^ 64 := by
    unfold screenWidth
    omega
  have hcell : p.ly.toNat * screenWidth + i < screenWidth * screenHeight := by
    unfold screenWidth screenHeight
    omega
  refine ⟨⟨p.ly.toNat * screenWidth + i, hcell⟩, ?_⟩
  rw [checkedPictureCell, unsigned_ok hrow, ok_bind, place_ok hcell]

theorem checkedColorPixel_eq (hl : p.ly.toNat < screenHeight) (pixels : Vector Pixel screenWidth)
    (i : Fin screenWidth) (color : UInt32) :
    p.checkedColorPixel pixels i color =
      .ok (pixels.set i { pixels.get i with color, owned := true } i.isLt) := by
  obtain ⟨cell, hcell⟩ := checkedPictureCell_ok hl i
  rw [checkedColorPixel, hcell]
  rfl

theorem checkedMix_eq (hl : p.ly.toNat < screenHeight) (s : Sprite) {number : UInt8}
    (hn : number.toNat ≤ 3) (pixels : Vector Pixel screenWidth) (i : Fin screenWidth) :
    p.checkedMix s number pixels i =
      .ok (if (pixels.get i).owned then pixels
        else pixels.set i { pixels.get i with
          color := if p.hides s (pixels.get i) then (pixels.get i).color
            else p.spriteColor s number
          owned := true } i.isLt) := by
  unfold checkedMix
  split
  · rfl
  · split
    · rfl
    · rw [checkedSpriteColor_eq s hn, ok_bind, checkedColorPixel_eq hl]

theorem checkedPaintColumn_eq (hl : p.ly.toNat < screenHeight) (hleft : -8 ≤ s.x)
    (hright : s.x < 0x100) (pixels : Vector Pixel screenWidth) {column : Nat} (hc : column < 8) :
    p.checkedPaintColumn s (p.vramByte (p.colorOutput && s.upperBank) (p.spriteRowStart s))
        (p.vramByte (p.colorOutput && s.upperBank) (p.spriteRowStart s + 1)) pixels column =
      .ok (p.paintColumn s pixels column) := by
  have hbit := within_le (!s.flippedAcross) column
  have hnumber : colorNumber (p.vramByte (p.colorOutput && s.upperBank) (p.spriteRowStart s))
      (p.vramByte (p.colorOutput && s.upperBank) (p.spriteRowStart s + 1))
      (if !s.flippedAcross then 7 - column % 8 else column % 8) = p.spriteNumber s column := by
    unfold spriteNumber
    rw [Nat.mod_eq_of_lt hc]
    cases s.flippedAcross <;> rfl
  have hn : (p.spriteNumber s column).toNat ≤ 3 := colorNumber_le ..
  unfold checkedPaintColumn paintColumn
  rw [checkedWithin_eq, ok_bind, checkedColorNumber_eq _ _ (Nat.lt_succ_of_le hbit), ok_bind,
    hnumber]
  by_cases hzero : p.spriteNumber s column = 0
  · rw [if_pos hzero, dif_neg (fun h => h.1 hzero)]
    rfl
  rw [if_neg hzero, signed_ok (by omega) (by omega), ok_bind]
  by_cases hx : 0 ≤ s.x + column ∧ s.x + column < screenWidth
  · obtain ⟨hpos, hlt⟩ := hx
    have hsize : asSize (s.x + column) = (s.x + column).toNat := asSize_eq hpos (by omega)
    have hcell : (s.x + column).toNat < screenWidth := by
      unfold screenWidth at hlt ⊢
      omega
    rw [if_pos ⟨hpos, hlt⟩, dif_pos ⟨hzero, hpos, hcell⟩, hsize, place_ok hcell, ok_bind,
      checkedMix_eq hl s hn]
    rfl
  · have hout : ¬(p.spriteNumber s column ≠ 0 ∧ 0 ≤ s.x + column ∧
        (s.x + column).toNat < screenWidth) := by
      unfold screenWidth at hx ⊢
      omega
    rw [if_neg hx, dif_neg hout]
    rfl

/-- **A sprite that covers the line is drawn without fault.** -/
theorem checkedPaintSprite_eq (hl : p.ly.toNat < screenHeight)
    (hh : p.spriteHeight = 8 ∨ p.spriteHeight = 16) (hs : s.Fits p.ly.toNat p.spriteHeight)
    (pixels : Vector Pixel screenWidth) :
    p.checkedPaintSprite pixels s = .ok (p.paintSprite pixels s) := by
  have hstart := spriteRowStart_lt hh hs
  rw [checkedPaintSprite, checkedSpriteRowStart_eq hh hs, ok_bind, unsigned_ok (by omega), ok_bind]
  dsimp only
  rw [p.checkedVram_eq _ (by omega), ok_bind, p.checkedVram_eq _ (by omega), ok_bind]
  refine foldlM_ok (fun pixels column hc => ?_) pixels
  exact checkedPaintColumn_eq hl hs.left hs.right pixels (List.mem_range.1 hc)

/-- The latched sprites, out of a table of ten. -/
def checkedLatched (p : Ppu) : Checked (List Sprite) :=
  if p.sprites.length ≤ Sprite.perLine then return p.sprites else .error .outOfBounds

/-- The pixel of column `x` before any sprite is drawn. -/
def checkedBehind (p : Ppu) (x : Fin screenWidth) : Checked Pixel := do
  let pixel ← p.checkedBackdrop x
  let _ ← p.checkedPictureCell x
  return pixel

def checkedLinePixels (p : Ppu) : Checked (Vector Pixel screenWidth) := do
  let pixels ← Vector.ofFnM p.checkedBehind
  if p.controls.spritesOn then do
    let sprites ← p.checkedLatched
    sprites.foldlM p.checkedPaintSprite pixels
  else return pixels

def checkedDrawLine (p : Ppu) : Checked Ppu :=
  if h : p.ly.toNat < screenHeight then do
    let pixels ← p.checkedLinePixels
    return { p with
      frame := p.frame.set p.ly.toNat (pixels.map Pixel.color)
      window.line := if p.showsWindow then p.window.line + 1 else p.window.line }
  else return p

theorem checkedBehind_eq (hl : p.ly.toNat < screenHeight) (x : Fin screenWidth) :
    p.checkedBehind x = pure (p.backdrop x) := by
  obtain ⟨cell, hcell⟩ := checkedPictureCell_ok hl x
  rw [checkedBehind, p.checkedBackdrop_eq x.isLt, ok_bind, hcell]
  rfl

theorem checkedLinePixels_eq (h : Drawable p) (hl : p.ly.toNat < screenHeight) :
    p.checkedLinePixels = .ok p.linePixels := by
  unfold checkedLinePixels linePixels checkedLatched
  rw [funext (checkedBehind_eq hl), Vector.ofFnM_pure, pure_eq_ok, ok_bind, if_pos h.few]
  dsimp only
  split
  · rw [pure_eq_ok, ok_bind]
    exact foldlM_ok (fun pixels s hs => checkedPaintSprite_eq hl h.height (h.fit s hs) pixels) _
  · rfl

/-- **A line is drawn without fault.** -/
theorem checkedDrawLine_eq (h : Drawable p) : p.checkedDrawLine = .ok p.drawLine := by
  unfold checkedDrawLine drawLine
  split
  · rename_i hl
    rw [checkedLinePixels_eq h hl]
    rfl
  · rfl

end Handheld.Ppu
