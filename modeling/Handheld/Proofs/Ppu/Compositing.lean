import Handheld.Proofs.Checked.Display
import Handheld.Proofs.Ppu.Guise
import Handheld.Proofs.Ppu.Reel

/-!
# Lines, pixel by pixel

A line is drawn in passes: background and window first, then one sprite after the other, column by
column, with a mark on every pixel that has found its owner. What a pixel shows in the end can be
said without them.

* `behind`, `spriteDot`: background and sprites in a column, from the bytes of video memory.
* `composited`: the color of a column.
* `foldl_claims`: passes over marked pixels, as the first claim on each.
* `backdrop_shows`, `paintSprite_claims`: what each pass does to a pixel.
* `line_composited` (every display that occurs): the line drawn when a transfer ends.
-/

namespace Handheld.Ppu

variable {p : Ppu} {s : Sprite}

/-- A byte of a bank of video memory, as a number. -/
def videoByte (p : Ppu) (upper : Bool) (offset : Nat) : Nat :=
  if offset < 0x2000 then (p.vram[upper.toNat * 0x2000 + offset]?.getD 0).toNat else 0

/-- **The color number of a dot of a tile**, counted from its upper left corner. A row is two bytes
whose highest bits are the leftmost dot; the second byte counts twice. -/
def tileDot (p : Ppu) (upper : Bool) (start x y : Nat) : Nat :=
  ((p.videoByte upper (start + 2 * y)).testBit (7 - x)).toNat +
    2 * ((p.videoByte upper (start + 2 * y + 1)).testBit (7 - x)).toNat

/-- A place among `size`, from the other side if it is mirrored. -/
def mirror (mirrored : Bool) (size i : Nat) : Nat := if mirrored then size - 1 - i else i

/-- A byte with a sign. -/
def signedByte (v : Nat) : Int := if v < 128 then v else v - 256

/-- The shade that a palette register gives to a color number. -/
def shadeAt (palette : UInt8) (number : Nat) : Nat := palette.toNat / 4 ^ number % 4

/-- The color of a shade. Monochrome hardware has its own, color hardware looks it up. -/
def shadeColor (p : Ppu) (ram : PaletteRam) (palette shade : Nat) : UInt32 :=
  match p.model with
  | .mono => monoShade shade.toUInt8
  | .color => ram.color palette shade

/-- A bit of LCDC. -/
def lcdcBit (p : Ppu) (k : Nat) : Bool := p.controls.lcdc.toNat.testBit k

/-- What lies behind the sprites in a column. -/
structure Behind where
  number : Nat
  color : UInt32
  /-- The attributes put it in front of sprites. -/
  inFront : Bool

/-- Where a tile of the background starts. Tile numbers count from the start of video memory, or
both ways from its middle. -/
def tileStart (p : Ppu) (tile : Nat) : Nat :=
  if p.lcdcBit 4 then 16 * tile else (0x1000 + 16 * signedByte tile).toNat

/-- **A dot of a map**, in one of its 256 columns and rows. -/
def mapDot (p : Ppu) (upperMap : Bool) (x y : Nat) : Behind :=
  let place := (if upperMap then 0x1C00 else 0x1800) + 32 * (y / 8) + x / 8
  let attributes := if p.colorOutput then p.videoByte true place else 0
  let number := p.tileDot (attributes.testBit 3) (p.tileStart (p.videoByte false place))
    (mirror (attributes.testBit 5) 8 (x % 8)) (mirror (attributes.testBit 6) 8 (y % 8))
  { number
    inFront := attributes.testBit 7
    color :=
      if p.colorOutput then p.background.color (attributes % 8) number
      else p.shadeColor p.background 0 (shadeAt p.controls.bgp number) }

/-- **Background and window** in a column. Monochrome output can switch both off. -/
def behind (p : Ppu) (x : Nat) : Behind :=
  let edge : Int := p.controls.wx.toNat - 7
  if p.colorOutput || p.lcdcBit 0 then
    if p.window.onLine = true ∧ edge < 160 ∧ edge ≤ x then
      p.mapDot (p.lcdcBit 6) (x - edge).toNat p.window.line.toNat
    else
      p.mapDot (p.lcdcBit 3) ((x + p.controls.scx.toNat) % 256)
        ((p.ly.toNat + p.controls.scy.toNat) % 256)
  else { number := 0, color := p.shadeColor p.background 0 0, inFront := false }

/-- **The color number of a sprite** in a column of the line. Zero is transparent, and so is what
lies beside the sprite. A tall sprite has its second half in the next tile. -/
def spriteDot (p : Ppu) (s : Sprite) (x : Nat) : Nat :=
  if s.x ≤ x ∧ x < s.x + 8 then
    let row := mirror (s.flags.toNat.testBit 6) p.spriteHeight (p.ly.toNat - s.y).toNat
    let tile := if p.spriteHeight = 16 then 2 * (s.tile.toNat / 2) + row / 8 else s.tile.toNat
    p.tileDot (p.colorOutput && s.flags.toNat.testBit 3) (16 * tile)
      (mirror (s.flags.toNat.testBit 5) 8 (x - s.x).toNat) (row % 8)
  else 0

/-- The color that a sprite gives to a color number. -/
def spriteDotColor (p : Ppu) (s : Sprite) (number : Nat) : UInt32 :=
  let second := s.flags.toNat.testBit 4
  if p.colorOutput then p.objects.color (s.flags.toNat % 8) number
  else
    p.shadeColor p.objects second.toNat
      (shadeAt (if second then p.controls.obp1 else p.controls.obp0) number)

/-- The background covers the sprite. On color output LCDC can take all priority away. -/
def covers (p : Ppu) (s : Sprite) (under : Behind) : Bool :=
  (!p.colorOutput || p.lcdcBit 0) && under.number != 0 &&
    (s.flags.toNat.testBit 7 || (p.colorOutput && under.inFront))

/-- The sprite that owns a column: the first in drawing order that is not transparent there. -/
def owner? (p : Ppu) (x : Nat) : Option Sprite :=
  if p.lcdcBit 1 then p.sprites.find? fun s => p.spriteDot s x != 0 else none

/-- **The color of a column.** -/
def composited (p : Ppu) (x : Nat) : UInt32 :=
  match p.owner? x with
  | some s =>
    if p.covers s (p.behind x) then (p.behind x).color else p.spriteDotColor s (p.spriteDot s x)
  | none => (p.behind x).color

theorem bit_moved (v : UInt8) (k : Fin 8) :
    (v >>> k.val.toUInt8) &&& 1 = (v.toNat.testBit k).toUInt8 := by
  revert k
  revert v
  exact forall_byte (by decide +kernel)

/-- The bits of tile attributes and of the flags of a sprite. -/
theorem flag_bits (v : UInt8) :
    (v &&& 0x08 != 0) = v.toNat.testBit 3 ∧ (v &&& 0x10 != 0) = v.toNat.testBit 4 ∧
      (v &&& 0x20 != 0) = v.toNat.testBit 5 ∧ (v &&& 0x40 != 0) = v.toNat.testBit 6 ∧
      (v &&& 0x80 != 0) = v.toNat.testBit 7 :=
  ⟨bit_set v 3, bit_set v 4, bit_set v 5, bit_set v 6, bit_set v 7⟩

theorem lcdc_bits (p : Ppu) :
    p.controls.backgroundOn = p.lcdcBit 0 ∧ p.controls.spritesOn = p.lcdcBit 1 ∧
      p.controls.mapUpper = p.lcdcBit 3 ∧ p.controls.tilesFromStart = p.lcdcBit 4 ∧
      p.controls.windowMapUpper = p.lcdcBit 6 :=
  ⟨bit_set _ 0, bit_set _ 1, bit_set _ 3, bit_set _ 4, bit_set _ 6⟩

theorem videoByte_eq (p : Ppu) (upper : Bool) {offset : Nat} (h : offset < 0x2000) :
    p.videoByte upper offset = (p.vramByte upper offset).toNat := by
  have hcell : (vramCell upper offset).val = upper.toNat * 0x2000 + offset :=
    congrArg (upper.toNat * 0x2000 + ·) (Nat.mod_eq_of_lt h)
  have hlt := (vramCell upper offset).isLt
  rw [hcell] at hlt
  rw [videoByte, if_pos h, vramByte, Vector.getElem?_eq_getElem hlt, Option.getD_some]
  congr 2
  exact hcell.symm

theorem colorNumber_eq (low high : UInt8) {bit : Nat} (h : bit < 8) :
    (colorNumber low high bit).toNat =
      (low.toNat.testBit bit).toNat + 2 * (high.toNat.testBit bit).toNat := by
  have hbit (v : UInt8) : (v >>> bit.toUInt8) &&& 1 = (v.toNat.testBit bit).toUInt8 :=
    bit_moved v ⟨bit, h⟩
  rw [colorNumber, hbit, hbit]
  cases low.toNat.testBit bit <;> cases high.toNat.testBit bit <;> decide

theorem shadeOf_eq (palette : UInt8) {number : UInt8} (h : number.toNat ≤ 3) :
    (shadeOf palette number).toNat = shadeAt palette number.toNat := by
  have hshades : ∀ palette, ∀ n : Fin 4,
      (shadeOf palette n.val.toUInt8).toNat = shadeAt palette n := forall_byte (by decide +kernel)
  simpa using hshades palette ⟨number.toNat, by omega⟩

theorem low_bits (v : UInt8) : (v &&& 7).toNat = v.toNat % 8 := by
  rw [UInt8.toNat_and]
  exact Nat.and_two_pow_sub_one_eq_mod v.toNat 3

theorem even_tile (v : UInt8) : (v &&& 0xFE).toNat = 2 * (v.toNat / 2) := by
  revert v
  exact forall_byte (by decide +kernel)

/-! ## Background and window -/

/-- A pixel before any sprite shows what lies behind the sprites. -/
structure Pixel.Shows (pixel : Pixel) (under : Behind) : Prop where
  number : pixel.number.toNat = under.number
  color : pixel.color = under.color
  priority : pixel.priority = under.inFront
  owned : pixel.owned = false

theorem backgroundShade_eq (shade : UInt8) :
    p.backgroundShade shade = p.shadeColor p.background 0 shade.toNat := by
  unfold backgroundShade shadeColor
  cases p.model with
  | mono => simp
  | color => rfl

/-- The color number of a dot, from the two bytes of its row. -/
theorem tileDot_eq (p : Ppu) (upper : Bool) {start x y bit : Nat} (hx : x < 8)
    (hstart : start + 2 * y + 1 < 0x2000) (hbit : bit = 7 - x) :
    (colorNumber (p.vramByte upper (start + 2 * y)) (p.vramByte upper (start + 2 * y + 1))
      bit).toNat = p.tileDot upper start x y := by
  rw [hbit, colorNumber_eq _ _ (by omega), tileDot, p.videoByte_eq upper hstart,
    p.videoByte_eq upper (by omega)]

theorem mirror_lt (mirrored : Bool) {size i : Nat} (h : i < size) :
    mirror mirrored size i < size := by
  unfold mirror
  split <;> omega

theorem tileRow_eq (p : Ppu) (tile : UInt8) (row : Nat) :
    p.tileRow tile row = p.tileStart tile.toNat + 2 * row := by
  have ht := tile.toNat_lt
  have hhigh : tile ≥ 0x80 ↔ 0x80 ≤ tile.toNat := UInt8.le_iff_toNat_le
  have hfrom : p.controls.tilesFromStart = p.lcdcBit 4 := p.lcdc_bits.2.2.2.1
  unfold tileRow tileStart signedByte
  rw [hfrom]
  cases p.lcdcBit 4 with
  | true =>
    simp only [Bool.true_or, if_true]
    omega
  | false =>
    simp only [Bool.false_or, decide_eq_true_eq, hhigh, Bool.false_eq_true, if_false]
    split <;> split <;> omega

/-- **A dot of a map**, mirrored both ways as its attributes say. -/
theorem mapPixel_shows (upperMap : Bool) {x y : Nat} (hx : x < 0x100) (hy : y < 0x100) :
    (p.mapPixel (mapBase upperMap) x y).Shows (p.mapDot upperMap x y) := by
  have hbase := mapBase_le upperMap
  have hplace : mapPlace (mapBase upperMap) x y =
      (if upperMap then 0x1C00 else 0x1800) + 32 * (y / 8) + x / 8 := by
    unfold mapPlace mapBase
    omega
  have hlt : mapPlace (mapBase upperMap) x y < 0x2000 := by
    unfold mapPlace
    omega
  unfold mapPixel mapDot
  rw [← hplace]
  generalize mapPlace (mapBase upperMap) x y = place at hlt
  have hattributes : (if p.colorOutput then p.videoByte true place else 0) =
      (if p.colorOutput then p.vramByte true place else 0).toNat := by
    rw [p.videoByte_eq true hlt]
    cases p.colorOutput <;> rfl
  dsimp only
  rw [hattributes, p.videoByte_eq false hlt]
  generalize (if p.colorOutput then p.vramByte true place else 0) = attributes
  generalize p.vramByte false place = tile
  obtain ⟨hbank, -, hacross, hdown, hfront⟩ := flag_bits attributes
  rw [hbank, hacross, hdown, hfront]
  have hx' := mirror_lt (attributes.toNat.testBit 5) (Nat.mod_lt x (by decide : 8 > 0))
  have hy' := mirror_lt (attributes.toNat.testBit 6) (Nat.mod_lt y (by decide : 8 > 0))
  have hbit : (if attributes.toNat.testBit 5 then x % 8 else 7 - x % 8) =
      7 - mirror (attributes.toNat.testBit 5) 8 (x % 8) := by
    unfold mirror
    split <;> omega
  have hrow : (if attributes.toNat.testBit 6 then 7 - y % 8 else y % 8) =
      mirror (attributes.toNat.testBit 6) 8 (y % 8) := rfl
  have hstart := p.tileRow_lt tile (Nat.le_of_lt_succ hy')
  rw [hrow]
  rw [p.tileRow_eq] at hstart ⊢
  have hnumber := p.tileDot_eq (attributes.toNat.testBit 3) hx'
    (Nat.lt_trans hstart (by decide)) hbit
  refine ⟨hnumber, ?_, rfl, rfl⟩
  -- the colors agree because the numbers do
  dsimp only
  split
  · rw [low_bits, hnumber]
  · rw [backgroundShade_eq, shadeOf_eq _ (colorNumber_le ..), hnumber]

/-- **Background and window.** The window is shifted by seven columns, so that it can start beside
the screen. -/
theorem backdrop_shows {x : Nat} (hx : x < screenWidth) : (p.backdrop x).Shows (p.behind x) := by
  have hwx := p.controls.wx.toNat_lt
  have hwidth : screenWidth = 160 := rfl
  have hshows : p.showsBackground = (p.colorOutput || p.lcdcBit 0) := by
    rw [showsBackground, p.lcdc_bits.1]
  unfold backdrop behind showsWindow
  rw [hshows, p.lcdc_bits.2.2.1, p.lcdc_bits.2.2.2.2]
  dsimp only
  cases p.colorOutput || p.lcdcBit 0 with
  | false => exact ⟨rfl, backgroundShade_eq 0, rfl, rfl⟩
  | true =>
    simp only [Bool.not_true, Bool.false_eq_true, if_false, if_true, Bool.true_and]
    -- the program keeps both sides seven columns larger, so that neither is negative
    by_cases hwindow : p.window.onLine = true ∧ (p.controls.wx.toNat : Int) - 7 < 160 ∧
        (p.controls.wx.toNat : Int) - 7 ≤ x
    · obtain ⟨honLine, hleft, hright⟩ := hwindow
      have hcolumn : ((x : Int) - (p.controls.wx.toNat - 7)).toNat =
          x + 7 - p.controls.wx.toNat := by
        omega
      have hshown : ((p.window.onLine && decide (p.controls.wx.toNat < screenWidth + 7)) &&
          decide (p.controls.wx.toNat ≤ x + 7)) = true := by
        simp only [honLine, Bool.true_and, Bool.and_eq_true, decide_eq_true_eq]
        omega
      rw [if_pos hshown, if_pos ⟨honLine, hleft, hright⟩, hcolumn]
      exact mapPixel_shows _ (by omega) p.window.line.toNat_lt
    · have hhidden : ¬((p.window.onLine && decide (p.controls.wx.toNat < screenWidth + 7)) &&
          decide (p.controls.wx.toNat ≤ x + 7)) = true := by
        simp only [Bool.and_eq_true, decide_eq_true_eq]
        rintro ⟨⟨honLine, hleft⟩, hright⟩
        exact hwindow ⟨honLine, by omega, by omega⟩
      rw [if_neg hhidden, if_neg hwindow]
      exact mapPixel_shows _ (Nat.mod_lt _ (by decide)) (Nat.mod_lt _ (by decide))

/-! ## Claims on a pixel -/

/-- **A claim on a pixel**: the color that it gets, from what it was. A pixel that is owned stays.
-/
def mixed (pixel : Pixel) : Option (Pixel → UInt32) → Pixel
  | some color =>
    if pixel.owned then pixel else { pixel with color := color pixel, owned := true }
  | none => pixel

theorem mixed_owned {pixel : Pixel} (h : pixel.owned = true) (claim : Option (Pixel → UInt32)) :
    mixed pixel claim = pixel := by
  cases claim with
  | none => rfl
  | some color => exact if_pos h

theorem mixed_some (pixel : Pixel) (color : Pixel → UInt32) :
    (mixed pixel (some color)).owned = true := by
  unfold mixed
  dsimp only
  split
  · assumption
  · rfl

/-- **Passes over a line** leave on each pixel the first claim on it. -/
theorem foldl_claims {α : Type} {x : Nat} (hx : x < screenWidth)
    {pass : Vector Pixel screenWidth → α → Vector Pixel screenWidth}
    {claim : α → Option (Pixel → UInt32)} {l : List α}
    (hpass : ∀ a ∈ l, ∀ pixels, (pass pixels a)[x] = mixed pixels[x] (claim a))
    (pixels : Vector Pixel screenWidth) :
    (l.foldl pass pixels)[x] = mixed pixels[x] (l.findSome? claim) := by
  induction l generalizing pixels with
  | nil => rfl
  | cons a rest ih =>
    have hrest := ih fun b hb => hpass b (List.mem_cons_of_mem a hb)
    rw [List.foldl_cons, hrest, hpass a List.mem_cons_self, List.findSome?_cons]
    cases claim a with
    | none => rfl
    | some color =>
      -- now the pixel is owned, by this claim or by an earlier one
      exact mixed_owned (mixed_some _ color) _

/-- Where only one member of a list can claim, its claim is the first. -/
theorem findSome?_of_only {α β : Type} {f : α → Option β} {a : α} {l : List α} (ha : a ∈ l)
    (hothers : ∀ b ∈ l, b ≠ a → f b = none) : l.findSome? f = f a := by
  cases hfirst : l.findSome? f with
  | none => exact (List.findSome?_eq_none_iff.1 hfirst a ha).symm
  | some v =>
    obtain ⟨b, hb, hv⟩ := List.exists_of_findSome?_eq_some hfirst
    by_cases hba : b = a
    · rw [← hba, hv]
    · rw [hothers b hb hba] at hv
      cases hv

/-- The claim of one column of a sprite. -/
def columnClaim (p : Ppu) (s : Sprite) (x column : Nat) : Option (Pixel → UInt32) :=
  if s.x + column = x ∧ p.spriteNumber s column ≠ 0 then
    some fun under =>
      if p.hides s under then under.color else p.spriteColor s (p.spriteNumber s column)
  else none

theorem paintColumn_claims {x : Nat} (hx : x < screenWidth) (column : Nat)
    (pixels : Vector Pixel screenWidth) :
    (p.paintColumn s pixels column)[x] = mixed pixels[x] (p.columnClaim s x column) := by
  unfold paintColumn columnClaim
  dsimp only
  by_cases hclaim : s.x + column = x ∧ p.spriteNumber s column ≠ 0
  · obtain ⟨hcolumn, hnumber⟩ := hclaim
    have hat : (s.x + column).toNat = x := by omega
    rw [dif_pos ⟨hnumber, by omega, by omega⟩, if_pos (And.intro hcolumn hnumber)]
    simp only [hat]
    show (if pixels[x].owned then pixels else _)[x] = if pixels[x].owned then _ else _
    split
    · rfl
    · rw [Vector.getElem_set_self]
  · rw [if_neg hclaim]
    split
    · rename_i hpaints
      -- the column lies elsewhere
      have helse : (s.x + column).toNat ≠ x := by
        intro hat
        exact hclaim ⟨by omega, hpaints.1⟩
      split
      · rfl
      · rw [Vector.getElem_set_ne _ _ helse]
        rfl
    · rfl

/-- The row of the line in a sprite, upside down if its flags say so. -/
theorem spriteRow_eq (p : Ppu) (s : Sprite) :
    p.spriteRow s =
      mirror (s.flags.toNat.testBit 6) p.spriteHeight (p.ly.toNat - s.y).toNat := by
  have hdown : s.flippedDown = s.flags.toNat.testBit 6 := (flag_bits s.flags).2.2.2.1
  rw [spriteRow, hdown]
  rfl

/-- A tall sprite takes its lower half from the next tile. -/
theorem spriteRowStart_eq (hh : p.spriteHeight = 8 ∨ p.spriteHeight = 16)
    (hs : s.Fits p.ly.toNat p.spriteHeight) :
    p.spriteRowStart s =
      16 * (if p.spriteHeight = 16 then 2 * (s.tile.toNat / 2) + p.spriteRow s / 8
        else s.tile.toNat) + 2 * (p.spriteRow s % 8) := by
  have hrow := (spriteRow_lt hs).2.2
  unfold spriteRowStart
  dsimp only
  split
  · rw [even_tile]
    omega
  · omega

/-- **The color number of a column of a sprite**, where the column lies on the screen. -/
theorem spriteNumber_eq (hh : p.spriteHeight = 8 ∨ p.spriteHeight = 16)
    (hs : s.Fits p.ly.toNat p.spriteHeight) {column x : Nat} (hc : column < 8)
    (hx : s.x + column = x) : (p.spriteNumber s column).toNat = p.spriteDot s x := by
  have hin : s.x ≤ x ∧ (x : Int) < s.x + 8 := by omega
  have hcolumn : ((x : Int) - s.x).toNat = column := by omega
  obtain ⟨hbank, -, hacross, -⟩ := flag_bits s.flags
  have hbit : (if s.flippedAcross then column else 7 - column) =
      7 - mirror (s.flags.toNat.testBit 5) 8 column := by
    have hset : s.flippedAcross = s.flags.toNat.testBit 5 := hacross
    rw [hset]
    unfold mirror
    split <;> omega
  have hstart := spriteRowStart_lt hh hs
  rw [spriteRowStart_eq hh hs] at hstart
  unfold spriteNumber spriteDot
  rw [if_pos hin, hcolumn, ← spriteRow_eq, spriteRowStart_eq hh hs, Sprite.upperBank, hbank]
  exact p.tileDot_eq _ (mirror_lt _ hc) (by omega) hbit

theorem spriteColor_eq (s : Sprite) {number : UInt8} (h : number.toNat ≤ 3) :
    p.spriteColor s number = p.spriteDotColor s number.toNat := by
  have hsecond : s.secondPalette = s.flags.toNat.testBit 4 := (flag_bits s.flags).2.1
  unfold spriteColor spriteDotColor shadeColor
  rw [hsecond, Sprite.palette, low_bits]
  dsimp only
  split
  · rfl
  · rw [← shadeOf_eq _ h]
    cases p.model with
    | mono => simp
    | color => rfl

/-- The claim of a sprite on a pixel of the line. -/
def spriteClaim (p : Ppu) (x : Nat) (s : Sprite) : Option (Pixel → UInt32) :=
  if p.spriteDot s x != 0 then
    some fun under =>
      if p.hides s under then under.color else p.spriteDotColor s (p.spriteDot s x)
  else none

/-- The columns of a sprite make the claim of the sprite. -/
theorem columnClaim_eq (hh : p.spriteHeight = 8 ∨ p.spriteHeight = 16)
    (hs : s.Fits p.ly.toNat p.spriteHeight) (x : Nat) :
    (List.range 8).findSome? (p.columnClaim s x) = p.spriteClaim x s := by
  by_cases hin : s.x ≤ x ∧ (x : Int) < s.x + 8
  · obtain ⟨column, hcolumn⟩ : ∃ column : Nat, s.x + column = x := ⟨(x - s.x).toNat, by omega⟩
    have hc : column < 8 := by omega
    have honly : (List.range 8).findSome? (p.columnClaim s x) = p.columnClaim s x column := by
      apply findSome?_of_only (List.mem_range.2 hc)
      intro other _ hother
      exact if_neg fun h => hother (by omega)
    have hnumber := spriteNumber_eq hh hs hc hcolumn
    have hopaque : p.spriteNumber s column ≠ 0 ↔ (p.spriteDot s x != 0) = true := by
      rw [← hnumber, bne_iff_ne, ne_eq, ne_eq, ← UInt8.toNat_inj]
      rfl
    have hle : (p.spriteNumber s column).toNat ≤ 3 := colorNumber_le ..
    have hcolor : p.spriteColor s (p.spriteNumber s column) =
        p.spriteDotColor s (p.spriteDot s x) := by
      rw [spriteColor_eq s hle, hnumber]
    rw [honly, columnClaim, spriteClaim, hcolor]
    simp only [hcolumn, true_and, hopaque]
  · have hnone : p.spriteDot s x = 0 := if_neg hin
    rw [spriteClaim, hnone]
    apply List.findSome?_eq_none_iff.2
    intro column hc
    have hc := List.mem_range.1 hc
    exact if_neg fun h => hin (by omega)

theorem paintSprite_claims (hh : p.spriteHeight = 8 ∨ p.spriteHeight = 16)
    (hs : s.Fits p.ly.toNat p.spriteHeight) {x : Nat} (hx : x < screenWidth)
    (pixels : Vector Pixel screenWidth) :
    (p.paintSprite pixels s)[x] = mixed pixels[x] (p.spriteClaim x s) := by
  rw [paintSprite, foldl_claims hx (fun column _ => paintColumn_claims hx column),
    columnClaim_eq hh hs]

/-- **A pixel of the line** shows the backdrop, or the first sprite that claims it. -/
theorem linePixels_claims (h : Drawable p) {x : Nat} (hx : x < screenWidth) :
    p.linePixels[x] =
      mixed (p.backdrop x)
        (if p.lcdcBit 1 then p.sprites.findSome? (p.spriteClaim x) else none) := by
  have hback : (Vector.ofFn fun x : Fin screenWidth => p.backdrop x.val)[x] = p.backdrop x :=
    Vector.getElem_ofFn hx
  unfold linePixels
  rw [p.lcdc_bits.2.1]
  split
  · rw [foldl_claims hx fun s hs => paintSprite_claims h.height (h.fit s hs) hx, hback]
  · exact hback

/-- The background covers a sprite by what both show. -/
theorem hides_eq {under : Behind} {pixel : Pixel} (h : pixel.Shows under) (s : Sprite) :
    p.hides s pixel = p.covers s under := by
  have hbehind : s.behindBackground = s.flags.toNat.testBit 7 := (flag_bits s.flags).2.2.2.2
  have hopaque : (pixel.number != 0) = (under.number != 0) := by
    rw [← h.number, Bool.eq_iff_iff, bne_iff_ne, bne_iff_ne, ne_eq, ne_eq, ← UInt8.toNat_inj]
    rfl
  rw [hides, covers, mixesPriorities, p.lcdc_bits.1, hopaque, hbehind, h.priority]

/-- The first claim is that of the sprite that owns the column. -/
theorem findSome?_claim (p : Ppu) (x : Nat) :
    (if p.lcdcBit 1 then p.sprites.findSome? (p.spriteClaim x) else none) =
      (p.owner? x).map fun s under =>
        if p.hides s under then under.color else p.spriteDotColor s (p.spriteDot s x) := by
  unfold owner?
  split
  · rw [List.find?_eq_findSome?_guard, List.map_findSome?]
    congr 1
    funext s
    unfold spriteClaim
    rw [Function.comp_apply, Option.guard]
    split <;> rfl
  · rfl

/-- **Every pixel of the line has its color.** -/
theorem linePixels_composited (h : Drawable p) {x : Nat} (hx : x < screenWidth) :
    p.linePixels[x].color = p.composited x := by
  have hshows := backdrop_shows (p := p) hx
  rw [linePixels_claims h hx, findSome?_claim, composited]
  cases p.owner? x with
  | none => exact hshows.color
  | some s =>
    dsimp only [Option.map_some, mixed]
    rw [if_neg (by rw [hshows.owned]; decide), hides_eq hshows, hshows.color]

theorem drawLine_composited (h : Drawable p) (hl : p.ly.toNat < screenHeight) {y x : Nat}
    (hy : y < screenHeight) (hx : x < screenWidth) :
    p.drawLine.frame[y][x] = if y = p.ly.toNat then p.composited x else p.frame[y][x] := by
  rw [drawLine_of_visible hl]
  show (p.frame.set p.ly.toNat (p.linePixels.map Pixel.color))[y][x] = _
  by_cases hline : y = p.ly.toNat
  · simp only [hline, if_true, Vector.getElem_set_self, Vector.getElem_map]
    exact linePixels_composited h hx
  · rw [if_neg hline]
    simp only [Vector.getElem_set_ne _ _ (Ne.symm hline)]

/-- The dot that ends a transfer draws the line. -/
theorem step_draws (hok : PhaseOK p) (hon : p.lcdOn = true) (hm : p.mode = .transfer)
    (hl : p.ly.toNat < screenHeight) (hd : p.dot + 1 = scanDots + p.transferDots) :
    (p.step 1).value.1.frame = p.drawLine.frame := by
  have hlong := hok.transfer.2
  have hinner : p.dot + 1 ≠ dotsPerLine := by
    unfold longestTransfer at hlong
    unfold scanDots at hd
    unfold dotsPerLine
    omega
  have hphase : p.nextDot.advancePhase.value.1 = p.nextDot.beginHBlank.value := by
    have hmode : p.nextDot.mode = .transfer := hm
    have hdot : p.nextDot.dot = scanDots + p.nextDot.transferDots := hd
    unfold advancePhase
    rw [hmode, if_pos hdot]
    rfl
  rw [step_one hon, tick_inner hinner, hphase]
  show p.nextDot.drawLine.frame = p.drawLine.frame
  rw [drawLine_of_visible hl, drawLine_of_visible (p := p.nextDot) hl]
  rfl

/-- **A line, pixel by pixel.** While the pixels of a line are transferred, drawing it gives every
pixel of the line its color, and leaves the other lines of the picture alone. The dot that ends the
transfer draws it. -/
theorem line_composited {model : Model} (h : Reachable model p) (hm : p.mode = .transfer) :
    (∀ (y x : Nat) (hy : y < screenHeight) (hx : x < screenWidth),
        p.drawLine.frame[y][x] =
          if y = p.ly.toNat then p.composited x else p.frame[y][x]) ∧
      (p.dot + 1 = scanDots + p.transferDots → (p.step 1).value.1.frame = p.drawLine.frame) := by
  obtain ⟨hok, -⟩ := reachable_ok h
  -- a dark display, and one in the vertical blank, transfers nothing
  have hon : p.lcdOn = true := by
    cases hon : p.lcdOn with
    | true => rfl
    | false =>
      have hdark := (hok.dark hon).mode
      rw [hm] at hdark
      cases hdark
  have hl : p.ly.toNat < screenHeight := by
    rcases Nat.lt_or_ge p.ly.toNat screenHeight with hl | hblank
    · exact hl
    · have hmode := (hok.lit hon).mode
      rw [hm, phaseAt, if_pos hblank] at hmode
      cases hmode
  refine ⟨?_, step_draws hok hon hm hl⟩
  intro y x hy hx
  exact drawLine_composited (reachable_latched h hm) hl hy hx

/-- Color hardware whose background is red, with two blue sprites on its first line. The first of
them is behind the background. -/
def twoSprites : Ppu :=
  [.vram 0x8000 0xFF, .vram 0x8010 0xFF, .vram 0x8011 0xFF,
    .oam 0xFE00 16, .oam 0xFE01 8, .oam 0xFE02 1, .oam 0xFE03 0x80,
    .oam 0xFE04 16, .oam 0xFE05 16, .oam 0xFE06 1,
    .port 0xFF68 0x82, .port 0xFF69 0x1F, .port 0xFF69 0x00,
    .port 0xFF6A 0x86, .port 0xFF6B 0x00, .port 0xFF6B 0x7C,
    .port 0xFF40 0x93, .run 80].foldl perform (.powerOn .color)

/-- The background covers the first sprite, and the second one can be seen. -/
theorem line_composited_sprites :
    twoSprites.drawLine.frame[0][0] = 0xFF0000FF ∧
      twoSprites.drawLine.frame[0][8] = 0x0000FFFF := by
  have hreach : Reachable .color twoSprites := Reachable.powerOn.foldl _
  have hmode : twoSprites.mode = .transfer := by decide +kernel
  have hline : twoSprites.ly.toNat = 0 := by decide +kernel
  obtain ⟨hdrawn, -⟩ := line_composited hreach hmode
  rw [hdrawn 0 0, hdrawn 0 8, hline]
  decide +kernel

end Handheld.Ppu
