import Handheld.Proofs.Ppu.Memories

/-!
# Displays in another guise

Where a display is in its frame, and how long its transfers take, does not follow from what it shows.
Two displays that differ in the model, in video memory, palettes and picture run alike, as long as
both draw their sprites in the same order.

* `Guise`: what a display shows and what it needs for that, apart from its motion.
* `tick_guise`: a dot moves a display in any guise in the same way, and what it does to the guise.
* `tick_paint`: tiles and palettes that draw a line as before cannot be told from what a dot does.
* `Recolors.linePixels`: through related colors, the same tiles and sprites make related lines.
-/

namespace Handheld.Ppu

variable {p q : Ppu}

/-- What decides the colors of a line: tiles, palettes and the order of sprites. -/
structure Paint where
  vram : Vector UInt8 vramSize
  bgp : UInt8
  obp0 : UInt8
  obp1 : UInt8
  opri : UInt8
  background : PaletteRam
  objects : PaletteRam

/-- **What a display shows**, what decides that, and its share of the STAT line. -/
structure Guise extends Paint where
  model : Model
  statLine : Bool
  extraScanEdge : Bool
  frame : Frame

def guise (p : Ppu) : Guise where
  model := p.model
  vram := p.vram
  bgp := p.controls.bgp
  obp0 := p.controls.obp0
  obp1 := p.controls.obp1
  opri := p.controls.opri
  background := p.background
  objects := p.objects
  statLine := p.statLine
  extraScanEdge := p.extraScanEdge
  frame := p.frame

/-- The display in another guise. -/
def withGuise (p : Ppu) (g : Guise) : Ppu :=
  { p with
    model := g.model
    vram := g.vram
    controls.bgp := g.bgp
    controls.obp0 := g.obp0
    controls.obp1 := g.obp1
    controls.opri := g.opri
    background := g.background
    objects := g.objects
    statLine := g.statLine
    extraScanEdge := g.extraScanEdge
    frame := g.frame }

section

variable (p : Ppu) (g g' : Guise)

@[simp] theorem withGuise_self : p.withGuise p.guise = p := rfl

theorem compareLine_guise : (p.withGuise g).compareLine = p.compareLine.withGuise g := by
  rw [compareLine_eq, compareLine_eq]
  rfl

theorem startFrame_guise : (p.withGuise g).startFrame.value = p.startFrame.value.withGuise g := by
  simp only [startFrame, compareLine_eq]
  rfl

/-- Monochrome hardware leaves an edge of the scan source when it enters the vertical blank. -/
def Guise.enters (g : Guise) (vblank : Bool) : Guise :=
  { g with extraScanEdge := g.extraScanEdge || (vblank && !g.model.isColor) }

theorem Guise.enters_false : g.enters false = g := by
  unfold Guise.enters
  rw [Bool.false_and, Bool.or_false]

theorem nextLine_guise :
    (p.withGuise g).nextLine.value =
      (p.nextLine.value.1.withGuise (g.enters p.nextLine.value.2), p.nextLine.value.2) := by
  have hrow : (p.withGuise g).nextRow = p.nextRow.withGuise g := rfl
  have hly : (p.nextRow.withGuise g).ly = p.nextRow.ly := rfl
  have hscan : (p.nextRow.withGuise g).beginScan.value = p.nextRow.beginScan.value.withGuise g := rfl
  have hvblank : (p.nextRow.withGuise g).beginVBlank.value =
      p.nextRow.beginVBlank.value.withGuise (g.enters true) := by
    cases hm : g.model <;> simp [beginVBlank, setMode, withGuise, Guise.enters, hm]
  rw [nextLine_value, nextLine_value, hrow, hly, hscan, hvblank, startFrame_guise]
  simp only [compareLine_guise]
  split
  · rfl
  · split
    · rw [Guise.enters_false]
    · split <;> rw [Guise.enters_false]

/-- The line under way, as the guise draws it, joins the picture. -/
def Guise.draws (g : Guise) (p : Ppu) : Guise := { g with frame := (p.withGuise g).drawLine.frame }

theorem drawLine_of_visible {p : Ppu} (h : p.ly.toNat < screenHeight) :
    p.drawLine = { p with
      frame := p.frame.set p.ly.toNat (p.linePixels.map Pixel.color) h
      window.line := if p.showsWindow then p.window.line + 1 else p.window.line } :=
  dif_pos h

theorem drawLine_of_hidden {p : Ppu} (h : ¬p.ly.toNat < screenHeight) : p.drawLine = p :=
  dif_neg h

/-- The picture does not depend on the dot at which the line is drawn. -/
theorem Guise.draws_nextDot : g.draws p.nextDot = g.draws p := by
  unfold Guise.draws
  by_cases h : p.ly.toNat < screenHeight
  · rw [drawLine_of_visible (p := p.nextDot.withGuise g) h,
      drawLine_of_visible (p := p.withGuise g) h]
    rfl
  · rw [drawLine_of_hidden (p := p.nextDot.withGuise g) h,
      drawLine_of_hidden (p := p.withGuise g) h]
    rfl

theorem drawLine_guise : (p.withGuise g).drawLine = p.drawLine.withGuise (g.draws p) := by
  unfold Guise.draws
  by_cases h : p.ly.toNat < screenHeight
  · rw [drawLine_of_visible h, drawLine_of_visible (p := p.withGuise g) h]
    rfl
  · rw [drawLine_of_hidden h, drawLine_of_hidden (p := p.withGuise g) h]
    rfl

/-- A phase changes at the same dot in any guise. -/
theorem advancePhase_guise (h : (p.withGuise g).drawsByIndex = p.drawsByIndex) :
    (p.withGuise g).advancePhase.value =
      (p.advancePhase.value.1.withGuise (if p.advancePhase.value.2 then g.draws p else g),
        p.advancePhase.value.2) := by
  have hmode : (p.withGuise g).mode = p.mode := rfl
  have hdot : (p.withGuise g).dot = p.dot := rfl
  have hlength : (p.withGuise g).transferDots = p.transferDots := rfl
  have hlatch : (p.withGuise g).latchSprites = p.latchSprites.withGuise g := by
    unfold latchSprites
    rw [h]
    rfl
  have htransfer : (p.withGuise g).beginTransfer.value = p.beginTransfer.value.withGuise g := by
    unfold beginTransfer
    rw [hlatch]
    rfl
  have hhblank : (p.withGuise g).beginHBlank.value =
      p.beginHBlank.value.withGuise (g.draws p) := by
    unfold beginHBlank
    rw [drawLine_guise]
    rfl
  unfold advancePhase
  rw [hmode, hdot, hlength]
  cases p.mode with
  | hblank | vblank => rfl
  | oamScan =>
    by_cases hd : p.dot = scanDots
    · simp only [hd, if_true]
      exact congrArg (·, false) htransfer
    · simp only [hd, if_false]
      rfl
  | transfer =>
    by_cases hd : p.dot = scanDots + p.transferDots
    · simp only [hd, if_true]
      exact congrArg (·, true) hhblank
    · simp only [hd, if_false]
      rfl

/-- The level of the STAT sources, apart from the extra edge of monochrome hardware. -/
def statLevel (p : Ppu) : Bool := (p.coincidence && p.controls.onCoincidence) || p.modeSource

/-- The extra edge that the guise holds counts, if the scan source is enabled. -/
def Guise.edge (g : Guise) (p : Ppu) : Bool := g.extraScanEdge && p.controls.onOamScan

def Guise.follows (g : Guise) (p : Ppu) : Guise :=
  { g with statLine := p.statLevel || g.edge p, extraScanEdge := false }

theorem updateStat_guise :
    (p.withGuise g).updateStat =
      (p.updateStat.1.withGuise (g.follows p), (p.statLevel && !g.statLine) || g.edge p) :=
  rfl

/-- The guise of a display that is switched off. -/
def Guise.darkened (g : Guise) : Guise :=
  { g with statLine := false, extraScanEdge := false, frame := blankFrame g.model }

/-- A write to LCDC switches a display off. -/
def switchesOff (p : Ppu) (v : UInt8) : Bool :=
  p.lcdOn && !({ p with controls.lcdc := v } : Ppu).lcdOn

theorem writeLcdc_guise (v : UInt8) :
    ((p.withGuise g).writeLcdc v).value =
      (p.writeLcdc v).value.withGuise (if p.switchesOff v then g.darkened else g) := by
  have hon : (p.withGuise g).lcdOn = p.lcdOn := rfl
  have hv : ({ p.withGuise g with controls.lcdc := v } : Ppu) =
      ({ p with controls.lcdc := v } : Ppu).withGuise g := rfl
  have hon' : (({ p with controls.lcdc := v } : Ppu).withGuise g).lcdOn =
      ({ p with controls.lcdc := v } : Ppu).lcdOn := rfl
  unfold writeLcdc switchesOff
  simp only [hon, hv, hon']
  cases p.lcdOn <;> cases ({ p with controls.lcdc := v } : Ppu).lcdOn
  case false.true => exact startFrame_guise _ g
  all_goals rfl

/-- The end of a dot may be the end of a line. -/
def endDot (p : Ppu) : Ppu × Bool := if p.dot = dotsPerLine then p.nextLine.value else (p, false)

theorem endDot_guise :
    (p.withGuise g).endDot = (p.endDot.1.withGuise (g.enters p.endDot.2), p.endDot.2) := by
  have hdot : (p.withGuise g).dot = p.dot := rfl
  unfold endDot
  rw [hdot]
  split
  · exact nextLine_guise p g
  · rw [Guise.enters_false]

theorem tick_value :
    p.tick.value =
      (p.nextDot.advancePhase.value.1.endDot.1.updateStat.1,
        { vblank := p.nextDot.advancePhase.value.1.endDot.2
          stat := p.nextDot.advancePhase.value.1.endDot.1.updateStat.2
          hblank := p.nextDot.advancePhase.value.2 }) := by
  rw [tick_eq, Logged.value_bind]
  unfold endDot
  split <;> rfl

/-! ## Dots -/

/-- **What a dot does to a guise**: a line may be drawn, the vertical blank may begin, and the STAT
line follows. -/
def Guise.afterDot (g : Guise) (p : Ppu) : Guise :=
  ((if p.tick.value.2.hblank then g.draws p else g).enters p.tick.value.2.vblank).follows
    p.tick.value.1

/-- What a dot signals in a guise. Only the STAT line is the guise's own. -/
def Guise.signals (g : Guise) (p : Ppu) : Signals :=
  { p.tick.value.2 with
    stat := (p.tick.value.1.statLevel && !g.statLine) ||
      (g.enters p.tick.value.2.vblank).edge p.tick.value.1 }

end

/-- **A dot moves a display in any guise in the same way**, if the sprites are drawn in the same
order. -/
theorem tick_guise (g : Guise) (h : (p.withGuise g).drawsByIndex = p.drawsByIndex) :
    (p.withGuise g).tick.value = (p.tick.value.1.withGuise (g.afterDot p), g.signals p) := by
  have hnext : (p.withGuise g).nextDot = p.nextDot.withGuise g := rfl
  have hphase := advancePhase_guise p.nextDot g h
  unfold Guise.afterDot Guise.signals
  rw [tick_value, tick_value, hnext, hphase, endDot_guise, updateStat_guise, Guise.draws_nextDot]
  cases p.nextDot.advancePhase.value.2 <;> rfl

def paint (p : Ppu) : Paint := p.guise.toPaint

/-- What of a display no dot touches. -/
structure SameSetting (p q : Ppu) : Prop where
  colorOutput : q.colorOutput = p.colorOutput
  model : q.model = p.model
  paint : q.paint = p.paint

theorem Elapses.setting (h : Elapses p q) : SameSetting p q := by
  obtain ⟨_, _, _, _, _, _, _, _, _, _, _, _, rfl⟩ := h
  exact ⟨rfl, rfl, rfl⟩

theorem writeLcdc_setting (p : Ppu) (v : UInt8) : SameSetting p (p.writeLcdc v).value :=
  have h := (writeLcdc_elapses p v).setting
  ⟨h.colorOutput, h.model, h.paint⟩

/-- The display with other tiles and palettes, and the picture that it has. -/
def withPaint (p : Ppu) (c : Paint) : Ppu := p.withGuise { p.guise with toPaint := c }

/-- A display is in a guise of its own. -/
theorem tick_own (p : Ppu) :
    p.tick.value.1.guise = p.guise.afterDot p ∧ p.tick.value.2 = p.guise.signals p := by
  have hself := tick_guise p.guise (p := p) rfl
  rw [withGuise_self] at hself
  refine ⟨?_, congrArg Prod.snd hself⟩
  conv => lhs; rw [hself]
  rfl

/-- A dot draws and follows, and leaves paint and model alone. -/
theorem Guise.afterDot_keeps (g : Guise) (p : Ppu) :
    (g.afterDot p).toPaint = g.toPaint ∧ (g.afterDot p).model = g.model := by
  unfold Guise.afterDot
  cases p.tick.value.2.hblank <;> exact ⟨rfl, rfl⟩

theorem Guise.afterDot_frame (g : Guise) (p : Ppu) :
    (g.afterDot p).frame =
      if p.tick.value.2.hblank then (p.withGuise g).drawLine.frame else g.frame := by
  unfold Guise.afterDot
  cases p.tick.value.2.hblank <;> rfl

/-- **Paint that draws the line under way as before cannot be told** from what a dot does. -/
theorem tick_paint (c : Paint) (horder : (p.withPaint c).drawsByIndex = p.drawsByIndex)
    (hline : (p.withPaint c).drawLine.frame = p.drawLine.frame) :
    (p.withPaint c).tick.value = (p.tick.value.1.withPaint c, p.tick.value.2) := by
  have hdraws : (if p.tick.value.2.hblank then ({ p.guise with toPaint := c } : Guise).draws p
        else { p.guise with toPaint := c }) =
      { (if p.tick.value.2.hblank then p.guise.draws p else p.guise) with toPaint := c } := by
    cases p.tick.value.2.hblank
    · rfl
    · show ({ p.guise with toPaint := c, frame := (p.withPaint c).drawLine.frame } : Guise) = _
      rw [hline]
      rfl
  have hafter : ({ p.guise with toPaint := c } : Guise).afterDot p =
      { p.guise.afterDot p with toPaint := c } := by
    unfold Guise.afterDot
    rw [hdraws]
    rfl
  obtain ⟨hguise, hsignals⟩ := tick_own p
  rw [withPaint, tick_guise _ horder, hafter, ← hguise]
  exact Prod.ext rfl hsignals.symm

theorem writeLcdc_own (p : Ppu) (v : UInt8) :
    (p.writeLcdc v).value.guise = if p.switchesOff v then p.guise.darkened else p.guise := by
  conv => lhs; rw [← withGuise_self p, writeLcdc_guise]
  rfl

/-- Switching the LCD takes no notice of paint. -/
theorem writeLcdc_paint (p : Ppu) (c : Paint) (v : UInt8) :
    ((p.withPaint c).writeLcdc v).value = (p.writeLcdc v).value.withPaint c := by
  rw [withPaint, withPaint, writeLcdc_guise, writeLcdc_own]
  cases p.switchesOff v <;> rfl

section

variable {R : UInt32 → UInt32 → Prop} {g : Guise}

/-- Pixels that differ in their colors only, by a given relation. -/
structure Pixel.Rel (R : UInt32 → UInt32 → Prop) (a b : Pixel) : Prop where
  color : R a.color b.color
  number : b.number = a.number
  priority : b.priority = a.priority
  owned : b.owned = a.owned

/-- The color that monochrome output gives to the shade of a sprite. -/
def spriteShade (p : Ppu) (second : Bool) (shade : UInt8) : UInt32 :=
  match p.model with
  | .mono => monoShade shade
  | .color => p.objects.color second.toNat shade.toNat

/-- Monochrome hardware has shades of its own. -/
theorem shades_mono {p : Ppu} (h : p.model = .mono) (shade : UInt8) :
    p.backgroundShade shade = monoShade shade ∧
      ∀ second, p.spriteShade second shade = monoShade shade := by
  unfold backgroundShade spriteShade
  rw [h]
  exact ⟨rfl, fun _ => rfl⟩

/-- Color hardware looks shades up. -/
theorem shades_color {p : Ppu} (h : p.model = .color) (shade : UInt8) :
    p.backgroundShade shade = p.background.color 0 shade.toNat ∧
      ∀ second, p.spriteShade second shade = p.objects.color second.toNat shade.toNat := by
  unfold backgroundShade spriteShade
  rw [h]
  exact ⟨rfl, fun _ => rfl⟩

/-- **A guise recolors a display**: it shows the same tiles through the same palette registers, and
its colors are related to those of the display. The color of a shade counts on monochrome output,
that in palette RAM on color output. -/
structure Recolors (R : UInt32 → UInt32 → Prop) (p : Ppu) (g : Guise) : Prop where
  tiles : ∀ upper offset, (upper = true → p.colorOutput = true) →
    (p.withGuise g).vramByte upper offset = p.vramByte upper offset
  registers : p.colorOutput = false →
    g.bgp = p.controls.bgp ∧ g.obp0 = p.controls.obp0 ∧ g.obp1 = p.controls.obp1
  shades : p.colorOutput = false → ∀ shade : UInt8, shade.toNat < 4 →
    R (p.backgroundShade shade) ((p.withGuise g).backgroundShade shade) ∧
      ∀ second, R (p.spriteShade second shade) ((p.withGuise g).spriteShade second shade)
  colors : p.colorOutput = true → ∀ palette number,
    R (p.background.color palette number) (g.background.color palette number) ∧
      R (p.objects.color palette number) (g.objects.color palette number)

theorem shadeOf_lt (palette number : UInt8) : (shadeOf palette number).toNat < 4 := by
  unfold shadeOf
  rw [UInt8.toNat_and]
  exact Nat.lt_of_le_of_lt Nat.and_le_right (by decide)

theorem Recolors.mapPixel (h : Recolors R p g) (base x y : Nat) :
    (p.mapPixel base x y).Rel R ((p.withGuise g).mapPixel base x y) := by
  have hlow (offset : Nat) : (p.withGuise g).vramByte false offset = p.vramByte false offset :=
    h.tiles false offset (fun h => nomatch h)
  have hrow (tile : UInt8) (row : Nat) : (p.withGuise g).tileRow tile row = p.tileRow tile row := rfl
  have hout : (p.withGuise g).colorOutput = p.colorOutput := rfl
  unfold Ppu.mapPixel
  simp only [hrow, hout, hlow]
  cases hc : p.colorOutput with
  | false =>
    -- without attributes there is neither a second bank nor a priority
    have hnone : ((0 : UInt8) &&& 0x08 != 0) = false := by decide
    simp only [Bool.false_eq_true, if_false, hnone, hlow]
    obtain ⟨hbgp, -, -⟩ := h.registers hc
    have hreg : (p.withGuise g).controls.bgp = p.controls.bgp := hbgp
    rw [hreg]
    exact ⟨(h.shades hc _ (shadeOf_lt _ _)).1, rfl, rfl, rfl⟩
  | true =>
    have hbank (upper : Bool) (offset : Nat) :
        (p.withGuise g).vramByte upper offset = p.vramByte upper offset :=
      h.tiles upper offset fun _ => hc
    simp only [hbank]
    exact ⟨(h.colors hc _ _).1, rfl, rfl, rfl⟩

theorem Recolors.backdrop (h : Recolors R p g) (x : Nat) :
    (p.backdrop x).Rel R ((p.withGuise g).backdrop x) := by
  have hshows : (p.withGuise g).showsBackground = p.showsBackground := rfl
  have hwindow : (p.withGuise g).showsWindow = p.showsWindow := rfl
  have hwx : (p.withGuise g).controls.wx = p.controls.wx := rfl
  unfold Ppu.backdrop
  simp only [hshows, hwindow, hwx]
  by_cases hs : p.showsBackground = true
  · simp only [hs, Bool.not_true, Bool.false_eq_true, if_false]
    split
    · exact h.mapPixel ..
    · exact h.mapPixel ..
  · simp only [Bool.not_eq_true] at hs
    simp only [hs, Bool.not_false, if_true]
    -- the background is switched off on monochrome output only
    have hc : p.colorOutput = false := by
      unfold showsBackground at hs
      exact (Bool.or_eq_false_iff.1 hs).1
    exact ⟨(h.shades hc 0 (by decide)).1, rfl, rfl, rfl⟩

theorem Recolors.spriteNumber (h : Recolors R p g) (s : Sprite) (column : Nat) :
    (p.withGuise g).spriteNumber s column = p.spriteNumber s column := by
  have hstart : (p.withGuise g).spriteRowStart s = p.spriteRowStart s := rfl
  have hout : (p.withGuise g).colorOutput = p.colorOutput := rfl
  have hbank (offset : Nat) : (p.withGuise g).vramByte (p.colorOutput && s.upperBank) offset =
      p.vramByte (p.colorOutput && s.upperBank) offset :=
    h.tiles _ offset fun hu => (Bool.and_eq_true_iff.1 hu).1
  unfold Ppu.spriteNumber
  simp only [hstart, hout, hbank]

theorem Recolors.spriteColor (h : Recolors R p g) (s : Sprite) (number : UInt8) :
    R (p.spriteColor s number) ((p.withGuise g).spriteColor s number) := by
  have hout : (p.withGuise g).colorOutput = p.colorOutput := rfl
  unfold Ppu.spriteColor
  rw [hout]
  cases hc : p.colorOutput with
  | false =>
    obtain ⟨-, hobp0, hobp1⟩ := h.registers hc
    have h0 : (p.withGuise g).controls.obp0 = p.controls.obp0 := hobp0
    have h1 : (p.withGuise g).controls.obp1 = p.controls.obp1 := hobp1
    simp only [Bool.false_eq_true, if_false, h0, h1]
    exact (h.shades hc _ (shadeOf_lt _ number)).2 s.secondPalette
  | true =>
    simp only [if_true]
    exact (h.colors hc _ _).2

/-- Rows of pixels that differ in their colors only. -/
def RowRel (R : UInt32 → UInt32 → Prop) (a b : Vector Pixel screenWidth) : Prop :=
  ∀ (x : Nat) (hx : x < screenWidth), (a[x]).Rel R b[x]

/-- A column of a sprite is mixed into related rows in the same way. -/
theorem Recolors.paintColumn (h : Recolors R p g) (s : Sprite) {a b : Vector Pixel screenWidth}
    (hab : RowRel R a b) (column : Nat) :
    RowRel R (p.paintColumn s a column) ((p.withGuise g).paintColumn s b column) := by
  have hhides (under under' : Pixel) (hu : under.Rel R under') :
      (p.withGuise g).hides s under' = p.hides s under := by
    have hmix : (p.withGuise g).mixesPriorities = p.mixesPriorities := rfl
    have hout : (p.withGuise g).colorOutput = p.colorOutput := rfl
    unfold hides
    rw [hmix, hout, hu.number, hu.priority]
  unfold Ppu.paintColumn
  simp only [h.spriteNumber]
  split
  · rename_i hx
    have hu := hab _ hx.2.2
    rw [hu.owned]
    split
    · exact hab
    · intro x hlt
      rw [Vector.getElem_set, Vector.getElem_set, hhides _ _ hu]
      split
      · refine ⟨?_, hu.number, hu.priority, rfl⟩
        split
        · exact hu.color
        · exact h.spriteColor s _
      · exact hab x hlt
  · exact hab

theorem Recolors.paintSprite (h : Recolors R p g) (s : Sprite) {a b : Vector Pixel screenWidth}
    (hab : RowRel R a b) : RowRel R (p.paintSprite a s) ((p.withGuise g).paintSprite b s) := by
  unfold Ppu.paintSprite
  induction List.range 8 generalizing a b with
  | nil => exact hab
  | cons column rest ih => exact ih (h.paintColumn s hab column)

/-- **A recolored display draws a recolored line.** -/
theorem Recolors.linePixels (h : Recolors R p g) :
    RowRel R p.linePixels (p.withGuise g).linePixels := by
  have hon : (p.withGuise g).controls.spritesOn = p.controls.spritesOn := rfl
  have hsprites : (p.withGuise g).sprites = p.sprites := rfl
  have hback : RowRel R (Vector.ofFn fun x => p.backdrop x.val)
      (Vector.ofFn fun x => (p.withGuise g).backdrop x.val) := by
    intro x hx
    rw [Vector.getElem_ofFn, Vector.getElem_ofFn]
    exact h.backdrop x
  unfold Ppu.linePixels
  simp only [hon, hsprites]
  split
  · generalize (Vector.ofFn fun x => p.backdrop x.val) = a at hback ⊢
    generalize (Vector.ofFn fun x => (p.withGuise g).backdrop x.val) = b at hback ⊢
    induction p.sprites generalizing a b with
    | nil => exact hback
    | cons s rest ih => exact ih _ _ (h.paintSprite s hback)
  · exact hback

/-- With the same colors it is the same line. -/
theorem Recolors.drawLine (h : Recolors Eq p g) (hframe : g.frame = p.frame) :
    (p.withGuise g).drawLine.frame = p.drawLine.frame := by
  have hpixels : (p.withGuise g).linePixels.map Pixel.color = p.linePixels.map Pixel.color := by
    refine Vector.ext fun x hx => ?_
    rw [Vector.getElem_map, Vector.getElem_map]
    exact (h.linePixels x hx).color.symm
  have hpicture : (p.withGuise g).frame = p.frame := hframe
  by_cases hl : p.ly.toNat < screenHeight
  · rw [drawLine_of_visible hl, drawLine_of_visible (p := p.withGuise g) hl]
    simp only [hpixels, hpicture]
    rfl
  · rw [drawLine_of_hidden hl, drawLine_of_hidden (p := p.withGuise g) hl, hpicture]

end

end Handheld.Ppu
