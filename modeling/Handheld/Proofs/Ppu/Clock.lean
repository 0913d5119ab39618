import Handheld.Proofs.Ppu.Phase

/-!
# The display as a clock

A lit display moves on by one place with every dot and never skips or repeats one. Its place and its
count of frames therefore tell the dots that have passed since the LCD was switched on.

* `DotStep.onward`: where a dot leads.
* `Synced.tick`, `Synced.step`: a display that shows the time goes on showing it.
* `Synced.writePort`: so it does after any write that leaves the LCD on.
-/

namespace Handheld.Ppu

variable {p q : Ppu} {c : Nat}

/-- The place in the frame, in dots from its start. -/
def position (p : Ppu) : Nat := p.ly.toNat * dotsPerLine + p.dot

/-- The dots of a frame before its vertical blank. -/
def visibleDots : Nat := screenHeight * dotsPerLine

theorem dotsPerFrame_eq : dotsPerFrame = 70224 := rfl

theorem visibleDots_eq : visibleDots = 65664 := rfl

theorem position_eq (p : Ppu) : p.position = p.ly.toNat * 456 + p.dot := rfl

/-- Inside a line a place is neither the end of the frame nor that of the visible lines. -/
theorem position_inner (h : PhaseOK p) (hd : p.dot + 1 < dotsPerLine) :
    p.position + 1 < dotsPerFrame ∧ p.position + 1 ≠ visibleDots := by
  have hly := h.ly
  unfold dotsPerLine at hd
  unfold linesPerFrame at hly
  rw [position_eq, dotsPerFrame_eq, visibleDots_eq]
  omega

/-- The next line starts where this one ends. -/
theorem position_wrap (hd : p.dot + 1 = dotsPerLine) :
    p.position + 1 = (p.ly.toNat + 1) * 456 := by
  unfold dotsPerLine at hd
  rw [position_eq]
  omega

theorem startFrame_place (p : Ppu) :
    p.startFrame.value.position = 0 ∧ p.startFrame.value.frames = p.frames := by
  simp [position_eq, startFrame, beginScan, setMode, compareLine_eq]

/-- **Where a dot leads**: one place further, or back to the start of the frame. A vertical blank
begins exactly where the visible lines end. -/
structure Onward (p q : Ppu) (vblank : Bool) : Prop where
  position : q.position = p.position + 1 ∧ p.position + 1 < dotsPerFrame ∨
    q.position = 0 ∧ p.position + 1 = dotsPerFrame
  frames : q.frames = p.frames + vblank.toNat
  vblank : vblank = true ↔ p.position + 1 = visibleDots

/-- The frames count the vertical blanks. -/
theorem Onward.counted {vblank : Bool} (h : Onward p q vblank) :
    q.frames = p.frames + if p.position + 1 = visibleDots then 1 else 0 := by
  rw [h.frames]
  simp only [← h.vblank]
  cases vblank <;> rfl

theorem Onward.inner (h : PhaseOK p) (hd : p.dot + 1 < dotsPerLine) (hly : q.ly = p.ly)
    (hdot : q.dot = p.dot + 1) (hframes : q.frames = p.frames) : Onward p q false := by
  obtain ⟨hlt, hne⟩ := position_inner h hd
  refine ⟨.inl ⟨?_, hlt⟩, hframes, by simp [hne]⟩
  rw [position_eq, position_eq, hly, hdot, Nat.add_assoc]

theorem Onward.next {v : Bool} (hd : p.dot + 1 = dotsPerLine) (hl : p.ly.toNat + 1 < linesPerFrame)
    (hly : q.ly = p.nextRow.ly) (hdot : q.dot = 0) (hframes : q.frames = p.frames + v.toNat)
    (hv : v = true ↔ p.ly.toNat + 1 = screenHeight) : Onward p q v := by
  have hw := position_wrap hd
  have hr := nextRow_ly (p := p) (by omega)
  unfold linesPerFrame at hl
  refine ⟨.inl ⟨?_, ?_⟩, hframes, ?_⟩
  · rw [position_eq, hly, hdot, hr, hw, Nat.add_zero]
  · rw [hw, dotsPerFrame_eq]
    omega
  · have hscreen : screenHeight = 144 := rfl
    rw [hv, hw, visibleDots_eq]
    omega

/-- Every dot leads onward. -/
theorem DotStep.onward {v b : Bool} (hs : DotStep p v b q) (h : PhaseOK p) : Onward p q v := by
  have hline : dotsPerLine = 456 := rfl
  have hscan : scanDots = 80 := rfl
  have hlast : longestTransfer = 245 := rfl
  have hscreen : screenHeight = 144 := rfl
  have hlines : linesPerFrame = 154 := rfl
  have hlong := h.transfer.2
  cases hs with
  | stay hd => exact .inner h hd rfl rfl rfl
  | transfer hl hd => exact .inner h (by omega) rfl rfl rfl
  | hblank hl hd =>
    obtain ⟨frame, line, hq⟩ := drawLine_eq p.nextDot
    simp only [beginHBlank, setMode, hq]
    exact .inner h (by omega) rfl rfl rfl
  | scan hl hd =>
    simp only [compareLine_eq]
    exact .next hd (by omega) rfl rfl rfl (by simp; omega)
  | vblank hl hd =>
    simp only [compareLine_eq]
    exact .next hd (by omega) rfl rfl rfl (by simp [hl])
  | blankLine hl hl' hd =>
    simp only [compareLine_eq]
    exact .next hd hl' rfl rfl rfl (by simp; omega)
  | frame hl hd =>
    -- the place starts over; the frame was counted when its last line had been drawn
    obtain ⟨hpos, hframes⟩ := startFrame_place p.nextRow
    have hw := position_wrap hd
    rw [hl, hlines] at hw
    exact ⟨.inr ⟨hpos, hw⟩, hframes, by rw [hw, visibleDots_eq]; simp⟩

theorem tick_onward (h : PhaseOK p) (hon : p.lcdOn = true) :
    ∃ vblank, Onward p p.tick.value.1 vblank := by
  obtain ⟨v, b, q, hs, hq⟩ := tick_step h hon
  obtain ⟨hplace, hcount, hv⟩ := hs.onward h
  rw [hq]
  exact ⟨v, hplace, hcount, hv⟩

/-- **A display that shows the time `c`**, in dots since a frame was started on it. The first vertical
blank begins after the visible lines, the next ones a frame apart. -/
structure Synced (c : Nat) (p : Ppu) : Prop where
  ok : PhaseOK p
  lit : p.lcdOn = true
  position : p.position = c % dotsPerFrame
  frames : p.frames = (c + (dotsPerFrame - visibleDots)) / dotsPerFrame

/-- What does not move the display leaves the time alone. -/
theorem Synced.of_place (h : Synced c p) (hok : PhaseOK q) (hon : q.lcdOn = true) (hly : q.ly = p.ly)
    (hdot : q.dot = p.dot) (hframes : q.frames = p.frames) : Synced c q := by
  refine ⟨hok, hon, ?_, hframes.trans h.frames⟩
  rw [← h.position, position_eq, position_eq, hly, hdot]

theorem Synced.tick (h : Synced c p) : Synced (c + 1) p.tick.value.1 := by
  obtain ⟨hok, hsame⟩ := tick_ok h.ok h.lit
  obtain ⟨v, ho⟩ := tick_onward h.ok h.lit
  have hpos := h.position
  have hplace := ho.position
  rw [dotsPerFrame_eq] at hplace hpos
  refine ⟨hok, hsame.lcdOn.trans h.lit, ?_, ?_⟩
  · rw [dotsPerFrame_eq]
    omega
  · -- the vertical blank begins when the visible lines are over
    rw [ho.counted, h.frames, dotsPerFrame_eq, visibleDots_eq]
    split <;> omega

theorem Synced.run (n : Nat) {c : Nat} {r : Logged (Ppu × Signals)} (h : Synced c r.value.1) :
    Synced (c + n) (run n r).value.1 := by
  induction n generalizing c r with
  | zero => exact h
  | succ n ih =>
    rw [← Nat.add_assoc, Nat.add_right_comm]
    exact ih h.tick

/-- **Any number of dots moves the clock on by as many.** -/
theorem Synced.step (h : Synced c p) (n : Nat) : Synced (c + n) (p.step n).value.1 := by
  unfold Ppu.step
  rw [if_pos h.lit]
  exact Synced.run n h

theorem Synced.withMemories (h : Synced c p) (colorOutput : Bool) (vram : Vector UInt8 vramSize)
    (vramUpper : Bool) (oam : Vector UInt8 oamSize) (background objects : PaletteRam) :
    Synced c { p with colorOutput, vram, vramUpper, oam, background, objects } :=
  h.of_place (h.ok.withMemories ..) h.lit rfl rfl rfl

theorem Synced.writeVram (h : Synced c p) (addr : UInt16) (v : UInt8) :
    Synced c (p.writeVram addr v) := by
  obtain ⟨vram, hq⟩ := writeVram_eq p addr v
  rw [hq]
  exact h.withMemories ..

theorem Synced.writeOam (h : Synced c p) (addr : UInt16) (v : UInt8) :
    Synced c (p.writeOam addr v) := by
  obtain ⟨oam, hq⟩ := writeOam_eq p addr v
  rw [hq]
  exact h.withMemories ..

/-- The switch of the LCD is bit 7 of LCDC. -/
theorem lcdOn_withLcdc (p : Ppu) (v : UInt8) :
    ({ p with controls.lcdc := v } : Ppu).lcdOn = (v &&& 0x80 != 0) :=
  rfl

/-- `lcdOff` is reported exactly when bit 7 of LCDC is cleared on a lit display. -/
theorem lcdOff_reported (p : Ppu) (v : UInt8) :
    .lcdOff ∈ (p.writeLcdc v).events ↔ p.lcdOn = true ∧ v &&& 0x80 = 0 := by
  have hz : v &&& 0x80 = 0 ↔ (v &&& 0x80 != 0) = false := by simp
  have hq := lcdOn_withLcdc p v
  rw [hz]
  unfold Ppu.writeLcdc
  cases p.lcdOn <;> cases hv : (v &&& 0x80 != 0) <;> rw [hv] at hq <;> simp only [hq] <;>
    simp [switchOff, startFrame, beginScan, setMode]

theorem Synced.writeLcdc (h : Synced c p) {v : UInt8} (hv : .lcdOff ∉ (p.writeLcdc v).events) :
    Synced c (p.writeLcdc v).value := by
  have hon : ({ p with controls.lcdc := v } : Ppu).lcdOn = true := by
    rw [lcdOff_reported, not_and] at hv
    rw [lcdOn_withLcdc, bne_iff_ne]
    exact hv h.lit
  have hq : (p.writeLcdc v).value = { p with controls.lcdc := v } := by
    unfold Ppu.writeLcdc
    simp only [h.lit, hon, Logged.value_pure]
  rw [hq]
  exact h.of_place (hq ▸ (writeLcdc_ok h.ok v).1) hon rfl rfl rfl

/-- The other registers neither switch nor move the display. -/
theorem Synced.writeControl (h : Synced c p) (addr : UInt16) (v : UInt8) :
    Synced c (p.writeControl addr v) := by
  have hok := (writeControl_ok h.ok addr v).1
  obtain ⟨controls, coincidence, background, objects, hq, hlcdc⟩ := writeControl_eq p addr v
  rw [hq] at hok ⊢
  have hon : controls.lcdOn = p.lcdOn := by
    unfold Ppu.lcdOn Controls.lcdOn
    rw [hlcdc]
  exact h.of_place hok (hon.trans h.lit) rfl rfl rfl

/-- **A write to a display register leaves the time alone**, unless it switches the LCD off. -/
theorem Synced.writePort (h : Synced c p) {addr : UInt16} {v : UInt8}
    (hv : .lcdOff ∉ (p.writePort addr v).events) : Synced c (p.writePort addr v).value := by
  unfold Ppu.writePort at hv ⊢
  split
  · rename_i ha
    rw [if_pos ha] at hv
    exact h.writeLcdc hv
  · exact h.writeControl addr v

/-- The boot image leaves a display that starts to tell the time. -/
theorem handOver_synced (model : Model) (palettes : Option BootPalettes) :
    Synced 0 ((Ppu.powerOn model).handOver palettes).value := by
  obtain ⟨hok, -, hon⟩ := handOver_ok (powerOn_ok model) palettes
  obtain ⟨q, hq, -, -, -, hframes⟩ := handOver_eq (Ppu.powerOn model) palettes
  obtain ⟨hpos, hcount⟩ := startFrame_place q
  refine ⟨hok, hon, ?_, ?_⟩
  · rw [hq]
    exact hpos
  · rw [hq]
    exact hcount.trans hframes

end Handheld.Ppu
