import Handheld.Ppu.Port

/-!
# The phase of the display follows from its place

The phases are entered when the dot counter *equals* a threshold, and the end of a transfer is a
threshold that registers, sprites and the window move. `PhaseOK` is what makes each equality be met.

* `tick_step`: a dot of a lit display is one of seven steps.
* `tick_ok`: each of them keeps `PhaseOK`.
* `perform_ok`: so does every operation of the outside.
* `phase_of_place` (every reachable display): the phase of a lit display is a function of line, dot
  and length of the transfer; a dark one rests at the start of a frame with a blank picture.
-/

namespace Handheld.Ppu

variable {p q : Ppu}

theorem compareLine_eq (p : Ppu) :
    p.compareLine =
      { p with coincidence := if p.lcdOn then p.ly == p.controls.lyc else p.coincidence } := by
  unfold compareLine
  split <;> rfl

/-- Drawing a line changes the picture and the window's progress only. -/
theorem drawLine_eq (p : Ppu) :
    ∃ frame line, p.drawLine = { p with frame, window.line := line } := by
  unfold drawLine
  split
  · exact ⟨_, _, rfl⟩
  · exact ⟨p.frame, p.window.line, rfl⟩

/-- The display with its dot counter moved on. -/
def nextDot (p : Ppu) : Ppu := { p with dot := p.dot + 1 }

/-- The display at the start of the next line, before any phase is entered. -/
def nextRow (p : Ppu) : Ppu := { p with dot := 0, ly := p.ly + 1 }

theorem nextLine_value (p : Ppu) :
    p.nextLine.value =
      if p.nextRow.ly = 144 then (p.nextRow.beginVBlank.value.compareLine, true)
      else if p.nextRow.ly = 154 then (p.nextRow.startFrame.value, false)
      else if p.nextRow.ly < 144 then (p.nextRow.beginScan.value.compareLine, false)
      else (p.nextRow.compareLine, false) := by
  have hn : p.nextLine =
      if p.nextRow.ly = 144 then p.nextRow.beginVBlank >>= fun q => pure (q.compareLine, true)
      else if p.nextRow.ly = 154 then p.nextRow.startFrame >>= fun q => pure (q, false)
      else if p.nextRow.ly < 144 then p.nextRow.beginScan >>= fun q => pure (q.compareLine, false)
      else pure (p.nextRow.compareLine, false) := rfl
  rw [hn]
  split
  · rfl
  · split
    · rfl
    · split <;> rfl

/-- The end of a dot: the STAT line follows the state. -/
def finishDot (hblank : Bool) (r : Ppu × Bool) : Logged (Ppu × Signals) :=
  pure (r.1.updateStat.1, { vblank := r.2, stat := r.1.updateStat.2, hblank })

/-- A dot: a phase may end, then the line may, then the STAT line follows. -/
theorem tick_eq (p : Ppu) :
    p.tick = p.nextDot.advancePhase >>= fun r =>
      if r.1.dot = dotsPerLine then r.1.nextLine >>= finishDot r.2
      else pure (r.1, false) >>= finishDot r.2 :=
  rfl

theorem advancePhase_dot (p : Ppu) : p.advancePhase.value.1.dot = p.dot := by
  unfold advancePhase
  split
  · split <;> rfl
  · split
    · obtain ⟨frame, line, hq⟩ := drawLine_eq p
      simp [beginHBlank, setMode, hq]
    · rfl
  · rfl
  · rfl

/-- A dot in the middle of a line can only change the phase. -/
theorem tick_inner (h : p.dot + 1 ≠ dotsPerLine) :
    p.tick.value =
      (p.nextDot.advancePhase.value.1.updateStat.1,
        { stat := p.nextDot.advancePhase.value.1.updateStat.2
          hblank := p.nextDot.advancePhase.value.2 }) := by
  rw [tick_eq, Logged.value_bind, advancePhase_dot,
    if_neg (show p.nextDot.dot ≠ dotsPerLine from h)]
  rfl

/-- The dot that completes a line only goes to the next one, unless a phase ends there. -/
theorem tick_wrap (h : p.dot + 1 = dotsPerLine) (hm : p.mode = .hblank ∨ p.mode = .vblank) :
    p.tick.value =
      (p.nextDot.nextLine.value.1.updateStat.1,
        { vblank := p.nextDot.nextLine.value.2
          stat := p.nextDot.nextLine.value.1.updateStat.2 }) := by
  have ha : p.nextDot.advancePhase.value = (p.nextDot, false) := by
    have hm' : p.nextDot.mode = p.mode := rfl
    unfold advancePhase
    rcases hm with hm | hm <;> rw [hm', hm] <;> rfl
  rw [tick_eq, Logged.value_bind, ha, if_pos (show p.nextDot.dot = dotsPerLine from h)]
  rfl

theorem pick_length_le (line height places : Nat) (l : List Sprite) :
    (Sprite.pick line height places l).length ≤ places := by
  fun_induction Sprite.pick line height places l with
  | case1 => exact Nat.le_refl _
  | case2 => exact Nat.zero_le _
  | case3 places s rest _ ih => simpa using ih
  | case4 places s rest _ ih => exact ih

theorem latch_length_le (oam : Vector UInt8 oamSize) (line height : Nat) (byIndex : Bool) :
    (Sprite.latch oam line height byIndex).length ≤ Sprite.perLine := by
  have h := pick_length_le line height Sprite.perLine (Sprite.all oam)
  unfold Sprite.latch Sprite.arrange
  split
  · exact h
  · rwa [List.length_mergeSort]

/-- The longest transfer: fine scrolling by seven, the window and ten sprites. -/
def longestTransfer : Nat := 245

theorem transferLength_bounds (scx : UInt8) (window : Bool) {sprites : Nat}
    (h : sprites ≤ Sprite.perLine) :
    transferBase ≤ transferLength scx window sprites ∧
      transferLength scx window sprites ≤ longestTransfer := by
  unfold transferLength transferLimit transferBase longestTransfer dotsPerLine scanDots
    windowPenalty spritePenalty
  unfold Sprite.perLine at h
  split <;> omega

/-- The phase at a dot of a line with a transfer of the given length. -/
def phaseAt (line dot transfer : Nat) : Mode :=
  if screenHeight ≤ line then .vblank
  else if dot < scanDots then .oamScan
  else if dot < scanDots + transfer then .transfer
  else .hblank

/-- A lit display is in the phase of its place, and knows whether its line is LYC. -/
structure Lit (p : Ppu) : Prop where
  mode : p.mode = phaseAt p.ly.toNat p.dot p.transferDots
  coincidence : p.coincidence = (p.ly == p.controls.lyc)

/-- A dark display rests at the start of a frame, requests nothing and shows nothing. -/
structure Dark (p : Ppu) : Prop where
  mode : p.mode = .hblank
  ly : p.ly = 0
  dot : p.dot = 0
  window : p.window.line = 0
  statLine : p.statLine = false
  frame : p.frame = blankFrame p.model

/-- **The phase invariant** of the display. -/
structure PhaseOK (p : Ppu) : Prop where
  dot : p.dot < dotsPerLine
  ly : p.ly.toNat < linesPerFrame
  transfer : transferBase ≤ p.transferDots ∧ p.transferDots ≤ longestTransfer
  lit : p.lcdOn = true → Lit p
  dark : p.lcdOn = false → Dark p

/-! ## One dot -/

/-- **What a dot does to a lit display**, before the STAT line follows; the two flags tell whether
the vertical blank and the horizontal blank of a visible line begin. -/
inductive DotStep (p : Ppu) : (vblank hblank : Bool) → Ppu → Prop where
  | stay (hd : p.dot + 1 < dotsPerLine)
      (hm : p.mode = phaseAt p.ly.toNat (p.dot + 1) p.transferDots) :
      DotStep p false false p.nextDot
  | transfer (hl : p.ly.toNat < screenHeight) (hd : p.dot + 1 = scanDots) :
      DotStep p false false p.nextDot.beginTransfer.value
  | hblank (hl : p.ly.toNat < screenHeight) (hd : p.dot + 1 = scanDots + p.transferDots) :
      DotStep p false true p.nextDot.beginHBlank.value
  | scan (hl : p.ly.toNat + 1 < screenHeight) (hd : p.dot + 1 = dotsPerLine) :
      DotStep p false false p.nextRow.beginScan.value.compareLine
  | vblank (hl : p.ly.toNat + 1 = screenHeight) (hd : p.dot + 1 = dotsPerLine) :
      DotStep p true false p.nextRow.beginVBlank.value.compareLine
  | blankLine (hl : screenHeight < p.ly.toNat + 1) (hl' : p.ly.toNat + 1 < linesPerFrame)
      (hd : p.dot + 1 = dotsPerLine) (hm : p.mode = .vblank) :
      DotStep p false false p.nextRow.compareLine
  | frame (hl : p.ly.toNat + 1 = linesPerFrame) (hd : p.dot + 1 = dotsPerLine) :
      DotStep p false false p.nextRow.startFrame.value

theorem nextRow_ly (h : p.ly.toNat < linesPerFrame) : p.nextRow.ly.toNat = p.ly.toNat + 1 := by
  unfold linesPerFrame at h
  simp only [nextRow, UInt8.toNat_add, UInt8.toNat_one]
  omega

/-- At the last dot of a line nothing but going to the next line is left to do. -/
theorem PhaseOK.mode_last (h : PhaseOK p) (hon : p.lcdOn = true) (hd : p.dot + 1 = dotsPerLine) :
    (p.ly.toNat < screenHeight ∧ p.mode = .hblank) ∨
      (screenHeight ≤ p.ly.toNat ∧ p.mode = .vblank) := by
  have ht := h.transfer.2
  unfold dotsPerLine at hd
  unfold longestTransfer at ht
  rw [(h.lit hon).mode]
  unfold phaseAt scanDots
  by_cases hl : screenHeight ≤ p.ly.toNat
  · rw [if_pos hl]
    exact .inr ⟨hl, rfl⟩
  · rw [if_neg hl, if_neg (by omega), if_neg (by omega)]
    exact .inl ⟨by omega, rfl⟩

/-- Inside a line a phase ends exactly at its threshold. -/
theorem PhaseOK.inner_step (h : PhaseOK p) (hon : p.lcdOn = true) (hd : p.dot + 1 < dotsPerLine) :
    ∃ hblank q, p.nextDot.advancePhase.value = (q, hblank) ∧ DotStep p false hblank q := by
  have hm := (h.lit hon).mode
  have hn : p.nextDot.mode = p.mode := rfl
  have ht := h.transfer.1
  unfold transferBase at ht
  by_cases hl : screenHeight ≤ p.ly.toNat
  · -- in the vertical blank nothing is due
    have hv : ∀ dot, phaseAt p.ly.toNat dot p.transferDots = .vblank := fun _ => if_pos hl
    refine ⟨false, p.nextDot, ?_, .stay hd (by rw [hm, hv, hv])⟩
    rw [hv] at hm
    unfold advancePhase
    rw [hn, hm]
    rfl
  have hl' : p.ly.toNat < screenHeight := by omega
  by_cases hs : p.dot < scanDots
  · have hm' : p.mode = .oamScan := by rw [hm, phaseAt, if_neg hl, if_pos hs]
    by_cases hs' : p.dot + 1 = scanDots
    · refine ⟨false, _, ?_, .transfer hl' hs'⟩
      unfold advancePhase
      rw [hn, hm']
      exact congrArg Logged.value (if_pos hs')
    · refine ⟨false, p.nextDot, ?_, .stay hd ?_⟩
      · unfold advancePhase
        rw [hn, hm']
        exact congrArg Logged.value (if_neg hs')
      · rw [hm', phaseAt, if_neg hl, if_pos (by omega)]
  by_cases ht' : p.dot < scanDots + p.transferDots
  · have hm' : p.mode = .transfer := by rw [hm, phaseAt, if_neg hl, if_neg hs, if_pos ht']
    by_cases he : p.dot + 1 = scanDots + p.transferDots
    · refine ⟨true, _, ?_, .hblank hl' he⟩
      unfold advancePhase
      rw [hn, hm']
      exact congrArg Logged.value (if_pos he)
    · refine ⟨false, p.nextDot, ?_, .stay hd ?_⟩
      · unfold advancePhase
        rw [hn, hm']
        exact congrArg Logged.value (if_neg he)
      · rw [hm', phaseAt, if_neg hl, if_neg (by omega), if_pos (by omega)]
  · have hm' : p.mode = .hblank := by rw [hm, phaseAt, if_neg hl, if_neg hs, if_neg ht']
    refine ⟨false, p.nextDot, ?_, .stay hd ?_⟩
    · unfold advancePhase
      rw [hn, hm']
      rfl
    · rw [hm', phaseAt, if_neg hl, if_neg (by omega), if_neg (by omega)]

/-- At the end of a line the number of the next one decides. -/
theorem PhaseOK.wrap_step (h : PhaseOK p) (hon : p.lcdOn = true) (hd : p.dot + 1 = dotsPerLine) :
    ∃ vblank q, p.nextDot.nextLine.value = (q, vblank) ∧ DotStep p vblank false q := by
  have hr := nextRow_ly h.ly
  have hnr : p.nextDot.nextRow = p.nextRow := rfl
  have heq : ∀ n : UInt8, p.nextRow.ly = n ↔ p.ly.toNat + 1 = n.toNat := fun n => by
    rw [← hr, UInt8.toNat_inj]
  rw [nextLine_value, hnr]
  by_cases hv : p.ly.toNat + 1 = screenHeight
  · exact ⟨true, _, if_pos ((heq 144).2 hv), .vblank hv hd⟩
  rw [if_neg (mt (heq 144).1 hv)]
  by_cases hf : p.ly.toNat + 1 = linesPerFrame
  · exact ⟨false, _, if_pos ((heq 154).2 hf), .frame hf hd⟩
  rw [if_neg (mt (heq 154).1 hf)]
  have hlt : p.nextRow.ly < 144 ↔ p.ly.toNat + 1 < screenHeight := by
    rw [UInt8.lt_iff_toNat_lt, hr]
    rfl
  by_cases hs : p.ly.toNat + 1 < screenHeight
  · exact ⟨false, _, if_pos (hlt.2 hs), .scan hs hd⟩
  · have hly := h.ly
    have hm : p.mode = .vblank := by
      rcases h.mode_last hon hd with ⟨hl, -⟩ | ⟨-, hm⟩
      · omega
      · exact hm
    exact ⟨false, _, if_neg (mt hlt.1 hs), .blankLine (by omega) (by omega) hd hm⟩

/-- **Every dot of a lit display is one of the seven steps.** -/
theorem tick_step (h : PhaseOK p) (hon : p.lcdOn = true) :
    ∃ vblank hblank q, DotStep p vblank hblank q ∧
      p.tick.value = (q.updateStat.1, { vblank, stat := q.updateStat.2, hblank }) := by
  have hd := h.dot
  by_cases hw : p.dot + 1 = dotsPerLine
  · obtain ⟨vblank, q, hq, hs⟩ := h.wrap_step hon hw
    have hm : p.mode = .hblank ∨ p.mode = .vblank :=
      (h.mode_last hon hw).imp And.right And.right
    exact ⟨vblank, false, q, hs, by rw [tick_wrap hw hm, hq]⟩
  · obtain ⟨hblank, q, hq, hs⟩ := h.inner_step hon (by omega)
    exact ⟨false, hblank, q, hs, by rw [tick_inner hw, hq]⟩

theorem dotsPerLine_pos : 0 < dotsPerLine := by decide

theorem first_line_lt : (0 : UInt8).toNat < linesPerFrame := by decide

/-- The parts that no dot touches. -/
structure SameHardware (p q : Ppu) : Prop where
  model : q.model = p.model
  controls : q.controls = p.controls

theorem SameHardware.lcdOn (h : SameHardware p q) : q.lcdOn = p.lcdOn := by
  unfold Ppu.lcdOn
  rw [h.controls]

theorem startFrame_same (p : Ppu) : SameHardware p p.startFrame.value := by
  rw [startFrame, compareLine_eq]
  exact ⟨rfl, rfl⟩

theorem DotStep.same {v b : Bool} (h : DotStep p v b q) : SameHardware p q := by
  cases h with
  | hblank hl hd =>
    obtain ⟨frame, line, hq⟩ := drawLine_eq p.nextDot
    rw [beginHBlank, hq]
    exact ⟨rfl, rfl⟩
  | stay hd hm => exact ⟨rfl, rfl⟩
  | transfer hl hd => exact ⟨rfl, rfl⟩
  | scan hl hd => rw [compareLine_eq]; exact ⟨rfl, rfl⟩
  | vblank hl hd => rw [compareLine_eq]; exact ⟨rfl, rfl⟩
  | blankLine hl hl' hd hm => rw [compareLine_eq]; exact ⟨rfl, rfl⟩
  | frame hl hd => exact ⟨(startFrame_same p.nextRow).model, (startFrame_same p.nextRow).controls⟩

theorem PhaseOK.of_lit (hon : p.lcdOn = true) (hd : p.dot < dotsPerLine)
    (hl : p.ly.toNat < linesPerFrame)
    (ht : transferBase ≤ p.transferDots ∧ p.transferDots ≤ longestTransfer) (h : Lit p) :
    PhaseOK p :=
  ⟨hd, hl, ht, fun _ => h, fun hoff => by rw [hon] at hoff; cases hoff⟩

theorem startFrame_ok (hon : p.lcdOn = true)
    (ht : transferBase ≤ p.transferDots ∧ p.transferDots ≤ longestTransfer) :
    PhaseOK p.startFrame.value := by
  rw [startFrame, compareLine_eq]
  exact .of_lit hon dotsPerLine_pos first_line_lt ht ⟨rfl, if_pos hon⟩

/-- A dot keeps the invariant, whichever of the seven steps it is. -/
theorem DotStep.ok {v b : Bool} (hs : DotStep p v b q) (h : PhaseOK p) (hon : p.lcdOn = true) :
    PhaseOK q := by
  have hq : q.lcdOn = true := by rw [hs.same.lcdOn, hon]
  have hc := (h.lit hon).coincidence
  have hr := nextRow_ly h.ly
  have hscan : scanDots = 80 := rfl
  have hheight : screenHeight = 144 := rfl
  cases hs with
  | stay hd hm => exact .of_lit hq hd h.ly h.transfer ⟨hm, hc⟩
  | transfer hl hd =>
    have hlen : p.nextDot.latchSprites.sprites.length ≤ Sprite.perLine := latch_length_le ..
    have hb := transferLength_bounds p.controls.scx p.nextDot.latchSprites.windowStarts hlen
    refine .of_lit hq ?_ h.ly hb ⟨?_, hc⟩
    · show p.dot + 1 < dotsPerLine
      rw [hd]
      decide
    · -- a transfer takes at least one dot, so it has begun and not ended
      have hpos : 0 < transferBase := by decide
      have hlt : p.dot + 1 < scanDots + p.nextDot.beginTransfer.value.transferDots := by
        rw [hd]
        exact Nat.lt_add_of_pos_right (Nat.lt_of_lt_of_le hpos hb.1)
      show Mode.transfer = phaseAt p.ly.toNat (p.dot + 1) p.nextDot.beginTransfer.value.transferDots
      rw [phaseAt, if_neg (by omega), if_neg (by omega), if_pos hlt]
  | hblank hl hd =>
    -- the longest transfer still ends before the line does
    obtain ⟨frame, line, hdraw⟩ := drawLine_eq p.nextDot
    have ht := h.transfer
    rw [beginHBlank, hdraw] at hq ⊢
    refine .of_lit hq ?_ h.ly ht ⟨?_, hc⟩
    · show p.dot + 1 < dotsPerLine
      unfold longestTransfer at ht
      unfold dotsPerLine scanDots at *
      omega
    · show Mode.hblank = phaseAt p.ly.toNat (p.dot + 1) p.transferDots
      rw [phaseAt, if_neg (by omega), if_neg (by omega), if_neg (by omega)]
  | scan hl hd =>
    -- the length of the last transfer stands until the next one begins
    rw [compareLine_eq] at hq ⊢
    refine .of_lit hq dotsPerLine_pos ?_ h.transfer ⟨?_, if_pos hon⟩
    · show p.nextRow.ly.toNat < linesPerFrame
      unfold linesPerFrame
      omega
    · show Mode.oamScan = phaseAt p.nextRow.ly.toNat 0 p.transferDots
      rw [phaseAt, if_neg (by omega), if_pos (by omega)]
  | vblank hl hd =>
    rw [compareLine_eq] at hq ⊢
    refine .of_lit hq dotsPerLine_pos ?_ h.transfer ⟨?_, if_pos hon⟩
    · show p.nextRow.ly.toNat < linesPerFrame
      unfold linesPerFrame
      omega
    · show Mode.vblank = phaseAt p.nextRow.ly.toNat 0 p.transferDots
      rw [phaseAt, if_pos (by omega)]
  | blankLine hl hl' hd hm =>
    rw [compareLine_eq] at hq ⊢
    refine .of_lit hq dotsPerLine_pos ?_ h.transfer ⟨?_, if_pos hon⟩
    · show p.nextRow.ly.toNat < linesPerFrame
      omega
    · show p.mode = phaseAt p.nextRow.ly.toNat 0 p.transferDots
      rw [hm, phaseAt, if_pos (by omega)]
  | frame hl hd => exact startFrame_ok hon h.transfer

/-- The STAT line of a lit display is free. -/
theorem PhaseOK.withStat (h : PhaseOK p) (hon : p.lcdOn = true) (statLine extraScanEdge : Bool) :
    PhaseOK { p with statLine, extraScanEdge } :=
  .of_lit hon h.dot h.ly h.transfer ⟨(h.lit hon).mode, (h.lit hon).coincidence⟩

/-- **One dot keeps the phase invariant.** -/
theorem tick_ok (h : PhaseOK p) (hon : p.lcdOn = true) :
    PhaseOK p.tick.value.1 ∧ SameHardware p p.tick.value.1 := by
  obtain ⟨v, b, q, hs, hq⟩ := tick_step h hon
  have hsame := hs.same
  rw [hq]
  exact ⟨(hs.ok h hon).withStat (by rw [hsame.lcdOn, hon]) _ _, ⟨hsame.model, hsame.controls⟩⟩

/-- A property that every dot of a lit display keeps is kept by any number of dots. -/
theorem run_keeps {P : Ppu → Prop} (hP : ∀ p, P p → P p.tick.value.1) :
    ∀ (n : Nat) (r : Logged (Ppu × Signals)), P r.value.1 → P (run n r).value.1 := by
  intro n
  induction n with
  | zero =>
    intro r h
    exact h
  | succ n ih =>
    intro r h
    exact ih _ (hP _ h)

/-- What a dot keeps of two displays, with the same signals, any number of dots does. -/
theorem run_both {R : Ppu → Ppu → Prop}
    (htick : ∀ p q, R p q → R p.tick.value.1 q.tick.value.1 ∧ q.tick.value.2 = p.tick.value.2)
    (n : Nat) {r s : Logged (Ppu × Signals)} (h : R r.value.1 s.value.1)
    (hs : s.value.2 = r.value.2) :
    R (run n r).value.1 (run n s).value.1 ∧ (run n s).value.2 = (run n r).value.2 := by
  induction n generalizing r s with
  | zero => exact ⟨h, hs⟩
  | succ n ih =>
    obtain ⟨ht, hnow⟩ := htick _ _ h
    refine ih ht ?_
    simp only [Logged.value_bind, Logged.value_pure, hs, hnow]

/-- What every dot keeps of two displays, with the same signals, a step does. -/
theorem step_both {R : Ppu → Ppu → Prop}
    (htick : ∀ p q, R p q → R p.tick.value.1 q.tick.value.1 ∧ q.tick.value.2 = p.tick.value.2)
    (h : R p q) (hon : q.lcdOn = p.lcdOn) (n : Nat) :
    R (p.step n).value.1 (q.step n).value.1 ∧ (q.step n).value.2 = (p.step n).value.2 := by
  unfold step
  rw [hon]
  split
  · exact run_both htick n h rfl
  · exact ⟨h, rfl⟩

theorem step_ok (h : PhaseOK p) (n : Nat) :
    PhaseOK (p.step n).value.1 ∧ SameHardware p (p.step n).value.1 := by
  unfold step
  split
  · rename_i hon
    -- the dots before keep the LCD on for the next one
    have hone (q : Ppu) (hq : PhaseOK q ∧ SameHardware p q) :
        PhaseOK q.tick.value.1 ∧ SameHardware p q.tick.value.1 := by
      obtain ⟨hok, hs⟩ := hq
      obtain ⟨ht, hsame⟩ := tick_ok hok (by rw [hs.lcdOn, hon])
      exact ⟨ht, hsame.model.trans hs.model, hsame.controls.trans hs.controls⟩
    exact run_keeps hone n (pure (p, {})) ⟨h, rfl, rfl⟩
  · exact ⟨h, rfl, rfl⟩

/-! ## Accesses -/

/-- Memories and drawing options do not matter for the phase. -/
theorem PhaseOK.withMemories (h : PhaseOK p) (colorOutput : Bool) (vram : Vector UInt8 vramSize)
    (vramUpper : Bool) (oam : Vector UInt8 oamSize) (background objects : PaletteRam) :
    PhaseOK { p with colorOutput, vram, vramUpper, oam, background, objects } := by
  refine ⟨h.dot, h.ly, h.transfer, ?_, ?_⟩
  · intro hon
    have l := h.lit hon
    exact ⟨l.mode, l.coincidence⟩
  · intro hoff
    have d := h.dark hoff
    exact ⟨d.mode, d.ly, d.dot, d.window, d.statLine, d.frame⟩

/-- Nor do the registers, but for the switch of the LCD and LYC. -/
theorem PhaseOK.withControls (h : PhaseOK p) {c : Controls} (hon : c.lcdOn = p.lcdOn)
    (hlyc : c.lyc = p.controls.lyc) : PhaseOK { p with controls := c } := by
  refine ⟨h.dot, h.ly, h.transfer, ?_, ?_⟩
  · intro hc
    have l := h.lit (hon.symm.trans hc)
    have hcmp : p.coincidence = (p.ly == c.lyc) := by rw [l.coincidence, hlyc]
    exact ⟨l.mode, hcmp⟩
  · intro hc
    have d := h.dark (hon.symm.trans hc)
    exact ⟨d.mode, d.ly, d.dot, d.window, d.statLine, d.frame⟩

theorem switchOff_ok (hoff : p.lcdOn = false)
    (ht : transferBase ≤ p.transferDots ∧ p.transferDots ≤ longestTransfer) :
    PhaseOK p.switchOff.value :=
  ⟨dotsPerLine_pos, first_line_lt, ht, fun hon => absurd (hon.symm.trans hoff) (by decide),
    fun _ => ⟨rfl, rfl, rfl, rfl, rfl, rfl⟩⟩

/-- Switching the LCD keeps the invariant in all four cases. -/
theorem writeLcdc_ok (h : PhaseOK p) (v : UInt8) :
    PhaseOK (p.writeLcdc v).value ∧ (p.writeLcdc v).value.model = p.model := by
  unfold writeLcdc
  by_cases hon : p.lcdOn = true <;>
    by_cases hv : ({ p with controls.lcdc := v } : Ppu).lcdOn = true <;>
      simp only [Bool.not_eq_true] at hon hv <;> simp only [hon, hv]
  · exact ⟨h.withControls (hv.trans hon.symm) rfl, rfl⟩
  · exact ⟨switchOff_ok hv h.transfer, rfl⟩
  · exact ⟨startFrame_ok hv h.transfer, (startFrame_same { p with controls.lcdc := v }).model⟩
  · exact ⟨h.withControls (hv.trans hon.symm) rfl, rfl⟩

theorem writeLyc_ok (h : PhaseOK p) (v : UInt8) :
    PhaseOK ({ p with controls.lyc := v } : Ppu).compareLine := by
  rw [compareLine_eq]
  refine ⟨h.dot, h.ly, h.transfer, ?_, ?_⟩
  · -- a lit display compares again at once, a dark one keeps the old result
    intro hon
    exact ⟨(h.lit hon).mode, if_pos hon⟩
  · intro hoff
    have d := h.dark hoff
    exact ⟨d.mode, d.ly, d.dot, d.window, d.statLine, d.frame⟩

/-- The registers that just store what is written leave place, phase, picture and LCD switch alone. -/
theorem writeControl_eq (p : Ppu) (addr : UInt16) (v : UInt8) :
    ∃ controls coincidence background objects,
      p.writeControl addr v = { p with controls, coincidence, background, objects } ∧
        controls.lcdc = p.controls.lcdc := by
  unfold writeControl writeColorPort
  split
  case h_4 =>
    rw [compareLine_eq]
    exact ⟨_, _, _, _, rfl, rfl⟩
  case h_10 =>
    split
    · split <;> exact ⟨_, _, _, _, rfl, rfl⟩
    · exact ⟨_, _, _, _, rfl, rfl⟩
  all_goals exact ⟨_, _, _, _, rfl, rfl⟩

theorem writeColorPort_ok (h : PhaseOK p) (addr : UInt16) (v : UInt8) :
    PhaseOK (p.writeColorPort addr v) ∧ (p.writeColorPort addr v).model = p.model := by
  unfold writeColorPort
  split
  case h_5 => exact ⟨h.withControls rfl rfl, rfl⟩
  case h_6 => exact ⟨h, rfl⟩
  all_goals exact ⟨h.withMemories .., rfl⟩

theorem writeControl_ok (h : PhaseOK p) (addr : UInt16) (v : UInt8) :
    PhaseOK (p.writeControl addr v) ∧ (p.writeControl addr v).model = p.model := by
  unfold writeControl
  split
  case h_4 => exact ⟨writeLyc_ok h v, by rw [compareLine_eq]⟩
  case h_10 =>
    split
    · exact writeColorPort_ok h addr v
    · exact ⟨h, rfl⟩
  all_goals exact ⟨h.withControls rfl rfl, rfl⟩

/-- **A write to any display register keeps the phase invariant.** -/
theorem writePort_ok (h : PhaseOK p) (addr : UInt16) (v : UInt8) :
    PhaseOK (p.writePort addr v).value ∧ (p.writePort addr v).value.model = p.model := by
  unfold writePort
  split
  · exact writeLcdc_ok h v
  · exact writeControl_ok h addr v

/-- What the CPU, the transfer engines and the boot image do to the display, and time. -/
inductive Operation where
  | run (dots : Nat)
  | port (addr : UInt16) (v : UInt8)
  | vram (addr : UInt16) (v : UInt8)
  | vramBank (v : UInt8)
  | oam (addr : UInt16) (v : UInt8)
  /-- A transfer engine stores a byte, whatever the display is doing. -/
  | moveVram (upper : Bool) (offset : Nat) (v : UInt8)
  | moveOam (i : Fin oamSize) (v : UInt8)
  | monochrome
  | palettes (palettes : BootPalettes)

def perform (p : Ppu) : Operation → Ppu
  | .run dots => (p.step dots).value.1
  | .port addr v => (p.writePort addr v).value
  | .vram addr v => p.writeVram addr v
  | .vramBank v => p.selectVramBank v
  | .oam addr v => p.writeOam addr v
  | .moveVram upper offset v => p.setVramByte upper offset v
  | .moveOam i v => p.setOamByte i v
  | .monochrome => p.enterMonochrome
  | .palettes palettes => p.usePalettes palettes

/-- The displays that any operations in any order lead to, from power-on or from where the boot
image leaves. -/
inductive Reachable (model : Model) : Ppu → Prop where
  | powerOn : Reachable model (.powerOn model)
  | handOver (palettes : Option BootPalettes) :
      Reachable model ((Ppu.powerOn model).handOver palettes).value
  | perform {p : Ppu} (op : Operation) : Reachable model p → Reachable model (p.perform op)

theorem Reachable.foldl {model : Model} (h : Reachable model p) (ops : List Operation) :
    Reachable model (ops.foldl Ppu.perform p) := by
  induction ops generalizing p with
  | nil => exact h
  | cons op rest ih => exact ih (h.perform op)

theorem powerOn_lcdOn (model : Model) : (Ppu.powerOn model).lcdOn = false :=
  (by decide : ((0 : UInt8) &&& 0x80 != 0) = false)

theorem powerOn_ok (model : Model) : PhaseOK (.powerOn model) :=
  ⟨dotsPerLine_pos, first_line_lt, (by decide : transferBase ≤ 172 ∧ 172 ≤ longestTransfer),
    fun hon => absurd (hon.symm.trans (powerOn_lcdOn model)) (by decide),
    fun _ => ⟨rfl, rfl, rfl, rfl, rfl, rfl⟩⟩

/-- The boot image leaves the display as the LCD is switched on. -/
theorem handOver_eq (p : Ppu) (palettes : Option BootPalettes) :
    ∃ q : Ppu, (p.handOver palettes).value =
        { q.startFrame.value with statLine := false, extraScanEdge := false } ∧
      q.lcdOn = true ∧ q.model = p.model ∧ q.transferDots = p.transferDots ∧
      q.frames = p.frames := by
  unfold handOver
  simp only [Logged.value_bind, Logged.value_pure]
  have hon : ((0x91 : UInt8) &&& 0x80 != 0) = true := by decide
  refine ⟨_, rfl, ?_, ?_, ?_, ?_⟩
  · split
    · exact hon
    · exact hon
  all_goals split <;> rfl

theorem handOver_ok (h : PhaseOK p) (palettes : Option BootPalettes) :
    PhaseOK (p.handOver palettes).value ∧ (p.handOver palettes).value.model = p.model ∧
      (p.handOver palettes).value.lcdOn = true := by
  obtain ⟨q, hq, hon, hm, ht, -⟩ := handOver_eq p palettes
  have hs := startFrame_same q
  have hon' := hs.lcdOn.trans hon
  rw [hq]
  exact ⟨(startFrame_ok hon (ht ▸ h.transfer)).withStat hon' _ _, hs.model.trans hm, hon'⟩

theorem writeOam_eq (p : Ppu) (addr : UInt16) (v : UInt8) :
    ∃ oam, p.writeOam addr v = { p with oam } := by
  unfold writeOam
  split
  · split
    · exact ⟨_, rfl⟩
    · exact ⟨p.oam, rfl⟩
  · exact ⟨p.oam, rfl⟩

theorem writeVram_eq (p : Ppu) (addr : UInt16) (v : UInt8) :
    ∃ vram, p.writeVram addr v = { p with vram } := by
  unfold writeVram
  split
  · exact ⟨_, rfl⟩
  · exact ⟨p.vram, rfl⟩

/-- **Every operation keeps the phase invariant.** -/
theorem perform_ok (h : PhaseOK p) (op : Operation) :
    PhaseOK (p.perform op) ∧ (p.perform op).model = p.model := by
  cases op with
  | run dots => exact ⟨(step_ok h dots).1, (step_ok h dots).2.model⟩
  | port addr v => exact writePort_ok h addr v
  | vram addr v =>
    obtain ⟨vram, hq⟩ := writeVram_eq p addr v
    rw [perform, hq]
    exact ⟨h.withMemories .., rfl⟩
  | oam addr v =>
    obtain ⟨oam, hq⟩ := writeOam_eq p addr v
    rw [perform, hq]
    exact ⟨h.withMemories .., rfl⟩
  | vramBank v => exact ⟨h.withMemories .., rfl⟩
  | moveVram upper offset v => exact ⟨h.withMemories .., rfl⟩
  | moveOam i v => exact ⟨h.withMemories .., rfl⟩
  | monochrome => exact ⟨h.withMemories .., rfl⟩
  | palettes palettes =>
    have hc : PhaseOK { p with controls.opri := 1 } := h.withControls rfl rfl
    exact ⟨hc.withMemories .., rfl⟩

theorem reachable_ok {model : Model} (h : Reachable model p) : PhaseOK p ∧ p.model = model := by
  induction h with
  | powerOn => exact ⟨powerOn_ok model, rfl⟩
  | handOver palettes =>
    obtain ⟨hok, hm, -⟩ := handOver_ok (powerOn_ok model) palettes
    exact ⟨hok, hm⟩
  | perform op _ ih =>
    obtain ⟨hok, hm⟩ := perform_ok ih.1 op
    exact ⟨hok, hm.trans ih.2⟩

/-- Read backwards, the phase tells where in the line the display is. -/
theorem phaseAt_iff (line dot transfer : Nat) :
    (phaseAt line dot transfer = .vblank ↔ 144 ≤ line) ∧
      (line < 144 →
        (phaseAt line dot transfer = .oamScan ↔ dot < 80) ∧
        (phaseAt line dot transfer = .transfer ↔ 80 ≤ dot ∧ dot < 80 + transfer) ∧
        (phaseAt line dot transfer = .hblank ↔ 80 + transfer ≤ dot)) := by
  unfold phaseAt scanDots
  by_cases hl : screenHeight ≤ line
  · have hl' : 144 ≤ line := hl
    rw [if_pos hl]
    exact ⟨by simp [hl'], fun h => by omega⟩
  · have hl' : line < 144 := Nat.not_le.1 hl
    rw [if_neg hl]
    by_cases hs : dot < 80
    · rw [if_pos hs]
      simp
      omega
    · rw [if_neg hs]
      by_cases ht : dot < 80 + transfer
      · rw [if_pos ht]
        simp
        omega
      · rw [if_neg ht]
        simp
        omega

/-- **The phase follows from the place**, for every reachable display. The transfer never reaches
its limit, so each line has a horizontal blank of 131 dots or more. -/
theorem phase_of_place {model : Model} (h : Reachable model p) :
    p.dot ≤ 455 ∧ p.ly.toNat ≤ 153 ∧ 172 ≤ p.transferDots ∧ p.transferDots ≤ 245 ∧
      p.transferDots < transferLimit ∧ scanDots + p.transferDots + 131 ≤ dotsPerLine ∧
      (p.lcdOn = true →
        (p.mode = .vblank ↔ 144 ≤ p.ly.toNat) ∧
        (p.ly.toNat < 144 →
          (p.mode = .oamScan ↔ p.dot < 80) ∧
          (p.mode = .transfer ↔ 80 ≤ p.dot ∧ p.dot < 80 + p.transferDots) ∧
          (p.mode = .hblank ↔ 80 + p.transferDots ≤ p.dot)) ∧
        p.coincidence = (p.ly == p.controls.lyc)) ∧
      (p.lcdOn = false →
        p.mode = .hblank ∧ p.ly = 0 ∧ p.dot = 0 ∧ p.window.line = 0 ∧ p.statLine = false ∧
        ∀ (y : Fin screenHeight) (x : Fin screenWidth), p.frame[y][x] = blankColor model) := by
  obtain ⟨hok, hm⟩ := reachable_ok h
  have hd := hok.dot
  have hl := hok.ly
  obtain ⟨ht, ht'⟩ := hok.transfer
  unfold dotsPerLine at hd
  unfold linesPerFrame at hl
  unfold transferBase at ht
  unfold longestTransfer at ht'
  refine ⟨by omega, by omega, ht, ht', ?_, ?_, ?_, ?_⟩
  · unfold transferLimit dotsPerLine scanDots
    omega
  · unfold dotsPerLine scanDots
    omega
  · intro hon
    have l := hok.lit hon
    have hp := phaseAt_iff p.ly.toNat p.dot p.transferDots
    rw [← l.mode] at hp
    exact ⟨hp.1, hp.2, l.coincidence⟩
  · intro hoff
    have d := hok.dark hoff
    refine ⟨d.mode, d.ly, d.dot, d.window, d.statLine, ?_⟩
    intro y x
    rw [d.frame, hm]
    simp [blankFrame]

/-- The display that the boot image leaves has begun its first transfer after eighty dots. -/
theorem phase_after_scan :
    Reachable .mono (((Ppu.powerOn .mono).handOver none).value.perform (.run 80)) ∧
      (((Ppu.powerOn .mono).handOver none).value.perform (.run 80)).mode = .transfer := by
  have h : Reachable .mono (((Ppu.powerOn .mono).handOver none).value.perform (.run 80)) :=
    .perform _ (.handOver none)
  obtain ⟨-, -, hmin, -, -, -, hlit, -⟩ := phase_of_place h
  have hline := (hlit (by decide +kernel)).2.1 (by decide +kernel)
  have hdot : (((Ppu.powerOn .mono).handOver none).value.perform (.run 80)).dot = 80 := by
    decide +kernel
  exact ⟨h, hline.2.1.2 ⟨by omega, by omega⟩⟩

end Handheld.Ppu
