import Handheld.Proofs.Checked.Drawing
import Handheld.Proofs.Ppu.Phase

/-!
# The checked display

Dots and lines are counted in narrow registers, and sprites are latched into a table of ten. That
the latched sprites cover the line when it is drawn is an invariant: the line does not change during
a transfer, and the height that the sprites were picked with is latched with them.

* `Ppu.Latched`: during a transfer the line under way can be drawn.
* `Ppu.tick_latched`, `Ppu.perform_latched`: dots and accesses keep it.
* `Ppu.checkedStep_eq`: a reachable display runs without fault.
* `Ppu.checkedWritePort_eq`, `Ppu.checkedReadOam_eq`: nor do accesses meet any.
* `Ppu.checkedHandOver_eq`: nor does taking over from the boot image.
-/

namespace Handheld.Ppu

open Checked

variable {p q : Ppu}

/-- One of the four bytes of the sprite in place `i`. -/
def checkedByte (oam : Vector UInt8 oamSize) (i k : Nat) : Checked UInt8 :=
  get oam (i * 4 + k)

/-- Scans places of object memory for sprites that cover the line; `count` have been picked. -/
def checkedPick (oam : Vector UInt8 oamSize) (line height : Nat) :
    (count : Nat) → List Nat → Checked (List Sprite)
  | _, [] => return []
  | count, i :: rest =>
    if Sprite.perLine ≤ count then return []
    else do
      let y ← checkedByte oam i 0
      let y ← signed 15 (y.toNat - 16)
      let lower ← signed 15 (y + height)
      if y ≤ line ∧ line < lower then do
        let _ ← place Sprite.perLine count
        let x ← checkedByte oam i 1
        let x ← signed 15 (x.toNat - 8)
        let tile ← checkedByte oam i 2
        let flags ← checkedByte oam i 3
        let others ← checkedPick oam line height (count + 1) rest
        return { x, y, tile, flags, index := i } :: others
      else checkedPick oam line height count rest

def checkedLatchSprites (p : Ppu) : Checked Ppu := do
  let sprites ← checkedPick p.oam p.ly.toNat p.controls.spriteHeight 0 (List.range 40)
  return { p with
    sprites := Sprite.arrange p.drawsByIndex sprites
    spriteHeight := p.controls.spriteHeight }

theorem checkedByte_eq (oam : Vector UInt8 oamSize) (i : Fin 40) (k : Fin 4) :
    checkedByte oam i k = .ok (Sprite.byte oam i k) := by
  have hi : i.val * 4 + k.val < oamSize := by
    unfold oamSize
    omega
  have hplace : i.val * 4 + k.val = 4 * i.val + k.val := by omega
  rw [checkedByte, get_ok _ hi]
  simp only [hplace]
  rfl

/-- Scanning one place. -/
theorem checkedPick_cons (oam : Vector UInt8 oamSize) (line : Nat) {height : Nat} (hh : height ≤ 16)
    {count : Nat} (hc : count < Sprite.perLine) (i : Fin 40) (rest : List Nat) :
    checkedPick oam line height count (i.val :: rest) =
      if (Sprite.ofMemory oam i).covers line height then
        (Sprite.ofMemory oam i :: ·) <$> checkedPick oam line height (count + 1) rest
      else checkedPick oam line height count rest := by
  have hx := (Sprite.byte oam i 1).toNat_lt
  have hy := (Sprite.byte oam i 0).toNat_lt
  have hcovers : (Sprite.ofMemory oam i).covers line height =
      decide (((Sprite.byte oam i 0).toNat : Int) - 16 ≤ line ∧
        (line : Int) < (Sprite.byte oam i 0).toNat - 16 + height) := by
    rw [Sprite.covers, Sprite.ofMemory_y, Bool.decide_and]
  have hrow : checkedByte oam i 0 = .ok (Sprite.byte oam i 0) := checkedByte_eq oam i 0
  have hcolumn : checkedByte oam i 1 = .ok (Sprite.byte oam i 1) := checkedByte_eq oam i 1
  have htile : checkedByte oam i 2 = .ok (Sprite.byte oam i 2) := checkedByte_eq oam i 2
  have hflags : checkedByte oam i 3 = .ok (Sprite.byte oam i 3) := checkedByte_eq oam i 3
  rw [checkedPick, if_neg (Nat.not_le.2 hc), hrow, ok_bind,
    signed_ok (by omega) (by omega), ok_bind, signed_ok (by omega) (by omega), ok_bind, hcovers]
  simp only [decide_eq_true_eq]
  split
  · rw [place_ok hc, ok_bind, hcolumn, ok_bind, signed_ok (by omega) (by omega), ok_bind, htile,
      ok_bind, hflags, ok_bind]
    rfl
  · rfl

/-- **The scan meets no fault**, and picks what it should. -/
theorem checkedPick_eq (oam : Vector UInt8 oamSize) (line : Nat) {height : Nat} (hh : height ≤ 16)
    (places count : Nat) (hc : count + places = Sprite.perLine) (l : List (Fin 40)) :
    checkedPick oam line height count (l.map Fin.val) =
      .ok (Sprite.pick line height places (l.map (Sprite.ofMemory oam))) := by
  induction l generalizing places count with
  | nil => cases places <;> rfl
  | cons i l ih =>
    cases places with
    | zero =>
      -- the table is full
      rw [List.map_cons, checkedPick, if_pos (by omega)]
      rfl
    | succ places =>
      rw [List.map_cons, checkedPick_cons oam line hh (by omega), List.map_cons, Sprite.pick]
      split
      · rw [ih places (count + 1) (by omega)]
        rfl
      · exact ih (places + 1) count hc

theorem spriteHeight_cases (c : Controls) : c.spriteHeight = 8 ∨ c.spriteHeight = 16 := by
  unfold Controls.spriteHeight
  split
  · exact .inr rfl
  · exact .inl rfl

theorem checkedLatchSprites_eq (p : Ppu) : p.checkedLatchSprites = .ok p.latchSprites := by
  have hh : p.controls.spriteHeight ≤ 16 := by
    rcases spriteHeight_cases p.controls with h | h <;> omega
  have hplaces : List.range 40 = (List.finRange 40).map Fin.val := by decide
  rw [checkedLatchSprites, hplaces, checkedPick_eq p.oam _ hh Sprite.perLine 0 (Nat.zero_add _)]
  rfl

theorem ofMemory_bounds (oam : Vector UInt8 oamSize) (i : Fin 40) :
    -8 ≤ (Sprite.ofMemory oam i).x ∧ (Sprite.ofMemory oam i).x < 0x100 := by
  have hx := (Sprite.byte oam i 1).toNat_lt
  rw [Sprite.ofMemory_x]
  omega

theorem mem_pick {s : Sprite} {line height places : Nat} {l : List Sprite}
    (h : s ∈ Sprite.pick line height places l) : s ∈ l ∧ s.covers line height = true := by
  fun_induction Sprite.pick line height places l with
  | case1 => cases h
  | case2 => cases h
  | case3 places t rest ht ih =>
    rcases List.mem_cons.1 h with rfl | hs
    · exact ⟨.head _, ht⟩
    · exact ⟨.tail _ (ih hs).1, (ih hs).2⟩
  | case4 places t rest ht ih => exact ⟨.tail _ (ih h).1, (ih h).2⟩

theorem mem_latch {s : Sprite} {oam : Vector UInt8 oamSize} {line height : Nat} {byIndex : Bool}
    (h : s ∈ Sprite.latch oam line height byIndex) : s.Fits line height := by
  have hpick : s ∈ Sprite.pick line height Sprite.perLine (Sprite.all oam) := by
    unfold Sprite.latch Sprite.arrange at h
    split at h
    · exact h
    · exact List.mem_mergeSort.1 h
  obtain ⟨hall, hcovers⟩ := mem_pick hpick
  obtain ⟨i, -, rfl⟩ := List.mem_map.1 hall
  obtain ⟨hleft, hright⟩ := ofMemory_bounds oam i
  exact ⟨hleft, hright, hcovers⟩

/-- **The line can be drawn** while its transfer is under way. -/
def Latched (p : Ppu) : Prop := p.mode = .transfer → Drawable p

theorem latchSprites_drawable (p : Ppu) : Drawable p.latchSprites where
  height := spriteHeight_cases p.controls
  few := latch_length_le ..
  fit _ hs := mem_latch hs

theorem beginTransfer_latched (p : Ppu) : Latched p.beginTransfer.value :=
  fun _ =>
    ⟨p.latchSprites_drawable.height, p.latchSprites_drawable.few, p.latchSprites_drawable.fit⟩

/-- Outside of transfers nothing is asked. -/
theorem Latched.of_mode (h : p.mode ≠ .transfer) : Latched p := fun hm => absurd hm h

/-- What the display draws with stays during a transfer. -/
theorem Latched.of_eq (h : Latched p) (hmode : q.mode = p.mode) (hly : q.ly = p.ly)
    (hsprites : q.sprites = p.sprites) (hheight : q.spriteHeight = p.spriteHeight) : Latched q := by
  intro hm
  obtain ⟨hh, hfew, hfit⟩ := h (hmode.symm.trans hm)
  exact ⟨by rwa [hheight], by rwa [hsprites], by rwa [hsprites, hly, hheight]⟩

theorem DotStep.latched {v b : Bool} (hs : DotStep p v b q) (h : Latched p) : Latched q := by
  -- a transfer starts with its own sprites, and its line changes only once it is over
  cases hs with
  | stay hd hm => exact h.of_eq rfl rfl rfl rfl
  | transfer hl hd => exact beginTransfer_latched _
  | hblank hl hd => exact .of_mode (by decide : Mode.hblank ≠ .transfer)
  | scan hl hd =>
    rw [compareLine_eq]
    exact .of_mode (by decide : Mode.oamScan ≠ .transfer)
  | vblank hl hd =>
    rw [compareLine_eq]
    exact .of_mode (by decide : Mode.vblank ≠ .transfer)
  | blankLine hl hl' hd hm =>
    have hmode : p.nextRow.mode ≠ .transfer := by
      rw [show p.nextRow.mode = .vblank from hm]
      decide
    rw [compareLine_eq]
    exact .of_mode hmode
  | frame hl hd => exact .of_mode (by decide : Mode.oamScan ≠ .transfer)

/-- **One dot keeps the latched sprites on their line.** -/
theorem tick_latched (hok : PhaseOK p) (hon : p.lcdOn = true) (h : Latched p) :
    Latched p.tick.value.1 := by
  obtain ⟨v, b, q, hs, hq⟩ := tick_step hok hon
  rw [hq]
  exact (hs.latched h).of_eq rfl rfl rfl rfl

/-- The invariant of a display that runs. -/
structure Running (p : Ppu) : Prop where
  phase : PhaseOK p
  lit : p.lcdOn = true
  latched : Latched p

theorem Running.tick (h : Running p) : Running p.tick.value.1 := by
  obtain ⟨hok, hsame⟩ := tick_ok h.phase h.lit
  exact ⟨hok, hsame.lcdOn.trans h.lit, tick_latched h.phase h.lit h.latched⟩

theorem step_latched (hok : PhaseOK p) (h : Latched p) (n : Nat) : Latched (p.step n).value.1 := by
  unfold step
  split
  · rename_i hon
    exact (run_keeps (fun _ hq => Running.tick hq) n (pure (p, {})) ⟨hok, hon, h⟩).latched
  · exact h

theorem writePort_latched (h : Latched p) (addr : UInt16) (v : UInt8) :
    Latched (p.writePort addr v).value := by
  unfold writePort
  split
  · unfold writeLcdc
    dsimp only
    -- to switch the display, off or on, is to end the transfer
    split
    · exact .of_mode (by decide : Mode.hblank ≠ .transfer)
    · exact .of_mode (by decide : Mode.oamScan ≠ .transfer)
    · exact h.of_eq rfl rfl rfl rfl
  · obtain ⟨controls, coincidence, background, objects, hq, -⟩ := writeControl_eq p addr v
    rw [hq]
    exact h.of_eq rfl rfl rfl rfl

/-- **Every operation keeps the latched sprites on their line.** -/
theorem perform_latched (hok : PhaseOK p) (h : Latched p) (op : Operation) :
    Latched (p.perform op) := by
  cases op with
  | run dots => exact step_latched hok h dots
  | port addr v => exact writePort_latched h addr v
  | vram addr v =>
    obtain ⟨vram, hq⟩ := writeVram_eq p addr v
    rw [perform, hq]
    exact h.of_eq rfl rfl rfl rfl
  | oam addr v =>
    obtain ⟨oam, hq⟩ := writeOam_eq p addr v
    rw [perform, hq]
    exact h.of_eq rfl rfl rfl rfl
  | vramBank v | moveVram upper offset v | moveOam i v | monochrome | palettes palettes =>
    exact h.of_eq rfl rfl rfl rfl

theorem reachable_latched {model : Model} (h : Reachable model p) : Latched p := by
  induction h with
  | powerOn => exact .of_mode (by decide : Mode.hblank ≠ .transfer)
  | handOver palettes =>
    obtain ⟨q, hq, -⟩ := handOver_eq (.powerOn model) palettes
    rw [hq]
    exact .of_mode (by decide : Mode.oamScan ≠ .transfer)
  | perform op hp ih => exact perform_latched (reachable_ok hp).1 ih op

theorem Reachable.running {model : Model} (h : Reachable model p) (hon : p.lcdOn = true) :
    Running p :=
  ⟨(reachable_ok h).1, hon, reachable_latched h⟩

/-! ## Dots -/

def checkedTransferLength (scx : UInt8) (window : Bool) (sprites : Nat) : Checked Nat := do
  let dots ← unsigned 16 (transferBase + scx.toNat % 8)
  let dots ← unsigned 16 (dots + if window then windowPenalty else 0)
  let cost ← unsigned 16 (spritePenalty * sprites)
  let dots ← unsigned 16 (dots + cost)
  return min transferLimit dots

def checkedBeginTransfer (p : Ppu) : Checked Ppu := do
  let p ← p.checkedLatchSprites
  let onLine := p.windowStarts
  let transferDots ← checkedTransferLength p.controls.scx onLine p.sprites.length
  return { p with window.onLine := onLine, transferDots, mode := .transfer }

def checkedBeginHBlank (p : Ppu) : Checked Ppu := do
  let p ← p.checkedDrawLine
  return { p with mode := .hblank }

def checkedAdvancePhase (p : Ppu) : Checked (Ppu × Bool) :=
  match p.mode with
  | .oamScan =>
    if p.dot = scanDots then (·, false) <$> p.checkedBeginTransfer else return (p, false)
  | .transfer => do
    let last ← unsigned 16 (scanDots + p.transferDots)
    if p.dot = last then (·, true) <$> p.checkedBeginHBlank else return (p, false)
  | .hblank | .vblank => return (p, false)

/-- Lines are counted in a byte. -/
def checkedNextLine (p : Ppu) : Checked (Ppu × Bool) := do
  let _ ← unsigned 8 (p.ly.toNat + 1)
  return p.nextLine.value

/-- The end of a line, if the dot is its last. -/
def checkedLineEnd (p : Ppu) : Checked (Ppu × Bool) :=
  if p.dot = dotsPerLine then p.checkedNextLine else return (p, false)

def checkedTick (p : Ppu) : Checked (Ppu × Signals) := do
  let dot ← unsigned 16 (p.dot + 1)
  let (p, hblank) ← { p with dot }.checkedAdvancePhase
  let (p, vblank) ← p.checkedLineEnd
  let (p, stat) := p.updateStat
  return (p, { vblank, stat, hblank })

def checkedRun : Nat → Ppu × Signals → Checked (Ppu × Signals)
  | 0, r => return r
  | n + 1, (p, before) => do
    let (p, now) ← p.checkedTick
    checkedRun n (p, before.merge now)

def checkedStep (p : Ppu) (n : Nat) : Checked (Ppu × Signals) :=
  if p.lcdOn then checkedRun n (p, {}) else return (p, {})

theorem checkedTransferLength_eq (scx : UInt8) (window : Bool) {sprites : Nat}
    (h : sprites ≤ Sprite.perLine) :
    checkedTransferLength scx window sprites = .ok (transferLength scx window sprites) := by
  have hwindow : (if window then windowPenalty else 0) ≤ 6 := by
    unfold windowPenalty
    split <;> omega
  have hten : sprites ≤ 10 := h
  unfold checkedTransferLength transferLength transferBase spritePenalty
  rw [unsigned_ok (by omega), ok_bind, unsigned_ok (by omega), ok_bind, unsigned_ok (by omega),
    ok_bind, unsigned_ok (by omega)]
  rfl

theorem checkedBeginTransfer_eq (p : Ppu) :
    p.checkedBeginTransfer = .ok p.beginTransfer.value := by
  rw [checkedBeginTransfer, checkedLatchSprites_eq, ok_bind]
  dsimp only
  rw [checkedTransferLength_eq _ _ p.latchSprites_drawable.few]
  rfl

theorem checkedAdvancePhase_eq (ht : p.transferDots ≤ longestTransfer) (h : Latched p) :
    p.checkedAdvancePhase = .ok p.advancePhase.value := by
  have hlast : scanDots + p.transferDots < 2 ^ 16 := by
    unfold longestTransfer at ht
    unfold scanDots
    omega
  unfold checkedAdvancePhase advancePhase
  cases hm : p.mode with
  | oamScan =>
    simp only [checkedBeginTransfer_eq, map_ok, pure_eq_ok, ite_ok]
    split <;> rfl
  | transfer =>
    simp only [unsigned_ok hlast, checkedBeginHBlank, checkedDrawLine_eq (h hm), ok_bind, map_ok,
      pure_eq_ok, ite_ok]
    split <;> rfl
  | hblank => rfl
  | vblank => rfl

theorem checkedLineEnd_eq (hl : p.ly.toNat < linesPerFrame) :
    p.checkedLineEnd = .ok (if p.dot = dotsPerLine then p.nextLine.value else (p, false)) := by
  have hnext : p.ly.toNat + 1 < 2 ^ 8 := by
    unfold linesPerFrame at hl
    omega
  rw [checkedLineEnd, checkedNextLine, unsigned_ok hnext, ok_bind, pure_eq_ok, pure_eq_ok, ite_ok]

/-- Phases begin and end on one line. -/
theorem advancePhase_ly (p : Ppu) : p.advancePhase.value.1.ly = p.ly := by
  unfold advancePhase
  split
  · split <;> rfl
  · split
    · obtain ⟨frame, line, hq⟩ := drawLine_eq p
      simp [beginHBlank, setMode, hq]
    · rfl
  · rfl
  · rfl

/-- **A dot passes without fault.** -/
theorem checkedTick_eq (h : Running p) : p.checkedTick = .ok p.tick.value := by
  obtain ⟨hok, -, hlatched⟩ := h
  have hdot := hok.dot
  have hwidth : p.dot + 1 < 2 ^ 16 := by
    unfold dotsPerLine at hdot
    omega
  have hnext : Latched p.nextDot := hlatched.of_eq rfl rfl rfl rfl
  have hline : p.nextDot.advancePhase.value.1.ly.toNat < linesPerFrame := by
    rw [advancePhase_ly]
    exact hok.ly
  have hphase := checkedAdvancePhase_eq (p := p.nextDot) hok.transfer.2 hnext
  have hmoved : { p with dot := p.dot + 1 } = p.nextDot := rfl
  rw [checkedTick, unsigned_ok hwidth, ok_bind, hmoved, hphase, ok_bind, tick_eq]
  dsimp only
  rw [checkedLineEnd_eq hline, ok_bind, Logged.value_bind]
  split <;> rfl

theorem checkedRun_eq (n : Nat) (r : Logged (Ppu × Signals)) (h : Running r.value.1) :
    checkedRun n r.value = .ok (run n r).value := by
  induction n generalizing r with
  | zero => rfl
  | succ n ih =>
    have hnext := ih (r >>= fun s => s.1.tick >>= fun t => pure (t.1, s.2.merge t.2)) h.tick
    rw [checkedRun, checkedTick_eq h, ok_bind]
    exact hnext

/-- **A reachable display runs without fault.** -/
theorem checkedStep_eq {model : Model} (h : Reachable model p) (n : Nat) :
    p.checkedStep n = .ok (p.step n).value := by
  unfold checkedStep step
  split
  · rename_i hon
    exact checkedRun_eq n (pure (p, {})) (h.running hon)
  · rfl

/-! ## Accesses -/

/-- Video memory as the CPU reads it. -/
def checkedReadVram (p : Ppu) (addr : UInt16) : Checked UInt8 :=
  if p.vramFree then p.checkedVram p.vramUpper (addr.toNat % 0x2000) else return 0xFF

def checkedSetVram (p : Ppu) (upper : Bool) (i : Nat) (v : UInt8) : Checked Ppu :=
  (fun j : Fin 0x2000 => p.setVramByte upper j v) <$> place 0x2000 i

def checkedWriteVram (p : Ppu) (addr : UInt16) (v : UInt8) : Checked Ppu :=
  if p.vramFree then p.checkedSetVram p.vramUpper (addr.toNat % 0x2000) v else return p

/-- Object memory as the CPU reads it. -/
def checkedReadOam (p : Ppu) (addr : UInt16) : Checked UInt8 :=
  if p.oamFree then do
    let i ← minus addr.toNat 0xFE00
    get p.oam i
  else return 0xFF

def checkedSetOam (p : Ppu) (i : Nat) (v : UInt8) : Checked Ppu := do
  let oam ← set p.oam i v
  return { p with oam }

def checkedWriteOam (p : Ppu) (addr : UInt16) (v : UInt8) : Checked Ppu :=
  if p.oamFree then do
    let i ← minus addr.toNat 0xFE00
    p.checkedSetOam i v
  else return p

def PaletteRam.checkedReadData (r : PaletteRam) : Checked UInt8 :=
  get r.cells (r.index &&& 0x3F).toNat

def PaletteRam.checkedWriteData (r : PaletteRam) (v : UInt8) : Checked PaletteRam := do
  let cells ← set r.cells (r.index &&& 0x3F).toNat v
  return { cells, index := nextIndex r.index }

/-- The ports of the palette memories are the only ones with a table behind them. -/
def checkedReadPort (p : Ppu) (addr : UInt16) : Checked UInt8 :=
  if p.model.isColor ∧ addr = 0xFF69 then p.background.checkedReadData
  else if p.model.isColor ∧ addr = 0xFF6B then p.objects.checkedReadData
  else return p.readPort addr

def checkedWritePort (p : Ppu) (addr : UInt16) (v : UInt8) : Checked Ppu :=
  if p.model.isColor ∧ addr = 0xFF69 then do
    let background ← p.background.checkedWriteData v
    return { p with background }
  else if p.model.isColor ∧ addr = 0xFF6B then do
    let objects ← p.objects.checkedWriteData v
    return { p with objects }
  else return (p.writePort addr v).value

/-- Only the place within a bank counts. -/
theorem vramCell_mod (upper : Bool) (i : Nat) : vramCell upper (i % 0x2000) = vramCell upper i :=
  Fin.ext (by simp only [vramCell, Nat.mod_mod])

theorem checkedReadVram_eq (p : Ppu) (addr : UInt16) :
    p.checkedReadVram addr = .ok (p.readVram addr) := by
  have hi : addr.toNat % 0x2000 < 0x2000 := Nat.mod_lt _ (by decide)
  have hcell : p.vramByte p.vramUpper (addr.toNat % 0x2000) = p.vramByte p.vramUpper addr.toNat :=
    congrArg p.vram.get (vramCell_mod ..)
  rw [checkedReadVram, readVram, p.checkedVram_eq _ hi, hcell, pure_eq_ok, ite_ok]

theorem checkedSetVram_eq (p : Ppu) (upper : Bool) (i : Nat) (v : UInt8) :
    p.checkedSetVram upper (i % 0x2000) v = .ok (p.setVramByte upper i v) := by
  have hi : i % 0x2000 < 0x2000 := Nat.mod_lt _ (by decide)
  have hcell : p.setVramByte upper (i % 0x2000) v = p.setVramByte upper i v :=
    congrArg (fun c : Fin vramSize => { p with vram := p.vram.set c v }) (vramCell_mod ..)
  rw [checkedSetVram, place_ok hi, map_ok, hcell]

theorem checkedWriteVram_eq (p : Ppu) (addr : UInt16) (v : UInt8) :
    p.checkedWriteVram addr v = .ok (p.writeVram addr v) := by
  rw [checkedWriteVram, writeVram, checkedSetVram_eq, pure_eq_ok, ite_ok]

/-- The addresses of object memory have a cell each. -/
theorem oamIndex?_eq {addr : UInt16} (h : 0xFE00 ≤ addr.toNat) (h' : addr.toNat < 0xFEA0) :
    ∃ hi : addr.toNat - 0xFE00 < oamSize,
      oamIndex? addr = some ⟨addr.toNat - 0xFE00, hi⟩ := by
  have hsub : (addr - 0xFE00).toNat = addr.toNat - 0xFE00 :=
    UInt16.toNat_sub_of_le _ _ (UInt16.le_iff_toNat_le.2 h)
  have hi : addr.toNat - 0xFE00 < oamSize := by
    unfold oamSize
    omega
  refine ⟨hi, ?_⟩
  simp only [oamIndex?, hsub]
  exact dif_pos hi

theorem checkedReadOam_eq (p : Ppu) {addr : UInt16} (h : 0xFE00 ≤ addr.toNat)
    (h' : addr.toNat < 0xFEA0) : p.checkedReadOam addr = .ok (p.readOam addr) := by
  obtain ⟨hi, hindex⟩ := oamIndex?_eq h h'
  rw [checkedReadOam, readOam, hindex, minus_ok h, ok_bind, get_ok _ hi, pure_eq_ok, ite_ok]
  rfl

theorem checkedSetOam_eq (p : Ppu) (i : Fin oamSize) (v : UInt8) :
    p.checkedSetOam i v = .ok (p.setOamByte i v) := by
  rw [checkedSetOam, set_ok _ i.isLt]
  rfl

theorem checkedWriteOam_eq (p : Ppu) {addr : UInt16} (h : 0xFE00 ≤ addr.toNat)
    (h' : addr.toNat < 0xFEA0) (v : UInt8) :
    p.checkedWriteOam addr v = .ok (p.writeOam addr v) := by
  obtain ⟨hi, hindex⟩ := oamIndex?_eq h h'
  rw [checkedWriteOam, writeOam, hindex, minus_ok h, ok_bind,
    checkedSetOam_eq p ⟨addr.toNat - 0xFE00, hi⟩, pure_eq_ok, ite_ok]

theorem and_cells (v : UInt8) : (v &&& 0x3F).toNat = v.toNat % 0x40 :=
  forall_byte (P := fun v => (v &&& 0x3F).toNat = v.toNat % 0x40) (by decide +kernel) v

theorem PaletteRam.checkedReadData_eq (r : PaletteRam) : r.checkedReadData = .ok r.readData := by
  have hi : r.index.toNat % 0x40 < 0x40 := Nat.mod_lt _ (by decide)
  rw [checkedReadData, and_cells, get_ok _ hi]
  rfl

theorem PaletteRam.checkedWriteData_eq (r : PaletteRam) (v : UInt8) :
    r.checkedWriteData v = .ok (r.writeData v) := by
  have hi : r.index.toNat % 0x40 < 0x40 := Nat.mod_lt _ (by decide)
  rw [checkedWriteData, and_cells, set_ok _ hi]
  rfl

theorem checkedReadPort_eq (p : Ppu) (addr : UInt16) :
    p.checkedReadPort addr = .ok (p.readPort addr) := by
  unfold checkedReadPort
  split
  · rename_i h
    obtain ⟨hc, rfl⟩ := h
    rw [PaletteRam.checkedReadData_eq]
    exact congrArg Except.ok (if_pos hc).symm
  · split
    · rename_i h
      obtain ⟨hc, rfl⟩ := h
      rw [PaletteRam.checkedReadData_eq]
      exact congrArg Except.ok (if_pos hc).symm
    · rfl

theorem checkedWritePort_eq (p : Ppu) (addr : UInt16) (v : UInt8) :
    p.checkedWritePort addr v = .ok (p.writePort addr v).value := by
  unfold checkedWritePort
  split
  · rename_i h
    obtain ⟨hc, rfl⟩ := h
    rw [PaletteRam.checkedWriteData_eq]
    exact congrArg Except.ok (if_pos hc).symm
  · split
    · rename_i h
      obtain ⟨hc, rfl⟩ := h
      rw [PaletteRam.checkedWriteData_eq]
      exact congrArg Except.ok (if_pos hc).symm
    · rfl

/-- Stores color `i` of a palette in its two cells. -/
def PaletteRam.checkedSetColor (r : PaletteRam) (palette i : Nat) (c : UInt16) :
    Checked PaletteRam := do
  let cells ← set r.cells (palette * 8 + i * 2) (lowByte c)
  let cells ← set cells (palette * 8 + (i * 2 + 1)) (highByte c)
  return { r with cells }

def PaletteRam.checkedSetPalette (r : PaletteRam) (palette : Nat) (colors : Vector UInt16 4) :
    Checked PaletteRam := do
  let r ← r.checkedSetColor palette 0 colors[0]
  let r ← r.checkedSetColor palette 1 colors[1]
  let r ← r.checkedSetColor palette 2 colors[2]
  r.checkedSetColor palette 3 colors[3]

def checkedUsePalettes (p : Ppu) (palettes : BootPalettes) : Checked Ppu := do
  let objects ← p.objects.checkedSetPalette 0 palettes.object0
  let objects ← objects.checkedSetPalette 1 palettes.object1
  let background ← p.background.checkedSetPalette 0 palettes.background
  return { p with objects, background, controls.opri := 1, colorOutput := false }

/-- The display with the registers that the boot image sets. -/
def afterBootControls (p : Ppu) : Ppu :=
  { p with
    controls.lcdc := 0x91
    controls.sources := 0
    controls.bgp := 0xFC
    controls.obp0 := 0xFF
    controls.obp1 := 0xFF }

def checkedAfterBootColors (p : Ppu) (palettes : Option BootPalettes) : Checked Ppu :=
  match p.model, palettes with
  | .color, some palettes => p.checkedUsePalettes palettes
  | _, _ => return p

def checkedHandOver (p : Ppu) (palettes : Option BootPalettes) : Checked Ppu := do
  let p ← p.afterBootControls.checkedAfterBootColors palettes
  return { p.startFrame.value with statLine := false, extraScanEdge := false }

theorem PaletteRam.checkedSetPalette_eq (r : PaletteRam) {palette : Nat} (h : palette < 8)
    (colors : Vector UInt16 4) :
    r.checkedSetPalette palette colors = .ok (r.setPalette palette colors) := by
  have hcell : ∀ k, k < 8 → palette * 8 + k < 0x40 := fun k hk => by omega
  unfold checkedSetPalette checkedSetColor
  simp only [set_ok, hcell, Nat.reduceMul, Nat.reduceAdd, Nat.reduceLT, ok_bind, pure_eq_ok]
  unfold setPalette
  congr 2
  ext j hj
  rw [Vector.getElem_mapFinIdx]
  simp only [Vector.getElem_set]
  by_cases hp : j / 8 = palette
  · -- the last byte written to the cell counts, and each of the eight is written once
    obtain ⟨k, hk, rfl⟩ : ∃ k, k < 8 ∧ j = palette * 8 + k := ⟨j % 8, by omega, by omega⟩
    have hmod : (palette * 8 + k) % 8 = k := by omega
    have heven : (palette * 8 + k) % 2 = k % 2 := by omega
    simp only [hp, if_true, hmod, heven, Nat.add_left_cancel_iff]
    have hcases : k = 0 ∨ k = 1 ∨ k = 2 ∨ k = 3 ∨ k = 4 ∨ k = 5 ∨ k = 6 ∨ k = 7 := by omega
    rcases hcases with rfl | rfl | rfl | rfl | rfl | rfl | rfl | rfl <;> rfl
  · have hother : ∀ k, k < 8 → palette * 8 + k ≠ j := fun k hk => by omega
    simp only [hp, hother, Nat.reduceLT, if_false]

theorem checkedUsePalettes_eq (p : Ppu) (palettes : BootPalettes) :
    p.checkedUsePalettes palettes = .ok (p.usePalettes palettes) := by
  rw [checkedUsePalettes, PaletteRam.checkedSetPalette_eq _ (by decide), ok_bind,
    PaletteRam.checkedSetPalette_eq _ (by decide), ok_bind,
    PaletteRam.checkedSetPalette_eq _ (by decide)]
  rfl

theorem checkedAfterBootColors_eq (p : Ppu) (palettes : Option BootPalettes) :
    p.checkedAfterBootColors palettes =
      .ok (match p.model, palettes with
        | .color, some palettes => p.usePalettes palettes
        | _, _ => p) := by
  unfold checkedAfterBootColors
  split
  · exact checkedUsePalettes_eq ..
  · rfl

theorem checkedHandOver_eq (p : Ppu) (palettes : Option BootPalettes) :
    p.checkedHandOver palettes = .ok (p.handOver palettes).value := by
  rw [checkedHandOver, checkedAfterBootColors_eq]
  rfl

end Handheld.Ppu
