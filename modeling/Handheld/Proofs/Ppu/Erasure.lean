import Handheld.Proofs.Ppu.Phase

/-!
# Switching the LCD off and on erases the hidden state

Besides what a program can read back, a display holds its place in the frame, the window's progress,
the STAT line and the latches of a line. The switch rewinds all of it but the latches, and those are
set when a transfer begins, before anything uses them.

* `relight_eq`: the state after the switch, from what a program can read back and the latches.
* `Alike`: two displays whose latches may differ, though not while a transfer uses them.
* `tick_alike`, `step_alike`, `perform_alike`: time and accesses keep two displays alike.
* `relight_erases`: two displays that agree on what a program can read back look the same ever after,
  once each has been switched off and on.
-/

namespace Handheld.Ppu

variable {p q : Ppu}

/-- **The latches of a line**: set when its transfer begins, used until it ends. -/
structure Latches where
  transferDots : Nat
  onLine : Bool
  sprites : List Sprite
  spriteHeight : Nat

def latches (p : Ppu) : Latches where
  transferDots := p.transferDots
  onLine := p.window.onLine
  sprites := p.sprites
  spriteHeight := p.spriteHeight

def withLatches (p : Ppu) (l : Latches) : Ppu :=
  { p with
    transferDots := l.transferDots
    window.onLine := l.onLine
    sprites := l.sprites
    spriteHeight := l.spriteHeight }

/-- **Displays with other latches**: `q` is `p`, or no transfer is under way and it is `p` up to its
latches. -/
def Alike (p q : Ppu) : Prop := q = p ∨ p.mode ≠ .transfer ∧ ∃ l, q = p.withLatches l

theorem Alike.refl (p : Ppu) : Alike p p := .inl rfl

theorem Alike.of_latches (h : p.mode ≠ .transfer) (l : Latches) : Alike p (p.withLatches l) :=
  .inr ⟨h, l, rfl⟩

/-- What commutes with other latches and starts no transfer keeps displays alike. -/
theorem Alike.map (h : Alike p q) {f : Ppu → Ppu}
    (hf : ∀ (p : Ppu) l, f (p.withLatches l) = (f p).withLatches l)
    (hm : ∀ p : Ppu, p.mode ≠ .transfer → (f p).mode ≠ .transfer) : Alike (f p) (f q) := by
  obtain rfl | ⟨hp, l, rfl⟩ := h
  · exact .refl _
  · rw [hf]
    exact .of_latches (hm p hp) l

/-- What no latch decides is the same for displays that are alike. -/
theorem Alike.same {α : Type} (h : Alike p q) {f : Ppu → α}
    (hf : ∀ (p : Ppu) l, f (p.withLatches l) = f p) : f q = f p := by
  obtain rfl | ⟨-, l, rfl⟩ := h
  · rfl
  · exact hf p l

theorem compareLine_latches (p : Ppu) (l : Latches) :
    (p.withLatches l).compareLine = p.compareLine.withLatches l := by
  rw [compareLine_eq, compareLine_eq]
  rfl

theorem startFrame_latches (p : Ppu) (l : Latches) :
    (p.withLatches l).startFrame.value = p.startFrame.value.withLatches l := by
  simp only [startFrame, compareLine_eq]
  rfl

/-- Going to the next line neither uses nor sets the latches. -/
theorem nextLine_latches (p : Ppu) (l : Latches) :
    (p.withLatches l).nextLine.value =
      (p.nextLine.value.1.withLatches l, p.nextLine.value.2) := by
  have hrow : (p.withLatches l).nextRow = p.nextRow.withLatches l := rfl
  have hly : (p.nextRow.withLatches l).ly = p.nextRow.ly := rfl
  have hvblank : (p.nextRow.withLatches l).beginVBlank.value =
      p.nextRow.beginVBlank.value.withLatches l := rfl
  have hscan : (p.nextRow.withLatches l).beginScan.value =
      p.nextRow.beginScan.value.withLatches l := rfl
  rw [nextLine_value, nextLine_value, hrow, hly, hvblank, hscan, startFrame_latches]
  simp only [compareLine_latches]
  split
  · rfl
  · split
    · rfl
    · split <;> rfl

/-- The next line does not begin with a transfer. -/
theorem nextLine_mode (h : p.mode ≠ .transfer) : p.nextLine.value.1.mode ≠ .transfer := by
  rw [nextLine_value]
  simp only [startFrame, compareLine_eq]
  split
  · exact (by decide : Mode.vblank ≠ .transfer)
  · split
    · exact (by decide : Mode.oamScan ≠ .transfer)
    · split
      · exact (by decide : Mode.oamScan ≠ .transfer)
      · exact h

/-- A transfer sets its latches before it uses them. -/
theorem beginTransfer_latches (p : Ppu) (l : Latches) :
    (p.withLatches l).beginTransfer = p.beginTransfer :=
  rfl

/-- Without a transfer under way the phase changes in the same way, whatever the latches hold. -/
theorem advancePhase_alike (h : Alike p q) :
    Alike p.advancePhase.value.1 q.advancePhase.value.1 ∧
      q.advancePhase.value.2 = p.advancePhase.value.2 := by
  obtain rfl | ⟨hp, l, rfl⟩ := h
  · exact ⟨.refl _, rfl⟩
  · have hmode : (p.withLatches l).mode = p.mode := rfl
    have hdot : (p.withLatches l).dot = p.dot := rfl
    unfold advancePhase
    rw [hmode, hdot, beginTransfer_latches]
    cases hm : p.mode with
    | transfer => exact absurd hm hp
    | hblank | vblank => exact ⟨.of_latches hp l, rfl⟩
    | oamScan =>
      by_cases hd : p.dot = scanDots
      · -- the transfer that begins here has latches of its own
        rw [if_pos hd, if_pos hd]
        exact ⟨.refl _, rfl⟩
      · rw [if_neg hd, if_neg hd]
        exact ⟨.of_latches hp l, rfl⟩

theorem updateStat_alike (h : Alike p q) :
    Alike p.updateStat.1 q.updateStat.1 ∧ q.updateStat.2 = p.updateStat.2 :=
  ⟨h.map (f := fun p => p.updateStat.1) (fun _ _ => rfl) fun _ hp => hp,
    h.same (f := fun p => p.updateStat.2) fun _ _ => rfl⟩

/-- **One dot keeps displays alike**, and signals the same of both. -/
theorem tick_alike (h : Alike p q) :
    Alike p.tick.value.1 q.tick.value.1 ∧ q.tick.value.2 = p.tick.value.2 := by
  have hnext : Alike p.nextDot q.nextDot := h.map (fun _ _ => rfl) fun _ hp => hp
  obtain ⟨ha, hb⟩ := advancePhase_alike hnext
  have hdot : q.nextDot.advancePhase.value.1.dot = p.nextDot.advancePhase.value.1.dot :=
    ha.same (f := Ppu.dot) fun _ _ => rfl
  rw [tick_eq, tick_eq, Logged.value_bind, Logged.value_bind, hdot, hb]
  split
  · have hn : Alike p.nextDot.advancePhase.value.1.nextLine.value.1
        q.nextDot.advancePhase.value.1.nextLine.value.1 := by
      refine ha.map (f := fun p => p.nextLine.value.1) ?_ fun _ hp => nextLine_mode hp
      intro p l
      rw [nextLine_latches]
    have hv : q.nextDot.advancePhase.value.1.nextLine.value.2 =
        p.nextDot.advancePhase.value.1.nextLine.value.2 := by
      refine ha.same (f := fun p => p.nextLine.value.2) ?_
      intro p l
      rw [nextLine_latches]
    obtain ⟨hs, hasked⟩ := updateStat_alike hn
    refine ⟨hs, ?_⟩
    simp only [finishDot, Logged.value_bind, Logged.value_pure, hv, hasked]
  · obtain ⟨hs, hasked⟩ := updateStat_alike ha
    refine ⟨hs, ?_⟩
    simp only [finishDot, Logged.value_bind, Logged.value_pure, hasked]

/-- **Any number of dots keeps displays alike**, with the same signals. -/
theorem step_alike (h : Alike p q) (n : Nat) :
    Alike (p.step n).value.1 (q.step n).value.1 ∧ (q.step n).value.2 = (p.step n).value.2 :=
  step_both (fun _ _ => tick_alike) h (h.same fun _ _ => rfl) n

theorem writeLcdc_alike (h : Alike p q) (v : UInt8) :
    Alike (p.writeLcdc v).value (q.writeLcdc v).value := by
  have hf (p : Ppu) (l : Latches) :
      ((p.withLatches l).writeLcdc v).value = (p.writeLcdc v).value.withLatches l := by
    have hon : (p.withLatches l).lcdOn = p.lcdOn := rfl
    have hv : ({ p.withLatches l with controls.lcdc := v } : Ppu) =
        ({ p with controls.lcdc := v } : Ppu).withLatches l := rfl
    have hon' : (({ p with controls.lcdc := v } : Ppu).withLatches l).lcdOn =
        ({ p with controls.lcdc := v } : Ppu).lcdOn := rfl
    unfold writeLcdc
    simp only [hon, hv, hon']
    cases p.lcdOn <;> cases ({ p with controls.lcdc := v } : Ppu).lcdOn
    case false.true => exact startFrame_latches _ l
    all_goals rfl
  refine h.map (f := fun p => (p.writeLcdc v).value) hf ?_
  intro p hp
  unfold writeLcdc
  simp only
  cases p.lcdOn <;> cases ({ p with controls.lcdc := v } : Ppu).lcdOn
  case false.true =>
    simp only [startFrame, compareLine_eq]
    exact (by decide : Mode.oamScan ≠ .transfer)
  case true.false => exact (by decide : Mode.hblank ≠ .transfer)
  all_goals exact hp

theorem writeControl_alike (h : Alike p q) (addr : UInt16) (v : UInt8) :
    Alike (p.writeControl addr v) (q.writeControl addr v) := by
  refine h.map (f := fun p => p.writeControl addr v) ?_ ?_
  · intro p l
    have hmodel : (p.withLatches l).model = p.model := rfl
    unfold writeControl
    split
    case h_4 => exact compareLine_latches { p with controls.lyc := v } l
    case h_10 =>
      rw [hmodel]
      unfold writeColorPort
      split
      · split <;> rfl
      · rfl
    all_goals rfl
  · intro p hp
    unfold writeControl
    split
    case h_4 =>
      rw [compareLine_eq]
      exact hp
    case h_10 =>
      unfold writeColorPort
      split
      · split <;> exact hp
      · exact hp
    all_goals exact hp

theorem writePort_alike (h : Alike p q) (addr : UInt16) (v : UInt8) :
    Alike (p.writePort addr v).value (q.writePort addr v).value := by
  unfold writePort
  split
  · exact writeLcdc_alike h v
  · exact writeControl_alike h addr v

/-- **Every operation keeps displays alike.** -/
theorem perform_alike (h : Alike p q) (op : Operation) : Alike (p.perform op) (q.perform op) := by
  cases op with
  | run dots => exact (step_alike h dots).1
  | port addr v => exact writePort_alike h addr v
  | vram addr v =>
    refine h.map (f := fun p => p.writeVram addr v) ?_ ?_
    · -- memory is free by the mode, which is not latched
      intro p l
      have hfree : (p.withLatches l).vramFree = p.vramFree := rfl
      unfold writeVram
      rw [hfree]
      split <;> rfl
    · intro p hp
      obtain ⟨vram, hq⟩ := writeVram_eq p addr v
      rw [hq]
      exact hp
  | oam addr v =>
    refine h.map (f := fun p => p.writeOam addr v) ?_ ?_
    · intro p l
      have hfree : (p.withLatches l).oamFree = p.oamFree := rfl
      unfold writeOam
      rw [hfree]
      split
      · split <;> rfl
      · rfl
    · intro p hp
      obtain ⟨oam, hq⟩ := writeOam_eq p addr v
      rw [hq]
      exact hp
  | vramBank v => exact h.map (f := fun p => p.selectVramBank v) (fun _ _ => rfl) fun _ hp => hp
  | moveVram upper offset v =>
    exact h.map (f := fun p => p.setVramByte upper offset v) (fun _ _ => rfl) fun _ hp => hp
  | moveOam i v => exact h.map (f := fun p => p.setOamByte i v) (fun _ _ => rfl) fun _ hp => hp
  | monochrome => exact h.map (f := Ppu.enterMonochrome) (fun _ _ => rfl) fun _ hp => hp
  | palettes l => exact h.map (f := fun p => p.usePalettes l) (fun _ _ => rfl) fun _ hp => hp

/-! ## The switch -/

/-- **What a program can read back**: the hardware, the memories, the registers that hold what was
written to them, and the count of frames. -/
structure SameToProgram (p q : Ppu) : Prop where
  model : q.model = p.model
  colorOutput : q.colorOutput = p.colorOutput
  vram : q.vram = p.vram
  vramUpper : q.vramUpper = p.vramUpper
  oam : q.oam = p.oam
  controls : q.controls = p.controls
  background : q.background = p.background
  objects : q.objects = p.objects
  frames : q.frames = p.frames

theorem tick_edge (p : Ppu) : p.tick.value.1.extraScanEdge = false := by
  rw [tick_eq, Logged.value_bind]
  split <;> rfl

theorem writeLcdc_edge (he : p.extraScanEdge = false) (v : UInt8) :
    (p.writeLcdc v).value.extraScanEdge = false := by
  unfold writeLcdc
  simp only
  cases p.lcdOn <;> cases ({ p with controls.lcdc := v } : Ppu).lcdOn
  case false.true =>
    simp only [startFrame, compareLine_eq]
    exact he
  case true.false => rfl
  all_goals exact he

theorem writeControl_edge (he : p.extraScanEdge = false) (addr : UInt16) (v : UInt8) :
    (p.writeControl addr v).extraScanEdge = false := by
  obtain ⟨controls, coincidence, background, objects, hq, -⟩ := writeControl_eq p addr v
  rw [hq]
  exact he

theorem perform_edge (he : p.extraScanEdge = false) (op : Operation) :
    (p.perform op).extraScanEdge = false := by
  cases op with
  | run dots =>
    show (p.step dots).value.1.extraScanEdge = false
    unfold step
    split
    · exact run_keeps (P := fun p => p.extraScanEdge = false) (fun p _ => tick_edge p) dots
        (pure (p, {})) he
    · exact he
  | port addr v =>
    show (p.writePort addr v).value.extraScanEdge = false
    unfold writePort
    split
    · exact writeLcdc_edge he v
    · exact writeControl_edge he addr v
  | vram addr v =>
    obtain ⟨vram, hq⟩ := writeVram_eq p addr v
    rw [perform, hq]
    exact he
  | oam addr v =>
    obtain ⟨oam, hq⟩ := writeOam_eq p addr v
    rw [perform, hq]
    exact he
  | vramBank | moveVram | moveOam | monochrome | palettes => exact he

/-- The extra edge of monochrome hardware does not outlive its dot. -/
theorem reachable_edge {model : Model} (h : Reachable model p) : p.extraScanEdge = false := by
  induction h with
  | powerOn | handOver => rfl
  | perform op _ ih => exact perform_edge ih op

/-- The display after writing `off` and then `on` to LCDC. -/
def relight (p : Ppu) (off on : UInt8) : Ppu :=
  [.port 0xFF40 off, .port 0xFF40 on].foldl perform p

/-- A display that is switched off rests, and one that was off rested already. -/
theorem writeLcdc_off (h : PhaseOK p) (he : p.extraScanEdge = false) {v : UInt8}
    (hv : v &&& 0x80 = 0) :
    (p.writeLcdc v).value =
      { p with
        controls.lcdc := v
        mode := .hblank
        dot := 0
        ly := 0
        window.line := 0
        statLine := false
        extraScanEdge := false
        frame := blankFrame p.model } := by
  have hq : ({ p with controls.lcdc := v } : Ppu).lcdOn = false := by
    show (v &&& 0x80 != 0) = false
    simpa using hv
  unfold writeLcdc
  simp only [hq]
  cases hon : p.lcdOn with
  | true => rfl
  | false =>
    have d := h.dark hon
    have hwin : p.window = { p.window with line := 0 } := by rw [← d.window]
    simp only [Logged.value_pure, Ppu.mk.injEq, true_and]
    exact ⟨d.ly, d.dot, d.mode, hwin, d.statLine, he, d.frame⟩

/-- A dark display that is switched on begins a frame. -/
theorem writeLcdc_on (hdark : p.lcdOn = false) {v : UInt8} (hv : v &&& 0x80 ≠ 0) :
    (p.writeLcdc v).value =
      { p with
        controls.lcdc := v
        mode := .oamScan
        dot := 0
        ly := 0
        coincidence := 0 == p.controls.lyc
        window.line := 0
        window.triggered := 0 == p.controls.wy } := by
  have hlit (q : Ppu) : ({ q with controls.lcdc := v } : Ppu).lcdOn = true := by
    show (v &&& 0x80 != 0) = true
    simpa using hv
  have hstart : (p.writeLcdc v).value = ({ p with controls.lcdc := v } : Ppu).startFrame.value := by
    unfold writeLcdc
    simp only [hdark, hlit]
    rfl
  rw [hstart, startFrame, compareLine_eq]
  have hon := hlit { p with ly := 0, dot := 0, window.line := 0, window.triggered := false }
  simp only [beginScan, setMode, Ppu.mk.injEq, Bool.false_or, true_and, and_true]
  exact if_pos hon

/-- **The state after the switch**, whatever the display did before. -/
theorem relight_eq (h : PhaseOK p) (he : p.extraScanEdge = false) {off on : UInt8}
    (hoff : off &&& 0x80 = 0) (hon : on &&& 0x80 ≠ 0) :
    p.relight off on =
      { p with
        controls.lcdc := on
        mode := .oamScan
        dot := 0
        ly := 0
        coincidence := 0 == p.controls.lyc
        window.line := 0
        window.triggered := 0 == p.controls.wy
        statLine := false
        extraScanEdge := false
        frame := blankFrame p.model } := by
  have hdark : (p.writeLcdc off).value.lcdOn = false := by
    rw [writeLcdc_off h he hoff]
    show (off &&& 0x80 != 0) = false
    simpa using hoff
  show ((p.writeLcdc off).value.writeLcdc on).value = _
  rw [writeLcdc_on hdark hon, writeLcdc_off h he hoff]

/-- The switch leaves two displays that agree on what a program can read back alike. -/
theorem SameToProgram.relight (hs : SameToProgram p q) (hp : PhaseOK p) (hq : PhaseOK q)
    (hpe : p.extraScanEdge = false) (hqe : q.extraScanEdge = false) {off on : UInt8}
    (hoff : off &&& 0x80 = 0) (hon : on &&& 0x80 ≠ 0) :
    Alike (p.relight off on) (q.relight off on) := by
  obtain ⟨hmodel, hcolor, hvram, hupper, hoam, hcontrols, hback, hobj, hframes⟩ := hs
  have hl : q.relight off on = (p.relight off on).withLatches q.latches := by
    rw [relight_eq hp hpe hoff hon, relight_eq hq hqe hoff hon]
    simp only [withLatches, latches, hmodel, hcolor, hvram, hupper, hoam, hcontrols, hback, hobj,
      hframes]
  have hm : (p.relight off on).mode ≠ .transfer := by
    rw [relight_eq hp hpe hoff hon]
    exact (by decide : Mode.oamScan ≠ .transfer)
  rw [hl]
  exact .of_latches hm _

/-- **Displays that look the same**: the picture, what an access reads back, and what any number of
further dots signals. -/
structure LooksLike (p q : Ppu) : Prop where
  frame : q.frame = p.frame
  frames : q.frames = p.frames
  port : ∀ addr, q.readPort addr = p.readPort addr
  vram : ∀ addr, q.readVram addr = p.readVram addr
  vramBank : q.vramBankStatus = p.vramBankStatus
  oam : ∀ addr, q.readOam addr = p.readOam addr
  signals : ∀ n, (q.step n).value.2 = (p.step n).value.2

/-- No latch can be seen while no transfer is under way. -/
theorem Alike.looks (h : Alike p q) : LooksLike p q where
  frame := h.same fun _ _ => rfl
  frames := h.same fun _ _ => rfl
  port addr := h.same (f := fun p => p.readPort addr) fun _ _ => rfl
  vram addr := h.same (f := fun p => p.readVram addr) fun _ _ => rfl
  vramBank := h.same fun _ _ => rfl
  oam addr := h.same (f := fun p => p.readOam addr) fun _ _ => rfl
  signals n := (step_alike h n).2

theorem foldl_perform_alike (ops : List Operation) (h : Alike p q) :
    Alike (ops.foldl perform p) (ops.foldl perform q) := by
  induction ops generalizing p q with
  | nil => exact h
  | cons op rest ih => exact ih (perform_alike h op)

/-- **Switching the LCD off and on erases the hidden state.** Two reachable displays that agree on
what a program can read back, once switched off and on, look the same after any further time and
accesses. -/
theorem relight_erases {model model' : Model} (hp : Reachable model p) (hq : Reachable model' q)
    (hs : SameToProgram p q) {off on : UInt8} (hoff : off &&& 0x80 = 0) (hon : on &&& 0x80 ≠ 0)
    (ops : List Operation) :
    LooksLike (ops.foldl perform (p.relight off on)) (ops.foldl perform (q.relight off on)) := by
  have hrelight := hs.relight (reachable_ok hp).1 (reachable_ok hq).1 (reachable_edge hp)
    (reachable_edge hq) hoff hon
  exact (foldl_perform_alike ops hrelight).looks

/-- A display in the middle of its first transfer, and one that has just left the boot image. -/
theorem relight_erases_transfer :
    SameToProgram ((Ppu.powerOn .mono).handOver none).value
        (((Ppu.powerOn .mono).handOver none).value.perform (.run 90)) ∧
      LooksLike ((((Ppu.powerOn .mono).handOver none).value).relight 0x11 0x91)
        ((((Ppu.powerOn .mono).handOver none).value.perform (.run 90)).relight 0x11 0x91) := by
  have hp : Reachable .mono ((Ppu.powerOn .mono).handOver none).value := .handOver none
  have hs : SameToProgram ((Ppu.powerOn .mono).handOver none).value
      (((Ppu.powerOn .mono).handOver none).value.perform (.run 90)) := by
    constructor <;> with_unfolding_all rfl
  exact ⟨hs, relight_erases hp (.perform _ hp) hs (by decide) (by decide) []⟩

end Handheld.Ppu
