import Handheld.Proofs.Checked.Display
import Handheld.Proofs.Ppu.Erasure
import Handheld.Proofs.Ppu.Odometer

/-!
# The sprites of a line

Which sprites a line shows is decided on the dot that begins its transfer, from what object memory
and the registers hold then. They are drawn when the transfer ends, and until then anything may be
written.

* `Sprite.Selected`: the first ten that cover the line, in the order in which they are drawn.
* `tick_enters`: the dot that begins a transfer; `latch_selected`: what it latches.
* `During`: the displays of one transfer; `During.underway`: they keep what was latched.
* `Drawn`: a display with the lines drawn since its frame began; `Drawn.counted`: the window has
  shown no more.
* `sprites_selected`: selection, transfer and the window's progress.
-/

namespace Handheld.Ppu

variable {p q r : Ppu} {n : Nat}

namespace Sprite

variable (oam : Vector UInt8 oamSize) (line height : Nat)

/-- The line of a sprite's upper edge: the first of its four bytes counts from 16 lines above the
screen. -/
def upperEdge (i : Fin 40) : Int := (oam[4 * i.val]?.getD 0).toNat - 16

/-- The places of object memory whose sprites cover a line, in order. -/
def covering : List (Fin 40) :=
  (List.finRange 40).filter fun i => upperEdge oam i ≤ line ∧ (line : Int) < upperEdge oam i + height

/-- Further left, or in the same column and earlier in object memory. -/
def Precedes (s t : Sprite) : Prop := s.x < t.x ∨ s.x = t.x ∧ s.index < t.index

/-- **The sprites of a line**: of those that cover it the first ten in object memory, each once, in
drawing order. -/
structure Selected (byIndex : Prop) (l : List Sprite) : Prop where
  chosen : l.Perm (((covering oam line height).take 10).map (ofMemory oam))
  inMemory : byIndex → l.Pairwise fun s t => s.index < t.index
  leftToRight : ¬byIndex → l.Pairwise Precedes

variable {oam line height}

/-- The scan takes the first sprites that cover the line. -/
theorem pick_eq_take (places : Nat) (l : List Sprite) :
    pick line height places l = (l.filter fun s => s.covers line height).take places := by
  fun_induction pick line height places l with
  | case1 => simp
  | case2 => simp
  | case3 places s rest hs ih => simp [hs, ih]
  | case4 places s rest hs ih => simp [hs, ih]

theorem ofMemory_upperEdge (oam : Vector UInt8 oamSize) (i : Fin 40) :
    (ofMemory oam i).y = upperEdge oam i := by
  have hlt : 4 * i.val < oamSize := by
    simp only [oamSize]
    omega
  rw [ofMemory_y, upperEdge, Vector.getElem?_eq_getElem hlt]
  rfl

theorem pick_all (oam : Vector UInt8 oamSize) (line height places : Nat) :
    pick line height places (all oam) =
      ((covering oam line height).take places).map (ofMemory oam) := by
  have hcovers : ((fun s : Sprite => s.covers line height) ∘ ofMemory oam) = fun i =>
      decide (upperEdge oam i ≤ line ∧ (line : Int) < upperEdge oam i + height) := by
    funext i
    rw [Function.comp_apply, covers, ofMemory_upperEdge, Bool.decide_and]
  rw [pick_eq_take, all, List.filter_map, hcovers, covering, List.map_take]

/-- The scan leaves the sprites in the order of object memory. -/
theorem pick_ordered (oam : Vector UInt8 oamSize) (line height places : Nat) :
    (pick line height places (all oam)).Pairwise fun s t => s.index < t.index := by
  have hall : (all oam).Pairwise fun s t => s.index < t.index := by
    rw [all, List.pairwise_map]
    exact List.pairwise_lt_finRange 40
  rw [pick_eq_take]
  exact hall.sublist ((List.take_sublist _ _).trans List.filter_sublist)

/-- Sorting by column and place puts every sprite before those that it precedes. -/
theorem mergeSort_precedes {l : List Sprite} (h : l.Pairwise fun s t => s.index < t.index) :
    (l.mergeSort leftmost).Pairwise Precedes := by
  have hsorted : (l.mergeSort leftmost).Pairwise fun s t => leftmost s t = true := by
    apply List.pairwise_mergeSort
    · intro s t u hst htu
      simp only [leftmost, Bool.or_eq_true, Bool.and_eq_true, decide_eq_true_eq, beq_iff_eq] at *
      omega
    · intro s t
      simp only [leftmost, Bool.or_eq_true, Bool.and_eq_true, decide_eq_true_eq, beq_iff_eq]
      omega
  -- no two sprites have the same place, so the order is strict
  have hdistinct : (l.mergeSort leftmost).Pairwise fun s t => s.index ≠ t.index := by
    refine (h.imp fun hst => Nat.ne_of_lt hst).perm (List.mergeSort_perm l leftmost).symm ?_
    intro s t hst
    exact hst.symm
  refine (hsorted.and hdistinct).imp ?_
  rintro s t ⟨hle, hne⟩
  simp only [leftmost, Bool.or_eq_true, Bool.and_eq_true, decide_eq_true_eq, beq_iff_eq] at hle
  unfold Precedes
  omega

/-- **What is latched is the selection.** -/
theorem latch_selected (oam : Vector UInt8 oamSize) (line height : Nat) (byIndex : Bool) :
    Selected oam line height (byIndex = true) (latch oam line height byIndex) := by
  have hpick := pick_all oam line height perLine
  have horder := pick_ordered oam line height perLine
  unfold latch arrange
  cases byIndex with
  | true =>
    refine ⟨?_, fun _ => horder, fun h => absurd rfl h⟩
    rw [if_pos rfl, hpick]
    exact List.Perm.refl _
  | false =>
    refine ⟨?_, fun h => (by cases h), fun _ => mergeSort_precedes horder⟩
    rw [if_neg (by decide)]
    exact (List.mergeSort_perm _ _).trans (hpick ▸ List.Perm.refl _)

end Sprite

/-! ## During a transfer -/

/-- The height of sprites is bit 2 of LCDC. -/
theorem spriteHeight_eq (c : Controls) : c.spriteHeight = if c.lcdc &&& 4 = 0 then 8 else 16 := by
  unfold Controls.spriteHeight Controls.tallSprites
  by_cases h : c.lcdc &&& 4 = 0 <;> simp [h]

/-- **The dot that begins a transfer**, of whatever display, latches its sprites. -/
theorem tick_enters (hm : p.mode ≠ .transfer) (ht : p.tick.value.1.mode = .transfer) :
    p.dot + 1 = scanDots ∧ p.tick.value.1 = p.nextDot.beginTransfer.value.updateStat.1 := by
  by_cases hdue : p.mode = .oamScan ∧ p.dot + 1 = scanDots
  · obtain ⟨hscan, hd⟩ := hdue
    have hinner : p.dot + 1 ≠ dotsPerLine := by
      rw [hd]
      decide
    have ha : p.nextDot.advancePhase.value = (p.nextDot.beginTransfer.value, false) := by
      unfold advancePhase
      rw [show p.nextDot.mode = .oamScan from hscan]
      exact congrArg Logged.value (if_pos hd)
    rw [tick_inner hinner, ha]
    exact ⟨hd, rfl⟩
  · -- no other phase leads into a transfer, not even with the line over
    exfalso
    have ha : p.nextDot.advancePhase.value = (p.nextDot, false) := by
      have hn : p.nextDot.mode = p.mode := rfl
      unfold advancePhase
      cases hmode : p.mode with
      | oamScan =>
        rw [hn, hmode]
        exact congrArg Logged.value (if_neg fun hd => hdue ⟨hmode, hd⟩)
      | transfer => exact absurd hmode hm
      | hblank | vblank => rw [hn, hmode]; rfl
    have hnext : p.nextDot.nextLine.value.1.mode ≠ .transfer := nextLine_mode hm
    rw [tick_eq, Logged.value_bind, ha] at ht
    split at ht
    · exact hnext ht
    · exact hm ht

/-- A dot of a transfer ends it at its last dot, and otherwise passes. -/
theorem tick_transfer (hm : p.mode = .transfer) (hd : p.dot + 1 < dotsPerLine) :
    p.tick.value.1 =
      if p.dot + 1 = scanDots + p.transferDots then p.nextDot.beginHBlank.value.updateStat.1
      else p.nextDot.updateStat.1 := by
  have ha : p.nextDot.advancePhase.value =
      if p.dot + 1 = scanDots + p.transferDots then (p.nextDot.beginHBlank.value, true)
      else (p.nextDot, false) := by
    unfold advancePhase
    rw [show p.nextDot.mode = .transfer from hm]
    exact apply_ite Logged.value _ _ _
  rw [tick_inner (Nat.ne_of_lt hd), ha]
  split <;> rfl

/-- **The displays of one transfer**: dots pass from `q` on and accesses of any kind are made, and
the transfer goes on. -/
inductive During (q : Ppu) : Ppu → Prop where
  | start : During q q
  | dot {r : Ppu} (h : During q r) (hm : (r.step 1).value.1.mode = .transfer) :
      During q (r.step 1).value.1
  | access {r : Ppu} (h : During q r) (op : Operation) (hop : ∀ n, op ≠ .run n)
      (hm : (r.perform op).mode = .transfer) : During q (r.perform op)

/-- What the drawing of a line takes from its latches: the line, the sprites and their height. -/
structure SameSprites (q r : Ppu) : Prop where
  ly : r.ly = q.ly
  sprites : r.sprites = q.sprites
  height : r.spriteHeight = q.spriteHeight

/-- A display that an access leaves where it is. -/
structure Still (p q : Ppu) : Prop where
  lit : q.lcdOn = p.lcdOn
  mode : q.mode = p.mode
  dot : q.dot = p.dot
  transferDots : q.transferDots = p.transferDots
  window : q.window = p.window
  same : SameSprites p q

/-- A display whose LCD is switched, off or on, starts anew. -/
structure Restarted (q : Ppu) : Prop where
  mode : q.mode ≠ .transfer
  position : q.position = 0
  window : q.window.line = 0

theorem startFrame_restarted (q : Ppu) : Restarted q.startFrame.value where
  mode := by simp [startFrame, beginScan, setMode, compareLine_eq]
  position := (startFrame_place q).1
  window := by simp [startFrame, beginScan, setMode, compareLine_eq]

theorem writeLcdc_still (p : Ppu) (v : UInt8) :
    Still p (p.writeLcdc v).value ∨
      (p.writeLcdc v).value.lcdOn ≠ p.lcdOn ∧ Restarted (p.writeLcdc v).value := by
  obtain ⟨q, hq⟩ : ∃ q : Ppu, q = { p with controls.lcdc := v } := ⟨_, rfl⟩
  have hsame : q.lcdOn = p.lcdOn → Still p q := by
    intro h
    rw [hq] at h ⊢
    exact ⟨h, rfl, rfl, rfl, rfl, rfl, rfl, rfl⟩
  unfold writeLcdc
  rw [← hq]
  cases hp : p.lcdOn <;> cases hlit : q.lcdOn <;> simp only [hlit]
  · exact .inl (hsame (hlit.trans hp.symm))
  · refine .inr ⟨?_, startFrame_restarted q⟩
    exact (Bool.not_eq_false _).mpr ((startFrame_same q).lcdOn.trans hlit)
  · refine .inr ⟨?_, ?_, ?_, rfl⟩
    · exact (Bool.not_eq_true _).mpr hlit
    · show Mode.hblank ≠ .transfer
      decide
    · simp [position_eq, switchOff]
  · exact .inl (hsame (hlit.trans hp.symm))

/-- **An access leaves the display where it is**, or switches the LCD. -/
theorem perform_still (p : Ppu) {op : Operation} (hop : ∀ n, op ≠ .run n) :
    Still p (p.perform op) ∨ (p.perform op).lcdOn ≠ p.lcdOn ∧ Restarted (p.perform op) := by
  cases op with
  | run n => exact absurd rfl (hop n)
  | port addr v =>
    show Still p (p.writePort addr v).value ∨
      (p.writePort addr v).value.lcdOn ≠ p.lcdOn ∧ Restarted (p.writePort addr v).value
    unfold writePort
    split
    · exact writeLcdc_still p v
    · obtain ⟨controls, coincidence, background, objects, hq, hlcdc⟩ := writeControl_eq p addr v
      have hlit : controls.lcdOn = p.lcdOn := by
        unfold lcdOn Controls.lcdOn
        rw [hlcdc]
      rw [hq]
      exact .inl ⟨hlit, rfl, rfl, rfl, rfl, rfl, rfl, rfl⟩
  | vram addr v =>
    obtain ⟨vram, hq⟩ := writeVram_eq p addr v
    rw [perform, hq]
    exact .inl ⟨rfl, rfl, rfl, rfl, rfl, rfl, rfl, rfl⟩
  | oam addr v =>
    obtain ⟨oam, hq⟩ := writeOam_eq p addr v
    rw [perform, hq]
    exact .inl ⟨rfl, rfl, rfl, rfl, rfl, rfl, rfl, rfl⟩
  | vramBank | moveVram | moveOam | monochrome | palettes =>
    exact .inl ⟨rfl, rfl, rfl, rfl, rfl, rfl, rfl, rfl⟩

/-- **A transfer under way**, on a display whose sprites are those of `q`. Its last dot is on its
line. -/
structure Underway (q r : Ppu) : Prop where
  lit : r.lcdOn = true
  mode : r.mode = .transfer
  dot : r.dot < scanDots + r.transferDots
  short : r.transferDots ≤ longestTransfer
  same : SameSprites q r

theorem Underway.inner (h : Underway q r) : r.dot + 1 < dotsPerLine := by
  have hd := h.dot
  have hshort := h.short
  unfold longestTransfer at hshort
  unfold scanDots at hd
  unfold dotsPerLine
  omega

/-- A dot of the transfer keeps the sprites, and so does the one that ends it. -/
theorem Underway.dot_same (h : Underway q r) : SameSprites q (r.step 1).value.1 := by
  obtain ⟨hly, hsprites, hheight⟩ := h.same
  rw [step_one h.lit, tick_transfer h.mode h.inner]
  split
  · obtain ⟨frame, line, hdraw⟩ := drawLine_eq r.nextDot
    rw [beginHBlank, hdraw]
    exact ⟨hly, hsprites, hheight⟩
  · exact ⟨hly, hsprites, hheight⟩

theorem Underway.step (h : Underway q r) (hm : (r.step 1).value.1.mode = .transfer) :
    Underway q (r.step 1).value.1 := by
  have hsame := h.dot_same
  have hd := h.dot
  rw [step_one h.lit, tick_transfer h.mode h.inner] at hm hsame ⊢
  split at hm
  · cases hm
  · rename_i hlast
    rw [if_neg hlast] at hsame ⊢
    refine ⟨h.lit, h.mode, ?_, h.short, hsame⟩
    show r.dot + 1 < scanDots + r.transferDots
    omega

theorem Underway.access (h : Underway q r) {op : Operation} (hop : ∀ n, op ≠ .run n)
    (hm : (r.perform op).mode = .transfer) : Underway q (r.perform op) := by
  rcases perform_still r hop with hs | ⟨-, hs⟩
  · obtain ⟨hly, hsprites, hheight⟩ := h.same
    refine ⟨hs.lit.trans h.lit, hm, ?_, ?_, ?_⟩
    · rw [hs.dot, hs.transferDots]
      exact h.dot
    · rw [hs.transferDots]
      exact h.short
    · exact ⟨hs.same.ly.trans hly, hs.same.sprites.trans hsprites, hs.same.height.trans hheight⟩
  · exact absurd hm hs.mode

/-- **Every display of a transfer has the sprites that it began with.** -/
theorem During.underway (hq : Underway q q) (h : During q r) : Underway q r := by
  induction h with
  | start => exact hq
  | dot _ hm ih => exact ih.step hm
  | access _ op hop hm ih => exact ih.access hop hm

/-- The dot that begins a transfer leaves it under way, with the sprites selected for its line. -/
theorem enters_underway (hm : p.mode ≠ .transfer) (ht : (p.step 1).value.1.mode = .transfer) :
    Underway (p.step 1).value.1 (p.step 1).value.1 ∧ (p.step 1).value.1.ly = p.ly ∧
      (p.step 1).value.1.spriteHeight = p.controls.spriteHeight ∧
      (p.step 1).value.1.sprites =
        Sprite.latch p.oam p.ly.toNat p.controls.spriteHeight p.drawsByIndex := by
  have hon : p.lcdOn = true := by
    -- a dark display stands still
    refine (Bool.not_eq_false _).mp fun hoff => hm ?_
    unfold step at ht
    rw [hoff] at ht
    exact ht
  rw [step_one hon] at ht ⊢
  obtain ⟨hd, hq⟩ := tick_enters hm ht
  have hlen : p.nextDot.latchSprites.sprites.length ≤ Sprite.perLine := latch_length_le ..
  have hbounds := transferLength_bounds p.controls.scx p.nextDot.latchSprites.windowStarts hlen
  have hpos : 0 < transferBase := by decide
  rw [hq]
  refine ⟨⟨hon, rfl, ?_, hbounds.2, rfl, rfl, rfl⟩, rfl, rfl, rfl⟩
  show p.dot + 1 < scanDots + p.nextDot.beginTransfer.value.transferDots
  have hstart : transferBase ≤ p.nextDot.beginTransfer.value.transferDots := hbounds.1
  omega

/-! ## The window's progress -/

/-- The lines drawn since the frame began, after one more dot: a horizontal blank draws one, and the
start of a frame forgets them. -/
def drawnAfter (n : Nat) (p : Ppu) : Nat :=
  if (p.step 1).value.1.position = 0 then 0 else n + (p.step 1).value.2.hblank.toNat

/-- **A display with the lines drawn since its frame began**, dot by dot, with whatever accesses in
between. To switch the LCD, off or on, is to begin anew. -/
inductive Drawn (model : Model) : Ppu → Nat → Prop where
  | powerOn : Drawn model (.powerOn model) 0
  | handOver (palettes : Option BootPalettes) :
      Drawn model ((Ppu.powerOn model).handOver palettes).value 0
  | dot {p : Ppu} {n : Nat} (h : Drawn model p n) (hon : p.lcdOn = true) :
      Drawn model (p.step 1).value.1 (drawnAfter n p)
  | access {p : Ppu} {n : Nat} (h : Drawn model p n) (op : Operation) (hop : ∀ n, op ≠ .run n) :
      Drawn model (p.perform op) (if (p.perform op).lcdOn = p.lcdOn then n else 0)

/-- **Every display that occurs has drawn its lines like this.** -/
theorem Reachable.drawn {model : Model} (h : Reachable model p) : ∃ n, Drawn model p n := by
  induction h with
  | powerOn => exact ⟨0, .powerOn⟩
  | handOver palettes => exact ⟨0, .handOver palettes⟩
  | @perform p op h ih =>
    cases op with
    | run k =>
      cases hon : p.lcdOn with
      | true =>
        have hdot (q : Ppu) (hlit : q.lcdOn = true) (hq : ∃ n, Drawn model q n) :
            ∃ n, Drawn model q.tick.value.1 n := by
          obtain ⟨n, hdrawn⟩ := hq
          exact ⟨_, step_one hlit ▸ hdrawn.dot hlit⟩
        exact step_along (P := fun _ q => ∃ n, Drawn model q n) (n := 0)
          (fun _ q _ hlit hq => hdot q hlit hq) (reachable_ok h).1 hon ih k
      | false =>
        have hstill : p.perform (.run k) = p := by
          rw [Ppu.perform, step, hon]
          rfl
        rw [hstill]
        exact ih
    | _ =>
      obtain ⟨n, hdrawn⟩ := ih
      exact ⟨_, hdrawn.access _ fun _ hrun => by cases hrun⟩

/-- The window moves on by at most one line with a line drawn, and starts over with the frame. -/
theorem DotStep.window {v b : Bool} (hs : DotStep p v b q) (h : PhaseOK p) :
    q.window.line.toNat ≤ p.window.line.toNat + b.toNat ∧
      (p.position + 1 = dotsPerFrame → q.window.line = 0) := by
  have hly := h.ly
  have ht := h.transfer.2
  have hwrap (hd : p.dot + 1 = dotsPerLine) (hl : p.ly.toNat + 1 < linesPerFrame) :
      p.position + 1 ≠ dotsPerFrame := by
    rw [position_wrap hd, dotsPerFrame_eq]
    unfold linesPerFrame at hl
    omega
  have hinner (hd : p.dot + 1 < dotsPerLine) : p.position + 1 ≠ dotsPerFrame :=
    Nat.ne_of_lt (position_inner h hd).1
  cases hs with
  | stay hd hm => exact ⟨Nat.le_refl _, fun hp => absurd hp (hinner hd)⟩
  | transfer hl hd =>
    have hdot : p.dot + 1 < dotsPerLine := by
      rw [hd]
      decide
    exact ⟨Nat.le_refl _, fun hp => absurd hp (hinner hdot)⟩
  | hblank hl hd =>
    -- the one dot that may move the window on
    have hdot : p.dot + 1 < dotsPerLine := by
      unfold longestTransfer at ht
      unfold dotsPerLine scanDots at *
      omega
    have hdraw : p.nextDot.beginHBlank.value.window.line =
        if p.showsWindow then p.window.line + 1 else p.window.line :=
      congrArg (fun q : Ppu => q.window.line) (dif_pos hl)
    refine ⟨?_, fun hp => absurd hp (hinner hdot)⟩
    rw [hdraw]
    split
    · rw [UInt8.toNat_add]
      exact Nat.mod_le _ _
    · exact Nat.le_succ _
  | scan hl hd =>
    rw [compareLine_eq]
    have hline : p.ly.toNat + 1 < linesPerFrame := Nat.lt_trans hl (by decide)
    exact ⟨Nat.le_refl _, fun hp => absurd hp (hwrap hd hline)⟩
  | vblank hl hd =>
    rw [compareLine_eq]
    have hline : p.ly.toNat + 1 < linesPerFrame := by
      rw [hl]
      decide
    exact ⟨Nat.le_refl _, fun hp => absurd hp (hwrap hd hline)⟩
  | blankLine hl hl' hd hm =>
    rw [compareLine_eq]
    exact ⟨Nat.le_refl _, fun hp => absurd hp (hwrap hd hl')⟩
  | frame hl hd =>
    have hzero := (startFrame_restarted p.nextRow).window
    exact ⟨hzero ▸ Nat.zero_le _, fun _ => hzero⟩

/-- **What a display knows of its past**: the number of lines drawn follows from its place, and the
window has shown no more. A dark display has drawn none. -/
structure Counted (p : Ppu) (n : Nat) : Prop where
  ok : PhaseOK p
  lines : n = if p.lcdOn then p.linesDone else 0
  window : p.window.line.toNat ≤ n

theorem Counted.le_screenHeight (h : Counted p n) : n ≤ screenHeight := by
  rw [h.lines]
  split
  · exact Nat.min_le_left _ _
  · exact Nat.zero_le _

/-- Where a frame starts nothing has been drawn. -/
theorem counted_zero (h : PhaseOK p) (hpos : p.position = 0) (hw : p.window.line = 0) :
    Counted p 0 := by
  refine ⟨h, ?_, hw ▸ Nat.le_refl _⟩
  split
  · rename_i hon
    exact ((linesDone_of_position h hon).1 hpos).symm
  · rfl

theorem Counted.dot (h : Counted p n) (hon : p.lcdOn = true) :
    Counted (p.step 1).value.1 (drawnAfter n p) := by
  obtain ⟨v, b, q, hs, hq⟩ := tick_step h.ok hon
  have hstep : (p.step 1).value =
      (q.updateStat.1, { vblank := v, stat := q.updateStat.2, hblank := b }) :=
    (step_one hon).trans hq
  obtain ⟨hok, hsame⟩ := step_ok h.ok 1
  have hlit : (p.step 1).value.1.lcdOn = true := hsame.lcdOn.trans hon
  have hline := h.lines
  rw [if_pos hon] at hline
  obtain ⟨hwindow, hfirst⟩ := hs.window h.ok
  have hplace := (hs.onward h.ok).position
  have hcount := h.window
  unfold drawnAfter
  rw [hstep] at hok hlit ⊢
  rcases (hs.draws h.ok hon).lines with ⟨hpos, hdone⟩ | ⟨hpos, -, -, -⟩
  · have hnext : q.position ≠ 0 := by omega
    rw [if_neg (show q.updateStat.1.position ≠ 0 from hnext)]
    refine ⟨hok, ?_, ?_⟩
    · rw [if_pos hlit, hline]
      exact hdone.symm
    · show q.window.line.toNat ≤ n + b.toNat
      omega
  · have hnext : q.position = 0 := by omega
    rw [if_pos (show q.updateStat.1.position = 0 from hnext)]
    exact counted_zero hok hnext (hfirst hpos)

theorem Counted.access (h : Counted p n) {op : Operation} (hop : ∀ n, op ≠ .run n) :
    Counted (p.perform op) (if (p.perform op).lcdOn = p.lcdOn then n else 0) := by
  have hok := (perform_ok h.ok op).1
  rcases perform_still p hop with hs | ⟨hswitched, hs⟩
  · rw [if_pos hs.lit]
    refine ⟨hok, ?_, ?_⟩
    · unfold linesDone
      rw [hs.lit, hs.mode, hs.same.ly]
      exact h.lines
    · rw [hs.window]
      exact h.window
  · rw [if_neg hswitched]
    exact counted_zero hok hs.position hs.window

/-- **Every drawn display is counted.** -/
theorem Drawn.counted {model : Model} (h : Drawn model p n) : Counted p n := by
  induction h with
  | powerOn => exact ⟨powerOn_ok model, by rw [powerOn_lcdOn]; rfl, Nat.le_refl _⟩
  | handOver palettes =>
    have hok := (handOver_synced model palettes).ok
    obtain ⟨q, hq, -⟩ := handOver_eq (Ppu.powerOn model) palettes
    rw [hq] at hok ⊢
    exact counted_zero hok (startFrame_restarted q).position (startFrame_restarted q).window
  | dot _ hon ih => exact ih.dot hon
  | access _ op hop ih => exact ih.access hop

/-- What holds of every display of a transfer that began with `q`, and of the one that ends it. -/
structure Held (q r : Ppu) : Prop where
  same : SameSprites q r
  rows : ∀ s ∈ r.sprites,
    0 ≤ (r.ly.toNat : Int) - s.y ∧ (r.ly.toNat : Int) - s.y < r.spriteHeight

theorem SameSprites.held (h : SameSprites q r)
    (hfit : ∀ s ∈ q.sprites, s.Fits q.ly.toNat q.spriteHeight) : Held q r := by
  refine ⟨h, ?_⟩
  intro s hs
  rw [h.sprites] at hs
  rw [h.ly, h.height]
  have hcovers := (hfit s hs).covers
  unfold Sprite.covers at hcovers
  rw [Bool.and_eq_true, decide_eq_true_eq, decide_eq_true_eq] at hcovers
  omega

/-- **Sprites and the window's progress.** The dot that begins a transfer, on any display, latches
the first ten sprites that cover the line, by the height that LCDC asks for at that dot, in drawing
order. Whatever is written from then on, the transfer and the dot that ends it have these sprites,
and each of them covers the line. On the displays that occur, the window has shown no more lines
than the frame has drawn. -/
theorem sprites_selected :
    (∀ p : Ppu, p.mode ≠ .transfer → (p.step 1).value.1.mode = .transfer →
      (p.step 1).value.1.ly = p.ly ∧
      (p.step 1).value.1.spriteHeight = (if p.controls.lcdc &&& 4 = 0 then 8 else 16) ∧
      Sprite.Selected p.oam p.ly.toNat (if p.controls.lcdc &&& 4 = 0 then 8 else 16)
        (p.colorOutput = true ∧ p.controls.opri &&& 1 = 0) (p.step 1).value.1.sprites ∧
      ∀ r, During (p.step 1).value.1 r →
        Held (p.step 1).value.1 r ∧ Held (p.step 1).value.1 (r.step 1).value.1) ∧
    ∀ model p, Reachable model p →
      (∃ n, Drawn model p n) ∧
        ∀ n, Drawn model p n → p.window.line.toNat ≤ n ∧ n ≤ 144 := by
  refine ⟨?_, ?_⟩
  · intro p hm ht
    obtain ⟨hq, hly, hheight, hsprites⟩ := enters_underway hm ht
    have hfit : ∀ s ∈ (p.step 1).value.1.sprites,
        s.Fits (p.step 1).value.1.ly.toNat (p.step 1).value.1.spriteHeight := by
      intro s hs
      rw [hsprites] at hs
      rw [hly, hheight]
      exact mem_latch hs
    refine ⟨hly, hheight.trans (spriteHeight_eq p.controls), ?_, ?_⟩
    · have hselected :=
        Sprite.latch_selected p.oam p.ly.toNat p.controls.spriteHeight p.drawsByIndex
      rw [hsprites, ← spriteHeight_eq]
      have horder : (p.drawsByIndex = true) =
          (p.colorOutput = true ∧ p.controls.opri &&& 1 = 0) := by
        simp [drawsByIndex]
      rwa [horder] at hselected
    · intro r hr
      have hr' := hr.underway hq
      exact ⟨hr'.same.held hfit, hr'.dot_same.held hfit⟩
  · intro model p hp
    refine ⟨hp.drawn, ?_⟩
    intro n hn
    have hcount := hn.counted
    exact ⟨hcount.window, hcount.le_screenHeight⟩

/-- Two small sprites cover the first line, and LCDC asks for tall ones once they are latched. -/
theorem sprites_selected_then_tall :
    let p := [.oam 0xFE00 16, .oam 0xFE04 12, .port 0xFF40 0x91, .run 79].foldl perform
      (.powerOn .mono)
    let q := (p.step 1).value.1
    (Reachable .mono p ∧ p.mode ≠ .transfer ∧ q.mode = .transfer) ∧
      Sprite.covering p.oam 0 8 = [0, 1] ∧
      Sprite.Selected p.oam 0 8 False q.sprites ∧
      Held q (q.perform (.port 0xFF40 0x95)) ∧ p.window.line.toNat ≤ 144 := by
  intro p q
  have hreach : Reachable .mono p := Reachable.powerOn.foldl _
  have hbefore : p.mode ≠ .transfer := by decide +kernel
  have hafter : q.mode = .transfer := by decide +kernel
  obtain ⟨-, -, hselected, hheld⟩ := sprites_selected.1 p hbefore hafter
  have hline : p.ly.toNat = 0 := by decide +kernel
  have hsmall : p.controls.lcdc &&& 4 = 0 := by decide +kernel
  have hmono : (p.colorOutput = true ∧ p.controls.opri &&& 1 = 0) = False := by decide +kernel
  rw [hline, hmono, if_pos hsmall] at hselected
  have hon : (q.perform (.port 0xFF40 0x95)).mode = .transfer := by decide +kernel
  obtain ⟨⟨n, hn⟩, hwindow⟩ := sprites_selected.2 .mono p hreach
  obtain ⟨hshown, hlines⟩ := hwindow n hn
  refine ⟨⟨hreach, hbefore, hafter⟩, by decide +kernel, hselected, ?_,
    Nat.le_trans hshown hlines⟩
  have hwrite : ∀ n, Operation.port 0xFF40 0x95 ≠ .run n := by
    intro n h
    cases h
  exact (hheld _ (.access .start (.port 0xFF40 0x95) hwrite hon)).1

end Handheld.Ppu
