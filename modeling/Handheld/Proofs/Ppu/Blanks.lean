import Handheld.Proofs.Ppu.Reel

/-!
# How often a horizontal blank begins

Every line of the picture has a horizontal blank. It begins at most once within any few dots, which a
step of so many dots then signals, and 144 times a frame.

* `blanksBegun`: how many begin within some dots.
* `OnTime.step`: the lines drawn so far grow by as many.
* `blanksBegun_eq`: a step of up to four dots signals the one that begins, if any.
-/

namespace Handheld.Ppu

variable {p q : Ppu} {c : Nat}

/-- The horizontal blanks that begin within some dots. -/
def blanksBegun (n : Nat) (p : Ppu) : Nat :=
  (p.dots n).countP fun q => q.mode != .hblank && (q.step 1).value.1.mode == .hblank

/-- **A lit display that is `c` dots from the start of a frame**, or a number of frames more. -/
structure OnTime (c : Nat) (p : Ppu) : Prop where
  ok : PhaseOK p
  lit : p.lcdOn = true
  position : p.position = c % dotsPerFrame

theorem OnTime.of_lit (h : PhaseOK p) (hon : p.lcdOn = true) : OnTime p.position p := by
  have hd := h.dot
  have hl := h.ly
  unfold dotsPerLine at hd
  unfold linesPerFrame at hl
  refine ⟨h, hon, ?_⟩
  rw [dotsPerFrame_eq, position_eq]
  omega

theorem OnTime.withMemories (h : OnTime c p) (colorOutput : Bool) (vram : Vector UInt8 vramSize)
    (vramUpper : Bool) (oam : Vector UInt8 oamSize) (background objects : PaletteRam) :
    OnTime c { p with colorOutput, vram, vramUpper, oam, background, objects } :=
  ⟨h.ok.withMemories .., h.lit, h.position⟩

theorem OnTime.dot (h : OnTime c p) :
    OnTime (c + 1) (p.step 1).value.1 ∧
      tally (c + 1) (p.step 1).value.1 = tally c p + (p.step 1).value.2.hblank.toNat := by
  obtain ⟨hok, hsame⟩ := step_ok h.ok 1
  obtain ⟨v, ho⟩ := tick_onward h.ok h.lit
  have hpos := h.position
  have hplace := ho.position
  rw [← step_one h.lit] at hplace
  refine ⟨⟨hok, hsame.lcdOn.trans h.lit, ?_⟩, ((shot h.ok h.lit).tally h.position).1⟩
  rw [dotsPerFrame_eq] at hplace hpos ⊢
  omega

/-- The first dot counts if it signals. -/
theorem blanksBegun_succ (h : OnTime c p) (n : Nat) :
    blanksBegun (n + 1) p =
      (p.step 1).value.2.hblank.toNat + blanksBegun n (p.step 1).value.1 := by
  have hreport := (shot h.ok h.lit).draws.report
  have hbegins : (p.mode != .hblank && (p.step 1).value.1.mode == .hblank) =
      (p.step 1).value.2.hblank := by
    rw [Bool.eq_iff_iff, hreport, Bool.and_eq_true, bne_iff_ne, beq_iff_eq]
  unfold blanksBegun
  rw [dots, List.countP_cons, hbegins, Nat.add_comm]
  cases (p.step 1).value.2.hblank <;> rfl

/-- **The lines drawn grow by the horizontal blanks that begin.** -/
theorem OnTime.step (h : OnTime c p) (n : Nat) :
    OnTime (c + n) (p.step n).value.1 ∧
      tally (c + n) (p.step n).value.1 = tally c p + blanksBegun n p := by
  induction n generalizing c p with
  | zero =>
    rw [step_zero]
    exact ⟨h, rfl⟩
  | succ n ih =>
    obtain ⟨hdot, hone⟩ := h.dot
    obtain ⟨hrest, hlines⟩ := ih hdot
    rw [step_succ h.ok h.lit, blanksBegun_succ h, Nat.add_comm n, ← Nat.add_assoc]
    exact ⟨hrest, by rw [hlines, hone, Nat.add_assoc]⟩

/-- A step signals a horizontal blank if one begins. -/
theorem step_hblank (h : OnTime c p) (n : Nat) :
    (p.step n).value.2.hblank = true ↔ 0 < blanksBegun n p := by
  induction n generalizing c p with
  | zero =>
    rw [step_zero]
    exact ⟨fun hz => (by cases hz), fun hz => absurd hz (Nat.lt_irrefl 0)⟩
  | succ n ih =>
    have hrest := ih h.dot.1
    rw [step_succ h.ok h.lit, blanksBegun_succ h]
    simp only [Signals.merge, Bool.or_eq_true, hrest]
    cases (p.step 1).value.2.hblank with
    | false => simp
    | true => exact iff_of_true (.inl rfl) (Nat.add_pos_left Nat.one_pos _)

/-- The lines drawn, from the place in the frame: those above, and the one under way if it is
drawn. -/
theorem linesDone_bounds (h : PhaseOK p) (hon : p.lcdOn = true) :
    min 144 (p.position / 456) ≤ p.linesDone ∧
      p.linesDone ≤ min 144 ((p.position + 204) / 456) := by
  have hd := h.dot
  have hm := (h.lit hon).mode
  have ht := h.transfer.1
  have hheight : screenHeight = 144 := rfl
  have hbase : transferBase = 172 := rfl
  unfold dotsPerLine at hd
  rw [position_eq]
  by_cases hl : screenHeight ≤ p.ly.toNat
  · rw [linesDone_of_blank hl]
    omega
  by_cases hp : p.mode = .hblank
  · -- the line is drawn after 252 dots at the earliest
    have hdrawn :=
      ((phaseAt_iff p.ly.toNat p.dot p.transferDots).2 (by omega)).2.2.1 (hm.symm.trans hp)
    rw [linesDone_of_hblank (by omega) hp]
    omega
  · rw [linesDone_of_mode (by omega) hp]
    omega

/-- Within a few dots at most one line is drawn. -/
theorem OnTime.tally_le (h : OnTime c p) {n : Nat} (hn : n ≤ 4) (h' : OnTime (c + n) q) :
    tally (c + n) q ≤ tally c p + 1 := by
  -- the ends of two lines are further apart
  have hp := linesDone_bounds h.ok h.lit
  have hq := linesDone_bounds h'.ok h'.lit
  rw [h.position] at hp
  rw [h'.position] at hq
  rw [dotsPerFrame_eq] at hp hq
  unfold tally screenHeight
  rw [dotsPerFrame_eq]
  omega

/-- **A step of up to four dots signals the horizontal blank that begins**: there is one at most. -/
theorem blanksBegun_eq (h : OnTime c p) {n : Nat} (hn : n ≤ 4) :
    blanksBegun n p = (p.step n).value.2.hblank.toNat := by
  have hle := h.tally_le hn (h.step n).1
  rw [(h.step n).2] at hle
  have hiff := step_hblank h n
  cases hb : (p.step n).value.2.hblank with
  | true =>
    have hpos := hiff.1 hb
    rw [Bool.toNat_true]
    omega
  | false =>
    have hzero : ¬ 0 < blanksBegun n p := fun hz => absurd (hb.symm.trans (hiff.2 hz)) (by decide)
    rw [Bool.toNat_false]
    omega

/-- **A frame draws all of its lines**: after two frames' time more than a hundred horizontal blanks
have begun. -/
theorem OnTime.tally_ge (h : OnTime c p) (hc : c < dotsPerFrame) {c' : Nat}
    (hlater : 2 * dotsPerFrame ≤ c') (q : Ppu) : tally c p + 144 ≤ tally c' q := by
  have hp := linesDone_bounds h.ok h.lit
  rw [dotsPerFrame_eq] at hc hlater
  unfold tally screenHeight
  rw [dotsPerFrame_eq]
  omega

end Handheld.Ppu
