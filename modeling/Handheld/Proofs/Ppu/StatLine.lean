import Handheld.Proofs.Ppu.Erasure
import Handheld.Proofs.Ppu.Guise
import Handheld.Proofs.Ppu.Odometer

/-!
# The STAT line

The level whose rising edges request the STAT interrupt is the OR of the enabled sources. It is
followed here from the outside, by what the display shows after each dot.

* `sourcesActive`: the OR, computed anew from the place, the phase and the registers;
  `statLevel_eq`.
* `extraScan`: the source that monochrome hardware adds on the dot that enters line 144.
* `Watched`: a display under way, with the line after the last dot since the LCD was switched on;
  `Reachable.watched`: every display that occurs is one.
* `dot_stat`: what one dot does; `Watched.remembers`: what any run keeps.
* `stat_blocked` (every run): a line that is high blocks further requests, except for the extra
  source.
-/

namespace Handheld.Ppu

variable {model : Model} {p q : Ppu} {held : Bool}

/-- **The OR of the enabled sources**, from what the display shows. -/
def sourcesActive (p : Ppu) : Bool :=
  (p.controls.onHBlank && p.mode == .hblank) ||
    (p.controls.onVBlank && decide (screenHeight ≤ p.ly.toNat)) ||
    (p.controls.onOamScan && decide (p.ly.toNat < screenHeight ∧ p.dot < scanDots)) ||
    (p.controls.onCoincidence && p.ly == p.controls.lyc)

/-- **The extra source**: monochrome hardware takes the first dot of line 144 for a scan. -/
def extraScan (p : Ppu) : Bool :=
  !p.model.isColor && p.controls.onOamScan && p.ly == 144 && p.dot == 0

/-- The STAT line after a dot. -/
def line (p : Ppu) : Bool := p.sourcesActive || p.extraScan

/-- The level that the display computes from its phase is the OR of its sources. -/
theorem statLevel_eq (h : PhaseOK p) (hon : p.lcdOn = true) : p.statLevel = p.sourcesActive := by
  have hscan : scanDots = 80 := rfl
  unfold statLevel modeSource sourcesActive
  rw [(h.lit hon).coincidence, (h.lit hon).mode, phaseAt]
  have hblank : ∀ m : Mode, m ≠ .hblank → (m == .hblank) = false := by
    intro m hm
    exact beq_eq_false_iff_ne.2 hm
  -- at most one source follows from the phase
  by_cases hl : screenHeight ≤ p.ly.toNat
  · have hlow : ¬p.ly.toNat < screenHeight := by omega
    simp [hl, hlow, hblank, Bool.or_comm, Bool.and_comm]
  have hlow : p.ly.toNat < screenHeight := by omega
  by_cases hs : p.dot < scanDots
  · simp [hl, hlow, hs, hblank, Bool.or_comm, Bool.and_comm]
  by_cases ht : p.dot < scanDots + p.transferDots
  · simp [hl, hs, ht, hblank, Bool.and_comm]
  · simp [hl, hs, ht, Bool.or_comm, Bool.and_comm]

/-- A dot leaves the line as it was until it is over. -/
theorem DotStep.statLine {v b : Bool} (hs : DotStep p v b q) : q.statLine = p.statLine := by
  cases hs with
  | hblank hl hd =>
    obtain ⟨frame, line, hq⟩ := drawLine_eq p.nextDot
    rw [beginHBlank, hq]
    rfl
  | stay | transfer => rfl
  | scan hl hd | vblank hl hd | blankLine hl hl' hd hm => rw [compareLine_eq]; rfl
  | frame hl hd => rw [startFrame, compareLine_eq]; rfl

/-- The vertical blank sets off the extra source on monochrome hardware. -/
theorem DotStep.extraScanEdge {v b : Bool} (hs : DotStep p v b q) :
    q.extraScanEdge = (p.extraScanEdge || v && !p.model.isColor) := by
  cases hs with
  | hblank hl hd =>
    obtain ⟨frame, line, hq⟩ := drawLine_eq p.nextDot
    rw [beginHBlank, hq]
    exact (Bool.or_false _).symm
  | stay | transfer => exact (Bool.or_false _).symm
  | scan hl hd | blankLine hl hl' hd hm =>
    rw [compareLine_eq]
    exact (Bool.or_false _).symm
  | vblank hl hd =>
    rw [compareLine_eq]
    rfl
  | frame hl hd =>
    rw [startFrame, compareLine_eq]
    exact (Bool.or_false _).symm

/-- The vertical blank begins on the first dot of line 144. -/
theorem DotStep.entersBlank {v b : Bool} (hs : DotStep p v b q) (h : PhaseOK p)
    (hon : p.lcdOn = true) : v = (q.ly == 144 && q.dot == 0) := by
  have honward := hs.onward h
  have hplace := honward.position
  have hdot := (hs.ok h hon).dot
  have hpos := position_eq q
  have hline : dotsPerLine = 456 := rfl
  rw [dotsPerFrame_eq] at hplace
  rw [Bool.eq_iff_iff, honward.vblank, visibleDots_eq, Bool.and_eq_true_iff, beq_iff_eq, beq_iff_eq,
    ← UInt8.toNat_inj]
  simp only [UInt8.reduceToNat]
  omega

/-- **What a dot does to the STAT line**: it follows the sources of the place that the dot leads to.
A request is its rising edge, or comes from the extra source. -/
theorem dot_stat (h : PhaseOK p) (hon : p.lcdOn = true) (he : p.extraScanEdge = false) :
    (p.step 1).value.1.statLine = (p.step 1).value.1.line ∧
      (p.step 1).value.2.stat =
        (((p.step 1).value.1.sourcesActive && !p.statLine) || (p.step 1).value.1.extraScan) := by
  obtain ⟨v, b, q, hs, hq⟩ := tick_step h hon
  have hlevel := statLevel_eq (hs.ok h hon) (hs.same.lcdOn.trans hon)
  have hextra : (q.extraScanEdge && q.controls.onOamScan) = q.extraScan := by
    rw [hs.extraScanEdge, he, Bool.false_or, hs.entersBlank h hon, extraScan, hs.same.model]
    cases q.ly == 144 <;> cases q.dot == 0 <;> simp [Bool.and_comm]
  rw [step_one hon, hq]
  constructor
  · show (q.statLevel || (q.extraScanEdge && q.controls.onOamScan)) =
      (q.sourcesActive || q.extraScan)
    rw [hlevel, hextra]
  · show ((q.statLevel && !q.statLine) || (q.extraScanEdge && q.controls.onOamScan)) =
      ((q.sourcesActive && !p.statLine) || q.extraScan)
    rw [hlevel, hextra, hs.statLine]

/-- **A display under way**, dot by dot, with whatever accesses in between. `held` is its line after
the last dot since the LCD was switched on, and low if there was none. -/
inductive Watched (model : Model) : Ppu → Bool → Prop where
  | powerOn : Watched model (.powerOn model) false
  | handOver (palettes : Option BootPalettes) :
      Watched model ((Ppu.powerOn model).handOver palettes).value false
  | dot {p : Ppu} {held : Bool} (h : Watched model p held) (hon : p.lcdOn = true) :
      Watched model (p.step 1).value.1 (p.step 1).value.1.line
  | access {p : Ppu} {held : Bool} (h : Watched model p held) (op : Operation)
      (hop : ∀ n, op ≠ .run n) : Watched model (p.perform op) (held && (p.perform op).lcdOn)

/-- Many dots of a lit display. -/
theorem Watched.dots (h : Watched model p held) (hok : PhaseOK p) (hon : p.lcdOn = true) {n : Nat}
    (hn : n ≠ 0) : Watched model (p.step n).value.1 (p.step n).value.1.line := by
  induction n generalizing p held with
  | zero => exact absurd rfl hn
  | succ n ih =>
    cases n with
    | zero => exact h.dot hon
    | succ n =>
      obtain ⟨hnext, hsame⟩ := step_ok hok 1
      rw [step_succ hok hon]
      exact ih (h.dot hon) hnext (hsame.lcdOn.trans hon) (Nat.succ_ne_zero n)

/-- Any number of dots, whether the display is lit or not. -/
theorem Watched.run (h : Watched model p held) (hok : PhaseOK p) (n : Nat) :
    Watched model (p.step n).value.1
      (if p.lcdOn = true ∧ n ≠ 0 then (p.step n).value.1.line else held) := by
  cases hon : p.lcdOn with
  | true =>
    by_cases hn : n = 0
    · rw [hn, step_zero, if_neg (by simp)]
      exact h
    · rw [if_pos ⟨rfl, hn⟩]
      exact h.dots hok hon hn
  | false =>
    -- a dark display stands still
    have hstill : (p.step n).value.1 = p := by
      rw [step, hon]
      rfl
    rw [hstill, if_neg (by simp)]
    exact h

/-- **Every display that occurs has been under way like this.** -/
theorem Reachable.watched (h : Reachable model p) : ∃ held, Watched model p held := by
  induction h with
  | powerOn => exact ⟨false, .powerOn⟩
  | handOver palettes => exact ⟨false, .handOver palettes⟩
  | @perform p op h ih =>
    obtain ⟨held, hwatched⟩ := ih
    cases op with
    | run n => exact ⟨_, hwatched.run (reachable_ok h).1 n⟩
    | _ => exact ⟨_, hwatched.access _ nofun⟩

/-- An access that leaves the LCD on leaves the line as it was. -/
theorem perform_statLine {op : Operation} (hop : ∀ n, op ≠ .run n)
    (hon : (p.perform op).lcdOn = true) : (p.perform op).statLine = p.statLine := by
  cases op with
  | run n => exact absurd rfl (hop n)
  | port addr v =>
    have hon : (p.writePort addr v).value.lcdOn = true := hon
    show (p.writePort addr v).value.statLine = p.statLine
    unfold writePort at hon ⊢
    split
    · rename_i haddr
      rw [if_pos haddr, writeLcdc_lcdOn] at hon
      have hlit := lcdOn_withLcdc p v
      unfold writeLcdc
      simp only [hlit, hon]
      cases p.lcdOn with
      | true => rfl
      | false =>
        -- LY is compared when the LCD comes on, but the line waits for the first dot
        rw [Logged.value_bind, startFrame, compareLine_eq]
        rfl
    · obtain ⟨controls, coincidence, background, objects, hq, -⟩ := writeControl_eq p addr v
      rw [hq]
      rfl
  | vram addr v =>
    obtain ⟨vram, hq⟩ := writeVram_eq p addr v
    rw [perform, hq]
  | oam addr v =>
    obtain ⟨oam, hq⟩ := writeOam_eq p addr v
    rw [perform, hq]
  | vramBank | moveVram | moveOam | monochrome | palettes => rfl

/-- **What a display knows of its past**: the line after the last dot. -/
structure Remembers (model : Model) (p : Ppu) (held : Bool) : Prop where
  ok : PhaseOK p
  model : p.model = model
  statLine : p.statLine = held
  edge : p.extraScanEdge = false

/-- **Every run keeps the display's memory right.** -/
theorem Watched.remembers (h : Watched model p held) : Remembers model p held := by
  induction h with
  | powerOn => exact ⟨powerOn_ok model, rfl, rfl, rfl⟩
  | handOver palettes =>
    obtain ⟨hok, hmodel, -⟩ := handOver_ok (powerOn_ok model) palettes
    exact ⟨hok, hmodel, rfl, rfl⟩
  | @dot p held _ hon ih =>
    obtain ⟨hok, hsame⟩ := step_ok ih.ok 1
    refine ⟨hok, hsame.model.trans ih.model, (dot_stat ih.ok hon ih.edge).1, ?_⟩
    rw [step_one hon]
    exact tick_edge p
  | @access p held _ op hop ih =>
    obtain ⟨hok, hmodel⟩ := perform_ok ih.ok op
    refine ⟨hok, hmodel.trans ih.model, ?_, perform_edge ih.edge op⟩
    cases hon : (p.perform op).lcdOn with
    | true => rw [perform_statLine hop hon, ih.statLine, Bool.and_true]
    | false => rw [(hok.dark hon).statLine, Bool.and_false]

/-- **A request** comes from a rising edge of the line, or from the extra source. -/
theorem Watched.asks (h : Watched model p held) (hon : p.lcdOn = true) :
    (p.step 1).value.2.stat =
      (((p.step 1).value.1.sourcesActive && !held) || (p.step 1).value.1.extraScan) := by
  have hmemory := h.remembers
  rw [(dot_stat hmemory.ok hon hmemory.edge).2, hmemory.statLine]

/-- **STAT blocking.** A dot requests the interrupt only if the line was low on the dot before,
unless it is the dot on which monochrome hardware enters line 144 with the scan source enabled: that
one requests the interrupt whatever the line was. Color hardware has no such dot. -/
theorem stat_blocked (h : Watched model p held) (hon : p.lcdOn = true) :
    ((p.step 1).value.2.stat = true → held = false ∨ (p.step 1).value.1.extraScan = true) ∧
      ((p.step 1).value.1.extraScan = true → (p.step 1).value.2.stat = true) ∧
      (model = .color → (p.step 1).value.1.extraScan = false) := by
  have hasks := h.asks hon
  refine ⟨?_, ?_, ?_⟩
  · intro hstat
    rw [hasks] at hstat
    cases held with
    | false => exact .inl rfl
    | true => exact .inr (by simpa using hstat)
  · intro hextra
    rw [hasks, hextra, Bool.or_true]
  · rintro rfl
    have hmodel : (p.step 1).value.1.model = .color :=
      (step_ok h.remembers.ok 1).2.model.trans h.remembers.model
    rw [extraScan, hmodel]
    rfl

/-- Monochrome hardware whose STAT sources are the scan and the horizontal blank. -/
def scanning : Ppu := (Ppu.powerOn .mono).perform (.port 0xFF41 0x28)

theorem scanning_eq : scanning = { Ppu.powerOn .mono with controls.sources := 0x28 } := rfl

/-- The display switched on. -/
def scanningOn : Ppu := scanning.perform (.port 0xFF40 0x80)

theorem scanningOn_watched : Watched .mono scanningOn false :=
  (Watched.powerOn.access (.port 0xFF41 0x28) nofun).access (.port 0xFF40 0x80) nofun

theorem scanningOn_eq : scanningOn = (scanning.writeLcdc 0x80).value := by
  rw [scanningOn, perform, writePort, if_pos rfl]

theorem scanningOn_synced : Synced (scanningOn.frames * dotsPerFrame) scanningOn := by
  have hoff : scanning.lcdOn = false := by
    rw [scanning_eq]
    exact powerOn_lcdOn .mono
  have hon : scanningOn.lcdOn = true := by
    rw [scanningOn_eq, writeLcdc_lcdOn]
    decide
  refine synced_of_start scanningOn_watched.remembers.ok hon ?_
  rw [scanningOn_eq] at hon ⊢
  exact writeLcdc_position hoff hon

theorem scanningOn_hardware :
    scanningOn.model = .mono ∧ scanningOn.controls.onHBlank = true ∧
      scanningOn.controls.onOamScan = true := by
  have hsources : scanningOn.controls.sources = 0x28 := by
    rw [scanningOn_eq, writeLcdc_on (by rw [scanning_eq]; exact powerOn_lcdOn .mono) (by decide),
      scanning_eq]
  refine ⟨scanningOn_watched.remembers.model, ?_, ?_⟩
  · rw [Controls.onHBlank, hsources]
    decide
  · rw [Controls.onOamScan, hsources]
    decide

/-- **The horizontal blank of line 143 holds the line** when the extra source comes. -/
theorem scanningOn_last (n : Nat) (hn : n + 1 = visibleDots) :
    Watched .mono (scanningOn.step n).value.1 true ∧ (scanningOn.step n).value.1.lcdOn = true ∧
      ((scanningOn.step n).value.1.step 1).value.1.extraScan = true := by
  obtain ⟨hmono, hhblank, hscan⟩ := scanningOn_hardware
  have hlast := scanningOn_synced.step n
  have hnext := hlast.step 1
  have hwatched := scanningOn_watched.dots scanningOn_synced.ok scanningOn_synced.lit
    (by rw [visibleDots_eq] at hn; omega : n ≠ 0)
  have hsame := (step_ok scanningOn_synced.ok n).2
  -- no dot is run: place and mode follow from how many there are
  generalize (scanningOn.step n).value.1 = p at hlast hnext hwatched hsame ⊢
  have hsame' := (step_ok hlast.ok 1).2
  generalize (p.step 1).value.1 = q at hnext hsame' ⊢
  have hplace := hlast.position
  have hplace' := hnext.position
  have hdot := hlast.ok.dot
  have hdot' := hnext.ok.dot
  have hlong := hlast.ok.transfer.2
  have hline : dotsPerLine = 456 := rfl
  have hscanned : scanDots = 80 := rfl
  have hlongest : longestTransfer = 245 := rfl
  have hheight : screenHeight = 144 := rfl
  rw [visibleDots_eq] at hn
  rw [position_eq, dotsPerFrame_eq] at hplace hplace'
  refine ⟨?_, hlast.lit, ?_⟩
  · have hmode : p.mode = .hblank := by
      rw [(hlast.ok.lit hlast.lit).mode, phaseAt, if_neg (by omega), if_neg (by omega),
        if_neg (by omega)]
    have hhigh : p.line = true := by
      rw [line, sourcesActive, hmode, hsame.controls, hhblank]
      simp
    rwa [hhigh] at hwatched
  · have hly : q.ly = 144 := by
      rw [← UInt8.toNat_inj]
      simp only [UInt8.reduceToNat]
      omega
    have hzero : q.dot = 0 := by omega
    rw [extraScan, hly, hzero, hsame'.model, hsame.model, hmono, hsame'.controls, hsame.controls,
      hscan]
    decide

/-- **On monochrome hardware a line that is high does not block the extra source.** -/
theorem stat_blocked_extra :
    Watched .mono (scanningOn.step (visibleDots - 1)).value.1 true ∧
      ((scanningOn.step (visibleDots - 1)).value.1.step 1).value.2.stat = true := by
  obtain ⟨hwatched, hon, hextra⟩ := scanningOn_last (visibleDots - 1) (by decide)
  exact ⟨hwatched, (stat_blocked hwatched hon).2.1 hextra⟩

/-- **Not every request is blocked by a high line**: the horizontal blank of line 143 holds the line
when monochrome hardware enters line 144, and the interrupt is requested once more. -/
theorem extra_scan_unblocked :
    ¬ ∀ (model : Model) (p : Ppu) (held : Bool), Watched model p held → p.lcdOn = true →
      (p.step 1).value.2.stat = true → held = false := by
  intro hblocks
  obtain ⟨hwatched, hon, hextra⟩ := scanningOn_last (visibleDots - 1) (by decide)
  have hasked : ((scanningOn.step (visibleDots - 1)).value.1.step 1).value.2.stat = true := by
    rw [hwatched.asks hon, hextra, Bool.or_true]
  cases hblocks .mono _ true hwatched hon hasked

end Handheld.Ppu
