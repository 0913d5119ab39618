import Handheld.Proofs.Ppu.Clock

/-!
# The picture, dot by dot

While the LCD stays on, whatever else is written in between, a display draws its lines one after the
other, each when its horizontal blank begins. Its states are followed here from dot to dot.

* `Shot`: what one dot of a frame does to the picture, the phase and the count of frames.
* `Ppu.reel`: the displays before each dot of any operations, and the one they end with.
* `Reel.next`: from one display of a reel to the next, a dot passes and accesses are made.
* `every_line_once`: from the start of a frame on, every line is drawn exactly once a frame, in order,
  and the vertical blank begins once a frame, after all of them.
-/

namespace Handheld.Ppu

variable {p q : Ppu} {c : Nat}

/-- A step of one dot is a dot. -/
theorem step_one (hon : p.lcdOn = true) : (p.step 1).value = p.tick.value := by
  unfold step
  rw [if_pos hon]
  rfl

/-- What happened before joins what the dots signal. -/
theorem run_value (n : Nat) (r : Logged (Ppu × Signals)) :
    (run n r).value =
      ((run n (pure (r.value.1, {}))).value.1,
        r.value.2.merge (run n (pure (r.value.1, {}))).value.2) := by
  induction n generalizing r with
  | zero =>
    obtain ⟨⟨p, v, s, b⟩, e⟩ := r
    simp [run, Signals.merge]
  | succ n ih =>
    have hrun (r : Logged (Ppu × Signals)) : (run (n + 1) r).value =
        ((run n (pure (r.value.1.tick.value.1, {}))).value.1,
          (r.value.2.merge r.value.1.tick.value.2).merge
            (run n (pure (r.value.1.tick.value.1, {}))).value.2) := ih _
    rw [hrun r, hrun (pure (r.value.1, {}))]
    simp only [Logged.value_pure, Signals.merge, Bool.false_or, Bool.or_assoc]

/-- Any number of dots is one dot and then the others. -/
theorem step_succ (h : PhaseOK p) (hon : p.lcdOn = true) (n : Nat) :
    (p.step (n + 1)).value =
      (((p.step 1).value.1.step n).value.1,
        (p.step 1).value.2.merge ((p.step 1).value.1.step n).value.2) := by
  have hnext : (p.step 1).value.1.lcdOn = true := by rw [(step_ok h 1).2.lcdOn, hon]
  have hs (q : Ppu) (hq : q.lcdOn = true) (n : Nat) : q.step n = run n (pure (q, {})) := if_pos hq
  rw [hs _ hnext, step_one hon, hs p hon]
  exact run_value n _

/-- Lines drawn since the frame began. -/
def linesDone (p : Ppu) : Nat :=
  min screenHeight (p.ly.toNat + if p.mode = .hblank then 1 else 0)

theorem linesDone_of_blank (h : screenHeight ≤ p.ly.toNat) : p.linesDone = screenHeight := by
  unfold linesDone
  omega

theorem linesDone_of_mode (h : p.ly.toNat < screenHeight) (hm : p.mode ≠ .hblank) :
    p.linesDone = p.ly.toNat := by
  unfold linesDone
  rw [if_neg hm]
  omega

theorem linesDone_of_hblank (h : p.ly.toNat < screenHeight) (hm : p.mode = .hblank) :
    p.linesDone = p.ly.toNat + 1 := by
  unfold linesDone
  rw [if_pos hm]
  omega

/-- **What a dot from `p` to `q` draws**: the line under way if it reports a horizontal blank, which
it does when that phase begins, and nothing otherwise. The lines drawn are forgotten with the frame. -/
structure Draws (p q : Ppu) (hblank : Bool) : Prop where
  report : hblank = true ↔ p.mode ≠ .hblank ∧ q.mode = .hblank
  drawn : hblank = true → ∃ h : p.ly.toNat < screenHeight, q.ly = p.ly ∧
    p.linesDone = p.ly.toNat ∧ q.frame = p.frame.set p.ly.toNat (p.linePixels.map Pixel.color) h
  undrawn : hblank = false → q.frame = p.frame
  lines : p.position + 1 < dotsPerFrame ∧ q.linesDone = p.linesDone + hblank.toNat ∨
    p.position + 1 = dotsPerFrame ∧ hblank = false ∧ p.linesDone = screenHeight ∧ q.linesDone = 0

theorem Draws.nothing (hmode : q.mode = .hblank → p.mode = .hblank) (hframe : q.frame = p.frame)
    (hlines : p.position + 1 < dotsPerFrame ∧ q.linesDone = p.linesDone ∨
      p.position + 1 = dotsPerFrame ∧ p.linesDone = screenHeight ∧ q.linesDone = 0) :
    Draws p q false := by
  refine ⟨?_, fun h => (by cases h), fun _ => hframe, ?_⟩
  · constructor
    · intro h
      cases h
    · rintro ⟨hp, hq⟩
      exact absurd (hmode hq) hp
  · rcases hlines with ⟨hpos, hl⟩ | ⟨hpos, hp, hq⟩
    · exact .inl ⟨hpos, hl⟩
    · exact .inr ⟨hpos, rfl, hp, hq⟩

/-- Every dot draws what its report says. -/
theorem DotStep.draws {v b : Bool} (hs : DotStep p v b q) (h : PhaseOK p) (hon : p.lcdOn = true) :
    Draws p q b := by
  have hm := (h.lit hon).mode
  have hr := nextRow_ly h.ly
  have hly := h.ly
  have ht := h.transfer
  have hscan : scanDots = 80 := rfl
  have hline : dotsPerLine = 456 := rfl
  have hheight : screenHeight = 144 := rfl
  have hlines : linesPerFrame = 154 := rfl
  have hbase : transferBase = 172 := rfl
  have hlong : longestTransfer = 245 := rfl
  have hframe := dotsPerFrame_eq
  have hpos := position_eq p
  cases hs with
  | stay hd hstay =>
    refine .nothing id rfl (.inl ⟨(position_inner h hd).1, rfl⟩)
  | transfer hl hd =>
    have hp : p.mode = .oamScan := by rw [hm, phaseAt, if_neg (by omega), if_pos (by omega)]
    have hmode : p.nextDot.beginTransfer.value.mode = .transfer := rfl
    have hdone : p.nextDot.beginTransfer.value.linesDone = p.ly.toNat :=
      linesDone_of_mode hl (by rw [hmode]; decide)
    refine .nothing (by rw [hmode]; intro h; cases h) rfl (.inl ⟨by omega, ?_⟩)
    rw [hdone, linesDone_of_mode hl (by rw [hp]; decide)]
  | hblank hl hd =>
    -- the only dot that draws; its line counts as done once the blank has begun
    have hp : p.mode = .transfer := by
      rw [hm, phaseAt, if_neg (by omega), if_neg (by omega), if_pos (by omega)]
    have hdone : p.linesDone = p.ly.toNat := linesDone_of_mode hl (by rw [hp]; decide)
    have hdraw : p.nextDot.drawLine =
        { p.nextDot with
          frame := p.frame.set p.ly.toNat (p.linePixels.map Pixel.color) hl
          window.line := if p.showsWindow then p.window.line + 1 else p.window.line } :=
      dif_pos hl
    simp only [beginHBlank, setMode, hdraw]
    refine ⟨?_, fun _ => ⟨hl, rfl, hdone, rfl⟩, fun h => (by cases h), .inl ⟨by omega, ?_⟩⟩
    · simp [hp]
    · rw [hdone]
      exact linesDone_of_hblank hl rfl
  | scan hl hd =>
    rw [compareLine_eq]
    have hp : p.mode = .hblank := by
      rw [hm, phaseAt, if_neg (by omega), if_neg (by omega), if_neg (by omega)]
    have hl' : p.nextRow.ly.toNat < screenHeight := by omega
    -- the blank is over, but LY has moved past its line, which stays counted
    refine .nothing (fun _ => hp) rfl (.inl ⟨by omega, ?_⟩)
    rw [linesDone_of_hblank (by omega) hp, ← hr]
    exact linesDone_of_mode hl' (by decide : Mode.oamScan ≠ .hblank)
  | vblank hl hd =>
    rw [compareLine_eq]
    have hp : p.mode = .hblank := by
      rw [hm, phaseAt, if_neg (by omega), if_neg (by omega), if_neg (by omega)]
    have hl' : screenHeight ≤ p.nextRow.ly.toNat := by omega
    refine .nothing (fun _ => hp) rfl (.inl ⟨by omega, ?_⟩)
    rw [linesDone_of_hblank (by omega) hp, hl]
    exact linesDone_of_blank hl'
  | blankLine hl hl' hd hblank =>
    rw [compareLine_eq]
    have hnext : screenHeight ≤ p.nextRow.ly.toNat := by omega
    refine .nothing id rfl (.inl ⟨by omega, ?_⟩)
    rw [linesDone_of_blank (p := p) (by omega)]
    exact linesDone_of_blank hnext
  | frame hl hd =>
    rw [startFrame, compareLine_eq]
    have hmode : Mode.oamScan ≠ .hblank := by decide
    refine .nothing (fun h => absurd h hmode) rfl (.inr ⟨by omega, ?_, ?_⟩)
    · exact linesDone_of_blank (by omega)
    · exact linesDone_of_mode (by decide : (0 : UInt8).toNat < screenHeight) hmode

/-- **A dot of a lit display**: the display before it, and what a step of one dot then does. -/
structure Shot (p : Ppu) : Prop where
  draws : Draws p (p.step 1).value.1 (p.step 1).value.2.hblank
  vblank : (p.step 1).value.2.vblank = true ↔ p.position + 1 = visibleDots
  frames : (p.step 1).value.1.frames = p.frames + (p.step 1).value.2.vblank.toNat

theorem shot (h : PhaseOK p) (hon : p.lcdOn = true) : Shot p := by
  obtain ⟨v, b, q, hs, hq⟩ := tick_step h hon
  obtain ⟨-, hframes, hv⟩ := hs.onward h
  obtain ⟨hreport, hdrawn, hundrawn, hlines⟩ := hs.draws h hon
  have hstep : (p.step 1).value = (q.updateStat.1, { vblank := v, stat := q.updateStat.2, hblank := b }) :=
    (step_one hon).trans hq
  refine ⟨⟨?_, ?_, ?_, ?_⟩, ?_, ?_⟩ <;> rw [hstep]
  · exact hreport
  · exact hdrawn
  · exact hundrawn
  · exact hlines
  · exact hv
  · exact hframes

/-! ## Reels -/

/-- The displays before each of `n` dots. -/
def dots : Nat → Ppu → List Ppu
  | 0, _ => []
  | n + 1, p => p :: dots n (p.step 1).value.1

theorem step_zero (p : Ppu) : (p.step 0).value = (p, {}) := by
  unfold step
  split <;> rfl

def Operation.dots (p : Ppu) : Operation → List Ppu
  | .run n => p.dots n
  | _ => []

/-- **The reel of a display**: the displays before each dot of the operations, and the one they end
with. -/
def reel (p : Ppu) : List Operation → List Ppu
  | [] => [p]
  | op :: rest => op.dots p ++ (p.perform op).reel rest

/-- No operation switches the LCD off. -/
def KeepsLit (ops : List Operation) : Prop := ∀ v, .port 0xFF40 v ∈ ops → v &&& 0x80 ≠ 0

/-- Accesses between two dots leave the display where it is, with the picture it has. -/
structure Idle (p q : Ppu) : Prop where
  ok : PhaseOK q
  lit : q.lcdOn = true
  ly : q.ly = p.ly
  dot : q.dot = p.dot
  mode : q.mode = p.mode
  frames : q.frames = p.frames
  frame : q.frame = p.frame

theorem Idle.refl (h : PhaseOK p) (hon : p.lcdOn = true) : Idle p p :=
  ⟨h, hon, rfl, rfl, rfl, rfl, rfl⟩

theorem Idle.trans {r : Ppu} (h : Idle p q) (h' : Idle q r) : Idle p r :=
  ⟨h'.ok, h'.lit, h'.ly.trans h.ly, h'.dot.trans h.dot, h'.mode.trans h.mode,
    h'.frames.trans h.frames, h'.frame.trans h.frame⟩

/-- A list of displays with a dot, and then accesses, from each to the next. -/
inductive Reel : Ppu → List Ppu → Prop where
  | last {p q : Ppu} : Idle p q → Reel p [q]
  | dot {p q : Ppu} {l : List Ppu} : Idle p q → Reel (q.step 1).value.1 l → Reel p (q :: l)

theorem Reel.idle {l : List Ppu} (hi : Idle p q) (h : Reel q l) : Reel p l := by
  cases h with
  | last hlast => exact .last (hi.trans hlast)
  | dot hfirst hrest => exact .dot (hi.trans hfirst) hrest

/-- Dots in a row leave nothing between them. -/
theorem Reel.dots {l : List Ppu} (n : Nat) (h : PhaseOK p) (hon : p.lcdOn = true)
    (hl : Reel (p.step n).value.1 l) : Reel p (p.dots n ++ l) := by
  induction n generalizing p with
  | zero =>
    rw [step_zero] at hl
    exact hl
  | succ n ih =>
    obtain ⟨hok, hsame⟩ := step_ok h 1
    rw [step_succ h hon] at hl
    exact .dot (.refl h hon) (ih hok (hsame.lcdOn.trans hon) hl)

theorem writeLcdc_idle (h : PhaseOK p) (hon : p.lcdOn = true) {v : UInt8} (hv : v &&& 0x80 ≠ 0) :
    Idle p (p.writeLcdc v).value := by
  have hok := (writeLcdc_ok h v).1
  have hlit : ({ p with controls.lcdc := v } : Ppu).lcdOn = true := by
    rw [lcdOn_withLcdc]
    simpa using hv
  have hq : (p.writeLcdc v).value = { p with controls.lcdc := v } := by
    unfold writeLcdc
    simp only [hon, hlit, Logged.value_pure]
  rw [hq] at hok ⊢
  exact ⟨hok, hlit, rfl, rfl, rfl, rfl, rfl⟩

theorem writeControl_idle (h : PhaseOK p) (hon : p.lcdOn = true) (addr : UInt16) (v : UInt8) :
    Idle p (p.writeControl addr v) := by
  have hok := (writeControl_ok h addr v).1
  obtain ⟨controls, coincidence, background, objects, hq, hlcdc⟩ := writeControl_eq p addr v
  rw [hq] at hok ⊢
  have hlit : controls.lcdOn = p.lcdOn := by
    unfold lcdOn Controls.lcdOn
    rw [hlcdc]
  exact ⟨hok, hlit.trans hon, rfl, rfl, rfl, rfl, rfl⟩

theorem Idle.withMemories (h : PhaseOK p) (hon : p.lcdOn = true) (colorOutput : Bool)
    (vram : Vector UInt8 vramSize) (vramUpper : Bool) (oam : Vector UInt8 oamSize)
    (background objects : PaletteRam) :
    Idle p { p with colorOutput, vram, vramUpper, oam, background, objects } :=
  ⟨h.withMemories .., hon, rfl, rfl, rfl, rfl, rfl⟩

/-- An operation is dots, or an access that leaves the display where it is. -/
theorem perform_idle (h : PhaseOK p) (hon : p.lcdOn = true) (op : Operation)
    (hkeep : ∀ v, op = .port 0xFF40 v → v &&& 0x80 ≠ 0) :
    (∃ n, op = .run n) ∨ op.dots p = [] ∧ Idle p (p.perform op) := by
  cases op with
  | run n => exact .inl ⟨n, rfl⟩
  | port addr v =>
    refine .inr ⟨rfl, ?_⟩
    show Idle p (p.writePort addr v).value
    unfold writePort
    split
    · rename_i ha
      exact writeLcdc_idle h hon (hkeep v (by rw [ha]))
    · exact writeControl_idle h hon addr v
  | vram addr v =>
    obtain ⟨vram, hq⟩ := writeVram_eq p addr v
    rw [perform, hq]
    exact .inr ⟨rfl, .withMemories h hon ..⟩
  | oam addr v =>
    obtain ⟨oam, hq⟩ := writeOam_eq p addr v
    rw [perform, hq]
    exact .inr ⟨rfl, .withMemories h hon ..⟩
  | vramBank | moveVram | moveOam | monochrome => exact .inr ⟨rfl, .withMemories h hon ..⟩
  | palettes palettes =>
    have hc : PhaseOK { p with controls.opri := 1 } := h.withControls rfl rfl
    exact .inr ⟨rfl, hc.withMemories .., hon, rfl, rfl, rfl, rfl, rfl⟩

/-- The reel of operations that keep the LCD on. -/
theorem reel_of (ops : List Operation) (h : PhaseOK p) (hon : p.lcdOn = true)
    (hkeep : KeepsLit ops) : Reel p (p.reel ops) := by
  induction ops generalizing p with
  | nil => exact .last (.refl h hon)
  | cons op rest ih =>
    have hrest : KeepsLit rest := fun v hv => hkeep v (.tail _ hv)
    have hfirst (v : UInt8) (hv : op = .port 0xFF40 v) : v &&& 0x80 ≠ 0 :=
      hkeep v (hv ▸ .head _)
    rcases perform_idle h hon op hfirst with ⟨n, rfl⟩ | ⟨hdots, hidle⟩
    · obtain ⟨hok, hsame⟩ := step_ok h n
      exact .dots n h hon (ih hok (hsame.lcdOn.trans hon) hrest)
    · rw [reel, hdots]
      exact .idle hidle (ih hidle.ok hidle.lit hrest)

variable {l : List Ppu}

theorem Reel.head (h : Reel p l) : ∃ h0 : 0 < l.length, Idle p l[0] := by
  cases h with
  | last hi => exact ⟨Nat.zero_lt_one, hi⟩
  | dot hi => exact ⟨Nat.zero_lt_succ _, hi⟩

/-- From one display of a reel to the next, a dot passes and accesses are made. -/
theorem Reel.next (h : Reel p l) (k : Nat) (hk : k + 1 < l.length) :
    Idle (l[k].step 1).value.1 l[k + 1] := by
  induction h generalizing k with
  | last => exact absurd hk (by simp)
  | @dot p q l hi hrest ih =>
    cases k with
    | zero => exact hrest.head.2
    | succ k => exact ih k (Nat.lt_of_succ_lt_succ hk)

/-- The place of a display in the frame is its place on the reel. -/
theorem Reel.synced (h : Reel p l) (hs : Synced c p) (k : Nat) (hk : k < l.length) :
    Synced (c + k) l[k] := by
  induction k with
  | zero =>
    have hi := h.head.2
    exact hs.of_place hi.ok hi.lit hi.ly hi.dot hi.frames
  | succ k ih =>
    have hi := h.next k hk
    exact ((ih (by omega)).step 1).of_place hi.ok hi.lit hi.ly hi.dot hi.frames

/-- The lines whose horizontal blank the dots of these displays report, in order. -/
def entered (l : List Ppu) : List Nat :=
  (l.filter fun q => (q.step 1).value.2.hblank).map fun q => q.ly.toNat

/-- The vertical blanks that the dots of these displays request. -/
def blanks (l : List Ppu) : Nat := l.countP fun q => (q.step 1).value.2.vblank

/-- Lines drawn `k` dots after the start of a frame. -/
def tally (k : Nat) (q : Ppu) : Nat := screenHeight * (k / dotsPerFrame) + q.linesDone

theorem Idle.linesDone (h : Idle p q) : q.linesDone = p.linesDone := by
  unfold Ppu.linesDone
  rw [h.ly, h.mode]

/-- The next line to be drawn is the number of those drawn, counted through the frames. -/
theorem Shot.tally {k : Nat} (h : Shot q) (hk : q.position = k % dotsPerFrame) :
    Ppu.tally (k + 1) (q.step 1).value.1 = Ppu.tally k q + (q.step 1).value.2.hblank.toNat ∧
      ((q.step 1).value.2.hblank = true → Ppu.tally k q % screenHeight = q.ly.toNat) := by
  unfold Ppu.tally
  constructor
  · have hlines := h.draws.lines
    rw [hk, dotsPerFrame_eq] at hlines
    rw [dotsPerFrame_eq]
    rcases hlines with ⟨hpos, hl⟩ | ⟨hpos, hb, hl, hnext⟩
    · have hdiv : (k + 1) / 70224 = k / 70224 := by omega
      rw [hl, hdiv, Nat.add_assoc]
    · -- the frame is over, and the lines drawn in it join those of the frames before
      have hdiv : (k + 1) / 70224 = k / 70224 + 1 := by omega
      rw [hb, hl, hnext, hdiv, Nat.mul_succ, Bool.toNat_false]
  · intro hb
    obtain ⟨hl, -, hdone, -⟩ := h.draws.drawn hb
    rw [hdone, Nat.mul_add_mod, Nat.mod_eq_of_lt hl]

/-- A reel from the start of a frame shows the time since then. -/
structure FromStart (p : Ppu) (l : List Ppu) : Prop where
  reel : Reel p l
  synced : Synced (p.frames * dotsPerFrame) p

theorem FromStart.position (h : FromStart p l) (k : Nat) (hk : k < l.length) :
    l[k].position = k % dotsPerFrame := by
  rw [(h.reel.synced h.synced k hk).position, Nat.mul_add_mod_self_right]

theorem FromStart.shot (h : FromStart p l) (k : Nat) (hk : k < l.length) : Shot l[k] :=
  Ppu.shot (h.reel.synced h.synced k hk).ok (h.reel.synced h.synced k hk).lit

theorem take_drop_succ {j n : Nat} (h : j + n < l.length) :
    (l.drop j).take (n + 1) = (l.drop j).take n ++ [l[j + n]] := by
  rw [List.take_add_one, List.getElem?_drop, List.getElem?_eq_getElem h, Option.toList_some]

/-- **The lines reported between two displays of a reel** are the next ones, in order. -/
theorem FromStart.entered (h : FromStart p l) (j n : Nat) (hn : j + n < l.length) :
    ∃ m, tally (j + n) l[j + n] = tally j l[j] + m ∧
      Ppu.entered ((l.drop j).take n) =
        (List.range' (tally j l[j]) m).map fun i => i % screenHeight := by
  induction n with
  | zero => exact ⟨0, rfl, by simp [Ppu.entered]⟩
  | succ n ih =>
    have hlt : j + n < l.length := by omega
    obtain ⟨m, hm, hl⟩ := ih hlt
    have hidle := h.reel.next (j + n) hn
    obtain ⟨hnext, hline⟩ := (h.shot (j + n) hlt).tally (h.position (j + n) hlt)
    have hdone : tally (j + (n + 1)) l[j + (n + 1)] =
        tally (j + n + 1) (l[j + n].step 1).value.1 :=
      congrArg (screenHeight * ((j + n + 1) / dotsPerFrame) + ·) hidle.linesDone
    rw [hdone, hnext, take_drop_succ hlt]
    unfold Ppu.entered at hl ⊢
    rw [List.filter_append, List.map_append, hl]
    cases hb : (l[j + n].step 1).value.2.hblank with
    | false =>
      refine ⟨m, by rw [hm, Bool.toNat_false, Nat.add_zero], ?_⟩
      simp [hb]
    | true =>
      refine ⟨m + 1, by rw [hm, Bool.toNat_true, Nat.add_assoc], ?_⟩
      rw [List.range'_concat, List.map_append, Nat.one_mul, ← hm]
      simp [hb, hline hb]

theorem FromStart.blanks (h : FromStart p l) (k : Nat) (hk : k < l.length) :
    l[k].frames = p.frames + Ppu.blanks (l.take k) := by
  unfold Ppu.blanks
  induction k with
  | zero => rw [h.reel.head.2.frames, List.take_zero, List.countP_nil, Nat.add_zero]
  | succ k ih =>
    have hlt : k < l.length := by omega
    rw [(h.reel.next k hk).frames, (h.shot k hlt).frames, ih hlt, List.take_add_one,
      List.getElem?_eq_getElem hlt, Option.toList_some, List.countP_append, List.countP_singleton,
      Nat.add_assoc]
    cases (l[k].step 1).value.2.vblank <;> rfl

/-- At the start of a frame no line is drawn, when its visible lines end all are. -/
theorem linesDone_of_position (h : PhaseOK p) (hon : p.lcdOn = true) :
    (p.position = 0 → p.linesDone = 0) ∧
      (p.position = visibleDots → p.linesDone = screenHeight) := by
  have hd := h.dot
  unfold dotsPerLine at hd
  rw [position_eq, visibleDots_eq]
  constructor
  · intro hpos
    have hly : p.ly.toNat = 0 := by omega
    have hdot : p.dot = 0 := by omega
    have hm : p.mode = .oamScan := by
      rw [(h.lit hon).mode, hly, hdot]
      rfl
    rw [linesDone_of_mode (by rw [hly]; decide) (by rw [hm]; decide), hly]
  · intro hpos
    exact linesDone_of_blank (by unfold screenHeight; omega)

theorem FromStart.linesDone (h : FromStart p l) (k : Nat) (hk : k < l.length) :
    (k % dotsPerFrame = 0 → l[k].linesDone = 0) ∧
      (k % dotsPerFrame = visibleDots → l[k].linesDone = screenHeight) := by
  have hs := h.reel.synced h.synced k hk
  have hl := linesDone_of_position hs.ok hs.lit
  rw [h.position k hk] at hl
  exact hl

theorem FromStart.lines (h : FromStart p l) (k : Nat) (hk : k < l.length) :
    Ppu.entered (l.take k) =
      (List.range (tally k l[k])).map (· % screenHeight) := by
  have hk' : 0 + k < l.length := by omega
  obtain ⟨m, hm, hl⟩ := h.entered 0 k hk'
  have hzero : tally 0 l[0] = 0 := by
    unfold tally
    rw [(h.linesDone 0 (by omega)).1 (Nat.zero_mod _), Nat.zero_div, Nat.mul_zero]
  simp only [Nat.zero_add, hzero] at hm hl
  rw [hm, List.range_eq_range']
  exact hl

/-- A frame's worth of numbers, from a multiple on, counts up from zero. -/
theorem range'_mod (a n : Nat) : (List.range' (n * a) n).map (· % n) = List.range n := by
  rw [List.range'_eq_map_range, List.map_map]
  conv => rhs; rw [← List.map_id (List.range n)]
  refine List.map_congr_left ?_
  intro i hi
  rw [Function.comp_apply, Nat.mul_add_mod, Nat.mod_eq_of_lt (List.mem_range.1 hi), id_eq]

theorem FromStart.complete (h : FromStart p l) (k : Nat) (hk : k + 1 < l.length)
    (hv : (l[k].step 1).value.2.vblank = true) :
    ∃ start, start % dotsPerFrame = 0 ∧ start + visibleDots = k + 1 ∧
      Ppu.entered ((l.drop start).take visibleDots) = List.range screenHeight := by
  have hend := (h.shot k (by omega)).vblank.1 hv
  rw [h.position k (by omega), dotsPerFrame_eq, visibleDots_eq] at hend
  obtain ⟨start, hsum⟩ : ∃ start, start + 65664 = k + 1 := ⟨k - 65663, by omega⟩
  have hlt : start + visibleDots < l.length := by rw [visibleDots_eq]; omega
  have hstart : start % dotsPerFrame = 0 := by rw [dotsPerFrame_eq]; omega
  have hlast : (start + visibleDots) % dotsPerFrame = visibleDots := by
    rw [dotsPerFrame_eq, visibleDots_eq]
    omega
  have hdiv : (start + visibleDots) / dotsPerFrame = start / dotsPerFrame := by
    rw [dotsPerFrame_eq, visibleDots_eq]
    omega
  obtain ⟨m, hm, hl⟩ := h.entered start visibleDots hlt
  -- the frame began with no line drawn and ends with all of them
  unfold tally at hm hl
  rw [(h.linesDone start (by omega)).1 hstart, (h.linesDone _ hlt).2 hlast, hdiv,
    Nat.add_zero] at hm
  rw [(h.linesDone start (by omega)).1 hstart, ← Nat.add_left_cancel hm, Nat.add_zero,
    range'_mod] at hl
  exact ⟨start, hstart, hsum, hl⟩

/-- **A picture drawn in order.** The reel starts where a frame does. -/
structure DrawnInOrder (p : Ppu) (l : List Ppu) : Prop where
  /-- A dot moves the display on by one place. -/
  position : ∀ (k : Nat) (hk : k < l.length), l[k].position = k % dotsPerFrame
  shot : ∀ (k : Nat) (hk : k < l.length), Shot l[k]
  /-- Nothing touches the picture between the dots. -/
  first : ∀ hk : 0 < l.length, l[0].frame = p.frame
  next : ∀ (k : Nat) (hk : k + 1 < l.length), l[k + 1].frame = (l[k].step 1).value.1.frame
  /-- The lines drawn so far: all of the frames that are over, in order, and those of this one. -/
  lines : ∀ (k : Nat) (hk : k < l.length), entered (l.take k) =
    (List.range (screenHeight * (k / dotsPerFrame) + l[k].linesDone)).map (· % screenHeight)
  /-- When a vertical blank begins, every line was drawn since the frame did. -/
  complete : ∀ (k : Nat) (hk : k + 1 < l.length), (l[k].step 1).value.2.vblank = true →
    ∃ start, start % dotsPerFrame = 0 ∧ start + visibleDots = k + 1 ∧
      entered ((l.drop start).take visibleDots) = List.range screenHeight
  /-- A frame has one vertical blank, which counts it. -/
  blanks : ∀ (k : Nat) (hk : k < l.length),
    blanks (l.take k) = (k + (dotsPerFrame - visibleDots)) / dotsPerFrame ∧
      l[k].frames = p.frames + blanks (l.take k)

theorem FromStart.drawn (h : FromStart p l) : DrawnInOrder p l where
  position := h.position
  shot := h.shot
  first hk := h.reel.head.2.frame
  next k hk := (h.reel.next k hk).frame
  lines := h.lines
  complete := h.complete
  blanks k hk := by
    have hb := h.blanks k hk
    have hf := (h.reel.synced h.synced k hk).frames
    refine ⟨?_, hb⟩
    rw [dotsPerFrame_eq, visibleDots_eq] at *
    omega

/-- **Every visible line is drawn exactly once a frame**, in order, from the start of a frame on and
as long as the LCD stays on, whatever happens between the dots. -/
theorem every_line_once {model : Model} (h : Reachable model p) (hon : p.lcdOn = true)
    (hly : p.ly = 0) (hdot : p.dot = 0) {ops : List Operation} (hkeep : KeepsLit ops) :
    DrawnInOrder p (p.reel ops) := by
  have hok := (reachable_ok h).1
  have hs : Synced (p.frames * dotsPerFrame) p := by
    refine ⟨hok, hon, ?_, ?_⟩
    · rw [position_eq, hly, hdot, Nat.mul_mod_left]
      rfl
    · rw [dotsPerFrame_eq, visibleDots_eq]
      omega
  exact FromStart.drawn ⟨reel_of ops hok hon hkeep, hs⟩

/-- The first line and a dot of the second, with scrolling and sprites switched on in its middle. -/
theorem first_line_once :
    KeepsLit [.run 200, .port 0xFF43 5, .port 0xFF40 0x93, .run 257] ∧
      DrawnInOrder ((Ppu.powerOn .mono).handOver none).value
        (((Ppu.powerOn .mono).handOver none).value.reel
          [.run 200, .port 0xFF43 5, .port 0xFF40 0x93, .run 257]) := by
  have hkeep : KeepsLit [.run 200, .port 0xFF43 5, .port 0xFF40 0x93, .run 257] := by
    intro v hv
    simp only [List.mem_cons, Operation.port.injEq, reduceCtorEq, false_or, or_false, true_and,
      List.not_mem_nil] at hv
    rcases hv with ⟨h, -⟩ | rfl
    · exact absurd h (by decide)
    · decide
  exact ⟨hkeep, every_line_once (.handOver none) rfl rfl rfl hkeep⟩

end Handheld.Ppu
