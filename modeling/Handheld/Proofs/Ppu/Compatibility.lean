import Handheld.Proofs.Ppu.Guise
import Handheld.Proofs.Ppu.Reel

/-!
# A monochrome cartridge on color hardware

The boot image of color hardware gives a monochrome cartridge three palettes and ends color output.
Where the three hold the same four colors, the display is a monochrome one with its shades exchanged.

* `Dress`: a guise of color hardware that exchanges the shades for four colors.
* `Dress.tick`, `Dress.perform`: a display and its counterpart stay together.
* `Picture`: the lines drawn are recolored, those that are not are blank on both.
* `compatible_colors`: from the boot image on, the two displays keep step, and every pixel drawn since
  the LCD was last switched on has the color that its shade stands for.
-/

namespace Handheld.Ppu

variable {p q : Ppu} {colors : Vector UInt16 4} {g : Guise} {lines : List Nat}

/-- The place of a color in palette RAM leads back to its palette and number. -/
theorem PaletteRam.setPalette_color (r : PaletteRam) {palette target number : Nat}
    (hp : palette < 8) (hn : number < 4) :
    (r.setPalette target colors).color palette number =
      if palette = target then pixelOf colors[number] else r.color palette number := by
  have hlow : (palette * 8 + number * 2) % 0x40 = palette * 8 + number * 2 :=
    Nat.mod_eq_of_lt (by omega)
  have hhigh : (palette * 8 + number * 2 + 1) % 0x40 = palette * 8 + number * 2 + 1 :=
    Nat.mod_eq_of_lt (by omega)
  have hlow' : (palette * 8 + number * 2) / 8 = palette ∧
      (palette * 8 + number * 2) % 8 / 2 = number ∧ (palette * 8 + number * 2) % 2 = 0 := by
    omega
  have hhigh' : (palette * 8 + number * 2 + 1) / 8 = palette ∧
      (palette * 8 + number * 2 + 1) % 8 / 2 = number ∧
      (palette * 8 + number * 2 + 1) % 2 ≠ 0 := by
    omega
  unfold color offset setPalette
  simp only [hlow, hhigh, Vector.getElem_mapFinIdx, hlow', hhigh', if_true, if_false]
  split
  · rw [word_highByte_lowByte]
  · rfl

/-- **A guise of color hardware that runs monochrome software**: it shows the tiles of the monochrome
display through the same registers, and looks every shade up as one of four colors. -/
structure Dress (colors : Vector UInt16 4) (p : Ppu) (g : Guise) : Prop where
  mono : p.model = .mono
  output : p.colorOutput = false
  color : g.model = .color
  vram : g.vram = p.vram
  bgp : g.bgp = p.controls.bgp
  obp0 : g.obp0 = p.controls.obp0
  obp1 : g.obp1 = p.controls.obp1
  background : ∀ number (h : number < 4), g.background.color 0 number = pixelOf colors[number]
  objects : ∀ (second : Bool) number (h : number < 4),
    g.objects.color second.toNat number = pixelOf colors[number]

/-- A shade, and the color that stands for it. -/
def Recolored (colors : Vector UInt16 4) (a b : UInt32) : Prop :=
  ∃ i : Fin 4, a = monoShade (UInt8.ofNat i) ∧ b = pixelOf colors[i]

theorem Dress.recolors (h : Dress colors p g) : Recolors (Recolored colors) p g := by
  refine ⟨?_, fun _ => ⟨h.bgp, h.obp0, h.obp1⟩, ?_, ?_⟩
  · intro upper offset _
    have hvram : (p.withGuise g).vram = p.vram := h.vram
    unfold vramByte
    rw [hvram]
  · intro _ shade hlt
    obtain ⟨hpb, hpo⟩ := shades_mono h.mono shade
    obtain ⟨hgb, hgo⟩ := shades_color (p := p.withGuise g) h.color shade
    have hshade : shade = UInt8.ofNat shade.toNat := UInt8.ofNat_toNat.symm
    refine ⟨⟨⟨shade.toNat, hlt⟩, ?_, ?_⟩, fun second => ⟨⟨shade.toNat, hlt⟩, ?_, ?_⟩⟩
    · rw [hpb, ← hshade]
    · rw [hgb]
      exact h.background _ hlt
    · rw [hpo, ← hshade]
    · rw [hgo]
      exact h.objects second _ hlt
  · intro hc
    exact absurd hc (by rw [h.output]; decide)

/-- Wherever time takes a display, its guise goes with it. -/
theorem Dress.follow (h : Dress colors p g) {p' : Ppu} {g' : Guise} (hs : SameSetting p p')
    (hpaint : g'.toPaint = g.toPaint) (hmodel : g'.model = g.model) : Dress colors p' g' where
  mono := hs.model.trans h.mono
  output := hs.colorOutput.trans h.output
  color := hmodel.trans h.color
  vram := (congrArg Paint.vram hpaint).trans (h.vram.trans (congrArg Paint.vram hs.paint).symm)
  bgp := (congrArg Paint.bgp hpaint).trans (h.bgp.trans (congrArg Paint.bgp hs.paint).symm)
  obp0 := (congrArg Paint.obp0 hpaint).trans (h.obp0.trans (congrArg Paint.obp0 hs.paint).symm)
  obp1 := (congrArg Paint.obp1 hpaint).trans (h.obp1.trans (congrArg Paint.obp1 hs.paint).symm)
  background number hn := by
    rw [congrArg Paint.background hpaint]
    exact h.background number hn
  objects second number hn := by
    rw [congrArg Paint.objects hpaint]
    exact h.objects second number hn

/-- A dot takes the counterpart along. -/
theorem Dress.tick (h : Dress colors p g) :
    Dress colors p.tick.value.1 (g.afterDot p) ∧
      (p.withGuise g).tick.value = (p.tick.value.1.withGuise (g.afterDot p), g.signals p) := by
  have horder : (p.withGuise g).drawsByIndex = p.drawsByIndex := by
    have hout : (p.withGuise g).colorOutput = false := h.output
    unfold drawsByIndex
    rw [hout, h.output, Bool.false_and, Bool.false_and]
  obtain ⟨hpaint, hmodel⟩ := g.afterDot_keeps p
  exact ⟨h.follow (tick_elapses p).setting hpaint hmodel, tick_guise g horder⟩

/-- **Pictures of a display and its counterpart**: the lines drawn are recolored, the others are
blank on both. -/
structure Picture (colors : Vector UInt16 4) (lines : List Nat) (a b : Frame) : Prop where
  drawn : ∀ (y : Fin screenHeight) (x : Fin screenWidth), y.val ∈ lines →
    Recolored colors ((a.get y).get x) ((b.get y).get x)
  blank : ∀ (y : Fin screenHeight) (x : Fin screenWidth), y.val ∉ lines →
    (a.get y).get x = blankColor .mono ∧ (b.get y).get x = blankColor .color

theorem Picture.dark : Picture colors [] (blankFrame .mono) (blankFrame .color) := by
  have hblank (model : Model) (y : Fin screenHeight) (x : Fin screenWidth) :
      ((blankFrame model).get y).get x = blankColor model := by
    have hrow : (blankFrame model).get y = .replicate screenWidth (blankColor model) :=
      Vector.getElem_replicate y.isLt
    rw [hrow]
    exact Vector.getElem_replicate x.isLt
  exact ⟨fun y x h => absurd h List.not_mem_nil, fun y x _ => ⟨hblank .mono y x, hblank .color y x⟩⟩

/-- A line beyond the picture does not count. -/
theorem Picture.beyond {a b : Frame} (h : Picture colors lines a b) {line : Nat}
    (hline : ¬line < screenHeight) : Picture colors (lines ++ [line]) a b := by
  have hmem (y : Fin screenHeight) : y.val ∈ lines ++ [line] ↔ y.val ∈ lines := by
    have hne : y.val ≠ line := fun he => hline (he ▸ y.isLt)
    simp [hne]
  refine ⟨fun y x hy => h.drawn y x ((hmem y).1 hy), fun y x hy => h.blank y x ?_⟩
  exact fun hy' => hy ((hmem y).2 hy')

theorem set_get (a : Frame) {line : Nat} (hline : line < screenHeight) (r : Row)
    (y : Fin screenHeight) : (a.set line r hline).get y = if line = y.val then r else a.get y :=
  Vector.getElem_set hline y.isLt

/-- A recolored line joins the lines drawn. -/
theorem Picture.set {a b : Frame} (h : Picture colors lines a b) {line : Nat}
    (hline : line < screenHeight) {r r' : Row}
    (hrow : ∀ x, Recolored colors (r.get x) (r'.get x)) :
    Picture colors (lines ++ [line]) (a.set line r hline) (b.set line r' hline) := by
  constructor
  · intro y x hy
    rw [set_get, set_get]
    by_cases he : line = y.val
    · rw [if_pos he, if_pos he]
      exact hrow x
    · rw [if_neg he, if_neg he]
      refine h.drawn y x ?_
      simpa [Ne.symm he] using hy
  · intro y x hy
    simp only [List.mem_append, List.mem_singleton, not_or] at hy
    rw [set_get, set_get, if_neg (Ne.symm hy.2), if_neg (Ne.symm hy.2)]
    exact h.blank y x hy.1

/-- **A dot draws the line under way on both, or nothing.** -/
theorem Dress.picture (h : Dress colors p g) (hpic : Picture colors lines p.frame g.frame) :
    Picture colors (if p.tick.value.2.hblank then lines ++ [p.ly.toNat] else lines)
      p.tick.value.1.frame (g.afterDot p).frame := by
  have hown : p.tick.value.1.frame = (p.guise.afterDot p).frame :=
    congrArg Guise.frame (tick_own p).1
  rw [hown, Guise.afterDot_frame, Guise.afterDot_frame]
  split
  · rw [withGuise_self]
    by_cases hl : p.ly.toNat < screenHeight
    · rw [drawLine_of_visible hl, drawLine_of_visible (p := p.withGuise g) hl]
      have hmap (pixels : Vector Pixel screenWidth) (x : Fin screenWidth) :
          (pixels.map Pixel.color).get x = (pixels[x.val]).color :=
        Vector.getElem_map _ x.isLt
      refine hpic.set hl fun x => ?_
      rw [hmap, hmap]
      exact (h.recolors.linePixels x x.isLt).color
    · rw [drawLine_of_hidden hl, drawLine_of_hidden (p := p.withGuise g) hl]
      exact hpic.beyond hl
  · exact hpic

/-- **A monochrome display and its counterpart on color hardware**, with the lines drawn since the LCD
was last switched on. -/
structure Compatible (colors : Vector UInt16 4) (lines : List Nat) (p q : Ppu) : Prop where
  dressed : ∃ g, q = p.withGuise g ∧ Dress colors p g
  picture : Picture colors lines p.frame q.frame
  ok : PhaseOK p
  ok' : PhaseOK q

theorem entered_append (l l' : List Ppu) : entered (l ++ l') = entered l ++ entered l' := by
  unfold entered
  rw [List.filter_append, List.map_append]

/-- Dark displays draw no lines. -/
theorem entered_dark (hoff : p.lcdOn = false) (n : Nat) : entered (p.dots n) = [] := by
  have hstep : (p.step 1).value = (p, {}) := by
    unfold step
    rw [if_neg (by rw [hoff]; decide)]
    rfl
  induction n with
  | zero => rfl
  | succ n ih =>
    rw [dots, hstep]
    unfold entered at ih ⊢
    rw [List.filter_cons, hstep]
    exact ih

/-- **One dot keeps the two together**, and enters the blanks of both. -/
theorem Compatible.dot (h : Compatible colors lines p q) (hon : p.lcdOn = true) :
    Compatible colors (lines ++ entered [p]) (p.step 1).value.1 (q.step 1).value.1 ∧
      (q.step 1).value.2.vblank = (p.step 1).value.2.vblank ∧
      (q.step 1).value.2.hblank = (p.step 1).value.2.hblank := by
  have hok := (step_ok h.ok 1).1
  have hok' := (step_ok h.ok' 1).1
  obtain ⟨g, rfl, hg⟩ := h.dressed
  have hon' : (p.withGuise g).lcdOn = true := hon
  obtain ⟨hnext, htick⟩ := hg.tick
  have hlines : lines ++ entered [p] =
      if p.tick.value.2.hblank then lines ++ [p.ly.toNat] else lines := by
    unfold entered
    rw [List.filter_cons, step_one hon]
    cases p.tick.value.2.hblank
    · exact List.append_nil lines
    · rfl
  rw [step_one hon] at hok ⊢
  rw [step_one hon', htick] at hok' ⊢
  refine ⟨⟨⟨_, rfl, hnext⟩, ?_, hok, hok'⟩, rfl, rfl⟩
  rw [hlines]
  exact hg.picture h.picture

/-- **Any number of dots keeps the two together.** -/
theorem Compatible.step (h : Compatible colors lines p q) (n : Nat) :
    Compatible colors (lines ++ entered (p.dots n)) (p.step n).value.1 (q.step n).value.1 ∧
      (q.step n).value.2.vblank = (p.step n).value.2.vblank ∧
      (q.step n).value.2.hblank = (p.step n).value.2.hblank := by
  have hlcd : q.lcdOn = p.lcdOn := by
    obtain ⟨g, rfl, -⟩ := h.dressed
    rfl
  cases hon : p.lcdOn with
  | false =>
    rw [entered_dark hon, List.append_nil]
    unfold Ppu.step
    rw [hlcd, hon]
    exact ⟨h, rfl, rfl⟩
  | true =>
    induction n generalizing lines p q with
    | zero =>
      rw [step_zero, step_zero]
      exact ⟨by simpa [dots, entered] using h, rfl, rfl⟩
    | succ n ih =>
      obtain ⟨hone, hv, hb⟩ := h.dot hon
      have hnext : (p.step 1).value.1.lcdOn = true := (step_ok h.ok 1).2.lcdOn.trans hon
      have hnext' : (q.step 1).value.1.lcdOn = (p.step 1).value.1.lcdOn := by
        rw [(step_ok h.ok' 1).2.lcdOn, (step_ok h.ok 1).2.lcdOn, hlcd]
      obtain ⟨hrest, hvs, hbs⟩ := ih hone hnext' hnext
      rw [step_succ h.ok hon, step_succ h.ok' (hlcd.trans hon)]
      have hlines : lines ++ entered (p.dots (n + 1)) =
          lines ++ entered [p] ++ entered ((p.step 1).value.1.dots n) := by
        rw [List.append_assoc, ← entered_append]
        rfl
      rw [hlines]
      refine ⟨hrest, ?_, ?_⟩
      · simp only [Signals.merge, hv, hvs]
      · simp only [Signals.merge, hb, hbs]

/-! ## Accesses -/

/-- What monochrome software can do to a display, and time: the registers `FF40`–`FF4B`, the first
bank of video memory, and object memory. -/
def Operation.shared : Operation → Bool
  | .run _ | .vram _ _ | .oam _ _ | .moveOam _ _ => true
  | .port addr _ => 0xFF40 ≤ addr && addr ≤ 0xFF4B
  | .moveVram upper _ _ => !upper
  | .vramBank _ | .monochrome | .palettes _ => false

theorem Dress.writeLcdc (h : Dress colors p g) (v : UInt8) :
    ∃ g', ((p.withGuise g).writeLcdc v).value = (p.writeLcdc v).value.withGuise g' ∧
      Dress colors (p.writeLcdc v).value g' := by
  refine ⟨_, writeLcdc_guise p g v, h.follow (writeLcdc_setting p v) ?_ ?_⟩
  · cases p.switchesOff v <;> rfl
  · cases p.switchesOff v <;> rfl

/-- The registers that both models have mean the same to both. -/
theorem Dress.writeControl (h : Dress colors p g) {addr : UInt16} (hle : addr ≤ 0xFF4B) (v : UInt8) :
    ∃ g', (p.withGuise g).writeControl addr v = (p.writeControl addr v).withGuise g' ∧
      Dress colors (p.writeControl addr v) g' := by
  have hplain : ¬p.model.isColor = true := by
    rw [h.mono]
    decide
  have hother : (p.withGuise g).model.isColor = true := congrArg Model.isColor h.color
  unfold Ppu.writeControl
  obtain ⟨hmono, hout, hcolor, hvram, hbgp, hobp0, hobp1, hback, hobj⟩ := h
  split
  case h_4 =>
    rw [compareLine_eq, compareLine_eq]
    exact ⟨g, rfl, hmono, hout, hcolor, hvram, hbgp, hobp0, hobp1, hback, hobj⟩
  case h_5 =>
    exact ⟨{ g with bgp := v }, rfl, hmono, hout, hcolor, hvram, rfl, hobp0, hobp1, hback, hobj⟩
  case h_6 =>
    exact ⟨{ g with obp0 := v }, rfl, hmono, hout, hcolor, hvram, hbgp, rfl, hobp1, hback, hobj⟩
  case h_7 =>
    exact ⟨{ g with obp1 := v }, rfl, hmono, hout, hcolor, hvram, hbgp, hobp0, rfl, hback, hobj⟩
  case h_10 =>
    -- the ports that only color hardware has come later
    rw [if_pos hother, if_neg hplain]
    refine ⟨g, ?_, hmono, hout, hcolor, hvram, hbgp, hobp0, hobp1, hback, hobj⟩
    unfold writeColorPort
    split
    case h_6 => rfl
    all_goals exact absurd hle (by decide)
  all_goals exact ⟨g, rfl, hmono, hout, hcolor, hvram, hbgp, hobp0, hobp1, hback, hobj⟩

theorem Dress.setVramByte (h : Dress colors p g) (upper : Bool) (offset : Nat) (v : UInt8) :
    ∃ g', (p.withGuise g).setVramByte upper offset v = (p.setVramByte upper offset v).withGuise g' ∧
      Dress colors (p.setVramByte upper offset v) g' := by
  obtain ⟨hmono, hout, hcolor, hvram, hbgp, hobp0, hobp1, hback, hobj⟩ := h
  refine ⟨{ g with vram := g.vram.set (vramCell upper offset) v }, rfl, hmono, hout, hcolor, ?_, hbgp,
    hobp0, hobp1, hback, hobj⟩
  unfold Ppu.setVramByte
  simp only [hvram]

/-- **An access finds the counterpart where it finds the display.** -/
theorem Dress.access (h : Dress colors p g) {op : Operation} (hop : op.shared = true)
    (hrun : ∀ n, op ≠ .run n) :
    ∃ g', (p.withGuise g).perform op = (p.perform op).withGuise g' ∧
      Dress colors (p.perform op) g' := by
  cases op with
  | run n => exact absurd rfl (hrun n)
  | port addr v =>
    simp only [Operation.shared, Bool.and_eq_true, decide_eq_true_eq] at hop
    show ∃ g', ((p.withGuise g).writePort addr v).value = (p.writePort addr v).value.withGuise g' ∧
      Dress colors (p.writePort addr v).value g'
    unfold writePort
    split
    · exact h.writeLcdc v
    · exact h.writeControl hop.2 v
  | vram addr v =>
    have hset := h.setVramByte p.vramUpper addr.toNat v
    have hfree : (p.withGuise g).vramFree = p.vramFree := rfl
    show ∃ g', (p.withGuise g).writeVram addr v = (p.writeVram addr v).withGuise g' ∧
      Dress colors (p.writeVram addr v) g'
    unfold writeVram
    rw [hfree]
    split
    · exact hset
    · exact ⟨g, rfl, h⟩
  | oam addr v =>
    have hfree : (p.withGuise g).oamFree = p.oamFree := rfl
    obtain ⟨hmono, hout, hcolor, hvram, hbgp, hobp0, hobp1, hback, hobj⟩ := h
    show ∃ g', (p.withGuise g).writeOam addr v = (p.writeOam addr v).withGuise g' ∧
      Dress colors (p.writeOam addr v) g'
    unfold writeOam
    rw [hfree]
    split
    · split <;> exact ⟨g, rfl, hmono, hout, hcolor, hvram, hbgp, hobp0, hobp1, hback, hobj⟩
    · exact ⟨g, rfl, hmono, hout, hcolor, hvram, hbgp, hobp0, hobp1, hback, hobj⟩
  | moveVram upper offset v => exact h.setVramByte upper offset v
  | moveOam i v =>
    obtain ⟨hmono, hout, hcolor, hvram, hbgp, hobp0, hobp1, hback, hobj⟩ := h
    exact ⟨g, rfl, hmono, hout, hcolor, hvram, hbgp, hobp0, hobp1, hback, hobj⟩
  | vramBank | monochrome | palettes => exact absurd hop Bool.false_ne_true

/-- An access does not touch the picture, unless it switches the LCD off. -/
theorem perform_frame {op : Operation} (hrun : ∀ n, op ≠ .run n)
    (hon : (p.perform op).lcdOn = true) : (p.perform op).frame = p.frame := by
  cases op with
  | run n => exact absurd rfl (hrun n)
  | port addr v =>
    replace hon : (p.writePort addr v).value.lcdOn = true := hon
    show (p.writePort addr v).value.frame = p.frame
    unfold writePort at hon ⊢
    split at hon
    · rename_i ha
      -- LCDC touches the picture only where it switches the LCD off
      have hlcd : (p.writeLcdc v).value.lcdOn = ({ p with controls.lcdc := v } : Ppu).lcdOn := by
        obtain ⟨_, _, _, _, _, _, _, _, _, _, _, _, hq⟩ := writeLcdc_elapses p v
        rw [hq]
        rfl
      have hstays : p.switchesOff v = false := by
        unfold switchesOff
        rw [← hlcd, hon, Bool.not_true, Bool.and_false]
      rw [if_pos ha]
      have hown := congrArg Guise.frame (writeLcdc_own p v)
      rw [hstays] at hown
      exact hown
    · rename_i ha
      rw [if_neg ha]
      obtain ⟨_, _, _, _, hq, -⟩ := writeControl_eq p addr v
      rw [Logged.value_pure, hq]
  | vram addr v =>
    obtain ⟨vram, hq⟩ := writeVram_eq p addr v
    rw [perform, hq]
  | oam addr v =>
    obtain ⟨oam, hq⟩ := writeOam_eq p addr v
    rw [perform, hq]
  | vramBank | moveVram | moveOam | monochrome | palettes => rfl

/-- The lines drawn since the LCD was last switched on, after an operation; `lines` are those
before. -/
def Operation.inked (p : Ppu) (lines : List Nat) : Operation → List Nat
  | .run n => lines ++ entered (p.dots n)
  | op => if (p.perform op).lcdOn then lines else []

/-- The lines drawn since the LCD was last switched on, after any operations. -/
def inked (p : Ppu) (lines : List Nat) : List Operation → List Nat
  | [] => lines
  | op :: rest => (p.perform op).inked (op.inked p lines) rest

theorem Compatible.access (h : Compatible colors lines p q) {op : Operation} (hop : op.shared = true)
    (hrun : ∀ n, op ≠ .run n) :
    Compatible colors (if (p.perform op).lcdOn then lines else []) (p.perform op) (q.perform op) := by
  have hok := perform_ok h.ok op
  have hok' := perform_ok h.ok' op
  obtain ⟨g, hq, hg⟩ := h.dressed
  obtain ⟨g', hq', hg'⟩ := hg.access hop hrun
  rw [← hq] at hq'
  refine ⟨⟨g', hq', hg'⟩, ?_, hok.1, hok'.1⟩
  have hlcd : (q.perform op).lcdOn = (p.perform op).lcdOn := by
    rw [hq']
    rfl
  cases hon : (p.perform op).lcdOn with
  | true =>
    rw [perform_frame hrun hon, perform_frame hrun (hlcd.trans hon)]
    exact h.picture
  | false =>
    -- a dark display is blank
    have hcolor : (q.perform op).model = .color := by
      rw [hq']
      exact hg'.color
    rw [(hok.1.dark hon).frame, (hok'.1.dark (hlcd.trans hon)).frame, hg'.mono, hcolor]
    exact .dark

/-- **Every operation keeps the two together.** -/
theorem Compatible.perform (h : Compatible colors lines p q) {op : Operation}
    (hop : op.shared = true) :
    Compatible colors (op.inked p lines) (p.perform op) (q.perform op) := by
  cases op with
  | run n => exact (h.step n).1
  | port | vram | oam | moveVram | moveOam | vramBank | monochrome | palettes =>
    exact h.access hop (fun n hn => nomatch hn)

theorem Compatible.foldl (h : Compatible colors lines p q) (ops : List Operation)
    (hops : ∀ op ∈ ops, op.shared = true) :
    Compatible colors (p.inked lines ops) (ops.foldl Ppu.perform p) (ops.foldl Ppu.perform q) := by
  induction ops generalizing lines p q with
  | nil => exact h
  | cons op rest ih =>
    exact ih (h.perform (hops op (.head _))) fun op hop => hops op (.tail _ hop)

/-- A monochrome display as the boot image leaves it. -/
def monochromeStart : Ppu := ((Ppu.powerOn .mono).handOver none).value

/-- A display of color hardware as the boot image leaves it to a monochrome cartridge, with the same
four colors in its three palettes. -/
def compatibleStart (colors : Vector UInt16 4) : Ppu :=
  ((Ppu.powerOn .color).handOver (some ⟨colors, colors, colors⟩)).value

/-- What such a display shows, before it has drawn anything. -/
def compatibleGuise (colors : Vector UInt16 4) : Guise where
  model := .color
  vram := .replicate _ 0
  bgp := 0xFC
  obp0 := 0xFF
  obp1 := 0xFF
  opri := 1
  background := (PaletteRam.powerOn .color).setPalette 0 colors
  objects := ((PaletteRam.powerOn .color).setPalette 0 colors).setPalette 1 colors
  statLine := false
  extraScanEdge := false
  frame := blankFrame .color

/-- The registers as the boot image leaves them. -/
def booted (p : Ppu) : Ppu :=
  { p with
    controls.lcdc := 0x91
    controls.sources := 0
    controls.bgp := 0xFC
    controls.obp0 := 0xFF
    controls.obp1 := 0xFF }

theorem compatibleStart_eq (colors : Vector UInt16 4) :
    compatibleStart colors = monochromeStart.withGuise (compatibleGuise colors) := by
  have hmono : monochromeStart =
      { (Ppu.powerOn .mono).booted.startFrame.value with
        statLine := false, extraScanEdge := false } := rfl
  have hcolor : compatibleStart colors =
      { ((Ppu.powerOn .mono).booted.withGuise (compatibleGuise colors)).startFrame.value with
        statLine := false, extraScanEdge := false } := rfl
  rw [hmono, hcolor, startFrame_guise]
  rfl

theorem start_dressed (colors : Vector UInt16 4) :
    Dress colors monochromeStart (compatibleGuise colors) := by
  refine ⟨rfl, rfl, rfl, rfl, rfl, rfl, rfl, ?_, ?_⟩
  · intro number hn
    show ((PaletteRam.powerOn .color).setPalette 0 colors).color 0 number = _
    rw [PaletteRam.setPalette_color _ (by decide) hn, if_pos rfl]
  · intro second number hn
    show (((PaletteRam.powerOn .color).setPalette 0 colors).setPalette 1 colors).color second.toNat
      number = _
    cases second with
    | false =>
      rw [Bool.toNat_false, PaletteRam.setPalette_color _ (by decide) hn, if_neg (by decide),
        PaletteRam.setPalette_color _ (by decide) hn, if_pos rfl]
    | true =>
      rw [Bool.toNat_true, PaletteRam.setPalette_color _ (by decide) hn, if_pos rfl]

theorem start_compatible (colors : Vector UInt16 4) :
    Compatible colors [] monochromeStart (compatibleStart colors) := by
  refine ⟨⟨_, compatibleStart_eq colors, start_dressed colors⟩, ?_,
    (handOver_ok (powerOn_ok .mono) none).1,
    (handOver_ok (powerOn_ok .color) _).1⟩
  have hframe : monochromeStart.frame = blankFrame .mono := rfl
  have hframe' : (compatibleStart colors).frame = blankFrame .color := by
    rw [compatibleStart_eq]
    rfl
  rw [hframe, hframe']
  exact .dark

/-- **Displays that keep step**: the place in the frame, the phase and its length, and the blanks that
any number of dots enters. The STAT interrupt is not among them; monochrome hardware has an edge more. -/
structure InStep (p q : Ppu) : Prop where
  ly : q.ly = p.ly
  dot : q.dot = p.dot
  mode : q.mode = p.mode
  transferDots : q.transferDots = p.transferDots
  window : q.window.line = p.window.line
  frames : q.frames = p.frames
  vblank : ∀ n, (q.step n).value.2.vblank = (p.step n).value.2.vblank
  hblank : ∀ n, (q.step n).value.2.hblank = (p.step n).value.2.hblank

theorem Compatible.inStep (h : Compatible colors lines p q) : InStep p q := by
  have hsteps := h.step
  obtain ⟨g, rfl, -⟩ := h.dressed
  exact ⟨rfl, rfl, rfl, rfl, rfl, rfl, fun n => (hsteps n).2.1, fun n => (hsteps n).2.2⟩

theorem monoShade_inj {i j : Fin 4} (h : monoShade (UInt8.ofNat i) = monoShade (UInt8.ofNat j)) :
    i = j := by
  revert i j
  decide

/-- **Color hardware simulates monochrome hardware.** After any operations of monochrome software the
two displays are in step. On the lines drawn since the LCD was last switched on, every pixel of the
monochrome display is one of the four shades, and the pixel of the other display is the color that
stands for that shade. The other lines are blank on both. -/
theorem compatible_colors (colors : Vector UInt16 4) (ops : List Operation)
    (hops : ∀ op ∈ ops, op.shared = true) :
    let p := ops.foldl perform monochromeStart
    let q := ops.foldl perform (compatibleStart colors)
    InStep p q ∧
      ∀ (y : Fin screenHeight) (x : Fin screenWidth),
        (y.val ∈ monochromeStart.inked [] ops →
          (∃ i : Fin 4, (p.frame.get y).get x = monoShade (UInt8.ofNat i)) ∧
            ∀ i : Fin 4, (p.frame.get y).get x = monoShade (UInt8.ofNat i) →
              (q.frame.get y).get x = pixelOf colors[i]) ∧
        (y.val ∉ monochromeStart.inked [] ops →
          (p.frame.get y).get x = blankColor .mono ∧ (q.frame.get y).get x = blankColor .color) := by
  intro p q
  have h : Compatible colors (monochromeStart.inked [] ops) p q :=
    (start_compatible colors).foldl ops hops
  refine ⟨h.inStep, fun y x => ⟨fun hy => ?_, h.picture.blank y x⟩⟩
  obtain ⟨i, hp, hq⟩ := h.picture.drawn y x hy
  refine ⟨⟨i, hp⟩, fun j hj => ?_⟩
  have hij : i = j := monoShade_inj (hp.symm.trans hj)
  rw [← hij]
  exact hq

/-- The first line with the background scrolled, in the standard palette of the boot image. -/
theorem compatible_first_line :
    let colors : Vector UInt16 4 := #v[0x7FFF, 0x1BEF, 0x0200, 0x0000]
    let ops : List Operation := [.port 0xFF42 3, .vram 0x8000 0xFF, .run 300]
    (∀ op ∈ ops, op.shared = true) ∧ 0 ∈ monochromeStart.inked [] ops ∧
      ∀ x : Fin screenWidth, ∃ i : Fin 4,
        ((ops.foldl perform monochromeStart).frame.get 0).get x = monoShade (UInt8.ofNat i) ∧
          ((ops.foldl perform (compatibleStart colors)).frame.get 0).get x = pixelOf colors[i] := by
  intro colors ops
  have hops : ∀ op ∈ ops, op.shared = true := by decide
  have hdrawn : 0 ∈ monochromeStart.inked [] ops := by decide +kernel
  refine ⟨hops, hdrawn, fun x => ?_⟩
  obtain ⟨⟨i, hi⟩, hcolors⟩ := ((compatible_colors colors ops hops).2 0 x).1 hdrawn
  exact ⟨i, hi, hcolors i hi⟩

end Handheld.Ppu
