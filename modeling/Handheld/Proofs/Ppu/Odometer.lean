import Mathlib.Tactic.SplitIfs
import Handheld.Proofs.Ppu.Reel

/-!
# Dots that pass on a display

While time passes the transfer engines store bytes in the display's memories. Neither its place nor
its count of frames depends on them: a lit display counts every dot, a dark one stands still.

* `Passes`: the displays that dots and stores in between lead to.
* `odometer`: all dots since a vertical blank began for the first time, read off the display.
* `Passes.lit`, `Passes.dark`: what the passing of dots does.
* `lcdOff_notMem_step`: the passing of dots does not switch the LCD off.
* `progress`: visible dots since power-on, which no write brings forward; `Passes.progress`.
* `Access`: what the CPU does to a display in between; `Access.rests`, `Access.tellsTime`.
-/

namespace Handheld.Ppu

variable {p q r : Ppu} {m n : Nat}

/-- `n` dots lead from `p` to `q`, with stores into the memories in between. -/
inductive Passes : Nat → Ppu → Ppu → Prop
  | start (p : Ppu) : Passes 0 p p
  | dots {n : Nat} {p q : Ppu} (h : Passes n p q) (k : Nat) : Passes (n + k) p (q.step k).value.1
  | store {n : Nat} {p q : Ppu} (h : Passes n p q) (vram : Vector UInt8 vramSize)
      (oam : Vector UInt8 oamSize) : Passes n p { q with vram, oam }

theorem Passes.trans (h : Passes m p q) (h' : Passes n q r) : Passes (m + n) p r := by
  induction h' with
  | start => exact h
  | dots _ k ih =>
    rw [← Nat.add_assoc]
    exact (ih h).dots k
  | store _ vram oam ih => exact (ih h).store vram oam

/-- The dots that a lit display has counted: its frames, and its place since the vertical blank with
which the last of them was counted. -/
def odometer (p : Ppu) : Nat :=
  p.frames * dotsPerFrame + (p.position + (dotsPerFrame - visibleDots)) % dotsPerFrame

/-- A dot is one more, wherever in the frame it falls. -/
theorem Onward.odometer {vblank : Bool} (h : Onward p q vblank) : q.odometer = p.odometer + 1 := by
  have hplace := h.position
  rw [dotsPerFrame_eq] at hplace
  unfold Ppu.odometer
  rw [h.counted, dotsPerFrame_eq, visibleDots_eq]
  split <;> omega

theorem tick_odometer (h : PhaseOK p) (hon : p.lcdOn = true) :
    p.tick.value.1.odometer = p.odometer + 1 := by
  obtain ⟨_, ho⟩ := tick_onward h hon
  exact ho.odometer

/-- **What every dot of a lit display keeps, any number of dots keep.** -/
theorem step_along {P : Nat → Ppu → Prop}
    (hdot : ∀ n p, PhaseOK p → p.lcdOn = true → P n p → P (n + 1) p.tick.value.1)
    (h : PhaseOK p) (hon : p.lcdOn = true) (hp : P n p) (k : Nat) :
    P (n + k) (p.step k).value.1 := by
  induction k generalizing p n with
  | zero => rwa [step_zero]
  | succ k ih =>
    obtain ⟨hok, hsame⟩ := step_ok h 1
    have hnext := hdot n p h hon hp
    rw [← step_one hon] at hnext
    rw [step_succ h hon, Nat.add_comm k, ← Nat.add_assoc]
    exact ih hok (hsame.lcdOn.trans hon) hnext

/-- What dots and stores keep, the passing of dots keeps. -/
theorem Passes.along {P : Nat → Ppu → Prop}
    (hdot : ∀ n p, PhaseOK p → p.lcdOn = true → P n p → P (n + 1) p.tick.value.1)
    (hstore : ∀ n p vram oam, P n p → P n { p with vram, oam })
    (h : Passes n p q) (hok : PhaseOK p) (hon : p.lcdOn = true) (hp : P 0 p) :
    PhaseOK q ∧ q.lcdOn = true ∧ P n q := by
  induction h with
  | start => exact ⟨hok, hon, hp⟩
  | dots _ k ih =>
    obtain ⟨hq, hlit, hpq⟩ := ih hok hon hp
    obtain ⟨hstep, hsame⟩ := step_ok hq k
    exact ⟨hstep, hsame.lcdOn.trans hlit, step_along hdot hq hlit hpq k⟩
  | store _ vram oam ih =>
    obtain ⟨hq, hlit, hpq⟩ := ih hok hon hp
    exact ⟨hq.withMemories .., hlit, hstore _ _ vram oam hpq⟩

/-- **A lit display counts every dot that passes.** -/
theorem Passes.lit (h : Passes n p q) (hok : PhaseOK p) (hon : p.lcdOn = true) :
    PhaseOK q ∧ q.lcdOn = true ∧ q.odometer = p.odometer + n := by
  refine h.along (P := fun n q => q.odometer = p.odometer + n) ?_ ?_ hok hon (Nat.add_zero _).symm
  · intro n q hq hlit hcount
    rw [tick_odometer hq hlit, hcount, Nat.add_assoc]
  · intro n q vram oam hcount
    exact hcount

/-- **A dark display stands still**; only its memories take stores. -/
theorem Passes.dark (h : Passes n p q) (hoff : p.lcdOn = false) :
    ∃ vram oam, q = { p with vram, oam } := by
  induction h with
  | start p => exact ⟨p.vram, p.oam, rfl⟩
  | @dots n p q _ k ih =>
    obtain ⟨vram, oam, rfl⟩ := ih hoff
    have hstill : (({ p with vram, oam } : Ppu).step k).value.1 = { p with vram, oam } := by
      have hdark : ({ p with vram, oam } : Ppu).lcdOn = false := hoff
      unfold Ppu.step
      rw [hdark]
      rfl
    exact ⟨vram, oam, hstill⟩
  | store _ vram oam ih =>
    obtain ⟨_, _, rfl⟩ := ih hoff
    exact ⟨vram, oam, rfl⟩

/-- Dots report the phases that they begin; the LCD is switched by writes alone. -/
theorem lcdOff_notMem_setMode (p : Ppu) (mode : Mode) : .lcdOff ∉ (p.setMode mode).events := by
  simp [setMode]

theorem lcdOff_notMem_advancePhase (p : Ppu) : .lcdOff ∉ p.advancePhase.events := by
  unfold advancePhase
  cases p.mode with
  | oamScan =>
    dsimp only
    split
    · exact lcdOff_notMem_setMode _ .transfer
    · exact List.not_mem_nil
  | transfer =>
    dsimp only
    split
    · exact lcdOff_notMem_setMode _ .hblank
    · exact List.not_mem_nil
  | hblank | vblank => exact List.not_mem_nil

theorem lcdOff_notMem_nextLine (p : Ppu) : .lcdOff ∉ p.nextLine.events := by
  unfold nextLine beginVBlank startFrame beginScan
  dsimp only
  split_ifs <;> simp [setMode]

theorem lcdOff_notMem_tick (p : Ppu) : .lcdOff ∉ p.tick.events := by
  have hphase := lcdOff_notMem_advancePhase { p with dot := p.dot + 1 }
  have hline := lcdOff_notMem_nextLine ({ p with dot := p.dot + 1 } : Ppu).advancePhase.value.1
  unfold tick
  simp only [Logged.events_bind, List.mem_append, not_or]
  refine ⟨hphase, ?_⟩
  split
  · exact hline
  · exact List.not_mem_nil

theorem lcdOff_notMem_run (n : Nat) {r : Logged (Ppu × Signals)} (h : .lcdOff ∉ r.events) :
    .lcdOff ∉ (run n r).events := by
  induction n generalizing r with
  | zero => exact h
  | succ n ih =>
    refine ih ?_
    simp only [Logged.events_bind, Logged.events_pure, List.append_nil, List.mem_append, not_or]
    exact ⟨h, lcdOff_notMem_tick _⟩

/-- **No number of dots switches the LCD off.** -/
theorem lcdOff_notMem_step (p : Ppu) (n : Nat) : .lcdOff ∉ (p.step n).events := by
  unfold step
  split
  · exact lcdOff_notMem_run n List.not_mem_nil
  · exact List.not_mem_nil

/-- The visible dots that the display has come through since power-on, as its frames and its place
tell: within the vertical blank they rest. -/
def progress (p : Ppu) : Nat :=
  p.frames * visibleDots + if p.position < visibleDots then p.position else 0

theorem progress_bounds (p : Ppu) :
    p.frames * visibleDots ≤ p.progress ∧ p.progress < (p.frames + 1) * visibleDots := by
  unfold progress
  rw [visibleDots_eq]
  split <;> omega

/-- A dot brings it one further at most. -/
theorem Onward.progress {vblank : Bool} (h : Onward p q vblank) : q.progress ≤ p.progress + 1 := by
  have hplace := h.position
  rw [dotsPerFrame_eq] at hplace
  unfold Ppu.progress
  rw [h.counted, visibleDots_eq]
  split_ifs <;> omega

/-- **Dots bring a display as many visible dots further at most**, and take back no frame. -/
theorem Passes.progress (h : Passes n p q) (hok : PhaseOK p) :
    q.progress ≤ p.progress + n ∧ p.frames ≤ q.frames := by
  cases hon : p.lcdOn with
  | false =>
    obtain ⟨vram, oam, rfl⟩ := h.dark hon
    exact ⟨Nat.le_add_right _ _, Nat.le_refl _⟩
  | true =>
    refine (h.along (P := fun n q => q.progress ≤ p.progress + n ∧ p.frames ≤ q.frames)
      ?_ ?_ hok hon ⟨Nat.le_add_right _ _, Nat.le_refl _⟩).2.2
    · rintro n q hq hlit ⟨hprogress, hframes⟩
      obtain ⟨vblank, ho⟩ := tick_onward hq hlit
      have hone := ho.progress
      have hcount := ho.frames
      omega
    · rintro n q vram oam hkept
      exact hkept

/-- The display is left where it is or sent back to the start of its frame. -/
def Rests (p q : Ppu) : Prop :=
  q.frames = p.frames ∧ (q.position = p.position ∨ q.position = 0)

theorem Rests.progress (h : Rests p q) : q.progress ≤ p.progress := by
  obtain ⟨hframes, hplace⟩ := h
  unfold Ppu.progress
  rw [hframes, visibleDots_eq]
  rcases hplace with hplace | hplace
  · exact Nat.le_of_eq (by rw [hplace])
  · rw [hplace]
    split <;> split <;> omega

theorem writeLcdc_rests (p : Ppu) (v : UInt8) : Rests p (p.writeLcdc v).value := by
  obtain ⟨hplace, hframes⟩ := startFrame_place { p with controls.lcdc := v }
  unfold writeLcdc
  dsimp only
  split
  · have hstart : ({ p with controls.lcdc := v } : Ppu).switchOff.value.position = 0 := by
      simp [position_eq, switchOff]
    exact ⟨rfl, .inr hstart⟩
  · exact ⟨hframes, .inr hplace⟩
  · exact ⟨rfl, .inl rfl⟩

theorem writePort_rests (p : Ppu) (addr : UInt16) (v : UInt8) :
    Rests p (p.writePort addr v).value := by
  unfold writePort
  split
  · exact writeLcdc_rests p v
  · obtain ⟨controls, coincidence, background, objects, hq, -⟩ := writeControl_eq p addr v
    rw [Logged.value_pure, hq]
    exact ⟨rfl, .inl rfl⟩

/-- A display that stands at the start of a frame has come through its frames so far. -/
theorem synced_of_start (h : PhaseOK p) (hon : p.lcdOn = true) (hplace : p.position = 0) :
    Synced (p.frames * dotsPerFrame) p := by
  refine ⟨h, hon, ?_, ?_⟩
  · rw [hplace, Nat.mul_mod_left]
  · rw [dotsPerFrame_eq, visibleDots_eq]
    omega

/-- If the display is lit, it tells the time since some moment. -/
def TellsTime (p : Ppu) : Prop := p.lcdOn = true → ∃ c, Synced c p

theorem writeLcdc_lcdOn (p : Ppu) (v : UInt8) :
    (p.writeLcdc v).value.lcdOn = (v &&& 0x80 != 0) := by
  have hv := lcdOn_withLcdc p v
  unfold writeLcdc
  dsimp only
  split
  · exact hv
  · exact (startFrame_same _).lcdOn.trans hv
  · exact hv

/-- Switching a dark display on starts a frame. -/
theorem writeLcdc_position {v : UInt8} (hoff : p.lcdOn = false)
    (hon : (p.writeLcdc v).value.lcdOn = true) : (p.writeLcdc v).value.position = 0 := by
  have hv := lcdOn_withLcdc p v
  rw [writeLcdc_lcdOn] at hon
  unfold writeLcdc
  dsimp only
  rw [hoff, hv, hon]
  exact (startFrame_place _).1

theorem writeLcdc_tellsTime (hok : PhaseOK p) (h : p.TellsTime) (v : UInt8) :
    (p.writeLcdc v).value.TellsTime := by
  intro hon
  cases hp : p.lcdOn with
  | true =>
    obtain ⟨c, hc⟩ := h hp
    have hkept : .lcdOff ∉ (p.writeLcdc v).events := by
      rw [lcdOff_reported]
      rintro ⟨-, hv⟩
      rw [writeLcdc_lcdOn, hv] at hon
      cases hon
    exact ⟨c, hc.writeLcdc hkept⟩
  | false =>
    exact ⟨_, synced_of_start (writeLcdc_ok hok v).1 hon (writeLcdc_position hp hon)⟩

theorem writePort_tellsTime (hok : PhaseOK p) (h : p.TellsTime) (addr : UInt16) (v : UInt8) :
    (p.writePort addr v).value.TellsTime := by
  intro hon
  unfold writePort at hon ⊢
  split
  · rename_i haddr
    rw [if_pos haddr] at hon
    exact writeLcdc_tellsTime hok h v hon
  · rename_i haddr
    rw [if_neg haddr] at hon
    -- no other register switches the LCD
    obtain ⟨controls, coincidence, background, objects, hq, hlcdc⟩ := writeControl_eq p addr v
    have hsame : (p.writeControl addr v).lcdOn = p.lcdOn := by
      rw [hq]
      unfold lcdOn Controls.lcdOn
      rw [hlcdc]
    obtain ⟨c, hc⟩ := h (hsame.symm.trans hon)
    exact ⟨c, hc.writeControl addr v⟩

/-- **What an access does to the display**: it changes memories or drawing options, or writes a
register. -/
inductive Access (p : Ppu) : Ppu → Prop
  | memories (colorOutput : Bool) (vram : Vector UInt8 vramSize) (vramUpper : Bool)
      (oam : Vector UInt8 oamSize) (background objects : PaletteRam) :
      Access p { p with colorOutput, vram, vramUpper, oam, background, objects }
  | port (addr : UInt16) (v : UInt8) : Access p (p.writePort addr v).value

theorem Access.refl (p : Ppu) : Access p p :=
  .memories p.colorOutput p.vram p.vramUpper p.oam p.background p.objects

theorem Access.rests (h : Access p q) : Rests p q := by
  cases h with
  | memories => exact ⟨rfl, .inl rfl⟩
  | port addr v => exact writePort_rests p addr v

theorem Access.tellsTime (h : Access p q) (hok : PhaseOK p) (htime : p.TellsTime) :
    q.TellsTime := by
  cases h with
  | memories =>
    intro hon
    obtain ⟨c, hc⟩ := htime hon
    exact ⟨c, hc.withMemories ..⟩
  | port addr v => exact writePort_tellsTime hok htime addr v

end Handheld.Ppu
