import Handheld.Proofs.Board.Reachable
import Handheld.Proofs.Ppu.Memories

/-!
# Monochrome hardware

The features of color hardware are spread over the board, the display and the engine for video memory.
On monochrome hardware they stay as they are at power-on, whatever is executed, pressed or inserted.

* `Ppu.Monochrome`, `Board.Monochrome`: these features, not used.
* `write_monochrome`, `cycle_monochrome`: a write and a bus cycle keep them so.
* `reachable_monochrome`: so every reachable monochrome board has them so.
* `color_unreachable`: what a program can see of that.
-/

namespace Handheld

namespace Ppu

variable {p q : Ppu}

/-- **A display whose color features are not used**: the second bank is empty and out of sight, palette
RAM is as it was at power-on, and pixels are shades. -/
structure Monochrome (p : Ppu) : Prop where
  model : p.model = .mono
  output : p.colorOutput = false
  bank : p.vramUpper = false
  upper : ∀ offset, p.vramByte true offset = 0
  background : p.background = .powerOn .mono
  objects : p.objects = .powerOn .mono
  priority : p.controls.opri = 0

theorem powerOn_monochrome : Monochrome (.powerOn .mono) where
  model := rfl
  output := rfl
  bank := rfl
  upper offset := by
    show (Vector.replicate vramSize (0 : UInt8))[vramCell true offset] = 0
    exact Vector.getElem_replicate _
  background := rfl
  objects := rfl
  priority := rfl

theorem Elapses.monochrome (h : Elapses p q) (hp : Monochrome p) : Monochrome q := by
  obtain ⟨_, _, _, _, _, _, _, _, _, _, _, _, rfl⟩ := h
  exact ⟨hp.model, hp.output, hp.bank, hp.upper, hp.background, hp.objects, hp.priority⟩

namespace Monochrome

variable (h : Monochrome p)

include h

theorem withOam (oam : Vector UInt8 oamSize) : Monochrome { p with oam } :=
  ⟨h.model, h.output, h.bank, h.upper, h.background, h.objects, h.priority⟩

theorem withControls {controls : Controls} (hc : controls.opri = 0) :
    Monochrome { p with controls } :=
  ⟨h.model, h.output, h.bank, h.upper, h.background, h.objects, hc⟩

/-- A byte of the first bank is none of the second. -/
theorem setVramByte (offset : Nat) (v : UInt8) : Monochrome (p.setVramByte false offset v) where
  model := h.model
  output := h.output
  bank := h.bank
  upper other := by
    have hne : vramCell true other ≠ vramCell false offset := by
      rw [ne_eq, vramCell, vramCell, Fin.mk.injEq, Bool.toNat_true, Bool.toNat_false]
      omega
    exact (Ppu.setVramByte_other p false offset v hne).trans (h.upper other)
  background := h.background
  objects := h.objects
  priority := h.priority

theorem writeVram (addr : UInt16) (v : UInt8) : Monochrome (p.writeVram addr v) := by
  unfold Ppu.writeVram
  split
  · rw [h.bank]
    exact h.setVramByte addr.toNat v
  · exact h

theorem writeOam (addr : UInt16) (v : UInt8) : Monochrome (p.writeOam addr v) := by
  obtain ⟨oam, hq⟩ := writeOam_eq p addr v
  rw [hq]
  exact h.withOam oam

theorem writeControl (addr : UInt16) (v : UInt8) : Monochrome (p.writeControl addr v) := by
  have hplain : p.model.isColor = false := by
    rw [h.model]
    rfl
  unfold Ppu.writeControl
  split
  case h_4 => exact (compareLine_elapses _).monochrome (h.withControls h.priority)
  case h_10 =>
    rw [hplain]
    exact h
  all_goals exact h.withControls h.priority

theorem writePort (addr : UInt16) (v : UInt8) : Monochrome (p.writePort addr v).value := by
  unfold Ppu.writePort
  split
  · exact (writeLcdc_elapses p v).monochrome (h.withControls h.priority)
  · exact h.writeControl addr v

/-- Monochrome hardware has no use for the palettes of a cartridge. -/
theorem handOver (palettes : Option BootPalettes) : Monochrome (p.handOver palettes).value := by
  have hscan (q : Ppu) :
      Elapses q { q.startFrame.value with statLine := false, extraScanEdge := false } :=
    (startFrame_elapses q).trans ⟨_, _, _, _, _, _, _, _, _, _, _, _, rfl⟩
  unfold Ppu.handOver
  simp only [Logged.value_bind, Logged.value_pure]
  split
  · rename_i hcolor
    exact absurd (h.model.symm.trans hcolor) (by decide)
  · exact (hscan _).monochrome (h.withControls h.priority)

end Monochrome

end Ppu

namespace Board

variable {b d : Board}

/-- **A board whose color features are not used.** -/
structure Monochrome (b : Board) : Prop where
  model : b.model = .mono
  display : b.ppu.Monochrome
  bank : b.wramBank = 1
  speed : b.doubleSpeed = false
  armed : b.speedArmed = false
  idle : b.vramDma.active = false
  free : b.stall = 0

/-- The devices that monochrome hardware does not have. -/
def colorPorts : List Port := [.outputMode, .speed, .vramBank, .vramDma, .workRamBank]

theorem port_mono (addr : UInt16) : Port.of .mono addr ∉ colorPorts := by
  unfold Port.of
  split
  case h_11 =>
    refine iteInduction (motive := (· ∉ colorPorts)) (fun _ => by decide) fun _ => ?_
    refine iteInduction (motive := (· ∉ colorPorts)) (fun _ => by decide) fun _ => ?_
    show Port.unmapped ∉ colorPorts
    decide
  all_goals decide

/-- From `FF4C` on there is one port only, by which the boot image goes. -/
theorem port_mono_unmapped {addr : UInt16} (hlow : 0xFF4C ≤ addr) (hboot : addr ≠ 0xFF50) :
    Port.of .mono addr = .unmapped := by
  have hne {a : UInt16} (ha : a < 0xFF4C) : addr ≠ a := by
    intro h
    rw [h] at hlow
    exact UInt16.not_lt.2 hlow ha
  have hsound : ¬ (0xFF10 ≤ addr ∧ addr ≤ 0xFF3F) := fun h =>
    UInt16.not_lt.2 (UInt16.le_trans hlow h.2) (by decide)
  have hdisplay : ¬ (0xFF40 ≤ addr ∧ addr ≤ 0xFF4B) := fun h =>
    UInt16.not_lt.2 (UInt16.le_trans hlow h.2) (by decide)
  unfold Port.of
  split
  case h_10 => exact hboot.elim rfl
  case h_11 => rw [if_neg hsound, if_neg hdisplay]; rfl
  all_goals exact absurd rfl (hne (by decide))

theorem afterDots_monochrome (h : Monochrome b) : Monochrome b.afterDots := by
  obtain ⟨_, _, _, _, _, hb⟩ := b.beforeDisplay_eq
  have hbefore : Monochrome b.beforeDisplay := by
    rw [hb]
    exact ⟨h.model, h.display.withOam _, h.bank, h.speed, h.armed, h.idle, h.free⟩
  have hdots := (Ppu.step_elapses b.beforeDisplay.ppu b.cycleDots).monochrome hbefore.display
  exact ⟨hbefore.model, hdots, hbefore.bank, hbefore.speed, hbefore.armed, hbefore.idle,
    hbefore.free⟩

/-- **A bus cycle moves no block.** -/
theorem cycle_monochrome (h : Monochrome b) : Monochrome b.cycle.value := by
  have hdots := afterDots_monochrome h
  have hidle : ¬ b.afterDots.vramDma.active = true := by
    rw [hdots.idle]
    exact Bool.false_ne_true
  rw [cycle_value, enterHBlank, if_neg hidle]
  split
  · exact hdots
  · exact hdots

/-- **Nothing holds the CPU**: a tick is one bus cycle. -/
theorem tick_monochrome (h : Monochrome b) : (tick b).value = (4, b.cycle.value) := by
  have hcycle := cycle_monochrome h
  have hfree : (Progress.cycle ⟨b, 0, []⟩).board.stall = 0 := hcycle.free
  have hdots : (Progress.cycle ⟨b, 0, []⟩).dots = 4 := by
    show 0 + b.cycleDots = 4
    rw [cycleDots, h.speed]
    rfl
  show ((drain (Progress.cycle ⟨b, 0, []⟩)).dots, (drain (Progress.cycle ⟨b, 0, []⟩)).board) = _
  rw [drain_free hfree, hdots]
  rfl

theorem writePort_monochrome (h : Monochrome b) (addr : UInt16) (v : UInt8) :
    Monochrome (b.writePort addr v).value := by
  have hport : Port.of b.model addr ∉ colorPorts := by
    rw [h.model]
    exact port_mono addr
  unfold writePort
  -- the devices of color hardware are not there, and the others reach no color feature
  cases hp : Port.of b.model addr with
  | outputMode | speed | vramBank | vramDma | workRamBank =>
    rw [hp] at hport
    exact absurd hport (by decide)
  | display =>
    exact ⟨h.model, h.display.writePort addr v, h.bank, h.speed, h.armed, h.idle, h.free⟩
  | _ => exact ⟨h.model, h.display, h.bank, h.speed, h.armed, h.idle, h.free⟩

/-- **No write reaches a color feature.** -/
theorem write_monochrome (h : Monochrome b) (addr : UInt16) (v : UInt8) :
    Monochrome (b.write addr v).value := by
  have hdisplay {ppu : Ppu} (hp : ppu.Monochrome) : Monochrome { b with ppu } :=
    ⟨h.model, hp, h.bank, h.speed, h.armed, h.idle, h.free⟩
  unfold write
  cases Region.of addr with
  | port => exact writePort_monochrome h addr v
  | vram => exact hdisplay (h.display.writeVram addr v)
  | oam =>
    simp only [writeOam]
    split
    · exact h
    · exact hdisplay (h.display.writeOam addr v)
  | _ => exact ⟨h.model, h.display, h.bank, h.speed, h.armed, h.idle, h.free⟩

/-- There is one speed only. -/
theorem switchSpeed_monochrome (h : Monochrome b) : b.switchSpeed = pure (false, b) := by
  rw [switchSpeed, h.model]
  rfl

theorem perform_monochrome (h : Monochrome b) (e : Deed) : Monochrome (e.perform b) := by
  cases e with
  | read | setInterrupts | clearDivider =>
    exact ⟨h.model, h.display, h.bank, h.speed, h.armed, h.idle, h.free⟩
  | write addr v => exact write_monochrome h addr v
  | tick =>
    have htick : Deed.tick.perform b = b.cycle.value := congrArg Prod.snd (tick_monochrome h)
    rw [htick]
    exact cycle_monochrome h
  | switchSpeed =>
    have hswitch : Deed.switchSpeed.perform b = b :=
      congrArg (·.value.2) (switchSpeed_monochrome h)
    rw [hswitch]
    exact h

/-- **Every reachable monochrome board uses no color feature.** -/
theorem reachable_monochrome (h : Reachable b) (hmodel : b.model = .mono) : Monochrome b := by
  induction h with
  | powerOn model =>
    subst hmodel
    exact ⟨rfl, Ppu.powerOn_monochrome, rfl, rfl, rfl, rfl, rfl⟩
  | afterBoot model palettes =>
    have hmono : model = .mono := hmodel
    subst hmono
    exact ⟨rfl, Ppu.powerOn_monochrome.handOver palettes, rfl, rfl, rfl, rfl, rfl⟩
  | insert _ _ ih | mapBoot _ _ ih | setButton _ _ _ ih =>
    have h := ih hmodel
    exact ⟨h.model, h.display, h.bank, h.speed, h.armed, h.idle, h.free⟩
  | @perform b _ e ih =>
    have hsame : (e.perform b).model = b.model := congrArg Prod.fst (perform_plate b e)
    exact perform_monochrome (ih (hsame.symm.trans hmodel)) e

/-- **A write to a port that is not there changes nothing.** -/
theorem write_missing (h : b.model = .mono) {addr : UInt16} (hlow : 0xFF4C ≤ addr)
    (hhigh : addr ≤ 0xFF7F) (hboot : addr ≠ 0xFF50) (v : UInt8) : b.write addr v = pure b := by
  have hregion := region_port (UInt16.le_trans (by decide) hlow) hhigh
  simp only [write, hregion, writePort, h, port_mono_unmapped hlow hboot]

/-- All lines stay high, also where the boot image goes. -/
theorem read_missing (h : b.model = .mono) {addr : UInt16} (hlow : 0xFF4C ≤ addr)
    (hhigh : addr ≤ 0xFF7F) : b.read addr = 0xFF := by
  have hregion := region_port (UInt16.le_trans (by decide) hlow) hhigh
  simp only [read, hregion, readPort, h]
  by_cases hboot : addr = 0xFF50
  · subst hboot
    rfl
  · rw [port_mono_unmapped hlow hboot]

/-- **Monochrome hardware cannot reach the features of color hardware.** On every reachable monochrome
board the first bank of video memory and bank 1 of work RAM are selected, the second bank of video
memory and palette RAM hold zeros, object priority is 0, color output is off, no transfer into video
memory goes on, the speed is normal and cannot be switched, and nothing holds the CPU, so that every
tick takes four dots. All addresses from `FF4C` to `FF7F` read as `FF`, and a write to them, other than
the one by which the boot image goes, changes nothing. -/
theorem color_unreachable (h : Reachable b) (hmodel : b.model = .mono) :
    b.ppu.vramUpper = false ∧ b.wramBank = 1 ∧
    (∀ offset, b.ppu.vramByte true offset = 0) ∧
    b.ppu.background.cells = .replicate 0x40 0 ∧ b.ppu.objects.cells = .replicate 0x40 0 ∧
    b.ppu.controls.opri = 0 ∧ b.ppu.colorOutput = false ∧ b.vramDma.active = false ∧
    b.doubleSpeed = false ∧ b.switchSpeed = pure (false, b) ∧
    b.stall = 0 ∧ (tick b).value.1 = 4 ∧
    ∀ addr : UInt16, 0xFF4C ≤ addr → addr ≤ 0xFF7F →
      b.read addr = 0xFF ∧ (addr ≠ 0xFF50 → ∀ v, b.write addr v = pure b) := by
  have hb := reachable_monochrome h hmodel
  have hbackground := congrArg Ppu.PaletteRam.cells hb.display.background
  have hobjects := congrArg Ppu.PaletteRam.cells hb.display.objects
  have htick := congrArg Prod.fst (tick_monochrome hb)
  refine ⟨hb.display.bank, hb.bank, hb.display.upper, hbackground, hobjects, hb.display.priority,
    hb.display.output, hb.idle, hb.speed, switchSpeed_monochrome hb, hb.free, htick, ?_⟩
  intro addr hlow hhigh
  exact ⟨read_missing hmodel hlow hhigh, fun hboot v => write_missing hmodel hlow hhigh hboot v⟩

/-- A monochrome board after a program has asked for the second bank, a transfer and the other speed. -/
def askedForColor : Board :=
  (powerOn .mono).after
    [.write 0xFF4F 1, .write 0x8000 0x12, .write 0xFF55 0x80, .write 0xFF4D 1, .switchSpeed]

theorem color_unreachable_asked : Reachable askedForColor ∧ askedForColor.model = .mono ∧
    askedForColor.ppu.vramByte true 0 = 0 ∧ askedForColor.vramDma.active = false ∧
    (tick askedForColor).value.1 = 4 ∧ askedForColor.read 0xFF4D = 0xFF := by
  have hreach : Reachable askedForColor := (Reachable.powerOn .mono).after _
  have hplate : askedForColor.plate = (powerOn .mono).plate := after_plate _ _
  have hmodel : askedForColor.model = .mono := congrArg Prod.fst hplate
  obtain ⟨-, -, hupper, -, -, -, -, hidle, -, -, -, htick, hports⟩ :=
    color_unreachable hreach hmodel
  have hread := (hports 0xFF4D (by decide) (by decide)).1
  exact ⟨hreach, hmodel, hupper 0, hidle, htick, hread⟩

end Board

end Handheld
