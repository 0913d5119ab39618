import Handheld.Proofs.Ppu.Phase

/-!
# The memories of the display

The display reads its memories and its registers and never writes them. They change by the accesses of
the CPU and of the transfer engines only.

* `step_elapses`: dots move the scan along and draw; nothing else changes.
* `step_memories`, `writePort_memories`: dots leave the memories alone, and so do the registers.
* `setVramByte_same`, `setVramByte_other`: an access changes one byte.
-/

namespace Handheld.Ppu

variable {p q r : Ppu}

/-- **Time moves the scan only**: the displays that dots can lead to from `p`. -/
def Elapses (p q : Ppu) : Prop :=
  ∃ ly dot mode transferDots coincidence window sprites spriteHeight statLine extraScanEdge frames
      frame,
    q = { p with
      ly, dot, mode, transferDots, coincidence, window, sprites, spriteHeight, statLine,
      extraScanEdge, frames, frame }

theorem Elapses.refl (p : Ppu) : Elapses p p := ⟨_, _, _, _, _, _, _, _, _, _, _, _, rfl⟩

theorem Elapses.trans (h : Elapses p q) (h' : Elapses q r) : Elapses p r := by
  obtain ⟨_, _, _, _, _, _, _, _, _, _, _, _, rfl⟩ := h
  obtain ⟨_, _, _, _, _, _, _, _, _, _, _, _, rfl⟩ := h'
  exact ⟨_, _, _, _, _, _, _, _, _, _, _, _, rfl⟩

theorem compareLine_elapses (p : Ppu) : Elapses p p.compareLine := by
  rw [compareLine_eq]
  exact ⟨_, _, _, _, _, _, _, _, _, _, _, _, rfl⟩

theorem startFrame_elapses (p : Ppu) : Elapses p p.startFrame.value := by
  rw [startFrame, compareLine_eq]
  exact ⟨_, _, _, _, _, _, _, _, _, _, _, _, rfl⟩

theorem advancePhase_elapses (p : Ppu) : Elapses p p.advancePhase.value.1 := by
  have htransfer : Elapses p p.beginTransfer.value := ⟨_, _, _, _, _, _, _, _, _, _, _, _, rfl⟩
  have hhblank : Elapses p p.beginHBlank.value := by
    obtain ⟨frame, line, hq⟩ := drawLine_eq p
    rw [beginHBlank, hq]
    exact ⟨_, _, _, _, _, _, _, _, _, _, _, _, rfl⟩
  unfold advancePhase
  split
  · split
    · exact htransfer
    · exact .refl p
  · split
    · exact hhblank
    · exact .refl p
  · exact .refl p
  · exact .refl p

theorem nextLine_elapses (p : Ppu) : Elapses p p.nextLine.value.1 := by
  have hrow : Elapses p p.nextRow := ⟨_, _, _, _, _, _, _, _, _, _, _, _, rfl⟩
  have hscan : Elapses p p.nextRow.beginScan.value := ⟨_, _, _, _, _, _, _, _, _, _, _, _, rfl⟩
  have hvblank : Elapses p p.nextRow.beginVBlank.value := ⟨_, _, _, _, _, _, _, _, _, _, _, _, rfl⟩
  rw [nextLine_value]
  split
  · exact hvblank.trans (compareLine_elapses _)
  · split
    · exact hrow.trans (startFrame_elapses _)
    · split
      · exact hscan.trans (compareLine_elapses _)
      · exact hrow.trans (compareLine_elapses _)

theorem tick_elapses (p : Ppu) : Elapses p p.tick.value.1 := by
  have hdot : Elapses p p.nextDot := ⟨_, _, _, _, _, _, _, _, _, _, _, _, rfl⟩
  have hphase : Elapses p p.nextDot.advancePhase.value.1 := hdot.trans (advancePhase_elapses _)
  have hstat (q : Ppu) : Elapses q q.updateStat.1 := ⟨_, _, _, _, _, _, _, _, _, _, _, _, rfl⟩
  rw [tick_eq, Logged.value_bind]
  split
  · exact (hphase.trans (nextLine_elapses _)).trans (hstat _)
  · exact hphase.trans (hstat _)

/-- **Dots move the scan and nothing else.** -/
theorem step_elapses (p : Ppu) (n : Nat) : Elapses p (p.step n).value.1 := by
  unfold step
  split
  · exact run_keeps (P := Elapses p) (fun q hq => hq.trans (tick_elapses q)) n (pure (p, {}))
      (.refl p)
  · exact .refl p

/-- A write to LCDC stores it; the rest is the scan that it stops or starts. -/
theorem writeLcdc_elapses (p : Ppu) (v : UInt8) :
    Elapses { p with controls.lcdc := v } (p.writeLcdc v).value := by
  unfold writeLcdc
  simp only
  split
  · exact ⟨_, _, _, _, _, _, _, _, _, _, _, _, rfl⟩
  · exact startFrame_elapses { p with controls.lcdc := v }
  · exact .refl _

/-- Video memory, the bank that is selected in it, and object memory. -/
def memories (p : Ppu) : Vector UInt8 vramSize × Bool × Vector UInt8 oamSize :=
  (p.vram, p.vramUpper, p.oam)

theorem Elapses.memories_eq (h : Elapses p q) : q.memories = p.memories := by
  obtain ⟨_, _, _, _, _, _, _, _, _, _, _, _, rfl⟩ := h
  rfl

/-- **Dots leave the memories alone.** -/
theorem step_memories (p : Ppu) (n : Nat) : (p.step n).value.1.memories = p.memories :=
  (step_elapses p n).memories_eq

/-- **The registers leave the memories alone.** -/
theorem writePort_memories (p : Ppu) (addr : UInt16) (v : UInt8) :
    (p.writePort addr v).value.memories = p.memories := by
  unfold writePort
  split
  · exact (writeLcdc_elapses p v).memories_eq
  · obtain ⟨controls, coincidence, background, objects, hq, -⟩ := writeControl_eq p addr v
    rw [hq]
    rfl

section

variable (p : Ppu) (upper : Bool) (offset : Nat) (i : Fin oamSize) (v : UInt8)

theorem setVramByte_same : (p.setVramByte upper offset v).vram.get (vramCell upper offset) = v :=
  Vector.getElem_set_self ..

theorem setVramByte_other {cell : Fin vramSize} (h : cell ≠ vramCell upper offset) :
    (p.setVramByte upper offset v).vram.get cell = p.vram.get cell :=
  Vector.getElem_set_ne (vramCell upper offset).isLt cell.isLt fun he => h (Fin.ext he.symm)

theorem setOamByte_same : (p.setOamByte i v).oam.get i = v :=
  Vector.getElem_set_self ..

theorem setOamByte_other {j : Fin oamSize} (h : j ≠ i) :
    (p.setOamByte i v).oam.get j = p.oam.get j :=
  Vector.getElem_set_ne i.isLt j.isLt fun he => h (Fin.ext he.symm)

end

end Handheld.Ppu
