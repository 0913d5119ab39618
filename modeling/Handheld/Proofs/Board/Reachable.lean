import Handheld.Proofs.Board.Cycles

/-!
# Reachable boards

What holds of every board that can come up, whatever is inserted, pressed or executed.

* `Board.Reachable`: the boards that any sequence of operations leads to.
* `Steady`: the display is in the phase of its place, and blocks land where blocks can.
* `cycle_steady`, `perform_steady`: a bus cycle and every operation of the CPU keep both.
* `reachable_steady`: so every reachable board has them.
-/

namespace Handheld

open Ppu (PhaseOK)

namespace VramDma

theorem or_8000 {n : Nat} (h : n < 0x8000) : 0x8000 ||| n = 0x8000 + n :=
  (Nat.two_pow_add_eq_or_of_lt (i := 15) h 1).symm

/-- An aligned target is a multiple of 16 within video memory. -/
theorem alignTarget_toNat (a : UInt16) :
    (alignTarget a).toNat = 0x8000 + a.toNat / 16 % 512 * 16 := by
  have hmask : a.toNat &&& 0x1FF0 = a.toNat / 16 % 512 * 16 := by
    have hones : (0x1FF0 : Nat) = (2 ^ 9 - 1) <<< 4 := rfl
    have hslot : a.toNat / 16 % 512 * 16 = ((a.toNat >>> 4) &&& (2 ^ 9 - 1)) <<< 4 := by
      rw [Nat.and_two_pow_sub_one_eq_mod, Nat.shiftRight_eq_div_pow, Nat.shiftLeft_eq]
    rw [hones, hslot]
    refine Nat.eq_of_testBit_eq fun i => ?_
    simp only [Nat.testBit_and, Nat.testBit_shiftLeft, Nat.testBit_shiftRight]
    by_cases hi : 4 ≤ i <;> simp [hi]
  unfold alignTarget
  rw [UInt16.toNat_or, UInt16.toNat_and]
  show 0x8000 ||| (a.toNat &&& 0x1FF0) = _
  rw [hmask, or_8000 (by omega)]

theorem alignTarget_alignTarget (a : UInt16) : alignTarget (alignTarget a) = alignTarget a := by
  rw [← UInt16.toNat_inj, alignTarget_toNat, alignTarget_toNat]
  omega

/-- Blocks can start at the target. -/
def Aligned (d : VramDma) : Prop := alignTarget d.target = d.target

theorem Aligned.toNat {d : VramDma} (h : d.Aligned) :
    0x8000 + d.target.toNat / 16 % 512 * 16 = d.target.toNat :=
  (alignTarget_toNat d.target).symm.trans (congrArg UInt16.toNat h)

theorem blockDone_aligned (d : VramDma) : d.blockDone.Aligned := alignTarget_alignTarget _

theorem allDone_aligned (d : VramDma) : d.allDone.Aligned := alignTarget_alignTarget _

theorem writeAddress_aligned {d : VramDma} (h : d.Aligned) (addr : UInt16) (v : UInt8) :
    (d.writeAddress addr v).Aligned := by
  unfold writeAddress
  split
  · exact h
  · exact h
  · exact alignTarget_alignTarget _
  · exact alignTarget_alignTarget _
  · exact h

end VramDma

namespace Board

variable {b d : Board}

/-- **The boards that can come up**: any operations of the CPU, any buttons and any cartridges, from
power-on or from where the boot image leaves. -/
inductive Reachable : Board → Prop where
  | powerOn (model : Model) : Reachable (powerOn model)
  | afterBoot (model : Model) (palettes : Option BootPalettes) :
      Reachable (afterBoot model palettes).value
  | insert {b : Board} (h : Reachable b) (c : Cartridge) : Reachable (b.insert c)
  | mapBoot {b : Board} (h : Reachable b) (image : ByteArray) : Reachable (b.mapBoot image).value
  | setButton {b : Board} (h : Reachable b) (button : Button) (pressed : Bool) :
      Reachable (b.setButton button pressed)
  | perform {b : Board} (h : Reachable b) (e : Deed) : Reachable (e.perform b)

/-- **The display is in the phase of its place, and the target of blocks is aligned.** -/
structure Steady (b : Board) : Prop where
  phase : PhaseOK b.ppu
  aligned : b.vramDma.Aligned

theorem Fills.phaseOK (hf : Fills b d) (h : PhaseOK b.ppu) : PhaseOK d.ppu := by
  obtain ⟨_, _, _, rfl⟩ := hf
  exact h.withMemories ..

theorem moveBlock_aligned (b : Board) : b.moveBlock.vramDma.Aligned := by
  rw [moveBlock_eq]
  exact VramDma.blockDone_aligned _

theorem afterDots_steady (h : Steady b) : Steady b.afterDots := by
  obtain ⟨_, _, _, _, _, hb⟩ := b.beforeDisplay_eq
  have hphase : PhaseOK b.beforeDisplay.ppu := by
    rw [hb]
    exact h.phase.withMemories ..
  refine ⟨(Ppu.step_ok hphase _).1, ?_⟩
  show b.beforeDisplay.vramDma.Aligned
  rw [hb]
  exact h.aligned

/-- **A bus cycle keeps a board steady.** -/
theorem cycle_steady (h : Steady b) : Steady b.cycle.value := by
  have hdots := afterDots_steady h
  refine ⟨(cycle_fills b).phaseOK hdots.phase, ?_⟩
  rw [cycle_value]
  unfold enterHBlank
  split_ifs
  · exact moveBlock_aligned _
  · exact hdots.aligned
  · exact hdots.aligned

theorem tick_steady (h : Steady b) : Steady (tick b).value.2 :=
  tick_along (P := fun _ d => Steady d) (fun _ _ hd => ⟨hd.phase, hd.aligned⟩)
    (fun _ _ hd => cycle_steady hd) (l := []) h

theorem writeVramDma_aligned (h : b.vramDma.Aligned) (addr : UInt16) (v : UInt8) :
    (b.writeVramDma addr v).value.vramDma.Aligned := by
  unfold writeVramDma
  split
  · unfold controlVramDma
    simp only
    split
    · unfold startHBlankDma
      simp only
      split
      · exact h
      · exact moveBlock_aligned _
    · split
      · exact h
      · exact VramDma.allDone_aligned _
  · exact VramDma.writeAddress_aligned h addr v

theorem writePort_steady (h : Steady b) (addr : UInt16) (v : UInt8) :
    Steady (b.writePort addr v).value := by
  unfold writePort
  cases Port.of b.model addr with
  | display => exact ⟨(Ppu.writePort_ok h.phase addr v).1, h.aligned⟩
  | vramDma =>
    exact ⟨(writeVramDma_fills b addr v).phaseOK h.phase, writeVramDma_aligned h.aligned addr v⟩
  | vramBank => exact ⟨h.phase.withMemories .., h.aligned⟩
  | outputMode =>
    simp only [writeOutputMode]
    split
    · exact ⟨h.phase.withMemories .., h.aligned⟩
    · exact h
  | _ => exact ⟨h.phase, h.aligned⟩

theorem write_steady (h : Steady b) (addr : UInt16) (v : UInt8) :
    Steady (b.write addr v).value := by
  unfold write
  cases Region.of addr with
  | port => exact writePort_steady h addr v
  | vram => exact ⟨(Ppu.perform_ok h.phase (.vram addr v)).1, h.aligned⟩
  | oam =>
    simp only [writeOam]
    split
    · exact h
    · exact ⟨(Ppu.perform_ok h.phase (.oam addr v)).1, h.aligned⟩
  | _ => exact ⟨h.phase, h.aligned⟩

/-- **Every operation of the CPU keeps a board steady.** -/
theorem perform_steady (h : Steady b) (e : Deed) : Steady (e.perform b) := by
  cases e with
  | read | setInterrupts | clearDivider => exact ⟨h.phase, h.aligned⟩
  | write addr v => exact write_steady h addr v
  | tick => exact tick_steady h
  | switchSpeed =>
    show Steady b.switchSpeed.value.2
    unfold switchSpeed
    split <;> exact ⟨h.phase, h.aligned⟩

/-- **No operation of the CPU changes the model**, the image or its header. -/
theorem perform_plate (b : Board) (e : Deed) : (e.perform b).plate = b.plate := by
  cases e with
  | read | setInterrupts | clearDivider => rfl
  | write addr v => exact write_plate b addr v
  | tick => exact (tick_elapses b).plate_eq
  | switchSpeed => exact switchSpeed_plate b

theorem after_plate (b : Board) (deeds : List Deed) : (b.after deeds).plate = b.plate := by
  induction deeds generalizing b with
  | nil => rfl
  | cons e deeds ih => exact (ih (e.perform b)).trans (perform_plate b e)

theorem Reachable.after (h : Reachable b) (deeds : List Deed) : Reachable (b.after deeds) := by
  induction deeds generalizing b with
  | nil => exact h
  | cons e deeds ih => exact ih (h.perform e)

/-- **Every reachable board is steady.** -/
theorem reachable_steady (h : Reachable b) : Steady b := by
  have hreset : VramDma.alignTarget 0x8000 = 0x8000 := by decide
  induction h with
  | powerOn model => exact ⟨Ppu.powerOn_ok model, hreset⟩
  | afterBoot model palettes =>
    exact ⟨(Ppu.handOver_ok (Ppu.powerOn_ok model) palettes).1, hreset⟩
  | insert _ _ ih | mapBoot _ _ ih | setButton _ _ _ ih => exact ⟨ih.phase, ih.aligned⟩
  | perform _ e ih => exact perform_steady ih e

end Board

end Handheld
