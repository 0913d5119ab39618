import Handheld.Proofs.Board.Reachable
import Handheld.Proofs.Cartridge.Registers
import Handheld.Proofs.Ppu.Memories

/-!
# The boot image over the cartridge

A boot image covers the start of the ROM area until the first write to `FF50`, and while it does, a
write to `FF4C` can switch color hardware to monochrome output. No other operation touches either.

* `Board.Covers`: the addresses that a boot image covers.
* `Deed.unmaps`, `Board.darkens`: the two operations.
* `perform_outlook`: what every operation does to the boot image and the output.
* `Board.Reads`: what is read from the ROM area; `Overlaid.reads`.
* `Board.ReadFrom`: the boards that the CPU and the transfer engines read from during an operation.
* `write_banks`: a write to the ROM area reaches the bank registers.
-/

namespace Handheld

/-- The operation uncovers the cartridge: a write to `FF50`, of any value. -/
def Deed.unmaps : Deed → Bool
  | .write addr _ => addr == 0xFF50
  | _ => false

namespace Board

variable {b d x : Board} {model : Model} {boot : ByteArray}

/-- The operation switches the board to monochrome output: a write to `FF4C` with bit 2 set, on
color hardware, while the boot image covers the cartridge. -/
def darkens (b : Board) : Deed → Bool
  | .write addr v => b.model.isColor && b.bootMapped && addr == 0xFF4C && v &&& 4 != 0
  | _ => false

/-- The boot image that covers the cartridge, if one does, and whether the output is in color. -/
def outlook (b : Board) : Option ByteArray × Bool := (b.boot, b.ppu.colorOutput)

theorem port_boot {model : Model} {addr : UInt16} :
    (Port.of model addr = .bootUnmap → addr = 0xFF50) ∧
      (Port.of model addr = .outputMode → addr = 0xFF4C) := by
  refine ⟨?_, ?_⟩ <;>
  · intro h
    unfold Port.of Port.ofColor at h
    split at h <;> first | rfl | cases h | skip
    split_ifs at h
    split at h <;> first | rfl | cases h

theorem Fills.outlook_eq (h : Fills b d) : d.outlook = b.outlook := by
  obtain ⟨_, _, _, rfl⟩ := h
  rfl

theorem afterDots_outlook (b : Board) : b.afterDots.outlook = b.outlook := by
  obtain ⟨_, _, _, oam, _, hb⟩ := b.beforeDisplay_eq
  obtain ⟨_, _, _, _, _, _, _, _, _, _, _, _, hdots⟩ :=
    Ppu.step_elapses b.beforeDisplay.ppu b.cycleDots
  have hboot : b.afterDots.boot = b.boot := by
    show b.beforeDisplay.boot = b.boot
    rw [hb]
  have houtput : b.afterDots.ppu.colorOutput = b.ppu.colorOutput := by
    show (b.beforeDisplay.ppu.step b.cycleDots).value.1.colorOutput = _
    rw [hdots, hb]
  exact Prod.ext hboot houtput

theorem cycle_outlook (b : Board) : b.cycle.value.outlook = b.outlook :=
  (cycle_fills b).outlook_eq.trans (afterDots_outlook b)

/-- **Time changes neither.** -/
theorem tick_outlook (b : Board) : (tick b).value.2.outlook = b.outlook :=
  tick_along (P := fun _ d => d.outlook = b.outlook) (fun _ _ h => h)
    (fun _ d h => (cycle_outlook d).trans h) (l := []) rfl

theorem writeDisplay_output (p : Ppu) (addr : UInt16) (v : UInt8) :
    (p.writePort addr v).value.colorOutput = p.colorOutput := by
  unfold Ppu.writePort
  split
  · obtain ⟨_, _, _, _, _, _, _, _, _, _, _, _, hq⟩ := Ppu.writeLcdc_elapses p v
    rw [hq]
  · obtain ⟨_, _, _, _, hq, -⟩ := Ppu.writeControl_eq p addr v
    show (p.writeControl addr v).colorOutput = _
    rw [hq]

/-- **A write to any other address changes neither.** -/
theorem write_outlook (b : Board) {addr : UInt16} (hunmap : addr ≠ 0xFF50) (hoff : addr ≠ 0xFF4C)
    (v : UInt8) : (b.write addr v).value.outlook = b.outlook := by
  unfold write
  cases Region.of addr with
  | port =>
    simp only
    unfold writePort
    cases hp : Port.of b.model addr with
    | bootUnmap => exact absurd (port_boot.1 hp) hunmap
    | outputMode => exact absurd (port_boot.2 hp) hoff
    | display => exact Prod.ext rfl (writeDisplay_output b.ppu addr v)
    | vramDma => exact (writeVramDma_fills b addr v).outlook_eq
    | _ => rfl
  | vram =>
    simp only [Ppu.writeVram]
    split <;> rfl
  | oam =>
    simp only [writeOam, Ppu.writeOam]
    split
    · rfl
    · split
      · split <;> rfl
      · rfl
  | _ => rfl

theorem darkens_write (b : Board) (addr : UInt16) (v : UInt8) :
    b.darkens (.write addr v) =
      (b.model.isColor && b.bootMapped && addr == 0xFF4C && v &&& 4 != 0) :=
  rfl

/-- The output port is there on color hardware, and answers while the cartridge is covered. -/
theorem writeOutput_outlook (b : Board) (v : UInt8) :
    (b.write 0xFF4C v).value.outlook =
      (b.boot, b.ppu.colorOutput && !b.darkens (.write 0xFF4C v)) := by
  have hport : (b.write 0xFF4C v) =
      if b.model.isColor then b.writeOutputMode v else pure b := by
    show b.writePort 0xFF4C v = _
    unfold writePort
    cases b.model with
    | mono => rfl
    | color => rfl
  rw [hport, darkens_write, BEq.rfl, Bool.and_true]
  unfold writeOutputMode
  cases b.model.isColor with
  | false => exact Prod.ext rfl (Bool.and_true _).symm
  | true =>
    simp only [if_true, Bool.true_and]
    split
    · rename_i hoff
      rw [hoff]
      exact Prod.ext rfl (Bool.and_false _).symm
    · rename_i hkept
      rw [Bool.not_eq_true] at hkept
      rw [hkept]
      exact Prod.ext rfl (Bool.and_true _).symm

/-- **What every operation does to the boot image and the output.** -/
theorem perform_outlook (b : Board) (e : Deed) :
    (e.perform b).outlook =
      (if e.unmaps then none else b.boot, b.ppu.colorOutput && !b.darkens e) := by
  have hkept : b.outlook = (b.boot, b.ppu.colorOutput && !false) := by
    rw [Bool.not_false, Bool.and_true]
    rfl
  cases e with
  | read addr | setInterrupts i | clearDivider => exact hkept
  | tick => exact (tick_outlook b).trans hkept
  | switchSpeed =>
    show b.switchSpeed.value.2.outlook = _
    refine Eq.trans ?_ hkept
    unfold switchSpeed
    split <;> rfl
  | write addr v =>
    -- each of the two ports reaches one of the two, and no other address reaches any
    by_cases hunmap : addr = 0xFF50
    · subst hunmap
      have hstays : b.darkens (.write 0xFF50 v) = false := by
        rw [darkens_write, show ((0xFF50 : UInt16) == 0xFF4C) = false from rfl, Bool.and_false,
          Bool.false_and]
      rw [hstays, Bool.not_false, Bool.and_true]
      rfl
    · have hmapped : (Deed.write addr v).unmaps = false := beq_false_of_ne hunmap
      rw [hmapped, if_neg Bool.false_ne_true]
      by_cases hoff : addr = 0xFF4C
      · subst hoff
        exact writeOutput_outlook b v
      · have hstays : b.darkens (.write addr v) = false := by
          rw [darkens_write, beq_false_of_ne hoff, Bool.and_false, Bool.false_and]
        rw [hstays]
        exact (write_outlook b hunmap hoff v).trans hkept

/-- The addresses that a boot image covers; on color hardware a page is left to the header of the
cartridge. -/
def Covers (model : Model) (addr : UInt16) : Prop :=
  addr.toNat ≤ 0xFF ∨ model = .color ∧ 0x200 ≤ addr.toNat ∧ addr.toNat ≤ 0x8FF

theorem bootCovers_iff (model : Model) (addr : UInt16) :
    bootCovers model addr = true ↔ Covers model addr := by
  have hpage : addr < 0x100 ↔ addr.toNat ≤ 0xFF := UInt16.lt_iff_toNat_lt.trans Nat.lt_succ_iff
  have hlow : 0x200 ≤ addr ↔ 0x200 ≤ addr.toNat := UInt16.le_iff_toNat_le
  have hhigh : addr < 0x900 ↔ addr.toNat ≤ 0x8FF := UInt16.lt_iff_toNat_lt.trans Nat.lt_succ_iff
  unfold bootCovers Covers
  rw [Bool.or_eq_true, Bool.and_eq_true, Bool.and_eq_true, decide_eq_true_iff, decide_eq_true_iff,
    decide_eq_true_iff, hpage, hlow, hhigh, and_assoc]
  cases model with
  | mono => simp [Model.isColor]
  | color => simp [Model.isColor]

/-- An image of the right size has a byte for each of them. -/
theorem Covers.lt_size {addr : UInt16} (h : Covers model addr) :
    addr.toNat < model.bootImageSize := by
  rcases h with h | ⟨rfl, -, h⟩
  · cases model with
    | mono => exact Nat.lt_succ_of_le h
    | color => exact Nat.lt_of_le_of_lt h (by decide)
  · exact Nat.lt_succ_of_le h

theorem Covers.lt_rom {addr : UInt16} (h : Covers model addr) : addr.toNat < 0x8000 := by
  rcases h with h | ⟨-, -, h⟩
  · omega
  · omega

theorem read_rom {addr : UInt16} (h : addr.toNat < 0x8000) (b : Board) :
    b.read addr = (b.bootByte? addr).getD (b.cartridgeByte addr) := by
  unfold read
  rw [region_eq, if_pos h]

/-- A cartridge is in the slot of this hardware, and the boot image covers it while it is mapped. -/
structure Overlaid (model : Model) (boot : ByteArray) (mapped : Bool) (b : Board) : Prop where
  model : b.model = model
  boot : b.boot = if mapped then some boot else none
  loaded : b.cartridge.isSome = true

/-- **What is read from the ROM area**: while the boot image is mapped its bytes where it covers the
cartridge, else the bytes of the cartridge. A transfer engine reads the same. -/
structure Reads (model : Model) (boot : ByteArray) (mapped : Bool) (b : Board) : Prop where
  covered : mapped = true → ∀ addr, Covers model addr →
    ∃ h : addr.toNat < boot.size, b.read addr = boot[addr.toNat]
  uncovered : ∀ addr, addr.toNat < 0x8000 → (mapped = true → ¬ Covers model addr) →
    ∃ c, b.cartridge = some c ∧ b.read addr = c.read addr
  transfers : ∀ addr, addr.toNat < 0x8000 → b.dmaRead addr = b.read addr

theorem Overlaid.reads {mapped : Bool} (h : Overlaid model boot mapped b)
    (hsize : boot.size = model.bootImageSize) : Reads model boot mapped b := by
  obtain ⟨c, hc⟩ := Option.isSome_iff_exists.1 h.loaded
  have hcartridge (addr : UInt16) : b.cartridgeByte addr = c.read addr := by
    unfold cartridgeByte
    rw [hc]
  constructor
  case covered =>
    intro hmapped addr haddr
    have hinside : addr.toNat < boot.size := hsize ▸ haddr.lt_size
    have hboot : b.boot = some boot := by rw [h.boot, if_pos hmapped]
    have hcovers : bootCovers b.model addr = true := by
      rw [h.model]
      exact (bootCovers_iff model addr).2 haddr
    refine ⟨hinside, ?_⟩
    rw [read_rom haddr.lt_rom, bootByte?, hboot]
    simp only
    rw [dif_pos hinside, if_pos hcovers]
    rfl
  case uncovered =>
    intro addr haddr hopen
    refine ⟨c, hc, ?_⟩
    have hnone : b.bootByte? addr = none := by
      unfold bootByte?
      rw [h.boot]
      cases mapped with
      | false => rfl
      | true =>
        have hcovers : ¬ bootCovers b.model addr = true := by
          rw [h.model, bootCovers_iff]
          exact hopen rfl
        simp only [if_true, if_neg hcovers, dite_eq_ite, ite_self]
    rw [read_rom haddr, hnone, Option.getD_none, hcartridge]
  case transfers =>
    intro addr haddr
    apply dmaRead_of_lt
    rw [UInt16.lt_iff_toNat_lt]
    exact Nat.lt_trans haddr (by decide)

/-- **The boards that bytes are read from** during an operation. The CPU reads from the first. In
each bus cycle the engine for object memory does, and after its dots that for video memory may, byte
by byte; a write to its port may start it as well. -/
inductive ReadFrom (b : Board) : Deed → Board → Prop where
  | cpu (e : Deed) : ReadFrom b e b
  | object {d : Board} (h : d ∈ b.cycleStarts) : ReadFrom b .tick d.runTimer.runSerial
  | blank {d : Board} (h : d ∈ b.cycleStarts) (bytes : Nat) :
      ReadFrom b .tick (copyVramBytes bytes d.afterDots)
  | block (addr : UInt16) (v : UInt8) (vramDma : VramDma) (blocks bytes : Nat) :
      ReadFrom b (.write addr v) (copyVramBytes bytes (copyBlocks blocks { b with vramDma }))

/-- Every bus cycle of a tick starts on a board that time alone leads to. -/
theorem cycleStarts_elapses (b : Board) : ∀ d ∈ b.cycleStarts, Elapses b d := by
  let Along (l : List Board) (d : Board) : Prop := Elapses b d ∧ ∀ x ∈ l, Elapses b x
  have hrelease (l : List Board) (d : Board) (h : Along l d) : Along l d.release :=
    ⟨h.1.trans ⟨_, _, _, _, _, _, _, rfl⟩, h.2⟩
  have hcycle (l : List Board) (d : Board) (h : Along l d) : Along (l ++ [d]) d.cycle.value := by
    refine ⟨h.1.trans (cycle_elapses d), ?_⟩
    intro x hx
    rcases List.mem_append.1 hx with hx | hx
    · exact h.2 x hx
    · rw [List.mem_singleton.1 hx]
      exact h.1
  have hstart : Along [] b := ⟨.refl b, by simp⟩
  exact (tick_along hrelease hcycle hstart).2

/-- Only the devices differ there. -/
theorem ReadFrom.elapses {e : Deed} (h : ReadFrom b e x) : Elapses b x := by
  cases h with
  | cpu => exact .refl b
  | @object d h => exact (cycleStarts_elapses b d h).trans ⟨_, _, _, _, _, _, _, rfl⟩
  | @blank d h bytes =>
    obtain ⟨_, _, _, _, _, hb⟩ := d.beforeDisplay_eq
    have hdots : Elapses d d.afterDots := by
      unfold afterDots
      rw [hb]
      exact ⟨_, _, _, _, _, _, _, rfl⟩
    exact ((cycleStarts_elapses b d h).trans hdots).trans (copyVramBytes_fills bytes _).elapses
  | block addr v vramDma blocks bytes =>
    have hstart : Fills b { b with vramDma } := ⟨_, _, _, rfl⟩
    exact ((hstart.trans (copyBlocks_fills blocks _)).trans (copyVramBytes_fills bytes _)).elapses

theorem Elapses.overlaid {mapped : Bool} (h : Elapses b x) (hb : Overlaid model boot mapped b) :
    Overlaid model boot mapped x := by
  obtain ⟨_, _, _, _, _, _, _, rfl⟩ := h
  exact ⟨hb.model, hb.boot, hb.loaded⟩

/-- **The image stays until an operation uncovers the cartridge.** -/
theorem perform_overlaid {mapped : Bool} (h : Overlaid model boot mapped b) (e : Deed) :
    Overlaid model boot (mapped && !e.unmaps) (e.perform b) := by
  have hplate := perform_plate b e
  constructor
  case model => exact (congrArg Prod.fst hplate).trans h.model
  case boot =>
    have hboot : (e.perform b).boot = _ := congrArg Prod.fst (perform_outlook b e)
    rw [hboot, h.boot]
    cases e.unmaps with
    | true => simp
    | false => simp
  case loaded => rw [← plate_isSome, hplate, plate_isSome, h.loaded]

/-- **A write to the ROM area reaches the bank registers**, covered or not. -/
theorem write_banks {c : Cartridge} (h : b.cartridge = some c) {addr : UInt16}
    (haddr : addr.toNat < 0x8000) (v : UInt8) :
    (b.write addr v).value.cartridge = some { c with banking := c.banking.write addr v } := by
  have hwindow : ¬ Cartridge.inRamWindow addr = true := by
    intro hinside
    have hle := UInt16.le_iff_toNat_le.1 (Cartridge.le_of_inRamWindow hinside)
    exact Nat.not_le.2 haddr hle
  unfold write
  rw [region_eq, if_pos haddr]
  show (b.writeCartridge addr v).cartridge = _
  unfold writeCartridge
  rw [h]
  show some (c.write addr v) = _
  rw [Cartridge.write, if_neg hwindow]

end Board

end Handheld
