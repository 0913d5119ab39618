import Handheld.Proofs.Cartridge.Registers

/-!
# The ROM windows

Two windows of 16 KiB show banks of the image. Which ones follows from the last write to each register
of the controller, in plain arithmetic; the shifts, masks and stored values of the registers are one
way to compute it.

* `Cartridge.namedRomBank`: the bank that the last writes name.
* `Cartridge.romBank_eq`: the controllers select that bank.
* `Cartridge.rom_windows`: the byte that every address below `8000` shows after any history.
-/

namespace Handheld

open Cartridge Banking

variable {header : Header} {image : ByteArray} {r : Logged Cartridge} {uses : List Use}

namespace Cartridge

/-- The ROM bank that the last writes name for the lower or the upper window, before it is reduced to
the banks that exist. -/
def namedRomBank (header : Header) (image : ByteArray) (uses : List Use) (upper : Bool) : Nat :=
  match header.controller, upper with
  | .mbc1, true =>
    let scale := if isMulticart image then 16 else 32
    number (window 0x4000 0x5FFF) 0 uses % 4 * scale +
      max 1 (number (window 0x2000 0x3FFF) 1 uses % 32) % scale
  | .mbc1, false =>
    let scale := if isMulticart image then 16 else 32
    if number (window 0x6000 0x7FFF) 0 uses % 2 = 1 then
      number (window 0x4000 0x5FFF) 0 uses % 4 * scale
    else 0
  | .mbc2, true => max 1 (number (mbc2Register true) 1 uses % 16)
  | .mbc3, true => max 1 (number (window 0x2000 0x3FFF) 1 uses % 128)
  | .mbc30, true => max 1 (number (window 0x2000 0x3FFF) 1 uses)
  | .mbc5, true =>
    number (window 0x3000 0x3FFF) 0 uses % 2 * 256 + number (window 0x2000 0x2FFF) 1 uses
  | _, true => 1
  | _, false => 0

/-- The banks of 16 KiB that an image fills or begins. -/
def imageBanks (image : ByteArray) : Nat := (image.size + 0x3FFF) / 0x4000

/-- The place in the image that an address below `8000` leads to. -/
def namedOffset (header : Header) (image : ByteArray) (uses : List Use) (addr : UInt16) : Nat :=
  namedRomBank header image uses (0x4000 ≤ addr.toNat) % imageBanks image * 0x4000 +
    addr.toNat % 0x4000

end Cartridge

theorem Banking.Mbc1.Recalls.upperBank {r : Mbc1} (h : r.Recalls uses) :
    r.upperBank = number (window 0x4000 0x5FFF) 0 uses % 4 * (if r.multicart then 16 else 32) +
      max 1 (number (window 0x2000 0x3FFF) 1 uses % 32) % (if r.multicart then 16 else 32) := by
  obtain ⟨hlow, hhigh, -, -⟩ := h
  -- the check for zero sees five bits, so it replaces exactly the banks that name none
  have hpos : (if r.low &&& 0x1F = 0 then 1 else r.low).toNat =
      max 1 (number (window 0x2000 0x3FFF) 1 uses % 32) := by
    have hmask : (r.low &&& 0x1F).toNat = r.low.toNat % 32 := toNat_and_ones r.low _ 5 rfl
    rw [apply_ite UInt8.toNat, hlow, UInt8.toNat_one]
    simp only [← UInt8.toNat_inj, hmask, hlow, UInt8.toNat_zero]
    split <;> omega
  have h4 := toNat_and_ones (if r.low &&& 0x1F = 0 then 1 else r.low) 0x0F 4 rfl
  have h5 := toNat_and_ones (if r.low &&& 0x1F = 0 then 1 else r.low) 0x1F 5 rfl
  unfold Mbc1.upperBank
  dsimp only
  rw [h4, h5, hpos, hhigh]
  cases r.multicart with
  | true =>
    rw [if_pos rfl, ← Nat.shiftLeft_add_eq_or_of_lt (Nat.mod_lt _ (by decide)), Nat.shiftLeft_eq]
    rfl
  | false =>
    rw [if_neg Bool.false_ne_true, ← Nat.shiftLeft_add_eq_or_of_lt (Nat.mod_lt _ (by decide)),
      Nat.shiftLeft_eq]
    rfl

theorem Banking.Mbc1.Recalls.lowerBank {r : Mbc1} (h : r.Recalls uses) :
    r.lowerBank = if number (window 0x6000 0x7FFF) 0 uses % 2 = 1 then
      number (window 0x4000 0x5FFF) 0 uses % 4 * (if r.multicart then 16 else 32) else 0 := by
  obtain ⟨-, hhigh, hadvanced, -⟩ := h
  unfold Mbc1.lowerBank
  rw [hadvanced, hhigh, Nat.shiftLeft_eq, Nat.shiftLeft_eq]
  cases r.multicart <;> split <;> simp_all

namespace Cartridge

/-- **The controllers select the bank that the last writes name.** -/
theorem romBank_eq {b : Banking} (h : Recalls header image uses b) (upper : Bool) :
    b.romBank upper = namedRomBank header image uses upper := by
  unfold namedRomBank
  cases h with
  | romOnly hc => cases upper <;> simp only [hc, Banking.romBank]
  | mbc1 hc hm h =>
    rw [hc, ← hm]
    cases upper with
    | true => exact h.upperBank
    | false => exact h.lowerBank
  | mbc2 hc h => cases upper <;> simp only [hc, Banking.romBank, h.romBank]
  | @mbc3 r hc h =>
    have hbyte : number (window 0x2000 0x3FFF) 1 uses < 256 := number_lt (by decide) uses
    have hbank := h.romBank
    -- the larger variant keeps all eight bits
    cases hl : r.large <;> rw [hl] at hc hbank <;> cases upper <;>
      simp only [hc, hbank, Banking.romBank, toNat_max_one, if_true, if_false, Bool.false_eq_true,
        Nat.max_self, ← Nat.max_assoc, Nat.mod_eq_of_lt hbyte]
  | mbc5 hc hr h =>
    cases upper <;> simp only [hc, Banking.romBank, h.romBank, Nat.mul_comm 256]

/-- Before the first write the windows show banks 0 and 1. -/
theorem namedRomBank_nil (header : Header) (image : ByteArray) (upper : Bool) :
    namedRomBank header image [] upper = upper.toNat := by
  unfold namedRomBank
  -- on MBC1 the lower bits of register value 1 are the same on both kinds of board
  split <;> simp
  split <;> rfl

/-- An accepted image begins a bank, so there is always one to show. -/
theorem romBanks_eq (h : ofImage image = .ok r) (uses : List Use) :
    (r.value.after uses).romBanks = imageBanks image := by
  obtain ⟨header, banking, hp, -, -⟩ := ofImage_eq h
  obtain ⟨hsize, -⟩ := Header.parse_ok hp
  obtain ⟨himage, -⟩ := after_kept h uses
  have hone : 1 ≤ imageBanks image := by
    unfold imageBanks Header.requiredSize at *
    omega
  rw [romBanks, himage]
  exact Nat.max_eq_right hone

theorem romOffset_eq (h : ofImage image = .ok r) (uses : List Use) (addr : UInt16) :
    (r.value.after uses).romOffset addr = namedOffset r.value.header image uses addr := by
  have hupper : decide ((0x4000 : UInt16) ≤ addr) = decide (0x4000 ≤ addr.toNat) := by
    simp only [UInt16.le_iff_toNat_le, UInt16.reduceToNat]
  unfold romOffset namedOffset romBank
  rw [romBanks_eq h, romBank_eq (recalls_after h uses), hupper]
  rfl

theorem namedOffset_lt (h : ofImage image = .ok r) (uses : List Use) (addr : UInt16) :
    namedOffset r.value.header image uses addr < imageBanks image * 0x4000 := by
  have hlt := romOffset_lt (r.value.after uses) addr
  rwa [romOffset_eq h, romBanks_eq h] at hlt

/-- A byte of the ROM area comes from the image. -/
theorem read_rom (c : Cartridge) {addr : UInt16} (haddr : addr.toNat < 0x8000) :
    c.read addr = if hlt : c.romOffset addr < c.rom.size then c.rom[c.romOffset addr] else 0xFF := by
  have hlow : addr < 0x8000 := UInt16.lt_iff_toNat_lt.2 haddr
  rw [read, if_pos hlow]
  rfl

/-- **The ROM windows show the banks that the last writes name**, whatever else was done with the
cartridge in between: the byte at `bank * 4000 + addr % 4000` of the image, or `FF` past its end, where
the bank is reduced to those that the image fills or begins. A reset of the bank registers makes the
windows show what they showed at power-on. -/
theorem rom_windows (h : ofImage image = .ok r) (uses : List Use) :
    Header.parse image = .ok r.value.header ∧
    (∀ addr : UInt16, addr.toNat < 0x8000 →
      (r.value.after uses).romOffset addr = namedOffset r.value.header image uses addr ∧
      namedOffset r.value.header image uses addr < imageBanks image * 0x4000 ∧
      (r.value.after uses).read addr =
        if hlt : namedOffset r.value.header image uses addr < image.size then
          image[namedOffset r.value.header image uses addr]
        else 0xFF) ∧
    (∀ upper, namedRomBank r.value.header image [] upper = upper.toNat) ∧
    (r.value.after uses).resetBanks.banking = r.value.banking ∧
    ∀ addr : UInt16, addr.toNat < 0x8000 →
      (r.value.after uses).resetBanks.read addr = r.value.read addr := by
  obtain ⟨header, banking, hp, hinitial, hr⟩ := ofImage_eq h
  obtain ⟨himage, hheader, -⟩ := after_kept h uses
  have hrom : r.value.rom = image := by rw [hr]
  have hreset : (r.value.after uses).resetBanks = { r.value with ram := (r.value.after uses).ram } :=
    Machine.resetBanks_of_initial (by rw [hr]; exact hinitial) (himage.trans hrom.symm) hheader
  refine ⟨by rw [hr]; exact hp, ?_, namedRomBank_nil _ _, by rw [hreset], ?_⟩
  · intro addr haddr
    refine ⟨romOffset_eq h uses addr, namedOffset_lt h uses addr, ?_⟩
    rw [read_rom _ haddr]
    simp only [romOffset_eq h, himage]
  · intro addr haddr
    rw [read_rom _ haddr, read_rom _ haddr, hreset]
    rfl

/-- The bytes of an image for MBC1 with 32 KiB of RAM: the number of the bank, but for the codes of the
controller and of the two sizes. -/
def mbc1Byte (i : Nat) : UInt8 :=
  if i = 0x147 then 0x03 else if i = 0x148 then 0x01 else if i = 0x149 then 0x03
  else (i / 0x4000).toUInt8

/-- Two banks and two bytes of a third. -/
def mbc1Image : ByteArray := ⟨.ofFn fun i : Fin 0x8002 => mbc1Byte i⟩

theorem mbc1Image_size : mbc1Image.size = 0x8002 := Array.size_ofFn

theorem mbc1Image_byte {i : Nat} {hi : i < mbc1Image.size} : mbc1Image[i] = mbc1Byte i :=
  Array.getElem_ofFn hi

theorem mbc1Image_single : isMulticart mbc1Image = false := by
  rw [isMulticart, mbc1Image_size]
  rfl

theorem mbc1Image_banks : imageBanks mbc1Image = 3 := by rw [imageBanks, mbc1Image_size]

theorem mbc1Image_accepted : ∃ r, ofImage mbc1Image = .ok r ∧
    r.value.header.controller = .mbc1 ∧ boardRamSize r.value.header = 0x8000 := by
  obtain ⟨header, hp, hc, hram⟩ : ∃ header, Header.parse mbc1Image = .ok header ∧
      header.controller = .mbc1 ∧ boardRamSize header = 0x8000 := by
    unfold Header.parse
    rw [if_neg (by rw [mbc1Image_size]; decide), dif_neg (by rw [mbc1Image_size]; decide)]
    simp only [mbc1Image_byte]
    exact ⟨_, rfl, rfl, rfl⟩
  unfold ofImage Banking.initial
  rw [hp]
  dsimp only [bind, Except.bind]
  rw [hc]
  exact ⟨_, rfl, hc, hram⟩

/-- The banks of a board with a single game. -/
theorem namedRomBank_mbc1 (hc : header.controller = .mbc1) (hsingle : isMulticart image = false)
    (upper : Bool) :
    namedRomBank header image uses upper =
      if upper then
        number (window 0x4000 0x5FFF) 0 uses % 4 * 32 +
          max 1 (number (window 0x2000 0x3FFF) 1 uses % 32) % 32
      else if number (window 0x6000 0x7FFF) 0 uses % 2 = 1 then
        number (window 0x4000 0x5FFF) 0 uses % 4 * 32
      else 0 := by
  unfold namedRomBank
  rw [hc, hsingle]
  cases upper <;> rfl

/-- The third bank is selected by its number, and by 5, of which the three banks leave 2. Past its two
bytes it reads ones. In the advanced mode the second register moves the lower window. -/
theorem rom_windows_short : ∃ r, ofImage mbc1Image = .ok r ∧
    (r.value.after []).read 0x4000 = 1 ∧
    (r.value.after [.write 0x2000 2]).read 0x4001 = 2 ∧
    (r.value.after [.write 0x2000 5]).read 0x4001 = 2 ∧
    (r.value.after [.write 0x2000 2]).read 0x4002 = 0xFF ∧
    (r.value.after [.write 0x6000 1, .write 0x4000 1]).read 0x0001 = 2 := by
  obtain ⟨r, hr, hc, -⟩ := mbc1Image_accepted
  have hbyte (uses : List Use) {addr : UInt16} (haddr : addr.toNat < 0x8000) :
      (r.value.after uses).read addr =
        if namedOffset r.value.header mbc1Image uses addr < 0x8002 then
          mbc1Byte (namedOffset r.value.header mbc1Image uses addr)
        else 0xFF := by
    obtain ⟨-, hread, -⟩ := rom_windows hr uses
    rw [(hread addr haddr).2.2]
    simp only [mbc1Image_size, mbc1Image_byte, dite_eq_ite]
  refine ⟨r, hr, ?_, ?_, ?_, ?_, ?_⟩ <;>
    rw [hbyte _ (by decide), namedOffset, mbc1Image_banks, namedRomBank_mbc1 hc mbc1Image_single] <;>
    decide

end Cartridge

end Handheld
