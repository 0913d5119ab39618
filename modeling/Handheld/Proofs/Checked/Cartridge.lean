import Handheld.Cartridge.Basic
import Handheld.Proofs.Checked.Basic

/-!
# Checked cartridges

Where an address leads is computed from registers that a program writes, sizes that the header
declares and the size of the image. `Cartridge.InRange` is what makes every place exist.

* `Cartridge.checkedRead_eq`, `Cartridge.checkedWrite_eq`: access through the windows.
* `Cartridge.InRange.write`, `Cartridge.InRange.restoreRam`: no access breaks the invariant.
-/

namespace Handheld

open Checked

/-- An image in memory; nothing there takes up half of the address space. -/
abbrev Image := { image : ByteArray // image.size < 2 ^ 63 }

namespace Cartridge

variable {c : Cartridge}

def checkedRomOffset (c : Cartridge) (addr : UInt16) : Checked Nat := do
  let bank ← remainder (c.banking.romBank (0x4000 ≤ addr)) c.romBanks
  let base ← unsigned 64 (bank * romBankSize)
  let offset ← unsigned 64 (base + addr.toNat % romBankSize)
  let size ← unsigned 64 (c.romBanks * romBankSize)
  ensure (offset < size)
  return offset

def checkedMappedRamBank? (c : Cartridge) : Checked (Option Nat) :=
  if c.ram.isEmpty then return none
  else
    match c.banking.ramBank? with
    | none => return none
    | some bank => some <$> remainder bank c.ramBanks

def checkedRamIndex? (c : Cartridge) (addr : UInt16) : Checked (Option Nat) := do
  match ← c.checkedMappedRamBank? with
  | none => return none
  | some bank =>
    let offset := (addr - 0xA000).toNat % ramBankSize
    if c.banking.hasNibbleRam then return some (offset % 0x200)
    else do
      let base ← unsigned 64 (bank * ramBankSize)
      let i ← unsigned 64 (base + offset)
      some <$> remainder i c.ram.size

def checkedReadRam (c : Cartridge) (addr : UInt16) : Checked UInt8 := do
  match ← c.checkedRamIndex? addr with
  | none => return 0xFF
  | some i =>
    let i ← place c.ram.size i
    return if c.banking.hasNibbleRam then 0xF0 ||| c.ram[i] else c.ram[i]

def checkedWriteRam (c : Cartridge) (addr : UInt16) (v : UInt8) : Checked Cartridge := do
  match ← c.checkedRamIndex? addr with
  | none => return c
  | some i =>
    let i ← place c.ram.size i
    return { c with ram := c.ram.set i (if c.banking.hasNibbleRam then v &&& 0x0F else v) }

def checkedRead (c : Cartridge) (addr : UInt16) : Checked UInt8 :=
  if addr < 0x8000 then c.romByte <$> c.checkedRomOffset addr
  else if inRamWindow addr then c.checkedReadRam addr
  else return 0xFF

def checkedWrite (c : Cartridge) (addr : UInt16) (v : UInt8) : Checked Cartridge :=
  if inRamWindow addr then c.checkedWriteRam addr v
  else return { c with banking := c.banking.write addr v }

/-- **The invariant of a cartridge.** The image fits into memory, the header has a whole title, and
the controller that addresses 512 cells has them. -/
structure InRange (c : Cartridge) : Prop where
  rom : c.rom.size < 2 ^ 63
  title : c.header.titleBytes.length = 16
  nibbles : c.banking.hasNibbleRam = true → c.header.controller = .mbc2
  ram : c.header.controller = .mbc2 → c.ram.size = 0x200

theorem hasNibbleRam_write (b : Banking) (addr : UInt16) (v : UInt8) :
    (b.write addr v).hasNibbleRam = b.hasNibbleRam := by
  cases b <;> rfl

theorem InRange.write (h : c.InRange) (addr : UInt16) (v : UInt8) : (c.write addr v).InRange := by
  unfold Cartridge.write writeRam
  split
  · split
    · exact { h with ram := fun hc => (Array.size_setIfInBounds ..).trans (h.ram hc) }
    · exact h
  · exact { h with nibbles := fun hn => h.nibbles (hasNibbleRam_write .. ▸ hn) }

theorem InRange.restoreRam (h : c.InRange) {snapshot : Array UInt8} {c' : Cartridge}
    (hr : c.restoreRam? snapshot = some c') : c'.InRange := by
  obtain ⟨hsize, hc⟩ := Option.ite_none_right_eq_some.1 hr
  cases hc
  exact { h with ram := fun hc => hsize.trans (h.ram hc) }

theorem romBanks_pos (c : Cartridge) : 0 < c.romBanks :=
  Nat.lt_of_lt_of_le Nat.one_pos (Nat.le_max_left ..)

theorem ramBanks_pos (c : Cartridge) : 0 < c.ramBanks :=
  Nat.lt_of_lt_of_le Nat.one_pos (Nat.le_max_left ..)

/-- The banks exceed the image by less than one of them. -/
theorem romBanks_size_lt (h : c.rom.size < 2 ^ 63) : c.romBanks * romBankSize < 2 ^ 64 := by
  have hbanks : c.romBanks * romBankSize ≤ c.rom.size + romBankSize := by
    unfold romBanks bankCount romBankSize
    omega
  have hroom : 2 ^ 63 + romBankSize ≤ 2 ^ 64 := by decide
  omega

/-- An address leads into a bank that exists. -/
theorem romOffset_lt (c : Cartridge) (addr : UInt16) :
    c.romOffset addr < c.romBanks * romBankSize := by
  have hbank : c.romBank (0x4000 ≤ addr) < c.romBanks := Nat.mod_lt _ c.romBanks_pos
  have hplace : addr.toNat % romBankSize < romBankSize := Nat.mod_lt _ (by decide)
  have hnext : (c.romBank (0x4000 ≤ addr) + 1) * romBankSize ≤ c.romBanks * romBankSize :=
    Nat.mul_le_mul_right _ hbank
  rw [Nat.succ_mul] at hnext
  unfold romOffset
  omega

theorem checkedRomOffset_eq (h : c.rom.size < 2 ^ 63) (addr : UInt16) :
    c.checkedRomOffset addr = .ok (c.romOffset addr) := by
  have hsize := romBanks_size_lt h
  have hoffset := c.romOffset_lt addr
  have hbank : remainder (c.banking.romBank (0x4000 ≤ addr)) c.romBanks =
      .ok (c.romBank (0x4000 ≤ addr)) := remainder_ok (Nat.ne_of_gt c.romBanks_pos)
  unfold romOffset at hoffset ⊢
  unfold checkedRomOffset
  -- every sum on the way is at most the last one, which lies in the image's banks
  rw [hbank, ok_bind, unsigned_ok (by omega), ok_bind, unsigned_ok (by omega), ok_bind,
    unsigned_ok hsize, ok_bind, ensure_ok hoffset]
  rfl

theorem checkedMappedRamBank?_eq (c : Cartridge) :
    c.checkedMappedRamBank? = .ok c.mappedRamBank? := by
  have hpos := c.ramBanks_pos
  unfold checkedMappedRamBank? mappedRamBank?
  cases c.ram.isEmpty with
  | true => rfl
  | false =>
    cases c.banking.ramBank? with
    | none => rfl
    | some bank =>
      simp only [remainder_ok (a := bank) (show c.ramBanks ≠ 0 by omega)]
      rfl

/-- No bank register holds more than a byte. -/
theorem ramBank?_lt {b : Banking} {bank : Nat} (h : b.ramBank? = some bank) : bank < 256 := by
  have hzero : (0 : Nat) < 256 := by decide
  unfold Banking.ramBank? at h
  split at h
  · exact Option.some.inj h ▸ hzero
  · rename_i r
    split at h
    · cases h
    · split at h
      · exact Option.some.inj h ▸ r.high.toNat_lt
      · exact Option.some.inj h ▸ hzero
  · split at h
    · exact Option.some.inj h ▸ hzero
    · cases h
  · rw [Option.ite_none_right_eq_some] at h
    exact Option.some.inj h.2 ▸ UInt8.toNat_lt _
  · rw [Option.ite_none_right_eq_some] at h
    exact Option.some.inj h.2 ▸ UInt8.toNat_lt _

theorem mappedRamBank?_lt {bank : Nat} (h : c.mappedRamBank? = some bank) :
    bank < 256 ∧ 0 < c.ram.size := by
  unfold mappedRamBank? at h
  split at h
  · cases h
  · rename_i hram
    obtain ⟨b, hb, rfl⟩ := Option.map_eq_some_iff.1 h
    refine ⟨Nat.lt_of_le_of_lt (Nat.mod_le _ _) (ramBank?_lt hb), ?_⟩
    exact Array.size_pos_iff.2 (by simpa using hram)

theorem checkedRamIndex?_eq (c : Cartridge) (addr : UInt16) :
    c.checkedRamIndex? addr = .ok (c.ramIndex? addr) := by
  unfold checkedRamIndex? ramIndex?
  rw [checkedMappedRamBank?_eq, ok_bind]
  cases h : c.mappedRamBank? with
  | none => rfl
  | some bank =>
    obtain ⟨hbank, hsize⟩ := mappedRamBank?_lt h
    have hoffset : (addr - 0xA000).toNat % ramBankSize < ramBankSize := Nat.mod_lt _ (by decide)
    have hnext : (bank + 1) * ramBankSize ≤ 256 * ramBankSize := Nat.mul_le_mul_right _ hbank
    have hroom : 256 * ramBankSize < 2 ^ 64 := by decide
    rw [Nat.succ_mul] at hnext
    have hbase : bank * ramBankSize < 2 ^ 64 := by omega
    have hplace : bank * ramBankSize + (addr - 0xA000).toNat % ramBankSize < 2 ^ 64 := by omega
    simp only [unsigned_ok hbase, unsigned_ok hplace, remainder_ok (Nat.ne_of_gt hsize), ok_bind,
      pure_eq_ok, map_ok, ite_ok, Option.map_some, apply_ite some]

/-- **The cell of an address exists.** -/
theorem ramIndex?_lt (h : c.InRange) {addr : UInt16} {i : Nat} (hi : c.ramIndex? addr = some i) :
    i < c.ram.size := by
  obtain ⟨bank, hb, rfl⟩ := Option.map_eq_some_iff.1 hi
  obtain ⟨-, hsize⟩ := mappedRamBank?_lt hb
  cases hn : c.banking.hasNibbleRam with
  | true =>
    -- the masked address stays within the 512 cells
    have hram := h.ram (h.nibbles hn)
    simp only [if_true, hram]
    exact Nat.mod_lt _ (by decide)
  | false =>
    simp only [Bool.false_eq_true, if_false]
    exact Nat.mod_lt _ hsize

theorem checkedReadRam_eq (h : c.InRange) (addr : UInt16) :
    c.checkedReadRam addr = .ok (c.readRam addr) := by
  unfold checkedReadRam readRam
  rw [checkedRamIndex?_eq, ok_bind]
  cases hi : c.ramIndex? addr with
  | none => rfl
  | some i =>
    have hlt := ramIndex?_lt h hi
    have hget : c.ram.getD i 0 = c.ram[i] := Array.getElem_eq_getD .. |>.symm
    simp only [place_ok hlt, ok_bind, hget]
    rfl

theorem checkedWriteRam_eq (h : c.InRange) (addr : UInt16) (v : UInt8) :
    c.checkedWriteRam addr v = .ok (c.writeRam addr v) := by
  unfold checkedWriteRam writeRam
  rw [checkedRamIndex?_eq, ok_bind]
  cases hi : c.ramIndex? addr with
  | none => rfl
  | some i =>
    have hlt := ramIndex?_lt h hi
    simp only [place_ok hlt, ok_bind, Array.setIfInBounds_def, dif_pos hlt]
    rfl

theorem checkedRead_eq (h : c.InRange) (addr : UInt16) :
    c.checkedRead addr = .ok (c.read addr) := by
  unfold checkedRead read
  rw [checkedRomOffset_eq h.rom, checkedReadRam_eq h]
  simp only [map_ok, pure_eq_ok, ite_ok]

theorem checkedWrite_eq (h : c.InRange) (addr : UInt16) (v : UInt8) :
    c.checkedWrite addr v = .ok (c.write addr v) := by
  unfold checkedWrite write
  rw [checkedWriteRam_eq h, pure_eq_ok, ite_ok]

end Cartridge

end Handheld
