import Handheld.Proofs.Cartridge.RomWindows

/-!
# The RAM window

The window of 8 KiB shows cells of the RAM, if there is RAM and the registers let it through. Which
cell an address names follows from the last writes to the registers; what a cell holds follows from the
last time that a value was put there, under whatever registers.

* `Cartridge.cell?`: the cell that an address names.
* `Cartridge.stored`: the value last put into a cell.
* `Cartridge.ram_store`: reads show that value, and nothing else changes a cell.
-/

namespace Handheld

open Cartridge Banking

variable {header : Header} {image : ByteArray} {r : Logged Cartridge} {uses : List Use}
variable {addr : UInt16} {v : UInt8} {i : Nat}

namespace Cartridge

/-- The RAM bank that the last writes name, unless they disable the RAM or name none. -/
def namedRamBank? (header : Header) (uses : List Use) : Option Nat :=
  match header.controller with
  | .mbc1 =>
    if enabled (window 0x0000 0x1FFF) uses then
      if number (window 0x6000 0x7FFF) 0 uses % 2 = 1 then
        some (number (window 0x4000 0x5FFF) 0 uses % 4)
      else some 0
    else none
  | .mbc2 => if enabled (mbc2Register false) uses then some 0 else none
  | .mbc3 =>
    if enabled (window 0x0000 0x1FFF) uses ∧ number (window 0x4000 0x5FFF) 0 uses ≤ 3 then
      some (number (window 0x4000 0x5FFF) 0 uses)
    else none
  | .mbc30 =>
    if enabled (window 0x0000 0x1FFF) uses ∧ number (window 0x4000 0x5FFF) 0 uses ≤ 7 then
      some (number (window 0x4000 0x5FFF) 0 uses)
    else none
  | .mbc5 =>
    if enabled (window 0x0000 0x1FFF) uses then
      some (number (window 0x4000 0x5FFF) 0 uses % if header.hasRumble then 8 else 16)
    else none
  | _ => some 0

/-- The bank in the window, among those that a RAM of `size` bytes fills or begins. -/
def selectedRamBank? (header : Header) (size : Nat) (uses : List Use) : Option Nat :=
  if size = 0 then none else (namedRamBank? header uses).map (· % ((size + 0x1FFF) / 0x2000))

/-- The cell that an address of the window names. A RAM smaller than the window repeats. -/
def cell? (header : Header) (size : Nat) (uses : List Use) (addr : UInt16) : Option Nat :=
  (selectedRamBank? header size uses).map fun bank =>
    (bank * 0x2000 + (addr.toNat - 0xA000)) % size

/-- The addresses of the RAM window. -/
def InRam (addr : UInt16) : Prop := 0xA000 ≤ addr.toNat ∧ addr.toNat ≤ 0xBFFF

instance : Decidable (InRam addr) := inferInstanceAs (Decidable (_ ∧ _))

/-- The value last put into a cell by a write that named it or by a snapshot that was taken; zero
before the first. -/
def stored (header : Header) (size i : Nat) : List Use → UInt8
  | [] => 0
  | .write addr v :: earlier =>
    if InRam addr ∧ cell? header size earlier addr = some i then v else stored header size i earlier
  | .restoreRam snapshot :: earlier =>
    if snapshot.size = size then snapshot.getD i 0 else stored header size i earlier
  | .resetBanks :: earlier => stored header size i earlier

/-- What a cell shows of a value. On MBC2 the upper half has no cells. -/
def shown (header : Header) (v : UInt8) : UInt8 :=
  if header.controller = .mbc2 then 0xF0 ||| (v &&& 0x0F) else v

/-- **The controllers select the RAM bank that the last writes name.** -/
theorem ramBank?_eq {b : Banking} (h : Recalls header image uses b) :
    b.ramBank? = namedRamBank? header uses := by
  unfold namedRamBank?
  cases h with
  | romOnly hc => simp only [hc, ramBank?]
  | mbc1 hc hm h =>
    simp only [hc, ramBank?, h.ramEnabled, h.advanced, h.high, decide_eq_true_eq]
    cases enabled (window 0x0000 0x1FFF) uses <;> rfl
  | mbc2 hc h => simp only [hc, ramBank?, h.ramEnabled]
  | @mbc3 r hc h =>
    have hselect : ∀ last : UInt8, r.ramSelect ≤ last ↔
        number (window 0x4000 0x5FFF) 0 uses ≤ last.toNat := by
      intro last
      rw [UInt8.le_iff_toNat_le, h.ramSelect]
    cases hl : r.large <;> rw [hl] at hc <;>
      simp [hc, ramBank?, hl, h.ramEnabled, h.ramSelect, hselect]
  | @mbc5 r hc hr h =>
    have hmask : (r.ramBank &&& if header.hasRumble then 7 else 0x0F).toNat =
        number (window 0x4000 0x5FFF) 0 uses % if header.hasRumble then 8 else 16 := by
      cases header.hasRumble with
      | true =>
        have hlow : (r.ramBank &&& 7).toNat = r.ramBank.toNat % 8 := toNat_and_ones _ _ 3 rfl
        rw [if_pos rfl, if_pos rfl, hlow, h.ramBank, Nat.mod_mod_of_dvd _ (by decide)]
      | false =>
        have hlow : (r.ramBank &&& 0x0F).toNat = r.ramBank.toNat % 16 := toNat_and_ones _ _ 4 rfl
        rw [if_neg Bool.false_ne_true, if_neg Bool.false_ne_true, hlow, h.ramBank, Nat.mod_mod]
    simp only [hc, ramBank?, h.ramEnabled, hr, hmask]

theorem inRamWindow_iff : inRamWindow addr = true ↔ InRam addr := by
  simp only [inRamWindow, InRam, Bool.and_eq_true, decide_eq_true_eq, UInt16.le_iff_toNat_le,
    UInt16.reduceToNat]

theorem hasNibbleRam_iff {b : Banking} (h : Recalls header image uses b) :
    b.hasNibbleRam = true ↔ header.controller = .mbc2 := by
  cases h with
  | @mbc3 r hc h => cases hl : r.large <;> simp [hc, hl, hasNibbleRam]
  | _ => simp [hasNibbleRam, *]

/-- The RAM of an accepted image is empty and has the size that its header declares. -/
theorem ram_eq (h : ofImage image = .ok r) :
    r.value.ram = .replicate (boardRamSize r.value.header) 0 := by
  obtain ⟨header, banking, -, -, hr⟩ := ofImage_eq h
  rw [hr]

theorem mappedRamBank?_eq (h : ofImage image = .ok r) (uses : List Use) :
    (r.value.after uses).mappedRamBank? =
      selectedRamBank? r.value.header r.value.ram.size uses := by
  obtain ⟨-, -, hsize⟩ := after_kept h uses
  have hempty : (r.value.after uses).ram.isEmpty = decide (r.value.ram.size = 0) := by
    rw [← hsize]
    rfl
  unfold mappedRamBank? selectedRamBank? ramBanks
  rw [hempty, hsize, ramBank?_eq (recalls_after h uses)]
  by_cases hzero : r.value.ram.size = 0
  · simp only [hzero, decide_true, if_true]
  · have hbanks : bankCount r.value.ram.size ramBankSize = (r.value.ram.size + 0x1FFF) / 0x2000 := by
      unfold bankCount ramBankSize
      omega
    simp only [hzero, decide_false, if_false, Bool.false_eq_true, hbanks]

/-- On MBC2 there are 512 cells, in one bank. -/
theorem selectedRamBank?_mbc2 (h : ofImage image = .ok r) (uses : List Use)
    (hc : r.value.header.controller = .mbc2) :
    r.value.ram.size = 0x200 ∧
      ∀ bank ∈ selectedRamBank? r.value.header r.value.ram.size uses, bank = 0 := by
  have hnamed : namedRamBank? r.value.header uses =
      if enabled (mbc2Register false) uses then some 0 else none := by
    simp only [namedRamBank?, hc]
  obtain ⟨header, banking, hp, -, hr⟩ := ofImage_eq h
  rw [hr] at hc
  constructor
  · rw [hr]
    exact Array.size_replicate.trans (boardRamSize_mbc2 hp hc)
  · intro bank hbank
    unfold selectedRamBank? at hbank
    split at hbank
    · cases hbank
    · obtain ⟨named, hsome, rfl⟩ := Option.map_eq_some_iff.1 hbank
      rw [hnamed, Option.ite_none_right_eq_some] at hsome
      rw [← Option.some.inj hsome.2, Nat.zero_mod]

/-- **The controllers lead an address to the cell that it names.** -/
theorem ramIndex?_eq (h : ofImage image = .ok r) (uses : List Use) (haddr : InRam addr) :
    (r.value.after uses).ramIndex? addr = cell? r.value.header r.value.ram.size uses addr := by
  have hnibble := hasNibbleRam_iff (recalls_after h uses)
  obtain ⟨hlow, hhigh⟩ := haddr
  have hoffset : (addr - 0xA000).toNat % ramBankSize = addr.toNat - 0xA000 := by
    rw [UInt16.toNat_sub_of_le addr 0xA000 (UInt16.le_iff_toNat_le.2 hlow)]
    exact Nat.mod_eq_of_lt (by simp only [ramBankSize, UInt16.reduceToNat]; omega)
  obtain ⟨-, -, hsize⟩ := after_kept h uses
  unfold ramIndex? cell?
  rw [mappedRamBank?_eq h]
  refine Option.map_congr fun bank hbank => ?_
  simp only [hoffset, hsize]
  split
  · -- four bits wide: the mask of the address is the remainder by the number of cells
    rename_i hn
    obtain ⟨hcells, hbanks⟩ := selectedRamBank?_mbc2 h uses (hnibble.1 hn)
    rw [hbanks bank hbank, hcells, Nat.zero_mul, Nat.zero_add]
  · rfl

theorem cell?_lt {size : Nat} (hi : cell? header size uses addr = some i) : i < size := by
  obtain ⟨bank, hbank, rfl⟩ := Option.map_eq_some_iff.1 hi
  refine Nat.mod_lt _ (Nat.pos_of_ne_zero fun hzero => ?_)
  rw [selectedRamBank?, if_pos hzero] at hbank
  cases hbank

theorem selectedRamBank?_lt {size bank : Nat}
    (hbank : selectedRamBank? header size uses = some bank) : bank < (size + 0x1FFF) / 0x2000 := by
  unfold selectedRamBank? at hbank
  split at hbank
  · cases hbank
  · obtain ⟨named, -, rfl⟩ := Option.map_eq_some_iff.1 hbank
    exact Nat.mod_lt _ (by omega)

/-- In a RAM of whole banks a cell has one address in one bank. -/
theorem cell?_inj {size : Nat} (hsize : 0x2000 ∣ size) {uses₁ uses₂ : List Use}
    {addr₁ addr₂ : UInt16} (h₁ : InRam addr₁) (h₂ : InRam addr₂)
    (hi₁ : cell? header size uses₁ addr₁ = some i) (hi₂ : cell? header size uses₂ addr₂ = some i) :
    selectedRamBank? header size uses₁ = selectedRamBank? header size uses₂ ∧ addr₁ = addr₂ := by
  obtain ⟨bank₁, hbank₁, hcell₁⟩ := Option.map_eq_some_iff.1 hi₁
  obtain ⟨bank₂, hbank₂, hcell₂⟩ := Option.map_eq_some_iff.1 hi₂
  have hlt₁ := selectedRamBank?_lt hbank₁
  have hlt₂ := selectedRamBank?_lt hbank₂
  unfold InRam at h₁ h₂
  -- no bank reaches past the end, so the remainder changes nothing
  rw [Nat.mod_eq_of_lt (by omega)] at hcell₁ hcell₂
  rw [hbank₁, hbank₂, ← UInt16.toNat_inj]
  constructor
  · exact congrArg some (by omega)
  · omega

/-- A RAM smaller than the window repeats in it. -/
theorem cell?_small {size : Nat} (hsize : size < 0x2000)
    (hi : cell? header size uses addr = some i) : i = (addr.toNat - 0xA000) % size := by
  obtain ⟨bank, hbank, rfl⟩ := Option.map_eq_some_iff.1 hi
  have hbank := selectedRamBank?_lt hbank
  have hzero : bank = 0 := by omega
  rw [hzero, Nat.zero_mul, Nat.zero_add]

theorem read_ram (c : Cartridge) (haddr : InRam addr) : c.read addr = c.readRam addr := by
  have hhigh : ¬addr < 0x8000 := by
    simp only [UInt16.lt_iff_toNat_lt, UInt16.reduceToNat]
    exact Nat.not_lt.2 (Nat.le_trans (by decide) haddr.1)
  rw [read, if_neg hhigh, if_pos (inRamWindow_iff.2 haddr)]

theorem write_ram (c : Cartridge) (addr : UInt16) (v : UInt8) :
    (c.write addr v).ram = if InRam addr then (c.writeRam addr v).ram else c.ram := by
  unfold Cartridge.write
  rw [apply_ite Cartridge.ram]
  simp only [inRamWindow_iff]

/-- A write that names a cell goes there and nowhere else; any other write goes to no cell. -/
theorem getD_write (h : ofImage image = .ok r) (uses : List Use) (addr : UInt16) (v : UInt8)
    (i : Nat) :
    ((r.value.after uses).write addr v).ram.getD i 0 =
      if InRam addr ∧ cell? r.value.header r.value.ram.size uses addr = some i then
        if r.value.header.controller = .mbc2 then v &&& 0x0F else v
      else (r.value.after uses).ram.getD i 0 := by
  have hnibble := hasNibbleRam_iff (recalls_after h uses)
  obtain ⟨-, -, hsize⟩ := after_kept h uses
  rw [write_ram]
  by_cases haddr : InRam addr
  · rw [if_pos haddr]
    unfold writeRam
    rw [ramIndex?_eq h uses haddr]
    cases hcell : cell? r.value.header r.value.ram.size uses addr with
    | none => simp
    | some j =>
      have hlt : j < (r.value.after uses).ram.size := hsize ▸ cell?_lt hcell
      simp only [Array.getD_eq_getD_getElem?, Array.getElem?_setIfInBounds, hnibble, haddr, hlt,
        true_and, if_true, Option.some.injEq]
      split <;> rfl
  · simp only [haddr, false_and, if_false]

/-- What a cell shows does not depend on the half that MBC2 has no cells for. -/
theorem shown_eq (header : Header) (v : UInt8) :
    shown header v = if header.controller = .mbc2 then 0xF0 ||| v else v := by
  have hhalf : 0xF0 ||| (v &&& 0x0F) = 0xF0 ||| v := by
    refine forall_byte (P := fun v => 0xF0 ||| (v &&& 0x0F) = 0xF0 ||| v) ?_ v
    decide +kernel
  rw [shown, hhalf]

/-- **A cell shows the value last put there.** -/
theorem shown_stored (h : ofImage image = .ok r) (uses : List Use) (i : Nat) :
    shown r.value.header ((r.value.after uses).ram.getD i 0) =
      shown r.value.header (stored r.value.header r.value.ram.size i uses) := by
  -- along the history: only a write that names the cell and a snapshot that is taken reach it
  induction uses with
  | nil =>
    have hzero : r.value.ram.getD i 0 = 0 := by
      rw [ram_eq h, Array.getD_eq_getD_getElem?, Array.getElem?_replicate]
      split <;> rfl
    rw [after_nil, hzero, stored]
  | cons u uses ih =>
    cases u with
    | write addr v =>
      rw [after_cons, use, getD_write h, stored]
      split
      · -- the half that is lost on MBC2 is not shown
        unfold shown
        split
        · rw [UInt8.and_assoc, UInt8.and_self]
        · rfl
      · exact ih
    | restoreRam snapshot =>
      obtain ⟨-, -, hsize⟩ := after_kept h uses
      rw [after_cons, use_restoreRam, stored]
      dsimp only
      rw [hsize]
      split
      · rfl
      · exact ih
    | resetBanks =>
      obtain ⟨banking, hr⟩ := Machine.resetBanks_eq (r.value.after uses)
      rw [after_cons, use, hr, stored]
      exact ih

/-- What the RAM of an accepted cartridge `r` does after a history of uses. -/
structure RamStore (r : Cartridge) (uses : List Use) : Prop where
  /-- A read shows the value last put into the cell that the address names. -/
  read : ∀ addr, InRam addr → (r.after uses).read addr =
    match cell? r.header r.ram.size uses addr with
    | some i => shown r.header (stored r.header r.ram.size i uses)
    | none => 0xFF
  /-- The cell is the one that the cartridge accesses, and it exists. -/
  index : ∀ addr, InRam addr → (r.after uses).ramIndex? addr = cell? r.header r.ram.size uses addr ∧
    ∀ i ∈ cell? r.header r.ram.size uses addr, i < (r.after uses).ram.size
  /-- A write that names a cell changes no other. -/
  write : ∀ addr v i, ¬(InRam addr ∧ cell? r.header r.ram.size uses addr = some i) →
    ((r.after uses).write addr v).ram.getD i 0 = (r.after uses).ram.getD i 0
  /-- Register writes, and all writes while no cell is named, change no cell. -/
  frame : ∀ addr v, ¬InRam addr ∨ cell? r.header r.ram.size uses addr = none →
    ((r.after uses).write addr v).ram = (r.after uses).ram
  /-- A reset of the bank registers changes no cell. -/
  resetBanks : (r.after uses).resetBanks.ram = (r.after uses).ram
  /-- A snapshot of another size is refused. -/
  restoreRam : ∀ snapshot : Array UInt8, snapshot.size ≠ r.ram.size →
    (r.after uses).restoreRam? snapshot = none ∧
      (r.after uses).use (.restoreRam snapshot) = r.after uses

/-- **External RAM is a faithful store behind its enable latch.** The RAM starts empty, in the size
that the header declares. After any history of writes, snapshots and resets a read in the window shows
what was last put into the cell that the address names under the registers of the time, and `FF` if it
names none. In a RAM of whole banks the cells of different banks are different; a RAM smaller than the
window repeats in it. -/
theorem ram_store (h : ofImage image = .ok r) (uses : List Use) :
    r.value.ram = .replicate (boardRamSize r.value.header) 0 ∧
    RamStore r.value uses ∧
    (0x2000 ∣ r.value.ram.size → ∀ (later : List Use) (addr₁ addr₂ : UInt16) (i : Nat),
      InRam addr₁ → InRam addr₂ →
      cell? r.value.header r.value.ram.size uses addr₁ = some i →
      cell? r.value.header r.value.ram.size later addr₂ = some i →
      (r.value.after uses).mappedRamBank? = (r.value.after later).mappedRamBank? ∧
        addr₁ = addr₂) ∧
    (r.value.ram.size < 0x2000 → ∀ addr, ∀ i ∈ cell? r.value.header r.value.ram.size uses addr,
      i = (addr.toNat - 0xA000) % r.value.ram.size) := by
  obtain ⟨-, -, hsize⟩ := after_kept h uses
  refine ⟨ram_eq h, ?_, ?_, fun hsmall addr i hi => cell?_small hsmall hi⟩
  · constructor
    case read =>
      intro addr haddr
      have hnibble := hasNibbleRam_iff (recalls_after h uses)
      rw [read_ram _ haddr, readRam, ramIndex?_eq h uses haddr]
      cases cell? r.value.header r.value.ram.size uses addr with
      | none => rfl
      | some i =>
        simp only [hnibble]
        rw [← shown_stored h uses i, shown_eq]
    case index =>
      intro addr haddr
      exact ⟨ramIndex?_eq h uses haddr, fun i hi => hsize ▸ cell?_lt hi⟩
    case write =>
      intro addr v i hother
      rw [getD_write h, if_neg hother]
    case frame =>
      intro addr v hother
      rw [write_ram]
      by_cases haddr : InRam addr
      · have hnone := hother.resolve_left (not_not_intro haddr)
        rw [if_pos haddr, writeRam, ramIndex?_eq h uses haddr, hnone]
      · rw [if_neg haddr]
    case resetBanks =>
      obtain ⟨banking, hr⟩ := Machine.resetBanks_eq (r.value.after uses)
      rw [hr]
    case restoreRam =>
      intro snapshot hother
      have hnone : (r.value.after uses).restoreRam? snapshot = none := if_neg (hsize ▸ hother)
      exact ⟨hnone, by rw [use, hnone]; rfl⟩
  · intro hwhole later addr₁ addr₂ i h₁ h₂ hi₁ hi₂
    rw [mappedRamBank?_eq h, mappedRamBank?_eq h]
    exact cell?_inj hwhole h₁ h₂ hi₁ hi₂

/-- On MBC1 a byte written while the RAM is enabled outlasts a reset of the registers, and shows again
once the RAM is enabled again. -/
theorem ram_store_enabled : ∃ r, ofImage mbc1Image = .ok r ∧
    (r.value.after
      [.resetBanks, .write 0xA001 0x55, .write 0x0000 0x0A]).read 0xA001 = 0xFF ∧
    (r.value.after [.write 0x0000 0x0A, .resetBanks, .write 0xA001 0x55, .write 0x0000 0x0A]).read
      0xA001 = 0x55 := by
  obtain ⟨r, hr, hc, hsize⟩ := mbc1Image_accepted
  have hram : r.value.ram.size = 0x8000 := by
    rw [ram_eq hr, Array.size_replicate, hsize]
  have hcell : ∀ uses, number (window 0x0000 0x1FFF) 0 uses = 0x0A →
      number (window 0x6000 0x7FFF) 0 uses = 0 →
      cell? r.value.header r.value.ram.size uses 0xA001 = some 1 := by
    intro uses henabled hsimple
    rw [hram]
    simp [cell?, selectedRamBank?, namedRamBank?, hc, enabled, henabled, hsimple]
  refine ⟨r, hr, ?_, ?_⟩
  · rw [(ram_store hr _).2.1.read 0xA001 (by decide), hram]
    simp [cell?, selectedRamBank?, namedRamBank?, hc, enabled]
  · rw [(ram_store hr _).2.1.read 0xA001 (by decide), hcell _ (by decide) (by decide)]
    have hput : InRam 0xA001 ∧
        cell? r.value.header r.value.ram.size [.write 0x0000 0x0A] 0xA001 = some 1 :=
      ⟨by decide, hcell _ (by decide) (by decide)⟩
    -- the later write to the enable register lies outside the window
    have hother : ¬InRam 0x0000 := by decide
    simp [stored, hput, shown, hc, hother]

end Cartridge

end Handheld
