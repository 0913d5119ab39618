import Mathlib.Data.Nat.Bitwise
import Handheld.Proofs.Checked.Image
import Handheld.Proofs.Machine.Reset

/-!
# What the bank registers remember

A cartridge is used by writes to any address, by snapshots put into its RAM and by resets of its
bank registers. A register is a set of addresses: all that it holds after a history of uses comes from
the last write to one of them since the last reset.

* `Cartridge.Use`, `Cartridge.after`: a history, and the cartridge that it leaves.
* `Cartridge.lastWrite`: the last write to a register.
* `Cartridge.recalls_after`: every register of every controller holds its part of that value.
-/

namespace Handheld.Cartridge

variable {c : Cartridge} {image : ByteArray} {header : Header} {addr : UInt16} {v : UInt8}

/-- What can be done with a cartridge. -/
inductive Use where
  | write (addr : UInt16) (v : UInt8)
  | restoreRam (snapshot : Array UInt8)
  | resetBanks

/-- The cartridge after a use. A snapshot of the wrong size is refused. -/
def use (c : Cartridge) : Use → Cartridge
  | .write addr v => c.write addr v
  | .restoreRam snapshot => (c.restoreRam? snapshot).getD c
  | .resetBanks => c.resetBanks

/-- The cartridge after a history of uses, the latest of which comes first. -/
def after (c : Cartridge) : List Use → Cartridge
  | [] => c
  | u :: earlier => (c.after earlier).use u

variable {u : Use} {uses : List Use}

@[simp] theorem after_nil : c.after [] = c := rfl

@[simp] theorem after_cons : c.after (u :: uses) = (c.after uses).use u := rfl

/-- The low bits of a byte as a number. -/
theorem toNat_and_ones (v mask : UInt8) (k : Nat) (hmask : mask.toNat = 2 ^ k - 1) :
    (v &&& mask).toNat = v.toNat % 2 ^ k := by
  rw [UInt8.toNat_and, hmask, Nat.and_two_pow_sub_one_eq_mod]

/-- The addresses that select a register. -/
abbrev Register := UInt16 → Bool

/-- The register behind all addresses from `first` to `last`. -/
def window (first last : Nat) : Register :=
  fun addr => decide (first ≤ addr.toNat ∧ addr.toNat ≤ last)

/-- The registers of MBC2 share the lower ROM window; bit 8 of the address picks one. -/
def mbc2Register (bit8 : Bool) : Register :=
  fun addr => decide (addr.toNat ≤ 0x3FFF) && addr.toNat.testBit 8 == bit8

/-- The value last written to a register, if it was written since the registers last had their
power-on values. -/
def lastWrite (reg : Register) : List Use → Option UInt8
  | [] => none
  | .write addr v :: earlier => if reg addr then some v else lastWrite reg earlier
  | .restoreRam _ :: earlier => lastWrite reg earlier
  | .resetBanks :: _ => none

/-- The last write as a number; before the first one `initial` stands in the register. -/
def number (reg : Register) (initial : Nat) (uses : List Use) : Nat :=
  ((lastWrite reg uses).map UInt8.toNat).getD initial

variable {reg : Register} {initial : Nat}

@[simp] theorem number_nil : number reg initial [] = initial := rfl

@[simp] theorem number_write : number reg initial (.write addr v :: uses) =
    if reg addr then v.toNat else number reg initial uses := by
  unfold number
  rw [lastWrite]
  split <;> rfl

@[simp] theorem number_resetBanks : number reg initial (.resetBanks :: uses) = initial := rfl

theorem number_lt (h : initial < 256) (uses : List Use) : number reg initial uses < 256 := by
  unfold number
  cases lastWrite reg uses with
  | none => exact h
  | some v => exact v.toNat_lt

/-- RAM is enabled by the low half `A` of what was last written to the enable register. -/
def enabled (reg : Register) (uses : List Use) : Bool := decide (number reg 0 uses % 16 = 10)

@[simp] theorem enabled_write : enabled reg (.write addr v :: uses) =
    if reg addr then Banking.enablesRam v else enabled reg uses := by
  have hv : Banking.enablesRam v = decide (v.toNat % 16 = 10) := by
    have hlow := toNat_and_ones v 0x0F 4 rfl
    rw [Banking.enablesRam, Bool.eq_iff_iff, beq_iff_eq, decide_eq_true_iff, ← UInt8.toNat_inj, hlow]
    rfl
  unfold enabled
  rw [number_write, hv]
  split <;> rfl

end Handheld.Cartridge

namespace Handheld.Banking

open Cartridge

variable {uses : List Use}

structure Mbc1.Recalls (r : Mbc1) (uses : List Use) : Prop where
  low : r.low.toNat = number (window 0x2000 0x3FFF) 1 uses % 32
  high : r.high.toNat = number (window 0x4000 0x5FFF) 0 uses % 4
  advanced : r.advanced = decide (number (window 0x6000 0x7FFF) 0 uses % 2 = 1)
  ramEnabled : r.ramEnabled = enabled (window 0x0000 0x1FFF) uses

structure Mbc2.Recalls (r : Mbc2) (uses : List Use) : Prop where
  romBank : r.romBank.toNat = max 1 (number (mbc2Register true) 1 uses % 16)
  ramEnabled : r.ramEnabled = enabled (mbc2Register false) uses

structure Mbc3.Recalls (r : Mbc3) (uses : List Use) : Prop where
  romBank : r.romBank.toNat =
    max 1 (number (window 0x2000 0x3FFF) 1 uses % if r.large then 256 else 128)
  ramSelect : r.ramSelect.toNat = number (window 0x4000 0x5FFF) 0 uses
  ramEnabled : r.ramEnabled = enabled (window 0x0000 0x1FFF) uses

structure Mbc5.Recalls (r : Mbc5) (uses : List Use) : Prop where
  romBank : r.romBank.toNat =
    256 * (number (window 0x3000 0x3FFF) 0 uses % 2) + number (window 0x2000 0x2FFF) 1 uses
  ramBank : r.ramBank.toNat = number (window 0x4000 0x5FFF) 0 uses % 16
  ramEnabled : r.ramEnabled = enabled (window 0x0000 0x1FFF) uses

/-- Register by register, a write either goes there or leaves it alone. -/
theorem Mbc1.write_eq (r : Mbc1) (addr : UInt16) (v : UInt8) :
    r.write addr v = { r with
      ramEnabled := if window 0x0000 0x1FFF addr then enablesRam v else r.ramEnabled
      low := if window 0x2000 0x3FFF addr then v &&& 0x1F else r.low
      high := if window 0x4000 0x5FFF addr then v &&& 0x03 else r.high
      advanced := if window 0x6000 0x7FFF addr then v &&& 1 != 0 else r.advanced } := by
  unfold Mbc1.write window
  simp only [UInt16.lt_iff_toNat_lt, UInt16.reduceToNat]
  split_ifs <;> grind

theorem Mbc2.write_eq (r : Mbc2) (addr : UInt16) (v : UInt8) :
    r.write addr v = { r with
      ramEnabled := if mbc2Register false addr then enablesRam v else r.ramEnabled
      romBank := if mbc2Register true addr then max (v &&& 0x0F) 1 else r.romBank } := by
  have hbit : addr &&& 0x100 = 0 ↔ addr.toNat.testBit 8 = false := by
    have hmask : (addr &&& 0x100).toNat = (addr.toNat.testBit 8).toNat * 2 ^ 8 :=
      (UInt16.toNat_and addr 0x100).trans (Nat.and_two_pow addr.toNat 8)
    rw [← UInt16.toNat_inj, hmask]
    cases addr.toNat.testBit 8 <;> decide
  unfold Mbc2.write mbc2Register
  simp only [UInt16.lt_iff_toNat_lt, UInt16.reduceToNat, hbit]
  split_ifs <;> grind

theorem Mbc3.write_eq (r : Mbc3) (addr : UInt16) (v : UInt8) :
    r.write addr v = { r with
      ramEnabled := if window 0x0000 0x1FFF addr then enablesRam v else r.ramEnabled
      romBank :=
        if window 0x2000 0x3FFF addr then max (v &&& (if r.large then 0xFF else 0x7F)) 1
        else r.romBank
      ramSelect := if window 0x4000 0x5FFF addr then v else r.ramSelect } := by
  unfold Mbc3.write window
  simp only [UInt16.lt_iff_toNat_lt, UInt16.reduceToNat]
  split_ifs <;> grind

theorem Mbc5.write_eq (r : Mbc5) (addr : UInt16) (v : UInt8) :
    r.write addr v = { r with
      ramEnabled := if window 0x0000 0x1FFF addr then enablesRam v else r.ramEnabled
      romBank := word (if window 0x3000 0x3FFF addr then v &&& 1 else highByte r.romBank)
        (if window 0x2000 0x2FFF addr then v else lowByte r.romBank)
      ramBank := if window 0x4000 0x5FFF addr then v &&& 0x0F else r.ramBank } := by
  obtain ⟨romBank, ramBank, ramEnabled, rumble⟩ := r
  have hword := word_highByte_lowByte romBank
  unfold Mbc5.write window
  simp only [UInt16.lt_iff_toNat_lt, UInt16.reduceToNat]
  split_ifs <;> grind

theorem Mbc1.Recalls.write {r : Mbc1} (h : r.Recalls uses) (addr : UInt16) (v : UInt8) :
    (r.write addr v).Recalls (.write addr v :: uses) := by
  obtain ⟨hlow, hhigh, hadvanced, henabled⟩ := h
  have hbit : (v &&& 1 != 0) = decide (v.toNat % 2 = 1) := by
    have hmod : (v &&& 1).toNat = v.toNat % 2 := toNat_and_ones v _ 1 rfl
    rw [Bool.eq_iff_iff, bne_iff_ne, decide_eq_true_iff, ne_eq, ← UInt8.toNat_inj, hmod]
    exact Nat.mod_two_ne_zero
  rw [Mbc1.write_eq]
  constructor <;> simp only [number_write, enabled_write]
  · split
    · exact toNat_and_ones v _ 5 rfl
    · exact hlow
  · split
    · exact toNat_and_ones v _ 2 rfl
    · exact hhigh
  · split
    · exact hbit
    · exact hadvanced
  · rw [henabled]

theorem toNat_max_one (v : UInt8) : (max v 1).toNat = max 1 v.toNat := by
  have hmax : max v 1 = if v ≤ 1 then 1 else v := rfl
  rw [hmax, apply_ite UInt8.toNat]
  simp only [UInt8.le_iff_toNat_le, UInt8.reduceToNat]
  split <;> omega

theorem Mbc2.Recalls.write {r : Mbc2} (h : r.Recalls uses) (addr : UInt16) (v : UInt8) :
    (r.write addr v).Recalls (.write addr v :: uses) := by
  obtain ⟨hbank, henabled⟩ := h
  rw [Mbc2.write_eq]
  constructor <;> simp only [number_write, enabled_write]
  · split
    · rw [toNat_max_one]
      exact congrArg (max 1) (toNat_and_ones v _ 4 rfl)
    · exact hbank
  · rw [henabled]

theorem Mbc3.Recalls.write {r : Mbc3} (h : r.Recalls uses) (addr : UInt16) (v : UInt8) :
    (r.write addr v).Recalls (.write addr v :: uses) := by
  obtain ⟨hbank, hselect, henabled⟩ := h
  rw [Mbc3.write_eq]
  constructor <;> simp only [number_write, enabled_write]
  · split
    · rw [toNat_max_one]
      cases r.large with
      | true => exact congrArg (max 1) (toNat_and_ones v _ 8 rfl)
      | false => exact congrArg (max 1) (toNat_and_ones v _ 7 rfl)
    · exact hbank
  · split
    · rfl
    · exact hselect
  · rw [henabled]

theorem Mbc5.Recalls.write {r : Mbc5} (h : r.Recalls uses) (addr : UInt16) (v : UInt8) :
    (r.write addr v).Recalls (.write addr v :: uses) := by
  obtain ⟨hbank, hram, henabled⟩ := h
  have hlow : number (window 0x2000 0x2FFF) 1 uses < 256 := number_lt (by decide) uses
  rw [Mbc5.write_eq]
  constructor <;> simp only [number_write, enabled_write]
  · rw [toNat_word, apply_ite UInt8.toNat, apply_ite UInt8.toNat, toNat_highByte, toNat_lowByte,
      toNat_and_ones v _ 1 rfl]
    grind
  · split
    · exact toNat_and_ones v _ 4 rfl
    · exact hram
  · rw [henabled]

/-- **What a history leaves in the registers** of the controller that a header names. -/
inductive Recalls (header : Header) (image : ByteArray) (uses : List Use) : Banking → Prop
  | romOnly (hc : header.controller = .romOnly) : Recalls header image uses .romOnly
  | mbc1 {r : Mbc1} (hc : header.controller = .mbc1) (hm : r.multicart = isMulticart image)
      (h : r.Recalls uses) : Recalls header image uses (.mbc1 r)
  | mbc2 {r : Mbc2} (hc : header.controller = .mbc2) (h : r.Recalls uses) :
      Recalls header image uses (.mbc2 r)
  | mbc3 {r : Mbc3} (hc : header.controller = if r.large then .mbc30 else .mbc3)
      (h : r.Recalls uses) : Recalls header image uses (.mbc3 r)
  | mbc5 {r : Mbc5} (hc : header.controller = .mbc5) (hr : r.rumble = header.hasRumble)
      (h : r.Recalls uses) : Recalls header image uses (.mbc5 r)

variable {header : Header} {image : ByteArray} {b : Banking}

/-- Power-on values are what an empty history leaves. -/
theorem Recalls.initial (hb : initial header image = .ok b)
    (hnone : ∀ reg initial, number reg initial uses = initial) : Recalls header image uses b := by
  have henabled : ∀ reg, enabled reg uses = false := by
    intro reg
    rw [enabled, hnone]
    rfl
  unfold Banking.initial at hb
  cases hc : header.controller <;> rw [hc] at hb <;> cases hb
  case romOnly => exact .romOnly hc
  case mbc1 => exact .mbc1 hc rfl (by constructor <;> simp [hnone, henabled])
  case mbc2 => exact .mbc2 hc (by constructor <;> simp [hnone, henabled])
  case mbc3 => exact .mbc3 hc (by constructor <;> simp [hnone, henabled])
  case mbc30 => exact .mbc3 hc (by constructor <;> simp [hnone, henabled])
  case mbc5 => exact .mbc5 hc rfl (by constructor <;> simp [hnone, henabled])

/-- One more write is one more entry of the history. -/
theorem Recalls.write (h : Recalls header image uses b) (addr : UInt16) (v : UInt8) :
    Recalls header image (.write addr v :: uses) (b.write addr v) := by
  cases h with
  | romOnly hc => exact .romOnly hc
  | mbc1 hc hm h =>
    refine .mbc1 hc ?_ (h.write addr v)
    rw [Mbc1.write_eq]
    exact hm
  | mbc2 hc h => exact .mbc2 hc (h.write addr v)
  | mbc3 hc h =>
    refine .mbc3 ?_ (h.write addr v)
    rw [Mbc3.write_eq]
    exact hc
  | mbc5 hc hr h =>
    refine .mbc5 hc ?_ (h.write addr v)
    rw [Mbc5.write_eq]
    exact hr

/-- A snapshot has no part in the registers. -/
theorem Recalls.restoreRam (h : Recalls header image uses b) (snapshot : Array UInt8) :
    Recalls header image (.restoreRam snapshot :: uses) b := by
  cases h with
  | romOnly hc => exact .romOnly hc
  | mbc1 hc hm h => exact .mbc1 hc hm ⟨h.low, h.high, h.advanced, h.ramEnabled⟩
  | mbc2 hc h => exact .mbc2 hc ⟨h.romBank, h.ramEnabled⟩
  | mbc3 hc h => exact .mbc3 hc ⟨h.romBank, h.ramSelect, h.ramEnabled⟩
  | mbc5 hc hr h => exact .mbc5 hc hr ⟨h.romBank, h.ramBank, h.ramEnabled⟩

/-- Writes outside the ROM area reach no register. -/
theorem write_of_le (b : Banking) {addr : UInt16} (v : UInt8) (haddr : 0x8000 ≤ addr) :
    b.write addr v = b := by
  have hnot : ∀ bound : UInt16, bound ≤ 0x8000 → ¬addr < bound :=
    fun bound hbound hlt => UInt16.not_le.2 (UInt16.lt_of_lt_of_le hlt hbound) haddr
  have h2 := hnot 0x2000 (by decide)
  have h3 := hnot 0x3000 (by decide)
  have h4 := hnot 0x4000 (by decide)
  have h6 := hnot 0x6000 (by decide)
  have h8 := hnot 0x8000 (by decide)
  cases b with
  | romOnly => rfl
  | mbc1 r => simp only [write, Mbc1.write, h2, h4, h6, h8, if_false]
  | mbc2 r => simp only [write, Mbc2.write, h4, if_false]
  | mbc3 r => simp only [write, Mbc3.write, h2, h4, h6, if_false]
  | mbc5 r => simp only [write, Mbc5.write, h2, h3, h4, h6, if_false]

end Handheld.Banking

namespace Handheld.Cartridge

open Banking

variable {c : Cartridge} {image : ByteArray} {r : Logged Cartridge} {addr : UInt16} {v : UInt8}
variable {u : Use} {uses : List Use}

theorem le_of_inRamWindow (h : inRamWindow addr = true) : 0x8000 ≤ addr := by
  unfold inRamWindow at h
  rw [Bool.and_eq_true, decide_eq_true_iff] at h
  exact UInt16.le_trans (by decide) h.1

/-- Whatever the address, the registers see the write; in the RAM window none of them answers. -/
theorem write_banking (c : Cartridge) (addr : UInt16) (v : UInt8) :
    (c.write addr v).banking = c.banking.write addr v := by
  unfold Cartridge.write
  split
  · rename_i hwindow
    rw [write_of_le c.banking v (le_of_inRamWindow hwindow)]
    unfold writeRam
    split <;> rfl
  · rfl

/-- The memories behind the registers keep their sizes, the image and header their contents. -/
def board (c : Cartridge) : ByteArray × Header × Nat := (c.rom, c.header, c.ram.size)

theorem write_board (c : Cartridge) (addr : UInt16) (v : UInt8) :
    (c.write addr v).board = c.board := by
  unfold Cartridge.write writeRam
  split
  · split
    · simp only [board, Array.size_setIfInBounds]
    · rfl
  · rfl

/-- A snapshot is taken as a whole or refused as a whole. -/
theorem use_restoreRam (c : Cartridge) (snapshot : Array UInt8) :
    c.use (.restoreRam snapshot) =
      { c with ram := if snapshot.size = c.ram.size then snapshot else c.ram } := by
  rw [use, restoreRam?]
  split <;> rfl

theorem use_board (c : Cartridge) (u : Use) : (c.use u).board = c.board := by
  cases u with
  | write addr v => exact write_board c addr v
  | restoreRam snapshot =>
    rw [use_restoreRam]
    simp only [board, Prod.mk.injEq, true_and]
    split
    · assumption
    · rfl
  | resetBanks =>
    obtain ⟨banking, hr⟩ := Machine.resetBanks_eq c
    rw [use, hr]
    rfl

theorem after_board (c : Cartridge) (uses : List Use) : (c.after uses).board = c.board := by
  induction uses with
  | nil => rfl
  | cons u uses ih => exact (use_board _ u).trans ih

/-- An accepted image and its header stay, and the RAM keeps its size. -/
theorem after_kept (h : ofImage image = .ok r) (uses : List Use) :
    (r.value.after uses).rom = image ∧ (r.value.after uses).header = r.value.header ∧
      (r.value.after uses).ram.size = r.value.ram.size := by
  have hboard := after_board r.value uses
  simp only [board, Prod.mk.injEq] at hboard
  exact ⟨hboard.1.trans (Machine.ofImage_ok h).1, hboard.2⟩

/-- **The registers of an accepted image hold what the history left there.** -/
theorem recalls_after (h : ofImage image = .ok r) (uses : List Use) :
    Recalls r.value.header image uses (r.value.after uses).banking := by
  obtain ⟨hrom, hinitial⟩ := Machine.ofImage_ok h
  -- a reset forgets the history before it, every other use adds to it
  induction uses with
  | nil => exact .initial hinitial fun _ _ => number_nil
  | cons u uses ih =>
    cases u with
    | write addr v =>
      rw [after_cons, use, write_banking]
      exact ih.write addr v
    | restoreRam snapshot =>
      rw [after_cons, use_restoreRam]
      exact ih.restoreRam snapshot
    | resetBanks =>
      -- the registers come from the header and the image, which the history has left alone
      obtain ⟨himage, hheader, -⟩ := after_kept h uses
      have hsame := himage.trans hrom.symm
      have hreset := Machine.resetBanks_of_initial (hrom.symm ▸ hinitial) hsame hheader
      rw [after_cons, use, hreset]
      exact .initial hinitial fun _ _ => number_resetBanks

end Handheld.Cartridge
