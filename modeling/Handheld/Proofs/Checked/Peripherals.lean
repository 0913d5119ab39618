import Handheld.Proofs.Checked.Basic
import Handheld.Serial
import Handheld.Sound
import Handheld.Timer

/-!
# Checked peripherals

The counters of the timer and the serial port and the register file of the sound unit. Nothing here
depends on how the program got where it is.

* `Timer.checkedStep_eq`, `Timer.checkedWrite_eq`: TIMA and the delay of a reload stay in range.
* `Serial.checkedStep_eq`: neither the cycles nor the bits left of a transfer underflow.
* `Sound.checkedRead_eq`, `Sound.checkedWrite_eq`: every register has a cell.
-/

namespace Handheld

open Checked

namespace Timer

variable (t : Timer)

def checkedSignal (divider : UInt16) (tac : UInt8) : Checked Bool :=
  if tac &&& 4 = 0 then return false
  else do
    let bit ← amount 16 (selectedBit tac).toNat
    return (divider >>> bit.toUInt16) &&& 1 != 0

def checkedAdvanceReload : Checked (Timer × Bool) :=
  match t.reload with
  | none => return ({ t with reloading := false }, false)
  | some ⟨v, delay⟩ =>
    if delay = 0 then return ({ t with tima := v, reload := none, reloading := true }, true)
    else do
      let delay ← minus delay 1
      return ({ t with reload := some ⟨v, delay⟩, reloading := false }, false)

def checkedCount (modulo : UInt8) : Checked Timer :=
  if t.tima = 0xFF then return { t with tima := 0, reload := some ⟨modulo, 3⟩ }
  else do
    let tima ← unsigned 8 (t.tima.toNat + 1)
    return { t with tima := tima.toUInt8 }

def checkedSettle (before : Bool) : Checked Timer := do
  let now ← checkedSignal t.divider t.tac
  if before && !now then
    let t ← t.checkedCount t.armedModulo
    return { t with tmaBefore := none, level := now }
  else return { t with level := now }

def checkedCycle : Checked (Timer × Bool) := do
  let (t, landed) ← t.checkedAdvanceReload
  let modulo := t.armedModulo
  let before := t.level
  let t := { t with tmaBefore := none, divider := t.divider + 1 }
  let now ← checkedSignal t.divider t.tac
  let t ← if before && !now then t.checkedCount modulo else pure t
  return ({ t with level := now }, landed)

def checkedRun : Nat → Timer → Bool → Checked (Timer × Bool)
  | 0, t, asked => return (t, asked)
  | n + 1, t, asked => do
    let (t, landed) ← t.checkedCycle
    checkedRun n t (asked || landed)

def checkedStep (n : Nat) : Checked (Timer × Bool) := checkedRun n t false

def checkedClearDivider : Checked (Timer × Bool) := do
  let (t, landed) ← t.checkedAdvanceReload
  let before ← checkedSignal t.divider t.tac
  let t ← { t with divider := 0 }.checkedSettle before
  return (t, landed)

def checkedWriteControl (v : UInt8) : Checked Timer := do
  let before ← checkedSignal t.divider t.tac
  { t with tac := v &&& 7 }.checkedSettle before

def checkedWrite (addr : UInt16) (v : UInt8) : Checked (Timer × Bool) :=
  match addr with
  | 0xFF04 => t.checkedClearDivider
  | 0xFF07 => do
    let t ← t.checkedWriteControl v
    return (t, false)
  | _ => return t.write addr v

theorem checkedSignal_eq (divider : UInt16) (tac : UInt8) :
    checkedSignal divider tac = .ok (signalOf divider tac) := by
  have hbit : (selectedBit tac).toNat < 16 := by
    unfold selectedBit
    split <;> decide
  unfold checkedSignal signalOf
  by_cases h : tac &&& 4 = 0
  · simp [h]
  · simp [h, amount_ok hbit]

theorem checkedAdvanceReload_eq : t.checkedAdvanceReload = .ok t.advanceReload := by
  unfold checkedAdvanceReload advanceReload
  match t.reload with
  | none => rfl
  | some ⟨v, 0⟩ => rfl
  | some ⟨v, d + 1⟩ => rfl

theorem checkedCount_eq (modulo : UInt8) : t.checkedCount modulo = .ok (t.count modulo) := by
  have ht := t.tima.toNat_lt
  unfold checkedCount count
  split
  · rfl
  · -- the counter that stands at its last value is reloaded, not increased
    rename_i h
    have hne : t.tima.toNat ≠ 255 := fun he => h (UInt8.toNat_inj.1 he)
    have hsum : (t.tima.toNat + 1).toUInt8 = t.tima + 1 := by
      rw [← UInt8.toNat_inj]
      simp
    rw [unsigned_ok (by omega), ok_bind, hsum]
    rfl

theorem checkedSettle_eq (before : Bool) : t.checkedSettle before = .ok (t.settle before) := by
  unfold checkedSettle settle signal
  rw [checkedSignal_eq, ok_bind]
  by_cases h : (before && !signalOf t.divider t.tac) = true
  · simp only [h, if_true, checkedCount_eq, ok_bind, pure_eq_ok]
  · simp only [h, Bool.false_eq_true, if_false, pure_eq_ok]

theorem checkedCycle_eq : t.checkedCycle = .ok t.cycle := by
  unfold checkedCycle cycle signal
  rw [checkedAdvanceReload_eq, ok_bind]
  simp only [checkedSignal_eq, ok_bind]
  by_cases h : (t.advanceReload.1.level &&
      !signalOf (t.advanceReload.1.divider + 1) t.advanceReload.1.tac) = true
  · simp only [h, if_true, checkedCount_eq, ok_bind, pure_eq_ok]
  · simp only [h, Bool.false_eq_true, if_false, ok_bind, pure_eq_ok]

theorem checkedRun_eq (n : Nat) (t : Timer) (asked : Bool) :
    checkedRun n t asked = .ok (run n t asked) := by
  induction n generalizing t asked with
  | zero => rfl
  | succ n ih =>
    rw [checkedRun, checkedCycle_eq, ok_bind]
    exact ih _ _

/-- **The timer runs without fault.** -/
theorem checkedStep_eq (n : Nat) : t.checkedStep n = .ok (t.step n) := checkedRun_eq n t false

theorem checkedClearDivider_eq : t.checkedClearDivider = .ok t.clearDivider := by
  unfold checkedClearDivider
  rw [checkedAdvanceReload_eq, ok_bind]
  simp only [checkedSignal_eq, ok_bind, checkedSettle_eq]
  rfl

theorem checkedWriteControl_eq (v : UInt8) :
    t.checkedWriteControl v = .ok (t.writeControl v) := by
  unfold checkedWriteControl
  rw [checkedSignal_eq, ok_bind, checkedSettle_eq]
  rfl

theorem checkedWrite_eq (addr : UInt16) (v : UInt8) :
    t.checkedWrite addr v = .ok (t.write addr v) := by
  unfold checkedWrite
  split
  · exact t.checkedClearDivider_eq
  · rw [checkedWriteControl_eq]
    rfl
  · rfl

end Timer

namespace Serial

/-- Spends cycles on the `left` bits of a transfer, bit by bit. -/
def checkedClock (s : Serial) (period : Nat) :
    (left countdown cycles : Nat) → Checked (Serial × Bool)
  | 0, _, _ => .error .overflow
  | left + 1, countdown, cycles => do
    let spent := min cycles countdown
    let countdown ← minus countdown spent
    let cycles ← minus cycles spent
    if countdown > 0 then
      return ({ s with transfer := some ⟨left, countdown, period⟩ }, false)
    else if left = 0 then
      return ({ s.shiftIn with control := s.control &&& 0x7F, transfer := none }, true)
    else s.shiftIn.checkedClock period left period cycles

def checkedStep (s : Serial) (cycles : Nat) : Checked (Serial × Bool) :=
  match s.transfer with
  | none => return (s, false)
  | some t => s.checkedClock t.period (t.bitsAfter + 1) t.countdown cycles

theorem checkedClock_eq (s : Serial) (period bitsAfter countdown cycles : Nat) :
    s.checkedClock period (bitsAfter + 1) countdown cycles =
      .ok (s.clock period bitsAfter countdown cycles) := by
  -- a round ends the call or shifts one bit, so there are as many rounds as bits
  induction bitsAfter generalizing s countdown cycles with
  | zero =>
    rw [checkedClock, clock]
    simp only [minus_ok (Nat.min_le_right cycles countdown),
      minus_ok (Nat.min_le_left cycles countdown), ok_bind, if_true]
    by_cases h : cycles < countdown
    · have hmin : min cycles countdown = cycles := by omega
      rw [if_pos h, hmin, if_pos (by omega)]
      rfl
    · rw [if_neg h, if_neg (by omega)]
      rfl
  | succ n ih =>
    rw [checkedClock, clock]
    simp only [minus_ok (Nat.min_le_right cycles countdown),
      minus_ok (Nat.min_le_left cycles countdown), ok_bind]
    by_cases h : cycles < countdown
    · have hmin : min cycles countdown = cycles := by omega
      rw [if_pos h, hmin, if_pos (by omega)]
      rfl
    · have hmin : min cycles countdown = countdown := by omega
      rw [if_neg h, if_neg (by omega), if_neg (by omega), hmin]
      exact ih s.shiftIn period (cycles - countdown)

/-- **The serial port runs without fault.** -/
theorem checkedStep_eq (s : Serial) (cycles : Nat) :
    s.checkedStep cycles = .ok (s.step cycles) := by
  unfold checkedStep step
  cases s.transfer with
  | none => rfl
  | some t => exact checkedClock_eq s t.period t.bitsAfter t.countdown cycles

end Serial

namespace Sound

/-- The registers that a program reaches. -/
def inFile (addr : UInt16) : Bool := 0xFF10 ≤ addr && addr ≤ 0xFF3F

def checkedStored (s : Sound) (addr : UInt16) : Checked UInt8 := do
  let i ← minus addr.toNat 0xFF10
  get s.registers i

def checkedPowered (s : Sound) : Checked Bool := do
  let v ← s.checkedStored 0xFF26
  return v &&& 0x80 != 0

def checkedConverterOn (s : Sound) (c : Channel) : Checked Bool := do
  let v ← s.checkedStored c.converter
  return v &&& c.converterMask != 0

def checkedRead (s : Sound) (addr : UInt16) : Checked UInt8 :=
  if !inFile addr then return 0xFF
  else do
    let v ← s.checkedStored addr
    if addr = 0xFF26 then return (v &&& 0x80) ||| s.playing ||| readMask addr
    else return v ||| readMask addr

def checkedStart (s : Sound) (addr : UInt16) (v : UInt8) : Checked Sound :=
  match Channel.all.find? (·.trigger == addr) with
  | some c => do
    if v &&& 0x80 != 0 && (← s.checkedConverterOn c) then
      return { s with playing := s.playing ||| c.bit }
    else return s
  | none => return s

def checkedStop (s : Sound) (addr : UInt16) : Checked Sound :=
  match Channel.all.find? (·.converter == addr) with
  | some c => do
    if ← s.checkedConverterOn c then return s
    else return { s with playing := s.playing &&& ~~~c.bit }
  | none => return s

def checkedWrite (s : Sound) (addr : UInt16) (v : UInt8) : Checked Sound :=
  if !inFile addr then return s
  else do
    let i ← minus addr.toNat 0xFF10
    if addr = 0xFF26 then
      if v &&& 0x80 = 0 then return s.powerOff
      else do
        let registers ← set s.registers i 0x80
        return { s with registers }
    else if !(← s.checkedPowered) && addr < 0xFF30 then return s
    else do
      let registers ← set s.registers i v
      let s ← { s with registers }.checkedStart addr v
      s.checkedStop addr

variable (s : Sound)

/-- An address of the register file has a cell. -/
theorem index?_of_inFile {addr : UInt16} (h : inFile addr = true) :
    0xFF10 ≤ addr.toNat ∧ ∃ hi : addr.toNat - 0xFF10 < 0x30,
      index? addr = some ⟨addr.toNat - 0xFF10, hi⟩ := by
  simp only [inFile, Bool.and_eq_true, decide_eq_true_eq, UInt16.le_iff_toNat_le] at h
  obtain ⟨hlow, hhigh⟩ := h
  have hlow' : 0xFF10 ≤ addr.toNat := hlow
  have hhigh' : addr.toNat ≤ 0xFF3F := hhigh
  have hsub : (addr - 0xFF10).toNat = addr.toNat - 0xFF10 :=
    UInt16.toNat_sub_of_le _ _ (UInt16.le_iff_toNat_le.2 hlow)
  refine ⟨hlow', by omega, ?_⟩
  simp only [index?, hsub]
  exact dif_pos (by omega)

theorem index?_of_not_inFile {addr : UInt16} (h : inFile addr = false) : index? addr = none := by
  have haddr := addr.toNat_lt
  simp only [inFile, Bool.and_eq_false_iff, decide_eq_false_iff_not, UInt16.le_iff_toNat_le] at h
  have hsub : (addr - 0xFF10).toNat = (addr.toNat + (65536 - 0xFF10)) % 65536 := by
    rw [UInt16.toNat_sub]
    exact congrArg (· % 65536) (Nat.add_comm _ _)
  have hrange : addr.toNat < 0xFF10 ∨ 0xFF3F < addr.toNat :=
    h.imp Nat.not_le.1 Nat.not_le.1
  simp only [index?, hsub]
  exact dif_neg (by omega)

theorem checkedStored_eq {addr : UInt16} (h : inFile addr = true) :
    s.checkedStored addr = .ok (s.stored addr) := by
  obtain ⟨hlow, hi, hindex⟩ := index?_of_inFile h
  rw [checkedStored, stored, hindex, minus_ok hlow, ok_bind, get_ok _ hi]
  rfl

theorem checkedPowered_eq : s.checkedPowered = .ok s.powered := by
  rw [checkedPowered, checkedStored_eq s (by decide)]
  rfl

theorem checkedConverterOn_eq (c : Channel) : s.checkedConverterOn c = .ok (s.converterOn c) := by
  have hc : inFile c.converter = true := by cases c <;> decide
  rw [checkedConverterOn, checkedStored_eq s hc]
  rfl

theorem checkedRead_eq (addr : UInt16) : s.checkedRead addr = .ok (s.read addr) := by
  unfold checkedRead read
  cases h : inFile addr with
  | false =>
    rw [index?_of_not_inFile h]
    rfl
  | true =>
    obtain ⟨hlow, hi, hindex⟩ := index?_of_inFile h
    rw [hindex, checkedStored_eq s h]
    simp only [stored, hindex, ok_bind, pure_eq_ok, ite_ok]
    rfl

theorem checkedStart_eq (addr : UInt16) (v : UInt8) :
    s.checkedStart addr v = .ok (s.start addr v) := by
  unfold checkedStart start
  cases Channel.all.find? (·.trigger == addr) with
  | none => rfl
  | some c => simp only [checkedConverterOn_eq, ok_bind, pure_eq_ok, ite_ok]

theorem checkedStop_eq (addr : UInt16) : s.checkedStop addr = .ok (s.stop addr) := by
  unfold checkedStop stop
  cases Channel.all.find? (·.converter == addr) with
  | none => rfl
  | some c => simp only [checkedConverterOn_eq, ok_bind, pure_eq_ok, ite_ok]

theorem checkedWrite_eq (addr : UInt16) (v : UInt8) :
    s.checkedWrite addr v = .ok (s.write addr v) := by
  unfold checkedWrite write
  cases h : inFile addr with
  | false =>
    rw [index?_of_not_inFile h]
    rfl
  | true =>
    obtain ⟨hlow, hi, hindex⟩ := index?_of_inFile h
    simp only [hindex, minus_ok hlow, set_ok _ hi, checkedPowered_eq, checkedStart_eq,
      checkedStop_eq, ok_bind, pure_eq_ok, ite_ok, Bool.not_true, Bool.false_eq_true, if_false]

end Sound

end Handheld
