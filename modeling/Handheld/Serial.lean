import Handheld.Model

/-!
# Serial port

The link port with nothing plugged in. An internally clocked transfer shifts in eight ones, so it
receives `FF`; an externally clocked one waits for a partner that never arrives.

* `Serial.step`: spends cycles on the bits of the transfer, any number of them at once.
-/

namespace Handheld

/-- A transfer under way: bits after the current one, cycles left for the current one, cycles that
each bit takes. -/
structure Serial.Transfer where
  bitsAfter : Nat
  countdown : Nat
  period : Nat
  deriving DecidableEq

structure Serial where
  model : Model
  /-- SB, the byte being exchanged. -/
  data : UInt8 := 0
  /-- SC, start bit and clock selection. -/
  control : UInt8 := 0
  transfer : Option Serial.Transfer := none
  deriving DecidableEq

namespace Serial

/-- The bits of SC that the model stores; only the color model has the fast clock. -/
def controlMask : Model → UInt8
  | .mono => 0x81
  | .color => 0x83

/-- Cycles per bit: 8192 Hz, or the fast clock if SC bit 1 is set. -/
def bitPeriod (control : UInt8) : Nat :=
  if control &&& 2 != 0 then 16 else 512

/-- True when SC starts a transfer by the internal clock. -/
def starts (control : UInt8) : Bool := control &&& 0x81 == 0x81

def read (s : Serial) (addr : UInt16) : UInt8 :=
  match addr with
  | 0xFF01 => s.data
  | 0xFF02 => s.control ||| (controlMask s.model ^^^ 0xFF)
  | _ => 0xFF

/-- A write to SC abandons the transfer under way and may start another. -/
def write (s : Serial) (addr : UInt16) (v : UInt8) : Serial :=
  match addr with
  | 0xFF01 => { s with data := v }
  | 0xFF02 =>
    let control := v &&& controlMask s.model
    { s with
      control
      transfer := if starts control then some ⟨7, bitPeriod control, bitPeriod control⟩ else none }
  | _ => s

def busy (s : Serial) : Bool := s.transfer.isSome

/-- Shifts the incoming one into SB. -/
def shiftIn (s : Serial) : Serial := { s with data := (s.data <<< 1) ||| 1 }

/-- Spends `cycles` on the current bit and the `bitsAfter` that follow; true if the last bit was
shifted, which clears the start bit. -/
def clock (s : Serial) (period : Nat) : (bitsAfter countdown cycles : Nat) → Serial × Bool
  | bitsAfter, countdown, cycles =>
    if cycles < countdown then
      ({ s with transfer := some ⟨bitsAfter, countdown - cycles, period⟩ }, false)
    else
      match bitsAfter with
      | 0 => ({ s.shiftIn with control := s.control &&& 0x7F, transfer := none }, true)
      | n + 1 => s.shiftIn.clock period n period (cycles - countdown)

/-- Advances the port by `cycles`; true if the interrupt was requested. -/
def step (s : Serial) (cycles : Nat) : Serial × Bool :=
  match s.transfer with
  | none => (s, false)
  | some t => s.clock t.period t.bitsAfter t.countdown cycles

end Serial

end Handheld
