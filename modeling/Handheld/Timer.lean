/-!
# Divider and timer

A 16-bit divider counts cycles; its high byte is DIV. TIMA counts the falling edges of one divider
bit, gated by the enable bit of TAC. When TIMA overflows it reads zero for four cycles, then the
reload lands: TIMA takes the modulo TMA and the interrupt is requested.

* `Timer.signalOf`: the level whose falling edges are counted.
* `Timer.cycle`: one cycle; the reload comes first, then the divider moves.
* `Timer.write`, `Timer.clearDivider`: changing the divider or the selection can be an edge too.

Functions that can land a reload also return whether they requested the interrupt.
-/

namespace Handheld

/-- An armed reload: the value on its way to TIMA and the cycles before the one that lands it. -/
structure Timer.Reload where
  value : UInt8
  delay : Nat
  deriving DecidableEq

structure Timer where
  /-- The 16-bit divider; DIV is its high byte. -/
  divider : UInt16 := 0
  /-- The counter. -/
  tima : UInt8 := 0
  /-- The modulo that an overflow reloads. -/
  tma : UInt8 := 0
  /-- Enable and clock select. -/
  tac : UInt8 := 0
  /-- The counted level as last seen. -/
  level : Bool := false
  /-- The modulo before a write in the current cycle. -/
  tmaBefore : Option UInt8 := none
  reload : Option Timer.Reload := none
  /-- Set in the cycle in which a reload landed. -/
  reloading : Bool := false
  deriving DecidableEq

namespace Timer

/-- The timer as the boot image leaves it when it hands over to the cartridge. -/
def afterBoot : Timer := { divider := 0xABCC }

/-- The divider bit that the clock select picks. -/
def selectedBit (tac : UInt8) : UInt16 :=
  match tac &&& 3 with
  | 0 => 9
  | 1 => 3
  | 2 => 5
  | _ => 7

/-- The selected divider bit while the timer is enabled, else low. -/
def signalOf (divider : UInt16) (tac : UInt8) : Bool :=
  tac &&& 4 != 0 && (divider >>> selectedBit tac) &&& 1 != 0

def signal (t : Timer) : Bool := signalOf t.divider t.tac

/-- True while TIMA reads zero after an overflow and before its reload. -/
def reloadArmed (t : Timer) : Bool := t.reload.isSome

/-- Lets an armed reload come one cycle closer, or land. -/
def advanceReload (t : Timer) : Timer × Bool :=
  match t.reload with
  | none => ({ t with reloading := false }, false)
  | some ⟨v, 0⟩ => ({ t with tima := v, reload := none, reloading := true }, true)
  | some ⟨v, d + 1⟩ => ({ t with reload := some ⟨v, d⟩, reloading := false }, false)

/-- Counts one edge. An overflow arms a reload of `modulo`. -/
def count (t : Timer) (modulo : UInt8) : Timer :=
  if t.tima = 0xFF then { t with tima := 0, reload := some ⟨modulo, 3⟩ }
  else { t with tima := t.tima + 1 }

/-- The modulo that an overflow in this cycle arms: a write in the same cycle comes too late. -/
def armedModulo (t : Timer) : UInt8 := t.tmaBefore.getD t.tma

/-- Compares the level before a register change with the level now, counts a falling edge and
remembers the new level. -/
def settle (t : Timer) (before : Bool) : Timer :=
  let now := t.signal
  let t := if before && !now then { t.count t.armedModulo with tmaBefore := none } else t
  { t with level := now }

/-- One cycle. A write to TMA is remembered for the first cycle after it only. -/
def cycle (t : Timer) : Timer × Bool :=
  let (t, landed) := t.advanceReload
  let modulo := t.armedModulo
  let before := t.level
  let t := { t with tmaBefore := none, divider := t.divider + 1 }
  let now := t.signal
  let t := if before && !now then t.count modulo else t
  ({ t with level := now }, landed)

/-- Runs `n` cycles on top of what was requested so far. -/
def run : Nat → Timer → Bool → Timer × Bool
  | 0, t, asked => (t, asked)
  | n + 1, t, asked =>
    let (t, landed) := t.cycle
    run n t (asked || landed)

/-- Advances the timer by `n` cycles; true if the interrupt was requested. -/
def step (t : Timer) (n : Nat) : Timer × Bool := run n t false

/-- Clears the divider. The selected bit dropping to zero counts as a falling edge. -/
def clearDivider (t : Timer) : Timer × Bool :=
  let (t, landed) := t.advanceReload
  let before := t.signal
  ({ t with divider := 0 }.settle before, landed)

def read (t : Timer) (addr : UInt16) : UInt8 :=
  match addr with
  | 0xFF04 => (t.divider >>> 8).toUInt8
  | 0xFF05 => t.tima
  | 0xFF06 => t.tma
  | 0xFF07 => t.tac ||| 0xF8
  | _ => 0xFF

/-- True while a write to TIMA loses against a reload that lands now or has just landed. -/
def counterLocked (t : Timer) : Bool :=
  t.reloading || match t.reload with
    | some r => r.delay == 0
    | none => false

/-- A write to TIMA cancels an armed reload. -/
def writeCounter (t : Timer) (v : UInt8) : Timer :=
  if t.counterLocked then t else { t with tima := v, reload := none }

/-- A write to TMA also reaches an armed reload, and TIMA in the cycle of a landing. -/
def writeModulo (t : Timer) (v : UInt8) : Timer :=
  { t with
    tmaBefore := some t.tma
    tma := v
    reload := t.reload.map fun r => { r with value := v }
    tima := if t.reloading then v else t.tima }

def writeControl (t : Timer) (v : UInt8) : Timer :=
  let before := t.signal
  { t with tac := v &&& 7 }.settle before

def write (t : Timer) (addr : UInt16) (v : UInt8) : Timer × Bool :=
  match addr with
  | 0xFF04 => t.clearDivider
  | 0xFF05 => (t.writeCounter v, false)
  | 0xFF06 => (t.writeModulo v, false)
  | 0xFF07 => (t.writeControl v, false)
  | _ => (t, false)

end Timer

end Handheld
