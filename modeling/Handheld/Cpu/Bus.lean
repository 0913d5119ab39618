import Handheld.Event
import Handheld.Interrupts

/-!
# What the CPU sees

The CPU reaches the rest of the machine through a few operations. Every read and every write is
followed by one `tick`, which lets the peripherals run for one bus cycle.
-/

namespace Handheld

/-- A machine around the CPU. -/
class Bus (β : Type) where
  read8 : β → UInt16 → UInt8 × β
  write8 : β → UInt16 → UInt8 → Logged β
  /-- One bus cycle; returns the dots that elapsed. -/
  tick : β → Logged (Nat × β)
  interrupts : β → Interrupts
  setInterrupts : β → Interrupts → β
  /-- Clears the divider, as STOP does. -/
  clearDivider : β → β := fun bus => bus
  /-- Performs an armed speed switch; false if none was armed. -/
  switchSpeed : β → Logged (Bool × β) := fun bus => pure (false, bus)
  /-- True while a selected joypad line reads low. -/
  buttonHeld : β → Bool := fun _ => false

end Handheld
