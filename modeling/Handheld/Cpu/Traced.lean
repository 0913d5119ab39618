import Handheld.Cpu.Bus
import Handheld.Text.Number

/-!
# Recording bus activity

* `Traced`: any bus together with a record of what the CPU did on it. The CPU cannot tell a traced
  bus from the bus inside.
-/

namespace Handheld

/-- What a CPU does on its bus. -/
inductive Access where
  | read (addr : UInt16) (v : UInt8)
  | write (addr : UInt16) (v : UInt8)
  | tick
  | clearDivider
  | switchSpeed
  deriving DecidableEq

namespace Access

/-- A read or write with its address and value. -/
def transferText (kind : String) (addr : UInt16) (v : UInt8) : String :=
  kind ++ Text.upperHex 4 addr.toNat ++ ":" ++ Text.upperHex 2 v.toNat

def text : Access → String
  | read addr v => transferText "r" addr v
  | write addr v => transferText "w" addr v
  | tick => "t"
  | clearDivider => "D"
  | switchSpeed => "S"

end Access

structure Traced (β : Type) where
  bus : β
  /-- What happened so far, oldest first. -/
  accesses : List Access := []

namespace Traced

variable {β : Type}

/-- The same bus after one more access. -/
def after (t : Traced β) (bus : β) (a : Access) : Traced β := ⟨bus, t.accesses ++ [a]⟩

instance [Bus β] : Bus (Traced β) where
  read8 t addr :=
    let (v, bus) := Bus.read8 t.bus addr
    (v, t.after bus (.read addr v))
  write8 t addr v := (t.after · (.write addr v)) <$> Bus.write8 t.bus addr v
  tick t := (fun (dots, bus) => (dots, t.after bus .tick)) <$> Bus.tick t.bus
  interrupts t := Bus.interrupts t.bus
  setInterrupts t i := { t with bus := Bus.setInterrupts t.bus i }
  clearDivider t := t.after (Bus.clearDivider t.bus) .clearDivider
  switchSpeed t := (fun (done, bus) => (done, t.after bus .switchSpeed)) <$> Bus.switchSpeed t.bus
  buttonHeld t := Bus.buttonHeld t.bus

end Traced

end Handheld
