import Handheld.Model

/-!
# The address map

What each address is wired to, and which device answers at each port of the last page. Color
hardware has ports that monochrome hardware leaves unmapped.

* `Region.of`, `Port.of`: the two decoders.
-/

namespace Handheld

/-- The parts of the address space. -/
inductive Region where
  | rom
  | vram
  | cartridgeRam
  /-- Work RAM bank 0, also visible as its echo. -/
  | workRamFixed
  /-- The selected bank of work RAM, also visible as its echo. -/
  | workRamBanked
  | oam
  /-- The gap after the object memory. -/
  | unusable
  | port
  | highRam
  | interruptEnable
  deriving DecidableEq

/-- The region of an address. -/
def Region.of (addr : UInt16) : Region :=
  if addr < 0x8000 then rom
  else if addr < 0xA000 then vram
  else if addr < 0xC000 then cartridgeRam
  else if addr < 0xD000 then workRamFixed
  else if addr < 0xE000 then workRamBanked
  else if addr < 0xF000 then workRamFixed
  else if addr < 0xFE00 then workRamBanked
  else if addr < 0xFEA0 then oam
  else if addr < 0xFF00 then unusable
  else if addr < 0xFF80 then port
  else if addr < 0xFFFF then highRam
  else interruptEnable

/-- The devices behind the ports. -/
inductive Port where
  | unmapped
  | joypad
  | serial
  | timer
  | interruptFlags
  | sound
  | display
  | oamDma
  | bootUnmap
  /-- Color hardware: switches the display to monochrome output. -/
  | outputMode
  | speed
  | vramBank
  | vramDma
  | workRamBank
  deriving DecidableEq

namespace Port

/-- The ports that only color hardware has. -/
def ofColor (addr : UInt16) : Port :=
  match addr with
  | 0xFF4C => outputMode
  | 0xFF4D => speed
  | 0xFF4F => vramBank
  | 0xFF51 | 0xFF52 | 0xFF53 | 0xFF54 | 0xFF55 => vramDma
  | 0xFF68 | 0xFF69 | 0xFF6A | 0xFF6B | 0xFF6C => display
  | 0xFF70 => workRamBank
  | _ => unmapped

/-- The device at a port. -/
def of (model : Model) (addr : UInt16) : Port :=
  match addr with
  | 0xFF00 => joypad
  | 0xFF01 | 0xFF02 => serial
  | 0xFF04 | 0xFF05 | 0xFF06 | 0xFF07 => timer
  | 0xFF0F => interruptFlags
  | 0xFF46 => oamDma
  | 0xFF50 => bootUnmap
  | _ =>
    if 0xFF10 ≤ addr ∧ addr ≤ 0xFF3F then sound
    else if 0xFF40 ≤ addr ∧ addr ≤ 0xFF4B then display
    else if model.isColor then ofColor addr
    else unmapped

end Port

end Handheld
