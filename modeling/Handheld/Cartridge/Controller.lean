/-!
# Bank controllers

The chips between the bus and a cartridge's memories, as the type byte of the header names them.
-/

namespace Handheld

/-- The known bank controller families. -/
inductive Controller where
  | romOnly
  | mbc1
  | mbc2
  | mbc3
  | mbc30
  | mbc5
  | mmm01
  | mbc6
  | mbc7
  | pocketCamera
  | tama5
  | huc3
  | huc1
  deriving DecidableEq

namespace Controller

/-- The controller of a type byte, if there is one. An MBC3 board whose RAM size code is 5 carries
the MBC30 variant. -/
def ofCodes? (type ramSize : UInt8) : Option Controller :=
  match type with
  | 0x00 | 0x08 | 0x09 => some romOnly
  | 0x01 | 0x02 | 0x03 => some mbc1
  | 0x05 | 0x06 => some mbc2
  | 0x0B | 0x0C | 0x0D => some mmm01
  | 0x0F | 0x10 | 0x11 | 0x12 | 0x13 => some (if ramSize = 5 then mbc30 else mbc3)
  | 0x19 | 0x1A | 0x1B | 0x1C | 0x1D | 0x1E => some mbc5
  | 0x20 => some mbc6
  | 0x22 => some mbc7
  | 0xFC => some pocketCamera
  | 0xFD => some tama5
  | 0xFE => some huc3
  | 0xFF => some huc1
  | _ => none

/-- True if cartridges with this controller run. -/
def isSupported : Controller → Bool
  | romOnly | mbc1 | mbc2 | mbc3 | mbc30 | mbc5 => true
  | mmm01 | mbc6 | mbc7 | pocketCamera | tama5 | huc3 | huc1 => false

def name : Controller → String
  | romOnly => "ROM only"
  | mbc1 => "MBC1"
  | mbc2 => "MBC2"
  | mbc3 => "MBC3"
  | mbc30 => "MBC30"
  | mbc5 => "MBC5"
  | mmm01 => "MMM01"
  | mbc6 => "MBC6"
  | mbc7 => "MBC7"
  | pocketCamera => "Pocket Camera"
  | tama5 => "TAMA5"
  | huc3 => "HuC3"
  | huc1 => "HuC1"

end Controller

end Handheld
