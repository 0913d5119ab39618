import Handheld.Cartridge.Banking
import Handheld.Event

/-!
# Cartridges

A ROM image, external RAM and the bank controller in front of them. The bus shows the ROM through
two windows of 16 KiB (`0000`–`7FFF`) and the RAM through one of 8 KiB (`A000`–`BFFF`).

* `Cartridge.ofImage`: accepts an image, or says why not.
* `Cartridge.romOffset`, `Cartridge.ramIndex?`: where an address leads.
* `Cartridge.read`, `Cartridge.write`: what the bus does with it.
-/

namespace Handheld

structure Cartridge where
  rom : ByteArray
  ram : Array UInt8
  header : Header
  banking : Banking

namespace Cartridge

/-- Size of a ROM bank. -/
def romBankSize : Nat := 0x4000

/-- Size of a RAM bank. -/
def ramBankSize : Nat := 0x2000

/-- The banks that a memory of `size` bytes fills, at least one. -/
def bankCount (size bank : Nat) : Nat := max 1 ((size + bank - 1) / bank)

/-- ROM banks that the image fills, whatever its header declares. -/
def romBanks (c : Cartridge) : Nat := bankCount c.rom.size romBankSize

def ramBanks (c : Cartridge) : Nat := bankCount c.ram.size ramBankSize

/-- The RAM on the board. Without a controller no more than one bank can be reached. -/
def boardRamSize (h : Header) : Nat :=
  if h.controller = .romOnly then min h.ramSize ramBankSize else h.ramSize

/-- What is worth a warning about an image that is accepted all the same. -/
def warnings (image : ByteArray) (h : Header) : List Event :=
  (if h.checksumValid then [] else [.checksumMismatch h.storedChecksum h.computedChecksum]) ++
    (if image.size < h.romBanks * romBankSize then [.imageTooShort image.size h.romBanks]
      else []) ++
    (if h.hasClock then [.clockMissing] else [])

/-- A cartridge with the given image and empty RAM. -/
def ofImage (image : ByteArray) : Except ImageError (Logged Cartridge) := do
  let header ← Header.parse image
  let banking ← Banking.initial header image
  return {
    value := { rom := image, ram := .replicate (boardRamSize header) 0, header, banking }
    events := warnings image header }

/-- Overwrites the RAM with a snapshot, if it has the right size. -/
def restoreRam? (c : Cartridge) (snapshot : Array UInt8) : Option Cartridge :=
  if snapshot.size = c.ram.size then some { c with ram := snapshot } else none

/-- Returns the bank registers to their power-on values; the RAM keeps its contents. -/
def resetBanks (c : Cartridge) : Cartridge :=
  match Banking.initial c.header c.rom with
  | .ok banking => { c with banking }
  | .error _ => c

/-- The ROM bank in the lower or upper window, among those that exist. -/
def romBank (c : Cartridge) (upper : Bool) : Nat := c.banking.romBank upper % c.romBanks

/-- The bank in the upper ROM window. -/
def upperRomBank (c : Cartridge) : Nat := c.romBank true

/-- The place of a ROM address in the image, possibly past its end. -/
def romOffset (c : Cartridge) (addr : UInt16) : Nat :=
  c.romBank (0x4000 ≤ addr) * romBankSize + addr.toNat % romBankSize

/-- The RAM bank behind the window, if there is one. -/
def mappedRamBank? (c : Cartridge) : Option Nat :=
  if c.ram.isEmpty then none else c.banking.ramBank?.map (· % c.ramBanks)

/-- The RAM cell of an address. A RAM smaller than the window repeats. -/
def ramIndex? (c : Cartridge) (addr : UInt16) : Option Nat :=
  c.mappedRamBank?.map fun bank =>
    let offset := (addr - 0xA000).toNat % ramBankSize
    if c.banking.hasNibbleRam then offset % 0x200 else (bank * ramBankSize + offset) % c.ram.size

/-- The image's byte; nothing answers past its end. -/
def romByte (c : Cartridge) (i : Nat) : UInt8 :=
  if h : i < c.rom.size then c.rom[i] else 0xFF

/-- True for the addresses of the RAM window. -/
def inRamWindow (addr : UInt16) : Bool := 0xA000 ≤ addr && addr ≤ 0xBFFF

def readRam (c : Cartridge) (addr : UInt16) : UInt8 :=
  match c.ramIndex? addr with
  | some i => if c.banking.hasNibbleRam then 0xF0 ||| c.ram.getD i 0 else c.ram.getD i 0
  | none => 0xFF

def writeRam (c : Cartridge) (addr : UInt16) (v : UInt8) : Cartridge :=
  match c.ramIndex? addr with
  | some i =>
    { c with ram := c.ram.setIfInBounds i (if c.banking.hasNibbleRam then v &&& 0x0F else v) }
  | none => c

def read (c : Cartridge) (addr : UInt16) : UInt8 :=
  if addr < 0x8000 then c.romByte (c.romOffset addr)
  else if inRamWindow addr then c.readRam addr
  else 0xFF

def write (c : Cartridge) (addr : UInt16) (v : UInt8) : Cartridge :=
  if inRamWindow addr then c.writeRam addr v
  else { c with banking := c.banking.write addr v }

end Cartridge

end Handheld
