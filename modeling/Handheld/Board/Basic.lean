import Handheld.Board.Dma
import Handheld.Board.Map
import Handheld.Cartridge.Basic
import Handheld.Interrupts
import Handheld.Joypad
import Handheld.Ppu.Port
import Handheld.Serial
import Handheld.Sound
import Handheld.Timer

/-!
# The board

Everything around the CPU: memories, peripherals, the cartridge and the transfer engines.

* `Board.powerOn`, `Board.afterBoot`: before and after the boot image.
* `Board.read`: the byte at any address; reading changes nothing.
* `Board.dmaRead`: the byte that a transfer engine finds.
-/

namespace Handheld

structure Board where
  model : Model
  /-- Eight banks of 4 KiB; monochrome hardware has two. -/
  wram : Vector UInt8 0x8000 := .replicate _ 0
  /-- The bank at `D000`. -/
  wramBank : UInt8 := 1
  hram : Vector UInt8 0x7F := .replicate _ 0
  cartridge : Option Cartridge := none
  /-- The boot image, while it covers the cartridge. -/
  boot : Option ByteArray := none
  interrupts : Interrupts := {}
  timer : Timer := {}
  ppu : Ppu
  joypad : Joypad := {}
  serial : Serial
  sound : Sound := {}
  doubleSpeed : Bool := false
  /-- The next STOP switches the speed. -/
  speedArmed : Bool := false
  /-- What was last written to the port that starts `oamDma`. -/
  oamDmaPage : UInt8 := 0
  oamDma : Option OamDma := none
  vramDma : VramDma := {}
  /-- Bus cycles for which the CPU is held. -/
  stall : Nat := 0

namespace Board

/-- The board before any code has run. -/
def powerOn (model : Model) : Board where
  model
  ppu := .powerOn model
  serial := { model }

/-- The board as the boot image leaves it. Color hardware gets the palettes of a monochrome
cartridge, if there are any. -/
def afterBoot (model : Model) (palettes : Option BootPalettes) : Logged Board := do
  let b := powerOn model
  let ppu ← b.ppu.handOver palettes
  return { b with
    ppu
    timer := .afterBoot
    joypad := .afterBoot
    sound := .afterBoot
    interrupts := b.interrupts.writeFlags 0xE1
    oamDmaPage := 0xFF }

def insert (b : Board) (c : Cartridge) : Board := { b with cartridge := some c }

/-- Lets a boot image cover the cartridge. -/
def mapBoot (b : Board) (image : ByteArray) : Logged Board where
  value := { b with boot := some image }
  events := [.bootMapped image.size]

def bootMapped (b : Board) : Bool := b.boot.isSome

/-- The CPU cannot reach object memory while a transfer fills it. -/
def oamBusy (b : Board) : Bool :=
  match b.oamDma with
  | some d => d.delay == 0
  | none => false

/-- The cell of an address in a bank of work RAM. -/
def wramCell (bank : UInt8) (addr : UInt16) : Fin 0x8000 :=
  ⟨bank.toNat % 8 * 0x1000 + addr.toNat % 0x1000, by omega⟩

/-- The cell of an address in high RAM. -/
def hramCell (addr : UInt16) : Fin 0x7F := ⟨addr.toNat % 0x80 % 0x7F, by omega⟩

def wramByte (b : Board) (bank : UInt8) (addr : UInt16) : UInt8 := b.wram[wramCell bank addr]

def setWramByte (b : Board) (bank : UInt8) (addr : UInt16) (v : UInt8) : Board :=
  { b with wram := b.wram.set (wramCell bank addr) v }

def hramByte (b : Board) (addr : UInt16) : UInt8 := b.hram[hramCell addr]

def setHramByte (b : Board) (addr : UInt16) (v : UInt8) : Board :=
  { b with hram := b.hram.set (hramCell addr) v }

/-- The addresses that a boot image covers. The color image leaves a hole for the header. -/
def bootCovers (model : Model) (addr : UInt16) : Bool :=
  addr < 0x100 || (model.isColor && 0x200 ≤ addr && addr < 0x900)

/-- The byte of the boot image at an address that it covers. -/
def bootByte? (b : Board) (addr : UInt16) : Option UInt8 :=
  match b.boot with
  | none => none
  | some image =>
    if _ : addr.toNat < image.size then
      if bootCovers b.model addr then some image[addr.toNat] else none
    else none

/-- What the cartridge answers; an empty slot leaves the lines high. -/
def cartridgeByte (b : Board) (addr : UInt16) : UInt8 :=
  match b.cartridge with
  | some c => c.read addr
  | none => 0xFF

/-- The speed port: the speed in bit 7, whether a switch is armed in bit 0. -/
def speedStatus (b : Board) : UInt8 :=
  0x7E ||| (if b.doubleSpeed then 0x80 else 0) ||| (if b.speedArmed then 1 else 0)

def readPort (b : Board) (addr : UInt16) : UInt8 :=
  match Port.of b.model addr with
  | .unmapped | .bootUnmap | .outputMode => 0xFF
  | .joypad => b.joypad.read
  | .serial => b.serial.read addr
  | .timer => b.timer.read addr
  | .interruptFlags => b.interrupts.readFlags
  | .sound => b.sound.read addr
  | .display => b.ppu.readPort addr
  | .oamDma => b.oamDmaPage
  | .speed => b.speedStatus
  | .vramBank => b.ppu.vramBankStatus
  | .vramDma => if addr = 0xFF55 then b.vramDma.status else 0xFF
  | .workRamBank => 0xF8 ||| b.wramBank

def read (b : Board) (addr : UInt16) : UInt8 :=
  match Region.of addr with
  | .rom => (b.bootByte? addr).getD (b.cartridgeByte addr)
  | .vram => b.ppu.readVram addr
  | .cartridgeRam => b.cartridgeByte addr
  | .workRamFixed => b.wramByte 0 addr
  | .workRamBanked => b.wramByte b.wramBank addr
  | .oam => if b.oamBusy then 0xFF else b.ppu.readOam addr
  | .unusable => 0xFF
  | .port => b.readPort addr
  | .highRam => b.hramByte addr
  | .interruptEnable => b.interrupts.readEnable

/-- The byte that a transfer engine reads. The last two pages are out of its reach. -/
def dmaRead (b : Board) (addr : UInt16) : UInt8 :=
  if addr < 0xFE00 then b.read addr else 0xFF

end Board

end Handheld
