import Handheld.Cartridge.Header
import Handheld.Word

/-!
# Bank registers

What each supported controller remembers, which banks that selects and how writes to the ROM area
change it. Bank numbers are not yet reduced to the banks that exist.

* `Banking.romBank`: the bank in the lower or the upper ROM window.
* `Banking.ramBank?`: the RAM bank, if RAM is enabled and selected.
* `Banking.write`: a write to the ROM area.
-/

namespace Handheld

namespace Banking

structure Mbc1 where
  low : UInt8 := 1
  high : UInt8 := 0
  /-- The second register also selects the lower ROM window and the RAM bank. -/
  advanced : Bool := false
  ramEnabled : Bool := false
  /-- A board with several games, on which four bits of the first register are wired. -/
  multicart : Bool
  deriving DecidableEq

structure Mbc2 where
  romBank : UInt8 := 1
  ramEnabled : Bool := false
  deriving DecidableEq

structure Mbc3 where
  romBank : UInt8 := 1
  ramSelect : UInt8 := 0
  ramEnabled : Bool := false
  /-- The larger variant: eight bits of ROM bank, eight RAM banks. -/
  large : Bool
  deriving DecidableEq

structure Mbc5 where
  romBank : UInt16 := 1
  ramBank : UInt8 := 0
  ramEnabled : Bool := false
  /-- Bit 3 of the RAM bank drives the motor. -/
  rumble : Bool
  deriving DecidableEq

end Banking

/-- The registers of the controllers that run. -/
inductive Banking where
  | romOnly
  | mbc1 (r : Banking.Mbc1)
  | mbc2 (r : Banking.Mbc2)
  | mbc3 (r : Banking.Mbc3)
  | mbc5 (r : Banking.Mbc5)
  deriving DecidableEq

namespace Banking

/-- Boards with several games fill 64 banks and repeat the boot logo at the start of the second
game. -/
def isMulticart (image : ByteArray) : Bool :=
  let logo := Header.slice image 0x104 0x134
  image.size / 0x4000 == 64 && !logo.all (· == 0) && Header.slice image 0x40104 0x40134 == logo

/-- The registers at power-on. -/
def initial (header : Header) (image : ByteArray) : Except ImageError Banking :=
  match header.controller with
  | .romOnly => .ok .romOnly
  | .mbc1 => .ok (.mbc1 { multicart := isMulticart image })
  | .mbc2 => .ok (.mbc2 {})
  | .mbc3 => .ok (.mbc3 { large := false })
  | .mbc30 => .ok (.mbc3 { large := true })
  | .mbc5 => .ok (.mbc5 { rumble := header.hasRumble })
  | c => .error (.unsupportedController c header.type)

/-- On MBC1 the check that keeps bank 0 out of the upper window sees all five bits of the first
register, even on a multicart. -/
def Mbc1.upperBank (r : Mbc1) : Nat :=
  let low := if r.low &&& 0x1F = 0 then 1 else r.low
  if r.multicart then (r.high.toNat <<< 4) ||| (low &&& 0x0F).toNat
  else (r.high.toNat <<< 5) ||| (low &&& 0x1F).toNat

def Mbc1.lowerBank (r : Mbc1) : Nat :=
  if !r.advanced then 0
  else if r.multicart then r.high.toNat <<< 4
  else r.high.toNat <<< 5

/-- The ROM bank in the lower or upper window. -/
def romBank (b : Banking) (upper : Bool) : Nat :=
  match b, upper with
  | .mbc1 r, false => r.lowerBank
  | _, false => 0
  | .romOnly, true => 1
  | .mbc1 r, true => r.upperBank
  | .mbc2 r, true => r.romBank.toNat
  | .mbc3 r, true => (max r.romBank 1).toNat
  | .mbc5 r, true => r.romBank.toNat

/-- The RAM bank, unless RAM is disabled. The high selects of MBC3 address a clock that is not
there. -/
def ramBank? : Banking → Option Nat
  | .romOnly => some 0
  | .mbc1 r =>
    if !r.ramEnabled then none else if r.advanced then some r.high.toNat else some 0
  | .mbc2 r => if r.ramEnabled then some 0 else none
  | .mbc3 r =>
    if r.ramEnabled && r.ramSelect ≤ (if r.large then 7 else 3) then some r.ramSelect.toNat
    else none
  | .mbc5 r =>
    if r.ramEnabled then some (r.ramBank &&& (if r.rumble then 7 else 0x0F)).toNat else none

/-- True for the controller whose RAM cells have four bits. -/
def hasNibbleRam : Banking → Bool
  | .mbc2 _ => true
  | _ => false

/-- The value that enables RAM. -/
def enablesRam (v : UInt8) : Bool := v &&& 0x0F == 0x0A

def Mbc1.write (r : Mbc1) (addr : UInt16) (v : UInt8) : Mbc1 :=
  if addr < 0x2000 then { r with ramEnabled := enablesRam v }
  else if addr < 0x4000 then { r with low := v &&& 0x1F }
  else if addr < 0x6000 then { r with high := v &&& 0x03 }
  else if addr < 0x8000 then { r with advanced := v &&& 1 != 0 }
  else r

/-- Address bit 8 picks the register. -/
def Mbc2.write (r : Mbc2) (addr : UInt16) (v : UInt8) : Mbc2 :=
  if addr < 0x4000 then
    if addr &&& 0x100 = 0 then { r with ramEnabled := enablesRam v }
    else { r with romBank := max (v &&& 0x0F) 1 }
  else r

def Mbc3.write (r : Mbc3) (addr : UInt16) (v : UInt8) : Mbc3 :=
  if addr < 0x2000 then { r with ramEnabled := enablesRam v }
  else if addr < 0x4000 then { r with romBank := max (v &&& (if r.large then 0xFF else 0x7F)) 1 }
  else if addr < 0x6000 then { r with ramSelect := v }
  else r

/-- The ROM bank has nine bits, in two registers. -/
def Mbc5.write (r : Mbc5) (addr : UInt16) (v : UInt8) : Mbc5 :=
  if addr < 0x2000 then { r with ramEnabled := enablesRam v }
  else if addr < 0x3000 then { r with romBank := word (highByte r.romBank) v }
  else if addr < 0x4000 then { r with romBank := word (v &&& 1) (lowByte r.romBank) }
  else if addr < 0x6000 then { r with ramBank := v &&& 0x0F }
  else r

def write (b : Banking) (addr : UInt16) (v : UInt8) : Banking :=
  match b with
  | .romOnly => .romOnly
  | .mbc1 r => .mbc1 (r.write addr v)
  | .mbc2 r => .mbc2 (r.write addr v)
  | .mbc3 r => .mbc3 (r.write addr v)
  | .mbc5 r => .mbc5 (r.write addr v)

end Banking

end Handheld
