/-!
# Sound registers

The register file `FF10`–`FF3F`. Values are stored and read back through the hardware's masks, and
the channel status bits follow triggers and converters (DACs); no audio is produced.

* `Sound.read`: what is stored, with the unreadable bits as ones.
* `Sound.write`: while the power is off only the power bit and the wave memory can be written.
-/

namespace Handheld

/-- The four channels in the order of their status bits. -/
inductive Sound.Channel where
  | sweep
  | tone
  | wave
  | noise
  deriving DecidableEq

namespace Sound.Channel

def all : List Channel := [sweep, tone, wave, noise]

/-- The status bit in `FF26`. -/
def bit : Channel → UInt8
  | sweep => 1
  | tone => 2
  | wave => 4
  | noise => 8

/-- The address of the register whose bit 7 starts the channel. -/
def trigger : Channel → UInt16
  | sweep => 0xFF14
  | tone => 0xFF19
  | wave => 0xFF1E
  | noise => 0xFF23

/-- The address of the register that switches the channel's converter. -/
def converter : Channel → UInt16
  | sweep => 0xFF12
  | tone => 0xFF17
  | wave => 0xFF1A
  | noise => 0xFF21

/-- The converter is on when any of these bits is set in its register. -/
def converterMask : Channel → UInt8
  | wave => 0x80
  | _ => 0xF8

end Sound.Channel

structure Sound where
  /-- The bytes of `FF10`–`FF3F` as stored. -/
  registers : Vector UInt8 0x30 := .replicate 0x30 0
  /-- Status bits of the channels. -/
  playing : UInt8 := 0
  deriving DecidableEq

namespace Sound

/-- The registers as the boot image leaves them. -/
def afterBootRegisters : Vector UInt8 0x30 := #v[
  0x80, 0xBF, 0xF3, 0xFF, 0xBF, 0xFF, 0x3F, 0x00, 0xFF, 0xBF, 0x7F, 0xFF, 0x9F, 0xFF, 0xBF, 0xFF,
  0xFF, 0x00, 0x00, 0xBF, 0x77, 0xF3, 0xF1, 0xFF, 0xFF, 0xFF, 0xFF, 0xFF, 0xFF, 0xFF, 0xFF, 0xFF,
  0x00, 0x00, 0x00, 0x00, 0x00, 0x00, 0x00, 0x00, 0x00, 0x00, 0x00, 0x00, 0x00, 0x00, 0x00, 0x00]

/-- After the boot image the power is on and the start-up chime's channel still plays. -/
def afterBoot : Sound := { registers := afterBootRegisters, playing := 1 }

/-- The bits of a register that always read as ones. -/
def readMask (addr : UInt16) : UInt8 :=
  match addr with
  | 0xFF10 => 0x80
  | 0xFF11 | 0xFF16 => 0x3F
  | 0xFF12 | 0xFF17 | 0xFF21 | 0xFF22 | 0xFF24 | 0xFF25 => 0x00
  | 0xFF14 | 0xFF19 | 0xFF1E | 0xFF23 => 0xBF
  | 0xFF1A => 0x7F
  | 0xFF1C => 0x9F
  | 0xFF26 => 0x70
  | _ => if 0xFF30 ≤ addr ∧ addr ≤ 0xFF3F then 0x00 else 0xFF

/-- The place of an address in the register file. -/
def index? (addr : UInt16) : Option (Fin 0x30) :=
  let i := (addr - 0xFF10).toNat
  if h : i < 0x30 then some ⟨i, h⟩ else none

/-- What is stored at an address; zero outside the file. -/
def stored (s : Sound) (addr : UInt16) : UInt8 :=
  match index? addr with
  | some i => s.registers[i]
  | none => 0

/-- The power bit of `FF26`. -/
def powered (s : Sound) : Bool := s.stored 0xFF26 &&& 0x80 != 0

def converterOn (s : Sound) (c : Channel) : Bool :=
  s.stored c.converter &&& c.converterMask != 0

def read (s : Sound) (addr : UInt16) : UInt8 :=
  match index? addr with
  | none => 0xFF
  | some i =>
    if addr = 0xFF26 then (s.registers[i] &&& 0x80) ||| s.playing ||| readMask addr
    else s.registers[i] ||| readMask addr

/-- Clears every register below the wave memory and stops all channels. -/
def powerOff (s : Sound) : Sound :=
  { registers := s.registers.mapFinIdx fun i v _ => if i < 0x20 then 0 else v
    playing := 0 }

/-- Sets the status bit of a channel that a write triggered. -/
def start (s : Sound) (addr : UInt16) (v : UInt8) : Sound :=
  match Channel.all.find? (·.trigger == addr) with
  | some c =>
    if v &&& 0x80 != 0 && s.converterOn c then { s with playing := s.playing ||| c.bit } else s
  | none => s

/-- Clears the status bit of a channel whose converter a write turned off. -/
def stop (s : Sound) (addr : UInt16) : Sound :=
  match Channel.all.find? (·.converter == addr) with
  | some c => if s.converterOn c then s else { s with playing := s.playing &&& ~~~c.bit }
  | none => s

def write (s : Sound) (addr : UInt16) (v : UInt8) : Sound :=
  match index? addr with
  | none => s
  | some i =>
    if addr = 0xFF26 then
      if v &&& 0x80 = 0 then s.powerOff else { s with registers := s.registers.set i 0x80 }
    else if !s.powered && addr < 0xFF30 then s
    else ({ s with registers := s.registers.set i v }.start addr v).stop addr

end Sound

end Handheld
