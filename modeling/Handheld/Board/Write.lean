import Handheld.Board.Transfer

/-!
# Writing to the board

* `Board.write`: a write to any address.
* `Board.setButton`: a button goes down or up.
* `Board.switchSpeed`: what STOP does when a speed switch is armed.
-/

namespace Handheld.Board

/-- Takes over a timer and the interrupt that it may request. -/
def withTimer (b : Board) (r : Timer × Bool) : Board :=
  { b with timer := r.1, interrupts := b.interrupts.raiseIf r.2 .timer }

/-- Takes over a serial port and the interrupt that it may request. -/
def withSerial (b : Board) (r : Serial × Bool) : Board :=
  { b with serial := r.1, interrupts := b.interrupts.raiseIf r.2 .serial }

/-- Takes over a joypad latch and the interrupt that it may request. -/
def withJoypad (b : Board) (r : Joypad × Bool) : Board :=
  { b with joypad := r.1, interrupts := b.interrupts.raiseIf r.2 .joypad }

def withPpu (b : Board) (ppu : Ppu) : Board := { b with ppu }

def setButton (b : Board) (button : Button) (pressed : Bool) : Board :=
  b.withJoypad (b.joypad.setButton button pressed)

def clearDivider (b : Board) : Board := b.withTimer b.timer.clearDivider

/-- Only the boot image can switch the display to monochrome output. -/
def writeOutputMode (b : Board) (v : UInt8) : Logged Board :=
  if b.bootMapped && v &&& 4 != 0 then
    { value := b.withPpu b.ppu.enterMonochrome, events := [.monochromeOutput] }
  else pure b

/-- Any write uncovers the cartridge, for good. -/
def unmapBoot (b : Board) : Logged Board where
  value := { b with boot := none }
  events := if b.bootMapped then [.bootUnmapped] else []

/-- Bank 0 cannot be selected; it stands for bank 1. -/
def selectWramBank (b : Board) (v : UInt8) : Board := { b with wramBank := max 1 (v &&& 7) }

def writePort (b : Board) (addr : UInt16) (v : UInt8) : Logged Board :=
  match Port.of b.model addr with
  | .unmapped => pure b
  | .joypad => pure (b.withJoypad (b.joypad.write v))
  | .serial => pure { b with serial := b.serial.write addr v }
  | .timer => pure (b.withTimer (b.timer.write addr v))
  | .interruptFlags => pure { b with interrupts := b.interrupts.writeFlags v }
  | .sound => pure { b with sound := b.sound.write addr v }
  | .display => b.withPpu <$> b.ppu.writePort addr v
  | .oamDma => b.startOamDma v
  | .bootUnmap => b.unmapBoot
  | .outputMode => b.writeOutputMode v
  | .speed => pure { b with speedArmed := v &&& 1 != 0 }
  | .vramBank => pure (b.withPpu (b.ppu.selectVramBank v))
  | .vramDma => b.writeVramDma addr v
  | .workRamBank => pure (b.selectWramBank v)

def writeCartridge (b : Board) (addr : UInt16) (v : UInt8) : Board :=
  { b with cartridge := b.cartridge.map (·.write addr v) }

/-- The CPU cannot write to object memory while a transfer fills it. -/
def writeOam (b : Board) (addr : UInt16) (v : UInt8) : Board :=
  if b.oamBusy then b else { b with ppu := b.ppu.writeOam addr v }

def write (b : Board) (addr : UInt16) (v : UInt8) : Logged Board :=
  match Region.of addr with
  | .rom | .cartridgeRam => pure (b.writeCartridge addr v)
  | .vram => pure { b with ppu := b.ppu.writeVram addr v }
  | .workRamFixed => pure (b.setWramByte 0 addr v)
  | .workRamBanked => pure (b.setWramByte b.wramBank addr v)
  | .oam => pure (b.writeOam addr v)
  | .unusable => pure b
  | .port => b.writePort addr v
  | .highRam => pure (b.setHramByte addr v)
  | .interruptEnable => pure { b with interrupts := b.interrupts.writeEnable v }

/-- Bus cycles for which a speed switch holds the CPU. -/
def switchStall : Nat := 2050

/-- Performs an armed speed switch; false if none is armed. The divider starts again. -/
def switchSpeed (b : Board) : Logged (Bool × Board) :=
  if b.model.isColor && b.speedArmed then
    let double := !b.doubleSpeed
    let b := { b with doubleSpeed := double, speedArmed := false }.clearDivider
    { value := (true, { b with stall := b.stall + switchStall })
      events := [.speedSwitched double] }
  else pure (false, b)

end Handheld.Board
