import Handheld.Ppu.Phase

/-!
# Display registers on the bus

Reading and writing `FF40`–`FF4B` and, on color hardware, `FF68`–`FF6C`.

* `Ppu.readPort`, `Ppu.writePort`: a write to LCDC can switch the LCD on or off.
* `Ppu.handOver`: the state that the boot image leaves.
-/

namespace Handheld.Ppu

/-- STAT: the enabled sources, the coincidence and the phase. -/
def readStat (p : Ppu) : UInt8 :=
  p.controls.sources ||| 0x80 ||| p.mode.number ||| (if p.coincidence then 4 else 0)

/-- Ports that only color hardware has. -/
def readColorPort (p : Ppu) (addr : UInt16) : UInt8 :=
  match addr with
  | 0xFF68 => p.background.index
  | 0xFF69 => p.background.readData
  | 0xFF6A => p.objects.index
  | 0xFF6B => p.objects.readData
  | 0xFF6C => p.controls.opri ||| 0xFE
  | _ => 0xFF

def readPort (p : Ppu) (addr : UInt16) : UInt8 :=
  match addr with
  | 0xFF40 => p.controls.lcdc
  | 0xFF41 => p.readStat
  | 0xFF42 => p.controls.scy
  | 0xFF43 => p.controls.scx
  | 0xFF44 => p.ly
  | 0xFF45 => p.controls.lyc
  | 0xFF47 => p.controls.bgp
  | 0xFF48 => p.controls.obp0
  | 0xFF49 => p.controls.obp1
  | 0xFF4A => p.controls.wy
  | 0xFF4B => p.controls.wx
  | _ => if p.model.isColor then p.readColorPort addr else 0xFF

/-- Stores LCDC; its highest bit switches the LCD. -/
def writeLcdc (p : Ppu) (v : UInt8) : Logged Ppu :=
  let q := { p with controls.lcdc := v }
  match p.lcdOn, q.lcdOn with
  | true, false => q.switchOff
  | false, true => do
    Logged.report .lcdOn
    q.startFrame
  | _, _ => pure q

def writeColorPort (p : Ppu) (addr : UInt16) (v : UInt8) : Ppu :=
  match addr with
  | 0xFF68 => { p with background := p.background.writeIndex v }
  | 0xFF69 => { p with background := p.background.writeData v }
  | 0xFF6A => { p with objects := p.objects.writeIndex v }
  | 0xFF6B => { p with objects := p.objects.writeData v }
  | 0xFF6C => { p with controls.opri := v &&& 1 }
  | _ => p

/-- The registers that just store what is written. -/
def writeControl (p : Ppu) (addr : UInt16) (v : UInt8) : Ppu :=
  match addr with
  | 0xFF41 => { p with controls.sources := v &&& 0x78 }
  | 0xFF42 => { p with controls.scy := v }
  | 0xFF43 => { p with controls.scx := v }
  | 0xFF45 => { p with controls.lyc := v }.compareLine
  | 0xFF47 => { p with controls.bgp := v }
  | 0xFF48 => { p with controls.obp0 := v }
  | 0xFF49 => { p with controls.obp1 := v }
  | 0xFF4A => { p with controls.wy := v }
  | 0xFF4B => { p with controls.wx := v }
  | _ => if p.model.isColor then p.writeColorPort addr v else p

def writePort (p : Ppu) (addr : UInt16) (v : UInt8) : Logged Ppu :=
  if addr = 0xFF40 then p.writeLcdc v else pure (p.writeControl addr v)

/-- Color hardware draws like monochrome hardware from now on, with shades looked up in palette
RAM. -/
def enterMonochrome (p : Ppu) : Ppu := { p with colorOutput := false }

/-- Loads the palettes of a monochrome cartridge and draws with them. -/
def usePalettes (p : Ppu) (palettes : BootPalettes) : Ppu :=
  { p with
    objects := (p.objects.setPalette 0 palettes.object0).setPalette 1 palettes.object1
    background := p.background.setPalette 0 palettes.background
    controls.opri := 1 }.enterMonochrome

/-- The state that the boot image leaves: the LCD is on and a frame begins. Color hardware gets the
palettes of a monochrome cartridge, if there are any. -/
def handOver (p : Ppu) (palettes : Option BootPalettes) : Logged Ppu := do
  let p := { p with
    controls.lcdc := 0x91
    controls.sources := 0
    controls.bgp := 0xFC
    controls.obp0 := 0xFF
    controls.obp1 := 0xFF }
  let p := match p.model, palettes with
    | .color, some palettes => p.usePalettes palettes
    | _, _ => p
  let p ← p.startFrame
  return { p with statLine := false, extraScanEdge := false }

end Handheld.Ppu
