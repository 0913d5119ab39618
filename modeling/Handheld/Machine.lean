import Handheld.Board.Tick
import Handheld.Cpu.Step

/-!
# The machine

A CPU on its board. A machine without a cartridge does nothing.

* `Machine.load`: inserts a cartridge. With a boot image execution starts in it; without one the
  machine starts in the state that the boot image would leave.
* `Machine.reset`: starts the cartridge again; its RAM keeps its contents.
* `Machine.runFrame`: runs until the picture is complete, or for long enough to give up.
-/

namespace Handheld

structure Machine where
  cpu : Cpu := {}
  board : Board
  /-- Dots since the last load or reset. -/
  cycles : Nat := 0

namespace Machine

/-- A machine without a cartridge. -/
def powerOn (model : Model) : Machine where
  board := .powerOn model

def model (m : Machine) : Model := m.board.model

def isLoaded (m : Machine) : Bool := m.board.cartridge.isSome

/-- Vertical blanks since the last load or reset. -/
def frames (m : Machine) : Nat := m.board.ppu.frames

/-- The palettes of a monochrome cartridge on color hardware; none if it runs as it is. -/
def palettesFor (model : Model) (h : Header) : Option BootPalettes :=
  if model.isColor && !h.supportsColor then some (.ofHeader h) else none

/-- The event that a cartridge was accepted. -/
def loadedEvent (c : Cartridge) : Event :=
  .cartridgeLoaded c.header.title c.header.controller c.romBanks c.header.ramSize c.header.colorFlag

/-- The machine at the start of a boot image. -/
def startBoot (model : Model) (image : ByteArray) (c : Cartridge) : Logged Machine := do
  let b ← (Board.powerOn model).mapBoot image
  return { board := b.insert c }

/-- The machine as the boot image leaves it. -/
def startCartridge (model : Model) (c : Cartridge) : Logged Machine := do
  let palettes := palettesFor model c.header
  let b ← Board.afterBoot model palettes
  return { cpu := .afterBoot model palettes.isSome, board := b.insert c }

/-- A boot image has exactly the size that the model asks for. -/
def checkBoot (model : Model) (boot : Option ByteArray) : Except ImageError Unit :=
  match boot with
  | some image =>
    if image.size = model.bootImageSize then .ok ()
    else .error (.wrongBootImageSize image.size model.bootImageSize)
  | none => .ok ()

/-- A machine with the cartridge, ready to run. -/
def start (model : Model) (boot : Option ByteArray) (image : ByteArray) :
    Except ImageError (Logged Machine) := do
  checkBoot model boot
  let inserted ← Cartridge.ofImage image
  return do
    let c ← inserted
    Logged.report (loadedEvent c)
    match boot with
    | some bootImage => startBoot model bootImage c
    | none => startCartridge model c

/-- Replaces whatever is loaded. A machine that rejects an image is left without a cartridge. -/
def load (m : Machine) (boot : Option ByteArray) (image : ByteArray) :
    Logged (Except ImageError Unit × Machine) :=
  match start m.model boot image with
  | .ok r => (fun m => (.ok (), m)) <$> r
  | .error e => pure (.error e, powerOn m.model)

/-- Starts the cartridge again, without boot image. -/
def reset (m : Machine) : Logged Machine :=
  match m.board.cartridge with
  | none => pure m
  | some c => do
    let m ← startCartridge m.model c.resetBanks
    Logged.report .machineReset
    return m

/-- One step of the CPU; returns the dots that elapsed. -/
def step : Machine → Logged (Nat × Machine)
  | ⟨cpu, board, cycles⟩ =>
    if board.cartridge.isSome then
      let c := cpu.step board
      ⟨(c.dots, ⟨c.cpu, c.bus, cycles + c.dots⟩), c.events⟩
    else pure (0, ⟨cpu, board, cycles⟩)

/-- Nothing will complete the picture: the LCD is off, or the CPU waits for a button or hangs. -/
def cannotComplete (m : Machine) : Bool :=
  !m.board.ppu.lcdOn || m.cpu.activity == .stopped || m.cpu.activity == .locked

/-- The dots after which a frame is given up. -/
def frameLimit : Nat := 2 * Ppu.dotsPerFrame

/-- Runs steps until the frame after `start` began, the limit is reached or a frame's time has
passed without hope. `reported` holds the events so far, newest first. A step takes two dots or
more, so `frameLimit / 2` steps always reach the limit. -/
def runUntil (start : Nat) : (steps elapsed : Nat) → Machine → List Event → Logged Machine
  | 0, _, m, reported => ⟨m, reported.reverse⟩
  | steps + 1, elapsed, m, reported =>
    if m.frames ≠ start ∨ frameLimit ≤ elapsed then ⟨m, reported.reverse⟩
    else
      let s := m.step
      let m := s.value.2
      let elapsed := elapsed + s.value.1
      let reported := s.events.reverseAux reported
      if Ppu.dotsPerFrame ≤ elapsed && m.cannotComplete then ⟨m, reported.reverse⟩
      else runUntil start steps elapsed m reported

/-- Runs until the display enters its vertical blank. If it does not, because the LCD is off or the
CPU waits or hangs, a frame's time passes instead. -/
def runFrame (m : Machine) : Logged Machine :=
  if m.isLoaded then runUntil m.frames (frameLimit / 2) 0 m [] else pure m

def setButton (m : Machine) (button : Button) (pressed : Bool) : Machine :=
  { m with board := m.board.setButton button pressed }

/-- The bytes R, G, B, A of a pixel. -/
def pixelBytes (c : UInt32) : List UInt8 :=
  [(c >>> 24).toUInt8, (c >>> 16).toUInt8, (c >>> 8).toUInt8, c.toUInt8]

/-- The picture, row by row. -/
def pixels (m : Machine) : List UInt32 := m.board.ppu.frame.toList.flatMap Vector.toList

/-- Copies the picture into a buffer, as many whole pixels as fit. -/
def copyFrame (m : Machine) (buffer : List UInt8) : List UInt8 :=
  let bytes := (m.pixels.take (buffer.length / 4)).flatMap pixelBytes
  bytes ++ buffer.drop bytes.length

def header? (m : Machine) : Option Header := m.board.cartridge.map (·.header)

/-- The cartridge's RAM, if it has any. -/
def cartridgeRam? (m : Machine) : Option (Array UInt8) :=
  (m.board.cartridge.map (·.ram)).filter fun ram => !ram.isEmpty

/-- Restores the cartridge's RAM from a snapshot of the right size. -/
def restoreRam? (m : Machine) (snapshot : Array UInt8) : Option Machine := do
  let c ← m.board.cartridge
  let c ← c.restoreRam? snapshot
  return { m with board.cartridge := some c }

end Machine

end Handheld
