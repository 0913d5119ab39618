import Handheld.Ppu.Scanline

/-!
# Phases of a frame

A visible line is 456 dots: 80 for the scan of object memory, 172 or more for the transfer of its
pixels and the rest for the horizontal blank. Lines 144 to 153 are the vertical blank.

* `Ppu.startFrame`, `Ppu.switchOff`: switching the LCD on and off.
* `Ppu.tick`: one dot; the phases follow from the dot within the line.
* `Ppu.updateStat`: the STAT interrupt is requested when one of its enabled sources becomes active
  while none was.
* `Ppu.step`: any number of dots; nothing happens while the LCD is off.
-/

namespace Handheld.Ppu

/-- Dots before the transfer of a line. -/
def scanDots : Nat := 80

/-- Dots of the shortest transfer. -/
def transferBase : Nat := 172

/-- Dots that the window adds to a transfer. -/
def windowPenalty : Nat := 6

/-- Dots that each sprite adds to a transfer. -/
def spritePenalty : Nat := 6

/-- A transfer leaves at least 16 dots to the horizontal blank. -/
def transferLimit : Nat := dotsPerLine - scanDots - 16

def setMode (p : Ppu) (mode : Mode) : Logged Ppu where
  value := { p with mode }
  events := [.modeSet p.ly p.dot p.mode mode]

/-- Compares the line with LYC; the last result stays while the LCD is off. -/
def compareLine (p : Ppu) : Ppu :=
  if p.lcdOn then { p with coincidence := p.ly == p.controls.lyc } else p

/-- The window is armed for the rest of the frame on the line where WY is reached. -/
def beginScan (p : Ppu) : Logged Ppu :=
  { p with window.triggered := p.window.triggered || p.ly == p.controls.wy }.setMode .oamScan

def startFrame (p : Ppu) : Logged Ppu :=
  ({ p with
    ly := 0
    dot := 0
    window.line := 0
    window.triggered := false } : Ppu).compareLine.beginScan

/-- Rewinds to the start of a frame and blanks the picture. -/
def switchOff (p : Ppu) : Logged Ppu where
  value :=
    { p with
      mode := .hblank
      dot := 0
      ly := 0
      window.line := 0
      statLine := false
      extraScanEdge := false
      frame := blankFrame p.model }
  events := [.lcdOff]

/-- Sprites are drawn in the order of object memory on color output, unless OPRI asks for the other
order. -/
def drawsByIndex (p : Ppu) : Bool := p.colorOutput && p.controls.opri &&& 1 == 0

/-- Latches the sprites of the line. -/
def latchSprites (p : Ppu) : Ppu :=
  { p with
    sprites := Sprite.latch p.oam p.ly.toNat p.controls.spriteHeight p.drawsByIndex
    spriteHeight := p.controls.spriteHeight }

/-- The window starts on this line. -/
def windowStarts (p : Ppu) : Bool :=
  p.controls.windowOn && p.window.triggered && p.controls.wx ≤ 166

/-- The length of the transfer: fine scrolling, the window and every sprite cost time. -/
def transferLength (scx : UInt8) (window : Bool) (sprites : Nat) : Nat :=
  min transferLimit
    (transferBase + scx.toNat % 8 + (if window then windowPenalty else 0) + spritePenalty * sprites)

def beginTransfer (p : Ppu) : Logged Ppu :=
  let p := p.latchSprites
  let onLine := p.windowStarts
  { p with
    window.onLine := onLine
    transferDots := transferLength p.controls.scx onLine p.sprites.length }.setMode .transfer

/-- Ends the transfer: the line appears in the picture. -/
def beginHBlank (p : Ppu) : Logged Ppu := p.drawLine.setMode .hblank

/-- Enters the vertical blank. Monochrome hardware also fires the scan source here. -/
def beginVBlank (p : Ppu) : Logged Ppu := do
  let p ← p.setMode .vblank
  return { p with
    frames := p.frames + 1
    extraScanEdge := p.extraScanEdge || !p.model.isColor }

/-- Goes to the next line; true if that enters the vertical blank. -/
def nextLine (p : Ppu) : Logged (Ppu × Bool) := do
  let p := { p with dot := 0, ly := p.ly + 1 }
  if p.ly = 144 then
    let p ← p.beginVBlank
    return (p.compareLine, true)
  else if p.ly = 154 then
    let p ← p.startFrame
    return (p, false)
  else if p.ly < 144 then
    let p ← p.beginScan
    return (p.compareLine, false)
  else return (p.compareLine, false)

/-- The phase of the current line is one of the enabled STAT sources. -/
def modeSource (p : Ppu) : Bool :=
  match p.mode with
  | .hblank => p.controls.onHBlank
  | .vblank => p.controls.onVBlank
  | .oamScan => p.controls.onOamScan
  | .transfer => false

/-- Follows the STAT sources; true if the interrupt is requested. -/
def updateStat (p : Ppu) : Ppu × Bool :=
  let level := (p.coincidence && p.controls.onCoincidence) || p.modeSource
  let extra := p.extraScanEdge && p.controls.onOamScan
  ({ p with statLine := level || extra, extraScanEdge := false }, (level && !p.statLine) || extra)

/-- Changes phase within a line if the dot is due; true if the horizontal blank begins. -/
def advancePhase (p : Ppu) : Logged (Ppu × Bool) :=
  match p.mode with
  | .oamScan => if p.dot = scanDots then (·, false) <$> p.beginTransfer else pure (p, false)
  | .transfer =>
    if p.dot = scanDots + p.transferDots then (·, true) <$> p.beginHBlank else pure (p, false)
  | .hblank | .vblank => pure (p, false)

/-- One dot while the LCD is on. -/
def tick (p : Ppu) : Logged (Ppu × Signals) := do
  let (p, hblank) ← { p with dot := p.dot + 1 }.advancePhase
  let (p, vblank) ← if p.dot = dotsPerLine then p.nextLine else pure (p, false)
  let (p, stat) := p.updateStat
  return (p, { vblank, stat, hblank })

/-- Runs `n` dots on top of what happened so far. -/
def run : Nat → Logged (Ppu × Signals) → Logged (Ppu × Signals)
  | 0, r => r
  | n + 1, r => run n do
    let (p, before) ← r
    let (p, now) ← p.tick
    return (p, before.merge now)

/-- Advances the display by `n` dots. -/
def step (p : Ppu) (n : Nat) : Logged (Ppu × Signals) :=
  if p.lcdOn then run n (pure (p, {})) else pure (p, {})

end Handheld.Ppu
