/-!
# Joypad latch

Eight buttons share four lines. P1 (`FF00`) selects the direction group, the action group, both or
neither by writing zeros to bits 4 and 5, and reads the lines in its low nibble, low when pressed.

* `Joypad.lineLevels`: the low nibble, from the selection and the buttons.
* `Joypad.observe`: a line going from high to low requests the interrupt.
-/

namespace Handheld

/-- The eight buttons. -/
inductive Button where
  | a
  | b
  | select
  | start
  | right
  | left
  | up
  | down
  deriving DecidableEq

namespace Button

def isDirection : Button → Bool
  | right | left | up | down => true
  | a | b | select | start => false

/-- The line that the button pulls down. -/
def line : Button → UInt8
  | a | right => 1
  | b | left => 2
  | select | up => 4
  | start | down => 8

end Button

structure Joypad where
  /-- Bits 4 and 5 as last written; a zero selects the group. -/
  select : UInt8 := 0x30
  /-- Direction buttons held, as lines. -/
  directions : UInt8 := 0
  /-- Action buttons held, as lines. -/
  actions : UInt8 := 0
  /-- The low nibble as last observed. -/
  lines : UInt8 := 0x0F
  deriving DecidableEq

namespace Joypad

/-- The latch as the boot image leaves it: both groups selected. -/
def afterBoot : Joypad := { select := 0 }

/-- The lines that the selected groups leave high. -/
def lineLevels (j : Joypad) : UInt8 :=
  let directions := if j.select &&& 0x10 = 0 then j.directions else 0
  let actions := if j.select &&& 0x20 = 0 then j.actions else 0
  ~~~(directions ||| actions) &&& 0x0F

def read (j : Joypad) : UInt8 := 0xC0 ||| j.select ||| j.lineLevels

/-- True while a selected line is low; that wakes a stopped CPU. -/
def anyLineLow (j : Joypad) : Bool := j.lineLevels != 0x0F

/-- Takes note of the lines; true if one of them fell. -/
def observe (j : Joypad) : Joypad × Bool :=
  let now := j.lineLevels
  ({ j with lines := now }, j.lines &&& ~~~now != 0)

def write (j : Joypad) (v : UInt8) : Joypad × Bool :=
  { j with select := v &&& 0x30 }.observe

/-- The lines of a group after a button event. -/
def hold (group : UInt8) (button : Button) (pressed : Bool) : UInt8 :=
  if pressed then group ||| button.line else group &&& ~~~button.line

def setButton (j : Joypad) (button : Button) (pressed : Bool) : Joypad × Bool :=
  if button.isDirection then { j with directions := hold j.directions button pressed }.observe
  else { j with actions := hold j.actions button pressed }.observe

def isHeld (j : Joypad) (button : Button) : Bool :=
  (if button.isDirection then j.directions else j.actions) &&& button.line != 0

end Joypad

end Handheld
