/-!
# Interrupt requests and enables

Five sources share the request register (IF, `FF0F`) and the enable register (IE, `FFFF`). Source
`n` owns bit `n`; a lower bit has priority.

* `Interrupts.pending`: the sources that are both requested and enabled.
* `Interrupts.take`: acknowledging clears the request of the highest pending source only.
-/

namespace Handheld

/-- The interrupt sources, highest priority first. -/
inductive Source where
  | vblank
  | stat
  | timer
  | serial
  | joypad
  deriving DecidableEq

namespace Source

/-- All sources in priority order. -/
def all : List Source := [vblank, stat, timer, serial, joypad]

/-- The number of the bit that the source owns in IF and IE. -/
def index : Source → UInt8
  | vblank => 0
  | stat => 1
  | timer => 2
  | serial => 3
  | joypad => 4

def bit (s : Source) : UInt8 := 1 <<< s.index

/-- The address at which the CPU continues when it services the source. -/
def vector (s : Source) : UInt16 := 0x40 + 8 * s.index.toUInt16

end Source

/-- The request and the enable register. Only the low five request bits exist. -/
structure Interrupts where
  requested : UInt8 := 0
  enabled : UInt8 := 0
  deriving DecidableEq

namespace Interrupts

/-- The bits that belong to a source. -/
def sourceMask : UInt8 := 0x1F

def raise (i : Interrupts) (s : Source) : Interrupts :=
  { i with requested := i.requested ||| s.bit }

/-- Requests the source if its component asked for it. -/
def raiseIf (i : Interrupts) (asked : Bool) (s : Source) : Interrupts :=
  bif asked then i.raise s else i

def clear (i : Interrupts) (s : Source) : Interrupts :=
  { i with requested := i.requested &&& ~~~s.bit }

def isRequested (i : Interrupts) (s : Source) : Bool :=
  i.requested &&& s.bit != 0

/-- The sources that are both requested and enabled. -/
def pending (i : Interrupts) : UInt8 :=
  i.requested &&& i.enabled &&& sourceMask

def highest? (i : Interrupts) : Option Source :=
  Source.all.find? fun s => i.pending &&& s.bit != 0

/-- Acknowledges the highest pending source. -/
def take (i : Interrupts) : Option Source × Interrupts :=
  match i.highest? with
  | some s => (some s, i.clear s)
  | none => (none, i)

/-- The bits of IF that no source owns read as ones. -/
def readFlags (i : Interrupts) : UInt8 :=
  i.requested ||| 0xE0

def writeFlags (i : Interrupts) (v : UInt8) : Interrupts :=
  { i with requested := v &&& sourceMask }

def readEnable (i : Interrupts) : UInt8 :=
  i.enabled

/-- All eight bits of IE are stored, although only five mean anything. -/
def writeEnable (i : Interrupts) (v : UInt8) : Interrupts :=
  { i with enabled := v }

end Interrupts

end Handheld
