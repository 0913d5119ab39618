/-!
# Display phases

A visible line passes through a scan of the object memory, the transfer of its pixels and the
horizontal blank; ten further lines are the vertical blank.
-/

namespace Handheld.Ppu

/-- The phases, numbered as STAT reports them. -/
inductive Mode where
  | hblank
  | vblank
  | oamScan
  | transfer
  deriving DecidableEq

namespace Mode

/-- The low bits of STAT. -/
def number : Mode → UInt8
  | hblank => 0
  | vblank => 1
  | oamScan => 2
  | transfer => 3

/-- The name used in log lines. -/
def name : Mode → String
  | hblank => "HBlank"
  | vblank => "VBlank"
  | oamScan => "OamScan"
  | transfer => "Transfer"

end Mode

end Handheld.Ppu
