/-!
# Hardware variants

The handheld exists as a monochrome and as a color model. The color model has more memory banks
and a larger boot image; everything else that differs is decided where it happens.
-/

namespace Handheld

/-- The two hardware models. -/
inductive Model where
  | mono
  | color
  deriving DecidableEq, Inhabited

namespace Model

def isColor : Model → Bool
  | mono => false
  | color => true

/-- Number of 8 KiB video RAM banks. -/
def vramBanks : Model → Nat
  | mono => 1
  | color => 2

/-- Number of 4 KiB work RAM banks. -/
def wramBanks : Model → Nat
  | mono => 2
  | color => 8

/-- The exact size of a boot image. The color image leaves a hole for the cartridge header. -/
def bootImageSize : Model → Nat
  | mono => 0x100
  | color => 0x900

end Model

end Handheld
