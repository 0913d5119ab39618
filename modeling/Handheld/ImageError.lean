import Handheld.Cartridge.Controller
import Handheld.Text.Number

/-!
# Rejected images

The reasons for which a cartridge or boot image is not accepted, with their messages.
-/

namespace Handheld

inductive ImageError where
  | emptyImage
  | truncatedHeader (size : Nat)
  | invalidCartridgeType (code : UInt8)
  | unsupportedRomSize (code : UInt8)
  | unsupportedRamSize (code : UInt8)
  | wrongBootImageSize (size expected : Nat)
  /-- A known controller that does not run, with the type byte that named it. -/
  | unsupportedController (controller : Controller) (code : UInt8)
  deriving DecidableEq

namespace ImageError

/-- A byte as messages show it. -/
def code (v : UInt8) : String := "0x" ++ Text.lowerHex 2 v.toNat

def message : ImageError → String
  | emptyImage => "cartridge image is empty"
  | truncatedHeader size =>
    "cartridge image is " ++ toString size ++ " bytes, too short to hold a header"
  | invalidCartridgeType c => "invalid cartridge type " ++ code c
  | unsupportedRomSize c => "unsupported ROM size code " ++ code c
  | unsupportedRamSize c => "unsupported RAM size code " ++ code c
  | wrongBootImageSize size expected =>
    "boot image is " ++ toString size ++ " bytes, expected " ++ toString expected
  | unsupportedController c type =>
    "unsupported bank controller " ++ c.name ++ " (cartridge type " ++ code type ++ ")"

end ImageError

end Handheld
