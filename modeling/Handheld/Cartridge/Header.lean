import Handheld.ImageError
import Handheld.Text.Blank
import Handheld.Text.Utf8

/-!
# The cartridge header

The bytes `0134`–`014D` of a cartridge image name the title, the hardware that it supports, the bank
controller and the sizes of its memories.

* `Header.parse`: reads a header, or says what is wrong with it. Of several faults the first in the
  order of the checks is reported.
* `Header.checksum`: the checksum that the boot image verifies.
-/

namespace Handheld

/-- The controller of a type byte. -/
def Controller.ofCodes (type ramSize : UInt8) : Except ImageError Controller :=
  match ofCodes? type ramSize with
  | some c => .ok c
  | none => .error (.invalidCartridgeType type)

structure Header where
  title : String
  /-- The title field as stored, with the color flag as its last byte. -/
  titleBytes : List UInt8
  colorFlag : UInt8
  /-- Two characters that count if the old licensee is `33`. -/
  newLicensee : UInt8 × UInt8
  oldLicensee : UInt8
  superFlag : UInt8
  type : UInt8
  controller : Controller
  romSizeCode : UInt8
  ramSizeCode : UInt8
  /-- ROM size as declared, in banks of 16 KiB. -/
  romBanks : Nat
  /-- Size of the external RAM in bytes. -/
  ramSize : Nat
  storedChecksum : UInt8
  computedChecksum : UInt8

namespace Header

/-- The number of bytes before the first one that follows the header. -/
def requiredSize : Nat := 0x150

/-- The bytes of an image from `start` up to `stop`. -/
def slice (image : ByteArray) (start stop : Nat) : List UInt8 :=
  (image.extract start stop).toList

/-- The checksum of the bytes `0134`–`014C`. -/
def checksum (image : ByteArray) : UInt8 :=
  (slice image 0x134 0x14D).foldl (fun sum v => sum - v - 1) 0

/-- The declared number of ROM banks. -/
def romBanksOf? (code : UInt8) : Option Nat :=
  match code with
  | 0x52 => some 72
  | 0x53 => some 80
  | 0x54 => some 96
  | _ => if code ≤ 8 then some (2 <<< code.toNat) else none

/-- The declared RAM size. MBC2 has 512 cells of its own, whatever the code says. -/
def ramSizeOf? (controller : Controller) (code : UInt8) : Option Nat :=
  if controller = .mbc2 then some 0x200
  else
    match code with
    | 0 => some 0
    | 1 => some 0x800
    | 2 => some 0x2000
    | 3 => some 0x8000
    | 4 => some 0x20000
    | 5 => some 0x10000
    | _ => none

/-- The title up to the first zero byte. Cartridges for color hardware use the last byte of the
field as their color flag. -/
def titleOf (field : List UInt8) (colorFlag : UInt8) : String :=
  let field := if colorFlag &&& 0x80 != 0 then field.take 15 else field
  String.ofList (Text.trim (Text.decodeLossy (field.takeWhile (· != 0))))

def parse (image : ByteArray) : Except ImageError Header :=
  if image.size = 0 then .error .emptyImage
  else if h : image.size < requiredSize then .error (.truncatedHeader image.size)
  else
    have : 0x150 ≤ image.size := Nat.not_lt.1 h
    let type := image[0x147]
    let romSizeCode := image[0x148]
    let ramSizeCode := image[0x149]
    match Controller.ofCodes type ramSizeCode with
    | .error e => .error e
    | .ok controller =>
      match romBanksOf? romSizeCode, ramSizeOf? controller ramSizeCode with
      | none, _ => .error (.unsupportedRomSize romSizeCode)
      | some _, none => .error (.unsupportedRamSize ramSizeCode)
      | some romBanks, some ramSize =>
        let titleBytes := slice image 0x134 0x144
        let colorFlag := image[0x143]
        .ok {
          title := titleOf titleBytes colorFlag
          titleBytes, colorFlag
          newLicensee := (image[0x144], image[0x145])
          oldLicensee := image[0x14B]
          superFlag := image[0x146]
          type, controller, romSizeCode, ramSizeCode, romBanks, ramSize
          storedChecksum := image[0x14D]
          computedChecksum := checksum image }

/-- The cartridge uses color hardware if it finds it. -/
def supportsColor (h : Header) : Bool := h.colorFlag &&& 0x80 != 0

def requiresColor (h : Header) : Bool := h.colorFlag == 0xC0

/-- The cartridge uses the television adapter's extra functions. -/
def supportsSuper (h : Header) : Bool := h.superFlag == 0x03

/-- Published by the maker of the hardware, by the old or by the new licensee code. The new code is
the text `01` or the number one. -/
def isFirstParty (h : Header) : Bool :=
  match h.oldLicensee with
  | 0x01 => true
  | 0x33 => h.newLicensee == (0x30, 0x31) || h.newLicensee == (0x01, 0x00)
  | _ => false

/-- The sum by which the color boot image knows titles. -/
def titleSum (h : Header) : UInt8 := h.titleBytes.foldl (· + ·) 0

def checksumValid (h : Header) : Bool := h.storedChecksum == h.computedChecksum

def hasBattery (h : Header) : Bool :=
  [0x03, 0x06, 0x09, 0x0D, 0x0F, 0x10, 0x13, 0x1B, 0x1E, 0x22, 0xFF].contains h.type

def hasClock (h : Header) : Bool := h.type == 0x0F || h.type == 0x10

def hasRumble (h : Header) : Bool := h.type == 0x1C || h.type == 0x1D || h.type == 0x1E

end Header

end Handheld
