import Handheld.Cartridge.Controller
import Handheld.Cpu.Instruction
import Handheld.Ppu.Mode

/-!
# Reported events

What the hardware reports while it runs, as data. Text is made only where a log is shown.

* `Event.severity`, `Event.line`: how a log shows an event.
* `Logged`: a result with the events reported on the way, oldest first. Binding appends
  (`events_bind`) and does not touch the value (`value_bind`).
-/

namespace Handheld

/-- How much an event matters, most severe first. -/
inductive Severity where
  | warn
  | info
  | debug
  | trace
  deriving DecidableEq

namespace Severity

def rank : Severity → Nat
  | warn => 0
  | info => 1
  | debug => 2
  | trace => 3

/-- A log that stops at `limit` shows events of this severity. -/
def shownAt (s limit : Severity) : Bool := s.rank ≤ limit.rank

def label : Severity → String
  | warn => "WARN"
  | info => "INFO"
  | debug => "DEBUG"
  | trace => "TRACE"

end Severity

inductive Event where
  | checksumMismatch (stored computed : UInt8)
  | imageTooShort (size banks : Nat)
  | clockMissing
  | cartridgeLoaded (title : String) (controller : Controller) (banks ramSize : Nat)
      (colorFlag : UInt8)
  | cpuLocked (opcode : UInt8) (pc : UInt16)
  | bootMapped (size : Nat)
  | bootUnmapped
  | machineReset
  | monochromeOutput
  | oamDma (source : UInt16)
  | generalDma (source target : UInt16) (blocks : Nat)
  | hblankDma (source target : UInt16) (blocks : Nat)
  | hblankDmaCancelled (blocks : Nat)
  | speedSwitched (double : Bool)
  | lcdOn
  | lcdOff
  /-- An instruction about to be executed: where its opcode was, and the registers now. -/
  | instruction (pc : UInt16) (opcode : UInt8) (op : Instruction) (registers : Registers)
  | modeSet (line : UInt8) (dot : Nat) (before after : Ppu.Mode)

namespace Event

def severity : Event → Severity
  | checksumMismatch .. | imageTooShort .. | clockMissing | cpuLocked .. => .warn
  | cartridgeLoaded .. => .info
  | bootMapped .. | bootUnmapped | machineReset | monochromeOutput | oamDma .. | generalDma ..
  | hblankDma .. | hblankDmaCancelled .. | speedSwitched .. | lcdOn | lcdOff => .debug
  | instruction .. | modeSet .. => .trace

/-- A byte or an address as messages show it. -/
def hex (width n : Nat) : String := "0x" ++ Text.lowerHex width n

/-- The route of a video memory transfer. -/
def transfer (source target : UInt16) (blocks : Nat) : String :=
  hex 4 source.toNat ++ " -> " ++ hex 4 target.toNat ++ ", " ++ toString blocks ++ " blocks"

def message : Event → String
  | checksumMismatch stored computed =>
    "header checksum mismatch: stored " ++ hex 2 stored.toNat ++ ", computed " ++
      hex 2 computed.toNat
  | imageTooShort size banks =>
    "ROM image is " ++ toString size ++ " bytes but the header declares " ++ toString banks ++
      " banks"
  | clockMissing => "cartridge clock registers are not emulated; they read 0xFF"
  | cartridgeLoaded title controller banks ramSize colorFlag =>
    "loaded \"" ++ title ++ "\": " ++ controller.name ++ ", " ++ toString banks ++
      " ROM banks, " ++ toString ramSize ++ " bytes RAM, CGB flag " ++ hex 2 colorFlag.toNat
  | cpuLocked opcode pc =>
    "undefined opcode " ++ Text.upperHex 2 opcode.toNat ++ " at " ++ Text.upperHex 4 pc.toNat ++
      ", CPU locked"
  | bootMapped size => "boot ROM mapped (" ++ toString size ++ " bytes)"
  | bootUnmapped => "boot ROM unmapped"
  | machineReset => "machine reset"
  | monochromeOutput => "PPU switched to monochrome compatibility output"
  | oamDma source => "OAM DMA from " ++ hex 4 source.toNat
  | generalDma source target blocks => "general DMA " ++ transfer source target blocks
  | hblankDma source target blocks => "HBlank DMA " ++ transfer source target blocks
  | hblankDmaCancelled blocks => "HBlank DMA cancelled, " ++ toString blocks ++ " blocks left"
  | speedSwitched double =>
    "speed switch to " ++ (if double then "double" else "normal") ++ " speed"
  | lcdOn => "LCD on"
  | lcdOff => "LCD off"
  | instruction pc opcode op registers =>
    Text.upperHex 4 pc.toNat ++ "  " ++ Text.upperHex 2 opcode.toNat ++ "  " ++ op.mnemonic ++
      "  " ++ registers.text
  | modeSet line dot before after =>
    "LY=" ++ Text.alignRight 3 line.toNat ++ " dot=" ++ Text.alignRight 3 dot ++ " " ++
      before.name ++ " -> " ++ after.name

/-- The line that a log shows. -/
def line (e : Event) : String := e.severity.label ++ " " ++ e.message

end Event

/-- A result together with the events reported on the way to it, oldest first. -/
@[ext] structure Logged (α : Type) where
  value : α
  events : List Event := []

namespace Logged

variable {α β : Type}

/-- Reports one event. -/
def report (e : Event) : Logged Unit := ⟨(), [e]⟩

/-- A result that reports nothing. -/
@[inline] def silent (a : α) : Logged α := ⟨a, []⟩

/-- Events in the order in which they were reported. Most parts report nothing, and joining those
costs nothing. -/
@[inline] def join (before after : List Event) : List Event :=
  match after with
  | [] => before
  | _ => before ++ after

theorem join_eq (before after : List Event) : join before after = before ++ after := by
  cases after <;> simp [join]

@[inline] def andThen (x : Logged α) (f : α → Logged β) : Logged β :=
  let y := f x.value
  ⟨y.value, join x.events y.events⟩

instance : Monad Logged where
  pure := silent
  bind := andThen

@[simp] theorem value_pure (a : α) : (pure a : Logged α).value = a := rfl

@[simp] theorem events_pure (a : α) : (pure a : Logged α).events = [] := rfl

@[simp] theorem value_bind (x : Logged α) (f : α → Logged β) :
    (x >>= f).value = (f x.value).value := rfl

@[simp] theorem events_bind (x : Logged α) (f : α → Logged β) :
    (x >>= f).events = x.events ++ (f x.value).events :=
  join_eq ..

@[simp] theorem value_map (f : α → β) (x : Logged α) : (f <$> x).value = f x.value := rfl

@[simp] theorem events_map (f : α → β) (x : Logged α) : (f <$> x).events = x.events := rfl

@[simp] theorem value_report (e : Event) : (report e).value = () := rfl

@[simp] theorem events_report (e : Event) : (report e).events = [e] := rfl

/-- Results compose in any bracketing, because appending lists is associative. -/
instance : LawfulMonad Logged :=
  .mk' Logged (fun _ => rfl) (fun _ _ => Logged.ext rfl (by simp))
    fun _ _ _ => Logged.ext rfl (by simp)

end Logged

end Handheld
