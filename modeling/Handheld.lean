import Handheld.Board.Basic
import Handheld.Board.Dma
import Handheld.Board.Map
import Handheld.Board.Tick
import Handheld.Board.Transfer
import Handheld.Board.Write
import Handheld.Cartridge.Banking
import Handheld.Cartridge.Basic
import Handheld.Cartridge.BootPalettes
import Handheld.Cartridge.Controller
import Handheld.Cartridge.Header
import Handheld.Cpu.Alu
import Handheld.Cpu.Basic
import Handheld.Cpu.Bus
import Handheld.Cpu.FlatBus
import Handheld.Cpu.Instruction
import Handheld.Cpu.Opcode
import Handheld.Cpu.Registers
import Handheld.Cpu.Step
import Handheld.Cpu.Traced
import Handheld.Event
import Handheld.ImageError
import Handheld.Interrupts
import Handheld.Joypad
import Handheld.Machine
import Handheld.Model
import Handheld.Ppu.Basic
import Handheld.Ppu.Mode
import Handheld.Ppu.Palette
import Handheld.Ppu.Phase
import Handheld.Ppu.Port
import Handheld.Ppu.Scanline
import Handheld.Ppu.Sprite
import Handheld.Proofs.Board.Clock
import Handheld.Proofs.Board.Untouched
import Handheld.Proofs.Cpu.Cost
import Handheld.Proofs.Cpu.Invariant
import Handheld.Proofs.Cpu.Masking
import Handheld.Proofs.Cpu.Tracing
import Handheld.Proofs.Cpu.Work
import Handheld.Proofs.Machine.Clock
import Handheld.Proofs.Ppu.Clock
import Handheld.Proofs.Ppu.Phase
import Handheld.Serial
import Handheld.Sound
import Handheld.Text.Blank
import Handheld.Text.Number
import Handheld.Text.Utf8
import Handheld.Timer
import Handheld.Word
import Handheld.Proofs.Machine.Reset
import Handheld.Proofs.Ppu.Erasure
import Handheld.Proofs.Ppu.Reel
import Handheld.Proofs.Checked.Alu
import Handheld.Proofs.Checked.Peripherals
import Handheld.Proofs.Checked.Cartridge
import Handheld.Proofs.Checked.Image
import Handheld.Proofs.Checked.Drawing
import Handheld.Proofs.Checked.Display
import Handheld.Proofs.Checked.Board
import Handheld.Proofs.Checked.Tick
import Handheld.Proofs.Checked.Machine
import Handheld.Proofs.Timer.Edges
import Handheld.Proofs.Cpu.Forgetting
import Handheld.Proofs.Cpu.History
import Handheld.Proofs.Board.Cycles
import Handheld.Proofs.Board.ObjectTransfer
import Handheld.Proofs.Board.Requests
import Handheld.Proofs.Ppu.Memories
import Handheld.Proofs.Ppu.Blanks
import Handheld.Proofs.Board.Reachable
import Handheld.Proofs.Board.BlockTransfer
import Handheld.Proofs.Machine.Interrupts
import Handheld.Proofs.Ppu.Odometer
import Handheld.Proofs.Board.Ticking
import Handheld.Proofs.Board.Burden
import Handheld.Proofs.Machine.Frame
import Handheld.Proofs.Cartridge.Registers
import Handheld.Proofs.Cartridge.RomWindows
import Handheld.Proofs.Cartridge.RamStore
import Handheld.Proofs.Cpu.Control
import Handheld.Proofs.Board.Monochrome
import Handheld.Proofs.Board.WorkMemory
import Handheld.Proofs.Machine.Waiting
import Handheld.Proofs.Ppu.Guise
import Handheld.Proofs.Ppu.Outputs
import Handheld.Proofs.Ppu.Compatibility
import Handheld.Proofs.Machine.Loading
import Handheld.Proofs.Timer.Reloads
import Handheld.Proofs.Machine.Reloads
import Handheld.Proofs.Cpu.Dispatch
import Handheld.Proofs.Timer.ReloadWindow
import Handheld.Proofs.Ppu.StatLine
import Handheld.Proofs.Ppu.Compositing
import Handheld.Proofs.Cpu.Enabling
import Handheld.Proofs.Ppu.StatEdges
import Handheld.Proofs.Timer.Schedule
import Handheld.Proofs.Timer.Period
import Handheld.Proofs.Serial.Spending
import Handheld.Proofs.Serial.Transfers
import Handheld.Proofs.Ppu.Selection
import Handheld.Proofs.Cpu.LongArithmetic
import Handheld.Proofs.Cpu.PackedDecimal
import Handheld.Proofs.Cpu.Effects
import Handheld.Proofs.Joypad.Lines
import Handheld.Proofs.Ppu.PaletteStream
import Handheld.Proofs.Cpu.Stack
import Handheld.Proofs.Board.BootOverlay
import Handheld.Proofs.Machine.BootPhase
import Handheld.Proofs.Sound.Writes
