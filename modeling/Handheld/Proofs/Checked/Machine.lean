import Handheld.Proofs.Checked.Alu
import Handheld.Proofs.Checked.Image
import Handheld.Proofs.Checked.Tick
import Handheld.Proofs.Machine.Reset

/-!
# No request is at fault

A machine answers any requests in any order: images that it accepts or rejects, steps, frames,
buttons, snapshots, resets and reads of any address. As long as the 64 bits of its dot counter
suffice, none of them meets a fault.

* `Machine.InRange`: the invariant between requests.
* `checkedStep_eq`, `checkedRunFrame_eq`: steps and frames; a frame ends.
* `checkedLoad_eq`, `checkedReset_eq`: a cartridge starts.
* `requests_faultless` (any requests to a new machine): the checked replies are the replies.
-/

namespace Handheld.Board

open Checked

/-- The board as the boot image leaves it. -/
def checkedAfterBoot (model : Model) (palettes : Option BootPalettes) : Checked Board := do
  let b := powerOn model
  let ppu ← b.ppu.checkedHandOver palettes
  return { b with
    ppu
    timer := .afterBoot
    joypad := .afterBoot
    sound := .afterBoot
    interrupts := b.interrupts.writeFlags 0xE1
    oamDmaPage := 0xFF }

theorem checkedAfterBoot_eq (model : Model) (palettes : Option BootPalettes) :
    checkedAfterBoot model palettes = .ok (afterBoot model palettes).value := by
  rw [checkedAfterBoot, Ppu.checkedHandOver_eq]
  rfl

theorem first_bank_lt (model : Model) : (1 : UInt8).toNat < model.wramBanks := by
  cases model <;> decide

theorem powerOn_inRange (model : Model) : (powerOn model).InRange :=
  ⟨.powerOn, first_bank_lt model, nofun, Nat.zero_le _⟩

theorem afterBoot_inRange (model : Model) (palettes : Option BootPalettes) :
    (afterBoot model palettes).value.InRange :=
  ⟨.handOver palettes, first_bank_lt model, nofun, Nat.zero_le _⟩

end Handheld.Board

namespace Handheld.Machine

open Checked

variable {m : Machine}

/-- **The invariant of a machine** between requests. -/
structure InRange (m : Machine) : Prop where
  board : m.board.InRange
  pressure : m.board.pressure ≤ Board.drainLimit

def checkedStep : Machine → Checked (Nat × Machine)
  | ⟨cpu, board, cycles⟩ =>
    if board.cartridge.isSome then do
      let c := cpu.step (.ok board : Checked Board)
      let board ← c.bus
      let dots ← unsigned 32 c.dots
      let cycles ← unsigned 64 (cycles + dots)
      return (dots, ⟨c.cpu, board, cycles⟩)
    else return (0, ⟨cpu, board, cycles⟩)

/-- **A step meets no fault** while the dot counter suffices. -/
theorem checkedStep_eq (h : m.InRange) (hclock : m.step.value.2.cycles < 2 ^ 64) :
    m.checkedStep = .ok m.step.value ∧ m.step.value.2.InRange ∧ m.step.value.1 < 2 ^ 32 := by
  unfold checkedStep
  by_cases hl : m.isLoaded = true
  · obtain ⟨hcpu, hdots, hwidth, hsame, hok, hp⟩ := Board.checked_step m.cpu h.board h.pressure
    have hc : m.board.cartridge.isSome = true := hl
    rw [step_loaded hl] at hclock ⊢
    simp only [hc, if_true, hcpu, hdots, hsame, ok_bind, unsigned_ok hwidth, unsigned_ok hclock]
    exact ⟨rfl, ⟨hok, hp⟩, hwidth⟩
  · have hl' : m.isLoaded = false := by simpa using hl
    have hc : m.board.cartridge.isSome = false := hl'
    rw [step_unloaded hl']
    simp only [hc, Bool.false_eq_true, if_false]
    exact ⟨rfl, h, by decide⟩

/-- Runs a frame; a loop that needs more than `steps` rounds is at fault. -/
def checkedRunUntil (start : Nat) : (steps elapsed : Nat) → Machine → Checked Machine
  | 0, elapsed, m =>
    if m.frames ≠ start ∨ frameLimit ≤ elapsed then return m else .error .unfinished
  | steps + 1, elapsed, m =>
    if m.frames ≠ start ∨ frameLimit ≤ elapsed then return m
    else do
      let (dots, m) ← m.checkedStep
      let elapsed ← unsigned 64 (elapsed + dots)
      if Ppu.dotsPerFrame ≤ elapsed && m.cannotComplete then return m
      else checkedRunUntil start steps elapsed m

def checkedRunFrame (m : Machine) : Checked Machine :=
  if m.isLoaded then checkedRunUntil m.frames (frameLimit / 2) 0 m else return m

theorem checkedRunUntil_eq (start steps elapsed : Nat) (m : Machine) (reported : List Event)
    (h : m.InRange) (hl : m.isLoaded = true) (hsteps : frameLimit ≤ elapsed + 2 * steps)
    (hclock : (runUntil start steps elapsed m reported).value.cycles < 2 ^ 64) :
    checkedRunUntil start steps elapsed m =
        .ok (runUntil start steps elapsed m reported).value ∧
      (runUntil start steps elapsed m reported).value.InRange := by
  induction steps generalizing elapsed m reported with
  | zero =>
    rw [checkedRunUntil, if_pos (.inr hsteps)]
    exact ⟨rfl, h⟩
  | succ steps ih =>
    unfold checkedRunUntil
    unfold runUntil at hclock ⊢
    split
    · exact ⟨rfl, h⟩
    · rename_i hgo
      rw [if_neg hgo] at hclock
      dsimp only at hclock ⊢
      have helapsed : elapsed < 140448 := Nat.not_le.1 (not_or.1 hgo).2
      -- the dot counter only goes forward: what suffices for the frame suffices for its first step
      have hstep : m.step.value.2.cycles < 2 ^ 64 := by
        split at hclock
        · exact hclock
        · exact Nat.lt_of_le_of_lt (runUntil_cycles ..) hclock
      obtain ⟨heq, hok, hdots⟩ := checkedStep_eq h hstep
      have hmore := two_le_step_dots hl
      have hwidth : elapsed + m.step.value.1 < 2 ^ 64 := by omega
      rw [heq, ok_bind, unsigned_ok hwidth, ok_bind]
      split
      · exact ⟨rfl, hok⟩
      · rename_i hgive
        rw [if_neg hgive] at hclock
        exact ih _ _ _ hok ((step_isLoaded m).trans hl) (by omega) hclock

/-- **A frame ends without fault**, whatever the display does. -/
theorem checkedRunFrame_eq (h : m.InRange) (hclock : m.runFrame.value.cycles < 2 ^ 64) :
    m.checkedRunFrame = .ok m.runFrame.value ∧ m.runFrame.value.InRange := by
  unfold checkedRunFrame
  unfold runFrame at hclock ⊢
  split
  · rename_i hl
    rw [if_pos hl] at hclock
    exact checkedRunUntil_eq _ _ _ m [] h hl (by decide) hclock
  · exact ⟨rfl, h⟩

def checkedPalettesFor (model : Model) (h : Header) : Checked (Option BootPalettes) :=
  if model.isColor && !h.supportsColor then some <$> BootPalettes.checkedOfHeader h else return none

/-- The machine as the boot image leaves it. -/
def checkedStartCartridge (model : Model) (palettes : Option BootPalettes) (c : Cartridge) :
    Checked Machine := do
  let b ← Board.checkedAfterBoot model palettes
  return { cpu := .afterBoot model palettes.isSome, board := b.insert c }

/-- A machine with the cartridge. The palettes are looked up even for a boot image. -/
def checkedStartWith (model : Model) (boot : Option ByteArray) (c : Cartridge) :
    Checked Machine := do
  let palettes ← checkedPalettesFor model c.header
  match boot with
  | some bootImage => return (startBoot model bootImage c).value
  | none => checkedStartCartridge model palettes c

def checkedStart (model : Model) (boot : Option ByteArray) (image : ByteArray) :
    Checked (Except ImageError Machine) :=
  match checkBoot model boot with
  | .error e => return .error e
  | .ok () => do
    match ← Cartridge.checkedOfImage image with
    | .error e => return .error e
    | .ok c => .ok <$> checkedStartWith model boot c

def checkedLoad (m : Machine) (boot : Option ByteArray) (image : ByteArray) :
    Checked (Except ImageError Unit × Machine) := do
  match ← checkedStart m.model boot image with
  | .ok m => return (.ok (), m)
  | .error e => return (.error e, powerOn m.model)

def checkedReset (m : Machine) : Checked Machine :=
  match m.board.cartridge with
  | none => return m
  | some c => do
    let palettes ← checkedPalettesFor m.model c.resetBanks.header
    checkedStartCartridge m.model palettes c.resetBanks

/-- Copies a snapshot; the sizes are compared once more for that. -/
def checkedRestoreRam (m : Machine) (snapshot : Array UInt8) : Checked Machine :=
  match m.board.cartridge with
  | none => return m
  | some c =>
    if snapshot.size = c.ram.size then do
      ensure (c.ram.size = snapshot.size)
      return { m with board.cartridge := some { c with ram := snapshot } }
    else return m

theorem InRange.fresh {b : Board} (h : b.InRange) (hs : b.stall = 0) (cpu : Cpu) (cycles : Nat) :
    InRange ⟨cpu, b, cycles⟩ :=
  ⟨h, Nat.le_trans (h.resting hs) (by decide)⟩

theorem powerOn_inRange (model : Model) : (powerOn model).InRange :=
  .fresh (Board.powerOn_inRange model) rfl {} 0

theorem startBoot_inRange (model : Model) (bootImage : ByteArray) {c : Cartridge}
    (hc : c.InRange) : (startBoot model bootImage c).value.InRange := by
  have hmapped : ((Board.powerOn model).mapBoot bootImage).value.InRange :=
    (Board.powerOn_inRange model).withDevices ..
  exact .fresh (hmapped.withCartridge hc) rfl {} 0

theorem startCartridge_inRange (model : Model) {c : Cartridge} (hc : c.InRange) :
    (startCartridge model c).value.InRange :=
  .fresh ((Board.afterBoot_inRange model (palettesFor model c.header)).withCartridge hc) rfl _ 0

theorem checkedPalettesFor_eq (model : Model) {h : Header} (ht : h.titleBytes.length = 16) :
    checkedPalettesFor model h = .ok (palettesFor model h) := by
  rw [checkedPalettesFor, BootPalettes.checkedOfHeader_eq ht, map_ok, pure_eq_ok, ite_ok]
  rfl

theorem checkedStartCartridge_eq (model : Model) (c : Cartridge) :
    checkedStartCartridge model (palettesFor model c.header) c =
      .ok (startCartridge model c).value := by
  rw [checkedStartCartridge, Board.checkedAfterBoot_eq]
  rfl

theorem checkedStartWith_eq (model : Model) (boot : Option ByteArray) {c : Cartridge}
    (hc : c.InRange) :
    checkedStartWith model boot c = .ok (startWith model c boot) ∧
      (startWith model c boot).InRange := by
  rw [checkedStartWith, checkedPalettesFor_eq model hc.title, ok_bind]
  cases boot with
  | some bootImage => exact ⟨rfl, startBoot_inRange model bootImage hc⟩
  | none => exact ⟨checkedStartCartridge_eq model c, startCartridge_inRange model hc⟩

/-- **A reset meets no fault.** -/
theorem checkedReset_eq (h : m.InRange) :
    m.checkedReset = .ok m.reset.value ∧ m.reset.value.InRange := by
  unfold checkedReset
  cases hc : m.board.cartridge with
  | none =>
    have hr : m.reset.value = m := by
      unfold reset
      rw [hc]
      rfl
    rw [hr]
    exact ⟨rfl, h⟩
  | some c =>
    have hok := (h.board.cartridge c hc).resetBanks
    dsimp only
    rw [reset_eq hc, checkedPalettesFor_eq _ hok.title, ok_bind, checkedStartCartridge_eq]
    exact ⟨rfl, startCartridge_inRange _ hok⟩

/-- **A load meets no fault**, whether it accepts the images or not. -/
theorem checkedLoad_eq (m : Machine) (boot : Option ByteArray) (image : Image) :
    m.checkedLoad boot image = .ok (m.load boot image).value ∧
      (m.load boot image).value.2.InRange := by
  unfold checkedLoad checkedStart
  -- the boot image is judged first; the cartridge is read only if it passes
  cases hb : checkBoot m.model boot with
  | error e =>
    have hrejected : start m.model boot image = .error e := by
      unfold start
      rw [hb]
      rfl
    rw [load_rejected m hrejected]
    exact ⟨rfl, powerOn_inRange m.model⟩
  | ok _ =>
    dsimp only
    rw [Cartridge.checkedOfImage_eq, ok_bind]
    cases hr : Cartridge.ofImage image with
    | error e =>
      have hrejected : start m.model boot image = .error e := by
        unfold start
        rw [hb, hr]
        rfl
      rw [load_rejected m hrejected]
      exact ⟨rfl, powerOn_inRange m.model⟩
    | ok r =>
      obtain ⟨heq, hok⟩ := checkedStartWith_eq m.model boot (Cartridge.ofImage_inRange image.2 hr)
      rw [load_value m hb hr]
      refine ⟨?_, hok⟩
      show ((Except.ok <$> checkedStartWith m.model boot r.value) >>= _) = _
      rw [heq]
      rfl

theorem InRange.withCartridge (h : m.InRange) {c : Cartridge} (hc : c.InRange) :
    InRange { m with board.cartridge := some c } :=
  ⟨h.board.withCartridge hc, h.pressure⟩

/-- **A snapshot is restored or refused without fault.** -/
theorem checkedRestoreRam_eq (h : m.InRange) (snapshot : Array UInt8) :
    m.checkedRestoreRam snapshot = .ok ((m.restoreRam? snapshot).getD m) ∧
      ((m.restoreRam? snapshot).getD m).InRange := by
  unfold checkedRestoreRam restoreRam?
  cases hc : m.board.cartridge with
  | none => exact ⟨rfl, h⟩
  | some c =>
    have hok := h.board.cartridge c hc
    dsimp only [Option.bind_eq_bind, Option.bind_some]
    split
    · rename_i hsize
      have hrestored : c.restoreRam? snapshot = some { c with ram := snapshot } := if_pos hsize
      rw [ensure_ok hsize.symm, ok_bind, hrestored]
      exact ⟨rfl, h.withCartridge (hok.restoreRam hrestored)⟩
    · rename_i hsize
      rw [Cartridge.restoreRam?, if_neg hsize]
      exact ⟨rfl, h⟩

/-- What a program that embeds a machine asks of it. -/
inductive Request where
  | load (boot : Option ByteArray) (image : Image)
  | use (u : Use)
  | read (addr : UInt16)

/-- What comes back besides the machine. -/
inductive Reply where
  | loaded (result : Except ImageError Unit)
  | used
  | byte (v : UInt8)

def answer (m : Machine) : Request → Reply × Machine
  | .load boot image => (.loaded (m.load boot image).value.1, (m.load boot image).value.2)
  | .use u => (.used, m.use u)
  | .read addr => (.byte (m.board.read addr), m)

def checkedUse (m : Machine) : Use → Checked Machine
  | .call .step => (·.2) <$> m.checkedStep
  | .call .runFrame => m.checkedRunFrame
  | .call (.setButton button pressed) => return m.setButton button pressed
  | .restoreRam snapshot => m.checkedRestoreRam snapshot
  | .reset => m.checkedReset

def checkedAnswer (m : Machine) : Request → Checked (Reply × Machine)
  | .load boot image => do
    let (result, m) ← m.checkedLoad boot image
    return (.loaded result, m)
  | .use u => do
    let m ← m.checkedUse u
    return (.used, m)
  | .read addr => do
    let v ← m.board.checkedRead addr
    return (.byte v, m)

/-- The replies to requests in order, each with the machine after it. -/
def answers (m : Machine) : List Request → List (Reply × Machine)
  | [] => []
  | r :: rest => m.answer r :: (m.answer r).2.answers rest

def checkedAnswers (m : Machine) : List Request → Checked (List (Reply × Machine))
  | [] => return []
  | r :: rest => do
    let a ← m.checkedAnswer r
    let later ← a.2.checkedAnswers rest
    return a :: later

theorem checkedUse_eq (h : m.InRange) (u : Use) (hclock : (m.use u).cycles < 2 ^ 64) :
    m.checkedUse u = .ok (m.use u) ∧ (m.use u).InRange := by
  cases u with
  | call call =>
    cases call with
    | step =>
      obtain ⟨heq, hok, -⟩ := checkedStep_eq h hclock
      rw [checkedUse, heq]
      exact ⟨rfl, hok⟩
    | runFrame => exact checkedRunFrame_eq h hclock
    | setButton button pressed =>
      exact ⟨rfl, h.board.withDevices .., h.pressure⟩
  | restoreRam snapshot => exact checkedRestoreRam_eq h snapshot
  | reset => exact checkedReset_eq h

/-- **One request meets no fault**, and leaves a machine for the next one. -/
theorem checkedAnswer_eq (h : m.InRange) (r : Request) (hclock : (m.answer r).2.cycles < 2 ^ 64) :
    m.checkedAnswer r = .ok (m.answer r) ∧ (m.answer r).2.InRange := by
  cases r with
  | load boot image =>
    obtain ⟨heq, hok⟩ := checkedLoad_eq m boot image
    rw [checkedAnswer, heq]
    exact ⟨rfl, hok⟩
  | use u =>
    obtain ⟨heq, hok⟩ := checkedUse_eq h u hclock
    rw [checkedAnswer, heq]
    exact ⟨rfl, hok⟩
  | read addr =>
    rw [checkedAnswer, Board.checkedRead_eq h.board]
    exact ⟨rfl, h⟩

theorem checkedAnswers_eq (h : m.InRange) (requests : List Request)
    (hclock : ∀ a ∈ m.answers requests, a.2.cycles < 2 ^ 64) :
    m.checkedAnswers requests = .ok (m.answers requests) := by
  induction requests generalizing m with
  | nil => rfl
  | cons r rest ih =>
    obtain ⟨heq, hok⟩ := checkedAnswer_eq h r (hclock _ (.head _))
    have hrest := ih hok fun a ha => hclock a (.tail _ ha)
    rw [checkedAnswers, heq, ok_bind, hrest]
    rfl

/-- **No request is at fault.** A new machine may be asked anything in any order: whatever images
it is given, whatever it executes and whatever address is read, no place is missing, no number
leaves its width, no divisor is zero, no assertion fails and no loop goes on beyond its last round.
Nor does the arithmetic of its CPU meet a fault, for any operands. Only the dot counter is taken to
suffice. -/
theorem requests_faultless (model : Model) (requests : List Request)
    (hclock : ∀ a ∈ (powerOn model).answers requests, a.2.cycles < 2 ^ 64) :
    (powerOn model).checkedAnswers requests = .ok ((powerOn model).answers requests) ∧
      Cpu.Faultless :=
  ⟨checkedAnswers_eq (powerOn_inRange model) requests hclock, Cpu.arithmetic_faultless⟩

/-- A cartridge full of NOPs is inserted, run for a step, restarted and asked for its first byte. -/
def blankRequests : List Request :=
  [.load none ⟨blankImage, by decide +kernel⟩, .use (.call .step), .use .reset, .read 0]

theorem blankRequests_faultless :
    (∀ a ∈ (powerOn .color).answers blankRequests, a.2.cycles < 2 ^ 64) ∧
      (powerOn .color).checkedAnswers blankRequests =
        .ok ((powerOn .color).answers blankRequests) := by
  have hall :
      ((powerOn .color).answers blankRequests).all (fun a => a.2.cycles < 2 ^ 64) = true := by
    decide +kernel
  have hclock : ∀ a ∈ (powerOn .color).answers blankRequests, a.2.cycles < 2 ^ 64 := by
    intro a ha
    simpa using List.all_eq_true.1 hall a ha
  exact ⟨hclock, (requests_faultless .color blankRequests hclock).1⟩

end Handheld.Machine
