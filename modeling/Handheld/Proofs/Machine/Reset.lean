import Handheld.Proofs.Board.Untouched
import Handheld.Proofs.Checked.Image
import Handheld.Proofs.Machine.Clock

/-!
# A reset is a fresh load

Loading and resetting build the state of the machine along two paths. They agree because nothing that
happens in between touches the model, the image in the slot or its header, and everything else is
built anew from these; the cartridge's RAM alone is carried over.

* `use_plate`: the model, the image and its header survive every use of the machine.
* `reset_eq`: what a reset builds from them.
* `reset_fresh`: after any uses of a loaded machine a reset leaves what loading the image without a
  boot image into a new machine leaves, but for the contents of the cartridge's RAM.
-/

namespace Handheld.Machine

variable {m m₀ : Machine} {boot : Option ByteArray} {image : ByteArray} {c : Cartridge}

/-- What a program can do with a machine between two loads. -/
inductive Use where
  | call (call : Call)
  | restoreRam (snapshot : Array UInt8)
  | reset

/-- The machine after a use. A snapshot of the wrong size is refused. -/
def use (m : Machine) : Use → Machine
  | .call call => (m.perform call).value
  | .restoreRam snapshot => (m.restoreRam? snapshot).getD m
  | .reset => m.reset.value

/-- The machine with other contents in the cartridge's RAM. -/
def withRam (m : Machine) (ram : Array UInt8) : Machine :=
  { m with board.cartridge := m.board.cartridge.map ({ · with ram }) }

theorem step_plate (m : Machine) : m.step.value.2.board.plate = m.board.plate := by
  unfold step
  simp only
  split
  · exact Board.step_plate m.cpu m.board
  · rfl

/-- No step removes the cartridge. -/
theorem step_isLoaded (m : Machine) : m.step.value.2.isLoaded = m.isLoaded := by
  have hplate := congrArg (fun p => p.2.isSome) (step_plate m)
  rwa [Board.plate_isSome, Board.plate_isSome] at hplate

/-- Restoring a snapshot replaces the RAM of the cartridge, or nothing. -/
theorem restoreRam_eq (m : Machine) (snapshot : Array UInt8) :
    (m.restoreRam? snapshot).getD m = m ∨ (m.restoreRam? snapshot).getD m = m.withRam snapshot := by
  unfold restoreRam? withRam
  cases hc : m.board.cartridge with
  | none => exact .inl rfl
  | some c =>
    have hr : c.restoreRam? snapshot =
      if snapshot.size = c.ram.size then some { c with ram := snapshot } else none := rfl
    simp only [Option.bind_eq_bind, Option.bind_some, hr, Option.map_some]
    split
    · exact .inr rfl
    · exact .inl rfl

theorem withRam_plate (m : Machine) (ram : Array UInt8) :
    (m.withRam ram).board.plate = m.board.plate := by
  unfold withRam Board.plate
  cases m.board.cartridge <;> rfl

/-- Bank registers at their power-on values, in front of the same memories. -/
theorem resetBanks_eq (c : Cartridge) : ∃ banking, c.resetBanks = { c with banking } := by
  unfold Cartridge.resetBanks
  split <;> exact ⟨_, rfl⟩

/-- What a reset builds. -/
theorem reset_eq (hc : m.board.cartridge = some c) :
    m.reset.value = (startCartridge m.model c.resetBanks).value := by
  unfold reset
  rw [hc]
  rfl

/-- A reset starts a cartridge or does nothing. -/
theorem reset_keeps {P : Machine → Prop}
    (hstart : ∀ model c, P (startCartridge model c).value) (h : P m) : P m.reset.value := by
  cases hc : m.board.cartridge with
  | none =>
    have hsame : m.reset.value = m := by
      unfold reset
      rw [hc]
      rfl
    rwa [hsame]
  | some c =>
    rw [reset_eq hc]
    exact hstart _ _

/-- **What steps, buttons, other contents of the RAM and resets keep, every use keeps.** -/
theorem use_keeps {P : Machine → Prop} (hstep : ∀ m, P m → P m.step.value.2)
    (hbutton : ∀ m button pressed, P m → P (m.setButton button pressed))
    (hram : ∀ m ram, P m → P (m.withRam ram))
    (hreset : ∀ m, P m → P m.reset.value) (h : P m) (u : Use) : P (m.use u) := by
  cases u with
  | call call =>
    cases call with
    | step => exact hstep m h
    | runFrame =>
      show P m.runFrame.value
      unfold runFrame
      split
      · exact runUntil_keeps hstep _ _ _ _ h
      · exact h
    | setButton button pressed => exact hbutton m button pressed h
  | restoreRam snapshot =>
    rcases restoreRam_eq m snapshot with hr | hr <;> rw [use, hr]
    · exact h
    · exact hram m snapshot h
  | reset => exact hreset m h

theorem reset_plate (m : Machine) : m.reset.value.board.plate = m.board.plate := by
  cases hc : m.board.cartridge with
  | none =>
    unfold reset
    rw [hc]
    rfl
  | some c =>
    obtain ⟨banking, hr⟩ := resetBanks_eq c
    rw [reset_eq hc, hr, Board.plate, Board.plate, hc]
    rfl

/-- **Every use of a machine leaves the model, the image and its header alone.** -/
theorem use_plate (m : Machine) (u : Use) : (m.use u).board.plate = m.board.plate :=
  use_keeps (P := fun n => n.board.plate = m.board.plate) (fun n hn => (step_plate n).trans hn)
    (fun _ _ _ hn => hn) (fun n ram hn => (withRam_plate n ram).trans hn)
    (fun n hn => (reset_plate n).trans hn) rfl u

theorem uses_plate (m : Machine) (uses : List Use) :
    (uses.foldl use m).board.plate = m.board.plate := by
  induction uses generalizing m with
  | nil => rfl
  | cons u uses ih => exact (ih (m.use u)).trans (use_plate m u)

/-- An accepted image stands in the cartridge as it is, with its bank registers at their power-on
values. -/
theorem ofImage_ok {r : Logged Cartridge} (h : Cartridge.ofImage image = .ok r) :
    r.value.rom = image ∧ Banking.initial r.value.header image = .ok r.value.banking := by
  obtain ⟨header, banking, -, hb, hr⟩ := Cartridge.ofImage_eq h
  rw [hr]
  exact ⟨rfl, hb⟩

/-- The machine that a load leaves when it accepts the images. -/
def startWith (model : Model) (c : Cartridge) : Option ByteArray → Machine
  | some bootImage => (startBoot model bootImage c).value
  | none => (startCartridge model c).value

theorem load_value {r : Logged Cartridge} (m : Machine) (hb : checkBoot m.model boot = .ok ())
    (hr : Cartridge.ofImage image = .ok r) :
    (m.load boot image).value = (.ok (), startWith m.model r.value boot) := by
  unfold load start
  rw [hb, hr]
  cases boot <;> rfl

theorem load_rejected {e : ImageError} (m : Machine) (h : start m.model boot image = .error e) :
    (m.load boot image).value = (.error e, powerOn m.model) := by
  unfold load
  rw [h]
  rfl

/-- **A load rejects its images or starts the cartridge** that it has read from them. -/
theorem load_cases (m : Machine) (boot : Option ByteArray) (image : ByteArray) :
    (∃ e, (m.load boot image).value = (.error e, powerOn m.model)) ∨
      ∃ r, Cartridge.ofImage image = .ok r ∧
        (m.load boot image).value = (.ok (), startWith m.model r.value boot) := by
  cases hb : checkBoot m.model boot with
  | error e =>
    refine .inl ⟨e, load_rejected m ?_⟩
    unfold start
    rw [hb]
    rfl
  | ok _ =>
    cases hr : Cartridge.ofImage image with
    | error e =>
      refine .inl ⟨e, load_rejected m ?_⟩
      unfold start
      rw [hb, hr]
      rfl
    | ok r => exact .inr ⟨r, rfl, load_value m hb hr⟩

/-- A load that succeeds has accepted the image, and leaves the model and the cartridge in place. -/
theorem load_ok (h : (m₀.load boot image).value = (.ok (), m)) :
    ∃ r, Cartridge.ofImage image = .ok r ∧
      m.board.plate = (m₀.model, some (r.value.rom, r.value.header)) := by
  rcases load_cases m₀ boot image with ⟨e, he⟩ | ⟨r, hr, hload⟩
  · rw [he] at h
    cases congrArg Prod.fst h
  · rw [hload] at h
    have hm : startWith m₀.model r.value boot = m := congrArg Prod.snd h
    refine ⟨r, hr, ?_⟩
    -- both ways to start insert the cartridge into a board of the model
    rw [← hm]
    cases boot <;> rfl

/-- Without a boot image an accepted image always loads. -/
theorem load_accepted {r : Logged Cartridge} (h : Cartridge.ofImage image = .ok r) :
    (m₀.load none image).value = (.ok (), (startCartridge m₀.model r.value).value) :=
  load_value m₀ rfl h

/-- A machine that starts a cartridge counts from zero and shows it uncovered. -/
theorem startCartridge_begins (model : Model) (c : Cartridge) :
    (startCartridge model c).value.cycles = 0 ∧ (startCartridge model c).value.frames = 0 ∧
      (startCartridge model c).value.board.bootMapped = false := by
  refine ⟨rfl, ?_, rfl⟩
  obtain ⟨q, hq, -, -, -, hframes⟩ :=
    Ppu.handOver_eq (Ppu.powerOn model) (palettesFor model c.header)
  have hp : (startCartridge model c).value.frames =
      ((Ppu.powerOn model).handOver (palettesFor model c.header)).value.frames := rfl
  rw [hp, hq]
  exact (Ppu.startFrame_place q).2.trans hframes

/-- What the RAM holds has no part in how a cartridge starts. -/
theorem startCartridge_withRam (model : Model) (c : Cartridge) (ram : Array UInt8) :
    (startCartridge model { c with ram }).value = (startCartridge model c).value.withRam ram :=
  rfl

/-- The bank registers come from the image and the header alone. -/
theorem resetBanks_of_initial {r : Cartridge}
    (hinitial : Banking.initial r.header r.rom = .ok r.banking) (hrom : c.rom = r.rom)
    (hheader : c.header = r.header) : c.resetBanks = { r with ram := c.ram } := by
  obtain ⟨rom, ram, header, banking⟩ := c
  simp only at hrom hheader
  subst hrom hheader
  unfold Cartridge.resetBanks
  rw [hinitial]

/-- **A reset is a fresh load.** However a loaded machine was started and whatever was done with it
since, a reset leaves the whole state that loading the image without a boot image leaves in a new
machine of the model: it counts from zero and the boot image is gone. Only the cartridge's RAM keeps
what it held. Without a cartridge a reset does nothing at all. -/
theorem reset_fresh (h : (m₀.load boot image).value = (.ok (), m)) (uses : List Use) :
    (∃ fresh c,
      ((powerOn m₀.model).load none image).value = (.ok (), fresh) ∧
      fresh.cycles = 0 ∧ fresh.frames = 0 ∧ fresh.board.bootMapped = false ∧
      (uses.foldl use m).board.cartridge = some c ∧
      (uses.foldl use m).reset.value = fresh.withRam c.ram) ∧
    ∀ empty : Machine, empty.board.cartridge = none → empty.reset = pure empty := by
  obtain ⟨r, hr, hplate⟩ := load_ok h
  obtain ⟨hrom, hbanking⟩ := ofImage_ok hr
  obtain ⟨hcycles, hframes, hboot⟩ := startCartridge_begins m₀.model r.value
  refine ⟨?_, ?_⟩
  · have hkept : (uses.foldl use m).board.plate = (m₀.model, some (r.value.rom, r.value.header)) :=
      (uses_plate m uses).trans hplate
    obtain ⟨hmodel, hslot⟩ := Prod.ext_iff.1 hkept
    obtain ⟨c, hc, hsame⟩ := Option.map_eq_some_iff.1 hslot
    obtain ⟨hcrom, hcheader⟩ := Prod.ext_iff.1 hsame
    simp only at hmodel hcrom hcheader
    refine ⟨_, c, load_accepted hr, hcycles, hframes, hboot, hc, ?_⟩
    have hreset : c.resetBanks = { r.value with ram := c.ram } :=
      resetBanks_of_initial (by rw [hrom]; exact hbanking) hcrom hcheader
    rw [reset_eq hc, hreset, ← startCartridge_withRam]
    exact congrArg (fun model => (startCartridge model { r.value with ram := c.ram }).value) hmodel
  · intro empty hempty
    unfold reset
    rw [hempty]

/-- A cartridge with 2 KiB of RAM, which is full of NOPs besides. -/
def ramImage : ByteArray :=
  ⟨((Array.replicate 0x150 0).setIfInBounds 0x147 0x08).setIfInBounds 0x149 0x01⟩

/-- A boot image full of NOPs. -/
def blankBoot : ByteArray := ⟨Array.replicate 0x100 0⟩

/-- A machine that starts the cartridge by way of the boot image. -/
def ramMachine : Machine := ((powerOn .mono).load (some blankBoot) ramImage).value.2

theorem reset_after_restore :
    ((powerOn .mono).load (some blankBoot) ramImage).value = (.ok (), ramMachine) ∧
      ∃ fresh c,
        ((powerOn .mono).load none ramImage).value = (.ok (), fresh) ∧
        ([.call .step, .restoreRam (Array.replicate 0x800 7)].foldl use ramMachine).board.cartridge =
          some c ∧
        ([.call .step, .restoreRam (Array.replicate 0x800 7)].foldl use ramMachine).reset.value =
          fresh.withRam c.ram := by
  have hload : ((powerOn .mono).load (some blankBoot) ramImage).value = (.ok (), ramMachine) :=
    load_of_isOk (by decide +kernel)
  obtain ⟨fresh, c, hfresh, -, -, -, hc, hreset⟩ :=
    (reset_fresh hload [.call .step, .restoreRam (Array.replicate 0x800 7)]).1
  exact ⟨hload, fresh, c, hfresh, hc, hreset⟩

end Handheld.Machine
