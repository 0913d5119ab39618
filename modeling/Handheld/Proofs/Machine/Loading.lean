import Handheld.Proofs.Machine.Reset

/-!
# A load begins from nothing

A load takes nothing from the machine but its model. It either rejects the images, for the first fault
in a fixed order, and leaves a machine that was never used; or it starts the cartridge with empty RAM.

* `faults`: what can be wrong with the images, in the order in which it is reported.
* `ofImage_faults`, `start_faults`: images are accepted if they have no fault, else for the first.
* `Handled`: the machines that any operations lead to; `handled_model`.
* `load_anew`: for each of them a load does what it does on a new machine.
-/

namespace Handheld.Machine

variable {model : Model} {m : Machine} {boot : Option ByteArray} {image : ByteArray}

/-- The byte of an image at an offset that it reaches. -/
def byteAt (image : ByteArray) (i : Nat) : UInt8 := if h : i < image.size then image[i] else 0

/-- The type bytes that name a controller. -/
def knownTypes : List UInt8 :=
  [0x00, 0x01, 0x02, 0x03, 0x05, 0x06, 0x08, 0x09, 0x0B, 0x0C, 0x0D, 0x0F, 0x10, 0x11, 0x12, 0x13,
    0x19, 0x1A, 0x1B, 0x1C, 0x1D, 0x1E, 0x20, 0x22, 0xFC, 0xFD, 0xFE, 0xFF]

/-- Those whose controller does not run. -/
def unsupportedTypes : List (UInt8 × Controller) :=
  [(0x0B, .mmm01), (0x0C, .mmm01), (0x0D, .mmm01), (0x20, .mbc6), (0x22, .mbc7),
    (0xFC, .pocketCamera), (0xFD, .tama5), (0xFE, .huc3), (0xFF, .huc1)]

def romSizeKnown (code : UInt8) : Bool := code ≤ 8 || [0x52, 0x53, 0x54].contains code

/-- The RAM that MBC2 has of its own needs no code. -/
def ramSizeKnown (type code : UInt8) : Bool := [0x05, 0x06].contains type || code ≤ 5

/-- A check that fails finds a fault. -/
def check (passed : Bool) (e : ImageError) : List ImageError := if passed then [] else [e]

/-- What is wrong with a cartridge image. The bytes of the header count if it is there. -/
def imageFaults (image : ByteArray) : List ImageError :=
  let type := byteAt image 0x147
  let romSize := byteAt image 0x148
  let ramSize := byteAt image 0x149
  check (image.size ≠ 0) .emptyImage ++
  check (0x150 ≤ image.size) (.truncatedHeader image.size) ++
  check (knownTypes.contains type) (.invalidCartridgeType type) ++
  check (romSizeKnown romSize) (.unsupportedRomSize romSize) ++
  check (ramSizeKnown type ramSize) (.unsupportedRamSize ramSize) ++
  ((unsupportedTypes.lookup type).map (.unsupportedController · type)).toList

def bootFaults (model : Model) (boot : Option ByteArray) : List ImageError :=
  match boot with
  | some b => check (b.size = model.bootImageSize) (.wrongBootImageSize b.size model.bootImageSize)
  | none => []

/-- **What is wrong with the images of a load**, in the order in which it is reported. -/
def faults (model : Model) (boot : Option ByteArray) (image : ByteArray) : List ImageError :=
  bootFaults model boot ++ imageFaults image

theorem ofCodes_isSome (type ramSize : UInt8) :
    (Controller.ofCodes? type ramSize).isSome = knownTypes.contains type := by
  unfold Controller.ofCodes?
  split
  case h_29 => simp_all [knownTypes]
  all_goals rfl

theorem romBanksOf_isSome (code : UInt8) : (Header.romBanksOf? code).isSome = romSizeKnown code := by
  revert code
  exact forall_byte (by decide +kernel)

/-- What a type byte tells of the controller that it names. -/
structure Names (type : UInt8) (c : Controller) : Prop where
  mbc2 : c = .mbc2 ↔ [0x05, 0x06].contains type = true
  unsupported : unsupportedTypes.lookup type = if c.isSupported then none else some c

theorem ofCodes_names {type ramSize : UInt8} {c : Controller}
    (h : Controller.ofCodes? type ramSize = some c) : Names type c := by
  unfold Controller.ofCodes? at h
  -- the RAM size code tells the two variants of MBC3 apart
  by_cases hr : ramSize = 5
  · simp only [hr, if_true] at h
    split at h <;> cases h <;> exact ⟨by decide, by decide⟩
  · simp only [hr, if_false] at h
    split at h <;> cases h <;> exact ⟨by decide, by decide⟩

/-- RAM size codes are looked at for every controller but MBC2. -/
theorem ramSizeOf_isSome {type : UInt8} {c : Controller} (h : Names type c) (code : UInt8) :
    (Header.ramSizeOf? c code).isSome = ramSizeKnown type code := by
  unfold Header.ramSizeOf? ramSizeKnown
  by_cases hc : c = .mbc2
  · rw [if_pos hc, h.mbc2.1 hc]
    rfl
  · rw [if_neg hc, Bool.eq_false_iff.2 (mt h.mbc2.2 hc), Bool.false_or]
    revert code
    exact forall_byte (by decide +kernel)

theorem initial_supported (image : ByteArray) {header : Header}
    (h : header.controller.isSupported = true) :
    ∃ banking, Banking.initial header image = .ok banking := by
  unfold Banking.initial
  cases hc : header.controller <;> rw [hc] at h
  case romOnly | mbc1 | mbc2 | mbc3 | mbc30 | mbc5 => exact ⟨_, rfl⟩
  all_goals exact absurd h (by decide)

/-- A controller that does not run is refused by its name and type byte. -/
theorem initial_unsupported {header : Header} (h : header.controller.isSupported = false) :
    Banking.initial header image =
      .error (.unsupportedController header.controller header.type) := by
  unfold Banking.initial
  cases hc : header.controller <;> rw [hc] at h
  all_goals exact absurd h (by decide)

theorem byteAt_eq {i : Nat} (h : i < image.size) : byteAt image i = image[i] := dif_pos h

theorem ofImage_error {e : ImageError} (h : Header.parse image = .error e) :
    Cartridge.ofImage image = .error e := by
  unfold Cartridge.ofImage
  rw [h]
  rfl

/-- Past the first faults, the others follow. -/
theorem check_passed {passed : Bool} (h : passed = true) (e : ImageError) (rest : List ImageError) :
    check passed e ++ rest = rest := by
  rw [h]
  rfl

theorem check_failed {passed : Bool} (h : passed = false) (e : ImageError) (rest : List ImageError) :
    (check passed e ++ rest).head? = some e := by
  rw [h]
  rfl

/-- The header of an image that is long enough for one has the first fault, or none but that its
controller may not run. -/
theorem parse_faults (h : 0x150 ≤ image.size) :
    (∃ e, Header.parse image = .error e ∧ (imageFaults image).head? = some e) ∨
      ∃ header, Header.parse image = .ok header ∧
        imageFaults image = if header.controller.isSupported then []
          else [.unsupportedController header.controller header.type] := by
  have hempty : ¬image.size = 0 := by omega
  have hlong : ¬image.size < Header.requiredSize := Nat.not_lt.2 h
  have htype : byteAt image 0x147 = image[0x147] := byteAt_eq (by omega)
  have hrom : byteAt image 0x148 = image[0x148] := byteAt_eq (by omega)
  have hram : byteAt image 0x149 = image[0x149] := byteAt_eq (by omega)
  unfold Header.parse imageFaults
  simp only [hempty, hlong, if_false, dif_neg, not_false_eq_true, htype, hrom, hram,
    List.append_assoc]
  rw [check_passed (by simp [hempty]), check_passed (by simp [h])]
  have hknown := ofCodes_isSome image[0x147] image[0x149]
  -- the checks come in the order of the faults, so every case has passed those around it
  cases hc : Controller.ofCodes? image[0x147] image[0x149] with
  | none =>
    refine .inl ⟨_, ?_, check_failed ?_ _ _⟩
    · simp only [Controller.ofCodes, hc]
    · rw [← hknown, hc]
      rfl
  | some c =>
    have hnames := ofCodes_names hc
    have hbanks := romBanksOf_isSome image[0x148]
    have hsize := ramSizeOf_isSome hnames image[0x149]
    rw [hc] at hknown
    rw [check_passed hknown.symm]
    simp only [Controller.ofCodes, hc]
    cases hb : Header.romBanksOf? image[0x148] with
    | none =>
      refine .inl ⟨_, rfl, check_failed ?_ _ _⟩
      rw [← hbanks, hb]
      rfl
    | some banks =>
      rw [hb] at hbanks
      rw [check_passed hbanks.symm]
      cases hr : Header.ramSizeOf? c image[0x149] with
      | none =>
        refine .inl ⟨_, rfl, check_failed ?_ _ _⟩
        rw [← hsize, hr]
        rfl
      | some size =>
        rw [hr] at hsize
        refine .inr ⟨_, rfl, ?_⟩
        rw [check_passed hsize.symm, hnames.unsupported]
        cases c.isSupported <;> rfl

/-- **A cartridge image is accepted if it has no fault**, and refused for the first. -/
theorem ofImage_faults (image : ByteArray) :
    (∃ e, Cartridge.ofImage image = .error e ∧ (imageFaults image).head? = some e) ∨
      ∃ r, Cartridge.ofImage image = .ok r ∧ imageFaults image = [] := by
  by_cases hempty : image.size = 0
  · refine .inl ⟨.emptyImage, ofImage_error (if_pos hempty), ?_⟩
    unfold imageFaults
    simp only [List.append_assoc]
    exact check_failed (by simp [hempty]) _ _
  by_cases hlong : 0x150 ≤ image.size
  · rcases parse_faults hlong with ⟨e, hp, hf⟩ | ⟨header, hp, hf⟩
    · exact .inl ⟨e, ofImage_error hp, hf⟩
    · unfold Cartridge.ofImage
      rw [hp]
      dsimp only [bind, Except.bind]
      cases hs : header.controller.isSupported with
      | true =>
        obtain ⟨banking, hb⟩ := initial_supported image hs
        rw [hb]
        exact .inr ⟨_, rfl, by rw [hf, hs]; rfl⟩
      | false =>
        rw [initial_unsupported hs]
        exact .inl ⟨_, rfl, by rw [hf, hs]; rfl⟩
  · refine .inl ⟨.truncatedHeader image.size, ofImage_error ?_, ?_⟩
    · unfold Header.parse
      rw [if_neg hempty, dif_pos (show image.size < Header.requiredSize from Nat.not_le.1 hlong)]
    · unfold imageFaults
      simp only [List.append_assoc]
      rw [check_passed (by simp [hempty])]
      exact check_failed (by simp [hlong]) _ _

/-- **A load rejects images with a fault** for the first, and starts the cartridge otherwise. -/
theorem load_faults (m : Machine) (boot : Option ByteArray) (image : ByteArray) :
    (∃ e, (faults m.model boot image).head? = some e ∧
        (m.load boot image).value = (.error e, powerOn m.model)) ∨
      ∃ r, faults m.model boot image = [] ∧ Cartridge.ofImage image = .ok r ∧
        (m.load boot image).value = (.ok (), startWith m.model r.value boot) := by
  have hboot : (∃ e rest, checkBoot m.model boot = .error e ∧ bootFaults m.model boot = e :: rest) ∨
      checkBoot m.model boot = .ok () ∧ bootFaults m.model boot = [] := by
    unfold checkBoot bootFaults
    cases boot with
    | none => exact .inr ⟨rfl, rfl⟩
    | some b =>
      by_cases hb : b.size = m.model.bootImageSize
      · exact .inr ⟨if_pos hb, by simp [check, hb]⟩
      · exact .inl ⟨_, [], if_neg hb, by simp [check, hb]⟩
  unfold faults
  rcases hboot with ⟨e, rest, hc, hf⟩ | ⟨hc, hf⟩
  · refine .inl ⟨e, by rw [hf]; rfl, load_rejected m ?_⟩
    unfold start
    rw [hc]
    rfl
  · rw [hf, List.nil_append]
    rcases ofImage_faults image with ⟨e, he, hfault⟩ | ⟨r, hr, hfault⟩
    · refine .inl ⟨e, hfault, load_rejected m ?_⟩
      unfold start
      rw [hc, he]
      rfl
    · exact .inr ⟨r, hfault, hr, load_value m hc hr⟩

/-- **What can become of a machine of a model**: any images, accepted or not, any uses, and direct
access to its board, which can leave anything there but another model. -/
inductive Handled (model : Model) : Machine → Prop where
  | powerOn : Handled model (powerOn model)
  | load {m : Machine} (h : Handled model m) (boot : Option ByteArray) (image : ByteArray) :
      Handled model (m.load boot image).value.2
  | use {m : Machine} (h : Handled model m) (u : Use) : Handled model (m.use u)
  | board {m : Machine} (h : Handled model m) (b : Board) (hb : b.model = m.model) :
      Handled model { m with board := b }

theorem handled_model (h : Handled model m) : m.model = model := by
  induction h with
  | powerOn => rfl
  | @load m _ boot image ih =>
    rcases load_cases m boot image with ⟨e, he⟩ | ⟨r, -, hr⟩
    · rw [he]
      exact ih
    · rw [hr]
      cases boot <;> exact ih
  | @use m _ u ih => exact (congrArg Prod.fst (use_plate m u)).trans ih
  | board _ b hb ih => exact hb.trans ih

/-- **A machine that was never used**, on which nothing runs. -/
structure Unused (model : Model) (m : Machine) : Prop where
  state : m = Machine.powerOn model
  loaded : m.isLoaded = false
  cartridge : m.board.cartridge = none
  cycles : m.cycles = 0
  step : m.step = pure (0, m)
  runFrame : m.runFrame = pure m

theorem powerOn_unused (model : Model) : Unused model (powerOn model) :=
  ⟨rfl, rfl, rfl, rfl, rfl, rfl⟩

/-- **A machine that starts a cartridge**: its RAM is empty, no dot has elapsed, and the boot image
covers it if there is one. -/
structure Started (boot : Option ByteArray) (image : ByteArray) (m : Machine) : Prop where
  loaded : m.isLoaded = true
  cycles : m.cycles = 0
  cartridge : ∃ c, m.board.cartridge = some c ∧ c.rom = image ∧ ∀ v ∈ c.ram, v = 0
  bootImage : m.board.boot = boot
  mapped : m.board.bootMapped = boot.isSome

theorem startWith_started {r : Logged Cartridge} (model : Model) (boot : Option ByteArray)
    (h : Cartridge.ofImage image = .ok r) : Started boot image (startWith model r.value boot) := by
  have hcartridge : (startWith model r.value boot).board.cartridge = some r.value := by
    cases boot <;> rfl
  have hboot : (startWith model r.value boot).board.boot = boot := by
    cases boot <;> rfl
  obtain ⟨header, banking, -, -, hr⟩ := Cartridge.ofImage_eq h
  refine ⟨?_, by cases boot <;> rfl, ⟨_, hcartridge, by rw [hr], ?_⟩, hboot, ?_⟩
  · unfold isLoaded
    rw [hcartridge]
    rfl
  · rw [hr]
    intro v hv
    exact (Array.mem_replicate.1 hv).2
  · unfold Board.bootMapped
    rw [hboot]

/-- **A load depends on nothing that came before**, and failing leaves nothing behind. Whatever was
done with a machine, a load reports and leaves what it reports and leaves on a new machine of its
model. The first fault of the images is reported, and then the machine is a new one; without any
fault the cartridge starts. -/
theorem load_anew (h : Handled model m) (boot : Option ByteArray) (image : ByteArray) :
    m.load boot image = (powerOn model).load boot image ∧
      (∀ e, (faults model boot image).head? = some e →
        (m.load boot image).value.1 = .error e ∧ Unused model (m.load boot image).value.2) ∧
      (faults model boot image = [] →
        (m.load boot image).value.1 = .ok () ∧
          Started boot image (m.load boot image).value.2) := by
  have hm := handled_model h
  refine ⟨?_, ?_⟩
  · have hnew : (powerOn model).model = m.model := hm.symm
    unfold load
    rw [hnew]
  · rw [← hm]
    rcases load_faults m boot image with ⟨e, hf, hl⟩ | ⟨r, hf, hr, hl⟩
    · refine ⟨fun e' he' => ?_, fun hnone => ?_⟩
      · rw [hl]
        rw [hf] at he'
        cases he'
        exact ⟨rfl, powerOn_unused _⟩
      · rw [hnone] at hf
        cases hf
    · refine ⟨fun e he => ?_, fun _ => ?_⟩
      · rw [hf] at he
        cases he
      · rw [hl]
        exact ⟨rfl, startWith_started _ boot hr⟩

/-- An image whose header has three faults: an unknown ROM size, an unknown RAM size and a controller
that does not run. -/
def faultyImage : ByteArray :=
  ⟨(((Array.replicate 0x150 0).setIfInBounds 0x147 0x20).setIfInBounds 0x148 9).setIfInBounds 0x149 6⟩

/-- A machine that has run a cartridge rejects these images for the first fault, and then starts the
cartridge anew. -/
theorem load_anew_after_run :
    Handled .mono (ramMachine.use (.call .step)) ∧
      ((ramMachine.use (.call .step)).load none faultyImage).value =
        (.error (.unsupportedRomSize 9), powerOn .mono) ∧
      (((ramMachine.use (.call .step)).load none ramImage).value.1 = .ok () ∧
        Started none ramImage ((ramMachine.use (.call .step)).load none ramImage).value.2) := by
  have h : Handled .mono (ramMachine.use (.call .step)) := .use (.load .powerOn _ _) _
  obtain ⟨-, hfault, -⟩ := load_anew h none faultyImage
  obtain ⟨-, -, hstart⟩ := load_anew h none ramImage
  obtain ⟨hresult, hunused⟩ := hfault (.unsupportedRomSize 9) (by decide +kernel)
  exact ⟨h, Prod.ext hresult hunused.state, hstart (by decide +kernel)⟩

end Handheld.Machine
