import Handheld.Proofs.Board.Reachable

/-!
# Work RAM and high RAM

Both are plain memories: a cell holds what was last written to it. Work RAM is seen at two places, and
through a window that shows one of seven banks; neither matters to what a cell holds.

* `Board.cell?`: the cell that an address names.
* `Board.lastWritten`: the value last written to a cell, in a history of operations.
* `write_cell`, `write_elsewhere`: a write to a cell changes that cell, any other write none.
* `through_recalls`: every cell holds the value last written to it.
* `work_memory`: so reads show that value, wherever the cell is seen.
-/

namespace Handheld.Board

variable {b d : Board} {model : Model} {bank : Fin 8} {addr : UInt16} {v : UInt8}

/-- A cell of work RAM, in one of its banks, or of high RAM. -/
inductive Cell where
  | work (bank : Fin 8) (offset : Fin 0x1000)
  | high (offset : Fin 0x7F)
  deriving DecidableEq

/-- **The cell that an address names**, if it names one. Bank 0 is seen at `C000` and `E000`, and the
selected bank at `D000` and `F000`. -/
def cell? (bank : Fin 8) (addr : UInt16) : Option Cell :=
  let a := addr.toNat
  if 0xC000 ≤ a ∧ a ≤ 0xCFFF ∨ 0xE000 ≤ a ∧ a ≤ 0xEFFF then some (.work 0 (Fin.ofNat _ a))
  else if 0xD000 ≤ a ∧ a ≤ 0xDFFF ∨ 0xF000 ≤ a ∧ a ≤ 0xFDFF then
    some (.work bank (Fin.ofNat _ a))
  else if 0xFF80 ≤ a ∧ a ≤ 0xFFFE then some (.high (Fin.ofNat _ (a - 0xFF80)))
  else none

/-- The addresses that name a cell. -/
def InWorkMemory (addr : UInt16) : Prop :=
  0xC000 ≤ addr.toNat ∧ addr.toNat ≤ 0xFDFF ∨ 0xFF80 ≤ addr.toNat ∧ addr.toNat ≤ 0xFFFE

theorem cell?_isSome (bank : Fin 8) (addr : UInt16) :
    (cell? bank addr).isSome ↔ InWorkMemory addr := by
  unfold cell? InWorkMemory
  simp only
  split_ifs <;>
    simp only [Option.isSome_some, Option.isSome_none, Bool.false_eq_true, true_iff, false_iff] <;>
    omega

/-- The addresses of the regions of work RAM and high RAM; no other region has cells. -/
def RegionHas (addr : UInt16) : Region → Prop
  | .workRamFixed =>
    0xC000 ≤ addr.toNat ∧ addr.toNat ≤ 0xCFFF ∨ 0xE000 ≤ addr.toNat ∧ addr.toNat ≤ 0xEFFF
  | .workRamBanked =>
    0xD000 ≤ addr.toNat ∧ addr.toNat ≤ 0xDFFF ∨ 0xF000 ≤ addr.toNat ∧ addr.toNat ≤ 0xFDFF
  | .highRam => 0xFF80 ≤ addr.toNat ∧ addr.toNat ≤ 0xFFFE
  | _ => ¬ InWorkMemory addr

theorem region_has (addr : UInt16) : RegionHas addr (Region.of addr) := by
  rw [region_eq]
  -- one case for each entry of the map
  repeat' refine iteInduction (motive := RegionHas addr) (fun _ => ?_) fun _ => ?_
  all_goals
    simp only [RegionHas, InWorkMemory]
    omega

/-- Cells lie where the address map has them. -/
theorem cell?_eq (bank : Fin 8) (addr : UInt16) :
    cell? bank addr =
      match Region.of addr with
      | .workRamFixed => some (.work 0 (Fin.ofNat _ addr.toNat))
      | .workRamBanked => some (.work bank (Fin.ofNat _ addr.toNat))
      | .highRam => some (.high (Fin.ofNat _ (addr.toNat - 0xFF80)))
      | _ => none := by
  have hr := region_has addr
  unfold cell?
  generalize Region.of addr = r at hr ⊢
  cases r <;> simp only [RegionHas, InWorkMemory] at hr ⊢
  case workRamFixed => rw [if_pos hr]
  case workRamBanked => rw [if_neg (by omega), if_pos hr]
  case highRam => rw [if_neg (by omega), if_neg (by omega), if_pos hr]
  all_goals rw [if_neg (by omega), if_neg (by omega), if_neg (by omega)]

/-- Where a cell of work RAM is stored. -/
def workPlace (bank : Fin 8) (offset : Fin 0x1000) : Fin 0x8000 :=
  ⟨bank.val * 0x1000 + offset.val, by omega⟩

/-- No two cells are stored at one place. -/
theorem workPlace_inj {bank' : Fin 8} {offset offset' : Fin 0x1000} :
    workPlace bank offset = workPlace bank' offset' ↔ bank = bank' ∧ offset = offset' := by
  rw [workPlace, workPlace, Fin.mk.injEq, Fin.ext_iff, Fin.ext_iff]
  omega

theorem wramCell_eq {selected : UInt8} (h : selected.toNat = bank.val) (addr : UInt16) :
    wramCell selected addr = workPlace bank (Fin.ofNat _ addr.toNat) := by
  refine Fin.ext ?_
  show selected.toNat % 8 * 0x1000 + addr.toNat % 0x1000 = bank.val * 0x1000 + addr.toNat % 0x1000
  omega

theorem hramCell_eq (h : Region.of addr = .highRam) :
    hramCell addr = Fin.ofNat _ (addr.toNat - 0xFF80) := by
  have hrange := region_has addr
  rw [h] at hrange
  obtain ⟨hlow, hhigh⟩ := hrange
  refine Fin.ext ?_
  rw [hramCell_val hlow (by omega)]
  exact (Nat.mod_eq_of_lt (by omega)).symm

def contents (b : Board) : Cell → UInt8
  | .work bank offset => b.wram[workPlace bank offset]
  | .high offset => b.hram[offset]

def store (b : Board) (cell : Cell) (v : UInt8) : Board :=
  match cell with
  | .work bank offset => { b with wram := b.wram.set (workPlace bank offset) v }
  | .high offset => { b with hram := b.hram.set offset v }

/-- A store changes one cell. -/
@[simp] theorem contents_store (b : Board) (cell other : Cell) (v : UInt8) :
    (b.store cell v).contents other = if cell = other then v else b.contents other := by
  cases cell with
  | work bank offset =>
    cases other with
    | work bank' offset' =>
      show (b.wram.set (workPlace bank offset) v)[workPlace bank' offset'] = _
      simp only [Fin.getElem_fin, Vector.getElem_set, ← Fin.ext_iff, workPlace_inj,
        Cell.work.injEq]
      rfl
    | high offset' => rfl
  | high offset =>
    cases other with
    | work bank' offset' => rfl
    | high offset' =>
      show (b.hram.set offset v)[offset'] = _
      simp only [Fin.getElem_fin, Vector.getElem_set, ← Fin.ext_iff, Cell.high.injEq]
      rfl

/-- A read shows the cell that the address names. -/
theorem read_cell {cell : Cell} (hbank : b.wramBank.toNat = bank.val)
    (h : cell? bank addr = some cell) : b.read addr = b.contents cell := by
  have hzero : (0 : UInt8).toNat = (0 : Fin 8).val := rfl
  rw [cell?_eq] at h
  unfold read
  cases hr : Region.of addr <;> rw [hr] at h <;> cases h
  case workRamFixed => simp only [wramByte, contents, wramCell_eq hzero]
  case workRamBanked => simp only [wramByte, contents, wramCell_eq hbank]
  case highRam => simp only [hramByte, contents, hramCell_eq hr]

/-- A write stores to the cell that the address names. -/
theorem write_cell {cell : Cell} (hbank : b.wramBank.toNat = bank.val)
    (h : cell? bank addr = some cell) (v : UInt8) : b.write addr v = pure (b.store cell v) := by
  have hzero : (0 : UInt8).toNat = (0 : Fin 8).val := rfl
  rw [cell?_eq] at h
  unfold write
  cases hr : Region.of addr <;> rw [hr] at h <;> cases h
  case workRamFixed => simp only [setWramByte, store, wramCell_eq hzero]
  case workRamBanked => simp only [setWramByte, store, wramCell_eq hbank]
  case highRam => simp only [setHramByte, store, hramCell_eq hr]

/-- Work RAM and high RAM, with the model and the bank that is selected. -/
def memories (b : Board) : Model × Vector UInt8 0x8000 × UInt8 × Vector UInt8 0x7F :=
  (b.model, b.wram, b.wramBank, b.hram)

theorem Elapses.memories_eq (h : Elapses b d) : d.memories = b.memories := by
  obtain ⟨_, _, _, _, _, _, _, rfl⟩ := h
  rfl

/-- Banks are selected at one port. -/
theorem port_workRamBank {model : Model} {addr : UInt16} :
    Port.of model addr = .workRamBank ↔ model = .color ∧ addr = 0xFF70 := by
  constructor
  · intro h
    unfold Port.of Port.ofColor at h
    split at h <;> first | cases h | skip
    split_ifs at h with _ _ hcolor
    refine ⟨?_, ?_⟩
    · cases model with
      | mono => cases hcolor
      | color => rfl
    · split at h <;> first | rfl | cases h
  · rintro ⟨rfl, rfl⟩
    rfl

/-- Of all ports one changes what is seen of work RAM, and none what it holds. -/
theorem writePort_memories (b : Board) (addr : UInt16) (v : UInt8) :
    (b.writePort addr v).value.memories =
      if b.model = .color ∧ addr = 0xFF70 then (b.selectWramBank v).memories else b.memories := by
  simp only [← port_workRamBank]
  unfold writePort
  cases Port.of b.model addr with
  | workRamBank => rfl
  | vramDma => exact (writeVramDma_fills b addr v).elapses.memories_eq
  | outputMode =>
    simp only [writeOutputMode]
    split <;> rfl
  | _ => rfl

/-- **A write that names no cell changes none.** -/
theorem write_elsewhere (h : cell? bank addr = none) (v : UInt8) :
    (b.write addr v).value.memories =
      if b.model = .color ∧ addr = 0xFF70 then (b.selectWramBank v).memories else b.memories := by
  have hother (hr : Region.of addr ≠ .port) : ¬ (b.model = .color ∧ addr = 0xFF70) := by
    rintro ⟨-, rfl⟩
    exact hr rfl
  rw [cell?_eq] at h
  unfold write
  cases hr : Region.of addr <;> rw [hr] at h hother
  case port => exact writePort_memories b addr v
  case workRamFixed | workRamBanked | highRam => cases h
  case oam =>
    rw [if_neg (hother (by decide))]
    simp only [writeOam]
    split <;> rfl
  all_goals
    rw [if_neg (hother (by decide))]
    rfl

/-! ## Histories -/

/-- What can happen to a board. -/
inductive Operation where
  | deed (e : Deed)
  | setButton (button : Button) (pressed : Bool)
  | insert (c : Cartridge)
  | mapBoot (image : ByteArray)

/-- The address and the value of a write. -/
def Operation.write? : Operation → Option (UInt16 × UInt8)
  | .deed e =>
    match e with
    | .write addr v => some (addr, v)
    | .read _ | .tick | .setInterrupts _ | .clearDivider | .switchSpeed => none
  | .setButton .. | .insert _ | .mapBoot _ => none

theorem Operation.write_or_other (op : Operation) :
    (∃ addr v, op = .deed (.write addr v)) ∨ op.write? = none := by
  cases op with
  | deed e =>
    cases e with
    | write addr v => exact .inl ⟨addr, v, rfl⟩
    | _ => exact .inr rfl
  | _ => exact .inr rfl

def operate (b : Board) : Operation → Board
  | .deed e => e.perform b
  | .setButton button pressed => b.setButton button pressed
  | .insert c => b.insert c
  | .mapBoot image => (b.mapBoot image).value

/-- The board after a history of operations, the latest of which comes first. -/
def through (b : Board) : List Operation → Board
  | [] => b
  | op :: past => (b.through past).operate op

/-- What was last written to the port that selects a bank. -/
def lastSelection : List Operation → Option UInt8
  | [] => none
  | op :: past =>
    match op.write? with
    | some (addr, v) => if addr = 0xFF70 then some v else lastSelection past
    | none => lastSelection past

/-- The bank that is seen at `D000`. Bank 0 cannot be selected; it stands for bank 1, which
monochrome hardware always shows. -/
def selectedBank (model : Model) (past : List Operation) : Fin 8 :=
  match model, lastSelection past with
  | .color, some v => ⟨max 1 (v.toNat % 8), by omega⟩
  | _, _ => 1

/-- **The value last written to a cell**, or 0. -/
def lastWritten (model : Model) (cell : Cell) : List Operation → UInt8
  | [] => 0
  | op :: past =>
    match op.write? with
    | some (addr, v) =>
      if cell? (selectedBank model past) addr = some cell then v else lastWritten model cell past
    | none => lastWritten model cell past

/-- The boards that histories begin with. -/
inductive Initial (model : Model) : Board → Prop where
  | powerOn : Initial model (powerOn model)
  | afterBoot (palettes : Option BootPalettes) : Initial model (afterBoot model palettes).value

/-- **A board whose cells hold what was last written to them.** -/
structure Recalls (model : Model) (past : List Operation) (b : Board) : Prop where
  hardware : b.model = model
  bank : b.wramBank.toNat = (selectedBank model past).val
  cells : ∀ cell, b.contents cell = lastWritten model cell past

variable {past : List Operation}

theorem contents_eq (hwram : d.wram = b.wram) (hhram : d.hram = b.hram) :
    d.contents = b.contents := by
  funext cell
  cases cell with
  | work bank offset => rw [contents, contents, hwram]
  | high offset => rw [contents, contents, hhram]

theorem Recalls.of_same (h : Recalls model past b) (hm : d.memories = b.memories) :
    Recalls model past d := by
  unfold memories at hm
  rw [Prod.mk.injEq, Prod.mk.injEq, Prod.mk.injEq] at hm
  obtain ⟨hmodel, hwram, hbank, hhram⟩ := hm
  refine ⟨hmodel.trans h.hardware, ?_, ?_⟩
  · rw [hbank]
    exact h.bank
  · rw [contents_eq hwram hhram]
    exact h.cells

/-- All cells hold 0 at first. -/
theorem initial_recalls {start : Board} (h : Initial model start) : Recalls model [] start := by
  have hempty (b : Board) (hmodel : b.model = model) (hbank : b.wramBank = 1)
      (hwram : b.wram = .replicate _ 0) (hhram : b.hram = .replicate _ 0) :
      Recalls model [] b := by
    have hone : selectedBank model [] = 1 := by cases model <;> rfl
    refine ⟨hmodel, ?_, ?_⟩
    · rw [hbank, hone]
      rfl
    · intro cell
      cases cell with
      | work bank offset =>
        rw [contents, hwram]
        exact Vector.getElem_replicate _
      | high offset =>
        rw [contents, hhram]
        exact Vector.getElem_replicate _
  cases h with
  | powerOn => exact hempty _ rfl rfl rfl rfl
  | afterBoot palettes => exact hempty _ rfl rfl rfl rfl

/-- What is no write leaves the memories alone. -/
theorem operate_memories (b : Board) {op : Operation} (h : op.write? = none) :
    (b.operate op).memories = b.memories := by
  cases op with
  | deed e =>
    cases e with
    | write addr v => cases h
    | tick => exact (tick_elapses b).memories_eq
    | switchSpeed =>
      show b.switchSpeed.value.2.memories = _
      unfold switchSpeed
      split <;> rfl
    | read | setInterrupts | clearDivider => rfl
  | setButton | insert | mapBoot => rfl

/-- **What is no write to a cell changes none.** -/
theorem operate_frame (b : Board) {op : Operation}
    (h : ∀ addr v, op.write? = some (addr, v) → ¬ InWorkMemory addr) :
    (b.operate op).wram = b.wram ∧ (b.operate op).hram = b.hram := by
  rcases op.write_or_other with ⟨addr, v, rfl⟩ | hother
  · have hnone : cell? 1 addr = none := by
      rw [← Option.not_isSome_iff_eq_none, cell?_isSome]
      exact h addr v rfl
    have hwrite := write_elsewhere hnone v (b := b)
    -- the port that selects a bank is no cell either
    split at hwrite
    · exact ⟨congrArg (·.2.1) hwrite, congrArg (·.2.2.2) hwrite⟩
    · exact ⟨congrArg (·.2.1) hwrite, congrArg (·.2.2.2) hwrite⟩
  · have hsame := operate_memories b hother
    exact ⟨congrArg (·.2.1) hsame, congrArg (·.2.2.2) hsame⟩

theorem selectWramBank_toNat (v : UInt8) :
    (max 1 (v &&& 7)).toNat = max 1 (v.toNat % 8) := by
  have hlow : (v &&& 7).toNat = v.toNat % 8 := by
    rw [UInt8.toNat_and]
    exact Nat.and_two_pow_sub_one_eq_mod v.toNat 3
  show (if 1 ≤ v &&& 7 then v &&& 7 else 1).toNat = _
  split
  · rename_i hle
    have hle : 1 ≤ (v &&& 7).toNat := UInt8.le_iff_toNat_le.1 hle
    omega
  · rename_i hlt
    have hlt : ¬ 1 ≤ (v &&& 7).toNat := fun hle => hlt (UInt8.le_iff_toNat_le.2 hle)
    show 1 = _
    omega

@[simp] theorem lastSelection_write (addr : UInt16) (v : UInt8) (past : List Operation) :
    lastSelection (.deed (.write addr v) :: past) =
      if addr = 0xFF70 then some v else lastSelection past := rfl

@[simp] theorem lastWritten_write (cell : Cell) (addr : UInt16) (v : UInt8) :
    lastWritten model cell (.deed (.write addr v) :: past) =
      if cell? (selectedBank model past) addr = some cell then v
      else lastWritten model cell past := rfl

/-- Only writes are remembered. -/
theorem last_other (model : Model) (past : List Operation) {op : Operation}
    (h : op.write? = none) :
    lastSelection (op :: past) = lastSelection past ∧
      ∀ cell, lastWritten model cell (op :: past) = lastWritten model cell past := by
  refine ⟨?_, ?_⟩
  · simp only [lastSelection, h]
  · intro cell
    simp only [lastWritten, h]

/-- Monochrome hardware selects nothing, and color hardware at one port. -/
theorem selectedBank_kept {op : Operation}
    (h : model = .mono ∨ lastSelection (op :: past) = lastSelection past) :
    selectedBank model (op :: past) = selectedBank model past := by
  rcases h with rfl | h
  · rfl
  · unfold selectedBank
    rw [h]

/-- A board that an operation leaves alone remembers it, if there is nothing new. -/
theorem Recalls.of_kept {op : Operation} (h : Recalls model past b)
    (hselection : model = .mono ∨ lastSelection (op :: past) = lastSelection past)
    (hwritten : ∀ cell, lastWritten model cell (op :: past) = lastWritten model cell past) :
    Recalls model (op :: past) b := by
  refine ⟨h.hardware, ?_, ?_⟩
  · rw [selectedBank_kept hselection]
    exact h.bank
  · intro cell
    rw [hwritten]
    exact h.cells cell

/-- A write elsewhere than to the port of the banks selects none. -/
theorem lastSelection_kept (hport : addr ≠ 0xFF70) (v : UInt8) (past : List Operation) :
    lastSelection (.deed (.write addr v) :: past) = lastSelection past := by
  rw [lastSelection_write, if_neg hport]

/-- **A write is remembered by the cell that it names.** -/
theorem Recalls.write_cell (h : Recalls model past b) {cell : Cell}
    (hcell : cell? (selectedBank model past) addr = some cell) (v : UInt8) :
    Recalls model (.deed (.write addr v) :: past) (b.write addr v).value := by
  have hport : addr ≠ 0xFF70 := by
    rintro rfl
    cases hcell
  have hwrite : (b.write addr v).value = b.store cell v :=
    congrArg Logged.value (Board.write_cell h.bank hcell v)
  rw [hwrite]
  refine ⟨?_, ?_, ?_⟩
  · rw [← h.hardware]
    cases cell <;> rfl
  · rw [selectedBank_kept (.inr (lastSelection_kept hport v past)), ← h.bank]
    cases cell <;> rfl
  · intro other
    rw [contents_store, lastWritten_write, hcell, h.cells]
    simp only [Option.some.injEq]

/-- **The port of the banks remembers the bank**, and a write elsewhere is forgotten. -/
theorem Recalls.write_elsewhere (h : Recalls model past b)
    (hnone : cell? (selectedBank model past) addr = none) (v : UInt8) :
    Recalls model (.deed (.write addr v) :: past) (b.write addr v).value := by
  have hwrite := Board.write_elsewhere hnone v (b := b)
  have hwritten (cell : Cell) : lastWritten model cell (.deed (.write addr v) :: past) =
      lastWritten model cell past := by
    simp [hnone]
  by_cases hselect : b.model = .color ∧ addr = 0xFF70
  · rw [if_pos hselect] at hwrite
    obtain ⟨hcolor, rfl⟩ := hselect
    have hmodel : model = .color := h.hardware.symm.trans hcolor
    subst hmodel
    have hselected : Recalls .color (.deed (.write 0xFF70 v) :: past) (b.selectWramBank v) := by
      refine ⟨h.hardware, selectWramBank_toNat v, ?_⟩
      intro cell
      rw [hwritten]
      exact h.cells cell
    exact hselected.of_same hwrite
  · rw [if_neg hselect] at hwrite
    have hselection : model = .mono ∨
        lastSelection (.deed (.write addr v) :: past) = lastSelection past := by
      cases model with
      | mono => exact .inl rfl
      | color =>
        have hport : addr ≠ 0xFF70 := fun hport => hselect ⟨h.hardware, hport⟩
        exact .inr (lastSelection_kept hport v past)
    exact (h.of_kept hselection hwritten).of_same hwrite

/-- **Every operation is remembered as it should be.** -/
theorem Recalls.operate (h : Recalls model past b) (op : Operation) :
    Recalls model (op :: past) (b.operate op) := by
  rcases op.write_or_other with ⟨addr, v, rfl⟩ | hother
  · cases hcell : cell? (selectedBank model past) addr with
    | some cell => exact h.write_cell hcell v
    | none => exact h.write_elsewhere hcell v
  · obtain ⟨hselection, hwritten⟩ := last_other model past hother
    exact (h.of_kept (.inr hselection) hwritten).of_same (operate_memories b hother)

/-- **Every cell holds what was last written to it**, after any history. -/
theorem through_recalls {start : Board} (h : Initial model start) (past : List Operation) :
    Recalls model past (start.through past) := by
  induction past with
  | nil => exact initial_recalls h
  | cons op past ih => exact ih.operate op

/-- Work RAM is seen again from `E000` on. -/
theorem cell?_echo (bank : Fin 8) (hlow : 0xE000 ≤ addr.toNat) (hhigh : addr.toNat ≤ 0xFDFF) :
    cell? bank (addr - 0x2000) = cell? bank addr := by
  have hsub : (addr - 0x2000).toNat = addr.toNat - 0x2000 :=
    UInt16.toNat_sub_of_le _ _ (UInt16.le_iff_toNat_le.2 (Nat.le_trans (by decide) hlow))
  have hoffset : Fin.ofNat 0x1000 (addr.toNat - 0x2000) = Fin.ofNat 0x1000 addr.toNat := by
    refine Fin.ext ?_
    show (addr.toNat - 0x2000) % 0x1000 = addr.toNat % 0x1000
    omega
  unfold cell?
  simp only [hsub, hoffset]
  by_cases hfixed : addr.toNat ≤ 0xEFFF
  · rw [if_pos (by omega), if_pos (by omega)]
  · rw [if_neg (by omega), if_pos (by omega), if_neg (by omega), if_pos (by omega)]

/-- **Work RAM and high RAM are plain memories.** After any history of operations, on either model, an
address of theirs names a cell, in the bank that was last selected, and reads as the value last written
to that cell, or 0. All cells keep their values, also in banks that are not selected. The echo reads and
takes writes as the original does. An operation that is no write to one of these addresses leaves both
memories as they are: ticks with the transfers that run in them, ports, all other memories, the slot. -/
theorem work_memory {start : Board} (h : Initial model start) (past : List Operation) :
    (∀ addr, InWorkMemory addr → ∃ cell, cell? (selectedBank model past) addr = some cell ∧
      (start.through past).read addr = lastWritten model cell past) ∧
    (∀ cell, (start.through past).contents cell = lastWritten model cell past) ∧
    (∀ addr : UInt16, 0xE000 ≤ addr.toNat → addr.toNat ≤ 0xFDFF →
      (start.through past).read addr = (start.through past).read (addr - 0x2000) ∧
      ∀ v, (start.through past).write addr v = (start.through past).write (addr - 0x2000) v) ∧
    ∀ op : Operation, (∀ addr v, op.write? = some (addr, v) → ¬ InWorkMemory addr) →
      (start.through (op :: past)).wram = (start.through past).wram ∧
      (start.through (op :: past)).hram = (start.through past).hram := by
  have hrecalls := through_recalls h past
  have hcell {addr : UInt16} (h : InWorkMemory addr) :
      ∃ cell, cell? (selectedBank model past) addr = some cell :=
    Option.isSome_iff_exists.1 ((cell?_isSome _ addr).2 h)
  refine ⟨?_, hrecalls.cells, ?_, ?_⟩
  · intro addr haddr
    obtain ⟨cell, hc⟩ := hcell haddr
    exact ⟨cell, hc, (read_cell hrecalls.bank hc).trans (hrecalls.cells cell)⟩
  · intro addr hlow hhigh
    obtain ⟨cell, hc⟩ := hcell (.inl ⟨Nat.le_trans (by decide) hlow, hhigh⟩)
    have hecho := (cell?_echo (selectedBank model past) hlow hhigh).trans hc
    refine ⟨?_, ?_⟩
    · rw [read_cell hrecalls.bank hc, read_cell hrecalls.bank hecho]
    · intro v
      rw [write_cell hrecalls.bank hc, write_cell hrecalls.bank hecho]
  · intro op hop
    exact operate_frame (start.through past) hop

/-- Two banks under one address: color hardware shows the older value once its bank is back. -/
def bankHistory : List Operation :=
  [.write 0xFF70 2, .tick, .write 0xD123 0x66, .write 0xFF70 3, .write 0xF123 0x55,
    .write 0xFF70 2].map .deed

theorem work_memory_banked : Initial .color (powerOn .color) ∧ InWorkMemory 0xD123 ∧
    ((powerOn .color).through bankHistory).read 0xD123 = 0x55 ∧
    ((powerOn .color).through (.deed (.write 0xFF70 0xF3) :: bankHistory)).read 0xF123 = 0x66 := by
  have hstart : Initial .color (powerOn .color) := .powerOn
  have hd : InWorkMemory 0xD123 := by unfold InWorkMemory; decide
  have hf : InWorkMemory 0xF123 := by unfold InWorkMemory; decide
  obtain ⟨cell, hcell, hread⟩ := (work_memory hstart bankHistory).1 0xD123 hd
  obtain ⟨cell', hcell', hread'⟩ :=
    (work_memory hstart (.deed (.write 0xFF70 0xF3) :: bankHistory)).1 0xF123 hf
  refine ⟨hstart, hd, ?_, ?_⟩
  · cases hcell
    exact hread.trans (by decide)
  · cases hcell'
    exact hread'.trans (by decide)

end Handheld.Board
