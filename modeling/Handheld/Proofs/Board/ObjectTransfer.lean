import Handheld.Proofs.Board.Cycles
import Handheld.Proofs.Ppu.Memories

/-!
# The transfer into object memory

A write to `FF46` starts a transfer: after two bus cycles one byte is stored in each of the next 160,
while the CPU may do whatever it likes, and may be held for any of them.

* `engineAt`: where the engine is, from the bus cycles since its start.
* `Progressing.cycle`, `Progressing.deed`: a bus cycle moves the engine on by one, other operations
  leave it alone.
* `transfer_exact`: every byte is the one found at its moment, and the CPU can neither see nor change
  the object memory meanwhile.
-/

namespace Handheld.Board

open Ppu (oamSize)

variable {b d : Board} {l : List Board} {page : UInt8}

/-- Object memory and the engine that fills it. -/
def objectMemory (b : Board) : Vector UInt8 oamSize × Option OamDma := (b.ppu.oam, b.oamDma)

theorem Fills.objectMemory (h : Fills b d) : d.objectMemory = b.objectMemory := by
  obtain ⟨_, _, _, rfl⟩ := h
  rfl

/-- Of a bus cycle, only the engine's own part matters to object memory. -/
theorem cycle_objectMemory (b : Board) :
    b.cycle.value.objectMemory = b.beforeDisplay.objectMemory := by
  have hdots : b.afterDots.objectMemory = b.beforeDisplay.objectMemory := by
    have hm := Ppu.step_memories b.beforeDisplay.ppu b.cycleDots
    exact Prod.ext (congrArg (·.2.2) hm) rfl
  exact (cycle_fills b).objectMemory.trans hdots

/-- The clocks do not touch what the engine finds. -/
theorem clocks_dmaRead (b : Board) (addr : UInt16) :
    b.runTimer.runSerial.dmaRead addr = b.dmaRead addr := by
  have hclocks : Elapses b b.runTimer.runSerial := ⟨_, _, _, _, _, _, _, rfl⟩
  exact hclocks.dmaRead_eq fun _ => rfl

/-- **A bus cycle of the engine**: it waits, stores a byte or rests. -/
theorem cycle_engine (b : Board) :
    b.cycle.value.objectMemory =
      match b.oamDma with
      | none => (b.ppu.oam, none)
      | some ⟨source, index, 0⟩ =>
        ((b.ppu.setOamByte index (b.dmaRead (OamDma.mk source index 0).address)).oam,
          (OamDma.mk source index 0).next?)
      | some ⟨source, index, n + 1⟩ => (b.ppu.oam, some ⟨source, index, n⟩) := by
  have hd : b.runTimer.runSerial.oamDma = b.oamDma := rfl
  rw [cycle_objectMemory, beforeDisplay, stepOamDma, hd]
  cases h : b.oamDma with
  | none => exact Prod.ext rfl h
  | some e =>
    obtain ⟨source, index, delay⟩ := e
    cases delay with
    | zero =>
      simp only [copyOamByte, clocks_dmaRead]
      rfl
    | succ n => rfl

/-- Where a transfer finds its bytes. -/
def objectSource (page : UInt8) (i : Fin oamSize) : UInt16 :=
  { OamDma.start page with index := i }.address

/-- **The engine** some bus cycles after the start. -/
def engineAt (page : UInt8) (n : Nat) : Option OamDma :=
  if n < 2 then some { OamDma.start page with delay := 2 - n }
  else if h : n - 2 < oamSize then
    some { OamDma.start page with index := ⟨n - 2, h⟩, delay := 0 }
  else none

theorem engineAt_storing (page : UInt8) (i : Fin oamSize) :
    engineAt page (i.val + 2) = some { OamDma.start page with index := i, delay := 0 } := by
  unfold engineAt
  rw [if_neg (by omega), dif_pos (show i.val + 2 - 2 < oamSize from i.isLt)]
  rfl

theorem engineAt_next (page : UInt8) (i : Fin oamSize) :
    engineAt page (i.val + 3) =
      OamDma.next? { OamDma.start page with index := i, delay := 0 } := by
  unfold engineAt OamDma.next?
  rw [if_neg (by omega)]
  rfl

theorem engineAt_idle (page : UInt8) {n : Nat} (h : 162 ≤ n) : engineAt page n = none := by
  unfold engineAt
  have hlast : ¬ n - 2 < oamSize := by
    unfold oamSize
    omega
  rw [if_neg (by omega), dif_neg hlast]

theorem busy_of_engineAt {n : Nat} (h : d.oamDma = engineAt page n) (hn : 2 ≤ n) (hn' : n < 162) :
    d.oamBusy = true := by
  have hi : n - 2 < oamSize := by
    unfold oamSize
    omega
  have hat := engineAt_storing page ⟨n - 2, hi⟩
  rw [Nat.sub_add_cancel hn, ← h] at hat
  unfold oamBusy
  rw [hat]
  rfl

/-- Each bus cycle is before the first byte, stores one, or comes after the last. -/
theorem cycle_of_engineAt {n : Nat} (h : d.oamDma = engineAt page n) :
    d.cycle.value.oamDma = engineAt page (n + 1) ∧
      ((n < 2 ∨ 162 ≤ n) ∧ d.cycle.value.ppu.oam = d.ppu.oam ∨
        ∃ i : Fin oamSize, n = i.val + 2 ∧
          d.cycle.value.ppu.oam = (d.ppu.setOamByte i (d.dmaRead (objectSource page i))).oam) := by
  have hc := cycle_engine d
  rw [h] at hc
  have hoam : d.cycle.value.ppu.oam = d.cycle.value.objectMemory.1 := rfl
  have hengine : d.cycle.value.oamDma = d.cycle.value.objectMemory.2 := rfl
  rw [hoam, hengine]
  by_cases hn : n < 2
  · have hcases : n = 0 ∨ n = 1 := by omega
    rcases hcases with rfl | rfl <;> rw [hc] <;> exact ⟨rfl, .inl ⟨.inl hn, rfl⟩⟩
  by_cases hi : n - 2 < oamSize
  · obtain ⟨i, rfl⟩ : ∃ i : Fin oamSize, n = i.val + 2 :=
      ⟨⟨n - 2, hi⟩, (Nat.sub_add_cancel (Nat.not_lt.1 hn)).symm⟩
    rw [engineAt_storing] at hc
    rw [hc, engineAt_next]
    exact ⟨rfl, .inr ⟨i, rfl, rfl⟩⟩
  · have hlast : 162 ≤ n := by
      unfold oamSize at hi
      omega
    rw [engineAt_idle page hlast] at hc
    rw [hc, engineAt_idle page (by omega)]
    exact ⟨rfl, .inl ⟨.inr hlast, rfl⟩⟩

/-- **What an access can do to the transfer**: start it anew, or reach object memory while no transfer
fills it. -/
def LeavesTransfer (b d : Board) (addr : UInt16) : Prop :=
  (addr ≠ 0xFF46 → d.oamDma = b.oamDma) ∧ (b.oamBusy = true → d.ppu.oam = b.ppu.oam)

theorem LeavesTransfer.of_same {addr : UInt16} (h : d.objectMemory = b.objectMemory) :
    LeavesTransfer b d addr :=
  ⟨fun _ => congrArg Prod.snd h, fun _ => congrArg Prod.fst h⟩

theorem writePort_leaves (b : Board) (addr : UInt16) (v : UInt8) :
    LeavesTransfer b (b.writePort addr v).value addr := by
  unfold writePort
  cases hp : Port.of b.model addr with
  | display =>
    have hm := Ppu.writePort_memories b.ppu addr v
    exact .of_same (Prod.ext (congrArg (·.2.2) hm) rfl)
  | vramDma => exact .of_same (writeVramDma_fills b addr v).objectMemory
  | outputMode =>
    simp only [writeOutputMode]
    split <;> exact .of_same rfl
  | oamDma => exact ⟨fun hne => absurd (port_address.2.2 hp) hne, fun _ => rfl⟩
  | _ => exact .of_same rfl

/-- **A write leaves a transfer alone**, unless it starts another one. -/
theorem write_leaves (b : Board) (addr : UInt16) (v : UInt8) :
    LeavesTransfer b (b.write addr v).value addr := by
  unfold write
  cases Region.of addr with
  | port => exact writePort_leaves b addr v
  | vram =>
    obtain ⟨vram, hq⟩ := Ppu.writeVram_eq b.ppu addr v
    simp only [hq]
    exact .of_same rfl
  | oam =>
    simp only [writeOam]
    split
    · exact .of_same rfl
    · rename_i hbusy
      exact ⟨fun _ => rfl, fun h => absurd h hbusy⟩
  | _ => exact .of_same rfl

/-- The CPU reads ones from object memory while a transfer fills it. -/
theorem read_of_busy (h : b.oamBusy = true) {addr : UInt16} (hr : Region.of addr = .oam) :
    b.read addr = 0xFF := by
  unfold read
  simp only [hr, h, if_true]

theorem perform_leaves (b : Board) {e : Deed} (he : e ≠ .tick) (hstart : ∀ v, e ≠ .write 0xFF46 v) :
    (e.perform b).oamDma = b.oamDma ∧
      (b.oamBusy = true → (e.perform b).ppu.oam = b.ppu.oam) := by
  cases e with
  | tick => exact absurd rfl he
  | read | setInterrupts | clearDivider => exact ⟨rfl, fun _ => rfl⟩
  | write addr v =>
    have hne : addr ≠ 0xFF46 := by
      rintro rfl
      exact hstart v rfl
    have hl := write_leaves b addr v
    exact ⟨hl.1 hne, hl.2⟩
  | switchSpeed =>
    show (b.switchSpeed).value.2.oamDma = _ ∧ (_ → (b.switchSpeed).value.2.ppu.oam = _)
    unfold switchSpeed
    split <;> exact ⟨rfl, fun _ => rfl⟩

/-- The byte found for a place of object memory at its moment. -/
def Found (page : UInt8) (l : List Board) (i : Fin oamSize) (v : UInt8) : Prop :=
  ∃ m, l[i.val + 2]? = some m ∧ v = m.dmaRead (objectSource page i)

/-- **A transfer under way or over**, `l` being the boards before each bus cycle since its start. -/
structure Progressing (page : UInt8) (l : List Board) (d : Board) : Prop where
  engine : d.oamDma = engineAt page l.length
  cycles : ∀ n m, l[n]? = some m → m.oamDma = engineAt page n
  bytes : l.length < 162 → ∀ (i : Fin oamSize) (v : UInt8), Found page l i v →
    d.ppu.oam.get i = v
  complete : ∀ m, l[161]? = some m →
    ∀ (i : Fin oamSize) (v : UInt8), Found page l i v → m.cycle.value.ppu.oam.get i = v

theorem progressing_start (b : Board) (page : UInt8) :
    Progressing page [] (b.write 0xFF46 page).value := by
  refine ⟨?_, ?_, ?_, ?_⟩
  · cases hm : b.model <;> simp only [write, writePort, hm] <;> rfl
  · intro n m hn
    cases hn
  · rintro - i v ⟨m, hm, -⟩
    cases hm
  · intro m hm
    cases hm

/-- A bus cycle before the last stores the byte found in it, and keeps those found before. -/
theorem Progressing.cycle_bytes (h : Progressing page l d) (hn : l.length < 162) {i : Fin oamSize}
    {v : UInt8} (hv : Found page (l ++ [d]) i v) : d.cycle.value.ppu.oam.get i = v := by
  obtain ⟨m, hm, rfl⟩ := hv
  obtain ⟨-, ⟨hfirst, -⟩ | ⟨j, hj, hset⟩⟩ := cycle_of_engineAt h.engine
  · -- no byte has been found so far
    have hlt := (List.getElem?_eq_some_iff.1 hm).1
    rw [List.length_append, List.length_singleton] at hlt
    omega
  · rw [hset]
    rcases getElem?_concat_eq_some.1 hm with hold | ⟨hi, rfl⟩
    · have hlt := (List.getElem?_eq_some_iff.1 hold).1
      have hne : i ≠ j := fun he => by omega
      exact (Ppu.setOamByte_other _ _ _ hne).trans (h.bytes hn i _ ⟨m, hold, rfl⟩)
    · obtain rfl : i = j := Fin.ext (by omega)
      exact Ppu.setOamByte_same _ i _

theorem Progressing.release (h : Progressing page l d) : Progressing page l d.release :=
  ⟨h.engine, h.cycles, h.bytes, h.complete⟩

theorem Progressing.cycle (h : Progressing page l d) :
    Progressing page (l ++ [d]) d.cycle.value := by
  refine ⟨?_, ?_, ?_, ?_⟩
  · rw [List.length_append]
    exact (cycle_of_engineAt h.engine).1
  · intro n m hm
    rcases getElem?_concat_eq_some.1 hm with hm | ⟨rfl, rfl⟩
    · exact h.cycles n m hm
    · exact h.engine
  · intro hn i v hv
    rw [List.length_append] at hn
    exact h.cycle_bytes (by omega) hv
  · intro m hm i v hv
    rcases getElem?_concat_eq_some.1 hm with hold | ⟨hlast, rfl⟩
    · -- all bytes have been found
      obtain ⟨s, hs, rfl⟩ := hv
      have hlt := (List.getElem?_eq_some_iff.1 hold).1
      have hi : i.val < 160 := i.isLt
      rcases getElem?_concat_eq_some.1 hs with hs | ⟨hs, -⟩
      · exact h.complete m hold i _ ⟨s, hs, rfl⟩
      · omega
    · exact h.cycle_bytes (by omega) hv

theorem Progressing.deed (h : Progressing page l d) {e : Deed} (he : e ≠ .tick)
    (hstart : ∀ v, e ≠ .write 0xFF46 v) : Progressing page l (e.perform d) := by
  obtain ⟨hengine, hoam⟩ := perform_leaves d he hstart
  refine ⟨hengine.trans h.engine, h.cycles, ?_, h.complete⟩
  rintro hn i v hv
  have hbusy : d.oamBusy = true := by
    obtain ⟨m, hm, -⟩ := hv
    have hlt := (List.getElem?_eq_some_iff.1 hm).1
    exact busy_of_engineAt h.engine (by omega) hn
  rw [hoam hbusy]
  exact h.bytes hn i v hv

/-- The page that a transfer reads: work RAM in place of its echo and of all that lies above. -/
def sourcePage (page : UInt8) : Nat := if page ≥ 0xE0 then page.toNat - 0x20 else page.toNat

theorem objectSource_toNat (page : UInt8) (i : Fin oamSize) :
    (objectSource page i).toNat = sourcePage page * 0x100 + i.val ∧
      (objectSource page i).toNat < 0xE000 := by
  have hi : i.val < 160 := i.isLt
  have hp := page.toNat_lt
  have hge : page ≥ 0xE0 ↔ 0xE0 ≤ page.toNat := UInt8.le_iff_toNat_le
  have hindex : i.val.toUInt16.toNat = i.val := by
    rw [Nat.toUInt16_eq, UInt16.toNat_ofNat']
    omega
  have hpage : (if page ≥ 0xE0 then page - 0x20 else page).toNat = sourcePage page := by
    unfold sourcePage
    split
    · rename_i h
      exact UInt8.toNat_sub_of_le page 0x20 (UInt8.le_trans (by decide) h)
    · rfl
  have hlt : sourcePage page < 0xE0 := by
    unfold sourcePage
    split
    · omega
    · rename_i h
      exact Nat.not_le.1 (mt hge.2 h)
  have hsum : (objectSource page i).toNat = sourcePage page * 0x100 + i.val := by
    simp only [objectSource, OamDma.address, OamDma.start, UInt16.toNat_add, toNat_word, hindex,
      hpage, UInt8.toNat_zero, Nat.add_zero]
    omega
  exact ⟨hsum, by omega⟩

theorem objectSource_read (m : Board) (page : UInt8) (i : Fin oamSize) :
    m.dmaRead (objectSource page i) = m.read (objectSource page i) := by
  have h := (objectSource_toNat page i).2
  refine m.dmaRead_of_lt ?_
  rw [UInt16.lt_iff_toNat_lt]
  exact Nat.lt_trans h (by decide)

/-- **A transfer from `page` as the program sees it**, `l` being the boards before each bus cycle
since its start and `d` the board that the last of them and the operations after it lead to. -/
structure Transfers (page : UInt8) (l : List Board) (d : Board) : Prop where
  /-- The first two bus cycles store nothing, nor do those after the last byte. -/
  waits : ∀ n m, n < 2 ∨ 162 ≤ n → l[n]? = some m → m.cycle.value.ppu.oam = m.ppu.oam
  /-- Each of the next ones stores the byte that a read gives at its moment, in its place. -/
  stores : ∀ (i : Fin oamSize) m, l[i.val + 2]? = some m →
    m.cycle.value.ppu.oam = (m.ppu.setOamByte i (m.read (objectSource page i))).oam
  /-- The display keeps video memory to itself while it transfers pixels. -/
  blocked : ∀ (i : Fin oamSize) m, l[i.val + 2]? = some m →
    Region.of (objectSource page i) = .vram → m.ppu.lcdOn = true → m.ppu.mode = .transfer →
    m.read (objectSource page i) = 0xFF
  /-- Meanwhile the CPU cannot reach object memory. -/
  locked : 2 ≤ l.length → l.length < 162 →
    (∀ addr, 0xFE00 ≤ addr → addr < 0xFEA0 → d.read addr = 0xFF) ∧
      ∀ addr v, (d.write addr v).value.ppu.oam = d.ppu.oam
  /-- The last one leaves the bytes found, and the engine at rest. -/
  complete : ∀ m, l[161]? = some m → m.cycle.value.oamDma = none ∧
    ∀ (i : Fin oamSize) s, l[i.val + 2]? = some s →
      m.cycle.value.ppu.oam.get i = s.read (objectSource page i)
  idle : 162 ≤ l.length → d.oamDma = none

theorem Progressing.transfers (h : Progressing page l d) : Transfers page l d where
  waits n m hn hm := by
    obtain ⟨-, ⟨-, hsame⟩ | ⟨i, hi, -⟩⟩ := cycle_of_engineAt (h.cycles n m hm)
    · exact hsame
    · have hlt : i.val < 160 := i.isLt
      omega
  stores i m hm := by
    have hi : i.val < 160 := i.isLt
    obtain ⟨-, ⟨hout, -⟩ | ⟨j, hj, hset⟩⟩ := cycle_of_engineAt (h.cycles _ m hm)
    · omega
    · obtain rfl : i = j := Fin.ext (by omega)
      rw [hset, objectSource_read]
  blocked i m _ hr hon hmode := by
    unfold read Ppu.readVram Ppu.vramFree
    simp [hr, hon, hmode]
  locked hn hn' := by
    have hbusy := busy_of_engineAt h.engine hn hn'
    refine ⟨?_, ?_⟩
    · intro addr ha ha'
      exact read_of_busy hbusy (region_oam ha ha')
    · intro addr v
      exact (write_leaves d addr v).2 hbusy
  complete m hm := by
    refine ⟨?_, ?_⟩
    · rw [(cycle_of_engineAt (h.cycles 161 m hm)).1]
      exact engineAt_idle page (Nat.le_refl _)
    · intro i s hs
      rw [← objectSource_read]
      exact h.complete m hm i _ ⟨s, hs, rfl⟩
  idle hn := h.engine.trans (engineAt_idle page hn)

theorem progressing_of_start (b : Board) (page : UInt8) {deeds : List Deed}
    (h : ∀ v, .write 0xFF46 v ∉ deeds) :
    Progressing page ((b.write 0xFF46 page).value.cyclesOf deeds)
      ((b.write 0xFF46 page).value.after deeds) := by
  have hok (e : Deed) (he : e ∈ deeds) : ∀ v, e ≠ .write 0xFF46 v := by
    rintro v rfl
    exact h v he
  exact after_along (fun _ _ hp => hp.release) (fun _ _ hp => hp.cycle)
    (fun _ _ _ hstart he hp => hp.deed he hstart) hok (progressing_start b page)

/-- **The transfer into object memory is exact**, on every board, whatever the CPU does between its
bus cycles and however many of them it is held for. A second write to `FF46` starts all over, at any
time. The bytes come from below `E000`. -/
theorem transfer_exact (b : Board) (page : UInt8) {deeds : List Deed}
    (h : ∀ v, .write 0xFF46 v ∉ deeds) :
    Transfers page ((b.write 0xFF46 page).value.cyclesOf deeds)
        ((b.write 0xFF46 page).value.after deeds) ∧
      (∀ (page' : UInt8) (deeds' : List Deed), (∀ v, .write 0xFF46 v ∉ deeds') →
        Transfers page'
          ((((b.write 0xFF46 page).value.after deeds).write 0xFF46 page').value.cyclesOf deeds')
          ((((b.write 0xFF46 page).value.after deeds).write 0xFF46 page').value.after deeds')) ∧
      ∀ i : Fin oamSize, (objectSource page i).toNat = sourcePage page * 0x100 + i.val ∧
        (objectSource page i).toNat < 0xE000 := by
  refine ⟨(progressing_of_start b page h).transfers, ?_, objectSource_toNat page⟩
  intro page' deeds' h'
  exact (progressing_of_start _ page' h').transfers

/-- Three bus cycles after its start a transfer has stored a byte, and no write reaches object
memory. -/
theorem transfer_exact_locked :
    (∀ v, Deed.write 0xFF46 v ∉ [.tick, .tick, .tick]) ∧
      ∀ addr v,
        ((((powerOn .mono).write 0xFF46 0xC0).value.after [.tick, .tick, .tick]).write
            addr v).value.ppu.oam =
          (((powerOn .mono).write 0xFF46 0xC0).value.after [.tick, .tick, .tick]).ppu.oam := by
  have h : ∀ v, Deed.write 0xFF46 v ∉ [.tick, .tick, .tick] := by simp
  obtain ⟨ht, -⟩ := transfer_exact (powerOn .mono) 0xC0 h
  have hlength : (((powerOn .mono).write 0xFF46 0xC0).value.cyclesOf
      [.tick, .tick, .tick]).length = 3 := by decide +kernel
  have hlocked := ht.locked (by rw [hlength]; decide) (by rw [hlength]; decide)
  exact ⟨h, hlocked.2⟩

end Handheld.Board
