import Handheld.Proofs.Board.Reachable
import Handheld.Proofs.Ppu.Blanks
import Handheld.Proofs.Ppu.Memories

/-!
# The two transfers into video memory

Blocks are copied all at once, or one at the start of each horizontal blank. Either way the same bytes
go to the same places, wherever the source wraps and the target does.

* `Board.copied`: video memory after some bytes of a transfer.
* `Moved.block`: sixteen bytes more.
* `moveAll_moved`: all blocks at once.
* `Moving.cycle`: a bus cycle moves a block if a horizontal blank begins in it, and none otherwise.
* `transfers_agree`: after as many horizontal blanks as there are blocks, nothing tells the two apart.
-/

namespace Handheld.Board

open Ppu (vramSize vramCell OnTime tally)

variable {b d : Board} {k n : Nat}

/-- Where a transfer finds its bytes. -/
def blockSource (b : Board) (i : Nat) : UInt16 := b.vramDma.source + i.toUInt16

theorem blockSource_succ (b : Board) (i : Nat) : b.blockSource (i + 1) = b.blockSource i + 1 := by
  have hsucc : (i + 1).toUInt16 = i.toUInt16 + 1 := UInt16.ofNat_add i 1
  rw [blockSource, blockSource, hsucc, UInt16.add_assoc]

/-- Where they go: into the selected bank, where the target wraps. -/
def blockTarget (b : Board) (i : Nat) : Nat := b.vramDma.target.toNat + i

/-- **The display after some bytes of a transfer**, all else being the same. -/
def copied (b : Board) : Nat → Ppu
  | 0 => b.ppu
  | k + 1 =>
    (b.copied k).setVramByte b.ppu.vramUpper (b.blockTarget k) (b.dmaRead (b.blockSource k))

/-- Bytes of one transfer go to different places, as long as the bank has room. -/
theorem blockCell_ne {i j : Nat} (upper : Bool) (hi : i < 0x2000) (hj : j < 0x2000) (h : i ≠ j) :
    vramCell upper (b.blockTarget i) ≠ vramCell upper (b.blockTarget j) := by
  unfold blockTarget vramCell
  rw [ne_eq, Fin.mk.injEq]
  omega

theorem copied_byte (b : Board) (hk : k ≤ 0x2000) {i : Nat} (hi : i < k) :
    (b.copied k).vram.get (vramCell b.ppu.vramUpper (b.blockTarget i)) =
      b.dmaRead (b.blockSource i) := by
  induction k with
  | zero => exact absurd hi (Nat.not_lt_zero i)
  | succ k ih =>
    rw [copied]
    by_cases h : i = k
    · subst h
      exact Ppu.setVramByte_same ..
    · have hne := b.blockCell_ne b.ppu.vramUpper (i := i) (j := k) (by omega) (by omega) h
      exact (Ppu.setVramByte_other _ _ _ _ hne).trans (ih (by omega) (by omega))

theorem copied_other (b : Board) (k : Nat) {cell : Fin vramSize}
    (h : ∀ i < k, cell ≠ vramCell b.ppu.vramUpper (b.blockTarget i)) :
    (b.copied k).vram.get cell = b.ppu.vram.get cell := by
  induction k with
  | zero => rfl
  | succ k ih =>
    rw [copied, Ppu.setVramByte_other _ _ _ _ (h k (Nat.lt_succ_self k))]
    exact ih fun i hi => h i (Nat.lt_succ_of_lt hi)

/-- **A transfer finds the same bytes on both boards**, outside of video memory. -/
structure SameSources (b d : Board) : Prop where
  model : d.model = b.model
  bytes : ∀ addr, Region.of addr ≠ .vram → d.dmaRead addr = b.dmaRead addr

theorem SameSources.trans {e : Board} (h : SameSources b d) (h' : SameSources d e) :
    SameSources b e :=
  ⟨h'.model.trans h.model, fun addr hv => (h'.bytes addr hv).trans (h.bytes addr hv)⟩

theorem Elapses.sameSources (h : Elapses b d) : SameSources b d := by
  refine ⟨?_, fun addr hv => h.dmaRead_eq fun hr => absurd hr hv⟩
  obtain ⟨_, _, _, _, _, _, _, rfl⟩ := h
  rfl

/-- The speed is no concern of a transfer either. -/
theorem withSpeed_sameSources (b : Board) (doubleSpeed speedArmed : Bool) :
    SameSources b { b with doubleSpeed, speedArmed } := by
  refine ⟨rfl, fun addr _ => ?_⟩
  unfold dmaRead
  split
  · rename_i hlt
    unfold read
    rcases region_of_lt hlt with hr | hr | hr | hr | hr <;> rw [hr] <;> rfl
  · rfl

/-- **Only a write or time can change what a transfer finds, or where it is.** -/
theorem perform_sameSources (b : Board) {e : Deed} (he : e ≠ .tick)
    (hwrite : ∀ addr v, e ≠ .write addr v) :
    SameSources b (e.perform b) ∧ (e.perform b).ppu = b.ppu ∧
      (e.perform b).vramDma = b.vramDma := by
  have htime {d : Board} (h : Elapses b d) : SameSources b d := h.sameSources
  cases e with
  | tick => exact absurd rfl he
  | write addr v => exact absurd rfl (hwrite addr v)
  | read => exact ⟨htime (.refl b), rfl, rfl⟩
  | setInterrupts | clearDivider => exact ⟨htime ⟨_, _, _, _, _, _, _, rfl⟩, rfl, rfl⟩
  | switchSpeed =>
    show SameSources b b.switchSpeed.value.2 ∧ b.switchSpeed.value.2.ppu = _ ∧
      b.switchSpeed.value.2.vramDma = _
    unfold switchSpeed
    split
    · have hrest (d : Board) : Elapses d { d.clearDivider with stall := d.stall + switchStall } :=
        ⟨_, _, _, _, _, _, _, rfl⟩
      exact ⟨(withSpeed_sameSources b _ _).trans (hrest _).sameSources, rfl, rfl⟩
    · exact ⟨htime (.refl b), rfl, rfl⟩

/-- **A transfer of the board `b` after some bytes.** -/
structure Moved (b : Board) (k : Nat) (d : Board) : Prop where
  sources : SameSources b d
  upper : d.ppu.vramUpper = b.ppu.vramUpper
  vram : d.ppu.vram = (b.copied k).vram
  source : d.vramDma.source = b.blockSource k
  target : d.vramDma.target.toNat = 0x8000 + (b.vramDma.target.toNat + k) % 0x2000

theorem advance_target (e : VramDma) :
    e.advance.target.toNat = 0x8000 + (e.target.toNat + 1) % 0x2000 := by
  unfold VramDma.advance
  simp only [UInt16.toNat_or, UInt16.toNat_and, UInt16.toNat_add]
  show 0x8000 ||| ((e.target.toNat + 1) % 2 ^ 16 &&& (2 ^ 13 - 1)) = _
  rw [Nat.and_two_pow_sub_one_eq_mod, VramDma.or_8000 (by omega)]
  omega

theorem Moved.byte (h : Moved b k d) (hs : Region.of (b.blockSource k) ≠ .vram) :
    Moved b (k + 1) d.copyVramByte := by
  have hcell : vramCell d.ppu.vramUpper d.vramDma.target.toNat =
      vramCell b.ppu.vramUpper (b.blockTarget k) := by
    -- the engine wraps its target, and the cell counts within the bank only
    unfold blockTarget vramCell
    rw [Fin.mk.injEq, h.upper, h.target]
    omega
  have hread : d.dmaRead d.vramDma.source = b.dmaRead (b.blockSource k) := by
    rw [h.source]
    exact h.sources.bytes _ hs
  have hbyte : Elapses d d.copyVramByte := ⟨_, _, _, _, _, _, _, rfl⟩
  refine ⟨h.sources.trans hbyte.sameSources, h.upper, ?_, ?_, ?_⟩
  · show d.ppu.vram.set (vramCell d.ppu.vramUpper d.vramDma.target.toNat) _ = _
    rw [hread, h.vram, copied, Ppu.setVramByte]
    simp only [hcell]
  · show d.vramDma.source + 1 = _
    rw [h.source, blockSource_succ]
  · show d.vramDma.advance.target.toNat = _
    rw [advance_target, h.target]
    omega

/-- The bytes of a transfer lie outside of video memory. -/
def AvoidsVram (b : Board) (k : Nat) : Prop := ∀ i < k, Region.of (b.blockSource i) ≠ .vram

theorem Moved.bytes (n : Nat) (h : Moved b k d) (hs : b.AvoidsVram (k + n)) :
    Moved b (k + n) (copyVramBytes n d) := by
  induction n generalizing k d with
  | zero => exact h
  | succ n ih =>
    have hbyte := h.byte (hs k (by omega))
    have hrest := ih hbyte (fun i hi => hs i (by omega))
    rwa [Nat.add_right_comm] at hrest

theorem Moved.withStall (h : Moved b k d) (stall : Nat) : Moved b k { d with stall } :=
  ⟨h.sources.trans (withVramDma_fills d d.vramDma stall).elapses.sameSources, h.upper, h.vram,
    h.source, h.target⟩

/-- The engine may forget how much is left, and align its target, which is aligned already. -/
theorem Moved.withVramDma (h : Moved b (16 * k) d) (hb : b.vramDma.Aligned) {e : VramDma}
    (hs : e.source = d.vramDma.source)
    (ht : e.target = d.vramDma.target ∨ e.target = VramDma.alignTarget d.vramDma.target) :
    Moved b (16 * k) { d with vramDma := e } := by
  -- whole blocks lead from one multiple of 16 to another
  have haligned := hb.toNat
  have htarget := h.target
  have hkeep : e.target.toNat = d.vramDma.target.toNat := by
    rcases ht with ht | ht
    · rw [ht]
    · rw [ht, VramDma.alignTarget_toNat]
      omega
  exact ⟨h.sources.trans (withVramDma_fills d e d.stall).elapses.sameSources, h.upper, h.vram,
    hs.trans h.source, hkeep.trans h.target⟩

theorem Moved.block (h : Moved b (16 * k) d) (hs : b.AvoidsVram (16 * (k + 1))) :
    Moved b (16 * (k + 1)) d.copyBlock := by
  rw [copyBlock_eq]
  exact (h.bytes 16 hs).withStall _

theorem Moved.blocks (n : Nat) (h : Moved b (16 * k) d) (hs : b.AvoidsVram (16 * (k + n))) :
    Moved b (16 * (k + n)) (copyBlocks n d) := by
  induction n generalizing k d with
  | zero => exact h
  | succ n ih =>
    have hblock := h.block fun i hi => hs i (by omega)
    have hrest := ih hblock (fun i hi => hs i (by omega))
    rwa [Nat.add_right_comm] at hrest

/-- Nothing has been moved at the start. -/
theorem moved_start (hb : b.vramDma.Aligned) (blocks : Nat) (active : Bool) :
    Moved b (16 * 0) { b with vramDma.blocks := blocks, vramDma.active := active } := by
  have haligned := hb.toNat
  have htime : Elapses b { b with vramDma.blocks := blocks, vramDma.active := active } :=
    ⟨_, _, _, _, _, _, _, rfl⟩
  refine ⟨htime.sameSources, rfl, rfl, ?_, ?_⟩
  · show b.vramDma.source = b.vramDma.source + 0
    exact (UInt16.add_zero _).symm
  · show b.vramDma.target.toNat = _
    omega

/-- **All blocks at once.** -/
theorem moveAll_moved (hb : b.vramDma.Aligned) (hs : b.AvoidsVram (16 * n)) :
    Moved b (16 * n) (b.moveAll n) := by
  have hstart : Moved b (16 * 0) b := moved_start hb b.vramDma.blocks b.vramDma.active
  have hall := hstart.blocks n (fun i hi => hs i (by omega))
  rw [Nat.zero_add] at hall
  exact hall.withVramDma hb rfl (.inr rfl)

/-! ## One block each horizontal blank -/

/-- **A transfer of `n` blocks after `k` of them.** -/
structure Moving (b : Board) (n k : Nat) (d : Board) : Prop where
  le : k ≤ n
  moved : Moved b (16 * k) d
  blocks : d.vramDma.blocks = n - k
  active : d.vramDma.active = decide (k < n)

/-- What leaves video memory, the engine and its sources alone leaves a transfer where it is. -/
theorem Moving.of_same {e : Board} (h : Moving b n k d) (hsources : SameSources d e)
    (hupper : e.ppu.vramUpper = d.ppu.vramUpper) (hvram : e.ppu.vram = d.ppu.vram)
    (hdma : e.vramDma = d.vramDma) : Moving b n k e := by
  refine ⟨h.le, ⟨h.moved.sources.trans hsources, ?_, ?_, ?_, ?_⟩, ?_, ?_⟩
  · rw [hupper, h.moved.upper]
  · rw [hvram, h.moved.vram]
  · rw [hdma, h.moved.source]
  · rw [hdma, h.moved.target]
  · rw [hdma, h.blocks]
  · rw [hdma, h.active]

theorem Moving.release (h : Moving b n k d) : Moving b n k d.release :=
  ⟨h.le, h.moved.withStall _, h.blocks, h.active⟩

/-- The dots of a bus cycle, and what comes before them, leave a transfer where it is. -/
theorem Moving.afterDots (h : Moving b n k d) : Moving b n k d.afterDots := by
  obtain ⟨_, _, _, _, _, hb⟩ := d.beforeDisplay_eq
  have hmemories : d.afterDots.ppu.memories = d.beforeDisplay.ppu.memories :=
    Ppu.step_memories d.beforeDisplay.ppu d.cycleDots
  have helapses : Elapses d d.afterDots := by
    unfold Board.afterDots
    rw [hb]
    exact ⟨_, _, _, _, _, _, _, rfl⟩
  have hdma : d.afterDots.vramDma = d.vramDma := by
    show d.beforeDisplay.vramDma = _
    rw [hb]
  rw [hb] at hmemories
  exact h.of_same helapses.sameSources (congrArg (·.2.1) hmemories) (congrArg (·.1) hmemories) hdma

theorem Moving.deed (h : Moving b n k d) {e : Deed} (he : e ≠ .tick)
    (hwrite : ∀ addr v, e ≠ .write addr v) : Moving b n k (e.perform d) := by
  obtain ⟨hsources, hppu, hdma⟩ := perform_sameSources d he hwrite
  exact h.of_same hsources (congrArg Ppu.vramUpper hppu) (congrArg Ppu.vram hppu) hdma

/-- At the start of a horizontal blank a block is due until the last has been moved. -/
theorem Moving.enterHBlank (h : Moving b n k d) (hb : b.vramDma.Aligned)
    (hs : b.AvoidsVram (16 * n)) : Moving b n (min n (k + 1)) d.enterHBlank := by
  have hle := h.le
  unfold Board.enterHBlank
  by_cases hk : k < n
  · have hactive : d.vramDma.active = true := by rw [h.active, decide_eq_true hk]
    have hmin : min n (k + 1) = k + 1 := by omega
    have hblock := h.moved.block fun i hi => hs i (by omega)
    have hblocks : d.copyBlock.vramDma.blocks = n - k := by
      rw [copyBlock_eq]
      exact (copyVramBytes_blocks 16 d).trans h.blocks
    have hstill : d.copyBlock.vramDma.active = true := by
      rw [copyBlock_eq]
      exact (copyVramBytes_active 16 d).trans hactive
    rw [if_pos hactive, moveBlock_eq, hmin]
    refine ⟨hk, hblock.withVramDma hb rfl (.inr rfl), ?_, ?_⟩
    · show d.copyBlock.vramDma.blocks - 1 = _
      rw [hblocks]
      omega
    · show (d.copyBlock.vramDma.active && d.copyBlock.vramDma.blocks - 1 != 0) = _
      rw [hstill, hblocks, Bool.true_and, Bool.eq_iff_iff, bne_iff_ne, decide_eq_true_eq]
      omega
  · have hidle : ¬ d.vramDma.active = true := by
      rw [h.active, decide_eq_true_eq]
      exact hk
    have hmin : min n (k + 1) = k := by omega
    rw [if_neg hidle, hmin]
    exact h

/-- **A bus cycle moves a block if a horizontal blank begins in it**, and none otherwise. -/
theorem Moving.cycle (h : Moving b n k d) (hb : b.vramDma.Aligned) (hs : b.AvoidsVram (16 * n)) :
    Moving b n (min n (k + d.signals.hblank.toNat)) d.cycle.value := by
  have hdots := h.afterDots
  have hle := h.le
  rw [cycle_value]
  cases d.signals.hblank with
  | true => exact hdots.enterHBlank hb hs
  | false =>
    rw [Bool.toNat_false, Nat.add_zero, Nat.min_eq_right hle]
    exact hdots

/-- The horizontal blanks that begin in some bus cycles. -/
def blanksBegun (l : List Board) : Nat :=
  l.foldl (fun n m => n + Ppu.blanksBegun m.cycleDots m.beforeDisplay.ppu) 0

theorem blanksBegun_concat (l : List Board) (m : Board) :
    blanksBegun (l ++ [m]) = blanksBegun l + Ppu.blanksBegun m.cycleDots m.beforeDisplay.ppu :=
  List.foldl_append ..

theorem beforeDisplay_onTime {c : Nat} (h : OnTime c d.ppu) :
    OnTime c d.beforeDisplay.ppu ∧ tally c d.beforeDisplay.ppu = tally c d.ppu := by
  obtain ⟨_, _, _, _, _, hb⟩ := d.beforeDisplay_eq
  rw [hb]
  exact ⟨h.withMemories .., rfl⟩

/-- **A bus cycle signals the horizontal blank that begins in it.** -/
theorem blanksBegun_cycle {c : Nat} (h : OnTime c d.ppu) :
    Ppu.blanksBegun d.cycleDots d.beforeDisplay.ppu = d.signals.hblank.toNat :=
  Ppu.blanksBegun_eq (beforeDisplay_onTime h).1 (cycleDots_bounds d).2

theorem cycle_onTime {c : Nat} (h : OnTime c d.ppu) :
    OnTime (c + d.cycleDots) d.cycle.value.ppu ∧
      tally (c + d.cycleDots) d.cycle.value.ppu =
        tally c d.ppu + Ppu.blanksBegun d.cycleDots d.beforeDisplay.ppu := by
  obtain ⟨hbefore, htally⟩ := beforeDisplay_onTime h
  obtain ⟨hstep, hlines⟩ := hbefore.step d.cycleDots
  obtain ⟨_, _, _, hf⟩ := cycle_fills d
  rw [hf, ← htally]
  exact ⟨hstep.withMemories .., hlines⟩

theorem port_control (hc : b.model = .color) :
    Region.of 0xFF55 = .port ∧ Port.of b.model 0xFF55 = .vramDma := by
  rw [hc]
  decide

theorem write_control (hc : b.model = .color) (v : UInt8) :
    b.write 0xFF55 v = b.controlVramDma v := by
  obtain ⟨hr, hp⟩ := port_control hc
  unfold write
  simp only [hr, writePort, hp, writeVramDma, if_true]

theorem read_control (hc : b.model = .color) : b.read 0xFF55 = b.vramDma.status := by
  obtain ⟨hr, hp⟩ := port_control hc
  unfold read
  simp only [hr, readPort, hp, if_true]

/-- Bit 7 of the control byte chooses the horizontal blanks, the others hold the blocks less one. -/
theorem control_byte : ∀ v : UInt8, v < 0x80 →
    ((v &&& 0x80 != 0) = false ∧ VramDma.requestedBlocks v = v.toNat + 1) ∧
      ((0x80 ||| v) &&& 0x80 != 0) = true ∧
        VramDma.requestedBlocks (0x80 ||| v) = v.toNat + 1 :=
  forall_byte (by decide +kernel)

theorem toNat_blocksByte (hn : 1 ≤ n) (hn' : n ≤ 128) :
    (n - 1).toUInt8 < 0x80 ∧ (n - 1).toUInt8.toNat + 1 = n := by
  have hbyte : (n - 1).toUInt8.toNat = n - 1 := by
    rw [Nat.toUInt8_eq, UInt8.toNat_ofNat']
    omega
  rw [UInt8.lt_iff_toNat_lt, hbyte]
  exact ⟨Nat.lt_of_lt_of_le (by omega) hn', by omega⟩

theorem control_general (hidle : b.vramDma.active = false) (hn : 1 ≤ n) (hn' : n ≤ 128) :
    (b.controlVramDma (n - 1).toUInt8).value = b.moveAll n := by
  obtain ⟨hv, hblocks⟩ := toNat_blocksByte hn hn'
  obtain ⟨⟨hbit, hcount⟩, -⟩ := control_byte _ hv
  unfold controlVramDma
  simp only [hbit, hidle, hcount, hblocks, Bool.false_eq_true, if_false]
  rfl

theorem control_blanks (hon : b.ppu.lcdOn = true) (hn : 1 ≤ n) (hn' : n ≤ 128) :
    (b.controlVramDma (0x80 ||| (n - 1).toUInt8)).value =
      { b with vramDma.blocks := n, vramDma.active := true } := by
  obtain ⟨hv, hblocks⟩ := toNat_blocksByte hn hn'
  obtain ⟨-, hbit, hcount⟩ := control_byte _ hv
  unfold controlVramDma
  simp only [hbit, hcount, hblocks, if_true, startHBlankDma, hon]

/-- **The status port tells the blocks left**, less one; it reads ones when there are none. -/
theorem Moving.status (h : Moving b n k d) (hc : b.model = .color) (hn : n ≤ 128) :
    d.read 0xFF55 = if k < n then (n - k - 1).toUInt8 else 0xFF := by
  have hle := h.le
  rw [read_control (h.moved.sources.model.trans hc), VramDma.status, h.blocks, h.active]
  by_cases hk : k < n
  · have hleft : (n - k + 127) % 128 = n - k - 1 := by omega
    simp only [hk, decide_true, if_true, hleft]
  · have hleft : (n - k + 127) % 128 = 127 := by omega
    simp only [hk, decide_false, Bool.false_eq_true, if_false, hleft]
    decide

/-! ## The end of a transfer -/

/-- **What a transfer of `n` blocks leaves.** -/
structure Transferred (b : Board) (n : Nat) (d : Board) : Prop where
  /-- The bytes are those that a read gives. -/
  bytes : ∀ i < 16 * n, b.vramDma.source + i.toUInt16 < 0xFE00 →
    d.ppu.vramByte b.ppu.vramUpper (b.vramDma.target.toNat + i) =
      b.read (b.vramDma.source + i.toUInt16)
  /-- The last two pages read ones, whatever the CPU finds there. -/
  ones : ∀ i < 16 * n, 0xFE00 ≤ b.vramDma.source + i.toUInt16 →
    d.ppu.vramByte b.ppu.vramUpper (b.vramDma.target.toNat + i) = 0xFF
  others : ∀ cell, (∀ i < 16 * n, cell ≠ vramCell b.ppu.vramUpper (b.vramDma.target.toNat + i)) →
    d.ppu.vram.get cell = b.ppu.vram.get cell
  source : d.vramDma.source = b.vramDma.source + (16 * n).toUInt16
  target : d.vramDma.target.toNat = 0x8000 + (b.vramDma.target.toNat + 16 * n) % 0x2000
  target_le : 0x8000 ≤ d.vramDma.target.toNat ∧ d.vramDma.target.toNat ≤ 0x9FF0
  status : d.read 0xFF55 = 0xFF

/-- After the last block every byte stands in its place. -/
theorem Moving.byte (h : Moving b n n d) (hn : n ≤ 128) {i : Nat} (hi : i < 16 * n) :
    d.ppu.vramByte b.ppu.vramUpper (b.vramDma.target.toNat + i) =
      b.dmaRead (b.vramDma.source + i.toUInt16) := by
  have hbyte := copied_byte b (by omega) hi
  rw [← h.moved.vram] at hbyte
  exact hbyte

theorem Moving.transferred (h : Moving b n n d) (hb : b.vramDma.Aligned) (hc : b.model = .color)
    (hn : n ≤ 128) : Transferred b n d where
  bytes i hi hlt := (h.byte hn hi).trans (b.dmaRead_of_lt hlt)
  ones i hi hle := (h.byte hn hi).trans (b.dmaRead_of_le hle)
  others cell hcell := by
    rw [h.moved.vram]
    exact copied_other b _ hcell
  source := h.moved.source
  target := h.moved.target
  target_le := by
    have haligned := hb.toNat
    rw [h.moved.target]
    omega
  status := by rw [h.status hc hn, if_neg (Nat.lt_irrefl n)]

theorem moveAll_moving (hb : b.vramDma.Aligned) (hs : b.AvoidsVram (16 * n)) :
    Moving b n n (b.moveAll n) := by
  have hdone : decide (n < n) = false := decide_eq_false (Nat.lt_irrefl n)
  exact ⟨Nat.le_refl n, moveAll_moved hb hs, (Nat.sub_self n).symm, hdone.symm⟩

/-- **A transfer in the horizontal blanks under way**, `l` being the boards before the bus cycles
since it was started on `b`. -/
structure Blanking (b : Board) (n : Nat) (l : List Board) (d : Board) : Prop where
  time : ∃ c, b.ppu.position + 2 * l.length ≤ c ∧ OnTime c d.ppu ∧
    tally c d.ppu = tally b.ppu.position b.ppu + blanksBegun l
  moving : Moving b n (min n (blanksBegun l)) d
  cycles : ∀ j m, l[j]? = some m → Moving b n (min n (blanksBegun (l.take j))) m ∧
    Moving b n (min n (blanksBegun (l.take (j + 1)))) m.cycle.value
  single : ∀ m ∈ l, blanksBegun [m] ≤ 1

theorem blanking_start (hb : b.vramDma.Aligned) (hphase : Ppu.PhaseOK b.ppu)
    (hon : b.ppu.lcdOn = true) (hn : 1 ≤ n) :
    Blanking b n [] { b with vramDma.blocks := n, vramDma.active := true } := by
  refine ⟨⟨_, Nat.le_of_eq (Nat.add_zero _), .of_lit hphase hon, (Nat.add_zero _).symm⟩, ?_, ?_, ?_⟩
  · have hzero : min n (blanksBegun []) = 0 := Nat.min_zero n
    rw [hzero]
    exact ⟨Nat.zero_le n, moved_start hb n true, rfl, (decide_eq_true hn).symm⟩
  · intro j m hm
    cases hm
  · intro m hm
    cases hm

theorem Blanking.release {l : List Board} (h : Blanking b n l d) : Blanking b n l d.release :=
  ⟨h.time, h.moving.release, h.cycles, h.single⟩

theorem Blanking.cycle {l : List Board} (h : Blanking b n l d) (hb : b.vramDma.Aligned)
    (hs : b.AvoidsVram (16 * n)) : Blanking b n (l ++ [d]) d.cycle.value := by
  obtain ⟨c, hc, htime, htally⟩ := h.time
  have hdots := cycleDots_bounds d
  have hsum := blanksBegun_concat l d
  have hsignal := blanksBegun_cycle htime
  obtain ⟨hnext, hlines⟩ := cycle_onTime htime
  -- further horizontal blanks find all blocks moved
  have hmoved : Moving b n (min n (blanksBegun (l ++ [d]))) d.cycle.value := by
    have hcycle := h.moving.cycle hb hs
    rw [hsum, hsignal]
    rwa [show min n (min n (blanksBegun l) + d.signals.hblank.toNat) =
      min n (blanksBegun l + d.signals.hblank.toNat) by omega] at hcycle
  refine ⟨⟨c + d.cycleDots, ?_, hnext, ?_⟩, hmoved, ?_, ?_⟩
  · rw [List.length_append, List.length_singleton]
    omega
  · rw [hlines, htally, hsum, Nat.add_assoc]
  · intro j m hm
    rcases getElem?_concat_eq_some.1 hm with hold | ⟨rfl, rfl⟩
    · have hlt := (List.getElem?_eq_some_iff.1 hold).1
      rw [List.take_append_of_le_length (Nat.le_of_lt hlt), List.take_append_of_le_length hlt]
      exact h.cycles j m hold
    · have hall : (l ++ [d]).take (l.length + 1) = l ++ [d] := List.take_of_length_le (by simp)
      rw [List.take_left, hall]
      exact ⟨h.moving, hmoved⟩
  · intro m hm
    rcases List.mem_append.1 hm with hm | hm
    · exact h.single m hm
    · obtain rfl := List.mem_singleton.1 hm
      have hone := blanksBegun_concat [] m
      rw [List.nil_append, hsignal] at hone
      rw [hone]
      exact Nat.le_trans (Nat.le_of_eq (Nat.zero_add _)) (Bool.toNat_le _)

theorem Blanking.deed {l : List Board} (h : Blanking b n l d) {e : Deed} (he : e ≠ .tick)
    (hwrite : ∀ addr v, e ≠ .write addr v) : Blanking b n l (e.perform d) := by
  obtain ⟨c, hc, htime, htally⟩ := h.time
  obtain ⟨-, hppu, -⟩ := perform_sameSources d he hwrite
  refine ⟨⟨c, hc, ?_, ?_⟩, h.moving.deed he hwrite, h.cycles, h.single⟩
  · rwa [hppu]
  · rwa [hppu]

/-- A transfer needs two frames' time at most. -/
theorem Blanking.ends {l : List Board} (h : Blanking b n l d) (hphase : Ppu.PhaseOK b.ppu)
    (hon : b.ppu.lcdOn = true) (hn : n ≤ 128) (hl : Ppu.dotsPerFrame ≤ l.length) :
    n ≤ blanksBegun l := by
  obtain ⟨c, hc, -, htally⟩ := h.time
  -- every bus cycle takes two dots or more, and two frames contain a whole one
  have hstart := OnTime.of_lit hphase hon
  have hlt : b.ppu.position < Ppu.dotsPerFrame := by
    rw [hstart.position]
    exact Nat.mod_lt _ (by decide)
  have hlater : 2 * Ppu.dotsPerFrame ≤ c := by omega
  have hge := hstart.tally_ge hlt hlater d.ppu
  omega

/-- Every tick takes a bus cycle or more. -/
theorem le_length_cyclesOf_ticks (b : Board) (ticks : Nat) :
    ticks ≤ (b.cyclesOf (List.replicate ticks .tick)).length := by
  induction ticks generalizing b with
  | zero => exact Nat.zero_le _
  | succ ticks ih =>
    have hrest := ih (Deed.perform b .tick)
    rw [List.replicate_succ, cyclesOf, cyclesIn, cycleStarts, List.length_append, List.length_cons]
    omega

/-- **What is started in the horizontal blanks goes on in them**, as long as nothing is written. -/
theorem blanking_after (hb : b.vramDma.Aligned) (hphase : Ppu.PhaseOK b.ppu)
    (hon : b.ppu.lcdOn = true) (hn : 1 ≤ n) (hs : b.AvoidsVram (16 * n)) {started : Board}
    (hstarted : started = { b with vramDma.blocks := n, vramDma.active := true })
    {deeds : List Deed} (hdeeds : ∀ addr v, .write addr v ∉ deeds) :
    Blanking b n (started.cyclesOf deeds) (started.after deeds) := by
  have hok (e : Deed) (he : e ∈ deeds) : ∀ addr v, e ≠ .write addr v := by
    rintro addr v rfl
    exact hdeeds addr v he
  have hstart := blanking_start hb hphase hon hn
  rw [← hstarted] at hstart
  exact after_along (P := Blanking b n) (fun _ _ h => h.release) (fun _ _ h => h.cycle hb hs)
    (fun _ _ _ hwrite he h => h.deed he hwrite) hok hstart

/-- **A transfer of `n` blocks in the horizontal blanks as the program sees it**, `l` being the boards
before each bus cycle since its start on `b`, `d` the board that the last of them and the operations
after it lead to, and `g` the one that all blocks at once leave. -/
structure Agrees (b g : Board) (n : Nat) (l : List Board) (d : Board) : Prop where
  /-- A block moves in each bus cycle in which a horizontal blank begins, and in no other. -/
  moves : ∀ j m, l[j]? = some m → Moving b n (min n (blanksBegun (l.take j))) m ∧
    Moving b n (min n (blanksBegun (l.take (j + 1)))) m.cycle.value
  /-- No two horizontal blanks begin in one bus cycle. -/
  single : ∀ m ∈ l, blanksBegun [m] ≤ 1
  /-- Until then the control port tells the blocks left. -/
  left : blanksBegun l < n → Moving b n (blanksBegun l) d ∧
    d.read 0xFF55 = (n - blanksBegun l - 1).toUInt8
  /-- After the last block nothing tells the two apart. -/
  done : n ≤ blanksBegun l → d.ppu.vram = g.ppu.vram ∧ d.vramDma.source = g.vramDma.source ∧
    d.vramDma.target = g.vramDma.target ∧ d.read 0xFF55 = g.read 0xFF55
  /-- There are enough horizontal blanks in two frames' time. -/
  ends : Ppu.dotsPerFrame ≤ l.length → n ≤ blanksBegun l

theorem Moving.same {g : Board} (h : Moving b n n d) (h' : Moving b n n g) (hc : b.model = .color)
    (hn : n ≤ 128) :
    d.ppu.vram = g.ppu.vram ∧ d.vramDma.source = g.vramDma.source ∧
      d.vramDma.target = g.vramDma.target ∧ d.read 0xFF55 = g.read 0xFF55 := by
  refine ⟨h.moved.vram.trans h'.moved.vram.symm, h.moved.source.trans h'.moved.source.symm, ?_, ?_⟩
  · rw [← UInt16.toNat_inj, h.moved.target, h'.moved.target]
  · rw [h.status hc hn, h'.status hc hn]

theorem Blanking.agrees {l : List Board} {g : Board} (h : Blanking b n l d) (h' : Moving b n n g)
    (hphase : Ppu.PhaseOK b.ppu) (hon : b.ppu.lcdOn = true) (hc : b.model = .color)
    (hn : n ≤ 128) : Agrees b g n l d where
  moves := h.cycles
  single := h.single
  left hl := by
    have hmoving := h.moving
    rw [Nat.min_eq_right (Nat.le_of_lt hl)] at hmoving
    have hstatus := hmoving.status hc hn
    rw [if_pos hl] at hstatus
    exact ⟨hmoving, hstatus⟩
  done hl := by
    have hmoving := h.moving
    rw [Nat.min_eq_left hl] at hmoving
    exact hmoving.same h' hc hn
  ends := h.ends hphase hon hn

/-- **The two transfers move the same.** All blocks at once leave the bytes found, ones for those from
`FE00` on, and the registers behind them. Blocks in the horizontal blanks, whatever the CPU does but
write, leave the same after as many of these as there are blocks; any two frames' time of ticks has as
many. -/
theorem transfers_agree (h : Reachable b) (hc : b.model = .color) (hidle : b.vramDma.active = false)
    (hn : 1 ≤ n) (hn' : n ≤ 128)
    (hsource : ∀ i < 16 * n, b.vramDma.source + i.toUInt16 < 0x8000 ∨
      0xA000 ≤ b.vramDma.source + i.toUInt16) :
    Transferred b n (b.write 0xFF55 (n - 1).toUInt8).value ∧
      (b.ppu.lcdOn = true →
        (∀ deeds : List Deed, (∀ addr v, .write addr v ∉ deeds) →
          Agrees b (b.write 0xFF55 (n - 1).toUInt8).value n
            ((b.write 0xFF55 (0x80 ||| (n - 1).toUInt8)).value.cyclesOf deeds)
            ((b.write 0xFF55 (0x80 ||| (n - 1).toUInt8)).value.after deeds)) ∧
        n ≤ blanksBegun ((b.write 0xFF55 (0x80 ||| (n - 1).toUInt8)).value.cyclesOf
          (List.replicate Ppu.dotsPerFrame .tick))) := by
  obtain ⟨hphase, hb⟩ := reachable_steady h
  have hs : b.AvoidsVram (16 * n) := fun i hi => region_ne_vram (hsource i hi)
  -- all blocks at once end where the other transfer does when its last block has been moved
  have hall : Moving b n n (b.write 0xFF55 (n - 1).toUInt8).value := by
    rw [write_control hc, control_general hidle hn hn']
    exact moveAll_moving hb hs
  refine ⟨hall.transferred hb hc hn', ?_⟩
  intro hon
  have hstarted : (b.write 0xFF55 (0x80 ||| (n - 1).toUInt8)).value =
      { b with vramDma.blocks := n, vramDma.active := true } := by
    rw [write_control hc, control_blanks hon hn hn']
  have hblanking {deeds : List Deed} (hdeeds : ∀ addr v, .write addr v ∉ deeds) :=
    blanking_after hb hphase hon hn hs hstarted hdeeds
  refine ⟨?_, ?_⟩
  · intro deeds hdeeds
    exact (hblanking hdeeds).agrees hall hphase hon hc hn'
  · have hticks : ∀ addr v, Deed.write addr v ∉ List.replicate Ppu.dotsPerFrame .tick := by
      simp
    exact (hblanking hticks).ends hphase hon hn' (le_length_cyclesOf_ticks _ _)

/-- As many blocks as there can be, from the start of the cartridge, as the boot image leaves the
board. -/
theorem transfers_agree_afterBoot :
    Reachable (afterBoot .color none).value ∧ (afterBoot .color none).value.model = .color ∧
      (afterBoot .color none).value.vramDma.active = false ∧
      (∀ i < 16 * 128, (afterBoot .color none).value.vramDma.source + i.toUInt16 < 0x8000 ∨
        0xA000 ≤ (afterBoot .color none).value.vramDma.source + i.toUInt16) ∧
      ((afterBoot .color none).value.write 0xFF55 0x7F).value.read 0xFF55 = 0xFF ∧
      128 ≤ blanksBegun (((afterBoot .color none).value.write 0xFF55 0xFF).value.cyclesOf
        (List.replicate Ppu.dotsPerFrame .tick)) := by
  have hreach : Reachable (afterBoot .color none).value := .afterBoot .color none
  have hzero : (afterBoot .color none).value.vramDma.source = 0 := rfl
  have hsource : ∀ i < 16 * 128,
      (afterBoot .color none).value.vramDma.source + i.toUInt16 < 0x8000 ∨
        0xA000 ≤ (afterBoot .color none).value.vramDma.source + i.toUInt16 := by
    intro i hi
    have hbyte : i.toUInt16.toNat < 0x8000 := by
      rw [Nat.toUInt16_eq, UInt16.toNat_ofNat']
      omega
    rw [hzero, UInt16.zero_add]
    exact .inl (UInt16.lt_iff_toNat_lt.2 hbyte)
  obtain ⟨hgeneral, hblanks⟩ := transfers_agree (n := 128) hreach rfl rfl (by decide) (by decide)
    hsource
  exact ⟨hreach, rfl, rfl, hsource, hgeneral.status, (hblanks rfl).2⟩

end Handheld.Board
