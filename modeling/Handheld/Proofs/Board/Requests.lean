import Handheld.Machine
import Handheld.Proofs.Board.Cycles

/-!
# No interrupt request is lost or invented

The components raise their requests in the middle of instructions and of the entry into a handler,
while the CPU reads, writes and acknowledges. Requests only ever join those that are there.

* `Board.raised`: the requests of a bus cycle; `raisedIn`: those of many.
* `tick_requesting`: whatever the interrupt registers hold, a tick does the same to everything else,
  and to the requests adds its own.
* `write_requests`: what a write does to the requests.
* `requests_accounted`: so the requests of every step are accounted for.
-/

namespace Handheld

theorem and_of_or (x y z : UInt8) : (x ||| y) &&& z = (x &&& z) ||| (y &&& z) := by
  rw [← UInt8.toBitVec_inj]
  ext i
  simp [Bool.and_or_distrib_right]

theorem or_bne_zero (x y : UInt8) : (x ||| y != 0) = (x != 0 || y != 0) := by
  rw [Bool.eq_iff_iff, Bool.or_eq_true, bne_iff_ne, bne_iff_ne, bne_iff_ne, ne_eq,
    UInt8.or_eq_zero_iff, Classical.not_and_iff_not_or_not]

namespace Interrupts

variable (i : Interrupts) (s t : Source)

/-- The same with more requests. -/
def adding (m : UInt8) : Interrupts := { i with requested := i.requested ||| m }

theorem adding_zero : i.adding 0 = i := by
  unfold adding
  rw [UInt8.or_zero]

theorem adding_adding (m n : UInt8) : (i.adding m).adding n = i.adding (m ||| n) := by
  unfold adding
  rw [UInt8.or_assoc]

theorem isRequested_adding (m : UInt8) :
    (i.adding m).isRequested s = (i.isRequested s || m &&& s.bit != 0) := by
  unfold adding isRequested
  rw [and_of_or, or_bne_zero]

theorem raiseIf_eq (asked : Bool) : i.raiseIf asked s = i.adding (bif asked then s.bit else 0) := by
  cases asked with
  | true => rfl
  | false => exact (adding_zero i).symm

/-- An acknowledgement takes back the request of its source only. -/
theorem isRequested_clear : (i.clear s).isRequested t = (i.isRequested t && s != t) := by
  have hbits : ~~~s.bit &&& t.bit = if s = t then 0 else t.bit := by
    cases s <;> cases t <;> decide
  unfold clear isRequested
  rw [UInt8.and_assoc, hbits]
  by_cases hs : s = t <;> simp [hs]

theorem isRequested_writeFlags (v : UInt8) :
    (i.writeFlags v).isRequested s = (v &&& s.bit != 0) := by
  have hbits : sourceMask &&& s.bit = s.bit := by
    cases s <;> decide
  unfold writeFlags isRequested
  rw [UInt8.and_assoc, hbits]

end Interrupts

/-- The bits of some sources. -/
def Source.mask (asks : Source → Bool) : UInt8 :=
  (Source.all.map fun s => bif asks s then s.bit else 0).foldr (· ||| ·) 0

theorem Source.mask_and (asks : Source → Bool) (s : Source) :
    (Source.mask asks &&& s.bit != 0) = asks s := by
  unfold mask all
  simp only [List.map_cons, List.map_nil]
  cases s <;>
  · generalize asks vblank = a, asks stat = b, asks timer = c, asks serial = d, asks joypad = e
    revert a b c d e
    decide

theorem Source.mask_sources (asks : Source → Bool) :
    Source.mask asks &&& Interrupts.sourceMask = Source.mask asks := by
  unfold mask all
  simp only [List.map_cons, List.map_nil]
  generalize asks vblank = a, asks stat = b, asks timer = c, asks serial = d, asks joypad = e
  revert a b c d e
  decide

namespace Board

variable {b d : Board} {l : List Board}

/-- What the components ask for in a bus cycle. -/
def asks (b : Board) : Source → Bool
  | .vblank => b.signals.vblank
  | .stat => b.signals.stat
  | .timer => (b.timer.step cpuCycles).2
  | .serial => (b.serial.step cpuCycles).2
  | .joypad => false

/-- The requests of a bus cycle. -/
def raised (b : Board) : UInt8 := Source.mask b.asks

/-- The requests of some bus cycles. -/
def raisedIn (l : List Board) : UInt8 := (l.map raised).foldr (· ||| ·) 0

theorem raisedIn_cons (d : Board) (l : List Board) :
    raisedIn (d :: l) = d.raised ||| raisedIn l :=
  rfl

theorem raisedIn_and (l : List Board) (s : Source) :
    (raisedIn l &&& s.bit != 0) = l.any fun d => d.asks s := by
  induction l with
  | nil => cases s <;> decide
  | cons d l ih =>
    rw [raisedIn_cons, and_of_or, or_bne_zero, ih, List.any_cons, raised, Source.mask_and]

/-- Nothing but requests of sources is raised. -/
theorem raisedIn_sources (l : List Board) : raisedIn l &&& Interrupts.sourceMask = raisedIn l := by
  induction l with
  | nil => decide
  | cons d l ih => rw [raisedIn_cons, and_of_or, ih, raised, Source.mask_sources]

/-- The same board with other interrupt registers. -/
def withInterrupts (b : Board) (interrupts : Interrupts) : Board := { b with interrupts }

theorem withInterrupts_dmaRead (b : Board) (i : Interrupts) (addr : UInt16) :
    (b.withInterrupts i).dmaRead addr = b.dmaRead addr := by
  have h : Elapses b (b.withInterrupts i) := ⟨_, _, _, _, _, _, _, rfl⟩
  exact h.dmaRead_eq fun _ => rfl

theorem withInterrupts_stepOamDma (b : Board) (i : Interrupts) :
    (b.withInterrupts i).stepOamDma = b.stepOamDma.withInterrupts i := by
  have hd : (b.withInterrupts i).oamDma = b.oamDma := rfl
  unfold stepOamDma
  rw [hd]
  cases b.oamDma with
  | none => rfl
  | some e =>
    obtain ⟨source, index, delay⟩ := e
    cases delay with
    | zero =>
      simp only [copyOamByte, withInterrupts_dmaRead]
      rfl
    | succ n => rfl

theorem withInterrupts_copyVramBytes (n : Nat) (b : Board) (i : Interrupts) :
    copyVramBytes n (b.withInterrupts i) = (copyVramBytes n b).withInterrupts i := by
  induction n generalizing b with
  | zero => rfl
  | succ n ih =>
    have hbyte : (b.withInterrupts i).copyVramByte = b.copyVramByte.withInterrupts i := by
      have hs : (b.withInterrupts i).vramDma = b.vramDma := rfl
      simp only [copyVramByte, hs, withInterrupts_dmaRead]
      rfl
    rw [copyVramBytes, copyVramBytes, hbyte, ih]

theorem withInterrupts_addStall (b : Board) (i : Interrupts) :
    { b.withInterrupts i with
      stall := (b.withInterrupts i).stall + (b.withInterrupts i).blockCost } =
      { b with stall := b.stall + b.blockCost }.withInterrupts i :=
  rfl

theorem withInterrupts_blockDone (b : Board) (i : Interrupts) :
    { b.withInterrupts i with vramDma := (b.withInterrupts i).vramDma.blockDone } =
      { b with vramDma := b.vramDma.blockDone }.withInterrupts i :=
  rfl

theorem withInterrupts_moveBlock (b : Board) (i : Interrupts) :
    (b.withInterrupts i).moveBlock = b.moveBlock.withInterrupts i := by
  have hblock : (b.withInterrupts i).copyBlock = b.copyBlock.withInterrupts i := by
    rw [copyBlock_eq, copyBlock_eq, withInterrupts_copyVramBytes, withInterrupts_addStall]
  rw [moveBlock_eq, moveBlock_eq, hblock, withInterrupts_blockDone]

theorem withInterrupts_enterHBlank (b : Board) (i : Interrupts) :
    (b.withInterrupts i).enterHBlank = b.enterHBlank.withInterrupts i := by
  have ha : (b.withInterrupts i).vramDma = b.vramDma := rfl
  unfold enterHBlank
  rw [ha]
  split
  · exact withInterrupts_moveBlock b i
  · rfl

theorem withInterrupts_runDisplay (b : Board) (i : Interrupts) :
    (b.withInterrupts i).runDisplay =
      (·.withInterrupts ((i.raiseIf (b.ppu.step b.cycleDots).value.2.vblank .vblank).raiseIf
        (b.ppu.step b.cycleDots).value.2.stat .stat)) <$> b.runDisplay := by
  have hdots : (b.withInterrupts i).ppu.step (b.withInterrupts i).cycleDots =
      b.ppu.step b.cycleDots := rfl
  have hdisplay (ppu : Ppu) (s : Ppu.Signals) : (b.withInterrupts i).withDisplay ppu s =
      (b.withDisplay ppu s).withInterrupts ((i.raiseIf s.vblank .vblank).raiseIf s.stat .stat) := rfl
  refine Logged.ext ?_ ?_
  · simp only [runDisplay, hdots, hdisplay, Logged.value_bind, Logged.value_pure, Logged.value_map]
    split
    · rw [withInterrupts_enterHBlank]
    · rfl
  · simp only [runDisplay, hdots, Logged.events_bind, Logged.events_map, Logged.events_pure]

theorem withInterrupts_beforeDisplay (b : Board) (i : Interrupts) :
    (b.withInterrupts i).beforeDisplay = b.beforeDisplay.withInterrupts
      ((i.raiseIf (b.asks .timer) .timer).raiseIf (b.asks .serial) .serial) := by
  have hclocks : (b.withInterrupts i).runTimer.runSerial = b.runTimer.runSerial.withInterrupts
      ((i.raiseIf (b.asks .timer) .timer).raiseIf (b.asks .serial) .serial) := rfl
  rw [beforeDisplay, hclocks, withInterrupts_stepOamDma, beforeDisplay]

/-- The components raise their requests one after the other, which comes to the same as at once. -/
theorem raiseIf_asks (b : Board) (i : Interrupts) :
    (((i.raiseIf (b.asks .timer) .timer).raiseIf (b.asks .serial) .serial).raiseIf
      (b.asks .vblank) .vblank).raiseIf (b.asks .stat) .stat = i.adding b.raised := by
  have hjoypad : b.asks .joypad = false := rfl
  simp only [Interrupts.raiseIf_eq, Interrupts.adding_adding, raised, Source.mask, Source.all,
    List.map_cons, List.map_nil, List.foldr_cons, List.foldr_nil, hjoypad, cond_false,
    UInt8.or_zero]
  refine congrArg i.adding ?_
  ac_rfl

/-- **A bus cycle does the same whatever the interrupt registers hold**, and to the requests it adds
its own. -/
theorem withInterrupts_cycle (b : Board) (i : Interrupts) :
    (b.withInterrupts i).cycle = (·.withInterrupts (i.adding b.raised)) <$> b.cycle := by
  have hcycle (d : Board) : d.cycle = d.beforeDisplay.runDisplay := rfl
  rw [hcycle, withInterrupts_beforeDisplay, withInterrupts_runDisplay, beforeDisplay_cycleDots,
    ← raiseIf_asks]
  rfl

theorem withInterrupts_interrupts (b : Board) : b.withInterrupts b.interrupts = b := rfl

def Progress.withInterrupts (p : Progress) (i : Interrupts) : Progress :=
  { p with board := p.board.withInterrupts i }

theorem withInterrupts_progress (p : Progress) (i : Interrupts) :
    (p.withInterrupts i).cycle = p.cycle.withInterrupts (i.adding p.board.raised) := by
  have hdots : (p.board.withInterrupts i).cycleDots = p.board.cycleDots := rfl
  simp only [Progress.withInterrupts, Progress.cycle, withInterrupts_cycle, hdots,
    Logged.value_map, Logged.events_map]

theorem withInterrupts_drain (p : Progress) (i : Interrupts) :
    drain (p.withInterrupts i) =
      (drain p).withInterrupts (i.adding (raisedIn (heldStarts p.board))) := by
  induction p using drain.induct generalizing i with
  | case1 p hstall =>
    have hfree : (p.withInterrupts i).board.stall = 0 := hstall
    have hnone : i.adding (raisedIn []) = i := i.adding_zero
    rw [drain_free hfree, drain_free hstall, heldStarts_free hstall, hnone]
  | case2 p hstall ih =>
    have hheld : (p.withInterrupts i).board.stall ≠ 0 := hstall
    have hcycle := withInterrupts_progress { p with board := p.board.release } i
    have hrest := ih (i.adding p.board.release.raised)
    rw [Interrupts.adding_adding, ← hcycle] at hrest
    rw [drain_held hheld, drain_held hstall, heldStarts_held hstall, raisedIn_cons]
    exact hrest

/-- **A tick does the same whatever the interrupt registers hold**, and to the requests it adds its
own. -/
theorem withInterrupts_tick (b : Board) (i : Interrupts) :
    tick (b.withInterrupts i) =
      (fun r => (r.1, r.2.withInterrupts (i.adding (raisedIn b.cycleStarts)))) <$> tick b := by
  -- the bus cycle that the tick is for, then those for which the CPU is held
  have hcycle : Progress.cycle ⟨b.withInterrupts i, 0, []⟩ =
      (Progress.cycle ⟨b, 0, []⟩).withInterrupts (i.adding b.raised) :=
    withInterrupts_progress ⟨b, 0, []⟩ i
  have hdrain := withInterrupts_drain (Progress.cycle ⟨b, 0, []⟩) (i.adding b.raised)
  rw [Interrupts.adding_adding, ← hcycle] at hdrain
  unfold tick
  rw [hdrain]
  rfl

/-- **The requests after a tick** are those before it and those that its bus cycles raised. -/
theorem tick_interrupts (b : Board) :
    (tick b).value.2.interrupts = b.interrupts.adding (raisedIn b.cycleStarts) := by
  have h := withInterrupts_tick b b.interrupts
  rw [withInterrupts_interrupts] at h
  exact congrArg (·.value.2.interrupts) h

/-- **What an access does to the requests**: nothing, or what a write to IF, P1 or the timer does. -/
inductive WriteRequests (b : Board) (addr : UInt16) (v : UInt8) (i : Interrupts) : Prop where
  | same (h : i.requested = b.interrupts.requested)
  | flags (ha : addr = 0xFF0F) (h : i = b.interrupts.writeFlags v)
  | joypad (ha : addr = 0xFF00) (h : i = b.interrupts.raiseIf (b.joypad.write v).2 .joypad)
  | timer (h : i = b.interrupts.raiseIf (b.timer.write addr v).2 .timer)

theorem writePort_requests (b : Board) (addr : UInt16) (v : UInt8) :
    WriteRequests b addr v (b.writePort addr v).value.interrupts := by
  unfold writePort
  cases hp : Port.of b.model addr with
  | vramDma =>
    obtain ⟨_, _, _, hf⟩ := writeVramDma_fills b addr v
    simp only [hf]
    exact .same rfl
  | outputMode =>
    simp only [writeOutputMode]
    split <;> exact .same rfl
  | interruptFlags => exact .flags (port_address.2.1 hp) rfl
  | joypad => exact .joypad (port_address.1 hp) rfl
  | timer => exact .timer rfl
  | _ => exact .same rfl

theorem write_requests (b : Board) (addr : UInt16) (v : UInt8) :
    WriteRequests b addr v (b.write addr v).value.interrupts := by
  unfold write
  cases Region.of addr with
  | port => exact writePort_requests b addr v
  | oam =>
    simp only [writeOam]
    split <;> exact .same rfl
  | _ => exact .same rfl

/-- **The component of a source raises its request** in an operation. -/
def Raises (d : Board) (e : Deed) : Source → Prop
  | .vblank => e = .tick ∧ ∃ m ∈ d.cycleStarts, m.signals.vblank = true
  | .stat => e = .tick ∧ ∃ m ∈ d.cycleStarts, m.signals.stat = true
  | .timer =>
    (e = .tick ∧ ∃ m ∈ d.cycleStarts, (m.timer.step cpuCycles).2 = true) ∨
      (∃ addr v, e = .write addr v ∧ (d.timer.write addr v).2 = true) ∨
      (e = .clearDivider ∨ e = .switchSpeed) ∧ d.timer.clearDivider.2 = true
  | .serial => e = .tick ∧ ∃ m ∈ d.cycleStarts, (m.serial.step cpuCycles).2 = true
  | .joypad => ∃ v, e = .write 0xFF00 v ∧ (d.joypad.write v).2 = true

/-- The CPU writes IF with the bit of the source as given. -/
def WritesFlag (e : Deed) (s : Source) (set : Bool) : Prop :=
  ∃ v, e = .write 0xFF0F v ∧ (v &&& s.bit != 0) = set

theorem isRequested_raiseIf (i : Interrupts) (asked : Bool) (s t : Source) :
    (i.raiseIf asked s).isRequested t = (i.isRequested t || asked && s == t) := by
  have hbits : (s.bit &&& t.bit != 0) = (s == t) := by
    cases s <;> cases t <;> decide
  rw [Interrupts.raiseIf_eq, Interrupts.isRequested_adding]
  cases asked with
  | true => rw [cond_true, hbits, Bool.true_and]
  | false => simp

theorem isRequested_congr {i j : Interrupts} (h : i.requested = j.requested) (s : Source) :
    i.isRequested s = j.isRequested s := by
  unfold Interrupts.isRequested
  rw [h]

/-- A new request is the one that was asked for. -/
theorem asked_of_raiseIf {i : Interrupts} {asked : Bool} {s t : Source}
    (hi : i.isRequested s = false) (h : (i.raiseIf asked t).isRequested s = true) :
    asked = true ∧ t = s := by
  rw [isRequested_raiseIf, hi, Bool.false_or, Bool.and_eq_true, beq_iff_eq] at h
  exact h

theorem switchSpeed_interrupts (d : Board) :
    d.switchSpeed.value.2.interrupts = d.interrupts ∨
      d.switchSpeed.value.2.interrupts = d.interrupts.raiseIf d.timer.clearDivider.2 .timer := by
  unfold switchSpeed
  split
  · exact .inr rfl
  · exact .inl rfl

theorem tick_raises {s : Source} (hd : d.interrupts.isRequested s = false)
    (h : (tick d).value.2.interrupts.isRequested s = true) : Raises d .tick s := by
  rw [tick_interrupts, Interrupts.isRequested_adding, hd, Bool.false_or, raisedIn_and,
    List.any_eq_true] at h
  obtain ⟨m, hm, hasks⟩ := h
  cases s with
  | vblank | stat | serial => exact ⟨rfl, m, hm, hasks⟩
  | timer => exact .inl ⟨rfl, m, hm, hasks⟩
  | joypad => cases hasks

theorem write_raises {addr : UInt16} {v : UInt8} {s : Source}
    (hd : d.interrupts.isRequested s = false)
    (h : (d.write addr v).value.interrupts.isRequested s = true) :
    Raises d (.write addr v) s ∨ WritesFlag (.write addr v) s true := by
  cases write_requests d addr v with
  | same hi =>
    rw [isRequested_congr hi, hd] at h
    cases h
  | flags ha hi =>
    subst ha
    rw [hi, Interrupts.isRequested_writeFlags] at h
    exact .inr ⟨v, rfl, h⟩
  | joypad ha hi =>
    subst ha
    rw [hi] at h
    obtain ⟨hasked, rfl⟩ := asked_of_raiseIf hd h
    exact .inl ⟨v, rfl, hasked⟩
  | timer hi =>
    rw [hi] at h
    obtain ⟨hasked, rfl⟩ := asked_of_raiseIf hd h
    exact .inl (.inr (.inl ⟨addr, v, rfl, hasked⟩))

/-- **A request that is new after an operation** was raised by its component or written. -/
theorem request_raised {e : Deed} {s : Source} (hd : d.interrupts.isRequested s = false)
    (h : (e.perform d).interrupts.isRequested s = true)
    (hack : ∀ i, e = .setInterrupts i → ∃ t, i = d.interrupts.clear t) :
    Raises d e s ∨ WritesFlag e s true := by
  cases e with
  | read addr => exact absurd (hd.symm.trans h) (by decide)
  | write addr v => exact write_raises hd h
  | tick => exact .inl (tick_raises hd h)
  | setInterrupts i =>
    obtain ⟨t, rfl⟩ := hack i rfl
    have hclear : (d.interrupts.clear t).isRequested s = true := h
    rw [Interrupts.isRequested_clear, hd] at hclear
    cases hclear
  | clearDivider =>
    obtain ⟨hasked, rfl⟩ := asked_of_raiseIf hd h
    exact .inl (.inr (.inr ⟨.inl rfl, hasked⟩))
  | switchSpeed =>
    rcases switchSpeed_interrupts d with hi | hi
    · have hsame := congrArg (·.isRequested s) hi
      exact absurd (hd.symm.trans (hsame.symm.trans h)) (by decide)
    · have hraise := congrArg (·.isRequested s) hi
      obtain ⟨hasked, rfl⟩ := asked_of_raiseIf hd (hraise.symm.trans h)
      exact .inl (.inr (.inr ⟨.inr rfl, hasked⟩))

/-- Raising a request takes none back. -/
theorem isRequested_of_raiseIf {i : Interrupts} {s : Source} (hi : i.isRequested s = true)
    (asked : Bool) (t : Source) : (i.raiseIf asked t).isRequested s = true := by
  rw [isRequested_raiseIf, hi, Bool.true_or]

/-- **A request that is gone after an operation** was acknowledged or overwritten. -/
theorem request_lost {e : Deed} {s : Source} (hd : d.interrupts.isRequested s = true)
    (h : (e.perform d).interrupts.isRequested s = false) :
    e.acknowledges = true ∨ WritesFlag e s false := by
  -- what only raises requests loses none
  have hkeeps {asked : Bool} {t : Source} {i : Interrupts}
      (hi : i = d.interrupts.raiseIf asked t) (hl : i.isRequested s = false) : False := by
    rw [hi, isRequested_of_raiseIf hd] at hl
    cases hl
  cases e with
  | read addr => exact absurd (hd.symm.trans h) (by decide)
  | setInterrupts i => exact .inl rfl
  | tick =>
    have hi : ((tick d).value.2.interrupts).isRequested s = false := h
    rw [tick_interrupts, Interrupts.isRequested_adding, hd, Bool.true_or] at hi
    cases hi
  | clearDivider => exact (hkeeps rfl h).elim
  | switchSpeed =>
    rcases switchSpeed_interrupts d with hi | hi
    · have hsame := congrArg (·.isRequested s) hi
      exact absurd (hd.symm.trans (hsame.symm.trans h)) (by decide)
    · exact (hkeeps hi h).elim
  | write addr v =>
    cases write_requests d addr v with
    | same hi =>
      have hsame := isRequested_congr hi s
      exact absurd (hd.symm.trans (hsame.symm.trans h)) (by decide)
    | flags ha hi =>
      subst ha
      have hflags := congrArg (·.isRequested s) hi
      have hbit := d.interrupts.isRequested_writeFlags s v
      exact .inr ⟨v, rfl, hbit.symm.trans (hflags.symm.trans h)⟩
    | joypad _ hi => exact (hkeeps hi h).elim
    | timer hi => exact (hkeeps hi h).elim

end Board

end Handheld
