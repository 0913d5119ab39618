import Handheld.Proofs.Board.Ticking
import Handheld.Proofs.Machine.Frame
import Handheld.Proofs.Machine.Interrupts
import Handheld.Proofs.Timer.Reloads

/-!
# Every reload brings the modulo

On its own the timer can reload what the modulo was before a write. On the board it cannot: the CPU
ends each access with a bus cycle of four cycles, and whatever clears the divider leaves it at a
multiple of four.

* `Board.moments`: what an operation of the CPU is to the timer; `perform_timer`.
* `Board.Current`: an operation along which every reload brings the modulo of its moment.
* `tick_current`, `write_current`, `quiet_current`: the operations, one by one.
* `current_kept`: every bus cycle of an instruction is current and leaves the timer at rest.
* `reloads_current`: so is all that a loaded machine ever does.
-/

namespace Handheld

open Timer (Moment Poised Calm)

namespace Board

variable {b d : Board} {l : List Board}

/-- What an operation is to the timer. A write to another address is nothing to it. -/
def moments (b : Board) : Deed → List Moment
  | .tick => .replicate (4 * b.cycleStarts.length) .cycle
  | .write addr v => [.write addr v]
  | .clearDivider => [.clearDivider]
  | .switchSpeed => if b.model.isColor && b.speedArmed then [.clearDivider] else []
  | .read _ | .setInterrupts _ => []

theorem cycle_timer (d : Board) :
    d.cycle.value.timer = (List.replicate 4 Moment.cycle).foldl Timer.after d.timer :=
  d.cycle_clocked.timer.trans (Timer.run_eq 4 d.timer false)

/-- Only the four ports of the timer reach it. -/
theorem timer_unreached {addr : UInt16} (v : UInt8)
    (h : Region.of addr = .port → Port.of b.model addr ≠ .timer) :
    b.timer.after (.write addr v) = b.timer := by
  apply Timer.write_other <;> rintro rfl <;> exact h rfl rfl

theorem write_timer (b : Board) (addr : UInt16) (v : UInt8) :
    (b.write addr v).value.timer = b.timer.after (.write addr v) := by
  unfold write
  cases hr : Region.of addr with
  | port =>
    show (b.writePort addr v).value.timer = _
    unfold writePort
    cases hp : Port.of b.model addr with
    | timer => rfl
    | vramDma =>
      obtain ⟨_, _, _, hf⟩ := writeVramDma_fills b addr v
      rw [timer_unreached v (by simp [hp])]
      simp only [hf]
    | outputMode =>
      rw [timer_unreached v (by simp [hp])]
      simp only [writeOutputMode]
      split <;> rfl
    | _ =>
      rw [timer_unreached v (by simp [hp])]
      rfl
  | oam =>
    rw [timer_unreached v (by simp [hr])]
    simp only [writeOam]
    split <;> rfl
  | _ =>
    rw [timer_unreached v (by simp [hr])]
    rfl

/-- **The bus cycles of a tick so far**: `d` is the board after those that began on the boards of `l`.
Each began with a timer in order, and after the last the timer is at rest. -/
structure Grouped (b : Board) (l : List Board) (d : Board) : Prop where
  timer : d.timer = (List.replicate (4 * l.length) Moment.cycle).foldl Timer.after b.timer
  latest : b.timer.Latest (.replicate (4 * l.length) .cycle)
  starts : ∀ x ∈ l, x.timer.Tuned
  poised : Poised d.timer
  calm : l ≠ [] → Calm d.timer

theorem Grouped.cycle (h : Grouped b l d) : Grouped b (l ++ [d]) d.cycle.value := by
  obtain ⟨hlatest, hcalm⟩ := Timer.group_calm h.poised
  have hcount : List.replicate (4 * (l ++ [d]).length) Moment.cycle =
      .replicate (4 * l.length) .cycle ++ .replicate 4 .cycle := by
    rw [List.replicate_append_replicate, List.length_append, List.length_singleton, Nat.mul_succ]
  rw [h.timer] at hlatest
  rw [← cycle_timer] at hcalm
  refine ⟨?_, ?_, ?_, hcalm.poised, fun _ => hcalm⟩
  · rw [cycle_timer, hcount, List.foldl_append, ← h.timer]
  · rw [hcount]
    exact h.latest.append hlatest
  · intro x hx
    rcases List.mem_append.1 hx with hx | hx
    · exact h.starts x hx
    · rw [List.mem_singleton.1 hx]
      exact h.poised.tuned

theorem tick_grouped (h : Poised b.timer) : Grouped b b.cycleStarts (tick b).value.2 := by
  have hstart : Grouped b [] b :=
    ⟨rfl, h.steady.bringsModulo, List.forall_mem_nil _, h, fun hne => absurd rfl hne⟩
  have hrelease (l : List Board) (d : Board) (hd : Grouped b l d) : Grouped b l d.release :=
    ⟨hd.timer, hd.latest, hd.starts, hd.poised, hd.calm⟩
  exact tick_along hrelease (fun _ _ => Grouped.cycle) hstart

/-- A tick depends on its first bus cycle only. -/
theorem tick_of_cycle (h : d.cycle = b.cycle) (hdots : d.cycleDots = b.cycleDots) :
    tick d = tick b := by
  have hfirst : Progress.cycle ⟨d, 0, []⟩ = Progress.cycle ⟨b, 0, []⟩ := by
    simp only [Progress.cycle, h, hdots]
  unfold tick
  rw [hfirst]

/-- The first bus cycle does not look at what the modulo was before a write. -/
theorem tick_unlatched (h : Poised b.timer) : tick { b with timer.tmaBefore := none } = tick b := by
  have hrun : runTimer { b with timer.tmaBefore := none } = b.runTimer := by
    show withTimer _ (Timer.step { b.timer with tmaBefore := none } cpuCycles) = _
    rw [show cpuCycles = 4 from rfl, Timer.step_unlatched h]
    rfl
  have hcycle : cycle { b with timer.tmaBefore := none } = b.cycle :=
    congrArg (fun d => d.runSerial.stepOamDma.runDisplay) hrun
  exact tick_of_cycle hcycle rfl

/-- What an operation does to the timer is what its moments do. -/
theorem perform_timer (h : Poised b.timer) (e : Deed) :
    (e.perform b).timer = (b.moments e).foldl Timer.after b.timer := by
  cases e with
  | tick => exact (tick_grouped h).timer
  | write addr v => exact write_timer b addr v
  | clearDivider | read | setInterrupts => rfl
  | switchSpeed =>
    show b.switchSpeed.value.2.timer = _
    unfold switchSpeed moments
    simp only
    split <;> rfl

/-- **An operation along which every reload brings the modulo of its moment.** -/
structure Current (b : Board) (e : Deed) : Prop where
  before : b.timer.Tuned
  after : (e.perform b).timer.Tuned
  /-- Each bus cycle of the operation begins with a timer in order. -/
  starts : ∀ d ∈ b.cyclesIn e, d.timer.Tuned
  moments : (e.perform b).timer = (b.moments e).foldl Timer.after b.timer
  latest : b.timer.Latest (b.moments e)
  /-- What the modulo was before a write has no effect. -/
  unlatched : e.perform { b with timer.tmaBefore := none } = e.perform b

/-- **A tick** may follow directly on a write to the modulo. -/
theorem tick_current (h : Poised b.timer) :
    Current b .tick ∧ Calm (tick b).value.2.timer := by
  have hg := tick_grouped h
  have hcalm := hg.calm (by simp [cycleStarts])
  refine ⟨⟨h.tuned, hcalm.poised.tuned, hg.starts, hg.timer, hg.latest, ?_⟩, hcalm⟩
  show (tick _).value.2 = (tick b).value.2
  rw [tick_unlatched h]

/-- An operation other than a tick, when the timer is at rest. -/
theorem current_of_calm {e : Deed} (h : Calm b.timer) (he : b.cyclesIn e = [])
    (hafter : (e.perform b).timer.Tuned) (hlatest : b.timer.Latest (b.moments e)) :
    Current b e := by
  have hstarts : ∀ d ∈ b.cyclesIn e, d.timer.Tuned := by
    rw [he]
    exact List.forall_mem_nil _
  refine ⟨h.poised.tuned, hafter, hstarts, perform_timer h.poised e, hlatest, ?_⟩
  have hsame : ({ b with timer.tmaBefore := none } : Board) = b := by
    rw [← h.latch]
  rw [hsame]

/-- **A write** leaves a timer that is ready for the tick that follows. -/
theorem write_current (h : Calm b.timer) (addr : UInt16) (v : UInt8) :
    Current b (.write addr v) ∧ Poised (b.write addr v).value.timer := by
  obtain ⟨hlatest, hpoised⟩ := Timer.access_poised h (m := .write addr v) Moment.noConfusion
  rw [← write_timer] at hpoised
  exact ⟨current_of_calm h rfl hpoised.tuned hlatest, hpoised⟩

/-- **Every operation but ticks and writes** leaves the timer at rest. -/
theorem quiet_current {e : Deed} (h : Calm b.timer) (ht : e ≠ .tick)
    (hw : ∀ addr v, e ≠ .write addr v) : Current b e ∧ Calm (e.perform b).timer := by
  have hclear := Timer.clear_calm h (m := .clearDivider) rfl rfl
  suffices hcalm : b.timer.Latest (b.moments e) ∧ Calm (e.perform b).timer from
    have he : b.cyclesIn e = [] := by
      cases e <;> first | rfl | exact absurd rfl ht
    ⟨current_of_calm h he hcalm.2.poised.tuned hcalm.1, hcalm.2⟩
  cases e with
  | tick => exact absurd rfl ht
  | write addr v => exact absurd rfl (hw addr v)
  | read | setInterrupts => exact ⟨h.bringsModulo, h⟩
  | clearDivider => exact hclear
  | switchSpeed =>
    rw [perform_timer h.poised]
    unfold moments
    simp only
    split
    · exact hclear
    · exact ⟨h.bringsModulo, h⟩

end Board

namespace Core

/-- **The timer is at rest**, and all that is remembered was current. -/
structure Rested (c : Core (History Board)) : Prop where
  calm : Calm c.bus.bus.timer
  past : ∀ x ∈ c.bus.past, Board.Current x.1 x.2

theorem past_snoc {h : History Board} {e : Deed} {bus : Board}
    (hpast : ∀ x ∈ h.past, Board.Current x.1 x.2) (he : Board.Current h.bus e) :
    ∀ x ∈ (h.after e bus).past, Board.Current x.1 x.2 := by
  intro x hx
  rcases List.mem_append.1 hx with hx | hx
  · exact hpast x hx
  · rw [List.mem_singleton.1 hx]
    exact he

/-- **Every bus cycle of an instruction is current**, and leaves the timer at rest. -/
theorem rested_kept : KeptByCycles Rested where
  withCpu h _ := ⟨h.calm, h.past⟩
  instruction h _ _ _ _ := ⟨h.calm, h.past⟩
  locked h _ _ := ⟨h.calm, h.past⟩
  tick h := by
    obtain ⟨htick, hcalm⟩ := Board.tick_current h.calm.poised
    exact ⟨hcalm, past_snoc h.past htick⟩
  read {c} h addr := by
    obtain ⟨hread, -⟩ := Board.quiet_current h.calm (e := .read addr) nofun nofun
    obtain ⟨htick, hcalm⟩ := Board.tick_current h.calm.poised
    exact ⟨hcalm, past_snoc (past_snoc h.past hread) htick⟩
  write {c} h addr v := by
    -- after the write the timer is ready for a tick only, and one follows at once
    obtain ⟨hwrite, hpoised⟩ := Board.write_current h.calm addr v
    obtain ⟨htick, hcalm⟩ := Board.tick_current hpoised
    exact ⟨hcalm, past_snoc (past_snoc h.past hwrite) htick⟩
  switchSpeed h := by
    obtain ⟨hswitch, hcalm⟩ := Board.quiet_current h.calm (e := .switchSpeed) nofun nofun
    exact ⟨hcalm, past_snoc h.past hswitch⟩
  clearDivider h := by
    obtain ⟨hclear, hcalm⟩ := Board.quiet_current h.calm (e := .clearDivider) nofun nofun
    exact ⟨hcalm, past_snoc h.past hclear⟩

theorem step_current {c : Core Board} (h : Calm c.bus.timer) :
    Calm c.step.bus.timer ∧ ∀ x ∈ c.deeds, Board.Current x.1 x.2 := by
  have hbus : c.step.bus = c.remembering.step.bus.bus :=
    congrArg Core.bus (remembering_step c).symm
  have hrested : Rested c.remembering.step := by
    have hstart : Rested c.remembering := ⟨h, List.forall_mem_nil _⟩
    rcases waits_or_acts c.remembering with ⟨ha, hb⟩ | hacts
    · rw [step_stopped ha hb]
      exact ⟨h, List.forall_mem_nil _⟩
    · refine step_keeps_of_cycles rested_kept (fun {d} hd s => ?_) hstart hacts
      obtain ⟨hack, hcalm⟩ := Board.quiet_current hd.calm
        (e := .setInterrupts ((Bus.interrupts d.bus.bus).clear s)) nofun nofun
      exact ⟨hcalm, past_snoc hd.past hack⟩
  rw [hbus]
  exact ⟨hrested.calm, hrested.past⟩

end Core

namespace Machine

variable {m m₀ : Machine} {boot : Option ByteArray} {image : ByteArray}

theorem step_current (h : Calm m.board.timer) :
    Calm m.step.value.2.board.timer ∧ ∀ x ∈ m.deeds, Board.Current x.1 x.2 := by
  unfold deeds
  split
  · rename_i hl
    rw [step_loaded hl]
    exact Core.step_current (c := { cpu := m.cpu, bus := m.board }) h
  · rename_i hl
    rw [step_unloaded (eq_false_of_ne_true hl)]
    exact ⟨h, List.forall_mem_nil _⟩

theorem startWith_calm (model : Model) (c : Cartridge) (boot : Option ByteArray) :
    Calm (startWith model c boot).board.timer := by
  cases boot with
  | none => exact Timer.afterBoot_calm
  | some bootImage => exact Timer.powerOn_calm

theorem use_calm (h : Calm m.board.timer) (u : Use) : Calm (m.use u).board.timer :=
  use_keeps (P := fun n => Calm n.board.timer) (fun _ hn => (step_current hn).1)
    (fun _ _ _ hn => hn) (fun _ _ hn => hn)
    (fun _ => reset_keeps (P := fun n => Calm n.board.timer) fun model c =>
      startWith_calm model c none) h u

/-- **A machine on which every reload brings the modulo of its moment**, now and throughout the next
step. A frame is no more than some steps. -/
structure Punctual (m : Machine) : Prop where
  tuned : m.board.timer.Tuned
  /-- What the next step does, in order. -/
  leads : Deed.Leads m.board m.deeds m.step.value.2.board
  current : ∀ x ∈ m.deeds, Board.Current x.1 x.2
  frame : ∃ k, m.runFrame.value = m.stepped k

/-- **Every reload brings the modulo of its moment.** Whatever is done with a loaded machine, between
bus cycles the divider is a multiple of four and a pending reload holds the modulo. Along every
operation of every step a reload that lands leaves the modulo in TIMA, and what the modulo was before
a write has no effect. -/
theorem reloads_current (h : (m₀.load boot image).value = (.ok (), m)) (uses : List Use) :
    (uses.foldl use m).Punctual := by
  have hstart : Calm m.board.timer := by
    rcases load_cases m₀ boot image with ⟨e, he⟩ | ⟨r, -, hr⟩
    · rw [he] at h
      cases congrArg Prod.fst h
    · rw [hr] at h
      have hm : startWith m₀.model r.value boot = m := congrArg Prod.snd h
      rw [← hm]
      exact startWith_calm ..
  have hcalm : Calm (uses.foldl use m).board.timer :=
    List.foldlRecOn (motive := fun n => Calm n.board.timer) uses use hstart
      fun _ hn u _ => use_calm hn u
  exact ⟨hcalm.poised.tuned, leads_step _, (step_current hcalm).2, runFrame_stepped _⟩

/-- A program that lets TIMA overflow in the very bus cycle in which it writes `42` to TMA:
`LD B,42`, `LD HL,FF06`, `LD A,05`, `LDH (07),A`, `LD A,FF`, `LDH (05),A`, `LD (HL),B`. -/
def overflowImage : ByteArray :=
  let program := #[0x06, 0x42, 0x21, 0x06, 0xFF, 0x3E, 0x05, 0xE0, 0x07, 0x3E, 0xFF, 0xE0, 0x05, 0x70]
  ⟨Array.replicate 0x100 0 ++ program ++ Array.replicate 0x42 0⟩

def overflowMachine : Machine := ((powerOn .mono).load none overflowImage).value.2

/-- The reload that the overflow has armed holds the 42, and the next step brings it. -/
theorem reloads_current_overflow :
    ((powerOn .mono).load none overflowImage).value = (.ok (), overflowMachine) ∧
      ((List.replicate 7 (.call .step)).foldl use overflowMachine).Punctual ∧
      ((List.replicate 7 (.call .step)).foldl use overflowMachine).board.timer.reload =
        some ⟨0x42, 3⟩ ∧
      ((List.replicate 8 (.call .step)).foldl use overflowMachine).board.timer.tima = 0x42 := by
  have hload : ((powerOn .mono).load none overflowImage).value = (.ok (), overflowMachine) :=
    load_of_isOk (by decide +kernel)
  exact ⟨hload, reloads_current hload _, by decide +kernel⟩

end Machine

end Handheld
