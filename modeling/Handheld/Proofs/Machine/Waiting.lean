import Handheld.Proofs.Board.Reachable
import Handheld.Proofs.Cpu.Masking
import Handheld.Proofs.Machine.Interrupts
import Handheld.Proofs.Machine.Reset

/-!
# A CPU that waits

A CPU that hangs or waits for an interrupt lets time pass, one bus cycle a step; one that waits for a
button does not even that. Buttons and requests from outside may come in between. Each of the three has
its own way to end.

* `OneCycle`, `Rests`: the steps of a CPU that waits.
* `Resumes`, `Wakes`: the first step after a button or a request.
* `Happening`, `AtSteps`: what comes between the steps, and what holds before each of them.
* `waiting_effects`: what any number of steps do while the CPU waits, and how it ends.
-/

namespace Handheld

namespace Core

variable {β : Type} [Bus β] {c : Core β}

theorem act_tick (h : c.cpu.activity = .halted ∨ c.cpu.activity = .locked) : c.act = c.tick := by
  unfold act
  rcases h with h | h
  · simp only [h]
  · simp only [h]

/-- A CPU that hangs is out of the reach of interrupts. -/
theorem step_hung (h : c.cpu.activity = .locked) : c.step = c.tick := by
  have hsame : c.tick.cpu.activity = .locked := h
  rw [step, act_tick (.inr h), service]
  simp only [hsame]

/-- A CPU in HALT looks for requests after its bus cycle. -/
theorem step_halted (h : c.cpu.activity = .halted) :
    c.step =
      if (Bus.interrupts c.tick.bus).pending = 0 then c.tick
      else if c.cpu.ime then (c.tick.setActivity .running).dispatch
      else c.tick.setActivity .running := by
  have hsame : c.tick.cpu.activity = .halted := h
  rw [step, act_tick (.inl h), service]
  simp only [hsame]
  rfl

theorem deeds_hung (h : c.cpu.activity = .locked) : c.deeds = [(c.bus, .tick)] := by
  rw [deeds, step_hung (c := c.remembering) h]
  rfl

/-- In HALT only the entry into a handler uses the bus for more than a bus cycle. -/
theorem deeds_halted (h : c.cpu.activity = .halted)
    (hcalm : (Bus.interrupts c.tick.bus).pending = 0 ∨ c.cpu.ime = false) :
    c.deeds = [(c.bus, .tick)] := by
  have hstep := step_halted (c := c.remembering) h
  by_cases hp : (Bus.interrupts c.remembering.tick.bus).pending = 0
  · rw [if_pos hp] at hstep
    rw [deeds, hstep]
    rfl
  · -- what the bus shows is the same while it remembers
    have hoff : ¬ c.remembering.cpu.ime = true := Bool.eq_false_iff.1 (hcalm.resolve_left hp)
    rw [if_neg hp, if_neg hoff] at hstep
    rw [deeds, hstep]
    rfl

theorem deeds_stopped (h : c.cpu.activity = .stopped) (hb : Bus.buttonHeld c.bus = false) :
    c.deeds = [] := by
  rw [deeds, step_stopped (c := c.remembering) h hb]
  rfl

end Core

namespace Machine

variable {m : Machine}

/-- One bus cycle passes. -/
def ticked (m : Machine) : Logged (Nat × Machine) :=
  (fun r => (r.1, { m with board := r.2, cycles := m.cycles + r.1 })) <$> Board.tick m.board

/-- **The step is one bus cycle** without an access, and leaves the CPU alone. -/
structure OneCycle (m : Machine) : Prop where
  deeds : m.deeds = [(m.board, .tick)]
  step : m.step = m.ticked

/-- **The step counts four dots**: nothing reaches the bus, and nothing else changes. -/
structure Rests (m : Machine) : Prop where
  deeds : m.deeds = []
  step : m.step = pure (4, { m with cycles := m.cycles + 4 })

/-- **The step executes the instruction at the program counter**, as that of a running CPU does. -/
structure Resumes (m : Machine) : Prop where
  instruction : m.cpu.instruction? m.board = some (decode (m.board.read m.cpu.registers.pc)).op
  step : m.step = { m with cpu.activity := .running }.step

/-- The CPU as it leaves HALT, after the bus cycle of its last step there. -/
def woken (m : Machine) : Core Board :=
  Core.tick { cpu := { m.cpu with activity := .running }, bus := m.board }

/-- **The step leaves HALT**: after one bus cycle the CPU runs, and enters a handler if interrupts are
enabled. -/
structure Wakes (m : Machine) : Prop where
  running : m.step.value.2.cpu.activity = .running
  enters : m.cpu.entersHandler m.board = m.cpu.ime
  masked : m.cpu.ime = false →
    m.deeds = [(m.board, .tick)] ∧ m.step = { m with cpu.activity := .running }.ticked
  served : m.cpu.ime = true → m.cpu.step m.board = m.woken.dispatch

/-- What is enabled and pending when a bus cycle has passed. -/
def pendingAfterTick (m : Machine) : UInt8 := (Board.tick m.board).value.2.interrupts.pending

/-- The CPU of a machine at the start of a step. -/
def core (m : Machine) : Core Board := { cpu := m.cpu, bus := m.board }

theorem deeds_eq (h : m.isLoaded = true) : m.deeds = m.core.deeds := if_pos h

/-- A step that is one bus cycle of some CPU. -/
theorem step_eq_ticked {cpu : Cpu} (h : m.isLoaded = true)
    (hs : m.cpu.step m.board = Core.tick { cpu, bus := m.board }) :
    m.step = { m with cpu }.ticked := by
  rw [step_eq h, hs]
  simp only [Core.tick, Logged.join_eq, List.nil_append, Nat.zero_add]
  rfl

theorem locked_oneCycle (h : m.isLoaded = true) (ha : m.cpu.activity = .locked) : OneCycle m := by
  have hs : m.cpu.step m.board = m.core.tick := Core.step_hung (c := m.core) ha
  refine ⟨?_, step_eq_ticked h hs⟩
  rw [deeds_eq h]
  exact Core.deeds_hung ha

theorem halted_step (ha : m.cpu.activity = .halted) :
    m.cpu.step m.board =
      if m.pendingAfterTick = 0 then m.core.tick
      else if m.cpu.ime then m.woken.dispatch
      else m.woken :=
  Core.step_halted (c := m.core) ha

theorem halted_oneCycle (h : m.isLoaded = true) (ha : m.cpu.activity = .halted)
    (hp : m.pendingAfterTick = 0) : OneCycle m := by
  have hs := halted_step ha
  rw [if_pos hp] at hs
  refine ⟨?_, step_eq_ticked h hs⟩
  rw [deeds_eq h]
  exact Core.deeds_halted ha (.inl hp)

/-- A CPU that finds a request in HALT enters a handler if it accepts interrupts. -/
theorem woken_enters (ha : m.cpu.activity = .halted) (hp : m.pendingAfterTick ≠ 0) :
    m.cpu.entersHandler m.board = m.cpu.ime := by
  have hact : m.core.act = m.core.tick := Core.act_tick (.inl ha)
  have hwaits : m.core.tick.cpu.activity = .halted := ha
  have hpending : ((Bus.interrupts m.core.tick.bus).pending != 0) = true := bne_iff_ne.2 hp
  show m.core.act.interrupted = m.cpu.ime
  rw [hact, Core.interrupted, hwaits, hpending]
  simp only [beq_self_eq_true, Bool.or_true, Bool.true_and]
  rfl

theorem halted_wakes (h : m.isLoaded = true) (ha : m.cpu.activity = .halted)
    (hp : m.pendingAfterTick ≠ 0) : Wakes m := by
  have hs := halted_step ha
  rw [if_neg hp] at hs
  refine ⟨?_, woken_enters ha hp, ?_, ?_⟩
  · rw [step_eq h, hs]
    show (if m.cpu.ime then m.woken.dispatch else m.woken).cpu.activity = .running
    split
    · obtain ⟨r, hr⟩ := Core.dispatch_cpu m.woken
      rw [hr]
      rfl
    · rfl
  · intro hime
    rw [if_neg (Bool.eq_false_iff.1 hime)] at hs
    refine ⟨?_, step_eq_ticked h hs⟩
    rw [deeds_eq h]
    exact Core.deeds_halted ha (.inr hime)
  · intro hime
    rw [if_pos hime] at hs
    exact hs

theorem stopped_rests (h : m.isLoaded = true) (ha : m.cpu.activity = .stopped)
    (hb : m.board.joypad.anyLineLow = false) : Rests m := by
  have hs : m.cpu.step m.board = { m.core with dots := Core.idleDots } :=
    Core.step_stopped (c := m.core) ha hb
  refine ⟨?_, ?_⟩
  · rw [deeds_eq h]
    exact Core.deeds_stopped ha hb
  · rw [step_eq h, hs]
    rfl

theorem stopped_resumes (h : m.isLoaded = true) (ha : m.cpu.activity = .stopped)
    (hb : m.board.joypad.anyLineLow = true) : Resumes m := by
  have hready : m.core.ready = true := by
    have hheld : Bus.buttonHeld m.core.bus = true := hb
    have hwaits : m.core.cpu.activity = .stopped := ha
    simp [Core.ready, hheld, hwaits]
  refine ⟨?_, ?_⟩
  · show m.core.instruction? = _
    rw [Core.instruction?, if_pos hready, Core.decoded, Core.fetchOpcode_byte]
    rfl
  · -- once it runs, the same instruction follows as for a CPU that ran before
    have hstep : m.cpu.step m.board = ({ m.cpu with activity := .running } : Cpu).step m.board := by
      show m.core.act.service = (m.core.setActivity .running).act.service
      rw [Core.act_of_ready hready]
      rfl
    have hrun : ({ m with cpu.activity := .running } : Machine).isLoaded = true := h
    rw [step_eq h, step_eq hrun, hstep]

/-- What can happen to a machine: a step, a button, or any operation from outside on its board. -/
inductive Happening where
  | step
  | setButton (button : Button) (pressed : Bool)
  | access (e : Deed)

def Happening.isStep : Happening → Bool
  | .step => true
  | _ => false

def happen (m : Machine) : Happening → Machine
  | .step => m.step.value.2
  | .setButton button pressed => m.setButton button pressed
  | .access e => { m with board := e.perform m.board }

/-- The machine after all that has happened, in order. -/
def afterwards (m : Machine) (l : List Happening) : Machine := l.foldl happen m

/-- **A condition that holds before each of the steps**, whatever happens between them. -/
def AtSteps (P : Machine → Prop) (m : Machine) : List Happening → Prop
  | [] => True
  | op :: l => (op.isStep = true → P m) ∧ AtSteps P (m.happen op) l

variable {P : Machine → Prop} {l : List Happening} {op : Happening}

theorem atSteps_of_forall (h : ∀ m, P m) (m : Machine) (l : List Happening) : AtSteps P m l := by
  induction l generalizing m with
  | nil => trivial
  | cons op l ih => exact ⟨fun _ => h m, ih _⟩

/-- Between steps nothing reaches the CPU. -/
theorem happen_other (h : op.isStep = false) (m : Machine) (cycles : Nat) :
    (m.happen op).cpu = m.cpu ∧ (m.happen op).cycles = m.cycles ∧
      { m with cycles }.happen op = { m.happen op with cycles } := by
  cases op with
  | step => cases h
  | setButton | access => exact ⟨rfl, rfl, rfl⟩

theorem happen_isLoaded (m : Machine) (op : Happening) : (m.happen op).isLoaded = m.isLoaded := by
  cases op with
  | step => exact step_isLoaded m
  | setButton button pressed => rfl
  | access e =>
    have hplate := congrArg (fun p => p.2.isSome) (Board.perform_plate m.board e)
    rwa [Board.plate_isSome, Board.plate_isSome] at hplate

theorem OneCycle.cpu (h : OneCycle m) : m.step.value.2.cpu = m.cpu := by
  rw [h.step]
  rfl

/-- **A CPU that every step leaves alone is left alone**, as long as the condition for that holds. -/
theorem afterwards_cpu {cpu : Cpu}
    (hstep : ∀ n : Machine, n.isLoaded = true → n.cpu = cpu → P n → OneCycle n)
    (h : m.isLoaded = true) (hcpu : m.cpu = cpu) (hl : AtSteps P m l) :
    (m.afterwards l).isLoaded = true ∧ (m.afterwards l).cpu = cpu := by
  induction l generalizing m with
  | nil => exact ⟨h, hcpu⟩
  | cons op l ih =>
    obtain ⟨hop, hrest⟩ := hl
    refine ih ((happen_isLoaded m op).trans h) ?_ hrest
    cases hs : op.isStep with
    | true =>
      have hstepped : (m.happen op).cpu = m.step.value.2.cpu := by
        cases op with
        | step => rfl
        | setButton | access => cases hs
      exact hstepped.trans ((hstep m h hcpu (hop hs)).cpu.trans hcpu)
    | false => exact (happen_other hs m 0).1.trans hcpu

/-- The happenings other than steps. -/
def others (l : List Happening) : List Happening := l.filter fun op => !op.isStep

/-- The number of steps. -/
def steps (l : List Happening) : Nat := l.countP Happening.isStep

/-- What happens without a step does not depend on the time. -/
theorem others_cycles (m : Machine) (l : List Happening) (cycles : Nat) :
    { m with cycles }.afterwards (others l) = { m.afterwards (others l) with cycles } := by
  induction l generalizing m with
  | nil => rfl
  | cons op l ih =>
    cases op with
    | step => exact ih m
    | setButton button pressed => exact ih (m.setButton button pressed)
    | access e => exact ih { m with board := e.perform m.board }

/-- **Steps that rest leave nothing but their time.** -/
theorem afterwards_rests (h : m.isLoaded = true) (ha : m.cpu.activity = .stopped)
    (hl : AtSteps (fun n => n.board.joypad.anyLineLow = false) m l) :
    (m.afterwards l).isLoaded = true ∧ (m.afterwards l).cpu = m.cpu ∧
      m.afterwards l = { m.afterwards (others l) with cycles := m.cycles + 4 * steps l } := by
  induction l generalizing m with
  | nil => exact ⟨h, rfl, rfl⟩
  | cons op l ih =>
    obtain ⟨hop, hrest⟩ := hl
    have hloaded := (happen_isLoaded m op).trans h
    cases op with
    | step =>
      have hstep : m.happen .step = { m with cycles := m.cycles + 4 } := by
        show m.step.value.2 = _
        rw [(stopped_rests h ha (hop rfl)).step]
        rfl
      have hcount : steps (.step :: l) = steps l + 1 := List.countP_cons_of_pos rfl
      have htime : m.cycles + 4 + 4 * steps l = m.cycles + 4 * steps (.step :: l) := by
        rw [hcount]
        omega
      rw [hstep] at hrest hloaded
      obtain ⟨hlater, hcpu, hsame⟩ := ih hloaded ha hrest
      have hfirst : m.afterwards (.step :: l) = (m.happen .step).afterwards l := rfl
      rw [hfirst, hstep]
      refine ⟨hlater, hcpu, ?_⟩
      rw [hsame, others_cycles]
      exact congrArg (fun cycles => { m.afterwards (others l) with cycles }) htime
    | setButton | access => exact ih hloaded ha hrest

/-- A machine that is loaded or reset runs. -/
theorem load_running (m : Machine) (boot : Option ByteArray) (image : ByteArray) :
    (m.load boot image).value.2.cpu.activity = .running := by
  rcases load_cases m boot image with ⟨e, he⟩ | ⟨r, -, hr⟩
  · rw [he]
    rfl
  · rw [hr]
    cases boot <;> rfl

theorem reset_running (h : m.isLoaded = true) : m.reset.value.cpu.activity = .running := by
  obtain ⟨c, hc⟩ := Option.isSome_iff_exists.1 h
  rw [reset_eq hc]
  rfl

/-- **A CPU that waits does nothing but wait.** After anything that has happened to a loaded machine:
* a CPU that hangs is as it was, and the next step is one bus cycle; only a reset or a load ends this;
* a CPU that waits for a button has added four dots for each step to what has happened otherwise, as
  long as no selected line was low before a step; the next step does the same, unless one is low now:
  then it executes the instruction at the program counter;
* a CPU in HALT is as it was, as long as nothing was pending after the bus cycle of a step; the next
  step is such a bus cycle again, unless something is pending after it: then the CPU runs, and enters a
  handler exactly if interrupts are enabled. -/
theorem waiting_effects (h : m.isLoaded = true) (l : List Happening) :
    (m.cpu.activity = .locked →
      (m.afterwards l).cpu = m.cpu ∧ OneCycle (m.afterwards l) ∧
      (m.afterwards l).reset.value.cpu.activity = .running ∧
      ∀ boot image, ((m.afterwards l).load boot image).value.2.cpu.activity = .running) ∧
    (m.cpu.activity = .stopped → AtSteps (fun n => n.board.joypad.anyLineLow = false) m l →
      m.afterwards l = { m.afterwards (others l) with cycles := m.cycles + 4 * steps l } ∧
      (m.afterwards l).cpu = m.cpu ∧
      ((m.afterwards l).board.joypad.anyLineLow = false → Rests (m.afterwards l)) ∧
      ((m.afterwards l).board.joypad.anyLineLow = true → Resumes (m.afterwards l))) ∧
    (m.cpu.activity = .halted → AtSteps (fun n => n.pendingAfterTick = 0) m l →
      (m.afterwards l).cpu = m.cpu ∧
      ((m.afterwards l).pendingAfterTick = 0 → OneCycle (m.afterwards l)) ∧
      ((m.afterwards l).pendingAfterTick ≠ 0 → Wakes (m.afterwards l))) := by
  refine ⟨?_, ?_, ?_⟩
  · intro ha
    have hcycle (n : Machine) (hn : n.isLoaded = true) (hcpu : n.cpu = m.cpu) : OneCycle n :=
      locked_oneCycle hn ((congrArg Cpu.activity hcpu).trans ha)
    -- a locked CPU waits for nothing, so nothing is asked of the states in between
    have halways := atSteps_of_forall (P := fun _ => True) (fun _ => trivial) m l
    obtain ⟨hl, hcpu⟩ := afterwards_cpu (fun n hn hc _ => hcycle n hn hc) h rfl halways
    exact ⟨hcpu, hcycle _ hl hcpu, reset_running hl, load_running _⟩
  · intro ha hlines
    obtain ⟨hl, hcpu, hsame⟩ := afterwards_rests h ha hlines
    have hstill : (m.afterwards l).cpu.activity = .stopped :=
      (congrArg Cpu.activity hcpu).trans ha
    exact ⟨hsame, hcpu, stopped_rests hl hstill, stopped_resumes hl hstill⟩
  · intro ha hquiet
    have hcycle (n : Machine) (hn : n.isLoaded = true) (hcpu : n.cpu = m.cpu)
        (hp : n.pendingAfterTick = 0) : OneCycle n :=
      halted_oneCycle hn ((congrArg Cpu.activity hcpu).trans ha) hp
    obtain ⟨hl, hcpu⟩ := afterwards_cpu hcycle h rfl hquiet
    have hstill : (m.afterwards l).cpu.activity = .halted := (congrArg Cpu.activity hcpu).trans ha
    exact ⟨hcpu, hcycle _ hl hcpu, halted_wakes hl hstill⟩

/-- A cartridge that begins with an opcode, after one step of it. -/
def firstStep (opcode : UInt8) : Machine :=
  ((powerOn .mono).load none
    ⟨(Array.replicate 0x150 0).setIfInBounds 0x100 opcode⟩).value.2.step.value.2

/-- STOP, HALT and an undefined opcode: a button lets the program go on, a request wakes the CPU, and
neither reaches one that hangs. -/
theorem waiting_effects_each :
    Resumes ((firstStep 0x10).afterwards [.step, .setButton .a true]) ∧
      Wakes ((firstStep 0x76).afterwards [.step, .access (.write 0xFFFF 1)]) ∧
      OneCycle ((firstStep 0xD3).afterwards [.setButton .a true, .step]) := by
  refine ⟨?_, ?_, ?_⟩
  · have hloaded : (firstStep 0x10).isLoaded = true := by decide +kernel
    have hwaits := (waiting_effects hloaded [.step, .setButton .a true]).2.1 (by decide +kernel)
      ⟨fun _ => by decide +kernel, ⟨nofun, trivial⟩⟩
    exact hwaits.2.2.2 (by decide +kernel)
  · have hloaded : (firstStep 0x76).isLoaded = true := by decide +kernel
    have hwaits := (waiting_effects hloaded [.step, .access (.write 0xFFFF 1)]).2.2
      (by decide +kernel) ⟨fun _ => by decide +kernel, ⟨nofun, trivial⟩⟩
    exact hwaits.2.2 (by decide +kernel)
  · have hloaded : (firstStep 0xD3).isLoaded = true := by decide +kernel
    exact ((waiting_effects hloaded [.setButton .a true, .step]).1 (by decide +kernel)).2.1

end Machine

end Handheld
