import Handheld.Cpu.FlatBus
import Handheld.Proofs.Cpu.Tracing
import Mathlib.Tactic.Common

/-!
# The instruction tables describe the executor

The tables of opcodes list a length and a cost for every byte; the executor spends its bus cycles
one by one, wherever it fetches, reads, writes or waits. On a bus that takes four dots for a cycle
the two agree.

* `decode_listed`, `decodeBit_listed`: the tables list what `busCycles` and `operandBytes` count.
* `execute_spends`, `execute_pc`: so does the executor.
* `step_cost` (every bus, every running CPU): cost and length of a step.
-/

namespace Handheld

namespace Instruction

def condition? : Instruction → Option Condition
  | jr cond | jp cond | call cond | ret cond => cond
  | _ => none

/-- The bytes after the opcode. -/
def operandBytes : Instruction → Nat
  | stop | ldImm _ | storeAHighImm | loadAHighImm | ldHLOffsetSP | addSPOffset | aluImm _ | jr _ => 1
  | ld16Imm _ | storeSPAbs | storeAAbs | loadAAbs | jp _ | call _ => 2
  | _ => 0

/-- True if the instruction continues elsewhere than at the next one. -/
def jumps (f : Flags) : Instruction → Bool
  | jr cond | jp cond | call cond | ret cond => Condition.allows f cond
  | jpHL | reti | rst _ => true
  | _ => false

theorem goesAhead_eq (f : Flags) (i : Instruction) :
    i.goesAhead f = Condition.allows f i.condition? := by
  cases i <;> rfl

end Instruction

/-- **A row of the base table**: its length and its two costs are those of the instruction. -/
def Descriptor.Listed (d : Descriptor Instruction) : Prop :=
  d.length = 1 + d.op.operandBytes ∧
    d.branchCycles = 4 * (1 + d.op.busCycles true) ∧
    d.cycles = if d.op.condition? = none then d.branchCycles else 4 * (1 + d.op.busCycles false)

instance (d : Descriptor Instruction) : Decidable d.Listed := by
  unfold Descriptor.Listed
  infer_instance

theorem decode_listed (byte : UInt8) : (decode byte).Listed :=
  forall_byte (P := fun b => (decode b).Listed) (by decide +kernel) byte

theorem decodeBit_listed (byte : UInt8) :
    (decodeBit byte).length = 2 ∧
      (decodeBit byte).cycles = 4 * (2 + (decodeBit byte).op.busCycles) :=
  forall_byte (P := fun b =>
    (decodeBit b).length = 2 ∧ (decodeBit b).cycles = 4 * (2 + (decodeBit b).op.busCycles))
    (by decide +kernel) byte

namespace Core

variable {β : Type} [Bus β]

/-- STOP does not tick; what it does to the bus besides reading its opcode are no transfers. -/
theorem stop_accesses (c : Core (Traced β)) :
    c.stop.dots = c.dots ∧ ∃ rest, c.stop.bus.accesses = c.bus.accesses ++ rest ∧
      ∀ a ∈ rest, a = .switchSpeed ∨ a = .clearDivider := by
  unfold stop
  simp only
  split
  · exact ⟨rfl, [.switchSpeed], rfl, by simp⟩
  · have ha (l : List Access) : l ++ [.switchSpeed] ++ [.clearDivider] =
        l ++ [.switchSpeed, .clearDivider] := by rw [List.append_assoc]; rfl
    split
    · exact ⟨rfl, [.switchSpeed, .clearDivider], ha _, by simp⟩
    · exact ⟨rfl, [.switchSpeed, .clearDivider], ha _, by simp⟩

theorem stop_spends (c : Core (Traced β)) : Spends 0 c c.stop := by
  obtain ⟨hd, rest, ha, hr⟩ := stop_accesses c
  refine ⟨?_, hd⟩
  have hn : rest.count .tick = 0 := by
    rw [List.count_eq_zero]
    intro hm
    rcases hr _ hm with h | h <;> cases h
  rw [ticks, ha, List.count_append, hn]
  rfl

theorem execute_spends (hbus : ∀ b : β, (Bus.tick b).value.1 = 4) (c : Core (Traced β))
    {i : Instruction} (hp : i ≠ .bitPage) :
    Spends (i.busCycles (i.goesAhead c.registers.flags)) c (c.execute i) := by
  cases i using Instruction.byMode with
  | plain i hi => exact (execute_work c hi hp).spends hbus
  | stop => exact stop_spends c
  | halt =>
    simp only [execute, halt]
    split <;> exact ⟨rfl, rfl⟩
  | di | ei | undefined => exact ⟨rfl, rfl⟩
  | reti => exact (Work.start c).returnFrom.spends hbus

theorem bitPage_spends (hbus : ∀ b : β, (Bus.tick b).value.1 = 4) (c : Core (Traced β)) :
    Spends (1 + (decodeBit c.fetch8.1).op.busCycles) c (c.execute .bitPage) :=
  (bitPage_work c).spends hbus

theorem fetched_spends (hbus : ∀ b : β, (Bus.tick b).value.1 = 4) (c : Core (Traced β)) :
    Spends 1 c c.fetched :=
  (fetchOpcode_work c).spends hbus

theorem store_pc (c : Core β) (o : Operand) (v : UInt8) :
    (c.store o v).registers.pc = c.registers.pc := by
  cases o with
  | reg r => cases r <;> rfl
  | atHL => rfl

theorem load_pc (c : Core β) (o : Operand) : (c.load o).2.registers.pc = c.registers.pc := by
  cases o <;> rfl

theorem update_pc (c : Core β) (o : Operand) (f : UInt8 → Flags → UInt8 × Flags) :
    (c.update o f).registers.pc = c.registers.pc :=
  (store_pc _ o _).trans (load_pc c o)

theorem executeBit_pc (c : Core β) (b : BitInstruction) :
    (c.executeBit b).registers.pc = c.registers.pc := by
  cases b with
  | shift op dst => exact update_pc c dst (Alu.shift op)
  | bit k src => exact load_pc c src
  | res k dst | set k dst => exact (store_pc _ dst _).trans (load_pc c dst)

theorem setPair_pc (r : Registers) (dst : StackPair) (w : UInt16) :
    (r.setPair dst w).pc = r.pc := by
  cases dst <;> rfl

theorem stop_pc (c : Core β) : c.stop.registers.pc = c.registers.pc + 1 := by
  obtain ⟨a, -, h⟩ := stop_cpu c
  rw [registers, h]
  rfl

theorem halt_pc (c : Core β) : c.halt.registers.pc = c.registers.pc := by
  rcases halt_cpu c with h | h <;> rw [registers, h] <;> rfl

/-- **An instruction that does not jump continues behind its operand bytes.** -/
theorem execute_pc (c : Core β) {i : Instruction} (hj : i.jumps c.registers.flags = false)
    (hp : i ≠ .bitPage) :
    (c.execute i).registers.pc = c.registers.pc + UInt16.ofNat i.operandBytes := by
  have hzero (r : Registers) : r.pc = r.pc + UInt16.ofNat 0 := by simp
  have htwo : c.registers.pc + 1 + 1 = c.registers.pc + UInt16.ofNat 2 := by
    rw [UInt16.add_assoc]
    rfl
  cases i with
  | bitPage => exact absurd rfl hp
  | jpHL | reti | rst _ => cases hj
  | stop => exact stop_pc c
  | halt => exact (halt_pc c).trans (hzero _)
  | ld dst src =>
    have hs := (store_pc (c.load src).2 dst (c.load src).1).trans (load_pc c src)
    exact hs.trans (hzero c.registers)
  | ldImm dst => exact store_pc c.fetch8.2 dst c.fetch8.1
  | ld16Imm dst => cases dst <;> exact htwo
  | storeA p | loadA p => cases p <;> exact hzero c.registers
  | storeSPAbs | storeAAbs | loadAAbs => exact htwo
  | storeAHighImm | loadAHighImm | ldHLOffsetSP | addSPOffset | aluImm _ => rfl
  | inc dst => exact (update_pc c dst Alu.inc).trans (hzero c.registers)
  | dec dst => exact (update_pc c dst Alu.dec).trans (hzero c.registers)
  | inc16 dst | dec16 dst => cases dst <;> exact hzero c.registers
  | pop dst => exact (setPair_pc c.pop.2.registers dst c.pop.1).trans (hzero c.registers)
  | alu op src => exact (load_pc c src).trans (hzero c.registers)
  | jr cond =>
    -- a taken branch jumps, so only those not taken are left
    have hn : Condition.allows c.registers.flags cond = false := hj
    simp only [execute_jr, hn, Bool.false_eq_true, if_false]
    rfl
  | jp cond =>
    have hn : Condition.allows c.registers.flags cond = false := hj
    simp only [execute_jp, hn, Bool.false_eq_true, if_false]
    exact htwo
  | call cond =>
    have hn : Condition.allows c.registers.flags cond = false := hj
    simp only [execute_call, hn, Bool.false_eq_true, if_false]
    exact htwo
  | ret cond =>
    cases cond with
    | none => cases hj
    | some k =>
      have hn : k.holds c.registers.flags = false := hj
      simp only [execute_ret, hn, Bool.false_eq_true, if_false]
      exact hzero c.registers
  | _ => exact hzero c.registers

/-- The byte behind the opcode, as the bus returns it in the next cycle. -/
def secondByte (c : Core β) : UInt8 := c.fetched.fetch8.1

/-- The clock cycles that the tables list for the next instruction. -/
def listedCycles (c : Core β) : Nat :=
  if c.decoded = .bitPage then (decodeBit c.secondByte).cycles
  else
    match c.decoded.condition? with
    | some k =>
      if k.holds c.registers.flags then (decode c.fetchOpcode.1).branchCycles
      else (decode c.fetchOpcode.1).cycles
    | none => (decode c.fetchOpcode.1).cycles

/-- The bytes that the tables list for the next instruction. -/
def listedLength (c : Core β) : Nat :=
  if c.decoded = .bitPage then (decodeBit c.secondByte).length else (decode c.fetchOpcode.1).length

theorem listedCycles_eq (c : Core β) :
    c.listedCycles = 4 * (1 + if c.decoded = .bitPage then
      1 + (decodeBit c.secondByte).op.busCycles
      else c.decoded.busCycles (c.decoded.goesAhead c.registers.flags)) := by
  unfold listedCycles
  split
  · rw [(decodeBit_listed _).2]
    omega
  · obtain ⟨-, hbranch, hcycles⟩ := decode_listed c.fetchOpcode.1
    have hop : (decode c.fetchOpcode.1).op = c.decoded := rfl
    rw [hop] at hbranch hcycles
    rw [Instruction.goesAhead_eq]
    cases hc : c.decoded.condition? with
    | none =>
      rw [if_pos hc] at hcycles
      exact hcycles.trans hbranch
    | some k =>
      rw [if_neg (by rw [hc]; exact Option.some_ne_none k)] at hcycles
      simp only [Condition.allows]
      cases k.holds c.registers.flags with
      | true => exact hbranch
      | false => exact hcycles

theorem fetched_advances {c : Core β} (hb : c.cpu.haltBug = false) :
    c.fetched.registers = { c.registers with pc := c.registers.pc + 1 } := by
  rw [fetched_registers, hb]
  rfl

theorem dispatch_spends (hbus : ∀ b : β, (Bus.tick b).value.1 = 4) (c : Core (Traced β)) :
    Spends 5 c c.dispatch := by
  obtain ⟨d, hd, hc⟩ := dispatch_work c
  have ha : Spends 0 d d.acknowledge.2 := by
    unfold acknowledge
    simp only
    split <;> exact ⟨rfl, rfl⟩
  exact ((hd.spends hbus).trans ha).trans (hc.spends hbus)

theorem service_spends (hbus : ∀ b : β, (Bus.tick b).value.1 = 4) (c : Core (Traced β)) :
    Spends (if c.interrupted then 5 else 0) c c.service := by
  split
  · rename_i h
    rw [service_of_interrupted h]
    exact dispatch_spends hbus (c.setActivity .running)
  · rename_i h
    rcases service_of_not_interrupted h with hs | ⟨hs, -⟩ <;> rw [hs] <;> exact ⟨rfl, rfl⟩

theorem runInstruction_spends (hbus : ∀ b : β, (Bus.tick b).value.1 = 4) {c : Core (Traced β)}
    (hb : c.cpu.haltBug = false) : Spends (c.listedCycles / 4) c c.runInstruction := by
  have hx : Spends (if c.decoded = .bitPage then 1 + (decodeBit c.secondByte).op.busCycles
      else c.decoded.busCycles (c.decoded.goesAhead c.registers.flags))
      c.fetched (c.fetched.execute c.decoded) := by
    split
    · rename_i hp
      rw [hp]
      exact bitPage_spends hbus c.fetched
    · rename_i hp
      have h := execute_spends hbus c.fetched hp
      rwa [fetched_advances hb] at h
  have hs := (fetched_spends hbus c).trans hx
  rw [listedCycles_eq, Nat.mul_div_cancel_left _ (by decide : 0 < 4), runInstruction_eq]
  by_cases hl : (c.fetched.execute c.decoded).cpu.activity = .locked
  · rw [if_pos hl]
    exact hs
  · rw [if_neg hl]
    exact hs

theorem untrace_listedCycles (c : Core (Traced β)) : c.untrace.listedCycles = c.listedCycles := by
  have hs : c.untrace.secondByte = c.secondByte := by
    rw [secondByte, secondByte, untrace_fetched, untrace_fetch8]
  rw [listedCycles, listedCycles, untrace_decoded, untrace_fetchOpcode, hs]
  rfl

theorem runInstruction_pc {c : Core β} (hb : c.cpu.haltBug = false)
    (hj : c.decoded.jumps c.registers.flags = false) :
    c.runInstruction.registers.pc = c.registers.pc + UInt16.ofNat c.listedLength := by
  have hr : c.runInstruction.registers = (c.fetched.execute c.decoded).registers := by
    rw [runInstruction_eq]
    split <;> rfl
  have hone (n : Nat) : c.registers.pc + 1 + UInt16.ofNat n =
      c.registers.pc + UInt16.ofNat (1 + n) := by
    rw [UInt16.add_assoc, UInt16.ofNat_add]
    rfl
  rw [hr]
  unfold listedLength
  split
  · rename_i hp
    rw [hp, (decodeBit_listed _).1]
    have hpc : (c.fetched.execute .bitPage).registers.pc = c.fetched.registers.pc + 1 :=
      executeBit_pc c.fetched.fetch8.2 _
    rw [hpc, fetched_advances hb]
    exact hone 1
  · rename_i hp
    have hf := fetched_advances hb
    rw [execute_pc c.fetched (by rw [hf]; exact hj) hp, hf, (decode_listed _).1]
    exact hone _

theorem fetched_accesses (c : Core (Traced β)) :
    c.fetched.bus.accesses =
      c.bus.accesses ++ [.read c.registers.pc c.fetchOpcode.1, .tick] := by
  have hf : c.fetched.bus = c.fetchOpcode.2.bus := rfl
  have happ (l : List Access) (a : Access) : l ++ [a] ++ [.tick] = l ++ [a, .tick] := by
    rw [List.append_assoc]
    rfl
  rw [hf, fetchOpcode]
  split <;> exact happ _ _

/-- **Cost and length of a step.** On a bus that takes four dots for each cycle, a running CPU spends
the cycles that the tables list, at the flags it finds, and five more if it enters a handler. The
trace that shows the cycles does not change the step. Unless the instruction jumps, the program
counter has moved by the listed length before a handler is entered; STOP moves past its second byte
without a transfer. -/
theorem step_cost (hbus : ∀ b : β, (Bus.tick b).value.1 = 4) (cpu : Cpu) (bus : β)
    (hrun : cpu.activity = .running) (hbug : cpu.haltBug = false) :
    let c : Core β := { cpu, bus }
    let start : Core (Traced β) := { cpu, bus := { bus } }
    start.step.untrace = cpu.step bus ∧
      start.step.ticks = c.listedCycles / 4 + (if c.act.interrupted then 5 else 0) ∧
      (cpu.step bus).dots = 4 * start.step.ticks ∧
      (c.decoded.jumps cpu.registers.flags = false →
        c.act.registers.pc = cpu.registers.pc + UInt16.ofNat c.listedLength) ∧
      (c.decoded = .stop → ∃ rest,
        start.act.bus.accesses = [.read cpu.registers.pc c.fetchOpcode.1, .tick] ++ rest ∧
          ∀ a ∈ rest, a = .switchSpeed ∨ a = .clearDivider) := by
  intro c start
  -- the trace is empty at the start, so what is counted in it is what the step spends
  have hc : start.untrace = c := rfl
  have hact : start.act = start.runInstruction := by
    simp only [act, start, hrun]
  have hactc : c.act = c.runInstruction := by
    simp only [act, c, hrun]
  have hint : start.act.interrupted = c.act.interrupted := by
    rw [← hc, ← untrace_act]
    rfl
  have hlisted : start.listedCycles = c.listedCycles := by rw [← hc, untrace_listedCycles]
  have hspent : Spends (c.listedCycles / 4 + if c.act.interrupted then 5 else 0) start start.step := by
    have h := runInstruction_spends hbus (c := start) hbug
    rw [← hact, hlisted] at h
    rw [← hint]
    exact h.trans (service_spends hbus start.act)
  have hstep : start.step.untrace = cpu.step bus := untrace_step start
  have hticks : start.step.ticks = c.listedCycles / 4 + if c.act.interrupted then 5 else 0 := by
    rw [hspent.1, show start.ticks = 0 from rfl, Nat.zero_add]
  refine ⟨hstep, hticks, ?_, ?_, ?_⟩
  · have hd : start.step.dots = 0 + 4 * _ := hspent.2
    rw [← hstep, hticks]
    exact hd.trans (Nat.zero_add _)
  · intro hj
    rw [hactc]
    exact runInstruction_pc (c := c) hbug hj
  · -- the second byte of STOP is skipped, so the trace shows the opcode only
    intro hs
    have hs' : start.decoded = .stop := by rw [← untrace_decoded, hc, hs]
    obtain ⟨-, rest, ha, hr⟩ := stop_accesses start.fetched
    refine ⟨rest, ?_, hr⟩
    have hb : start.runInstruction.bus = start.fetched.stop.bus := by
      rw [runInstruction_eq, hs']
      split <;> rfl
    have hbyte : start.fetchOpcode.1 = c.fetchOpcode.1 := by rw [← hc, untrace_fetchOpcode]
    rw [hact, hb, ha, fetched_accesses, hbyte]
    rfl

/-- A flat bus with JR NZ at the entry point, which finds Z set. -/
def branchNotTaken : FlatBus := ({} : FlatBus).poke 0x100 0x20

theorem cost_of_branchNotTaken :
    (∀ b : FlatBus, (Bus.tick b).value.1 = 4) ∧
      (Cpu.afterBoot .mono true).activity = .running ∧
      (Cpu.afterBoot .mono true).haltBug = false ∧
      ((Cpu.afterBoot .mono true).step branchNotTaken).dots = 4 * (8 / 4 + 0) ∧
      (act { cpu := Cpu.afterBoot .mono true, bus := branchNotTaken }).registers.pc =
        0x100 + UInt16.ofNat 2 := by
  have hlisted : listedCycles { cpu := Cpu.afterBoot .mono true, bus := branchNotTaken } = 8 ∧
      (act { cpu := Cpu.afterBoot .mono true, bus := branchNotTaken }).interrupted = false ∧
      listedLength { cpu := Cpu.afterBoot .mono true, bus := branchNotTaken } = 2 := by
    decide +kernel
  obtain ⟨-, hticks, hdots, hpc, -⟩ :=
    step_cost (fun _ => rfl) (Cpu.afterBoot .mono true) branchNotTaken rfl rfl
  rw [hlisted.1, hlisted.2.1] at hticks
  rw [hlisted.2.2] at hpc
  exact ⟨fun _ => rfl, rfl, rfl, hdots.trans (by rw [hticks]; rfl), hpc (by decide +kernel)⟩

end Core

end Handheld
