import Handheld.Cpu.Step

/-!
# What a step consists of

Between the moments at which the CPU changes its own mode, everything it does is register updates
and bus cycles. `Core.Work` says so and counts the cycles; what holds of register updates and of
bus cycles then holds of instructions and of the entry into a handler.

* `execute_work`, `executeBit_work`, `bitPage_work`: the work of each instruction.
* `dispatch_work`: five bus cycles into a handler, with the acknowledgement after the third.
* `runInstruction_mask`, `runInstruction_activity`: the mode after an instruction, from the
  instruction alone.
* `act_of_ready`, `service_of_interrupted`: the two halves of a step.
* `act_mask`, `act_activity`, `service_cpu`: the mode after each half.
-/

namespace Handheld

/-- The bus cycles that reading or writing an operand takes. -/
def Operand.accesses : Operand → Nat
  | reg _ => 0
  | atHL => 1

namespace Instruction

/-- Instructions that leave the mode of the CPU alone. -/
def plain : Instruction → Bool
  | stop | halt | di | ei | reti | undefined => false
  | _ => true

/-- Cases for what an instruction does to the mode: nothing, or what one of six instructions does. -/
@[elab_as_elim]
theorem byMode {motive : Instruction → Prop} (i : Instruction)
    (plain : ∀ i : Instruction, i.plain → motive i) (stop : motive .stop) (halt : motive .halt)
    (di : motive .di) (ei : motive .ei) (reti : motive .reti) (undefined : motive .undefined) :
    motive i := by
  by_cases hi : i.plain
  · exact plain i hi
  · cases i <;> first | assumption | exact absurd rfl hi

/-- True unless the instruction has a condition that does not hold. -/
def goesAhead (f : Flags) : Instruction → Bool
  | jr cond | jp cond | call cond | ret cond => Condition.allows f cond
  | _ => true

/-- The interrupt master enable after the instruction and the EI that is due at its end. -/
def imeAfter (ime : Bool) (delay : Nat) : Instruction → Bool
  | di => false
  | reti => true
  | undefined => ime
  | _ => ime || delay == 1

/-- The delay of EI after the instruction. -/
def eiDelayAfter (delay : Nat) : Instruction → Nat
  | di => 0
  | ei => 1
  | undefined => delay
  | _ => delay - 1

/-- **What a running CPU may be doing after the instruction.** Only an undefined opcode hangs it, only
STOP makes it wait for a button and only HALT for an interrupt. -/
inductive LeavesIn : Instruction → Cpu.Activity → Prop where
  | running {i : Instruction} (h : i ≠ undefined) : LeavesIn i .running
  | halted : LeavesIn halt .halted
  | stopped : LeavesIn stop .stopped
  | locked : LeavesIn undefined .locked

theorem LeavesIn.locked_iff {i : Instruction} {a : Cpu.Activity} (h : i.LeavesIn a) :
    a = .locked ↔ i = undefined := by
  cases h with
  | running hi => simp [hi]
  | halted | stopped | locked => simp

theorem LeavesIn.stopped_iff {i : Instruction} {a : Cpu.Activity} (h : i.LeavesIn a) :
    a = .stopped → i = stop := by
  cases h with
  | running | halted | stopped | locked => simp

theorem LeavesIn.waiting {i : Instruction} {a : Cpu.Activity} (h : i.LeavesIn a)
    (hw : a = .halted ∨ a = .stopped) : i = halt ∨ i = stop := by
  cases h with
  | running | locked => simp at hw
  | halted => exact .inl rfl
  | stopped => exact .inr rfl

/-- The bus cycles after the one that reads the opcode; the byte `CB` counts as an instruction of
its own here. -/
def busCycles (ahead : Bool) : Instruction → Nat
  | ld dst src => src.accesses + dst.accesses
  | ldImm dst => 1 + dst.accesses
  | inc dst | dec dst => 2 * dst.accesses
  | alu _ src => src.accesses
  | storeA _ | loadA _ | storeAHighC | loadAHighC | ldSPHL | inc16 _ | dec16 _ | addHL _ => 1
  | aluImm _ => 1
  | ld16Imm _ | storeAHighImm | loadAHighImm | ldHLOffsetSP | pop _ => 2
  | storeAAbs | loadAAbs | addSPOffset | reti | rst _ | push _ => 3
  | storeSPAbs => 4
  | jr _ => bif ahead then 2 else 1
  | jp _ => bif ahead then 3 else 2
  | call _ => bif ahead then 5 else 2
  | ret none => 3
  | ret (some _) => bif ahead then 4 else 1
  | nop | stop | halt | di | ei | rotateA _ | daa | cpl | scf | ccf | jpHL | bitPage | undefined => 0

end Instruction

/-- The bus cycles after the one that reads the second byte. -/
def BitInstruction.busCycles : BitInstruction → Nat
  | bit _ src => src.accesses
  | shift _ dst | res _ dst | set _ dst => 2 * dst.accesses

namespace Core

variable {β : Type} [Bus β] {c d : Core β} {n : Nat}

/-- **Register updates and bus cycles**: `Work n c d` if they lead from `c` to `d`, in `n` cycles. -/
inductive Work : Nat → Core β → Core β → Prop where
  | start (c : Core β) : Work 0 c c
  | modify {n : Nat} {c d : Core β} (h : Work n c d) (f : Registers → Registers) :
      Work n c (d.modify f)
  | tick {n : Nat} {c d : Core β} (h : Work n c d) : Work (n + 1) c d.tick
  | read {n : Nat} {c d : Core β} (h : Work n c d) (addr : UInt16) :
      Work (n + 1) c (d.read addr).2
  | write {n : Nat} {c d : Core β} (h : Work n c d) (addr : UInt16) (v : UInt8) :
      Work (n + 1) c (d.write addr v)

namespace Work

theorem of_eq {m : Nat} (h : Work m c d) (he : m = n) : Work n c d := he ▸ h

theorem trans {m : Nat} {e : Core β} (h : Work m c d) (h' : Work n d e) : Work (m + n) c e := by
  induction h' with
  | start _ => exact h
  | modify _ f ih => exact (ih h).modify f
  | tick _ ih => exact (ih h).tick
  | read _ addr ih => exact (ih h).read addr
  | write _ addr v ih => exact (ih h).write addr v

/-- Work changes nothing of the CPU but its registers. -/
theorem cpu (h : Work n c d) : ∃ r, d.cpu = { c.cpu with registers := r } := by
  induction h with
  | start c => exact ⟨c.cpu.registers, rfl⟩
  | modify _ f ih =>
    obtain ⟨r, hr⟩ := ih
    exact ⟨f r, by simp only [Core.modify, hr]⟩
  | tick _ ih => exact ih
  | read _ _ ih => exact ih
  | write _ _ _ ih => exact ih

theorem ime (h : Work n c d) : d.cpu.ime = c.cpu.ime := by
  obtain ⟨r, hr⟩ := h.cpu
  rw [hr]

theorem eiDelay (h : Work n c d) : d.cpu.eiDelay = c.cpu.eiDelay := by
  obtain ⟨r, hr⟩ := h.cpu
  rw [hr]

theorem activity (h : Work n c d) : d.cpu.activity = c.cpu.activity := by
  obtain ⟨r, hr⟩ := h.cpu
  rw [hr]

theorem setPC (h : Work n c d) (w : UInt16) : Work n c (d.setPC w) := h.modify ({ · with pc := w })

theorem setSP (h : Work n c d) (w : UInt16) : Work n c (d.setSP w) := h.modify ({ · with sp := w })

theorem setA (h : Work n c d) (v : UInt8) : Work n c (d.setA v) := h.modify ({ · with a := v })

theorem setFlags (h : Work n c d) (f : Flags) : Work n c (d.setFlags f) :=
  h.modify ({ · with flags := f })

theorem setResult (h : Work n c d) (r : UInt8 × Flags) : Work n c (d.setResult r) :=
  h.modify ({ · with a := r.1, flags := r.2 })

theorem fetch8 (h : Work n c d) : Work (n + 1) c d.fetch8.2 := (h.read d.registers.pc).setPC _

theorem fetch16 (h : Work n c d) : Work (n + 2) c d.fetch16.2 := h.fetch8.fetch8

theorem load (h : Work n c d) (o : Operand) : Work (n + o.accesses) c (d.load o).2 := by
  cases o with
  | reg r => exact h
  | atHL => exact h.read _

theorem store (h : Work n c d) (o : Operand) (v : UInt8) :
    Work (n + o.accesses) c (d.store o v) := by
  cases o with
  | reg r => exact h.modify (·.set8 r v)
  | atHL => exact h.write _ _

theorem pointer (h : Work n c d) (p : Pointer) : Work n c (d.pointer p).2 := by
  cases p with
  | bc | de => exact h
  | hlInc => exact h.modify fun r => r.setHL (r.hl + 1)
  | hlDec => exact h.modify fun r => r.setHL (r.hl - 1)

theorem pushByte (h : Work n c d) (v : UInt8) : Work (n + 1) c (d.pushByte v) :=
  (h.setSP _).write (d.registers.sp - 1) v

theorem popByte (h : Work n c d) : Work (n + 1) c d.popByte.2 := (h.read d.registers.sp).setSP _

theorem push (h : Work n c d) (w : UInt16) : Work (n + 2) c (d.push w) :=
  (h.pushByte (highByte w)).pushByte (lowByte w)

theorem pop (h : Work n c d) : Work (n + 2) c d.pop.2 := h.popByte.popByte

theorem update (h : Work n c d) (o : Operand) (f : UInt8 → Flags → UInt8 × Flags) :
    Work (n + 2 * o.accesses) c (d.update o f) := by
  rw [Nat.two_mul, ← Nat.add_assoc]
  exact ((h.load o).setFlags _).store o _

theorem returnFrom (h : Work n c d) : Work (n + 3) c d.returnFrom := (h.pop.setPC d.pop.1).tick

end Work

/-! ## Instructions -/

theorem executeBit_work (c : Core β) (b : BitInstruction) :
    Work b.busCycles c (c.executeBit b) := by
  have h := Work.start c
  cases b with
  | shift op dst => exact (h.update dst (Alu.shift op)).of_eq (Nat.zero_add _)
  | bit k src => exact ((h.load src).setFlags _).of_eq (Nat.zero_add _)
  | res k dst =>
    exact ((h.load dst).store dst ((c.load dst).1 &&& ~~~(1 <<< k))).of_eq
      (by rw [Nat.zero_add, ← Nat.two_mul]; rfl)
  | set k dst =>
    exact ((h.load dst).store dst ((c.load dst).1 ||| (1 <<< k))).of_eq
      (by rw [Nat.zero_add, ← Nat.two_mul]; rfl)

theorem bitPage_work (c : Core β) :
    Work (1 + (decodeBit c.fetch8.1).op.busCycles) c (c.execute .bitPage) :=
  (Work.start c).fetch8.trans (executeBit_work _ _)

/-- A branch is taken on the flags as they are before the instruction: fetching its operand does not
touch them. -/
theorem execute_jr (c : Core β) (cond : Option Condition) :
    c.execute (.jr cond) =
      if Condition.allows c.registers.flags cond then
        (c.fetch8.2.setPC (c.fetch8.2.registers.pc + signExtend c.fetch8.1)).tick
      else c.fetch8.2 :=
  rfl

theorem execute_jp (c : Core β) (cond : Option Condition) :
    c.execute (.jp cond) =
      if Condition.allows c.registers.flags cond then (c.fetch16.2.setPC c.fetch16.1).tick
      else c.fetch16.2 :=
  rfl

theorem execute_call (c : Core β) (cond : Option Condition) :
    c.execute (.call cond) =
      if Condition.allows c.registers.flags cond then
        (c.fetch16.2.tick.push c.fetch16.2.registers.pc).setPC c.fetch16.1
      else c.fetch16.2 :=
  rfl

theorem execute_ret (c : Core β) (k : Condition) :
    c.execute (.ret (some k)) =
      if k.holds c.registers.flags then c.tick.returnFrom else c.tick :=
  rfl

/-- **The work of an instruction**, besides those that change the mode of the CPU. -/
theorem execute_work {i : Instruction} (c : Core β) (hi : i.plain) (hp : i ≠ .bitPage) :
    Work (i.busCycles (i.goesAhead c.registers.flags)) c (c.execute i) := by
  have h := Work.start c
  cases i with
  | stop | halt | di | ei | reti | undefined => cases hi
  | bitPage => exact absurd rfl hp
  | nop => exact h
  | ld dst src =>
    exact ((h.load src).store dst (c.load src).1).of_eq (by rw [Nat.zero_add]; rfl)
  | ldImm dst => exact h.fetch8.store dst c.fetch8.1
  | ld16Imm dst => exact h.fetch16.modify (·.set16 dst c.fetch16.1)
  | storeA p => exact (h.pointer p).write _ _
  | loadA p => exact ((h.pointer p).read (c.pointer p).1).setA _
  | storeSPAbs => exact (h.fetch16.write c.fetch16.1 _).write _ _
  | storeAAbs => exact h.fetch16.write _ _
  | loadAAbs => exact (h.fetch16.read c.fetch16.1).setA _
  | storeAHighImm => exact h.fetch8.write _ _
  | loadAHighImm => exact (h.fetch8.read (highPage c.fetch8.1)).setA _
  | storeAHighC => exact h.write _ _
  | loadAHighC => exact (h.read (highPage c.registers.c)).setA _
  | ldHLOffsetSP =>
    simp only [execute]
    exact (h.fetch8.modify _).tick
  | ldSPHL => exact (h.setSP c.registers.hl).tick
  | inc dst => exact (h.update dst Alu.inc).of_eq (Nat.zero_add _)
  | dec dst => exact (h.update dst Alu.dec).of_eq (Nat.zero_add _)
  | inc16 dst => exact (h.modify fun r => r.set16 dst (r.get16 dst + 1)).tick
  | dec16 dst => exact (h.modify fun r => r.set16 dst (r.get16 dst - 1)).tick
  | addHL src =>
    simp only [execute]
    exact (h.modify _).tick
  | addSPOffset =>
    simp only [execute]
    exact (h.fetch8.modify _).tick.tick
  | alu op src => exact ((h.load src).setResult _).of_eq (Nat.zero_add _)
  | aluImm op => exact h.fetch8.setResult _
  | rotateA r => exact h.setResult (Alu.rotateA r c.registers.a c.registers.flags)
  | daa => exact h.setResult (Alu.decimalAdjust c.registers.a c.registers.flags)
  | cpl => exact h.setResult (Alu.complement c.registers.a c.registers.flags)
  | scf => exact h.setFlags (Alu.setCarry c.registers.flags)
  | ccf => exact h.setFlags (Alu.flipCarry c.registers.flags)
  | jr cond =>
    simp only [execute_jr, Instruction.goesAhead, Instruction.busCycles]
    cases Condition.allows c.registers.flags cond with
    | true => exact (h.fetch8.setPC _).tick
    | false => exact h.fetch8
  | jp cond =>
    simp only [execute_jp, Instruction.goesAhead, Instruction.busCycles]
    cases Condition.allows c.registers.flags cond with
    | true => exact (h.fetch16.setPC _).tick
    | false => exact h.fetch16
  | jpHL => exact h.setPC c.registers.hl
  | call cond =>
    simp only [execute_call, Instruction.goesAhead, Instruction.busCycles]
    cases Condition.allows c.registers.flags cond with
    | true => exact (h.fetch16.tick.push _).setPC _
    | false => exact h.fetch16
  | ret cond =>
    cases cond with
    | none => exact h.returnFrom
    | some k =>
      simp only [execute_ret, Instruction.goesAhead, Condition.allows, Instruction.busCycles]
      cases k.holds c.registers.flags with
      | true => exact h.tick.returnFrom
      | false => exact h.tick
  | rst target => exact (h.tick.push c.tick.registers.pc).setPC target.toUInt16
  | push src => exact h.tick.push (c.tick.registers.getPair src)
  | pop dst => exact h.pop.modify (·.setPair dst c.pop.1)

theorem plain_work {i : Instruction} (c : Core β) (hi : i.plain) :
    ∃ n, Work n c (c.execute i) := by
  by_cases hp : i = .bitPage
  · exact ⟨_, hp ▸ bitPage_work c⟩
  · exact ⟨_, execute_work c hi hp⟩

theorem halt_cpu (c : Core β) :
    c.halt.cpu = { c.cpu with activity := .halted } ∨ c.halt.cpu = { c.cpu with haltBug := true } := by
  unfold halt
  simp only
  split
  · exact .inl rfl
  · exact .inr rfl

theorem stop_cpu (c : Core β) :
    ∃ a, (a = c.cpu.activity ∨ a = .stopped) ∧
      c.stop.cpu = { (c.setPC (c.registers.pc + 1)).cpu with activity := a } := by
  unfold stop
  simp only
  split
  · exact ⟨_, .inl rfl, rfl⟩
  · split
    · exact ⟨_, .inl rfl, rfl⟩
    · exact ⟨_, .inr rfl, rfl⟩

theorem execute_mask (c : Core β) (i : Instruction) :
    ((c.execute i).cpu.ime = match i with
      | .di => false
      | .reti => true
      | _ => c.cpu.ime) ∧
    (c.execute i).cpu.eiDelay = match i with
      | .di => 0
      | .ei => 2
      | _ => c.cpu.eiDelay := by
  cases i using Instruction.byMode with
  | plain i hi =>
    obtain ⟨n, hw⟩ := plain_work c hi
    rw [hw.ime, hw.eiDelay]
    cases i <;> first | exact ⟨rfl, rfl⟩ | exact absurd hi (by decide)
  | stop =>
    obtain ⟨a, -, ha⟩ := stop_cpu c
    simp only [execute, ha]
    exact ⟨rfl, rfl⟩
  | halt => rcases halt_cpu c with h | h <;> simp only [execute, h, and_self]
  | di | ei | reti | undefined => exact ⟨rfl, rfl⟩

theorem execute_activity (hr : c.cpu.activity = .running) (i : Instruction) :
    i.LeavesIn (c.execute i).cpu.activity := by
  cases i using Instruction.byMode with
  | plain i hi =>
    obtain ⟨n, hw⟩ := plain_work c hi
    rw [hw.activity, hr]
    refine .running ?_
    rintro rfl
    cases hi
  | stop =>
    obtain ⟨a, ha, hc⟩ := stop_cpu c
    rw [execute, hc]
    rcases ha with rfl | rfl
    · rw [hr]
      exact .running (by decide)
    · exact .stopped
  | halt =>
    rcases halt_cpu c with h | h <;> rw [execute, h]
    · exact .halted
    · rw [hr]
      exact .running (by decide)
  | di | ei =>
    simp only [execute, hr]
    exact .running (by decide)
  | reti =>
    simp only [execute, setIME, (Work.start c).returnFrom.activity, hr]
    exact .running (by decide)
  | undefined => exact .locked

/-- The instruction that the next opcode stands for. -/
def decoded (c : Core β) : Instruction := (decode c.fetchOpcode.1).op

/-- After the opcode has been read and reported. -/
def fetched (c : Core β) : Core β :=
  c.fetchOpcode.2.report
    (.instruction c.registers.pc c.fetchOpcode.1 c.decoded c.fetchOpcode.2.registers)

theorem runInstruction_eq (c : Core β) :
    c.runInstruction =
      if (c.fetched.execute c.decoded).cpu.activity = .locked then
        (c.fetched.execute c.decoded).report (.cpuLocked c.fetchOpcode.1 c.registers.pc)
      else (c.fetched.execute c.decoded).settleIME (c.cpu.eiDelay == 1) := by
  unfold runInstruction fetched decoded
  simp only
  split
  · rename_i h
    rw [if_pos h]
  · rename_i h
    rw [if_neg h]

theorem fetchOpcode_byte (c : Core β) :
    c.fetchOpcode.1 = (Bus.read8 c.bus c.registers.pc).1 := by
  unfold fetchOpcode
  split <;> rfl

theorem fetchOpcode_work (c : Core β) :
    Work 1 { c with cpu.haltBug := false } c.fetchOpcode.2 := by
  unfold fetchOpcode
  split
  · exact (Work.start _).read _
  · -- without a failed HALT there is nothing to clear
    rename_i hb
    have hc : { c with cpu.haltBug := false } = c := by
      rw [← Bool.not_eq_true _ |>.mp hb]
    rw [hc]
    exact (Work.start c).fetch8

/-- Reading the opcode leaves the mode of the CPU alone, but for the failed HALT. -/
theorem fetched_cpu (c : Core β) :
    ∃ r, c.fetched.cpu = { c.cpu with registers := r, haltBug := false } :=
  (fetchOpcode_work c).cpu

/-- Reading the opcode moves the program counter on, unless a HALT has failed. -/
theorem fetched_registers (c : Core β) :
    c.fetched.registers =
      { c.registers with
        pc := if c.cpu.haltBug then c.registers.pc else c.registers.pc + 1 } := by
  have hf : c.fetched.registers = c.fetchOpcode.2.registers := rfl
  rw [hf, fetchOpcode]
  split <;> rfl

theorem fetched_activity (hr : c.cpu.activity = .running) :
    c.decoded.LeavesIn (c.fetched.execute c.decoded).cpu.activity := by
  obtain ⟨r, hf⟩ := fetched_cpu c
  exact execute_activity (by rw [hf, hr]) c.decoded

/-- Nothing after the instruction itself decides what the CPU is doing. -/
theorem runInstruction_activity (hr : c.cpu.activity = .running) :
    c.decoded.LeavesIn c.runInstruction.cpu.activity := by
  have ha : c.runInstruction.cpu.activity = (c.fetched.execute c.decoded).cpu.activity := by
    rw [runInstruction_eq]
    split <;> rfl
  rw [ha]
  exact fetched_activity hr

/-- **The mask after an instruction**: the EI before it has taken effect unless it was DI, and an
undefined opcode hangs the CPU before that. -/
theorem runInstruction_mask (hr : c.cpu.activity = .running) :
    c.runInstruction.cpu.ime = c.decoded.imeAfter c.cpu.ime c.cpu.eiDelay ∧
      c.runInstruction.cpu.eiDelay = c.decoded.eiDelayAfter c.cpu.eiDelay := by
  obtain ⟨r, hf⟩ := fetched_cpu c
  obtain ⟨hi, hd⟩ := execute_mask c.fetched c.decoded
  rw [runInstruction_eq]
  simp only [(fetched_activity hr).locked_iff]
  split
  · rename_i hu
    rw [hu] at hi hd ⊢
    exact ⟨hi.trans (by rw [hf]; rfl), hd.trans (by rw [hf]; rfl)⟩
  · rename_i hu
    -- an EI is due exactly if the delay was one before the instruction
    have hdue : (c.cpu.eiDelay == 1 && decide (0 < c.cpu.eiDelay)) = (c.cpu.eiDelay == 1) := by
      grind
    simp only [settleIME, hi, hd, hf]
    cases hc : c.decoded <;>
      first | exact absurd hc hu | simp [Instruction.imeAfter, Instruction.eiDelayAfter, hdue]

/-! ## The two halves of a step -/

/-- True if a step executes an instruction rather than idles. -/
def ready (c : Core β) : Bool :=
  c.cpu.activity == .running || (c.cpu.activity == .stopped && Bus.buttonHeld c.bus)

/-- The instruction that a step executes, if any. -/
def instruction? (c : Core β) : Option Instruction :=
  if c.ready then some c.decoded else none

/-- True if the interrupt check of a step enters a handler. -/
def interrupted (c : Core β) : Bool :=
  (c.cpu.activity == .running || c.cpu.activity == .halted) &&
    (Bus.interrupts c.bus).pending != 0 && c.cpu.ime

theorem decoded_setActivity (c : Core β) (a : Cpu.Activity) :
    (c.setActivity a).decoded = c.decoded := by
  rw [decoded, decoded, fetchOpcode_byte, fetchOpcode_byte]
  rfl

theorem act_of_ready (h : c.ready) : c.act = (c.setActivity .running).runInstruction := by
  unfold act
  cases ha : c.cpu.activity with
  | running =>
    have hc : c.setActivity .running = c := by
      unfold setActivity
      rw [← ha]
    rw [hc]
  | halted | locked => simp [ready, ha] at h
  | stopped =>
    have hb : Bus.buttonHeld c.bus = true := by simpa [ready, ha] using h
    simp only [hb, if_true]

theorem act_of_not_ready (h : ¬ c.ready) : c.cpu.activity ≠ .stopped ∧ c.act = c.tick ∨
    c.cpu.activity = .stopped ∧ c.act = { c with dots := c.dots + idleDots } := by
  unfold act
  cases ha : c.cpu.activity with
  | running => simp [ready, ha] at h
  | halted | locked => exact .inl ⟨by decide, rfl⟩
  | stopped =>
    have hb : Bus.buttonHeld c.bus = false := by simpa [ready, ha] using h
    simp [hb]

theorem act_idle_cpu (h : ¬ c.ready) : c.act.cpu = c.cpu := by
  rcases act_of_not_ready h with ⟨-, ht⟩ | ⟨-, ht⟩ <;> rw [ht]
  rfl

theorem service_of_interrupted (h : c.interrupted) :
    c.service = (c.setActivity .running).dispatch := by
  simp only [interrupted, Bool.and_eq_true, Bool.or_eq_true, beq_iff_eq, bne_iff_ne] at h
  obtain ⟨⟨ha, hp⟩, hi⟩ := h
  unfold service
  rcases ha with ha | ha <;> simp only [ha, if_neg hp, setActivity, hi, if_true]

theorem service_of_not_interrupted (h : ¬ c.interrupted) :
    c.service = c ∨ c.service = c.setActivity .running ∧ c.cpu.activity ≠ .locked := by
  unfold service
  cases ha : c.cpu.activity with
  | stopped | locked => exact .inl rfl
  | running | halted =>
    by_cases hp : (Bus.interrupts c.bus).pending = 0
    · simp only [hp, if_true, true_or]
    · have hi : c.cpu.ime = false := by simpa [interrupted, ha, hp] using h
      simp [hp, setActivity, hi]

theorem acknowledge_cpu (c : Core β) : c.acknowledge.2.cpu = c.cpu := by
  unfold acknowledge
  simp only
  split <;> rfl

/-- Two idle cycles and a push, the acknowledgement, another push and an idle cycle. -/
theorem dispatch_work (c : Core β) :
    ∃ d, Work 3 (c.setIME false) d ∧ Work 2 d.acknowledge.2 c.dispatch := by
  have hw := (Work.start (c.setIME false)).tick.tick.pushByte (highByte c.registers.pc)
  exact ⟨_, hw, (((Work.start _).pushByte _).setPC _).tick⟩

theorem dispatch_cpu (c : Core β) :
    ∃ r, c.dispatch.cpu = { c.cpu with registers := r, ime := false } := by
  obtain ⟨d, hd, hc⟩ := dispatch_work c
  obtain ⟨r, hr⟩ := hd.cpu
  obtain ⟨r', hr'⟩ := hc.cpu
  exact ⟨r', by rw [hr', acknowledge_cpu, hr]; rfl⟩

/-- The mask before the interrupt check. -/
theorem act_mask {i : Instruction} (h : c.instruction? = some i) :
    c.act.cpu.ime = i.imeAfter c.cpu.ime c.cpu.eiDelay ∧
      c.act.cpu.eiDelay = i.eiDelayAfter c.cpu.eiDelay := by
  unfold instruction? at h
  split at h
  · rename_i hr
    rw [← Option.some.inj h, act_of_ready hr, ← decoded_setActivity c .running]
    exact runInstruction_mask rfl
  · cases h

theorem act_idle (h : c.instruction? = none) : c.act.cpu = c.cpu := by
  unfold instruction? at h
  split at h
  · cases h
  · rename_i hr
    exact act_idle_cpu hr

theorem act_activity {i : Instruction} (h : c.instruction? = some i) :
    i.LeavesIn c.act.cpu.activity := by
  unfold instruction? at h
  split at h
  · rename_i hr
    rw [← Option.some.inj h, act_of_ready hr, ← decoded_setActivity c .running]
    exact runInstruction_activity rfl
  · cases h

/-- The interrupt check clears the master enable if it enters a handler and wakes the CPU, no more. -/
theorem service_cpu (c : Core β) :
    ∃ r a, (a = c.cpu.activity ∨ a = .running ∧ c.cpu.activity ≠ .locked) ∧
      c.service.cpu =
        { c.cpu with registers := r, activity := a, ime := c.cpu.ime && !c.interrupted } := by
  by_cases h : c.interrupted
  · obtain ⟨r, hr⟩ := dispatch_cpu (c.setActivity .running)
    have hl : c.cpu.activity ≠ .locked := by
      intro hl
      simp [interrupted, hl] at h
    refine ⟨r, .running, .inr ⟨rfl, hl⟩, ?_⟩
    rw [service_of_interrupted h, hr, h]
    simp [setActivity]
  · have hn : c.interrupted = false := by simpa using h
    rcases service_of_not_interrupted h with hs | ⟨hs, hl⟩
    · exact ⟨c.cpu.registers, _, .inl rfl, by rw [hs, hn]; simp⟩
    · exact ⟨c.cpu.registers, .running, .inr ⟨rfl, hl⟩, by rw [hs, hn]; simp [setActivity]⟩

theorem step_ime (c : Core β) : c.step.cpu.ime = (c.act.cpu.ime && !c.act.interrupted) := by
  obtain ⟨r, a, -, h⟩ := service_cpu c.act
  rw [step, h]

theorem step_eiDelay (c : Core β) : c.step.cpu.eiDelay = c.act.cpu.eiDelay := by
  obtain ⟨r, a, -, h⟩ := service_cpu c.act
  rw [step, h]

end Core

end Handheld
