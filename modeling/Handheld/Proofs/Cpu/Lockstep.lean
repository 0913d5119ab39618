import Handheld.Proofs.Cpu.Work

/-!
# One CPU on two buses

Two buses that answer alike keep a CPU in the same state. What relates them may be weaker after an
access than after the bus cycle that ends it, since an access can leave something for the cycle to
finish. A step begins and ends in the weaker relation: STOP switches the speed without a bus cycle.

* `Lockstep`: what the two buses must do alike, and how long a bus cycle may take.
* `Core.Agree`: the same CPU on both buses, after a number of bus cycles.
* `Agree.execute`, `Agree.dispatch`: instructions and the entry into a handler.
* `step_agree`: a step takes the same dots on both buses, eleven bus cycles at most.
-/

namespace Handheld

variable {β γ : Type}

/-- **Two buses in lockstep.** `settled` relates them after a bus cycle of at most `longest` dots,
`loose` at any time. -/
structure Lockstep [Bus β] [Bus γ] (settled loose : β → γ → Prop) (longest : Nat) : Prop where
  weaken {b : β} {g : γ} (h : settled b g) : loose b g
  idle : Core.idleDots ≤ longest
  tick {b : β} {g : γ} (h : loose b g) :
    (Bus.tick g).value.1 = (Bus.tick b).value.1 ∧ (Bus.tick b).value.1 ≤ longest ∧
      settled (Bus.tick b).value.2 (Bus.tick g).value.2
  read {b : β} {g : γ} (h : loose b g) (addr : UInt16) :
    (Bus.read8 g addr).1 = (Bus.read8 b addr).1 ∧
      loose (Bus.read8 b addr).2 (Bus.read8 g addr).2
  write {b : β} {g : γ} (h : settled b g) (addr : UInt16) (v : UInt8) :
    loose (Bus.write8 b addr v).value (Bus.write8 g addr v).value
  interrupts {b : β} {g : γ} (h : loose b g) : Bus.interrupts g = Bus.interrupts b
  setInterrupts {b : β} {g : γ} (h : settled b g) (i : Interrupts) :
    settled (Bus.setInterrupts b i) (Bus.setInterrupts g i)
  clearDivider {b : β} {g : γ} (h : loose b g) :
    loose (Bus.clearDivider b) (Bus.clearDivider g)
  switchSpeed {b : β} {g : γ} (h : settled b g) :
    (Bus.switchSpeed g).value.1 = (Bus.switchSpeed b).value.1 ∧
      loose (Bus.switchSpeed b).value.2 (Bus.switchSpeed g).value.2
  buttonHeld {b : β} {g : γ} (h : loose b g) : Bus.buttonHeld g = Bus.buttonHeld b

namespace Core

/-- **The same CPU on two buses**, after at most `k` bus cycles. -/
structure Agree (R : β → γ → Prop) (longest k : Nat) (c : Core β) (d : Core γ) : Prop where
  cpu : d.cpu = c.cpu
  dots : d.dots = c.dots
  bound : c.dots ≤ longest * k
  bus : R c.bus d.bus

namespace Agree

section

variable {R : β → γ → Prop} {longest k l : Nat} {c : Core β} {d : Core γ}
  (h : Agree R longest k c d)

include h

theorem registers : d.registers = c.registers := congrArg Cpu.registers h.cpu

theorem allows (cond : Option Condition) :
    Condition.allows d.registers.flags cond = Condition.allows c.registers.flags cond := by
  rw [h.registers]

theorem mono (hk : k ≤ l) : Agree R longest l c d :=
  ⟨h.cpu, h.dots, Nat.le_trans h.bound (Nat.mul_le_mul_left _ hk), h.bus⟩

theorem withCpu {u v : Cpu} (hc : v = u) :
    Agree R longest k { c with cpu := u } { d with cpu := v } :=
  ⟨hc, h.dots, h.bound, h.bus⟩

theorem modify (f : Registers → Registers) : Agree R longest k (c.modify f) (d.modify f) :=
  h.withCpu (by rw [h.cpu])

theorem setPC {v w : UInt16} (hv : w = v) : Agree R longest k (c.setPC v) (d.setPC w) :=
  hv ▸ h.modify _

theorem setSP {v w : UInt16} (hv : w = v) : Agree R longest k (c.setSP v) (d.setSP w) :=
  hv ▸ h.modify _

theorem setA {v w : UInt8} (hv : w = v) : Agree R longest k (c.setA v) (d.setA w) :=
  hv ▸ h.modify _

theorem setFlags {f g : Flags} (hf : g = f) : Agree R longest k (c.setFlags f) (d.setFlags g) :=
  hf ▸ h.modify _

theorem setResult {r s : UInt8 × Flags} (hr : s = r) :
    Agree R longest k (c.setResult r) (d.setResult s) :=
  hr ▸ h.modify _

theorem setActivity (a : Cpu.Activity) :
    Agree R longest k (c.setActivity a) (d.setActivity a) :=
  h.withCpu (by rw [h.cpu])

theorem report (e e' : Event) : Agree R longest k (c.report e) (d.report e') :=
  ⟨h.cpu, h.dots, h.bound, h.bus⟩

theorem pointer (p : Pointer) :
    (d.pointer p).1 = (c.pointer p).1 ∧ Agree R longest k (c.pointer p).2 (d.pointer p).2 := by
  have hr := h.registers
  cases p with
  | bc => exact ⟨congrArg Registers.bc hr, h⟩
  | de => exact ⟨congrArg Registers.de hr, h⟩
  | hlInc => exact ⟨congrArg Registers.hl hr, h.modify fun r => r.setHL (r.hl + 1)⟩
  | hlDec => exact ⟨congrArg Registers.hl hr, h.modify fun r => r.setHL (r.hl - 1)⟩

end

variable [Bus β] [Bus γ] {settled loose : β → γ → Prop} {longest k : Nat} {c : Core β} {d : Core γ}

theorem loosen (h : Agree settled longest k c d) (hl : Lockstep settled loose longest) :
    Agree loose longest k c d :=
  ⟨h.cpu, h.dots, h.bound, hl.weaken h.bus⟩

theorem tickLoose (h : Agree loose longest k c d) (hl : Lockstep settled loose longest) :
    Agree settled longest (k + 1) c.tick d.tick := by
  obtain ⟨hdots, hle, hbus⟩ := hl.tick h.bus
  have hb := h.bound
  have hsum : c.dots + (Bus.tick c.bus).value.1 ≤ longest * (k + 1) := by
    rw [Nat.mul_succ]
    omega
  refine ⟨h.cpu, ?_, hsum, hbus⟩
  show d.dots + (Bus.tick d.bus).value.1 = c.dots + (Bus.tick c.bus).value.1
  rw [h.dots, hdots]

theorem readLoose (h : Agree loose longest k c d) (hl : Lockstep settled loose longest)
    {a a' : UInt16} (ha : a' = a) :
    (d.read a').1 = (c.read a).1 ∧
      Agree settled longest (k + 1) (c.read a).2 (d.read a').2 := by
  subst ha
  obtain ⟨hv, hbus⟩ := hl.read h.bus a'
  have hread : Agree loose longest k { c with bus := (Bus.read8 c.bus a').2 }
      { d with bus := (Bus.read8 d.bus a').2 } := ⟨h.cpu, h.dots, h.bound, hbus⟩
  exact ⟨hv, hread.tickLoose hl⟩

section

variable (h : Agree settled longest k c d) (hl : Lockstep settled loose longest)

include h hl

theorem tick : Agree settled longest (k + 1) c.tick d.tick := (h.loosen hl).tickLoose hl

theorem read {a a' : UInt16} (ha : a' = a) :
    (d.read a').1 = (c.read a).1 ∧
      Agree settled longest (k + 1) (c.read a).2 (d.read a').2 :=
  (h.loosen hl).readLoose hl ha

theorem write {a a' : UInt16} (ha : a' = a) {v v' : UInt8} (hv : v' = v) :
    Agree settled longest (k + 1) (c.write a v) (d.write a' v') := by
  subst ha hv
  have hwrite : Agree loose longest k
      ⟨c.cpu, (Bus.write8 c.bus a' v').value, c.dots,
        Logged.join c.events (Bus.write8 c.bus a' v').events⟩
      ⟨d.cpu, (Bus.write8 d.bus a' v').value, d.dots,
        Logged.join d.events (Bus.write8 d.bus a' v').events⟩ :=
    ⟨h.cpu, h.dots, h.bound, hl.write h.bus a' v'⟩
  exact hwrite.tickLoose hl

theorem fetch8 :
    d.fetch8.1 = c.fetch8.1 ∧ Agree settled longest (k + 1) c.fetch8.2 d.fetch8.2 := by
  have hpc := congrArg Registers.pc h.registers
  obtain ⟨hv, hr⟩ := h.read hl hpc
  exact ⟨hv, hr.setPC (congrArg (fun r : Registers => r.pc + 1) hr.registers)⟩

theorem load (o : Operand) :
    (d.load o).1 = (c.load o).1 ∧ Agree settled longest (k + 1) (c.load o).2 (d.load o).2 := by
  cases o with
  | reg r => exact ⟨congrArg (Registers.get8 · r) h.registers, h.mono (Nat.le_succ k)⟩
  | atHL => exact h.read hl (congrArg Registers.hl h.registers)

theorem store (o : Operand) {v v' : UInt8} (hv : v' = v) :
    Agree settled longest (k + 1) (c.store o v) (d.store o v') := by
  subst hv
  cases o with
  | reg r => exact (h.modify (·.set8 r v')).mono (Nat.le_succ k)
  | atHL => exact h.write hl (congrArg Registers.hl h.registers) rfl

theorem pushByte {v v' : UInt8} (hv : v' = v) :
    Agree settled longest (k + 1) (c.pushByte v) (d.pushByte v') := by
  have hsp : d.registers.sp - 1 = c.registers.sp - 1 := by rw [h.registers]
  exact (h.setSP hsp).write hl hsp hv

theorem popByte :
    d.popByte.1 = c.popByte.1 ∧ Agree settled longest (k + 1) c.popByte.2 d.popByte.2 := by
  obtain ⟨hv, hr⟩ := h.read hl (congrArg Registers.sp h.registers)
  exact ⟨hv, hr.setSP (congrArg (fun r : Registers => r.sp + 1) hr.registers)⟩

end

section

variable (h : Agree settled longest k c d) (hl : Lockstep settled loose longest)

include h hl

theorem fetch16 :
    d.fetch16.1 = c.fetch16.1 ∧ Agree settled longest (k + 2) c.fetch16.2 d.fetch16.2 := by
  obtain ⟨hlow, h⟩ := h.fetch8 hl
  obtain ⟨hhigh, h⟩ := h.fetch8 hl
  exact ⟨congr (congrArg word hhigh) hlow, h⟩

theorem push {w w' : UInt16} (hw : w' = w) :
    Agree settled longest (k + 2) (c.push w) (d.push w') :=
  (h.pushByte hl (congrArg highByte hw)).pushByte hl (congrArg lowByte hw)

theorem pop : d.pop.1 = c.pop.1 ∧ Agree settled longest (k + 2) c.pop.2 d.pop.2 := by
  obtain ⟨hlow, h⟩ := h.popByte hl
  obtain ⟨hhigh, h⟩ := h.popByte hl
  exact ⟨congr (congrArg word hhigh) hlow, h⟩

theorem update (o : Operand) (f : UInt8 → Flags → UInt8 × Flags) :
    Agree settled longest (k + 2) (c.update o f) (d.update o f) := by
  obtain ⟨hv, h⟩ := h.load hl o
  have hr : f (d.load o).1 (d.load o).2.registers.flags =
      f (c.load o).1 (c.load o).2.registers.flags := by
    rw [hv, h.registers]
  exact (h.setFlags (congrArg Prod.snd hr)).store hl o (congrArg Prod.fst hr)

theorem returnFrom : Agree settled longest (k + 3) c.returnFrom d.returnFrom := by
  obtain ⟨hw, h⟩ := h.pop hl
  exact (h.setPC hw).tick hl

/-! ## Instructions -/

theorem executeBit (b : BitInstruction) :
    Agree settled longest (k + 2) (c.executeBit b) (d.executeBit b) := by
  cases b with
  | shift op dst => exact h.update hl dst (Alu.shift op)
  | bit n src =>
    obtain ⟨hv, h⟩ := h.load hl src
    have hf : Alu.testBit n (d.load src).1 (d.load src).2.registers.flags =
        Alu.testBit n (c.load src).1 (c.load src).2.registers.flags := by
      rw [hv, h.registers]
    exact (h.setFlags hf).mono (Nat.le_succ _)
  | res n dst =>
    obtain ⟨hv, h⟩ := h.load hl dst
    exact h.store hl dst (congrArg (· &&& ~~~(1 <<< n)) hv)
  | set n dst =>
    obtain ⟨hv, h⟩ := h.load hl dst
    exact h.store hl dst (congrArg (· ||| (1 <<< n)) hv)

theorem halt : Agree settled longest k c.halt d.halt := by
  have hi := hl.interrupts (hl.weaken h.bus)
  unfold Core.halt
  rw [h.cpu, hi]
  dsimp only
  split
  · exact h.setActivity .halted
  · exact h.withCpu rfl

/-- STOP is the one instruction that can leave something for the next bus cycle to finish. -/
theorem stop : Agree loose longest k c.stop d.stop := by
  have hpc : d.registers.pc + 1 = c.registers.pc + 1 := by rw [h.registers]
  have hnext := h.setPC hpc
  obtain ⟨hdone, hbus⟩ := hl.switchSpeed h.bus
  have hdone' : (Bus.switchSpeed (d.setPC (d.registers.pc + 1)).bus).value.1 =
      (Bus.switchSpeed (c.setPC (c.registers.pc + 1)).bus).value.1 := hdone
  have hclear := hl.clearDivider hbus
  unfold Core.stop
  dsimp only
  rw [hdone']
  split
  · exact ⟨hnext.cpu, h.dots, h.bound, hbus⟩
  · have hheld := hl.buttonHeld hclear
    have hcleared : Agree loose longest k
        { c.setPC (c.registers.pc + 1) with
          bus := Bus.clearDivider (Bus.switchSpeed (c.setPC (c.registers.pc + 1)).bus).value.2
          events := Logged.join (c.setPC (c.registers.pc + 1)).events
            (Bus.switchSpeed (c.setPC (c.registers.pc + 1)).bus).events }
        { d.setPC (d.registers.pc + 1) with
          bus := Bus.clearDivider (Bus.switchSpeed (d.setPC (d.registers.pc + 1)).bus).value.2
          events := Logged.join (d.setPC (d.registers.pc + 1)).events
            (Bus.switchSpeed (d.setPC (d.registers.pc + 1)).bus).events } :=
      ⟨hnext.cpu, h.dots, h.bound, hclear⟩
    have hheld' : Bus.buttonHeld
          (Bus.clearDivider (Bus.switchSpeed (d.setPC (d.registers.pc + 1)).bus).value.2) =
        Bus.buttonHeld
          (Bus.clearDivider (Bus.switchSpeed (c.setPC (c.registers.pc + 1)).bus).value.2) := hheld
    rw [hheld']
    split
    · exact hcleared
    · exact hcleared.setActivity .stopped

/-- **An instruction does the same on both buses**, in five bus cycles at most. -/
theorem execute (i : Instruction) : Agree loose longest (k + 5) (c.execute i) (d.execute i) := by
  have hr := h.registers
  have hend {j : Nat} {c' : Core β} {d' : Core γ} (h' : Agree settled longest j c' d')
      (hj : j ≤ k + 5) : Agree loose longest (k + 5) c' d' := (h'.mono hj).loosen hl
  cases i with
  | nop => exact hend h (by omega)
  | stop => exact (h.stop hl).mono (by omega)
  | halt => exact hend (h.halt hl) (by omega)
  | di => exact hend (h.withCpu (by rw [h.cpu])) (by omega)
  | ei => exact hend (h.withCpu (by rw [h.cpu])) (by omega)
  | ld dst src =>
    obtain ⟨hv, h⟩ := h.load hl src
    exact hend (h.store hl dst hv) (by omega)
  | ldImm dst =>
    obtain ⟨hv, h⟩ := h.fetch8 hl
    exact hend (h.store hl dst hv) (by omega)
  | ld16Imm dst =>
    obtain ⟨hw, h⟩ := h.fetch16 hl
    simp only [Core.execute, hw]
    exact hend (h.modify _) (by omega)
  | storeA p =>
    obtain ⟨ha, h⟩ := h.pointer p
    exact hend (h.write hl ha (congrArg Registers.a h.registers)) (by omega)
  | loadA p =>
    obtain ⟨ha, h⟩ := h.pointer p
    obtain ⟨hv, h⟩ := h.read hl ha
    exact hend (h.setA hv) (by omega)
  | storeSPAbs =>
    obtain ⟨ha, h⟩ := h.fetch16 hl
    have hsp := congrArg Registers.sp h.registers
    have hlow := h.write hl ha (congrArg lowByte hsp)
    exact hend (hlow.write hl (congrArg (· + 1) ha) (congrArg highByte hsp)) (by omega)
  | storeAAbs =>
    obtain ⟨ha, h⟩ := h.fetch16 hl
    exact hend (h.write hl ha (congrArg Registers.a h.registers)) (by omega)
  | loadAAbs =>
    obtain ⟨ha, h⟩ := h.fetch16 hl
    obtain ⟨hv, h⟩ := h.read hl ha
    exact hend (h.setA hv) (by omega)
  | storeAHighImm =>
    obtain ⟨ha, h⟩ := h.fetch8 hl
    exact hend (h.write hl (congrArg highPage ha) (congrArg Registers.a h.registers)) (by omega)
  | loadAHighImm =>
    obtain ⟨ha, h⟩ := h.fetch8 hl
    obtain ⟨hv, h⟩ := h.read hl (congrArg highPage ha)
    exact hend (h.setA hv) (by omega)
  | storeAHighC =>
    exact hend (h.write hl (congrArg (fun r : Registers => highPage r.c) hr)
      (congrArg Registers.a hr)) (by omega)
  | loadAHighC =>
    obtain ⟨hv, h⟩ := h.read hl (congrArg (fun r : Registers => highPage r.c) hr)
    exact hend (h.setA hv) (by omega)
  | ldHLOffsetSP =>
    obtain ⟨hv, h⟩ := h.fetch8 hl
    have hsp := congrArg Registers.sp h.registers
    simp only [Core.execute, hv, hsp]
    exact hend ((h.modify _).tick hl) (by omega)
  | ldSPHL => exact hend ((h.setSP (congrArg Registers.hl hr)).tick hl) (by omega)
  | inc dst => exact hend (h.update hl dst Alu.inc) (by omega)
  | dec dst => exact hend (h.update hl dst Alu.dec) (by omega)
  | inc16 dst => exact hend ((h.modify fun r => r.set16 dst (r.get16 dst + 1)).tick hl) (by omega)
  | dec16 dst => exact hend ((h.modify fun r => r.set16 dst (r.get16 dst - 1)).tick hl) (by omega)
  | addHL src =>
    simp only [Core.execute, hr]
    exact hend ((h.modify _).tick hl) (by omega)
  | addSPOffset =>
    obtain ⟨hv, h⟩ := h.fetch8 hl
    have hsp := congrArg Registers.sp h.registers
    simp only [Core.execute, hv, hsp]
    exact hend (((h.modify _).tick hl).tick hl) (by omega)
  | alu op src =>
    obtain ⟨hv, h⟩ := h.load hl src
    simp only [Core.execute, hv, h.registers]
    exact hend (h.setResult rfl) (by omega)
  | aluImm op =>
    obtain ⟨hv, h⟩ := h.fetch8 hl
    simp only [Core.execute, hv, h.registers]
    exact hend (h.setResult rfl) (by omega)
  | rotateA r =>
    exact hend (h.setResult (congrArg (fun s : Registers => Alu.rotateA r s.a s.flags) hr))
      (by omega)
  | daa =>
    exact hend (h.setResult (congrArg (fun s : Registers => Alu.decimalAdjust s.a s.flags) hr))
      (by omega)
  | cpl =>
    exact hend (h.setResult (congrArg (fun s : Registers => Alu.complement s.a s.flags) hr))
      (by omega)
  | scf =>
    exact hend (h.setFlags (congrArg (fun s : Registers => Alu.setCarry s.flags) hr)) (by omega)
  | ccf =>
    exact hend (h.setFlags (congrArg (fun s : Registers => Alu.flipCarry s.flags) hr)) (by omega)
  | jr cond =>
    obtain ⟨hv, hf⟩ := h.fetch8 hl
    rw [execute_jr, execute_jr, h.allows]
    split
    · have hpc : d.fetch8.2.registers.pc + signExtend d.fetch8.1 =
          c.fetch8.2.registers.pc + signExtend c.fetch8.1 := by
        rw [hv, hf.registers]
      exact hend ((hf.setPC hpc).tick hl) (by omega)
    · exact hend hf (by omega)
  | jp cond =>
    obtain ⟨ha, hf⟩ := h.fetch16 hl
    rw [execute_jp, execute_jp, h.allows]
    split
    · exact hend ((hf.setPC ha).tick hl) (by omega)
    · exact hend hf (by omega)
  | jpHL => exact hend (h.setPC (congrArg Registers.hl hr)) (by omega)
  | call cond =>
    obtain ⟨ha, hf⟩ := h.fetch16 hl
    rw [execute_call, execute_call, h.allows]
    split
    · have hpc := congrArg Registers.pc hf.registers
      exact hend (((hf.tick hl).push hl hpc).setPC ha) (by omega)
    · exact hend hf (by omega)
  | ret cond =>
    cases cond with
    | none => exact hend (h.returnFrom hl) (by omega)
    | some cond =>
      have ht := h.tick hl
      rw [execute_ret, execute_ret, hr]
      split
      · exact hend (ht.returnFrom hl) (by omega)
      · exact hend ht (by omega)
  | reti =>
    have hret := h.returnFrom hl
    exact hend (hret.withCpu (congrArg (fun u : Cpu => { u with ime := true }) hret.cpu)) (by omega)
  | rst target =>
    exact hend (((h.tick hl).push hl (congrArg Registers.pc hr)).setPC rfl) (by omega)
  | push src =>
    exact hend ((h.tick hl).push hl (congrArg (fun r : Registers => r.getPair src) hr)) (by omega)
  | pop dst =>
    obtain ⟨hw, h⟩ := h.pop hl
    simp only [Core.execute, hw]
    exact hend (h.modify _) (by omega)
  | bitPage =>
    obtain ⟨hv, h⟩ := h.fetch8 hl
    simp only [Core.execute, hv]
    exact hend (h.executeBit hl _) (by omega)
  | undefined => exact hend (h.setActivity .locked) (by omega)

theorem acknowledge :
    d.acknowledge.1 = c.acknowledge.1 ∧
      Agree settled longest k c.acknowledge.2 d.acknowledge.2 := by
  have hi := hl.interrupts (hl.weaken h.bus)
  unfold Core.acknowledge
  rw [hi]
  dsimp only
  split
  · exact ⟨rfl, h.cpu, h.dots, h.bound, hl.setInterrupts h.bus _⟩
  · exact ⟨rfl, h⟩

end

section

variable (h : Agree loose longest k c d) (hl : Lockstep settled loose longest)

include h hl

/-- **An interrupt is entered alike**, in five bus cycles. -/
theorem dispatch : Agree settled longest (k + 5) c.dispatch d.dispatch := by
  have hpc := congrArg Registers.pc h.registers
  have hmasked : Agree loose longest k (c.setIME false) (d.setIME false) :=
    h.withCpu (congrArg (fun u : Cpu => { u with ime := false }) h.cpu)
  -- the first cycle settles whatever the instruction left: the pushes may write from then on
  have hhigh := ((hmasked.tickLoose hl).tick hl).pushByte hl (congrArg highByte hpc)
  obtain ⟨htarget, hack⟩ := hhigh.acknowledge hl
  exact ((hack.pushByte hl (congrArg lowByte hpc)).setPC htarget).tick hl

theorem service : Agree loose longest (k + 5) c.service d.service := by
  have hskip := h.mono (Nat.le_add_right k 5)
  unfold Core.service
  rw [h.cpu, hl.interrupts h.bus]
  cases c.cpu.activity with
  | stopped | locked => exact hskip
  | running | halted =>
    dsimp only
    split
    · exact hskip
    · have hwake := h.setActivity .running
      have hime : (d.setActivity .running).cpu.ime = (c.setActivity .running).cpu.ime := by
        rw [hwake.cpu]
      rw [hime]
      split
      · exact (hwake.dispatch hl).loosen hl
      · exact hwake.mono (Nat.le_add_right k 5)

theorem fetchOpcode :
    d.fetchOpcode.1 = c.fetchOpcode.1 ∧
      Agree settled longest (k + 1) c.fetchOpcode.2 d.fetchOpcode.2 := by
  have hpc := congrArg Registers.pc h.registers
  unfold Core.fetchOpcode
  rw [h.cpu]
  split
  · have hclear : Agree loose longest k { c with cpu.haltBug := false }
        { d with cpu.haltBug := false } :=
      h.withCpu (congrArg (fun u : Cpu => { u with haltBug := false }) h.cpu)
    rw [h.cpu] at hclear
    exact hclear.readLoose hl hpc
  · obtain ⟨hv, hread⟩ := h.readLoose hl hpc
    exact ⟨hv, hread.setPC (congrArg (fun r : Registers => r.pc + 1) hread.registers)⟩

/-- **One instruction**, in six bus cycles at most. -/
theorem runInstruction : Agree loose longest (k + 6) c.runInstruction d.runInstruction := by
  obtain ⟨hbyte, hfetch⟩ := h.fetchOpcode hl
  have hop : d.decoded = c.decoded := by
    unfold decoded
    rw [hbyte]
  have hrun : Agree loose longest (k + 6) (c.fetched.execute c.decoded)
      (d.fetched.execute d.decoded) := by
    rw [hop]
    exact (hfetch.report _ _).execute hl c.decoded
  have hlocked : (d.fetched.execute d.decoded).cpu.activity =
      (c.fetched.execute c.decoded).cpu.activity := by rw [hrun.cpu]
  rw [runInstruction_eq, runInstruction_eq, hlocked, h.cpu]
  split
  · exact hrun.report _ _
  · exact hrun.withCpu (congrArg (fun u : Cpu =>
      { u with
        ime := u.ime || (c.cpu.eiDelay == 1 && u.eiDelay > 0)
        eiDelay := u.eiDelay - 1 }) hrun.cpu)

theorem act : Agree loose longest (k + 6) c.act d.act := by
  unfold Core.act
  rw [h.cpu, hl.buttonHeld h.bus]
  cases c.cpu.activity with
  | running => exact h.runInstruction hl
  | halted | locked => exact ((h.tickLoose hl).mono (by omega)).loosen hl
  | stopped =>
    dsimp only
    split
    · exact (h.setActivity .running).runInstruction hl
    · -- a stopped CPU lets time pass without a bus cycle; one more than pays for it
      have hidle := hl.idle
      have hb := h.bound
      refine ⟨rfl, congrArg (· + idleDots) h.dots, ?_, h.bus⟩
      have hmore : longest * (k + 1) ≤ longest * (k + 6) := Nat.mul_le_mul_left _ (by omega)
      rw [Nat.mul_succ] at hmore
      dsimp only
      omega

end

end Agree

/-- **A step does the same on both buses**, in eleven bus cycles at most. -/
theorem step_agree [Bus β] [Bus γ] {settled loose : β → γ → Prop} {longest : Nat}
    (hl : Lockstep settled loose longest) (cpu : Cpu) {b : β} {g : γ} (h : loose b g) :
    Agree loose longest 11 (cpu.step b) (cpu.step g) := by
  have hstart : Agree loose longest 0 { cpu, bus := b } { cpu, bus := g } :=
    ⟨rfl, rfl, Nat.le_refl 0, h⟩
  exact (hstart.act hl).service hl

end Core

end Handheld
