import Handheld.Proofs.Cpu.Cost

/-!
# Instructions touch what they name

Which registers and flags an instruction may change, and where it stores, can be read off the
instruction and its operands. Everything else stays.

* `Instruction.effects`, `BitInstruction.effects`: what an instruction names; `Core.effects`.
* `Core.stores`: the addresses that it writes, in order, at the operands that it finds.
* `Frame`: registers that differ within such effects at most.
* `Core.Touches`: work with its frame and its writes; `execute_touches`: of every instruction.
* `effects_named` (every bus, every running CPU): a step up to its interrupt check.
-/

namespace Handheld

/-- The names of the condition flags. -/
inductive Flag where
  | zero
  | subtract
  | halfCarry
  | carry
  deriving DecidableEq

def Flags.get (f : Flags) : Flag → Bool
  | .zero => f.zero
  | .subtract => f.subtract
  | .halfCarry => f.halfCarry
  | .carry => f.carry

def Flag.all : List Flag := [.zero, .subtract, .halfCarry, .carry]

theorem Flag.mem_all (n : Flag) : n ∈ all := by
  cases n <;> decide

/-- **What an instruction may change** of the CPU, besides the program counter. -/
structure Effects where
  registers : List Reg8 := []
  /-- The stack pointer. -/
  stack : Bool := false
  flags : List Flag := []

def Operand.registers : Operand → List Reg8
  | reg r => [r]
  | atHL => []

def Reg16.registers : Reg16 → List Reg8
  | bc => [.b, .c]
  | de => [.d, .e]
  | hl => [.h, .l]
  | sp => []

def StackPair.registers : StackPair → List Reg8
  | bc => [.b, .c]
  | de => [.d, .e]
  | hl => [.h, .l]
  | af => [.a]

/-- The registers of a pointer that moves on. -/
def Pointer.registers : Pointer → List Reg8
  | bc | de => []
  | hlInc | hlDec => [.h, .l]

/-- A comparison drops its result. -/
def AluOp.registers : AluOp → List Reg8
  | cp => []
  | _ => [.a]

/-- The effects of the base page. -/
def Instruction.effects : Instruction → Effects
  | ld dst _ | ldImm dst => { registers := dst.registers }
  | ld16Imm dst | inc16 dst | dec16 dst => { registers := dst.registers, stack := dst = .sp }
  | storeA p => { registers := p.registers }
  | loadA p => { registers := .a :: p.registers }
  | loadAAbs | loadAHighImm | loadAHighC => { registers := [.a] }
  | ldHLOffsetSP => { registers := [.h, .l], flags := Flag.all }
  | ldSPHL => { stack := true }
  | inc dst | dec dst => { registers := dst.registers, flags := [.zero, .subtract, .halfCarry] }
  | addHL _ => { registers := [.h, .l], flags := [.subtract, .halfCarry, .carry] }
  | addSPOffset => { stack := true, flags := Flag.all }
  | alu op _ | aluImm op => { registers := op.registers, flags := Flag.all }
  | rotateA _ => { registers := [.a], flags := Flag.all }
  | daa => { registers := [.a], flags := [.zero, .halfCarry, .carry] }
  | cpl => { registers := [.a], flags := [.subtract, .halfCarry] }
  | scf | ccf => { flags := [.subtract, .halfCarry, .carry] }
  | call _ | ret _ | reti | rst _ | push _ => { stack := true }
  | pop dst =>
    { registers := dst.registers, stack := true, flags := if dst = .af then Flag.all else [] }
  | nop | stop | halt | di | ei | storeSPAbs | storeAAbs | storeAHighImm | storeAHighC | jr _ | jp _
  | jpHL | bitPage | undefined => {}

/-- The effects of the bit page. -/
def BitInstruction.effects : BitInstruction → Effects
  | shift _ dst => { registers := dst.registers, flags := Flag.all }
  | bit _ _ => { flags := [.zero, .subtract, .halfCarry] }
  | res _ dst | set _ dst => { registers := dst.registers }

/-- Other instructions leave the interrupt mask to an EI that takes effect. -/
theorem Instruction.mask_of_other {i : Instruction} (h : i ∉ [di, ei, reti, undefined])
    (ime : Bool) (delay : Nat) :
    i.imeAfter ime delay = (ime || delay == 1) ∧ i.eiDelayAfter delay = delay - 1 := by
  cases i with
  | di | ei | reti | undefined => exact absurd (by decide) h
  | _ => exact ⟨rfl, rfl⟩

/-- Where storing an operand writes. -/
def Operand.stores (r : Registers) : Operand → List UInt16
  | reg _ => []
  | atHL => [r.hl]

def Pointer.address (r : Registers) : Pointer → UInt16
  | bc => r.bc
  | de => r.de
  | hlInc | hlDec => r.hl

/-- Where the two bytes of a push go. -/
def Registers.pushes (r : Registers) : List UInt16 := [r.sp - 1, r.sp - 1 - 1]

def BitInstruction.stores (r : Registers) : BitInstruction → List UInt16
  | shift _ dst | res _ dst | set _ dst => dst.stores r
  | bit _ _ => []

namespace Core

variable {β : Type} [Bus β]

/-- The effects of an instruction that has been read, of either page. -/
def effects (c : Core β) : Instruction → Effects
  | .bitPage => (decodeBit c.fetch8.1).op.effects
  | i => i.effects

/-- **The addresses that an instruction writes**, once it has been read. -/
def stores (c : Core β) : Instruction → List UInt16
  | .ld dst _ | .ldImm dst | .inc dst | .dec dst => dst.stores c.registers
  | .storeA p => [p.address c.registers]
  | .storeSPAbs => [c.fetch16.1, c.fetch16.1 + 1]
  | .storeAAbs => [c.fetch16.1]
  | .storeAHighImm => [highPage c.fetch8.1]
  | .storeAHighC => [highPage c.registers.c]
  | .call cond => if Condition.allows c.registers.flags cond then c.registers.pushes else []
  | .rst _ | .push _ => c.registers.pushes
  | .bitPage => (decodeBit c.fetch8.1).op.stores c.registers
  | _ => []

theorem stores_call (c : Core β) (cond : Option Condition) :
    c.stores (.call cond) =
      if Condition.allows c.registers.flags cond then c.registers.pushes else [] :=
  rfl

/-- True for the instructions that look at an operand only: CP and BIT. -/
def compares (c : Core β) : Instruction → Bool
  | .alu .cp _ | .aluImm .cp => true
  | .bitPage =>
    match (decodeBit c.fetch8.1).op with
    | .bit _ _ => true
    | _ => false
  | _ => false

end Core

/-- **The registers differ within the effects at most**, but for the program counter. -/
structure Frame (e : Effects) (r s : Registers) : Prop where
  register : ∀ n ∉ e.registers, s.get8 n = r.get8 n
  stack : e.stack = false → s.sp = r.sp
  flag : ∀ n ∉ e.flags, s.flags.get n = r.flags.get n

namespace Frame

variable {e : Effects} {r s t : Registers}

theorem refl (e : Effects) (r : Registers) : Frame e r r :=
  ⟨fun _ _ => rfl, fun _ => rfl, fun _ _ => rfl⟩

theorem trans (h : Frame e r s) (h' : Frame e s t) : Frame e r t where
  register n hn := (h'.register n hn).trans (h.register n hn)
  stack he := (h'.stack he).trans (h.stack he)
  flag n hn := (h'.flag n hn).trans (h.flag n hn)

theorem pc (e : Effects) (r : Registers) (w : UInt16) : Frame e r { r with pc := w } :=
  ⟨fun _ _ => rfl, fun _ => rfl, fun _ _ => rfl⟩

theorem sp (he : e.stack = true) (r : Registers) (w : UInt16) : Frame e r { r with sp := w } :=
  ⟨fun _ _ => rfl, fun h => (by rw [he] at h; cases h), fun _ _ => rfl⟩

theorem flags (r : Registers) {f : Flags} (hf : ∀ n ∉ e.flags, f.get n = r.flags.get n) :
    Frame e r { r with flags := f } :=
  ⟨fun _ _ => rfl, fun _ => rfl, hf⟩

theorem set8 {n : Reg8} (hn : n ∈ e.registers) (r : Registers) (v : UInt8) :
    Frame e r (r.set8 n v) := by
  refine ⟨?_, fun _ => (by cases n <;> rfl), fun _ _ => (by cases n <;> rfl)⟩
  intro m hm
  have hne : m ≠ n := fun h => hm (h ▸ hn)
  cases n <;> cases m <;> first | rfl | exact absurd rfl hne

/-- A word in a pair of registers. -/
theorem pair {m n : Reg8} (hm : m ∈ e.registers) (hn : n ∈ e.registers) (r : Registers)
    (w : UInt16) : Frame e r ((r.set8 m (highByte w)).set8 n (lowByte w)) :=
  (set8 hm r _).trans (set8 hn _ _)

theorem set16 {n : Reg16} (hn : n.registers ⊆ e.registers) (hsp : n = .sp → e.stack = true)
    (r : Registers) (w : UInt16) : Frame e r (r.set16 n w) := by
  cases n with
  | bc => exact pair (m := .b) (n := .c) (hn (by decide)) (hn (by decide)) r w
  | de => exact pair (m := .d) (n := .e) (hn (by decide)) (hn (by decide)) r w
  | hl => exact pair (m := .h) (n := .l) (hn (by decide)) (hn (by decide)) r w
  | sp => exact sp (hsp rfl) r w

theorem setPair {n : StackPair} (hn : n.registers ⊆ e.registers)
    (hf : n = .af → e.flags = Flag.all) (r : Registers) (w : UInt16) :
    Frame e r (r.setPair n w) := by
  cases n with
  | bc => exact set16 (n := .bc) hn nofun r w
  | de => exact set16 (n := .de) hn nofun r w
  | hl => exact set16 (n := .hl) hn nofun r w
  | af =>
    refine (set8 (n := .a) (hn (by decide)) r _).trans (flags _ ?_)
    intro n hn
    rw [hf rfl] at hn
    exact absurd n.mem_all hn

/-- Another stack pointer, with flags. -/
theorem moved (he : e.stack = true) (r : Registers) (w : UInt16) {f : Flags}
    (hf : ∀ n ∉ e.flags, f.get n = r.flags.get n) : Frame e r { r with sp := w, flags := f } :=
  (sp he r w).trans (flags _ hf)

/-- A word in HL, with flags. -/
theorem word (hn : [.h, .l] ⊆ e.registers) (r : Registers) (w : UInt16) {f : Flags}
    (hf : ∀ n ∉ e.flags, f.get n = r.flags.get n) :
    Frame e r { r.setHL w with flags := f } :=
  (set16 (n := .hl) hn nofun r w).trans (flags _ hf)

/-- Without effects on registers nothing changes but the program counter and the flags. -/
theorem eq_of_registers (h : Frame e r s) (hr : e.registers = []) (hs : e.stack = false) :
    s = { r with pc := s.pc, flags := s.flags } := by
  have hget (n : Reg8) : s.get8 n = r.get8 n := h.register n (by rw [hr]; exact List.not_mem_nil)
  have hsp := h.stack hs
  obtain ⟨a, f, b, c, d, e, hh, l, sp, pc⟩ := s
  have ha := hget .a
  have hb := hget .b
  have hc := hget .c
  have hd := hget .d
  have he := hget .e
  have hhh := hget .h
  have hl := hget .l
  simp only [Registers.get8] at *
  subst_vars
  rfl

end Frame

/-! ## Work with its effects -/

/-- The address of a write. -/
def Access.written? : Access → Option UInt16
  | write addr _ => some addr
  | _ => none

namespace Core

variable {β : Type}

/-- The addresses written so far, oldest first. -/
def written (c : Core (Traced β)) : List UInt16 := c.bus.accesses.filterMap Access.written?

/-- **Work within effects**: from `c` to `d` the registers differ within `e` at most, and the
addresses `l` are written. -/
structure Touches (e : Effects) (l : List UInt16) (c d : Core (Traced β)) : Prop where
  frame : Frame e c.registers d.registers
  written : d.written = c.written ++ l

namespace Touches

variable {e : Effects} {l m : List UInt16} {c d : Core (Traced β)}

theorem of_eq (h : Touches e l c d) (hl : l = m) : Touches e m c d := hl ▸ h

theorem start (e : Effects) (c : Core (Traced β)) : Touches e [] c c :=
  ⟨.refl e _, (List.append_nil _).symm⟩

theorem trans {d' : Core (Traced β)} (h : Touches e l c d) (h' : Touches e m d d') :
    Touches e (l ++ m) c d' := by
  refine ⟨h.frame.trans h'.frame, ?_⟩
  rw [h'.written, h.written, List.append_assoc]

theorem modify (h : Touches e l c d) (f : Registers → Registers)
    (hf : Frame e d.registers (f d.registers)) : Touches e l c (d.modify f) :=
  ⟨h.frame.trans hf, h.written⟩

theorem setPC (h : Touches e l c d) (w : UInt16) : Touches e l c (d.setPC w) :=
  h.modify ({ · with pc := w }) (.pc e _ w)

theorem setSP (h : Touches e l c d) (he : e.stack = true) (w : UInt16) :
    Touches e l c (d.setSP w) :=
  h.modify ({ · with sp := w }) (.sp he _ w)

theorem setA (h : Touches e l c d) (ha : .a ∈ e.registers) (v : UInt8) :
    Touches e l c (d.setA v) :=
  h.modify ({ · with a := v }) (.set8 ha _ v)

theorem setFlags (h : Touches e l c d) {f : Flags}
    (hf : ∀ n ∉ e.flags, f.get n = d.registers.flags.get n) : Touches e l c (d.setFlags f) :=
  h.modify ({ · with flags := f }) (.flags _ hf)

theorem setResult (h : Touches e l c d) {r : UInt8 × Flags}
    (ha : .a ∉ e.registers → r.1 = d.registers.a)
    (hf : ∀ n ∉ e.flags, r.2.get n = d.registers.flags.get n) :
    Touches e l c (d.setResult r) := by
  refine h.modify ({ · with a := r.1, flags := r.2 }) ⟨?_, fun _ => rfl, hf⟩
  intro n hn
  cases n with
  | a => exact ha hn
  | b | c | d | e | h | l => rfl

theorem pointer (h : Touches e l c d) {p : Pointer} (hp : p.registers ⊆ e.registers) :
    Touches e l c (d.pointer p).2 := by
  cases p with
  | bc | de => exact h
  | hlInc => exact h.modify (fun r => r.setHL (r.hl + 1)) (.set16 (n := .hl) hp nofun _ _)
  | hlDec => exact h.modify (fun r => r.setHL (r.hl - 1)) (.set16 (n := .hl) hp nofun _ _)

/-- Accesses to the bus leave the registers alone. -/
theorem accesses (h : Touches e l c d) (d' : Core (Traced β)) (a : Access)
    (hr : d'.registers = d.registers) (ha : d'.bus.accesses = d.bus.accesses ++ [a]) :
    Touches e (l ++ a.written?.toList) c d' := by
  refine ⟨hr ▸ h.frame, ?_⟩
  have hd : d.bus.accesses.filterMap Access.written? = c.written ++ l := h.written
  have hone : [a].filterMap Access.written? = a.written?.toList := by
    cases a <;> rfl
  rw [Core.written, ha, List.filterMap_append, hd, hone, List.append_assoc]

section

variable [Bus β]

theorem tick (h : Touches e l c d) : Touches e l c d.tick :=
  (h.accesses d.tick .tick rfl rfl).of_eq (List.append_nil l)

theorem read (h : Touches e l c d) (addr : UInt16) : Touches e l c (d.read addr).2 := by
  have hread := h.accesses { d with bus := (Bus.read8 d.bus addr).2 }
    (.read addr (d.read addr).1) rfl rfl
  exact (hread.of_eq (List.append_nil l)).tick

theorem write (h : Touches e l c d) (addr : UInt16) (v : UInt8) :
    Touches e (l ++ [addr]) c (d.write addr v) := by
  have hwrite := h.accesses
    { d with
      bus := (Bus.write8 d.bus addr v).value
      events := Logged.join d.events (Bus.write8 d.bus addr v).events }
    (.write addr v) rfl rfl
  exact hwrite.tick

theorem fetch8 (h : Touches e l c d) : Touches e l c d.fetch8.2 := (h.read d.registers.pc).setPC _

theorem fetch16 (h : Touches e l c d) : Touches e l c d.fetch16.2 := h.fetch8.fetch8

theorem load (h : Touches e l c d) (o : Operand) : Touches e l c (d.load o).2 := by
  cases o with
  | reg r => exact h
  | atHL => exact h.read _

theorem store (h : Touches e l c d) {o : Operand} (ho : o.registers ⊆ e.registers) (v : UInt8) :
    Touches e (l ++ o.stores d.registers) c (d.store o v) := by
  cases o with
  | reg r =>
    have hr : r ∈ e.registers := ho (List.mem_singleton.2 rfl)
    exact (h.modify (·.set8 r v) (.set8 hr _ v)).of_eq (List.append_nil l).symm
  | atHL => exact h.write d.registers.hl v

theorem pushByte (h : Touches e l c d) (he : e.stack = true) (v : UInt8) :
    Touches e (l ++ [d.registers.sp - 1]) c (d.pushByte v) :=
  (h.setSP he _).write (d.registers.sp - 1) v

theorem popByte (h : Touches e l c d) (he : e.stack = true) : Touches e l c d.popByte.2 :=
  (h.read d.registers.sp).setSP he _

theorem push (h : Touches e l c d) (he : e.stack = true) (w : UInt16) :
    Touches e (l ++ d.registers.pushes) c (d.push w) :=
  ((h.pushByte he (highByte w)).pushByte he (lowByte w)).of_eq (List.append_assoc ..)

theorem pop (h : Touches e l c d) (he : e.stack = true) : Touches e l c d.pop.2 :=
  (h.popByte he).popByte he

theorem returnFrom (h : Touches e l c d) (he : e.stack = true) : Touches e l c d.returnFrom :=
  ((h.pop he).setPC d.pop.1).tick

theorem update (h : Touches e l c d) {o : Operand} (ho : o.registers ⊆ e.registers)
    {f : UInt8 → Flags → UInt8 × Flags}
    (hf : ∀ v g, ∀ n ∉ e.flags, (f v g).2.get n = g.get n) :
    Touches e (l ++ o.stores d.registers) c (d.update o f) := by
  have hflags := (h.load o).setFlags (hf (d.load o).1 (d.load o).2.registers.flags)
  -- neither the operand nor the flags move HL
  cases o with
  | reg r => exact hflags.store ho _
  | atHL => exact hflags.store ho _

end

end Touches

/-! ## Instructions -/

section Flags

variable {f g : Flags}

theorem get_of_carry (h : g.carry = f.carry) :
    ∀ n ∉ [Flag.zero, .subtract, .halfCarry], g.get n = f.get n := by
  intro n hn
  cases n with
  | carry => exact h
  | zero | subtract | halfCarry => exact absurd (by decide) hn

theorem get_of_zero (h : g.zero = f.zero) :
    ∀ n ∉ [Flag.subtract, .halfCarry, .carry], g.get n = f.get n := by
  intro n hn
  cases n with
  | zero => exact h
  | subtract | halfCarry | carry => exact absurd (by decide) hn

theorem get_of_subtract (h : g.subtract = f.subtract) :
    ∀ n ∉ [Flag.zero, .halfCarry, .carry], g.get n = f.get n := by
  intro n hn
  cases n with
  | subtract => exact h
  | zero | halfCarry | carry => exact absurd (by decide) hn

theorem get_of_zero_carry (hz : g.zero = f.zero) (hc : g.carry = f.carry) :
    ∀ n ∉ [Flag.subtract, .halfCarry], g.get n = f.get n := by
  intro n hn
  cases n with
  | zero => exact hz
  | carry => exact hc
  | subtract | halfCarry => exact absurd (by decide) hn

theorem get_of_all : ∀ n ∉ Flag.all, g.get n = f.get n :=
  fun n hn => absurd n.mem_all hn

end Flags

theorem decimalAdjust_subtract (a : UInt8) (f : Flags) :
    (Alu.decimalAdjust a f).2.subtract = f.subtract := by
  unfold Alu.decimalAdjust
  cases f.subtract <;> rfl

/-- A comparison leaves the accumulator as it was. -/
theorem apply_unnamed {op : AluOp} (h : .a ∉ op.registers) (a b : UInt8) (f : Flags) :
    (Alu.apply op a b f).1 = a := by
  cases op with
  | cp => rfl
  | add | adc | sub | sbc | and | xor | or => exact absurd List.mem_cons_self h

variable [Bus β]

theorem stop_touches (e : Effects) (c : Core (Traced β)) : Touches e [] c c.stop := by
  obtain ⟨a, -, hcpu⟩ := stop_cpu c
  obtain ⟨-, rest, haccesses, hrest⟩ := stop_accesses c
  have hnone : rest.filterMap Access.written? = [] := by
    rw [List.filterMap_eq_nil_iff]
    intro a ha
    rcases hrest a ha with rfl | rfl <;> rfl
  refine ⟨?_, ?_⟩
  · show Frame e c.registers c.stop.cpu.registers
    rw [hcpu]
    exact .pc e c.registers _
  · rw [written, haccesses, List.filterMap_append, hnone]
    rfl

theorem executeBit_touches (c : Core (Traced β)) (b : BitInstruction) :
    Touches b.effects (b.stores c.registers) c (c.executeBit b) := by
  have h := Touches.start b.effects c
  cases b with
  | shift op dst =>
    exact h.update (f := Alu.shift op) (List.Subset.refl _) fun _ _ => get_of_all
  | bit k src =>
    have hcarry := get_of_carry (f := (c.load src).2.registers.flags)
      (g := Alu.testBit k (c.load src).1 (c.load src).2.registers.flags) rfl
    exact (h.load src).setFlags hcarry
  | res k dst | set k dst =>
    have hstored := (h.load dst).store (List.Subset.refl _)
    cases dst <;> exact hstored _

/-- **Every instruction touches what it names.** -/
theorem execute_touches (c : Core (Traced β)) (i : Instruction) :
    Touches (c.effects i) (c.stores i) c (c.execute i) := by
  have h := Touches.start (c.effects i) c
  cases i with
  | nop | di | ei | undefined => exact ⟨h.frame, h.written⟩
  | stop => exact stop_touches _ c
  | halt =>
    simp only [execute, halt]
    split <;> exact ⟨h.frame, h.written⟩
  | ld dst src =>
    have hstored := (h.load src).store (List.Subset.refl _) (c.load src).1
    cases src <;> exact hstored
  | ldImm dst => exact h.fetch8.store (List.Subset.refl _) c.fetch8.1
  | ld16Imm dst =>
    exact h.fetch16.modify (·.set16 dst c.fetch16.1)
      (.set16 (List.Subset.refl _) decide_eq_true _ _)
  | storeA p =>
    have hmoved := h.pointer (List.Subset.refl p.registers)
    have hstored := hmoved.write (c.pointer p).1 (c.pointer p).2.registers.a
    cases p <;> exact hstored
  | loadA p =>
    have hmoved := h.pointer (p := p) (List.subset_cons_self _ _)
    exact (hmoved.read (c.pointer p).1).setA List.mem_cons_self _
  | storeSPAbs => exact (h.fetch16.write c.fetch16.1 _).write _ _
  | storeAAbs => exact h.fetch16.write _ _
  | loadAAbs => exact (h.fetch16.read c.fetch16.1).setA List.mem_cons_self _
  | storeAHighImm => exact h.fetch8.write _ _
  | loadAHighImm => exact (h.fetch8.read (highPage c.fetch8.1)).setA List.mem_cons_self _
  | storeAHighC => exact h.write _ _
  | loadAHighC => exact (h.read (highPage c.registers.c)).setA List.mem_cons_self _
  | ldHLOffsetSP =>
    simp only [execute]
    exact (h.fetch8.modify _ (.word (List.Subset.refl _) _ _ get_of_all)).tick
  | ldSPHL => exact (h.setSP rfl c.registers.hl).tick
  | inc dst => exact h.update (f := Alu.inc) (List.Subset.refl _) fun _ _ => get_of_carry rfl
  | dec dst => exact h.update (f := Alu.dec) (List.Subset.refl _) fun _ _ => get_of_carry rfl
  | inc16 dst =>
    exact (h.modify (fun r => r.set16 dst (r.get16 dst + 1))
      (.set16 (List.Subset.refl _) decide_eq_true _ _)).tick
  | dec16 dst =>
    exact (h.modify (fun r => r.set16 dst (r.get16 dst - 1))
      (.set16 (List.Subset.refl _) decide_eq_true _ _)).tick
  | addHL src =>
    have hzero := get_of_zero (f := c.registers.flags)
      (g := (Alu.add16 c.registers.hl (c.registers.get16 src) c.registers.flags).2) rfl
    simp only [execute]
    exact (h.modify _ (.word (List.Subset.refl _) _ _ hzero)).tick
  | addSPOffset =>
    simp only [execute]
    exact (h.fetch8.modify _ (.moved rfl _ _ get_of_all)).tick.tick
  | alu op src =>
    exact (h.load src).setResult (r := Alu.apply op _ (c.load src).1 _)
      (fun ha => apply_unnamed ha _ _ _) get_of_all
  | aluImm op =>
    exact h.fetch8.setResult (r := Alu.apply op _ c.fetch8.1 _)
      (fun ha => apply_unnamed ha _ _ _) get_of_all
  | rotateA r => exact h.setResult (fun ha => absurd List.mem_cons_self ha) get_of_all
  | daa =>
    exact h.setResult (fun ha => absurd List.mem_cons_self ha)
      (get_of_subtract (decimalAdjust_subtract _ _))
  | cpl =>
    exact h.setResult (fun ha => absurd List.mem_cons_self ha) (get_of_zero_carry rfl rfl)
  | scf => exact h.setFlags (f := Alu.setCarry c.registers.flags) (get_of_zero rfl)
  | ccf => exact h.setFlags (f := Alu.flipCarry c.registers.flags) (get_of_zero rfl)
  | jr cond =>
    rw [execute_jr]
    split
    · exact (h.fetch8.setPC _).tick
    · exact h.fetch8
  | jp cond =>
    rw [execute_jp]
    split
    · exact (h.fetch16.setPC _).tick
    · exact h.fetch16
  | jpHL => exact h.setPC c.registers.hl
  | call cond =>
    rw [execute_call, stores_call]
    split
    · exact (h.fetch16.tick.push rfl _).setPC _
    · exact h.fetch16
  | ret cond =>
    cases cond with
    | none => exact h.returnFrom rfl
    | some k =>
      rw [execute_ret]
      split
      · exact h.tick.returnFrom rfl
      · exact h.tick
  | reti =>
    have hreturned := h.returnFrom rfl
    exact ⟨hreturned.frame, hreturned.written⟩
  | rst target => exact (h.tick.push rfl c.tick.registers.pc).setPC target.toUInt16
  | push src => exact h.tick.push rfl (c.tick.registers.getPair src)
  | pop dst =>
    exact (h.pop rfl).modify (·.setPair dst c.pop.1)
      (.setPair (List.Subset.refl _) (fun hd => if_pos hd) _ _)
  | bitPage => exact h.fetch8.trans (executeBit_touches c.fetch8.2 (decodeBit c.fetch8.1).op)

theorem fetched_touches (e : Effects) (c : Core (Traced β)) : Touches e [] c c.fetched := by
  refine ⟨?_, ?_⟩
  · rw [fetched_registers]
    exact .pc e c.registers _
  · rw [written, fetched_accesses, List.filterMap_append]
    rfl

theorem runInstruction_touches (c : Core (Traced β)) :
    Touches (c.fetched.effects c.decoded) (c.fetched.stores c.decoded) c c.runInstruction := by
  have h := (fetched_touches _ c).trans (execute_touches c.fetched c.decoded)
  -- hanging and an EI that takes effect are not the instruction's doing
  rw [runInstruction_eq]
  split <;> exact ⟨h.frame, h.written⟩

/-- The operand bytes are those on the bus inside. -/
theorem untrace_operands (c : Core (Traced β)) :
    c.untrace.fetch8.1 = c.fetch8.1 ∧ c.untrace.fetch16.1 = c.fetch16.1 :=
  ⟨congrArg Prod.fst (seen_fetch8 traced_shows c), congrArg Prod.fst (seen_fetch16 traced_shows c)⟩

theorem untrace_effects (c : Core (Traced β)) (i : Instruction) :
    c.untrace.effects i = c.effects i := by
  obtain ⟨hbyte, -⟩ := c.untrace_operands
  cases i with
  | bitPage => exact congrArg (fun v => (decodeBit v).op.effects) hbyte
  | _ => rfl

theorem untrace_stores (c : Core (Traced β)) (i : Instruction) :
    c.untrace.stores i = c.stores i := by
  obtain ⟨hbyte, hword⟩ := c.untrace_operands
  cases i with
  | storeSPAbs => exact congrArg (fun w => [w, w + 1]) hword
  | storeAAbs => exact congrArg (fun w => [w]) hword
  | storeAHighImm => exact congrArg (fun v => [highPage v]) hbyte
  | bitPage => exact congrArg (fun v => (decodeBit v).op.stores c.registers) hbyte
  | _ => rfl

/-- An instruction that compares names no place for a result. -/
theorem compares_names {c : Core β} {i : Instruction} (h : c.compares i = true) :
    (c.effects i).registers = [] ∧ (c.effects i).stack = false ∧ c.stores i = [] := by
  cases i with
  | alu op src | aluImm op =>
    cases op with
    | cp => exact ⟨rfl, rfl, rfl⟩
    | _ => cases h
  | bitPage =>
    unfold compares at h
    unfold effects stores
    cases hb : (decodeBit c.fetch8.1).op with
    | bit k src => exact ⟨rfl, rfl, rfl⟩
    | _ => simp only [hb] at h; cases h
  | _ => cases h

/-- **A step of a running CPU, up to its interrupt check, touches what its instruction names.** The
registers and flags outside its effects stay, and the addresses that it writes are those of its
operands, in order; the trace that shows them does not change the step. A comparison leaves all but
the flags. The interrupt master enable and the delay of EI are left to DI, EI and RETI, and to an
EI that takes effect. -/
theorem effects_named (cpu : Cpu) (bus : β) (hrun : cpu.activity = .running) :
    let c : Core β := { cpu, bus }
    let start : Core (Traced β) := { cpu, bus := { bus } }
    start.act.untrace = c.act ∧
      Frame (c.fetched.effects c.decoded) cpu.registers c.act.registers ∧
      start.act.written = c.fetched.stores c.decoded ∧
      (c.fetched.compares c.decoded = true →
        c.act.registers =
            { cpu.registers with
              pc := c.act.registers.pc, flags := c.act.registers.flags } ∧
          start.act.written = []) ∧
      (c.decoded ∉ [.di, .ei, .reti, .undefined] →
        c.act.cpu.ime = (cpu.ime || cpu.eiDelay == 1) ∧
          c.act.cpu.eiDelay = cpu.eiDelay - 1) := by
  intro c start
  have hc : start.untrace = c := rfl
  have hact : start.act = start.runInstruction := by
    simp only [act, start, hrun]
  have hsame : start.act.untrace = c.act := by rw [untrace_act, hc]
  have hregisters : start.act.registers = c.act.registers := by rw [← hsame]; rfl
  obtain ⟨hframe, hwritten⟩ := runInstruction_touches start
  rw [← hact, ← untrace_effects, ← untrace_fetched, ← untrace_decoded, hc, hregisters] at hframe
  rw [← hact, ← untrace_stores, ← untrace_fetched, ← untrace_decoded, hc] at hwritten
  have hwritten : start.act.written = c.fetched.stores c.decoded := hwritten
  refine ⟨hsame, hframe, hwritten, ?_, ?_⟩
  · intro hcompares
    obtain ⟨hnone, hstack, hstores⟩ := compares_names hcompares
    exact ⟨hframe.eq_of_registers hnone hstack, hwritten.trans hstores⟩
  · intro hother
    have hready : c.instruction? = some c.decoded := if_pos (by simp [ready, c, hrun])
    obtain ⟨hime, hdelay⟩ := act_mask hready
    obtain ⟨hime', hdelay'⟩ := c.decoded.mask_of_other hother cpu.ime cpu.eiDelay
    exact ⟨hime.trans hime', hdelay.trans hdelay'⟩

/-- A flat bus with LD (HL+),A at the entry point. -/
def storeAtEntry : FlatBus := ({} : FlatBus).poke 0x100 0x22

/-- It writes where HL points, moves HL on and keeps the accumulator, SP and the flags. -/
theorem effects_named_storeAtEntry :
    let cpu := Cpu.afterBoot .mono true
    let c : Core FlatBus := { cpu, bus := storeAtEntry }
    let start : Core (Traced FlatBus) := { cpu, bus := { bus := storeAtEntry } }
    cpu.activity = .running ∧ c.decoded = .storeA .hlInc ∧
      start.act.written = [0x014D] ∧ c.act.registers.a = 0x01 ∧ c.act.registers.sp = 0xFFFE ∧
      c.act.registers.flags.get .carry = true ∧ c.act.cpu.ime = false := by
  intro cpu c start
  obtain ⟨-, hframe, hwritten, -, hmask⟩ := effects_named cpu storeAtEntry rfl
  have hdecoded : c.decoded = .storeA .hlInc := by decide +kernel
  have heffects : c.fetched.effects c.decoded = { registers := [.h, .l] } := by
    rw [hdecoded]
    rfl
  have hstores : c.fetched.stores c.decoded = [0x014D] := by decide +kernel
  rw [heffects] at hframe
  refine ⟨rfl, hdecoded, hwritten.trans hstores, ?_, ?_, ?_, ?_⟩
  · exact (hframe.register .a (by decide)).trans (by decide)
  · exact (hframe.stack rfl).trans (by decide)
  · exact (hframe.flag .carry (by decide)).trans (by decide)
  · exact (hmask (by rw [hdecoded]; decide)).1.trans (by decide)

end Core

end Handheld
