import Handheld.Cpu.FlatBus
import Handheld.Proofs.Cpu.Work

/-!
# The stack

A push stores the high byte of a word below the stack pointer and the low byte below that; a pop
reads them back in the opposite order. On flat memory the stack is last-in first-out, as long as it
keeps away from the two interrupt registers.

* `FlatBus.Plain`: the addresses that are memory.
* `Core.Stacked`: the words on the stack, from the stack pointer upwards.
* `push_stacked`, `pop_word`: a push puts a word on top of the others, a pop finds the one on top.
* `pushAll_stacked`, `popTimes_stacked`: so do many of them.
* `Core.Saves`: the instructions, and the entry into a handler, that leave a word on the stack.
* `last_in_first_out`: what was pushed last is popped first, by any instructions.
-/

namespace Handheld

namespace FlatBus

variable {b d e : FlatBus} {addr : UInt16}

/-- The address is memory, not an interrupt register. -/
def Plain (addr : UInt16) : Prop := addr ≠ 0xFF0F ∧ addr ≠ 0xFFFF

instance (addr : UInt16) : Decidable (Plain addr) := inferInstanceAs (Decidable (_ ∧ _))

theorem read_plain (b : FlatBus) (h : Plain addr) : b.read addr = b.peek addr := by
  unfold read
  split
  · exact absurd rfl h.1
  · exact absurd rfl h.2
  · rfl

theorem write_plain (b : FlatBus) (h : Plain addr) (v : UInt8) :
    b.write addr v = b.poke addr v := by
  unfold write
  split
  · exact absurd rfl h.1
  · exact absurd rfl h.2
  · rfl

theorem peek_poke (b : FlatBus) (addr : UInt16) (v : UInt8) (other : UInt16) :
    (b.poke addr v).peek other = if addr = other then v else b.peek other := by
  have hcell : cell addr = cell other ↔ addr = other := by
    rw [← UInt16.toNat_inj]
    exact Fin.ext_iff
  simp only [← hcell, Fin.ext_iff]
  exact Vector.getElem_set (cell addr).isLt (cell other).isLt

theorem peek_tick (b : FlatBus) (addr : UInt16) : b.tick.peek addr = b.peek addr := by
  unfold tick
  split <;> rfl

/-- **The interrupt registers are left alone**, but for a request that was on its way. -/
structure Calm (b d : FlatBus) : Prop where
  enabled : d.interrupts.enabled = b.interrupts.enabled
  quiet : b.scheduled = none → d.interrupts = b.interrupts ∧ d.scheduled = none

theorem Calm.refl (b : FlatBus) : Calm b b := ⟨rfl, fun h => ⟨rfl, h⟩⟩

theorem Calm.trans (h : Calm b d) (h' : Calm d e) : Calm b e := by
  refine ⟨h'.enabled.trans h.enabled, ?_⟩
  intro hb
  obtain ⟨hsame, hd⟩ := h.quiet hb
  obtain ⟨hsame', he⟩ := h'.quiet hd
  exact ⟨hsame'.trans hsame, he⟩

theorem tick_calm (b : FlatBus) : Calm b b.tick := by
  unfold tick
  split
  · exact .refl b
  · rename_i hb
    exact ⟨rfl, fun h => absurd (hb.symm.trans h) (by simp)⟩
  · rename_i hb
    exact ⟨rfl, fun h => absurd (hb.symm.trans h) (by simp)⟩

theorem write_calm (b : FlatBus) (h : Plain addr) (v : UInt8) : Calm b (b.write addr v) := by
  rw [write_plain b h]
  exact ⟨rfl, fun hb => ⟨rfl, hb⟩⟩

/-- What is read is the same where memory is, and in the interrupt registers. -/
theorem Calm.read (h : Calm b d) (hpeek : d.peek addr = b.peek addr)
    (hquiet : addr = 0xFF0F → b.scheduled = none) : d.read addr = b.read addr := by
  unfold FlatBus.read
  split
  · rw [(h.quiet (hquiet rfl)).1]
  · unfold Interrupts.readEnable
    rw [h.enabled]
  · exact hpeek

/-- The word at an address, low byte first. -/
def wordAt (b : FlatBus) (addr : UInt16) : UInt16 := word (b.peek (addr + 1)) (b.peek addr)

end FlatBus

/-- The CPU with another stack pointer. -/
def Cpu.withSP (cpu : Cpu) (sp : UInt16) : Cpu := { cpu with registers.sp := sp }

namespace Core

open FlatBus (Plain Calm)

variable {c d : Core FlatBus} {sp : UInt16}

theorem pushByte_peek (h : Plain (c.registers.sp - 1)) (v : UInt8) (addr : UInt16) :
    (c.pushByte v).bus.peek addr = if c.registers.sp - 1 = addr then v else c.bus.peek addr := by
  show ((c.bus.write (c.registers.sp - 1) v).tick).peek addr = _
  rw [FlatBus.peek_tick, FlatBus.write_plain _ h, FlatBus.peek_poke]

theorem pushByte_calm (h : Plain (c.registers.sp - 1)) (v : UInt8) :
    Calm c.bus (c.pushByte v).bus :=
  (c.bus.write_calm h v).trans (FlatBus.tick_calm _)

theorem sp_sub_two (sp : UInt16) : sp - 1 - 1 = sp - 2 := by grind

theorem push_cpu (c : Core FlatBus) (w : UInt16) :
    (c.push w).cpu = c.cpu.withSP (c.registers.sp - 2) := by
  rw [← sp_sub_two]
  rfl

theorem push_peek (hhigh : Plain (c.registers.sp - 1)) (hlow : Plain (c.registers.sp - 2))
    (w : UInt16) (addr : UInt16) :
    (c.push w).bus.peek addr =
      if c.registers.sp - 2 = addr then lowByte w
      else if c.registers.sp - 1 = addr then highByte w
      else c.bus.peek addr := by
  rw [← sp_sub_two] at hlow ⊢
  unfold push
  rw [pushByte_peek (c := c.pushByte (highByte w)) hlow, pushByte_peek hhigh]
  rfl

theorem push_calm (hhigh : Plain (c.registers.sp - 1)) (hlow : Plain (c.registers.sp - 2))
    (w : UInt16) : Calm c.bus (c.push w).bus := by
  rw [← sp_sub_two] at hlow
  have hsecond := pushByte_calm (c := c.pushByte (highByte w)) hlow (lowByte w)
  exact (pushByte_calm hhigh (highByte w)).trans hsecond

theorem pop_cpu (c : Core FlatBus) : c.pop.2.cpu = c.cpu.withSP (c.registers.sp + 2) := by
  have hsp : c.registers.sp + 1 + 1 = c.registers.sp + 2 := by grind
  rw [← hsp]
  rfl

theorem pop_bus (c : Core FlatBus) : c.pop.2.bus = c.bus.tick.tick := rfl

theorem pop_word (hlow : Plain c.registers.sp) (hhigh : Plain (c.registers.sp + 1)) :
    c.pop.1 = c.bus.wordAt c.registers.sp := by
  show word (c.bus.tick.read (c.registers.sp + 1)) (c.bus.read c.registers.sp) = _
  rw [FlatBus.read_plain _ hlow, FlatBus.read_plain _ hhigh, FlatBus.peek_tick]
  rfl

/-! ## The words on the stack -/

/-- An offset into the stack, once its top word is gone. -/
theorem sp_add_offset (sp : UInt16) (i : Nat) :
    sp + UInt16.ofNat (i + 2) = sp + 2 + UInt16.ofNat i := by
  rw [UInt16.ofNat_add]
  grind

/-- **The words on the stack**, the one on top first. -/
def Stacked (b : FlatBus) (sp : UInt16) : List UInt16 → Prop
  | [] => True
  | w :: ws => b.wordAt sp = w ∧ Stacked b (sp + 2) ws

/-- The stack stays as it is while its bytes do. -/
theorem Stacked.congr {b d : FlatBus} {ws : List UInt16} (h : Stacked b sp ws)
    (hsame : ∀ i, i < 2 * ws.length →
      d.peek (sp + UInt16.ofNat i) = b.peek (sp + UInt16.ofNat i)) : Stacked d sp ws := by
  induction ws generalizing sp with
  | nil => trivial
  | cons w ws ih =>
    obtain ⟨hw, hrest⟩ := h
    refine ⟨?_, ih hrest ?_⟩
    · have hlow := hsame 0 (by simp)
      have hhigh := hsame 1 (by rw [List.length_cons]; omega)
      rw [← hw]
      unfold FlatBus.wordAt
      rw [show sp + UInt16.ofNat 0 = sp by grind] at hlow
      rw [hlow]
      exact congrArg (word · _) hhigh
    · intro i hi
      have hnext := hsame (i + 2) (by rw [List.length_cons]; omega)
      rwa [sp_add_offset] at hnext

/-- Addresses on the stack are not those that the next push stores to, unless it wraps around. -/
theorem below_ne (sp : UInt16) {i j : Nat} (hj : 0 < j) (h : i + j < 0x10000) :
    sp - UInt16.ofNat j ≠ sp + UInt16.ofNat i := by
  intro heq
  have hnat := congrArg UInt16.toNat heq
  rw [UInt16.toNat_sub, UInt16.toNat_add, UInt16.toNat_ofNat', UInt16.toNat_ofNat'] at hnat
  have hsp := sp.toNat_lt
  omega

/-- **A push puts a word on top of the stack.** -/
theorem push_stacked {ws : List UInt16} (hhigh : Plain (c.registers.sp - 1))
    (hlow : Plain (c.registers.sp - 2)) (h : Stacked c.bus c.registers.sp ws)
    (hroom : 2 * (ws.length + 1) ≤ 0x10000) (w : UInt16) :
    Stacked (c.push w).bus (c.registers.sp - 2) (w :: ws) := by
  have hplace : c.registers.sp - 2 + 1 = c.registers.sp - 1 := by grind
  have hapart : c.registers.sp - 2 ≠ c.registers.sp - 1 := by grind
  have hback : c.registers.sp - 2 + 2 = c.registers.sp := by grind
  constructor
  · unfold FlatBus.wordAt
    rw [hplace, push_peek hhigh hlow, push_peek hhigh hlow, if_neg hapart, if_pos rfl, if_pos rfl]
    exact word_highByte_lowByte w
  · rw [hback]
    apply h.congr
    intro i hi
    have hfirst : c.registers.sp - 1 ≠ c.registers.sp + UInt16.ofNat i :=
      below_ne c.registers.sp (by decide) (show i + 1 < 0x10000 by omega)
    have hsecond : c.registers.sp - 2 ≠ c.registers.sp + UInt16.ofNat i :=
      below_ne c.registers.sp (by decide) (show i + 2 < 0x10000 by omega)
    rw [push_peek hhigh hlow, if_neg hsecond, if_neg hfirst]

/-- Pushes the words one after another. -/
def pushAll (c : Core FlatBus) (ws : List UInt16) : Core FlatBus := ws.foldl push c

/-- Pops some words one after another. -/
def popTimes : Nat → Core FlatBus → List UInt16 × Core FlatBus
  | 0, c => ([], c)
  | n + 1, c =>
    let (w, c) := c.pop
    let (ws, c) := popTimes n c
    (w :: ws, c)

/-- The addresses that `n` words take below a stack pointer. -/
def InStack (sp : UInt16) (n : Nat) (addr : UInt16) : Prop :=
  ∃ k, k < 2 * n ∧ addr = sp - 1 - UInt16.ofNat k

/-- There is nothing but memory where `n` words go. -/
def PlainStack (sp : UInt16) (n : Nat) : Prop := ∀ addr, InStack sp n addr → Plain addr

theorem inStack_high (sp : UInt16) (n : Nat) : InStack sp (n + 1) (sp - 1) :=
  ⟨0, by omega, by grind⟩

theorem inStack_low (sp : UInt16) (n : Nat) : InStack sp (n + 1) (sp - 2) :=
  ⟨1, by omega, (sp_sub_two sp).symm⟩

theorem InStack.deeper {n : Nat} {addr : UInt16} (h : InStack (sp - 2) n addr) :
    InStack sp (n + 1) addr := by
  obtain ⟨k, hk, rfl⟩ := h
  refine ⟨k + 2, by omega, ?_⟩
  rw [UInt16.ofNat_add]
  grind

theorem PlainStack.high {n : Nat} (h : PlainStack sp (n + 1)) : Plain (sp - 1) :=
  h _ (inStack_high sp n)

theorem PlainStack.low {n : Nat} (h : PlainStack sp (n + 1)) : Plain (sp - 2) :=
  h _ (inStack_low sp n)

theorem PlainStack.deeper {n : Nat} (h : PlainStack sp (n + 1)) : PlainStack (sp - 2) n :=
  fun addr haddr => h addr haddr.deeper

/-- The same addresses, from the lowest upwards. -/
theorem PlainStack.upwards {n i : Nat} (h : PlainStack sp n) (hi : i < 2 * n) :
    Plain (sp - UInt16.ofNat (2 * n) + UInt16.ofNat i) := by
  apply h
  refine ⟨2 * n - 1 - i, by omega, ?_⟩
  have hsplit : 2 * n = i + (2 * n - 1 - i) + 1 := by omega
  rw [hsplit, UInt16.ofNat_add, UInt16.ofNat_add, ← hsplit]
  grind

/-- The stack pointer after some words were pushed, the first of them by itself. -/
theorem sp_sub_words (sp : UInt16) (n : Nat) :
    sp - 2 - UInt16.ofNat (2 * n) = sp - UInt16.ofNat (2 * (n + 1)) := by
  rw [Nat.mul_add, UInt16.ofNat_add]
  grind

theorem sp_add_words (sp : UInt16) (n : Nat) :
    sp + 2 + UInt16.ofNat (2 * n) = sp + UInt16.ofNat (2 * (n + 1)) := by
  rw [Nat.mul_add, UInt16.ofNat_add]
  grind

theorem push_sp (c : Core FlatBus) (w : UInt16) : (c.push w).registers.sp = c.registers.sp - 2 := by
  unfold registers
  rw [push_cpu]
  rfl

theorem pop_sp (c : Core FlatBus) : c.pop.2.registers.sp = c.registers.sp + 2 := by
  unfold registers
  rw [pop_cpu]
  rfl

theorem pushAll_cpu (c : Core FlatBus) (ws : List UInt16) :
    (c.pushAll ws).cpu = c.cpu.withSP (c.registers.sp - UInt16.ofNat (2 * ws.length)) := by
  induction ws generalizing c with
  | nil =>
    have hsp : c.registers.sp - UInt16.ofNat 0 = c.registers.sp := by grind
    exact (congrArg c.cpu.withSP hsp).symm
  | cons w ws ih =>
    show ((c.push w).pushAll ws).cpu = _
    rw [ih, push_sp, sp_sub_words, push_cpu]
    rfl

theorem popTimes_cpu (c : Core FlatBus) (n : Nat) :
    (popTimes n c).2.cpu = c.cpu.withSP (c.registers.sp + UInt16.ofNat (2 * n)) := by
  induction n generalizing c with
  | zero =>
    have hsp : c.registers.sp + UInt16.ofNat 0 = c.registers.sp := by grind
    exact (congrArg c.cpu.withSP hsp).symm
  | succ n ih =>
    show (popTimes n c.pop.2).2.cpu = _
    rw [ih, pop_sp, sp_add_words, pop_cpu]
    rfl

/-- Popping does not store anything. -/
theorem popTimes_peek (c : Core FlatBus) (n : Nat) (addr : UInt16) :
    (popTimes n c).2.bus.peek addr = c.bus.peek addr := by
  induction n generalizing c with
  | zero => rfl
  | succ n ih =>
    show (popTimes n c.pop.2).2.bus.peek addr = _
    rw [ih, pop_bus, FlatBus.peek_tick, FlatBus.peek_tick]

theorem popTimes_calm (c : Core FlatBus) (n : Nat) : Calm c.bus (popTimes n c).2.bus := by
  induction n generalizing c with
  | zero => exact .refl c.bus
  | succ n ih =>
    exact ((FlatBus.tick_calm c.bus).trans (FlatBus.tick_calm c.bus.tick)).trans (ih c.pop.2)

/-- **Pushed words lie on the stack**, the last of them on top. -/
theorem pushAll_stacked (ws : List UInt16) {below : List UInt16}
    (hplain : PlainStack c.registers.sp ws.length)
    (hroom : 2 * (below.length + ws.length) ≤ 0x10000)
    (h : Stacked c.bus c.registers.sp below) :
    Stacked (c.pushAll ws).bus (c.pushAll ws).registers.sp (ws.reverse ++ below) := by
  -- the words that lie there already are general: each push adds one to them
  induction ws generalizing c below with
  | nil => exact h
  | cons w ws ih =>
    rw [List.length_cons] at hplain hroom
    rw [List.reverse_cons, List.append_assoc, List.singleton_append]
    apply ih (c := c.push w)
    · rw [push_sp]
      exact hplain.deeper
    · rw [List.length_cons]
      omega
    · rw [push_sp]
      exact push_stacked hplain.high hplain.low h (by omega) w

/-- Pushing stores to the stack only. -/
theorem pushAll_peek (ws : List UInt16) (hplain : PlainStack c.registers.sp ws.length)
    {addr : UInt16} (haddr : ¬ InStack c.registers.sp ws.length addr) :
    (c.pushAll ws).bus.peek addr = c.bus.peek addr := by
  induction ws generalizing c with
  | nil => rfl
  | cons w ws ih =>
    rw [List.length_cons] at hplain haddr
    have hhigh : c.registers.sp - 1 ≠ addr := fun h => haddr (h ▸ inStack_high _ _)
    have hlow : c.registers.sp - 2 ≠ addr := fun h => haddr (h ▸ inStack_low _ _)
    show ((c.push w).pushAll ws).bus.peek addr = _
    rw [ih, push_peek hplain.high hplain.low, if_neg hlow, if_neg hhigh]
    · rw [push_sp]
      exact hplain.deeper
    · rw [push_sp]
      exact fun hdeep => haddr hdeep.deeper

theorem pushAll_calm (ws : List UInt16) (hplain : PlainStack c.registers.sp ws.length) :
    Calm c.bus (c.pushAll ws).bus := by
  induction ws generalizing c with
  | nil => exact .refl c.bus
  | cons w ws ih =>
    rw [List.length_cons] at hplain
    have hrest : PlainStack (c.push w).registers.sp ws.length := by
      rw [push_sp]
      exact hplain.deeper
    exact (push_calm hplain.high hplain.low w).trans (ih hrest)

/-- **Popping takes the words off the stack**, from the top. -/
theorem popTimes_stacked {ws : List UInt16} (h : Stacked c.bus c.registers.sp ws)
    (hplain : ∀ i, i < 2 * ws.length → Plain (c.registers.sp + UInt16.ofNat i)) :
    (popTimes ws.length c).1 = ws := by
  induction ws generalizing c with
  | nil => rfl
  | cons w ws ih =>
    rw [List.length_cons] at hplain
    obtain ⟨hw, hrest⟩ := h
    have hsp : c.registers.sp + UInt16.ofNat 0 = c.registers.sp := by grind
    have hlow := hplain 0 (by omega)
    have hhigh : Plain (c.registers.sp + 1) := hplain 1 (by omega)
    rw [hsp] at hlow
    have htop : c.pop.1 = w := (pop_word hlow hhigh).trans hw
    have htail : (popTimes ws.length c.pop.2).1 = ws := by
      apply ih
      · rw [pop_sp, pop_bus]
        apply hrest.congr
        intro i _
        rw [FlatBus.peek_tick, FlatBus.peek_tick]
      · intro i hi
        have hnext := hplain (i + 2) (by omega)
        rw [sp_add_offset] at hnext
        rwa [pop_sp]
    show c.pop.1 :: (popTimes ws.length c.pop.2).1 = w :: ws
    rw [htop, htail]

/-- **Words are popped in reverse order**, and nothing else has changed. -/
structure Reversed (c : Core FlatBus) (ws : List UInt16) (r : List UInt16 × Core FlatBus) :
    Prop where
  words : r.1 = ws.reverse
  cpu : r.2.cpu = c.cpu
  memory : ∀ addr, ¬ InStack c.registers.sp ws.length addr →
    (addr = 0xFF0F → c.bus.scheduled = none) → r.2.bus.read addr = c.bus.read addr

theorem pushAll_reversed {ws : List UInt16} (hlength : ws.length ≤ 32768)
    (hplain : PlainStack c.registers.sp ws.length) :
    Reversed c ws (popTimes ws.length (c.pushAll ws)) := by
  have hsp : (c.pushAll ws).registers.sp = c.registers.sp - UInt16.ofNat (2 * ws.length) := by
    unfold registers
    rw [pushAll_cpu]
    rfl
  constructor
  case words =>
    have hstacked : Stacked (c.pushAll ws).bus (c.pushAll ws).registers.sp ws.reverse := by
      have hempty : Stacked c.bus c.registers.sp [] := trivial
      have hall := pushAll_stacked ws hplain (by rw [List.length_nil]; omega) hempty
      rwa [List.append_nil] at hall
    rw [← List.length_reverse]
    apply popTimes_stacked hstacked
    intro i hi
    rw [hsp]
    rw [List.length_reverse] at hi
    exact hplain.upwards hi
  case cpu =>
    have hback : c.registers.sp - UInt16.ofNat (2 * ws.length) + UInt16.ofNat (2 * ws.length) =
        c.registers.sp := by grind
    rw [popTimes_cpu, hsp, hback, pushAll_cpu]
    rfl
  case memory =>
    intro addr haddr hquiet
    refine ((pushAll_calm ws hplain).trans (popTimes_calm _ _)).read ?_ hquiet
    rw [popTimes_peek, pushAll_peek ws hplain haddr]

/-! ## What leaves a word on the stack -/

/-- The word on top of the stack. -/
def top (c : Core FlatBus) : UInt16 := c.bus.wordAt c.registers.sp

/-- The program counter once the opcode is read; after a failed HALT it misses a step. -/
def afterOpcode (c : Core FlatBus) : UInt16 :=
  if c.cpu.haltBug then c.registers.pc else c.registers.pc + 1

/-- **An instruction is executed** after its opcode was read, and that is all that its step does to
the registers and the bus before the interrupt check. -/
theorem act_executes {i : Instruction} (h : c.instruction? = some i) :
    ∃ f : Core FlatBus, f.registers = { c.registers with pc := c.afterOpcode } ∧
      (∀ addr, f.bus.peek addr = c.bus.peek addr) ∧
      c.act.registers = (f.execute i).registers ∧ c.act.bus = (f.execute i).bus := by
  unfold instruction? at h
  split at h
  · rename_i hready
    obtain rfl : c.decoded = i := Option.some.inj h
    rw [act_of_ready hready, ← decoded_setActivity c .running]
    refine ⟨(c.setActivity .running).fetched, fetched_registers _, ?_, ?_, ?_⟩
    · intro addr
      have hbus : (c.setActivity .running).fetched.bus = c.bus.tick := by
        unfold fetched fetchOpcode
        split <;> rfl
      rw [hbus, FlatBus.peek_tick]
    · rw [runInstruction_eq]
      split <;> rfl
    · rw [runInstruction_eq]
      split <;> rfl
  · cases h

/-- **A word is left on the stack**: by PUSH, by CALL and RST, and by the entry into a handler. The
last three leave the program counter at which to go on. -/
inductive Saves (c : Core FlatBus) : Core FlatBus → UInt16 → Prop where
  | push (src : StackPair) (h : c.instruction? = some (.push src)) :
      Saves c c.act (c.registers.getPair src)
  | call (cond : Option Condition) (h : c.instruction? = some (.call cond))
      (hcond : Condition.allows c.registers.flags cond) : Saves c c.act (c.afterOpcode + 2)
  | rst (target : UInt8) (h : c.instruction? = some (.rst target)) : Saves c c.act c.afterOpcode
  | interrupt (h : c.interrupted) : Saves c c.service c.registers.pc

theorem push_top (hplain : PlainStack c.registers.sp 1) (w : UInt16) : (c.push w).top = w := by
  have hempty : Stacked c.bus c.registers.sp [] := trivial
  unfold top
  rw [push_sp]
  exact (push_stacked hplain.high hplain.low hempty (by decide) w).1

/-- Whatever comes after a push, the word stays on top while the stack pointer and the bus do. -/
theorem pushed_top {g : Core FlatBus} {w : UInt16} (hplain : PlainStack c.registers.sp 1)
    (hstart : g.registers.sp = c.registers.sp) (hsp : d.registers.sp = (g.push w).registers.sp)
    (hbus : d.bus = (g.push w).bus) : d.registers.sp = c.registers.sp - 2 ∧ d.top = w := by
  rw [← hstart] at hplain ⊢
  refine ⟨hsp.trans (push_sp g w), ?_⟩
  rw [← push_top hplain w]
  unfold top
  rw [hsp, hbus]

/-- The two halves of the push of a dispatch, with the acknowledgement between them. -/
theorem dispatch_top (hplain : PlainStack c.registers.sp 1) :
    c.dispatch.registers.sp = c.registers.sp - 2 ∧ c.dispatch.top = c.registers.pc := by
  have hapart : c.registers.sp - 2 ≠ c.registers.sp - 1 := by grind
  have hplace : c.registers.sp - 2 + 1 = c.registers.sp - 1 := by grind
  let first := (c.setIME false).tick.tick.pushByte (highByte c.registers.pc)
  let second := first.acknowledge.2
  have hsecond : second.registers.sp = c.registers.sp - 1 := by
    show second.cpu.registers.sp = _
    rw [acknowledge_cpu]
    rfl
  have hsp : c.dispatch.registers.sp = c.registers.sp - 2 := by
    show second.registers.sp - 1 = _
    rw [hsecond, sp_sub_two]
  -- the acknowledgement between the two pushes leaves memory alone
  have hfirst (addr : UInt16) : second.bus.peek addr =
      if c.registers.sp - 1 = addr then highByte c.registers.pc else c.bus.peek addr := by
    have hacknowledged : second.bus.peek addr = first.bus.peek addr := by
      show first.acknowledge.2.bus.peek addr = _
      unfold acknowledge
      simp only
      split <;> rfl
    rw [hacknowledged, pushByte_peek (c := (c.setIME false).tick.tick) hplain.high]
    show (if c.registers.sp - 1 = addr then _ else c.bus.tick.tick.peek addr) = _
    rw [FlatBus.peek_tick, FlatBus.peek_tick]
  have hlow : Plain (second.registers.sp - 1) := by
    rw [hsecond, sp_sub_two]
    exact hplain.low
  have hbus (addr : UInt16) : c.dispatch.bus.peek addr =
      if c.registers.sp - 2 = addr then lowByte c.registers.pc
      else if c.registers.sp - 1 = addr then highByte c.registers.pc else c.bus.peek addr := by
    show (second.pushByte (lowByte c.registers.pc)).bus.tick.peek addr = _
    rw [FlatBus.peek_tick, pushByte_peek hlow, hsecond, sp_sub_two, hfirst]
  refine ⟨hsp, ?_⟩
  unfold top FlatBus.wordAt
  rw [hsp, hplace, hbus, hbus, if_neg hapart, if_pos rfl, if_pos rfl]
  exact word_highByte_lowByte c.registers.pc

/-- **What is saved is on top of the stack.** -/
theorem Saves.top {w : UInt16} (h : Saves c d w) (hplain : PlainStack c.registers.sp 1) :
    d.registers.sp = c.registers.sp - 2 ∧ d.top = w := by
  cases h with
  | push src h =>
    obtain ⟨f, hf, -, hregisters, hbus⟩ := act_executes h
    have hexec : f.execute (.push src) = f.tick.push (f.registers.getPair src) := rfl
    have hsp : f.registers.sp = c.registers.sp := by rw [hf]
    have hword : f.registers.getPair src = c.registers.getPair src := by
      rw [hf]
      cases src <;> rfl
    rw [hexec, hword] at hregisters hbus
    refine pushed_top (g := f.tick) hplain hsp ?_ hbus
    rw [hregisters]
  | call cond h hcond =>
    obtain ⟨f, hf, -, hregisters, hbus⟩ := act_executes h
    have hflags : Condition.allows f.registers.flags cond := by
      rw [hf]
      exact hcond
    have hsp : f.registers.sp = c.registers.sp := by rw [hf]
    -- what is saved is the place behind the operand, which has been fetched by then
    have hword : f.fetch16.2.registers.pc = c.afterOpcode + 2 := by
      show f.registers.pc + 1 + 1 = _
      rw [hf]
      grind
    rw [execute_call, if_pos hflags, hword] at hregisters hbus
    refine pushed_top (g := f.fetch16.2.tick) hplain hsp ?_ hbus
    rw [hregisters]
    rfl
  | rst target h =>
    obtain ⟨f, hf, -, hregisters, hbus⟩ := act_executes h
    have hexec : f.execute (.rst target) =
        (f.tick.push f.registers.pc).setPC target.toUInt16 := rfl
    have hsp : f.registers.sp = c.registers.sp := by rw [hf]
    have hword : f.registers.pc = c.afterOpcode := by rw [hf]
    rw [hexec, hword] at hregisters hbus
    refine pushed_top (g := f.tick) hplain hsp ?_ hbus
    rw [hregisters]
    rfl
  | interrupt h =>
    rw [service_of_interrupted h]
    exact dispatch_top (c := c.setActivity .running) hplain

/-- A word as a register pair holds it: `AF` has no flags in the low half of `F`. -/
def kept (dst : StackPair) (w : UInt16) : UInt16 :=
  if dst = .af then word (highByte w) (lowByte w &&& 0xF0) else w

theorem getPair_setPair (r : Registers) (dst : StackPair) (w : UInt16) :
    (r.setPair dst w).getPair dst = kept dst w := by
  cases dst with
  | bc | de | hl => exact word_highByte_lowByte w
  | af => exact congrArg (word (highByte w)) (Flags.toByte_ofByte (lowByte w))

theorem pop_registers (c : Core FlatBus) :
    c.pop.2.registers = { c.registers with sp := c.registers.sp + 2 } :=
  congrArg Cpu.registers (pop_cpu c)

theorem pop_top (hplain : PlainStack (c.registers.sp + 2) 1) : c.pop.1 = c.top := by
  have hlow : c.registers.sp + 2 - 2 = c.registers.sp := by grind
  have hhigh : c.registers.sp + 2 - 1 = c.registers.sp + 1 := by grind
  exact pop_word (hlow ▸ hplain.low) (hhigh ▸ hplain.high)

theorem returnFrom_registers (hplain : PlainStack (c.registers.sp + 2) 1) :
    c.returnFrom.registers = { c.registers with sp := c.registers.sp + 2, pc := c.top } := by
  show { c.pop.2.registers with pc := c.pop.1 } = _
  rw [pop_registers, pop_top hplain]

/-- **A word is taken from the stack** by POP into a register pair, by RET and RETI into the program
counter. RETI also sets the interrupt master enable. -/
structure Retrieves (sp w : UInt16) (c : Core FlatBus) : Prop where
  pop : ∀ dst, c.instruction? = some (.pop dst) →
    c.act.registers = ({ c.registers with sp := sp, pc := c.afterOpcode }).setPair dst w ∧
      c.act.registers.getPair dst = kept dst w
  ret : ∀ cond, c.instruction? = some (.ret cond) → Condition.allows c.registers.flags cond →
    c.act.registers = { c.registers with sp := sp, pc := w }
  reti : c.instruction? = some .reti →
    c.act.registers = { c.registers with sp := sp, pc := w } ∧ c.act.cpu.ime = true

/-- **The word on top of the stack is the one that is taken.** -/
theorem top_retrieves (hplain : PlainStack (c.registers.sp + 2) 1) :
    Retrieves (c.registers.sp + 2) c.top c := by
  -- reading the opcode leaves the stack as it is
  have hread {f : Core FlatBus} (hf : f.registers = { c.registers with pc := c.afterOpcode })
      (hpeek : ∀ addr, f.bus.peek addr = c.bus.peek addr) :
      f.registers.sp = c.registers.sp ∧ f.top = c.top := by
    have hsp : f.registers.sp = c.registers.sp := by rw [hf]
    refine ⟨hsp, ?_⟩
    unfold top FlatBus.wordAt
    rw [hpeek, hpeek, hsp]
  have hreturn {f : Core FlatBus} (hf : f.registers = { c.registers with pc := c.afterOpcode })
      (hpeek : ∀ addr, f.bus.peek addr = c.bus.peek addr) :
      f.returnFrom.registers = { c.registers with sp := c.registers.sp + 2, pc := c.top } := by
    obtain ⟨hsp, htop⟩ := hread hf hpeek
    rw [returnFrom_registers (hsp ▸ hplain), htop, hf]
  constructor
  case pop =>
    intro dst h
    obtain ⟨f, hf, hpeek, hregisters, -⟩ := act_executes h
    obtain ⟨hsp, htop⟩ := hread hf hpeek
    have hexec : (f.execute (.pop dst)).registers = f.pop.2.registers.setPair dst f.pop.1 := rfl
    have hpopped : c.act.registers =
        ({ c.registers with sp := c.registers.sp + 2, pc := c.afterOpcode }).setPair dst c.top := by
      rw [hregisters, hexec, pop_registers, pop_top (hsp ▸ hplain), htop, hf]
    refine ⟨hpopped, ?_⟩
    rw [hpopped]
    exact getPair_setPair _ dst c.top
  case ret =>
    intro cond h hcond
    obtain ⟨f, hf, hpeek, hregisters, -⟩ := act_executes h
    rw [hregisters]
    cases cond with
    | none => exact hreturn hf hpeek
    | some k =>
      have hholds : k.holds f.registers.flags := by
        rw [hf]
        exact hcond
      rw [execute_ret, if_pos hholds]
      apply hreturn (f := f.tick) hf
      intro addr
      exact (FlatBus.peek_tick f.bus addr).trans (hpeek addr)
  case reti =>
    intro h
    obtain ⟨f, hf, hpeek, hregisters, -⟩ := act_executes h
    refine ⟨hregisters.trans (hreturn hf hpeek), ?_⟩
    rw [(act_mask h).1]
    rfl

/-- **The stack is as it was left**: the stack pointer is back where it was, and the word above it
has not been overwritten. -/
structure AsLeft (c d : Core FlatBus) : Prop where
  sp : d.registers.sp = c.registers.sp
  word : d.top = c.top

theorem AsLeft.refl (c : Core FlatBus) : AsLeft c c := ⟨rfl, rfl⟩

/-- **The stack is last-in first-out**, on flat memory. Words that are pushed are popped in reverse
order. A word left on the stack by an instruction, or by the entry into a handler, is the one that
POP and the returns find there, as long as it is not overwritten. -/
theorem last_in_first_out (c : Core FlatBus) :
    (∀ ws : List UInt16, ws.length ≤ 32768 → PlainStack c.registers.sp ws.length →
      Reversed c ws (popTimes ws.length (c.pushAll ws))) ∧
    (∀ d w, Saves c d w → PlainStack c.registers.sp 1 → ∀ e, AsLeft d e →
      Retrieves c.registers.sp w e) := by
  refine ⟨fun ws => pushAll_reversed, ?_⟩
  intro d w hsaves hplain e hleft
  obtain ⟨hsp, htop⟩ := hsaves.top hplain
  have hback : e.registers.sp + 2 = c.registers.sp := by
    rw [hleft.sp, hsp]
    grind
  have hword : e.top = w := hleft.word.trans htop
  rw [← hback] at hplain ⊢
  rw [← hword]
  exact top_retrieves hplain

/-- A CALL to a RET. -/
def callAndReturn : Core FlatBus where
  cpu := .afterBoot .mono true
  bus := ((({} : FlatBus).poke 0x100 0xCD).poke 0x101 0x50).poke 0x50 0xC9

/-- Two words come back in reverse order, and a CALL returns behind its operand. -/
theorem last_in_first_out_call :
    (popTimes 2 (callAndReturn.pushAll [0x1234, 0xABCD])).1 = [0xABCD, 0x1234] ∧
      callAndReturn.act.registers.pc = 0x0050 ∧ callAndReturn.act.act.registers.pc = 0x0103 ∧
      callAndReturn.act.act.registers.sp = 0xFFFE := by
  have hplain (n : Nat) (hn : n ≤ 2) : PlainStack callAndReturn.registers.sp n := by
    rintro addr ⟨k, hk, rfl⟩
    have hall : ∀ k, k < 4 → Plain (callAndReturn.registers.sp - 1 - UInt16.ofNat k) := by decide
    exact hall k (by omega)
  have hcall : Saves callAndReturn callAndReturn.act (0x0101 + 2) :=
    .call none (by decide +kernel) rfl
  have hwords := ((last_in_first_out callAndReturn).1 [0x1234, 0xABCD] (by decide)
    (hplain 2 (by decide))).words
  have hreturn := ((last_in_first_out callAndReturn).2 _ _ hcall (hplain 1 (by decide)) _
    (.refl _)).ret none (by decide +kernel) rfl
  refine ⟨hwords, by decide +kernel, ?_, ?_⟩
  · rw [hreturn]
    rfl
  · rw [hreturn]
    rfl

end Core

end Handheld
