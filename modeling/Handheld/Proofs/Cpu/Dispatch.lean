import Handheld.Cpu.FlatBus
import Handheld.Proofs.Cpu.History
import Mathlib.Tactic.Common

/-!
# Entering a handler

Two decisions lie behind the entry into a handler. That there is one is decided when a step looks
for a source that is pending; which one it is, in the middle of the entry, after the first push.
Until then two bus cycles have let the components raise more sources, and the push can overwrite IE
and IF.

* `Interrupts.Serves`: the source to service, in terms of the bits of IE and IF; `highest?_serves`.
* `Interrupts.Acknowledged`: what servicing a source takes back; `clear_acknowledged`.
* `Core.entry`: the operations of an entry, two idle cycles, the pushes and a last idle cycle.
* `Core.Enters`: what an entry leaves; `dispatch_enters`.
* `handler_entered` (every step, on every bus): an entry is these operations and nothing else.
* `flat_midway`: what the first push overwrites, on flat memory.
-/

namespace Handheld

/-- The number of the bit that the source owns. -/
def Source.number (s : Source) : Nat := s.index.toNat

namespace Interrupts

/-- The source is requested and enabled: both registers have its bit set. -/
def Pends (i : Interrupts) (s : Source) : Prop :=
  i.requested.toNat.testBit s.number = true ∧ i.enabled.toNat.testBit s.number = true

/-- **The source to service** is the one with the lowest number among those that pend, if any do. -/
def Serves (i : Interrupts) : Option Source → Prop
  | some s => i.Pends s ∧ ∀ t, i.Pends t → s.number ≤ t.number
  | none => ∀ t, ¬ i.Pends t

/-- **An acknowledgement** clears the bit of one source in IF, and leaves IE alone. -/
structure Acknowledged (i : Interrupts) (s : Source) (j : Interrupts) : Prop where
  enabled : j.enabled = i.enabled
  requested : ∀ k, j.requested.toNat.testBit k = (i.requested.toNat.testBit k && k != s.number)

end Interrupts

theorem Source.and_bit (s : Source) (v : UInt8) :
    (v &&& s.bit != 0) = v.toNat.testBit s.number := by
  cases s with
  | vblank => exact bit_set v 0
  | stat => exact bit_set v 1
  | timer => exact bit_set v 2
  | serial => exact bit_set v 3
  | joypad => exact bit_set v 4

theorem Source.number_lt (s : Source) : s.number < 5 := by
  cases s <;> decide

namespace Interrupts

variable {i : Interrupts}

theorem pends_iff (i : Interrupts) (s : Source) :
    (i.pending &&& s.bit != 0) = true ↔ i.Pends s := by
  -- each of the five sources has its bit in the mask
  have hmask : (0x1F : Nat).testBit s.number = true := by
    cases s <;> decide
  rw [Source.and_bit, pending, UInt8.toNat_and, UInt8.toNat_and, Nat.testBit_and, Nat.testBit_and,
    Bool.and_eq_true_iff, Bool.and_eq_true_iff]
  constructor
  · rintro ⟨hboth, -⟩
    exact hboth
  · intro hboth
    exact ⟨hboth, hmask⟩

/-- Sources are listed by their numbers. -/
theorem number_le_of_all {before later : List Source} {s t : Source}
    (h : Source.all = before ++ s :: later) (ht : t ∉ before) : s.number ≤ t.number := by
  have hsorted : Source.all.Pairwise fun s t => s.number ≤ t.number := by decide
  have hall : t ∈ Source.all := by
    cases t <;> decide
  rw [h] at hsorted hall
  rcases List.mem_append.1 hall with hbefore | hlater
  · exact absurd hbefore ht
  rcases List.mem_cons.1 hlater with rfl | hlater
  · exact Nat.le_refl _
  · exact List.rel_of_pairwise_cons (List.pairwise_append.1 hsorted).2.1 hlater

/-- **The highest pending source is the one to service.** -/
theorem highest?_serves (i : Interrupts) : i.Serves i.highest? := by
  cases hfound : i.highest? with
  | none =>
    intro t ht
    have hall : t ∈ Source.all := by
      cases t <;> decide
    exact List.find?_eq_none.1 hfound t hall ((pends_iff i t).2 ht)
  | some s =>
    obtain ⟨hs, before, later, hall, hbefore⟩ := List.find?_eq_some_iff_append.1 hfound
    refine ⟨(pends_iff i s).1 hs, ?_⟩
    intro t ht
    apply number_le_of_all hall
    intro hmem
    -- what comes before the highest source does not pend
    have hnot := hbefore t hmem
    rw [(pends_iff i t).2 ht] at hnot
    cases hnot

/-- At most one source is the one to service. -/
theorem Serves.unique {served served' : Option Source} (h : i.Serves served)
    (h' : i.Serves served') : served = served' := by
  have hnumber : ∀ s t : Source, s.number = t.number → s = t := by
    intro s t
    cases s <;> cases t <;> decide
  rcases served with _ | s <;> rcases served' with _ | t
  · rfl
  · exact absurd h'.1 (h t)
  · exact absurd h.1 (h' s)
  · rw [hnumber s t (Nat.le_antisymm (h.2 t h'.1) (h'.2 s h.1))]

theorem bit_getLsbD (s : Source) (k : Nat) : s.bit.toBitVec.getLsbD k = (k == s.number) := by
  by_cases hk : k < 8
  · have hbits : ∀ k : Fin 8, s.bit.toBitVec.getLsbD k = (k.val == s.number) := by
      cases s <;> decide
    exact hbits ⟨k, hk⟩
  · have hs := s.number_lt
    rw [BitVec.getLsbD_of_ge _ _ (by omega)]
    simp
    omega

theorem clear_acknowledged (i : Interrupts) (s : Source) : i.Acknowledged s (i.clear s) := by
  refine ⟨rfl, ?_⟩
  intro k
  show (i.requested.toBitVec &&& ~~~s.bit.toBitVec).getLsbD k =
    (i.requested.toBitVec.getLsbD k && k != s.number)
  rw [BitVec.getLsbD_and, BitVec.getLsbD_not, bit_getLsbD]
  by_cases hk : k < 8
  · simp [hk, bne]
  · rw [BitVec.getLsbD_of_ge _ _ (by omega), Bool.false_and, Bool.false_and]

end Interrupts

variable {β : Type} [Bus β]

namespace Deed

/-- The bus after the operations. -/
def performAll (bus : β) (es : List Deed) : β := es.foldl perform bus

/-- The operations, each with the bus that it finds. -/
def found (bus : β) : List Deed → List (β × Deed)
  | [] => []
  | e :: rest => (bus, e) :: found (e.perform bus) rest

/-- The dots that pass with an operation. -/
def dots (bus : β) : Deed → Nat
  | .tick => (Bus.tick bus).value.1
  | _ => 0

/-- The dots that pass with the operations. -/
def dotsOf (bus : β) : List Deed → Nat
  | [] => 0
  | e :: rest => e.dots bus + dotsOf (e.perform bus) rest

theorem performAll_concat (bus : β) (es : List Deed) (e : Deed) :
    performAll bus (es ++ [e]) = e.perform (performAll bus es) :=
  List.foldl_append

theorem dotsOf_concat (bus : β) (es : List Deed) (e : Deed) :
    dotsOf bus (es ++ [e]) = dotsOf bus es + e.dots (performAll bus es) := by
  induction es generalizing bus with
  | nil => exact Nat.add_comm (e.dots bus) 0
  | cons first rest ih => rw [List.cons_append, dotsOf, ih, ← Nat.add_assoc]; rfl

end Deed

namespace History

theorem perform_eq (h : History β) (e : Deed) : e.perform h = h.after e (e.perform h.bus) := by
  cases e <;> rfl

/-- **A bus that remembers has seen the operations**, each with the bus that it found. -/
theorem performAll_eq (h : History β) (es : List Deed) :
    Deed.performAll h es = ⟨Deed.performAll h.bus es, h.past ++ Deed.found h.bus es⟩ := by
  induction es generalizing h with
  | nil =>
    rw [Deed.found, List.append_nil]
    rfl
  | cons e rest ih =>
    show Deed.performAll (e.perform h) rest = _
    rw [perform_eq, ih]
    simp [after, Deed.found, Deed.performAll]

end History

namespace Core

/-- **What operations do to a CPU at work**, apart from the CPU itself. -/
structure Does (c : Core β) (es : List Deed) (d : Core β) : Prop where
  bus : d.bus = Deed.performAll c.bus es
  dots : d.dots = c.dots + Deed.dotsOf c.bus es

namespace Does

variable {c d : Core β} {es : List Deed}

theorem withCpu (h : Does c es d) (cpu : Cpu) : Does c es { d with cpu := cpu } :=
  ⟨h.bus, h.dots⟩

theorem tick (h : Does c es d) : Does c (es ++ [.tick]) d.tick where
  bus := by
    rw [Deed.performAll_concat, ← h.bus]
    rfl
  dots := by
    rw [Deed.dotsOf_concat, ← Nat.add_assoc, ← h.dots, ← h.bus]
    rfl

theorem write (h : Does c es d) (addr : UInt16) (v : UInt8) :
    Does c (es ++ [.write addr v, .tick]) (d.write addr v) := by
  have hwritten : Does c (es ++ [.write addr v])
      { d with
        bus := (Bus.write8 d.bus addr v).value
        events := Logged.join d.events (Bus.write8 d.bus addr v).events } := by
    constructor
    · rw [Deed.performAll_concat, ← h.bus]
      rfl
    · rw [Deed.dotsOf_concat]
      exact h.dots
  have hticked := hwritten.tick
  rw [List.append_assoc] at hticked
  exact hticked

theorem pushByte (h : Does c es d) (v : UInt8) :
    Does c (es ++ [.write (d.registers.sp - 1) v, .tick]) (d.pushByte v) :=
  (h.withCpu (d.setSP (d.registers.sp - 1)).cpu).write (d.registers.sp - 1) v

theorem acknowledge (h : Does c es d) :
    Does c (es ++ ((Bus.interrupts d.bus).highest?.map fun s =>
      .setInterrupts ((Bus.interrupts d.bus).clear s)).toList) d.acknowledge.2 := by
  unfold Core.acknowledge
  simp only
  split
  · rename_i s hs
    rw [hs]
    constructor
    · rw [Option.map_some, Option.toList_some, Deed.performAll_concat, ← h.bus]
      rfl
    · rw [Option.map_some, Option.toList_some, Deed.dotsOf_concat]
      exact h.dots
  · rename_i hs
    rw [hs, Option.map_none, Option.toList_none, List.append_nil]
    exact h

end Does

/-- Two idle cycles, and the push of the high byte of the program counter. -/
def firstPush (c : Core β) : List Deed :=
  [.tick, .tick, .write (c.registers.sp - 1) (highByte c.registers.pc), .tick]

/-- The push of the low byte, and another idle cycle. -/
def secondPush (c : Core β) : List Deed :=
  [.write (c.registers.sp - 2) (lowByte c.registers.pc), .tick, .tick]

/-- The bus between the two pushes. -/
def midway (c : Core β) : β := Deed.performAll c.bus c.firstPush

/-- **The operations of an entry** that services a source, or finds none left to service. -/
def entry (c : Core β) (served : Option Source) : List Deed :=
  c.firstPush ++ (served.map fun s => .setInterrupts ((Bus.interrupts c.midway).clear s)).toList ++
    c.secondPush

/-- Where the CPU goes on: the handlers lie eight bytes apart. -/
def handlerOf : Option Source → UInt16
  | some s => UInt16.ofNat (0x40 + 8 * s.number)
  | none => 0x0000

/-- **What an entry leaves**: the operations are done, and a CPU runs in the handler with interrupts
masked. No other register changes. -/
structure Enters (c d : Core β) (served : Option Source) : Prop extends
    Does c (c.entry served) d where
  cpu : d.cpu =
    { c.cpu with
      registers := { c.registers with sp := c.registers.sp - 2, pc := handlerOf served }
      ime := false
      activity := .running }

theorem vector_eq (s : Source) : s.vector = handlerOf (some s) := by
  cases s <;> decide

theorem acknowledge_vector (c : Core β) :
    c.acknowledge.1 = handlerOf (Bus.interrupts c.bus).highest? := by
  unfold acknowledge
  simp only
  split
  · rename_i s hs
    rw [hs]
    exact vector_eq s
  · rename_i hs
    rw [hs]
    rfl

/-- **The entry into a handler**, decided between the pushes. -/
theorem dispatch_enters (c : Core β) :
    Enters c (c.setActivity .running).dispatch (Bus.interrupts c.midway).highest? := by
  have hsp : c.registers.sp - 1 - 1 = c.registers.sp - 2 := by grind
  let d := ((c.setActivity .running).setIME false).tick.tick.pushByte (highByte c.registers.pc)
  have hfirst : Does c c.firstPush d := by
    have hstart : Does c [] ((c.setActivity .running).setIME false) := ⟨rfl, rfl⟩
    exact hstart.tick.tick.pushByte _
  have hmid : d.bus = c.midway := hfirst.bus
  have hcpu : d.acknowledge.2.cpu = d.cpu := acknowledge_cpu d
  have hlow : d.acknowledge.2.registers.sp - 1 = c.registers.sp - 2 := by
    rw [registers, hcpu, ← hsp]
    rfl
  -- what is serviced is what the first push has left
  have hack := hfirst.acknowledge
  have htarget := acknowledge_vector d
  rw [hmid] at hack htarget
  have hsecond := ((hack.pushByte (lowByte c.registers.pc)).withCpu
    ((d.acknowledge.2.pushByte (lowByte c.registers.pc)).setPC d.acknowledge.1).cpu).tick
  rw [hlow, List.append_assoc] at hsecond
  refine ⟨hsecond, ?_⟩
  show { d.acknowledge.2.cpu with
    registers := { d.acknowledge.2.registers with
      sp := d.acknowledge.2.registers.sp - 1
      pc := d.acknowledge.1 } } = _
  rw [hlow, htarget, registers, hcpu]
  rfl

theorem interrupted_remembering (c : Core β) :
    c.remembering.act.interrupted = c.act.interrupted := by
  have hact : c.remembering.act.seen History.bus = c.act := seen_act History.shows c.remembering
  rw [← hact]
  rfl

/-- The same entry is seen by a bus that remembers. -/
theorem entry_seen (c : Core (History β)) (served : Option Source) :
    c.entry served = (c.seen History.bus).entry served := by
  have hmid : Bus.interrupts c.midway = Bus.interrupts (c.seen History.bus).midway := by
    rw [midway, History.performAll_eq]
    rfl
  rw [entry, hmid]
  rfl

theorem dispatch_past (c : Core (History β)) :
    (c.setActivity .running).dispatch.bus.past = c.bus.past ++ Deed.found c.bus.bus
      ((c.seen History.bus).entry (Bus.interrupts (c.seen History.bus).midway).highest?) := by
  have hbus := (dispatch_enters c).bus
  rw [hbus, History.performAll_eq, entry_seen, midway, History.performAll_eq]
  rfl

/-- **A step that enters a handler** does what its first half does, and then the operations of the
entry, whichever way the bus answers. Serviced is the source with the lowest number that pends after
the first push, and its bit is the only one acknowledged. -/
theorem handler_entered (cpu : Cpu) (bus : β)
    (ha : (act { cpu, bus }).cpu.activity = .running ∨ (act { cpu, bus }).cpu.activity = .halted)
    (hime : (act { cpu, bus }).cpu.ime = true)
    (hpending : (Bus.interrupts (act { cpu, bus }).bus).requested &&&
      (Bus.interrupts (act { cpu, bus }).bus).enabled &&& 0x1F ≠ 0) :
    ∃ served, (Bus.interrupts (act { cpu, bus }).midway).Serves served ∧
      Enters (act { cpu, bus }) (cpu.step bus) served ∧
      deeds { cpu, bus } = (remembering { cpu, bus }).act.bus.past ++
        Deed.found (act { cpu, bus }).bus ((act { cpu, bus }).entry served) ∧
      ∀ s, served = some s → (Bus.interrupts (act { cpu, bus }).midway).Acknowledged s
        ((Bus.interrupts (act { cpu, bus }).midway).clear s) := by
  set c : Core β := { cpu, bus }
  have hint : c.act.interrupted := by
    have hsome : ((Bus.interrupts c.act.bus).pending != 0) = true := bne_iff_ne.2 hpending
    rw [interrupted, hsome, hime]
    rcases ha with ha | ha <;> rw [ha] <;> rfl
  refine ⟨(Bus.interrupts c.act.midway).highest?, Interrupts.highest?_serves _, ?_, ?_, ?_⟩
  · show Enters c.act c.act.service _
    rw [service_of_interrupted hint]
    exact dispatch_enters c.act
  · have hseen : c.remembering.act.seen History.bus = c.act := seen_act History.shows c.remembering
    have hbus : c.act.bus = c.remembering.act.bus.bus := congrArg Core.bus hseen.symm
    show c.remembering.act.service.bus.past = _
    rw [service_of_interrupted (by rwa [interrupted_remembering]), dispatch_past, hseen, hbus]
  · intro s _
    exact Interrupts.clear_acknowledged _ s

/-- **On flat memory** the first push overwrites IE if the stack starts at the bottom of memory, and
IF if it starts above IF. Anywhere else both registers keep what they have. -/
theorem flat_midway (c : Core FlatBus) (h : c.bus.scheduled = none) :
    Bus.interrupts c.midway =
      if c.registers.sp = 0x0000 then c.bus.interrupts.writeEnable (highByte c.registers.pc)
      else if c.registers.sp = 0xFF10 then c.bus.interrupts.writeFlags (highByte c.registers.pc)
      else c.bus.interrupts := by
  have hquiet : c.bus.tick = c.bus := by
    rw [FlatBus.tick, h]
  have hpushed : Bus.interrupts c.midway =
      (c.bus.write (c.registers.sp - 1) (highByte c.registers.pc)).tick.interrupts := by
    show ((c.bus.tick.tick.write _ _).tick).interrupts = _
    rw [hquiet, hquiet]
  rw [hpushed]
  unfold FlatBus.write
  split
  · rename_i haddr
    have hsp : c.registers.sp = 0xFF10 := by grind
    rw [hsp, FlatBus.tick]
    simp [h]
  · rename_i haddr
    have hsp : c.registers.sp = 0x0000 := by grind
    rw [hsp, FlatBus.tick]
    simp [h]
  · rename_i hflags henable
    have hzero : c.registers.sp ≠ 0x0000 := by grind
    have hpage : c.registers.sp ≠ 0xFF10 := by grind
    rw [if_neg hzero, if_neg hpage, FlatBus.tick]
    simp [FlatBus.poke, h]

/-- A CPU whose stack starts at the bottom of memory, before a NOP. -/
def wrapping : Cpu :=
  { Cpu.afterBoot .mono true with
    registers := { (Cpu.afterBoot .mono true).registers with sp := 0x0000 }
    ime := true }

/-- The timer is enabled and requested, and the vertical blank requested. -/
def overlooked : FlatBus := { interrupts := { requested := 0x05, enabled := 0x04 } }

/-- **The push into IE decides**: the timer makes the step enter a handler, the push of the program
counter enables the vertical blank in its place, and it is the vertical blank that is serviced. -/
theorem handler_entered_vblank :
    (Bus.interrupts (act { cpu := wrapping, bus := overlooked }).bus).highest? = some .timer ∧
      (Bus.interrupts (act { cpu := wrapping, bus := overlooked }).midway).Serves (some .vblank) ∧
      (wrapping.step overlooked).cpu.registers.pc = 0x0040 ∧
      (wrapping.step overlooked).bus.interrupts.requested = 0x04 := by
  have hserves : (Bus.interrupts (act { cpu := wrapping, bus := overlooked }).midway).highest? =
      some .vblank := by
    decide +kernel
  obtain ⟨served, hserved, henters, -⟩ :=
    handler_entered wrapping overlooked (.inl (by decide +kernel)) (by decide +kernel)
      (by decide +kernel)
  have hvblank : served = some .vblank := by
    rw [← hserves]
    exact hserved.unique (Interrupts.highest?_serves _)
  subst hvblank
  refine ⟨by decide +kernel, hserved, ?_, ?_⟩
  · rw [henters.cpu]
    rfl
  · rw [henters.bus]
    decide +kernel

end Core

end Handheld
