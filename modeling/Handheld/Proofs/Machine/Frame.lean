import Mathlib.Logic.Function.Iterate
import Handheld.Proofs.Board.Burden
import Handheld.Proofs.Machine.Reset

/-!
# A frame returns

Before each step the loop of a frame asks whether the next frame has begun, and from a frame's time
on whether it ever will. Its steps are neither too short nor too long for that: each takes two dots or
more, so that the limit is reached, and none is long enough for two frames.

* `Machine.Reachable`: the machines that can come up between calls; `reachable_settled`.
* `Over`: what ends the loop; `runUntil_runs`: it is so many steps, and nothing else ends it.
* `stepped_synced`: while the LCD stays on and the CPU does not wait, the display takes every dot.
* `runFrame_returns`: a frame returns, with the next frame begun wherever that can be.
-/

namespace Handheld.Machine

open Ppu (Synced)

variable {m : Machine} {c start elapsed k : Nat}

/-- **The machines that can come up**: any images, accepted or not, any uses, any contents of the
CPU's registers, and any access to memory and registers of the board that does not hold the CPU for
longer than a speed switch. -/
inductive Reachable : Machine → Prop where
  | powerOn (model : Model) : Reachable (powerOn model)
  | load {m : Machine} (h : Reachable m) (boot : Option ByteArray) (image : ByteArray) :
      Reachable (m.load boot image).value.2
  | use {m : Machine} (h : Reachable m) (u : Use) : Reachable (m.use u)
  | registers {m : Machine} (h : Reachable m) (cpu : Cpu) : Reachable { m with cpu }
  | access {m : Machine} (h : Reachable m) (e : Deed)
      (hstall : (e.perform m.board).stall ≤ Board.switchStall) :
      Reachable { m with board := e.perform m.board }

/-- **A machine between steps**: no more than a speed switch holds its CPU. -/
structure Settled (m : Machine) : Prop where
  board : Board.Reachable m.board
  stall : m.board.stall ≤ Board.switchStall

theorem step_settled (h : m.Settled) : m.step.value.2.Settled := by
  cases hl : m.isLoaded with
  | true =>
    rw [step_loaded hl]
    exact ⟨(Board.step_frames h.board h.stall m.cpu).1, Core.step_stall h.stall⟩
  | false =>
    rw [step_unloaded hl]
    exact h

/-- A step counts one frame at most. -/
theorem step_frames (h : m.Settled) :
    m.frames ≤ m.step.value.2.frames ∧ m.step.value.2.frames ≤ m.frames + 1 := by
  cases hl : m.isLoaded with
  | true =>
    rw [step_loaded hl]
    exact (Board.step_frames h.board h.stall m.cpu).2
  | false =>
    rw [step_unloaded hl]
    exact ⟨Nat.le_refl _, Nat.le_succ _⟩

theorem startCartridge_settled (model : Model) (cart : Cartridge) :
    (startCartridge model cart).value.Settled :=
  ⟨(Board.Reachable.afterBoot model (palettesFor model cart.header)).insert cart, Nat.zero_le _⟩

theorem startWith_settled (model : Model) (cart : Cartridge) (boot : Option ByteArray) :
    (startWith model cart boot).Settled := by
  cases boot with
  | none => exact startCartridge_settled model cart
  | some bootImage =>
    exact ⟨((Board.Reachable.powerOn model).mapBoot bootImage).insert cart, Nat.zero_le _⟩

theorem powerOn_settled (model : Model) : (powerOn model).Settled :=
  ⟨.powerOn model, Nat.zero_le _⟩

theorem withRam_settled (h : m.Settled) (ram : Array UInt8) : (m.withRam ram).Settled := by
  cases hc : m.board.cartridge with
  | none =>
    have hsame : m.withRam ram = m := by
      unfold withRam
      rw [hc, Option.map_none, ← hc]
    rwa [hsame]
  | some cart =>
    have hboard : (m.withRam ram).board = m.board.insert { cart with ram } := by
      unfold withRam Board.insert
      rw [hc]
      rfl
    refine ⟨?_, h.stall⟩
    rw [hboard]
    exact h.board.insert _

/-- **Every use leaves a machine between steps.** -/
theorem use_settled (h : m.Settled) (u : Use) : (m.use u).Settled :=
  use_keeps (P := Settled) (fun _ => step_settled)
    (fun _ button pressed hm => ⟨hm.board.setButton button pressed, hm.stall⟩)
    (fun _ ram hm => withRam_settled hm ram) (fun _ => reset_keeps startCartridge_settled) h u

theorem reachable_settled (h : m.Reachable) : m.Settled := by
  induction h with
  | powerOn model => exact powerOn_settled model
  | @load m _ boot image _ =>
    rcases load_cases m boot image with ⟨e, he⟩ | ⟨r, -, hr⟩
    · rw [he]
      exact powerOn_settled _
    · rw [hr]
      exact startWith_settled ..
  | use _ u ih => exact use_settled ih u
  | registers _ _ ih => exact ⟨ih.board, ih.stall⟩
  | access _ e hstall ih => exact ⟨ih.board.perform e, hstall⟩

/-- The machine after `k` steps. -/
def stepped (m : Machine) (k : Nat) : Machine := (fun m => m.step.value.2)^[k] m

/-- The dots of the first `k` steps. -/
def dotsAfter (m : Machine) (k : Nat) : Nat := (m.stepped k).cycles - m.cycles

theorem stepped_zero (m : Machine) : m.stepped 0 = m := rfl

theorem stepped_succ (m : Machine) (k : Nat) : m.stepped (k + 1) = m.step.value.2.stepped k :=
  Function.iterate_succ_apply ..

theorem stepped_next (m : Machine) (k : Nat) : m.stepped (k + 1) = (m.stepped k).step.value.2 :=
  Function.iterate_succ_apply' ..

/-- What every step keeps, any number of steps keep. -/
theorem stepped_keeps {P : Machine → Prop} (hP : ∀ m, P m → P m.step.value.2) (h : P m) (k : Nat) :
    P (m.stepped k) := by
  induction k with
  | zero => exact h
  | succ k ih =>
    rw [stepped_next]
    exact hP _ ih

theorem dotsAfter_zero (m : Machine) : m.dotsAfter 0 = 0 := Nat.sub_self _

theorem stepped_cycles (m : Machine) (k : Nat) :
    (m.stepped k).cycles = m.cycles + m.dotsAfter k := by
  have hmono : m.cycles ≤ (m.stepped k).cycles := by
    refine stepped_keeps (P := fun n => m.cycles ≤ n.cycles) ?_ (Nat.le_refl _) k
    intro n hn
    rw [step_cycles]
    exact Nat.le_add_right_of_le hn
  exact (Nat.add_sub_cancel' hmono).symm

theorem dotsAfter_next (m : Machine) (k : Nat) :
    m.dotsAfter (k + 1) = m.dotsAfter k + (m.stepped k).step.value.1 := by
  have hafter := stepped_cycles m (k + 1)
  have hbefore := stepped_cycles m k
  rw [stepped_next, step_cycles] at hafter
  omega

theorem dotsAfter_succ (m : Machine) (k : Nat) :
    m.dotsAfter (k + 1) = m.step.value.1 + m.step.value.2.dotsAfter k := by
  have hall := stepped_cycles m (k + 1)
  have hrest := stepped_cycles m.step.value.2 k
  have hone := step_cycles m
  rw [stepped_succ] at hall
  omega

/-- A CPU that waits for a button waits on. -/
theorem stepped_stopped (hs : m.cpu.activity = .stopped) (hb : m.board.joypad.anyLineLow = false)
    (k : Nat) : (m.stepped k).cpu = m.cpu ∧ (m.stepped k).board = m.board := by
  refine stepped_keeps (P := fun n => n.cpu = m.cpu ∧ n.board = m.board) ?_ ⟨rfl, rfl⟩ k
  rintro n ⟨hcpu, hboard⟩
  obtain ⟨hcpu', hboard'⟩ := step_stopped (m := n) (by rwa [hcpu]) (by rwa [hboard])
  exact ⟨hcpu'.trans hcpu, hboard'.trans hboard⟩

theorem stepped_isLoaded (m : Machine) (k : Nat) : (m.stepped k).isLoaded = m.isLoaded := by
  refine stepped_keeps (P := fun n => n.isLoaded = m.isLoaded) ?_ rfl k
  intro n hn
  exact (step_isLoaded n).trans hn

theorem two_mul_le_dotsAfter (hl : m.isLoaded = true) (k : Nat) : 2 * k ≤ m.dotsAfter k := by
  induction k with
  | zero => exact Nat.zero_le _
  | succ k ih =>
    have hone : 2 ≤ (m.stepped k).step.value.1 :=
      two_le_step_dots ((stepped_isLoaded m k).trans hl)
    rw [dotsAfter_next]
    omega

/-! ## The loop of a frame -/

/-- A frame's time has passed, and nothing will complete the picture. -/
def Hopeless (elapsed : Nat) (m : Machine) : Prop :=
  Ppu.dotsPerFrame ≤ elapsed ∧ m.cannotComplete = true

/-- **What ends the frame after `start`**: the next one has begun, or it is given up. -/
def Over (start elapsed : Nat) (m : Machine) : Prop :=
  m.frames ≠ start ∨ frameLimit ≤ elapsed ∨ Hopeless elapsed m

/-- A frame takes a step at least. -/
theorem not_over (m : Machine) : ¬Over m.frames 0 m := by
  rintro (hnext | hlimit | hless)
  · exact hnext rfl
  · exact absurd hlimit (by decide)
  · exact absurd hless.1 (by decide)

/-- **The loop takes `k` steps**, since no machine before ends it, and reports what they report. -/
structure Runs (start elapsed : Nat) (m : Machine) (k : Nat) (r : Logged Machine) : Prop where
  value : r.value = m.stepped k
  goes : ∀ j < k, ¬Over start (elapsed + m.dotsAfter j) (m.stepped j)
  reports : ∀ j < k, ∀ e ∈ (m.stepped j).step.events, e ∈ r.events

theorem Runs.zero {r : Logged Machine} (h : r.value = m) : Runs start elapsed m 0 r :=
  ⟨h, nofun, nofun⟩

theorem Runs.succ {r : Logged Machine} (hgo : ¬Over start elapsed m)
    (hreport : ∀ e ∈ m.step.events, e ∈ r.events)
    (h : Runs start (elapsed + m.step.value.1) m.step.value.2 k r) :
    Runs start elapsed m (k + 1) r := by
  refine ⟨?_, ?_, ?_⟩
  · rw [stepped_succ]
    exact h.value
  · intro j hj
    cases j with
    | zero => rwa [dotsAfter_zero, stepped_zero, Nat.add_zero]
    | succ j =>
      have hlater := h.goes j (Nat.lt_of_succ_lt_succ hj)
      rwa [stepped_succ, dotsAfter_succ, ← Nat.add_assoc]
  · intro j hj
    cases j with
    | zero => exact hreport
    | succ j =>
      rw [stepped_succ]
      exact h.reports j (Nat.lt_of_succ_lt_succ hj)

/-- **The loop is a number of steps**, as many as it takes until one ends it or all that it has are
taken. That the frame is hopeless is only asked after a step, but of all machines from which a step is
taken only the first has none before it. -/
theorem runUntil_runs (start steps elapsed : Nat) (m : Machine) (reported : List Event)
    (hhope : ¬Hopeless elapsed m) :
    ∃ k ≤ steps, Runs start elapsed m k (runUntil start steps elapsed m reported) ∧
      (Over start (elapsed + m.dotsAfter k) (m.stepped k) ∨ k = steps) := by
  -- the machine at the head of the loop was found not to be hopeless after its last step
  induction steps generalizing elapsed m reported with
  | zero => exact ⟨0, Nat.le_refl _, .zero rfl, .inr rfl⟩
  | succ steps ih =>
    unfold runUntil
    split
    · rename_i hend
      refine ⟨0, Nat.zero_le _, .zero rfl, .inl ?_⟩
      rw [dotsAfter_zero, stepped_zero, Nat.add_zero]
      exact hend.imp_right .inl
    · rename_i hgo
      have hon : ¬Over start elapsed m := by
        rintro (hnext | hlimit | hless)
        · exact hgo (.inl hnext)
        · exact hgo (.inr hlimit)
        · exact hhope hless
      have hin : ∀ e ∈ m.step.events, e ∈ m.step.events.reverseAux reported := by
        intro e he
        rw [List.reverseAux_eq]
        exact List.mem_append_left _ (List.mem_reverse.2 he)
      simp only
      split
      · rename_i hgive
        have hless : Hopeless (elapsed + m.step.value.1) m.step.value.2 := by
          simpa [Hopeless] using hgive
        refine ⟨1, Nat.succ_le_succ (Nat.zero_le _), .succ hon ?_ (.zero rfl), .inl ?_⟩
        · intro e he
          exact List.mem_reverse.2 (hin e he)
        · rw [dotsAfter_succ, dotsAfter_zero, stepped_succ]
          exact .inr (.inr hless)
      · rename_i hgive
        have hmore : ¬Hopeless (elapsed + m.step.value.1) m.step.value.2 := by
          simpa [Hopeless] using hgive
        obtain ⟨k, hk, hruns, hend⟩ := ih _ _ (m.step.events.reverseAux reported) hmore
        refine ⟨k + 1, Nat.succ_le_succ hk, .succ hon ?_ hruns, ?_⟩
        · intro e he
          exact runUntil_reports _ _ _ _ (hin e he)
        · rw [dotsAfter_succ, stepped_succ, ← Nat.add_assoc]
          exact hend.imp_right (congrArg (· + 1))

/-- **The steps of a frame suffice**: a loaded machine ends the loop by itself. -/
theorem runFrame_runs (hl : m.isLoaded = true) :
    ∃ k ≤ 70224, Runs m.frames 0 m k m.runFrame ∧ Over m.frames (m.dotsAfter k) (m.stepped k) := by
  have hfresh : ¬Hopeless 0 m := fun h => not_over m (.inr (.inr h))
  obtain ⟨k, hk, hruns, hend⟩ := runUntil_runs m.frames (frameLimit / 2) 0 m [] hfresh
  have hrun : m.runFrame = runUntil m.frames (frameLimit / 2) 0 m [] := if_pos hl
  rw [hrun]
  refine ⟨k, hk, hruns, ?_⟩
  rcases hend with hover | hall
  · rwa [Nat.zero_add] at hover
  · -- two dots each are enough for the limit
    have hdots := two_mul_le_dotsAfter hl k
    have hlimit : frameLimit ≤ 2 * k := by
      rw [hall]
      decide
    exact .inr (.inl (Nat.le_trans hlimit hdots))

/-- A frame is a number of steps. -/
theorem runFrame_stepped (m : Machine) : ∃ k, m.runFrame.value = m.stepped k := by
  cases hl : m.isLoaded with
  | true =>
    obtain ⟨k, -, hruns, -⟩ := runFrame_runs hl
    exact ⟨k, hruns.value⟩
  | false =>
    refine ⟨0, ?_⟩
    unfold runFrame
    rw [hl]
    rfl

/-- **While the LCD stays on and the CPU does not wait, the display takes every dot.** -/
theorem stepped_synced (h : Synced c m.board.ppu)
    (hlcd : ∀ j < k, .lcdOff ∉ (m.stepped j).step.events)
    (hcpu : ∀ j < k, (m.stepped j).cpu.activity ≠ .stopped) :
    ∀ j ≤ k, Synced (c + m.dotsAfter j) (m.stepped j).board.ppu := by
  intro j hj
  induction j with
  | zero => rwa [dotsAfter_zero, stepped_zero, Nat.add_zero]
  | succ j ih =>
    have hbefore := ih (Nat.le_of_succ_le hj)
    have hquiet := hlcd j hj
    rw [dotsAfter_next, stepped_next, ← Nat.add_assoc]
    cases hl : (m.stepped j).isLoaded with
    | false =>
      rw [step_unloaded hl]
      exact hbefore
    | true =>
      have hevents : (m.stepped j).step.events =
          ((m.stepped j).cpu.step (m.stepped j).board).events := by
        have hc : (m.stepped j).board.cartridge.isSome = true := hl
        unfold step
        simp only [hc, if_true]
      rw [hevents] at hquiet
      rw [step_loaded hl]
      exact Board.step_synced hbefore (hcpu j hj) hquiet

/-- In a frame's time a display that takes every dot begins a frame. -/
theorem frames_lt_of_synced {n : Machine} {dots : Nat} (h : Synced c m.board.ppu)
    (hn : Synced (c + dots) n.board.ppu) (hdots : 70224 ≤ dots) : m.frames < n.frames := by
  have hbefore : m.frames = (c + 4560) / 70224 := h.frames
  have hafter : n.frames = (c + dots + 4560) / 70224 := hn.frames
  omega

/-- A CPU that hangs goes on hanging, and only time passes. -/
theorem step_locked (h : m.cpu.activity = .locked) :
    m.step.value.2.cpu.activity = .locked ∧ .lcdOff ∉ m.step.events := by
  unfold step
  simp only
  split
  · have hs : m.cpu.step m.board = _ := Core.step_locked (c := { cpu := m.cpu, bus := m.board }) h
    rw [hs]
    refine ⟨h, ?_⟩
    have hevents : (Core.tick { cpu := m.cpu, bus := m.board }).events =
        Logged.join [] (Bus.tick m.board).events := rfl
    rw [hevents, Logged.join_eq, List.nil_append]
    exact Board.lcdOff_notMem_tick m.board
  · exact ⟨h, List.not_mem_nil⟩

/-- A CPU that hangs switches nothing off. -/
theorem runFrame_locked (h : m.cpu.activity = .locked) : .lcdOff ∉ m.runFrame.events := by
  unfold runFrame
  split
  · exact runUntil_notMem (P := fun n => n.cpu.activity = .locked) (fun _ => step_locked) _ _ _ h
      List.not_mem_nil
  · exact List.not_mem_nil

/-- A frame that is given up has had a frame's time without hope, or two. -/
theorem Over.uncounted {n : Machine} {dots : Nat} (h : Over start dots n) (hsame : n.frames = start) :
    70224 ≤ dots ∧ (n.board.ppu.lcdOn = false ∨ n.cpu.activity = .stopped ∨
      n.cpu.activity = .locked ∨ 140448 ≤ dots) := by
  rcases h with hnext | hlimit | ⟨htime, hless⟩
  · exact absurd hsame hnext
  · have hlate : 140448 ≤ dots := hlimit
    exact ⟨by omega, .inr (.inr (.inr hlate))⟩
  · refine ⟨htime, ?_⟩
    simp only [cannotComplete, Bool.or_eq_true, Bool.not_eq_true', beq_iff_eq] at hless
    rcases hless with (hoff | hstop) | hlock
    · exact .inl hoff
    · exact .inr (.inl hstop)
    · exact .inr (.inr (.inl hlock))

/-- Only the last step can begin a frame, and it begins one at most. -/
theorem Runs.frames {r : Logged Machine} (hruns : Runs m.frames 0 m k r) (h : m.Settled) :
    m.frames ≤ r.value.frames ∧ r.value.frames ≤ m.frames + 1 := by
  rw [hruns.value]
  cases k with
  | zero => exact ⟨Nat.le_refl _, Nat.le_succ _⟩
  | succ k =>
    have hsettled : (m.stepped k).Settled := stepped_keeps (fun _ => step_settled) h k
    have hsame : (m.stepped k).frames = m.frames := by
      by_contra hne
      exact hruns.goes k (Nat.lt_succ_self k) (.inl hne)
    rw [stepped_next, ← hsame]
    exact step_frames hsettled

/-- **A lit display begins the next frame within a frame's time**, up to the end of a step. -/
theorem Runs.lit {r : Logged Machine} (hruns : Runs m.frames 0 m k r) (h : m.Settled)
    (hover : Over m.frames (m.dotsAfter k) (m.stepped k)) (hon : m.board.ppu.lcdOn = true)
    (hlcd : .lcdOff ∉ r.events) (hcpu : ∀ j < k, (m.stepped j).cpu.activity ≠ .stopped) :
    m.frames < (m.stepped k).frames ∧ ∀ j < k, m.dotsAfter j < 70224 := by
  obtain ⟨c, hc⟩ := Board.reachable_tellsTime h.board hon
  have hquiet : ∀ j < k, .lcdOff ∉ (m.stepped j).step.events := by
    intro j hj he
    exact hlcd (hruns.reports j hj _ he)
  -- from here on the display counts the dots of the steps, whatever time it told before
  have hsync := stepped_synced hc hquiet hcpu
  refine ⟨?_, ?_⟩
  · -- whatever ended the loop, the next frame has begun
    have hmore := Nat.lt_or_eq_of_le (hruns.value ▸ (hruns.frames h).1)
    rcases hmore with hmore | hsame
    · exact hmore
    · exact frames_lt_of_synced hc (hsync k (Nat.le_refl k)) (hover.uncounted hsame.symm).1
  · -- a machine at which a frame's time has passed would have ended the loop
    intro j hj
    by_contra hlate
    have hmore := frames_lt_of_synced hc (hsync j (Nat.le_of_lt hj)) (Nat.not_lt.1 hlate)
    exact hruns.goes j hj (.inl (Nat.ne_of_gt hmore))

/-- **A frame returns.** Whatever a machine executes and whatever holds its CPU, a frame is at most
70224 steps, ended by the loop's own conditions and by nothing else, and counts one frame at most. If
the LCD stays on and the CPU never waits for a button, it counts exactly one, and only its last step
may end after a frame's time. If it counts none, a frame's time has passed and the machine cannot
complete the frame, or two frames' time has passed. -/
theorem runFrame_returns (h : m.Reachable) (hl : m.isLoaded = true) :
    ∃ k, 1 ≤ k ∧ k ≤ 70224 ∧ m.runFrame.value = m.stepped k ∧
      Over m.frames (m.dotsAfter k) (m.stepped k) ∧
      (∀ j < k, ¬Over m.frames (m.dotsAfter j) (m.stepped j)) ∧
      m.frames ≤ m.runFrame.value.frames ∧ m.runFrame.value.frames ≤ m.frames + 1 ∧
      (m.board.ppu.lcdOn = true → .lcdOff ∉ m.runFrame.events →
        (∀ j < k, (m.stepped j).cpu.activity ≠ .stopped) →
        m.runFrame.value.frames = m.frames + 1 ∧ ∀ j < k, m.dotsAfter j < 70224) ∧
      (m.runFrame.value.frames = m.frames →
        70224 ≤ m.dotsAfter k ∧
          (m.runFrame.value.board.ppu.lcdOn = false ∨ m.runFrame.value.cpu.activity = .stopped ∨
            m.runFrame.value.cpu.activity = .locked ∨ 140448 ≤ m.dotsAfter k)) := by
  have hsettled := reachable_settled h
  obtain ⟨k, hk, hruns, hover⟩ := runFrame_runs hl
  obtain ⟨hle, hge⟩ := hruns.frames hsettled
  have hgoes : ∀ j < k, ¬Over m.frames (m.dotsAfter j) (m.stepped j) := by
    intro j hj
    have hj' := hruns.goes j hj
    rwa [Nat.zero_add] at hj'
  -- before the first step no time has passed and no frame has been counted
  have hsome : 1 ≤ k := by
    refine Nat.one_le_iff_ne_zero.2 ?_
    rintro rfl
    rw [dotsAfter_zero] at hover
    exact not_over m hover
  refine ⟨k, hsome, hk, hruns.value, hover, hgoes, hle, hge, ?_, ?_⟩
  · intro hon hlcd hcpu
    obtain ⟨hmore, hearly⟩ := hruns.lit hsettled hover hon hlcd hcpu
    rw [← hruns.value] at hmore
    exact ⟨Nat.le_antisymm hge hmore, hearly⟩
  · intro hsame
    rw [hruns.value] at hsame ⊢
    exact hover.uncounted hsame

/-- A loaded machine whose CPU is in the mode `activity`. -/
def idleMachine (activity : Cpu.Activity) : Machine :=
  { blankMachine with cpu := { blankMachine.cpu with activity } }

/-- A display whose CPU hangs completes its frame; while the CPU waits for a button it counts none, but
a frame's time passes. -/
theorem runFrame_returns_idle :
    (∀ activity, (idleMachine activity).Reachable ∧ (idleMachine activity).isLoaded = true) ∧
      (idleMachine .locked).runFrame.value.frames = (idleMachine .locked).frames + 1 ∧
      (idleMachine .stopped).runFrame.value.frames = (idleMachine .stopped).frames ∧
      ∃ k ≤ 70224, (idleMachine .stopped).runFrame.value = (idleMachine .stopped).stepped k ∧
        70224 ≤ (idleMachine .stopped).dotsAfter k := by
  have hblank : blankMachine.Reachable := (Reachable.powerOn .color).load none blankImage
  have hreach (activity : Cpu.Activity) : (idleMachine activity).Reachable :=
    hblank.registers { blankMachine.cpu with activity }
  have hloaded (activity : Cpu.Activity) : (idleMachine activity).isLoaded = true := by
    cases activity <;> decide +kernel
  refine ⟨fun activity => ⟨hreach activity, hloaded activity⟩, ?_, ?_⟩
  · obtain ⟨k, -, -, -, -, -, -, -, hlit, -⟩ := runFrame_returns (hreach .locked) (hloaded .locked)
    have hon : (idleMachine .locked).board.ppu.lcdOn = true := by decide +kernel
    have hcpu (j : Nat) : ((idleMachine .locked).stepped j).cpu.activity = .locked :=
      stepped_keeps (P := fun n => n.cpu.activity = .locked) (fun _ hn => (step_locked hn).1) rfl j
    refine (hlit hon (runFrame_locked rfl) ?_).1
    intro j _ hstop
    exact absurd ((hcpu j).symm.trans hstop) (by decide)
  · obtain ⟨k, -, hk, hvalue, -, -, -, -, -, hnone⟩ :=
      runFrame_returns (hreach .stopped) (hloaded .stopped)
    have hstill := (stepped_stopped (m := idleMachine .stopped) rfl (by decide +kernel) k).2
    have hsame : (idleMachine .stopped).runFrame.value.frames = (idleMachine .stopped).frames := by
      rw [hvalue]
      exact congrArg (fun b => b.ppu.frames) hstill
    exact ⟨hsame, k, hk, hvalue, (hnone hsame).1⟩

end Handheld.Machine
