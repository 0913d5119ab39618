import Handheld.Machine
import Handheld.Proofs.Board.Clock

/-!
# The dots of a machine are those of its display

From the moment a cartridge is loaded without a boot image, the dots that the machine counts tell
where its display is, as long as the LCD stays on and the CPU does not wait for a button.

* `step_timely`, `runUntil_timely`: steps and frames keep the two together.
* `leads_timely`: so does any sequence of calls.
* `clock_of_calls`: place and frames of the display as functions of the dots.
-/

namespace Handheld.Machine

open Ppu (Synced)

variable {m m₀ m₁ m₂ : Machine}

/-- What a program that embeds the machine calls to run it. -/
inductive Call where
  | step
  | runFrame
  | setButton (button : Button) (pressed : Bool)

def perform (m : Machine) : Call → Logged Machine
  | .step => (·.2) <$> m.step
  | .runFrame => m.runFrame
  | .setButton button pressed => pure (m.setButton button pressed)

/-- **Calls that let the display run on**: none of them switches the LCD off or returns with the CPU
waiting for a button. -/
inductive Leads : Machine → Machine → Prop where
  | start (m : Machine) : Leads m m
  | call {m m' : Machine} (h : Leads m m') (call : Call)
      (hlcd : .lcdOff ∉ (m'.perform call).events)
      (hcpu : (m'.perform call).value.cpu.activity ≠ .stopped) :
      Leads m (m'.perform call).value

/-- A machine whose dots tell the place of its display. -/
structure Timely (m : Machine) : Prop where
  synced : Synced m.cycles m.board.ppu
  running : m.cpu.activity ≠ .stopped

theorem startCartridge_timely (model : Model) (c : Cartridge) :
    Timely (startCartridge model c).value ∧ (startCartridge model c).value.cycles = 0 := by
  refine ⟨⟨?_, ?_⟩, rfl⟩
  · exact Ppu.handOver_synced model (palettesFor model c.header)
  · exact Cpu.Activity.noConfusion

/-- A cartridge that is loaded without a boot image starts a frame. -/
theorem load_timely {image : ByteArray} (h : (m₀.load none image).value = (.ok (), m)) :
    Timely m ∧ m.cycles = 0 := by
  unfold load start checkBoot at h
  cases hc : Cartridge.ofImage image with
  | error e =>
    rw [hc] at h
    cases congrArg Prod.fst h
  | ok inserted =>
    rw [hc] at h
    have hm : (startCartridge m₀.model inserted.value).value = m := congrArg Prod.snd h
    rw [← hm]
    exact startCartridge_timely _ _

theorem step_eq (h : m.isLoaded = true) :
    m.step = ⟨((m.cpu.step m.board).dots, ⟨(m.cpu.step m.board).cpu, (m.cpu.step m.board).bus,
      m.cycles + (m.cpu.step m.board).dots⟩), (m.cpu.step m.board).events⟩ := by
  have hc : m.board.cartridge.isSome = true := h
  unfold step
  simp only [hc, if_true]

theorem step_loaded (h : m.isLoaded = true) :
    m.step.value = ((m.cpu.step m.board).dots, ⟨(m.cpu.step m.board).cpu, (m.cpu.step m.board).bus,
      m.cycles + (m.cpu.step m.board).dots⟩) :=
  congrArg Logged.value (step_eq h)

theorem step_unloaded (h : m.isLoaded = false) : m.step.value = (0, m) := by
  have hc : m.board.cartridge.isSome = false := h
  unfold step
  simp only [hc, Bool.false_eq_true, if_false, Logged.value_pure]

theorem step_timely (h : Timely m) (hlcd : .lcdOff ∉ m.step.events)
    (hcpu : m.step.value.2.cpu.activity ≠ .stopped) : Timely m.step.value.2 := by
  refine ⟨?_, hcpu⟩
  unfold step at hlcd ⊢
  simp only at hlcd ⊢
  split
  · rename_i hc
    rw [if_pos hc] at hlcd
    exact Board.step_synced h.synced h.running hlcd
  · exact h.synced

theorem step_cycles (m : Machine) : m.step.value.2.cycles = m.cycles + m.step.value.1 := by
  unfold step
  simp only
  split <;> rfl

/-- A step of a loaded machine takes two dots or more. -/
theorem two_le_step_dots (h : m.isLoaded = true) : 2 ≤ m.step.value.1 := by
  rw [step_loaded h]
  exact Core.le_step_dots Board.two_le_tick_dots (by decide) { cpu := m.cpu, bus := m.board }

/-- A step that ends with the CPU waiting for a button leaves no button held. -/
theorem step_waits (h : m.cpu.activity ≠ .stopped) (hs : m.step.value.2.cpu.activity = .stopped) :
    m.step.value.2.board.joypad.anyLineLow = false := by
  unfold step at hs ⊢
  simp only at hs ⊢
  split
  · rename_i hc
    rw [if_pos hc] at hs
    exact Core.step_waits (c := { cpu := m.cpu, bus := m.board }) hs
  · rename_i hc
    rw [if_neg hc] at hs
    exact absurd hs h

/-- From then on nothing but the count of dots changes. -/
theorem step_stopped (hs : m.cpu.activity = .stopped) (hb : m.board.joypad.anyLineLow = false) :
    m.step.value.2.cpu = m.cpu ∧ m.step.value.2.board = m.board := by
  unfold step
  simp only
  split
  · have h : m.cpu.step m.board = _ :=
      Core.step_stopped (c := { cpu := m.cpu, bus := m.board }) hs hb
    rw [h]
    exact ⟨rfl, rfl⟩
  · exact ⟨rfl, rfl⟩

/-- A property that every step keeps is kept by any frame. -/
theorem runUntil_keeps {P : Machine → Prop} (hP : ∀ m, P m → P m.step.value.2)
    (start steps elapsed : Nat) (reported : List Event) (h : P m) :
    P (runUntil start steps elapsed m reported).value := by
  induction steps generalizing elapsed m reported with
  | zero => exact h
  | succ steps ih =>
    have hstep := hP m h
    unfold runUntil
    split
    · exact h
    · simp only
      split
      · exact hstep
      · exact ih _ _ hstep

/-- What was reported before stays reported. -/
theorem runUntil_reports (start steps elapsed : Nat) (m : Machine) {reported : List Event}
    {e : Event} (he : e ∈ reported) : e ∈ (runUntil start steps elapsed m reported).events := by
  induction steps generalizing elapsed m reported with
  | zero => exact List.mem_reverse.2 he
  | succ steps ih =>
    have he' : e ∈ m.step.events.reverseAux reported := by
      rw [List.reverseAux_eq]
      exact List.mem_append_right _ he
    unfold runUntil
    split
    · exact List.mem_reverse.2 he
    · simp only
      split
      · exact List.mem_reverse.2 he'
      · exact ih _ _ he'

/-- What no step reports, no frame reports. -/
theorem runUntil_notMem {P : Machine → Prop} {e : Event}
    (hP : ∀ m, P m → P m.step.value.2 ∧ e ∉ m.step.events) (start steps elapsed : Nat)
    {reported : List Event} (h : P m) (he : e ∉ reported) :
    e ∉ (runUntil start steps elapsed m reported).events := by
  induction steps generalizing elapsed m reported with
  | zero => exact fun hmem => he (List.mem_reverse.1 hmem)
  | succ steps ih =>
    obtain ⟨hnext, hquiet⟩ := hP m h
    have he' : e ∉ m.step.events.reverseAux reported := by
      rw [List.reverseAux_eq, List.mem_append, List.mem_reverse, not_or]
      exact ⟨hquiet, he⟩
    unfold runUntil
    split
    · exact fun hmem => he (List.mem_reverse.1 hmem)
    · simp only
      split
      · exact fun hmem => he' (List.mem_reverse.1 hmem)
      · exact ih _ hnext he'

/-- No frame wakes a CPU that waits for a button: the buttons cannot change meanwhile. -/
theorem runUntil_stopped (start steps elapsed : Nat) {m : Machine} (reported : List Event)
    (hs : m.cpu.activity = .stopped) (hb : m.board.joypad.anyLineLow = false) :
    (runUntil start steps elapsed m reported).value.cpu.activity = .stopped := by
  have hkept (n : Machine)
      (h : n.cpu.activity = .stopped ∧ n.board.joypad.anyLineLow = false) :
      n.step.value.2.cpu.activity = .stopped ∧
        n.step.value.2.board.joypad.anyLineLow = false := by
    obtain ⟨hcpu, hboard⟩ := step_stopped h.1 h.2
    rwa [hcpu, hboard]
  exact (runUntil_keeps hkept start steps elapsed reported ⟨hs, hb⟩).1

/-- Every step of a frame is one of which the whole frame's report and end speak. -/
theorem runUntil_timely (start steps elapsed : Nat) {m : Machine} {reported : List Event}
    (h : Timely m) (hlcd : .lcdOff ∉ (runUntil start steps elapsed m reported).events)
    (hcpu : (runUntil start steps elapsed m reported).value.cpu.activity ≠ .stopped) :
    Timely (runUntil start steps elapsed m reported).value := by
  induction steps generalizing elapsed m reported with
  | zero => exact h
  | succ steps ih =>
    unfold runUntil at hlcd hcpu ⊢
    by_cases hend : m.frames ≠ start ∨ frameLimit ≤ elapsed
    · rw [if_pos hend]
      exact h
    · rw [if_neg hend] at hlcd hcpu ⊢
      simp only at hlcd hcpu ⊢
      have hin {e : Event} (he : e ∈ m.step.events) : e ∈ m.step.events.reverseAux reported := by
        rw [List.reverseAux_eq]
        exact List.mem_append_left _ (List.mem_reverse.2 he)
      split
      · rename_i hgive
        rw [if_pos hgive] at hlcd hcpu
        have hoff : .lcdOff ∉ m.step.events := by
          intro he
          exact hlcd (List.mem_reverse.2 (hin he))
        exact step_timely h hoff hcpu
      · rename_i hgive
        rw [if_neg hgive] at hlcd hcpu
        have hoff : .lcdOff ∉ m.step.events := by
          intro he
          exact hlcd (runUntil_reports _ _ _ _ (hin he))
        -- a CPU that starts to wait inside the frame still waits at its end
        have hrun : m.step.value.2.cpu.activity ≠ .stopped := by
          intro hs
          exact hcpu (runUntil_stopped _ _ _ _ hs (step_waits h.running hs))
        exact ih _ (step_timely h hoff hrun) hlcd hcpu

theorem runUntil_cycles (start steps elapsed : Nat) (m : Machine) (reported : List Event) :
    m.cycles ≤ (runUntil start steps elapsed m reported).value.cycles := by
  have hkept (n : Machine) (h : m.cycles ≤ n.cycles) : m.cycles ≤ n.step.value.2.cycles := by
    rw [step_cycles]
    exact Nat.le_add_right_of_le h
  exact runUntil_keeps hkept start steps elapsed reported (Nat.le_refl _)

theorem perform_timely (h : Timely m) (call : Call) (hlcd : .lcdOff ∉ (m.perform call).events)
    (hcpu : (m.perform call).value.cpu.activity ≠ .stopped) : Timely (m.perform call).value := by
  cases call with
  | step => exact step_timely h hlcd hcpu
  | runFrame =>
    unfold perform runFrame at hlcd hcpu ⊢
    simp only at hlcd hcpu ⊢
    split
    · rename_i hl
      rw [if_pos hl] at hlcd hcpu
      exact runUntil_timely _ _ _ h hlcd hcpu
    · exact h
  | setButton button pressed => exact ⟨h.synced, h.running⟩

theorem perform_cycles (m : Machine) (call : Call) : m.cycles ≤ (m.perform call).value.cycles := by
  cases call with
  | step =>
    have hstep : (m.perform .step).value.cycles = _ := step_cycles m
    rw [hstep]
    exact Nat.le_add_right _ _
  | runFrame =>
    unfold perform runFrame
    simp only
    split
    · exact runUntil_cycles _ _ _ _ _
    · exact Nat.le_refl _
  | setButton button pressed => exact Nat.le_refl _

/-- **Any sequence of calls keeps the dots and the display together.** -/
theorem leads_timely (hl : Leads m m₁) (h : Timely m) : Timely m₁ ∧ m.cycles ≤ m₁.cycles := by
  induction hl with
  | start => exact ⟨h, Nat.le_refl _⟩
  | call _ call hlcd hcpu ih =>
    exact ⟨perform_timely ih.1 call hlcd hcpu, Nat.le_trans ih.2 (perform_cycles _ call)⟩

/-- **The display is a clock.** After any calls that leave the LCD on and the CPU out of STOP, the
place of the display is the number of dots in the frame under way, and the frames are those whose
vertical blank has begun. Between two such machines the display advances by exactly the dots that
passed, and vertical blank number `k` begins `70224 * k` dots after the first. -/
theorem clock_of_calls {image : ByteArray} (hload : (m₀.load none image).value = (.ok (), m))
    (h₁ : Leads m m₁) (h₂ : Leads m₁ m₂) :
    m₂.board.ppu.ly.toNat * 456 + m₂.board.ppu.dot = m₂.cycles % 70224 ∧
      m₂.frames = (m₂.cycles + 4560) / 70224 ∧
      m₁.cycles ≤ m₂.cycles ∧
      m₂.board.ppu.position = (m₁.board.ppu.position + (m₂.cycles - m₁.cycles)) % 70224 ∧
      ∀ k, k < m₂.frames ↔ 65664 + 70224 * k ≤ m₂.cycles := by
  obtain ⟨ht, -⟩ := load_timely hload
  obtain ⟨ht₁, -⟩ := leads_timely h₁ ht
  obtain ⟨ht₂, hle⟩ := leads_timely h₂ ht₁
  have hpos₁ : m₁.board.ppu.position = m₁.cycles % 70224 := ht₁.synced.position
  have hpos₂ : m₂.board.ppu.position = m₂.cycles % 70224 := ht₂.synced.position
  have hframes : m₂.frames = (m₂.cycles + 4560) / 70224 := ht₂.synced.frames
  refine ⟨hpos₂, hframes, hle, ?_, ?_⟩
  · rw [hpos₁, hpos₂, Nat.mod_add_mod, Nat.add_sub_cancel' hle]
  · intro k
    rw [hframes]
    omega

/-- An image with nothing but a header of zeros: a cartridge full of NOPs. -/
def blankImage : ByteArray := ⟨Array.replicate 0x150 0⟩

/-- A machine with it. -/
def blankMachine : Machine := ((powerOn .color).load none blankImage).value.2

/-- The result of a load that succeeds. -/
theorem load_of_isOk {boot : Option ByteArray} {image : ByteArray}
    (h : (m.load boot image).value.1.isOk) :
    (m.load boot image).value = (.ok (), (m.load boot image).value.2) := by
  cases hr : (m.load boot image).value with
  | mk result loaded =>
    rw [hr] at h
    cases result with
    | ok _ => rfl
    | error _ => cases h

theorem clock_after_step :
    ((powerOn .color).load none blankImage).value = (.ok (), blankMachine) ∧
      Leads blankMachine (blankMachine.perform .step).value ∧
      (blankMachine.perform .step).value.board.ppu.ly.toNat * 456 +
        (blankMachine.perform .step).value.board.ppu.dot = 4 % 70224 := by
  have hload : ((powerOn .color).load none blankImage).value = (.ok (), blankMachine) :=
    load_of_isOk (by decide +kernel)
  have hquiet : (blankMachine.perform .step).events.all (fun e => e matches .instruction ..) := by
    decide +kernel
  have hlcd : .lcdOff ∉ (blankMachine.perform .step).events := by
    intro he
    exact absurd (List.all_eq_true.1 hquiet _ he) (by decide)
  have hcpu : (blankMachine.perform .step).value.cpu.activity ≠ .stopped := by decide +kernel
  have hleads : Leads blankMachine (blankMachine.perform .step).value :=
    .call (.start _) .step hlcd hcpu
  have hcycles : (blankMachine.perform .step).value.cycles = 4 := by decide +kernel
  have h := clock_of_calls hload (.start _) hleads
  rw [hcycles] at h
  exact ⟨hload, hleads, h.1⟩

end Handheld.Machine
