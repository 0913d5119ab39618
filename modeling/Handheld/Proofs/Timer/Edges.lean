import Handheld.Timer
import Handheld.Word
import Mathlib.Tactic.Common

/-!
# TIMA counts falling edges

A cycle uses the level that it remembers, while a change of the selection or of the divider computes
it anew. The two agree because every operation remembers the level that it leaves.

* `reachable_level`: the level remembered is the level of the signal.
* `counted`: at every moment TIMA counts exactly the falling edge of the signal, if there is one.
* `edges_counted` (every run): there are as many increments as falling edges.
-/

namespace Handheld.Timer

variable {t : Timer}

/-- What happens to a timer at one moment. -/
inductive Moment where
  | cycle
  | write (addr : UInt16) (v : UInt8)
  | clearDivider

def after (t : Timer) : Moment → Timer
  | .cycle => t.cycle.1
  | .write addr v => (t.write addr v).1
  | .clearDivider => t.clearDivider.1

/-- What is asked of a timer: many cycles, or an access. -/
inductive Call where
  | step (n : Nat)
  | write (addr : UInt16) (v : UInt8)
  | clearDivider

def perform (t : Timer) : Call → Timer
  | .step n => (t.step n).1
  | .write addr v => (t.write addr v).1
  | .clearDivider => t.clearDivider.1

/-- The moments of a call. -/
def Call.moments : Call → List Moment
  | .step n => .replicate n .cycle
  | .write addr v => [.write addr v]
  | .clearDivider => [.clearDivider]

/-- **The timers that occur**: from power-on or from the end of the boot image, by any calls. -/
inductive Reachable : Timer → Prop where
  | powerOn : Reachable {}
  | afterBoot : Reachable afterBoot
  | perform {t : Timer} (h : Reachable t) (call : Call) : Reachable (t.perform call)

theorem run_eq (n : Nat) (t : Timer) (asked : Bool) :
    (run n t asked).1 = (List.replicate n Moment.cycle).foldl after t := by
  induction n generalizing t asked with
  | zero => rfl
  | succ n ih =>
    rw [run, List.replicate_succ, List.foldl_cons]
    exact ih t.cycle.1 (asked || t.cycle.2)

theorem step_add (t : Timer) (m n : Nat) : (t.step (m + n)).1 = ((t.step m).1.step n).1 := by
  unfold step
  rw [run_eq, run_eq, run_eq, ← List.replicate_append_replicate, List.foldl_append]

/-- A call is its moments, one after the other. -/
theorem perform_eq (t : Timer) (call : Call) : t.perform call = call.moments.foldl after t := by
  cases call with
  | step n => exact run_eq n t false
  | write addr v => rfl
  | clearDivider => rfl

/-- The divider bit that each clock select picks. -/
def selectedBits : Vector Nat 4 := #v[9, 3, 5, 7]

theorem shift_and_one (w k : UInt16) (hk : k < 16) :
    ((w >>> k) &&& 1 != 0) = w.toNat.testBit k.toNat := by
  have hk' : k.toNat % 16 = k.toNat := Nat.mod_eq_of_lt (UInt16.lt_iff_toNat_lt.1 hk)
  have hbit : ((w >>> k) &&& 1).toNat = w.toNat >>> k.toNat &&& 1 := by simp [hk']
  rw [Bool.eq_iff_iff, bne_iff_ne, ne_eq, ← UInt16.toNat_inj, hbit, Nat.testBit]
  simp [Nat.and_comm]

theorem selectedBit_eq (tac : UInt8) :
    selectedBit tac < 16 ∧ (selectedBit tac).toNat = selectedBits[tac.toNat % 4] ∧
      (tac &&& 4 != 0) = tac.toNat.testBit 2 := by
  revert tac
  exact forall_byte (by decide +kernel)

/-- **The signal** is the selected divider bit while the enable bit of TAC is set. -/
theorem signalOf_eq (divider : UInt16) (tac : UInt8) :
    signalOf divider tac =
      (tac.toNat.testBit 2 && divider.toNat.testBit selectedBits[tac.toNat % 4]) := by
  obtain ⟨hlt, hbit, henable⟩ := selectedBit_eq tac
  rw [signalOf, henable, shift_and_one _ _ hlt, hbit]

/-- A cleared divider holds the signal down, whatever is selected. -/
theorem signalOf_zero (tac : UInt8) : signalOf 0 tac = false := by
  rw [signalOf_eq]
  simp

/-- The value that an armed reload brings at this moment, if it lands. -/
def landing? (t : Timer) : Option UInt8 :=
  match t.reload with
  | some ⟨v, 0⟩ => some v
  | _ => none

/-- The reload still to come after one cycle of waiting. -/
def waiting? (t : Timer) : Option Reload :=
  match t.reload with
  | some ⟨v, d + 1⟩ => some ⟨v, d⟩
  | _ => none

/-- A reload comes closer with every cycle and whenever the divider is cleared. -/
def Moment.advances : Moment → Bool
  | cycle | clearDivider => true
  | write addr _ => addr == 0xFF04

/-- TIMA after what the moment loads into it: a reload that lands, a write to TIMA that is not too
late for the reload, or a write to the modulo in the cycle of a landing. -/
def loaded (t : Timer) (m : Moment) : UInt8 :=
  if m.advances then t.landing?.getD t.tima
  else match m with
    | .write 0xFF05 v => if t.counterLocked then t.tima else v
    | .write 0xFF06 v => if t.reloading then v else t.tima
    | _ => t.tima

/-- The armed reload after the moment, unless it brings an overflow. -/
def armed (t : Timer) (m : Moment) : Option Reload :=
  if m.advances then t.waiting?
  else match m with
    | .write 0xFF05 _ => if t.counterLocked then t.reload else none
    | .write 0xFF06 v => t.reload.map fun r => { r with value := v }
    | _ => t.reload

/-- The signal is high before the moment and low after it. -/
def falls (t : Timer) (m : Moment) : Bool := t.signal && !(t.after m).signal

/-- **A moment counts its falling edge.** TIMA goes up by one if the signal falls; going up from `FF`
it becomes zero and arms a reload of the modulo. Nothing else arms a reload, and nothing but a
landing or a write loads TIMA. -/
structure Counted (t : Timer) (m : Moment) : Prop where
  tima : (t.after m).tima = if t.falls m then t.loaded m + 1 else t.loaded m
  overflow : t.falls m = true → t.loaded m = 0xFF →
    (t.after m).tima = 0 ∧ (t.after m).reload = some ⟨t.armedModulo, 3⟩
  armed : ¬ (t.falls m = true ∧ t.loaded m = 0xFF) → (t.after m).reload = t.armed m
  loaded : t.loaded m ≠ t.tima →
    (m.advances = true ∧ t.landing?.isSome = true) ∨
      ∃ v, m = .write 0xFF05 v ∨ m = .write 0xFF06 v

theorem advanceReload_eq (t : Timer) :
    t.advanceReload.1 =
      { t with
        tima := t.landing?.getD t.tima
        reload := t.waiting?
        reloading := t.landing?.isSome } := by
  obtain ⟨divider, tima, tma, tac, level, tmaBefore, reload, reloading⟩ := t
  rcases reload with _ | ⟨v, _ | d⟩ <;> rfl

theorem count_eq (t : Timer) (modulo : UInt8) :
    t.count modulo =
      { t with
        tima := t.tima + 1
        reload := if t.tima = 0xFF then some ⟨modulo, 3⟩ else t.reload } := by
  unfold count
  split
  · rename_i h
    rw [h]
    rfl
  · rfl

theorem count_signal (t : Timer) (modulo : UInt8) : (t.count modulo).signal = t.signal := by
  rw [count_eq]
  rfl

/-- The three operations that look for an edge count it on a timer `u` that is already loaded. -/
theorem Counted.of_edge {m : Moment} {u : Timer} (hloaded : u.tima = t.loaded m)
    (harmed : u.reload = t.armed m)
    (htima : (t.after m).tima = (if t.falls m then u.count t.armedModulo else u).tima)
    (hreload : (t.after m).reload = (if t.falls m then u.count t.armedModulo else u).reload)
    (hkept : t.loaded m ≠ t.tima → m.advances = true ∧ t.landing?.isSome = true) :
    Counted t m := by
  refine ⟨?_, ?_, ?_, fun h => .inl (hkept h)⟩
  · rw [htima]
    split
    · rw [count_eq, hloaded]
    · exact hloaded
  · intro hf hff
    rw [htima, hreload, if_pos hf, count_eq, hloaded, if_pos hff, hff]
    exact ⟨rfl, rfl⟩
  · intro hnot
    rw [hreload]
    split
    · rename_i hf
      have hff : t.loaded m ≠ 0xFF := fun hff => hnot ⟨hf, hff⟩
      rw [count_eq, hloaded, if_neg hff, harmed]
    · exact harmed

/-- What keeps an advancing moment from loading TIMA is that no reload lands. -/
theorem loaded_of_advances {m : Moment} (hm : m.advances = true)
    (h : t.loaded m ≠ t.tima) : m.advances = true ∧ t.landing?.isSome = true := by
  refine ⟨hm, ?_⟩
  unfold loaded at h
  rw [if_pos hm] at h
  cases hl : t.landing? with
  | some v => rfl
  | none =>
    rw [hl] at h
    exact absurd rfl h

/-- The timer in a cycle before it looks for an edge. -/
def moved (t : Timer) : Timer :=
  { t.advanceReload.1 with tmaBefore := none, divider := t.divider + 1 }

theorem cycle_eq (t : Timer) :
    t.cycle.1 =
      { if t.level && !t.moved.signal then t.moved.count t.armedModulo else t.moved with
        level := t.moved.signal } := by
  have ha := advanceReload_eq t
  unfold cycle moved
  generalize t.advanceReload = r at ha ⊢
  obtain ⟨advanced, landed⟩ := r
  subst ha
  rfl

theorem settle_eq (t : Timer) (before : Bool) :
    t.settle before =
      if before && !t.signal then
        { t.count t.armedModulo with tmaBefore := none, level := t.signal }
      else { t with level := t.signal } := by
  unfold settle
  dsimp only
  split <;> rfl

theorem settle_signal (t : Timer) (before : Bool) : (t.settle before).signal = t.signal := by
  rw [settle_eq, count_eq]
  split <;> rfl

theorem settle_divider (t : Timer) (before : Bool) : (t.settle before).divider = t.divider := by
  rw [settle_eq, count_eq]
  split <;> rfl

theorem settle_level (t : Timer) (before : Bool) : (t.settle before).level = t.signal := by
  rw [settle_eq]
  split <;> rfl

theorem cycle_divider (t : Timer) : t.cycle.1.divider = t.divider + 1 := by
  rw [cycle_eq, count_eq]
  split <;> rfl

/-- The divider counts every cycle, modulo its width. -/
theorem step_divider (t : Timer) (n : Nat) :
    (t.step n).1.divider.toNat = (t.divider.toNat + n) % 65536 := by
  induction n generalizing t with
  | zero => exact (Nat.mod_eq_of_lt t.divider.toNat_lt).symm
  | succ n ih =>
    have hone : (t.step 1).1 = t.cycle.1 := rfl
    have hnext : (t.divider + 1).toNat = (t.divider.toNat + 1) % 65536 := UInt16.toNat_add ..
    rw [Nat.add_comm n, step_add, hone, ih, cycle_divider, hnext]
    omega

theorem cycle_signal (t : Timer) : t.cycle.1.signal = t.moved.signal := by
  rw [cycle_eq]
  split
  · exact count_signal _ _
  · rfl

/-- **A cycle counts its falling edge**, because the level remembered is that of the signal. -/
theorem cycle_counted (h : t.level = t.signal) : Counted t .cycle := by
  have hfalls : t.falls .cycle = (t.level && !t.moved.signal) := by
    unfold falls
    rw [h]
    exact congrArg (fun now => t.signal && !now) (cycle_signal t)
  have hcycle : t.after .cycle = t.cycle.1 := rfl
  refine .of_edge (u := t.moved) ?_ ?_ ?_ ?_ (loaded_of_advances rfl)
  · rw [moved, advanceReload_eq]
    rfl
  · rw [moved, advanceReload_eq]
    rfl
  · rw [hcycle, cycle_eq, hfalls]
  · rw [hcycle, cycle_eq, hfalls]

/-- A register change that is settled counts its falling edge. -/
theorem settle_counted {m : Moment} {u : Timer} (hafter : t.after m = u.settle t.signal)
    (hloaded : u.tima = t.loaded m) (harmed : u.reload = t.armed m)
    (hmodulo : u.armedModulo = t.armedModulo)
    (hkept : t.loaded m ≠ t.tima → m.advances = true ∧ t.landing?.isSome = true) :
    Counted t m := by
  have hfalls : t.falls m = (t.signal && !u.signal) := by
    rw [falls, hafter, settle_signal]
  refine .of_edge hloaded harmed ?_ ?_ hkept
  · rw [hafter, settle_eq, hfalls, hmodulo]
    split <;> rfl
  · rw [hafter, settle_eq, hfalls, hmodulo]
    split <;> rfl

theorem clearDivider_eq (t : Timer) :
    t.clearDivider.1 = { t.advanceReload.1 with divider := 0 }.settle t.signal := by
  have ha := advanceReload_eq t
  unfold clearDivider
  generalize t.advanceReload = r at ha ⊢
  obtain ⟨advanced, landed⟩ := r
  subst ha
  rfl

/-- Clearing the divider, directly or by a write to it. -/
theorem clearDivider_counted {m : Moment} (hafter : t.after m = t.clearDivider.1)
    (hm : m.advances = true) : Counted t m := by
  refine settle_counted (u := { t.advanceReload.1 with divider := 0 }) ?_ ?_ ?_ ?_
    (loaded_of_advances hm)
  · rw [hafter, clearDivider_eq]
  · rw [advanceReload_eq]
    exact (if_pos hm).symm
  · rw [advanceReload_eq]
    exact (if_pos hm).symm
  · rw [advanceReload_eq]
    rfl

theorem writeControl_counted (t : Timer) (v : UInt8) : Counted t (.write 0xFF07 v) := by
  refine settle_counted (u := { t with tac := v &&& 7 }) rfl rfl rfl rfl ?_
  intro h
  exact absurd rfl h

/-- A moment that leaves divider and selection alone has no edge. -/
theorem Counted.of_still {m : Moment} (hsignal : (t.after m).signal = t.signal)
    (htima : (t.after m).tima = t.loaded m) (hreload : (t.after m).reload = t.armed m)
    (hkept : t.loaded m ≠ t.tima → ∃ v, m = .write 0xFF05 v ∨ m = .write 0xFF06 v) :
    Counted t m := by
  have hf : t.falls m = false := by
    rw [falls, hsignal, Bool.and_not_self]
  refine ⟨?_, ?_, fun _ => hreload, fun h => .inr (hkept h)⟩
  · rw [hf]
    exact htima
  · intro hf'
    rw [hf] at hf'
    cases hf'

/-- Cases for a moment: a cycle, the four registers and the addresses that are none of them. -/
@[elab_as_elim]
theorem Moment.byRegister {motive : Moment → Prop} (m : Moment) (cycle : motive .cycle)
    (clearDivider : motive .clearDivider) (divider : ∀ v, motive (.write 0xFF04 v))
    (counter : ∀ v, motive (.write 0xFF05 v)) (modulo : ∀ v, motive (.write 0xFF06 v))
    (control : ∀ v, motive (.write 0xFF07 v))
    (other : ∀ addr v, addr ≠ 0xFF04 → addr ≠ 0xFF05 → addr ≠ 0xFF06 → addr ≠ 0xFF07 →
      motive (.write addr v)) : motive m := by
  cases m with
  | cycle => exact cycle
  | clearDivider => exact clearDivider
  | write addr v =>
    by_cases h4 : addr = 0xFF04
    · exact h4 ▸ divider v
    by_cases h5 : addr = 0xFF05
    · exact h5 ▸ counter v
    by_cases h6 : addr = 0xFF06
    · exact h6 ▸ modulo v
    by_cases h7 : addr = 0xFF07
    · exact h7 ▸ control v
    exact other addr v h4 h5 h6 h7

theorem write_other {addr : UInt16} (h4 : addr ≠ 0xFF04) (h5 : addr ≠ 0xFF05)
    (h6 : addr ≠ 0xFF06) (h7 : addr ≠ 0xFF07) (v : UInt8) : t.after (.write addr v) = t := by
  show (t.write addr v).1 = t
  unfold write
  split
  · exact absurd rfl h4
  · exact absurd rfl h5
  · exact absurd rfl h6
  · exact absurd rfl h7
  · rfl

/-- **Every moment counts its falling edge.** -/
theorem counted (h : t.level = t.signal) (m : Moment) : Counted t m := by
  cases m using Moment.byRegister with
  | cycle => exact cycle_counted h
  | clearDivider | divider v => exact clearDivider_counted rfl rfl
  | counter v =>
    refine .of_still ?_ ?_ ?_ fun _ => ⟨v, .inl rfl⟩
    · show (t.writeCounter v).signal = t.signal
      unfold writeCounter
      split <;> rfl
    · show (t.writeCounter v).tima = if t.counterLocked then t.tima else v
      unfold writeCounter
      split <;> rfl
    · show (t.writeCounter v).reload = if t.counterLocked then t.reload else none
      unfold writeCounter
      split <;> rfl
  | modulo v => exact .of_still rfl rfl rfl fun _ => ⟨v, .inr rfl⟩
  | control v => exact writeControl_counted t v
  | other addr v h4 h5 h6 h7 =>
    have hw := write_other (t := t) h4 h5 h6 h7 v
    have hl : t.loaded (.write addr v) = t.tima := by
      simp [loaded, Moment.advances, h4, h5, h6]
    have ha : t.armed (.write addr v) = t.reload := by
      simp [armed, Moment.advances, h4, h5, h6]
    refine .of_still (by rw [hw]) (by rw [hw, hl]) (by rw [hw, ha]) ?_
    intro hne
    exact absurd hl hne

/-! ## The level remembered -/

/-- Every moment leaves the level of the signal remembered. -/
theorem after_level (h : t.level = t.signal) (m : Moment) :
    (t.after m).level = (t.after m).signal := by
  have hsettle (u : Timer) (before : Bool) : (u.settle before).level = (u.settle before).signal := by
    rw [settle_level, settle_signal]
  cases m using Moment.byRegister with
  | cycle =>
    have hcycle : t.cycle.1.level = t.moved.signal := by rw [cycle_eq]
    exact hcycle.trans (cycle_signal t).symm
  | clearDivider | divider v | control v => exact hsettle _ _
  | counter v =>
    show (t.writeCounter v).level = (t.writeCounter v).signal
    unfold writeCounter
    split <;> exact h
  | modulo v => exact h
  | other addr v h4 h5 h6 h7 =>
    rw [write_other h4 h5 h6 h7]
    exact h

theorem foldl_level (h : t.level = t.signal) (moments : List Moment) :
    (moments.foldl after t).level = (moments.foldl after t).signal := by
  induction moments generalizing t with
  | nil => exact h
  | cons m rest ih => exact ih (after_level h m)

/-- **The level remembered is the level of the signal**, whatever was done to the timer. -/
theorem reachable_level (h : Reachable t) : t.level = t.signal := by
  induction h with
  | powerOn | afterBoot => decide
  | perform _ call ih =>
    rw [perform_eq]
    exact foldl_level ih _

/-- The timers along a run, from the first to the last. -/
def trail (t : Timer) : List Moment → List Timer
  | [] => [t]
  | m :: rest => t :: (t.after m).trail rest

/-- High levels that are directly followed by low ones. -/
def fallingEdges : List Bool → Nat
  | before :: now :: rest => (before && !now).toNat + fallingEdges (now :: rest)
  | _ => 0

/-- Moments of a run at which TIMA ends up one above what was loaded into it. -/
def increments (t : Timer) : List Moment → Nat
  | [] => 0
  | m :: rest => (decide ((t.after m).tima = t.loaded m + 1)).toNat + (t.after m).increments rest

theorem Counted.increment {m : Moment} (h : Counted t m) :
    decide ((t.after m).tima = t.loaded m + 1) = t.falls m := by
  rw [h.tima]
  cases t.falls m with
  | true => simp
  | false => simp

theorem fallingEdges_trail (t : Timer) (m : Moment) (rest : List Moment) :
    fallingEdges ((t.trail (m :: rest)).map signal) =
      (t.falls m).toNat + fallingEdges (((t.after m).trail rest).map signal) := by
  cases rest <;> rfl

theorem increments_eq (h : t.level = t.signal) (moments : List Moment) :
    t.increments moments = fallingEdges ((t.trail moments).map signal) := by
  induction moments generalizing t with
  | nil => rfl
  | cons m rest ih =>
    rw [fallingEdges_trail, increments, (counted h m).increment, ih (after_level h m)]

theorem foldl_perform (t : Timer) (calls : List Call) :
    calls.foldl perform t = (calls.flatMap Call.moments).foldl after t := by
  induction calls generalizing t with
  | nil => rfl
  | cons call rest ih =>
    rw [List.foldl_cons, List.flatMap_cons, List.foldl_append, ← perform_eq, ih]

/-- A cleared divider holds the signal down. -/
theorem clearDivider_low (t : Timer) :
    t.clearDivider.1.divider = 0 ∧ t.clearDivider.1.signal = false := by
  have hzero : t.clearDivider.1.divider = 0 := by
    rw [clearDivider_eq, settle_divider]
  refine ⟨hzero, ?_⟩
  rw [signal, hzero]
  exact signalOf_zero _

/-- After a cleared divider a change of the selection has no edge. -/
theorem control_after_clear (t : Timer) (v : UInt8) :
    t.clearDivider.1.writeControl v = { t.clearDivider.1 with tac := v &&& 7, level := false } := by
  obtain ⟨hzero, hlow⟩ := clearDivider_low t
  have hnow : ({ t.clearDivider.1 with tac := v &&& 7 } : Timer).signal = false := by
    show signalOf t.clearDivider.1.divider _ = false
    rw [hzero]
    exact signalOf_zero _
  rw [writeControl, settle_eq, hlow, hnow]
  rfl

/-- **TIMA counts exactly the falling edges of the signal.** In every timer that occurs the level
remembered is the selected divider bit, gated by the enable bit; every moment counts its own edge;
and along any calls there are as many increments as falling edges. A selection that follows on a
cleared divider counts nothing. -/
theorem edges_counted (h : Reachable t) (calls : List Call) :
    t.level = (t.tac.toNat.testBit 2 && t.divider.toNat.testBit selectedBits[t.tac.toNat % 4]) ∧
      t.level = t.signal ∧
      (∀ m, Counted t m) ∧
      calls.foldl perform t = (calls.flatMap Call.moments).foldl after t ∧
      t.increments (calls.flatMap Call.moments) =
        fallingEdges ((t.trail (calls.flatMap Call.moments)).map signal) ∧
      ∀ clear v, clear = .clearDivider ∨ (∃ w, clear = .write 0xFF04 w) →
        ((t.after clear).after (.write 0xFF07 v)).tima = (t.after clear).tima ∧
        ((t.after clear).after (.write 0xFF07 v)).reload = (t.after clear).reload := by
  have hl := reachable_level h
  refine ⟨?_, hl, counted hl, foldl_perform t calls, increments_eq hl _, ?_⟩
  · rw [hl]
    exact signalOf_eq _ _
  · intro clear v hclear
    have hafter : t.after clear = t.clearDivider.1 := by
      rcases hclear with rfl | ⟨w, rfl⟩ <;> rfl
    have hcontrol : t.clearDivider.1.after (.write 0xFF07 v) = _ := control_after_clear t v
    rw [hafter, hcontrol]
    exact ⟨rfl, rfl⟩

/-- The fastest clock, switched on and left for eight cycles: the signal is high, and switching the
timer off counts. -/
theorem edges_counted_fast :
    Reachable ((({} : Timer).perform (.write 0xFF07 5)).perform (.step 8)) ∧
      ((({} : Timer).perform (.write 0xFF07 5)).perform (.step 8)).increments
        [.write 0xFF07 1] = 1 := by
  have h : Reachable ((({} : Timer).perform (.write 0xFF07 5)).perform (.step 8)) :=
    .perform (.perform .powerOn _) _
  obtain ⟨-, -, -, -, hcount, -⟩ := edges_counted h [.write 0xFF07 1]
  exact ⟨h, hcount.trans (by decide +kernel)⟩

end Handheld.Timer
