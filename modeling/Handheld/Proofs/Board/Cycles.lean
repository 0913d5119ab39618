import Handheld.Proofs.Board.Clock
import Handheld.Proofs.Board.Untouched
import Handheld.Proofs.Cpu.History

/-!
# The bus cycles of a run

A tick is one bus cycle or, while a transfer or a speed switch holds the CPU, many. What happens on
the board is told here bus cycle by bus cycle, whatever ticks they belong to.

* `Board.cycleStarts`: the boards before each bus cycle of a tick.
* `Board.cyclesOf`, `Board.after`: the same for any operations of a CPU, and the board they lead to.
* `tick_along`, `after_along`: what a bus cycle, the end of a bus cycle for which the CPU is held and
  every other operation keep, a run keeps.
-/

namespace Handheld.Board

variable {b : Board} {P : List Board → Board → Prop}

/-- The board on which the display runs: the clocks and the transfer into object memory come first. -/
def beforeDisplay (b : Board) : Board := b.runTimer.runSerial.stepOamDma

theorem beforeDisplay_eq (b : Board) :
    ∃ interrupts timer serial oam oamDma,
      b.beforeDisplay = { b with
        interrupts, timer, serial, ppu := { b.ppu with oam }, oamDma } := by
  unfold beforeDisplay stepOamDma
  split
  · exact ⟨_, _, _, _, _, rfl⟩
  · split <;> exact ⟨_, _, _, _, _, rfl⟩

theorem beforeDisplay_cycleDots (b : Board) : b.beforeDisplay.cycleDots = b.cycleDots := by
  obtain ⟨_, _, _, _, _, hb⟩ := b.beforeDisplay_eq
  rw [hb]
  rfl

/-- What the dots of a bus cycle signal. -/
def signals (b : Board) : Ppu.Signals := (b.beforeDisplay.ppu.step b.cycleDots).value.2

/-- The board when the dots of a bus cycle have passed. -/
def afterDots (b : Board) : Board :=
  b.beforeDisplay.withDisplay (b.beforeDisplay.ppu.step b.cycleDots).value.1 b.signals

/-- A bus cycle ends with a block, if a horizontal blank begins and one is due. -/
theorem cycle_value (b : Board) :
    b.cycle.value = if b.signals.hblank then b.afterDots.enterHBlank else b.afterDots := by
  have hc : b.cycle = b.beforeDisplay.runDisplay := rfl
  rw [hc, runDisplay, beforeDisplay_cycleDots]
  rfl

/-- After its dots a bus cycle does no more than to move a block. -/
theorem cycle_fills (b : Board) : Fills b.afterDots b.cycle.value := by
  rw [cycle_value]
  split
  · exact enterHBlank_fills _
  · exact ⟨_, _, _, rfl⟩

/-- The boards before each of the bus cycles for which the CPU is still held. -/
def heldStarts (b : Board) : List Board :=
  if b.stall = 0 then [] else b.release :: heldStarts b.release.cycle.value
termination_by b.pressure
decreasing_by
  exact Nat.lt_of_le_of_lt (pressure_cycle_le _) (pressure_release_lt ‹_›)

/-- The boards before each bus cycle of a tick. -/
def cycleStarts (b : Board) : List Board := b :: heldStarts b.cycle.value

theorem heldStarts_free (h : b.stall = 0) : heldStarts b = [] := by
  rw [heldStarts, if_pos h]

theorem heldStarts_held (h : b.stall ≠ 0) :
    heldStarts b = b.release :: heldStarts b.release.cycle.value := by
  rw [heldStarts, if_neg h]

theorem drain_along (hrelease : ∀ l d, P l d → P l d.release)
    (hcycle : ∀ l d, P l d → P (l ++ [d]) d.cycle.value) (p : Progress) {l : List Board}
    (h : P l p.board) : P (l ++ heldStarts p.board) (drain p).board := by
  induction p using drain.induct generalizing l with
  | case1 p hstall =>
    rw [drain_free hstall, heldStarts_free hstall, List.append_nil]
    exact h
  | case2 p hstall ih =>
    have hnext := ih (hcycle _ _ (hrelease _ _ h))
    rw [drain_held hstall, heldStarts_held hstall, List.append_cons]
    exact hnext

/-- **What every bus cycle keeps, a tick keeps.** -/
theorem tick_along (hrelease : ∀ l d, P l d → P l d.release)
    (hcycle : ∀ l d, P l d → P (l ++ [d]) d.cycle.value) {l : List Board} (h : P l b) :
    P (l ++ cycleStarts b) (tick b).value.2 := by
  have hheld := drain_along hrelease hcycle (Progress.cycle ⟨b, 0, []⟩) (hcycle l b h)
  rw [cycleStarts, List.append_cons]
  exact hheld

theorem getElem?_concat_eq_some {l : List Board} {d m : Board} {n : Nat} :
    (l ++ [d])[n]? = some m ↔ l[n]? = some m ∨ n = l.length ∧ d = m := by
  rw [List.getElem?_append, List.getElem?_singleton]
  split
  · rename_i hlt
    exact ⟨.inl, fun h => h.elim id fun h => absurd h.1 (Nat.ne_of_lt hlt)⟩
  · rename_i hlt
    have hnone : l[n]? = none := List.getElem?_eq_none (Nat.not_lt.1 hlt)
    by_cases hn : n = l.length
    · simp [hn]
    · have hne : n - l.length ≠ 0 := by omega
      simp [hnone, hn, hne]

/-- The boards before each bus cycle of an operation. -/
def cyclesIn (b : Board) : Deed → List Board
  | .tick => b.cycleStarts
  | _ => []

/-- The board after some operations. -/
def after (b : Board) (deeds : List Deed) : Board := deeds.foldl Deed.perform b

/-- The boards before each bus cycle of some operations. -/
def cyclesOf (b : Board) : List Deed → List Board
  | [] => []
  | e :: deeds => b.cyclesIn e ++ (e.perform b).cyclesOf deeds

/-- **What every bus cycle and every other operation keep, a run keeps.** -/
theorem after_along {ok : Deed → Prop} (hrelease : ∀ l d, P l d → P l d.release)
    (hcycle : ∀ l d, P l d → P (l ++ [d]) d.cycle.value)
    (hdeed : ∀ l d e, ok e → e ≠ .tick → P l d → P l (e.perform d)) {deeds : List Deed}
    (hok : ∀ e ∈ deeds, ok e) {l : List Board} (h : P l b) :
    P (l ++ b.cyclesOf deeds) (b.after deeds) := by
  induction deeds generalizing b l with
  | nil => rwa [cyclesOf, List.append_nil]
  | cons e deeds ih =>
    have hrest : ∀ e ∈ deeds, ok e := fun e he => hok e (.tail _ he)
    rw [cyclesOf, ← List.append_assoc]
    refine ih hrest ?_
    -- a tick is told bus cycle by bus cycle, any other operation at once
    by_cases he : e = .tick
    · rw [he]
      exact tick_along hrelease hcycle h
    · have hnone : b.cyclesIn e = [] := by
        cases e <;> first | rfl | exact absurd rfl he
      rw [hnone, List.append_nil]
      exact hdeed l b e (hok e (.head _)) he h

end Handheld.Board
