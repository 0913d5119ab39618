import Handheld.Proofs.Board.Requests
import Handheld.Proofs.Machine.Clock

/-!
# The interrupt requests of a step

A step of the machine, whatever it executes and however long the CPU is held in it, takes back only
the request that it acknowledges, and makes only those that a component raises. The program can do
both by writing IF.

* `Machine.deeds`: the operations of a step.
* `requests_accounted`: the requests before and after a step differ by what these did.
-/

namespace Handheld.Machine

open Board (Raises WritesFlag)

variable {m : Machine}

/-- What the CPU does to the board in a step, in order, each operation with the board it found. -/
def deeds (m : Machine) : List (Board × Deed) :=
  if m.isLoaded then Core.deeds { cpu := m.cpu, bus := m.board } else []

/-- **The operations of a step lead from the board before it to the board after it.** -/
theorem leads_step (m : Machine) : Deed.Leads m.board m.deeds m.step.value.2.board := by
  unfold deeds
  split
  · rename_i h
    rw [step_loaded h]
    exact Core.deeds_step { cpu := m.cpu, bus := m.board }
  · rename_i h
    rw [step_unloaded (eq_false_of_ne_true h)]
    exact .start

theorem step_acknowledges (m : Machine) :
    Core.AcknowledgesOne (m.deeds.filter fun e => e.2.acknowledges) m.step.value.2.cpu := by
  unfold deeds
  split
  · rename_i h
    rw [step_loaded h]
    exact Core.step_acknowledges { cpu := m.cpu, bus := m.board }
  · exact .inl rfl

/-- What a step acknowledges is the highest source pending at that moment. -/
theorem acknowledged_source {d : Board} {e : Deed} (h : (d, e) ∈ m.deeds)
    (he : e.acknowledges = true) :
    ∃ s, d.interrupts.highest? = some s ∧ e = .setInterrupts (d.interrupts.clear s) := by
  have hmem : (d, e) ∈ m.deeds.filter fun e => e.2.acknowledges := List.mem_filter.2 ⟨h, he⟩
  rcases m.step_acknowledges with hnone | ⟨bus, s, hs, hone, -⟩
  · rw [hnone] at hmem
    cases hmem
  · rw [hone, List.mem_singleton] at hmem
    cases hmem
    exact ⟨s, hs, rfl⟩

/-- **The requests of a step are accounted for.** -/
structure Accounted (m : Machine) : Prop where
  /-- Watching the operations does not change the step. -/
  watched : (Core.remembering { cpu := m.cpu, bus := m.board }).step.seen History.bus =
    m.cpu.step m.board
  leads : Deed.Leads m.board m.deeds m.step.value.2.board
  /-- A request that is gone was acknowledged, or the program wrote IF without it. -/
  lost : ∀ s, m.board.interrupts.isRequested s = true →
    m.step.value.2.board.interrupts.isRequested s = false →
    (∃ d, (d, .setInterrupts (d.interrupts.clear s)) ∈ m.deeds ∧
        d.interrupts.highest? = some s) ∨
      ∃ e ∈ m.deeds, WritesFlag e.2 s false
  /-- A new request was raised by its component, or the program wrote IF with it. -/
  raised : ∀ s, m.board.interrupts.isRequested s = false →
    m.step.value.2.board.interrupts.isRequested s = true →
    ∃ e ∈ m.deeds, Raises e.1 e.2 s ∨ WritesFlag e.2 s true
  /-- At most one source is acknowledged, and then its handler is entered. -/
  once : Core.AcknowledgesOne (m.deeds.filter fun e => e.2.acknowledges) m.step.value.2.cpu

theorem step_lost {s : Source} (hb : m.board.interrupts.isRequested s = true)
    (hd : m.step.value.2.board.interrupts.isRequested s = false) :
    (∃ d, (d, .setInterrupts (d.interrupts.clear s)) ∈ m.deeds ∧ d.interrupts.highest? = some s) ∨
      ∃ e ∈ m.deeds, WritesFlag e.2 s false := by
  have hgone : ¬ m.step.value.2.board.interrupts.isRequested s = true := by
    rw [hd]
    decide
  obtain ⟨⟨d, e⟩, he, hbefore, hafter⟩ :=
    (leads_step m).exists_step (P := fun b => b.interrupts.isRequested s = true) hb hgone
  have hlost : (e.perform d).interrupts.isRequested s = false := by simpa using hafter
  rcases Board.request_lost hbefore hlost with hack | hwrite
  · obtain ⟨t, ht, rfl⟩ := acknowledged_source he hack
    -- an acknowledgement takes back its own request only
    have hclear : (d.interrupts.clear t).isRequested s = false := hlost
    rw [Interrupts.isRequested_clear, hbefore, Bool.true_and, bne_eq_false_iff_eq] at hclear
    subst hclear
    exact .inl ⟨d, he, ht⟩
  · exact .inr ⟨_, he, hwrite⟩

theorem step_raised {s : Source} (hb : m.board.interrupts.isRequested s = false)
    (hd : m.step.value.2.board.interrupts.isRequested s = true) :
    ∃ e ∈ m.deeds, Raises e.1 e.2 s ∨ WritesFlag e.2 s true := by
  have hnew : ¬ m.step.value.2.board.interrupts.isRequested s = false := by
    rw [hd]
    decide
  obtain ⟨⟨d, e⟩, he, hbefore, hafter⟩ :=
    (leads_step m).exists_step (P := fun b => b.interrupts.isRequested s = false) hb hnew
  refine ⟨_, he, Board.request_raised hbefore (by simpa using hafter) ?_⟩
  rintro i rfl
  obtain ⟨t, -, ht⟩ := acknowledged_source he rfl
  cases ht
  exact ⟨t, rfl⟩

/-- **No request is lost or invented**, in any step of any machine. A bus cycle, with those for which
the CPU is held, does the same to everything else whatever IE and IF hold, and adds to IF exactly the
bits of the sources that its components raise. -/
theorem requests_accounted (m : Machine) :
    m.Accounted ∧
      (∀ (b : Board) (i : Interrupts), Board.tick (b.withInterrupts i) =
        (fun r => (r.1, r.2.withInterrupts (i.adding (Board.raisedIn b.cycleStarts)))) <$>
          Board.tick b) ∧
      ∀ l : List Board,
        Board.raisedIn l &&& Interrupts.sourceMask = Board.raisedIn l ∧
          ∀ s : Source, (Board.raisedIn l &&& s.bit != 0) = l.any fun d => d.asks s := by
  refine ⟨⟨?_, leads_step m, fun s => step_lost, fun s => step_raised, m.step_acknowledges⟩,
    Board.withInterrupts_tick, fun l => ⟨Board.raisedIn_sources l, Board.raisedIn_and l⟩⟩
  exact Core.remembering_step { cpu := m.cpu, bus := m.board }

/-- A machine about to enter the handler of the timer, while the vertical blank waits unheard. -/
def interruptedMachine : Machine :=
  { blankMachine with
    cpu := { blankMachine.cpu with ime := true }
    board := blankMachine.board.withInterrupts { requested := 5, enabled := 4 } }

/-- The request that its step takes back was acknowledged. -/
theorem requests_accounted_timer :
    ∃ d, (d, .setInterrupts (d.interrupts.clear .timer)) ∈ interruptedMachine.deeds ∧
      d.interrupts.highest? = some .timer := by
  obtain ⟨hm, -⟩ := requests_accounted interruptedMachine
  rcases hm.lost .timer (by decide +kernel) (by decide +kernel) with hack | ⟨e, he, v, hv, -⟩
  · exact hack
  · -- the step does not write IF
    have hnone : interruptedMachine.deeds.all fun e => !(e.2 matches .write 0xFF0F _) := by
      decide +kernel
    have hwrite := List.all_eq_true.1 hnone e he
    rw [hv] at hwrite
    cases hwrite

end Handheld.Machine
