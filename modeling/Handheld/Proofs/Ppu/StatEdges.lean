import Handheld.Proofs.Ppu.StatLine

/-!
# Edges of the STAT level on color hardware

Color hardware has no source besides the four that STAT enables. So every request can be told from
what the display shows: it comes with the dot that raises the OR of the sources, and with no other.
What the display keeps for this, the line of the last dot and the coincidence as last compared, agrees
with the display at every dot, whatever is written between the dots.

* `levelAfter`, `lastLevel`: the level after the last dot since the LCD was switched on, by going
  through the operations from the first to the last.
* `Watched.perform`, `watched_lastLevel`: it is the one that the display remembers.
* `Watched.edges`: the requests of many dots.
* `stat_edges` (every run): a request is a rising edge of the level.
-/

namespace Handheld.Ppu

variable {p : Ppu} {held : Bool}

/-- **The level that an operation leaves behind**: the one after its last dot. An access keeps the one
before it, and switching the LCD off forgets it. -/
def levelAfter (p : Ppu) (held : Bool) : Operation → Bool
  | .run n => if p.lcdOn = true ∧ n ≠ 0 then (p.step n).value.1.sourcesActive else held
  | op => held && (p.perform op).lcdOn

/-- The level after the last dot of the operations since the LCD was switched on. -/
def lastLevel (p : Ppu) (held : Bool) : List Operation → Bool
  | [] => held
  | op :: later => (p.perform op).lastLevel (p.levelAfter held op) later

theorem levelAfter_zero (p : Ppu) (held : Bool) : p.levelAfter held (.run 0) = held :=
  if_neg fun h => h.2 rfl

theorem levelAfter_succ (hon : p.lcdOn = true) (held : Bool) (n : Nat) :
    p.levelAfter held (.run (n + 1)) = (p.step (n + 1)).value.1.sourcesActive :=
  if_pos ⟨hon, n.succ_ne_zero⟩

/-- Without the extra source the line is the OR of the sources. -/
theorem line_color (h : p.model = .color) : p.line = p.sourcesActive := by
  have hextra : p.extraScan = false := by
    rw [extraScan, h]
    rfl
  rw [line, hextra, Bool.or_false]

/-- **One operation**: the display goes on remembering the level of the last dot. -/
theorem Watched.perform (h : Watched .color p held) (op : Operation) :
    Watched .color (p.perform op) (p.levelAfter held op) := by
  cases op with
  | run n =>
    have hremembers := h.remembers
    have hsame := (step_ok hremembers.ok n).2
    rw [levelAfter, ← line_color (hsame.model.trans hremembers.model)]
    exact h.run hremembers.ok n
  | _ => exact h.access _ nofun

/-- **Any operations.** -/
theorem watched_lastLevel (h : Watched .color p held) (ops : List Operation) :
    Watched .color (ops.foldl Ppu.perform p) (p.lastLevel held ops) := by
  induction ops generalizing p held with
  | nil => exact h
  | cons op later ih => exact ih (h.perform op)

/-- A dot requests the interrupt if it raises the level. -/
theorem Watched.edge (h : Watched .color p held) (hon : p.lcdOn = true) :
    (p.step 1).value.2.stat = true ↔
      (p.step 1).value.1.sourcesActive = true ∧ held = false := by
  have hcolor : (p.step 1).value.1.extraScan = false := (stat_blocked h hon).2.2 rfl
  rw [h.asks hon, hcolor, Bool.or_false, Bool.and_eq_true_iff, Bool.not_eq_true']

/-- **Many dots request the interrupt if one of them raises the level.** -/
theorem Watched.edges (h : Watched .color p held) (hon : p.lcdOn = true) (n : Nat) :
    (p.step n).value.2.stat = true ↔
      ∃ j < n, (p.step (j + 1)).value.1.sourcesActive = true ∧
        p.levelAfter held (.run j) = false := by
  have hok := h.remembers.ok
  induction n generalizing p held with
  | zero =>
    rw [step_zero]
    simp
  | succ n ih =>
    obtain ⟨hok', hsame⟩ := step_ok hok 1
    have hon' : (p.perform (.run 1)).lcdOn = true := hsame.lcdOn.trans hon
    have hlater := ih (h.perform (.run 1)) hon' hok'
    have hnext (j : Nat) : (p.step (j + 1)).value.1 = ((p.perform (.run 1)).step j).value.1 := by
      rw [step_succ hok hon]
      rfl
    -- the level before a later dot, seen from the second dot
    have hlevel (j : Nat) :
        (p.perform (.run 1)).levelAfter (p.levelAfter held (.run 1)) (.run j) =
          p.levelAfter held (.run (j + 1)) := by
      cases j with
      | zero => rw [levelAfter_zero]
      | succ j => rw [levelAfter_succ hon', levelAfter_succ hon, hnext (j + 1)]
    have hmerge : (p.step (n + 1)).value.2.stat =
        ((p.step 1).value.2.stat || ((p.perform (.run 1)).step n).value.2.stat) := by
      rw [step_succ hok hon]
      rfl
    rw [hmerge, Bool.or_eq_true_iff, h.edge hon]
    constructor
    · rintro (⟨hhigh, hlow⟩ | hstat)
      · refine ⟨0, Nat.succ_pos n, hhigh, ?_⟩
        rw [levelAfter_zero]
        exact hlow
      · obtain ⟨j, hj, hhigh, hlow⟩ := hlater.1 hstat
        refine ⟨j + 1, Nat.succ_lt_succ hj, ?_, ?_⟩
        · rw [hnext]
          exact hhigh
        · rw [← hlevel]
          exact hlow
    · rintro ⟨j, hj, hhigh, hlow⟩
      cases j with
      | zero =>
        rw [levelAfter_zero] at hlow
        exact .inl ⟨hhigh, hlow⟩
      | succ j =>
        refine .inr (hlater.2 ⟨j, Nat.lt_of_succ_lt_succ hj, ?_, ?_⟩)
        · rw [hnext] at hhigh
          exact hhigh
        · rw [hlevel]
          exact hlow

/-- Color hardware before any operation: switched on, or as the boot image leaves it. -/
def colorStart : Option (Option BootPalettes) → Ppu
  | none => .powerOn .color
  | some palettes => ((Ppu.powerOn .color).handOver palettes).value

theorem colorStart_watched (boot : Option (Option BootPalettes)) :
    Watched .color (colorStart boot) false := by
  cases boot with
  | none => exact .powerOn
  | some palettes => exact .handOver palettes

/-- **The STAT interrupt on color hardware**, after any operations: a dot requests it exactly if the
level is high after the dot and was low after the one before it since the LCD was switched on, or if
there was none. So it is with every dot of a longer step, and a display that is switched off requests
nothing. -/
theorem stat_edges (boot : Option (Option BootPalettes)) (ops : List Operation) :
    let p := ops.foldl Ppu.perform (colorStart boot)
    let before := (colorStart boot).lastLevel false ops
    (p.lcdOn = true →
      ((p.step 1).value.2.stat = true ↔
        (p.step 1).value.1.sourcesActive = true ∧ before = false) ∧
      ∀ n, ((p.step n).value.2.stat = true ↔
        ∃ j < n, (p.step (j + 1)).value.1.sourcesActive = true ∧
          p.levelAfter before (.run j) = false)) ∧
    (p.lcdOn = false → ∀ n, p.step n = pure (p, {})) := by
  intro p before
  have hwatched : Watched .color p before := watched_lastLevel (colorStart_watched boot) ops
  refine ⟨?_, ?_⟩
  · intro hon
    exact ⟨hwatched.edge hon, hwatched.edges hon⟩
  · intro hoff n
    rw [step, hoff]
    rfl

/-- The display as the boot image leaves it, with the scan of object memory as its STAT source. -/
def scanned : Ppu := (colorStart (some none)).perform (.port 0xFF41 0x20)

theorem scanned_synced : Synced 0 scanned := by
  have hquiet : .lcdOff ∉ ((colorStart (some none)).writePort 0xFF41 0x20).events := by
    rw [writePort, if_neg (by decide)]
    exact List.not_mem_nil
  exact (handOver_synced .color none).writePort hquiet

/-- The first dot raises the level. -/
theorem scanned_active : (scanned.step 1).value.1.sourcesActive = true := by
  have hnext := scanned_synced.step 1
  have hsources : (scanned.step 1).value.1.controls.onOamScan = true := by
    rw [(step_ok scanned_synced.ok 1).2.controls]
    rfl
  generalize (scanned.step 1).value.1 = q at hnext hsources ⊢
  have hplace := hnext.position
  have hdot := hnext.ok.dot
  have hheight : screenHeight = 144 := rfl
  have hscan : scanDots = 80 := rfl
  have hline : dotsPerLine = 456 := rfl
  rw [position_eq, dotsPerFrame_eq] at hplace
  have hin : q.ly.toNat < screenHeight ∧ q.dot < scanDots := by omega
  rw [sourcesActive, hsources, decide_eq_true hin]
  simp

/-- **The scan that is under way when its source is enabled** requests the interrupt with the next
dot. -/
theorem stat_edges_scan :
    scanned.lcdOn = true ∧ (scanned.step 1).value.2.stat = true := by
  refine ⟨scanned_synced.lit, ?_⟩
  exact ((stat_edges (some none) [.port 0xFF41 0x20]).1 scanned_synced.lit).1.2
    ⟨scanned_active, rfl⟩

end Handheld.Ppu
