import Handheld.Proofs.Board.Requests

/-!
# The lines of the joypad

Two groups of four buttons share four lines. A line is low while a button on it is held whose group
is selected. What is held and what is selected follows from what was done with the latch before, and
so does a request: it comes with the operation that lets a line fall.

* `Joypad.heldAfter`, `Joypad.selectionAfter`: what a history of operations says.
* `testBit_hold`, `isHeld_perform`: a button event changes the button that it names.
* `lineLevels_low`: the lines, from the buttons held and the groups selected.
* `through_told`: after any operations the latch agrees with their history.
* `Told.asks`: an operation asks for the interrupt if it lets a line fall.
* `setButton_comm`: events of two buttons commute.
* `requests_on_falls`: lines and requests, after any operations.
-/

namespace Handheld

namespace Button

/-- The bit of P1 that shows the button. -/
def bitNumber : Button → Nat
  | a | right => 0
  | b | left => 1
  | select | up => 2
  | start | down => 3

theorem bitNumber_lt (button : Button) : button.bitNumber < 4 := by
  cases button <;> decide

/-- The line that the button is on. -/
def lineNumber (button : Button) : Fin 4 := ⟨button.bitNumber, button.bitNumber_lt⟩

theorem testBit_line (button : Button) (i : Nat) :
    button.line.toNat.testBit i = decide (i = button.lineNumber.val) := by
  have hline : button.line.toNat = 2 ^ button.lineNumber.val := by
    cases button <;> rfl
  rw [hline, Nat.testBit_two_pow]
  exact decide_eq_decide.2 eq_comm

/-- Each group has a button on each line. -/
theorem exists_on_line (direction : Bool) (k : Fin 4) :
    ∃ button : Button, button.isDirection = direction ∧ button.lineNumber = k :=
  match direction, k with
  | false, 0 => ⟨a, rfl, rfl⟩
  | false, 1 => ⟨b, rfl, rfl⟩
  | false, 2 => ⟨select, rfl, rfl⟩
  | false, 3 => ⟨start, rfl, rfl⟩
  | true, 0 => ⟨right, rfl, rfl⟩
  | true, 1 => ⟨left, rfl, rfl⟩
  | true, 2 => ⟨up, rfl, rfl⟩
  | true, 3 => ⟨down, rfl, rfl⟩

/-- A group has no second one there. -/
theorem eq_of_line {button other : Button} (hgroup : button.isDirection = other.isDirection)
    (hline : button.lineNumber = other.lineNumber) : button = other := by
  revert hgroup hline
  cases button <;> cases other <;> decide

end Button

namespace Joypad

variable {j start : Joypad} {past : List Operation}

theorem testBit_clear (x y : UInt8) (i : Nat) :
    (x &&& ~~~y).toNat.testBit i = (x.toNat.testBit i && !y.toNat.testBit i) := by
  show (x.toBitVec &&& ~~~y.toBitVec).getLsbD i = (x.toBitVec.getLsbD i && !y.toBitVec.getLsbD i)
  rw [BitVec.getLsbD_and, BitVec.getLsbD_not]
  by_cases hi : i < 8
  · rw [decide_eq_true hi, Bool.true_and]
  · rw [BitVec.getLsbD_of_ge _ _ (Nat.not_lt.1 hi), Bool.false_and, Bool.false_and]

/-- **A button event moves one line of a group.** -/
theorem testBit_hold (group : UInt8) (button : Button) (pressed : Bool) (i : Nat) :
    (hold group button pressed).toNat.testBit i =
      if i = button.lineNumber.val then pressed else group.toNat.testBit i := by
  unfold hold
  cases pressed with
  | true =>
    rw [if_pos rfl, UInt8.toNat_or, Nat.testBit_or, Button.testBit_line]
    split <;> simp [*]
  | false =>
    rw [if_neg Bool.false_ne_true, testBit_clear, Button.testBit_line]
    split <;> simp [*]

/-- Events of buttons on two lines commute. -/
theorem hold_comm (group : UInt8) {button other : Button}
    (h : button.lineNumber ≠ other.lineNumber) (pressed pressed' : Bool) :
    hold (hold group button pressed) other pressed' =
      hold (hold group other pressed') button pressed := by
  apply UInt8.toNat_inj.1
  apply Nat.eq_of_testBit_eq
  intro i
  have hapart (hi : i = button.lineNumber.val) : i ≠ other.lineNumber.val :=
    fun hi' => h (Fin.ext (hi.symm.trans hi'))
  simp only [testBit_hold]
  by_cases hi : i = button.lineNumber.val
  · rw [if_neg (hapart hi), if_pos hi, if_pos hi]
  · rw [if_neg hi, if_neg hi]

/-- Clearing a byte in a nibble leaves something if the byte lacks one of the nibble's bits. -/
theorem clear_ne_zero {x y : UInt8} (hx : x.toNat < 16) :
    (x &&& ~~~y != 0) = true ↔
      ∃ k : Fin 4, x.toNat.testBit k = true ∧ y.toNat.testBit k = false := by
  rw [bne_iff_ne]
  constructor
  · intro hne
    have hnat : (x &&& ~~~y).toNat ≠ 0 := fun h => hne (UInt8.toNat_inj.1 h)
    obtain ⟨i, hi⟩ := Nat.exists_testBit_of_ne_zero hnat
    rw [testBit_clear, Bool.and_eq_true_iff, Bool.not_eq_true'] at hi
    have hi4 : i < 4 := by
      apply Nat.lt_of_not_le
      intro hle
      have hpow : 2 ^ 4 ≤ 2 ^ i := Nat.pow_le_pow_right (by decide) hle
      have hlow : x.toNat < 2 ^ i := Nat.lt_of_lt_of_le hx hpow
      rw [Nat.testBit_lt_two_pow hlow] at hi
      exact Bool.false_ne_true hi.1
    exact ⟨⟨i, hi4⟩, hi⟩
  · rintro ⟨k, hk, hyk⟩ hzero
    have hbit := testBit_clear x y k
    rw [hzero, hk, hyk] at hbit
    simp at hbit

/-- The lines of the buttons held in a group. -/
def group (j : Joypad) (direction : Bool) : UInt8 := if direction then j.directions else j.actions

/-- The bit of P1 that selects a group, with a zero. -/
def groupBit (direction : Bool) : Nat := if direction then 4 else 5

/-- A selection takes in the group of the button. -/
def Selects (select : UInt8) (button : Button) : Prop :=
  select.toNat.testBit (groupBit button.isDirection) = false

theorem isHeld_eq (j : Joypad) (button : Button) :
    j.isHeld button = (j.group button.isDirection).toNat.testBit button.lineNumber := by
  unfold isHeld group
  cases button with
  | a | right => exact bit_set _ 0
  | b | left => exact bit_set _ 1
  | select | up => exact bit_set _ 2
  | start | down => exact bit_set _ 3

theorem toNat_lineLevels_lt (j : Joypad) : j.lineLevels.toNat < 16 := by
  unfold lineLevels
  rw [UInt8.toNat_and]
  exact Nat.lt_succ_of_le Nat.and_le_right

/-- The lines, bit by bit: both groups pull them down. -/
theorem lineLevels_groups (j : Joypad) (k : Fin 4) :
    j.lineLevels.toNat.testBit k = false ↔
      ∃ direction, j.select.toNat.testBit (groupBit direction) = false ∧
        (j.group direction).toNat.testBit k = true := by
  have hnot (v : UInt8) : (~~~v &&& 0x0F).toNat.testBit k = !v.toNat.testBit k := by
    revert k
    revert v
    exact forall_byte (by decide +kernel)
  have hselected (i : Fin 8) : j.select &&& (1 <<< i.val.toUInt8) = 0 ↔
      j.select.toNat.testBit i = false := by
    rw [← bit_set, bne_eq_false_iff_eq]
  have hdirections : j.select &&& 0x10 = 0 ↔ j.select.toNat.testBit (groupBit true) = false :=
    hselected 4
  have hactions : j.select &&& 0x20 = 0 ↔ j.select.toNat.testBit (groupBit false) = false :=
    hselected 5
  have hpulled (v : UInt8) (p : Prop) [Decidable p] :
      (if p then v else 0).toNat.testBit k = true ↔ p ∧ v.toNat.testBit k = true := by
    split <;> simp [*]
  unfold lineLevels
  rw [hnot, Bool.not_eq_false', UInt8.toNat_or, Nat.testBit_or, Bool.or_eq_true, hpulled, hpulled,
    hdirections, hactions, Bool.exists_bool, Or.comm]
  rfl

/-- **A line is low while a button on it is held whose group is selected.** -/
theorem lineLevels_low (j : Joypad) (k : Fin 4) :
    j.lineLevels.toNat.testBit k = false ↔
      ∃ button : Button, button.lineNumber = k ∧ j.isHeld button = true ∧
        Selects j.select button := by
  rw [lineLevels_groups]
  constructor
  · rintro ⟨direction, hselect, hheld⟩
    obtain ⟨button, rfl, rfl⟩ := Button.exists_on_line direction k
    exact ⟨button, rfl, (isHeld_eq j button).trans hheld, hselect⟩
  · rintro ⟨button, rfl, hheld, hselect⟩
    exact ⟨button.isDirection, hselect, (isHeld_eq j button).symm.trans hheld⟩

theorem anyLineLow_iff (j : Joypad) :
    j.anyLineLow = true ↔ ∃ k : Fin 4, j.lineLevels.toNat.testBit k = false := by
  have hfour : ∀ v : UInt8, (v &&& 0x0F != 0x0F) = ((0x0F : UInt8) &&& ~~~(v &&& 0x0F) != 0) :=
    forall_byte (by decide +kernel)
  have hones : ∀ k : Fin 4, (0x0F : UInt8).toNat.testBit k = true := by decide
  unfold anyLineLow
  rw [show (j.lineLevels != 0x0F) = _ from hfour _]
  show ((0x0F : UInt8) &&& ~~~j.lineLevels != 0) = true ↔ _
  rw [clear_ne_zero (by decide)]
  constructor
  · rintro ⟨k, -, hk⟩
    exact ⟨k, hk⟩
  · rintro ⟨k, hk⟩
    exact ⟨k, hones k, hk⟩

/-- What is done with the latch: a write to P1, or an event of a button. -/
inductive Operation where
  | write (v : UInt8)
  | button (button : Button) (pressed : Bool)

/-- The latch after an operation; true if it asks for the interrupt. -/
def perform (j : Joypad) : Operation → Joypad × Bool
  | .write v => j.write v
  | .button button pressed => j.setButton button pressed

/-- The latch after a history of operations, the latest of which comes first. -/
def through (start : Joypad) : List Operation → Joypad
  | [] => start
  | op :: past => ((start.through past).perform op).1

/-- Bits 4 and 5 as last written. -/
def selectionAfter (first : UInt8) : List Operation → UInt8
  | [] => first
  | .write v :: _ => v &&& 0x30
  | .button _ _ :: past => selectionAfter first past

/-- **A button is held** if its last event was a press. -/
def heldAfter (button : Button) : List Operation → Bool
  | [] => false
  | .write _ :: past => heldAfter button past
  | .button other pressed :: past => if other = button then pressed else heldAfter button past

/-- **A history pulls a line down** if it leaves a button on it held, in a group that it leaves
selected. -/
def Pulls (first : UInt8) (past : List Operation) (k : Fin 4) : Prop :=
  ∃ button : Button, button.lineNumber = k ∧ heldAfter button past = true ∧
    Selects (selectionAfter first past) button

/-- Every operation changes the selection or a group, and then takes note of the lines. -/
theorem perform_observes (j : Joypad) (op : Operation) :
    ∃ q : Joypad, q.lines = j.lines ∧ j.perform op = q.observe := by
  cases op with
  | write v => exact ⟨{ j with select := v &&& 0x30 }, rfl, rfl⟩
  | button button pressed =>
    unfold perform setButton
    simp only
    split
    · exact ⟨{ j with directions := hold j.directions button pressed }, rfl, rfl⟩
    · exact ⟨{ j with actions := hold j.actions button pressed }, rfl, rfl⟩

theorem setButton_group (j : Joypad) (button : Button) (pressed direction : Bool) :
    (j.setButton button pressed).1.group direction =
      if button.isDirection = direction then hold (j.group direction) button pressed
      else j.group direction := by
  unfold setButton
  cases button.isDirection <;> cases direction <;> rfl

theorem setButton_select (j : Joypad) (button : Button) (pressed : Bool) :
    (j.setButton button pressed).1.select = j.select := by
  unfold setButton
  split <;> rfl

/-- **A button event changes the button that it names.** -/
theorem setButton_isHeld (j : Joypad) (other : Button) (pressed : Bool) (button : Button) :
    (j.setButton other pressed).1.isHeld button =
      if other = button then pressed else j.isHeld button := by
  rw [isHeld_eq, isHeld_eq, setButton_group]
  by_cases hsame : other = button
  · rw [if_pos hsame, hsame, if_pos rfl, testBit_hold, if_pos rfl]
  · rw [if_neg hsame]
    split
    · rename_i hgroup
      have hline : button.lineNumber.val ≠ other.lineNumber.val :=
        fun h => hsame (Button.eq_of_line hgroup (Fin.ext h.symm))
      rw [testBit_hold, if_neg hline]
    · rfl

/-- **The latch agrees with a history**: its selection, its buttons and what it remembers of the
lines. -/
structure Told (first : UInt8) (past : List Operation) (j : Joypad) : Prop where
  select : j.select = selectionAfter first past
  held : ∀ button, j.isHeld button = heldAfter button past
  lines : j.lines = j.lineLevels

theorem perform_lines (j : Joypad) (op : Operation) :
    (j.perform op).1.lines = (j.perform op).1.lineLevels := by
  obtain ⟨q, -, hq⟩ := perform_observes j op
  rw [hq]
  rfl

theorem Told.perform {first : UInt8} (h : Told first past j) (op : Operation) :
    Told first (op :: past) (j.perform op).1 := by
  refine ⟨?_, ?_, perform_lines j op⟩
  · cases op with
    | write v => rfl
    | button button pressed => exact (setButton_select j button pressed).trans h.select
  · intro button
    cases op with
    | write v => exact h.held button
    | button other pressed =>
      show (j.setButton other pressed).1.isHeld button = _
      rw [setButton_isHeld, h.held]
      rfl

/-- The latch as it is at power-on, or as the boot image leaves it. -/
def Initial (j : Joypad) : Prop := j = {} ∨ j = afterBoot

/-- **After any operations the latch agrees with their history.** -/
theorem through_told (h : Initial start) (past : List Operation) :
    Told start.select past (start.through past) := by
  induction past with
  | nil =>
    rcases h with rfl | rfl
    · exact ⟨rfl, fun button => by cases button <;> rfl, rfl⟩
    · exact ⟨rfl, fun button => by cases button <;> rfl, rfl⟩
  | cons op past ih => exact ih.perform op

/-- **The low lines are those that the history pulls down.** -/
theorem Told.pulls {first : UInt8} (h : Told first past j) (k : Fin 4) :
    j.lineLevels.toNat.testBit k = false ↔ Pulls first past k := by
  rw [lineLevels_low, Pulls, ← h.select]
  simp only [h.held]

theorem selectionAfter_low {first : UInt8} (hfirst : first &&& 0x0F = 0) (past : List Operation) :
    selectionAfter first past &&& 0x0F = 0 := by
  induction past with
  | nil => exact hfirst
  | cons op past ih =>
    cases op with
    | write v => exact (UInt8.and_assoc v 0x30 0x0F).trans UInt8.and_zero
    | button button pressed => exact ih

/-- The low nibble of P1 is the lines. -/
theorem read_low (hselect : j.select &&& 0x0F = 0) : j.read &&& 0x0F = j.lineLevels := by
  have hlevels : j.lineLevels &&& 0x0F = j.lineLevels :=
    (UInt8.and_assoc _ 0x0F 0x0F).trans (congrArg _ UInt8.and_self)
  unfold read
  rw [and_of_or, and_of_or, hselect, hlevels]
  exact UInt8.zero_or

/-- A line reads low in P1. -/
def LineLow (j : Joypad) (k : Fin 4) : Prop := j.read.toNat.testBit k = false

instance (j : Joypad) (k : Fin 4) : Decidable (j.LineLow k) :=
  inferInstanceAs (Decidable (_ = false))

theorem lineLow_iff (hselect : j.select &&& 0x0F = 0) (k : Fin 4) :
    j.LineLow k ↔ j.lineLevels.toNat.testBit k = false := by
  have hmask (v : UInt8) : (v &&& 0x0F).toNat.testBit k = v.toNat.testBit k := by
    revert k
    revert v
    exact forall_byte (by decide +kernel)
  rw [← read_low hselect, hmask]
  rfl

/-! ## Requests -/

/-- **An operation asks for the interrupt if it lets a line fall.** -/
theorem Told.asks {first : UInt8} (h : Told first past j) (op : Operation) :
    (j.perform op).2 = true ↔ ∃ k, ¬ Pulls first past k ∧ Pulls first (op :: past) k := by
  obtain ⟨q, hlines, hq⟩ := perform_observes j op
  have hasked : (j.perform op).2 = (j.lines &&& ~~~(j.perform op).1.lineLevels != 0) := by
    rw [hq, ← hlines]
    rfl
  rw [hasked, h.lines, clear_ne_zero j.toNat_lineLevels_lt]
  simp only [← h.pulls, ← (h.perform op).pulls, Bool.not_eq_false]

/-- An operation after which no new line is pulled down is silent. -/
theorem Told.silent {first : UInt8} (h : Told first past j) (op : Operation)
    (hkept : ∀ k, Pulls first (op :: past) k → Pulls first past k) : (j.perform op).2 = false := by
  apply Bool.eq_false_iff.2
  intro hasks
  obtain ⟨k, hhigh, hlow⟩ := (h.asks op).1 hasks
  exact hhigh (hkept k hlow)

theorem Told.silent_release {first : UInt8} (h : Told first past j) (button : Button) :
    (j.setButton button false).2 = false := by
  apply h.silent (.button button false)
  rintro k ⟨other, hline, hheld, hselected⟩
  refine ⟨other, hline, ?_, hselected⟩
  unfold heldAfter at hheld
  split at hheld
  · cases hheld
  · exact hheld

/-- A press is silent if the button is held already, its group is not selected or its line is low. -/
theorem Told.silent_press {first : UInt8} (h : Told first past j) {button : Button}
    (hquiet : heldAfter button past = true ∨ ¬ Selects (selectionAfter first past) button ∨
      Pulls first past button.lineNumber) : (j.setButton button true).2 = false := by
  apply h.silent (.button button true)
  rintro k ⟨other, hline, hheld, hselected⟩
  unfold heldAfter at hheld
  split at hheld
  · rename_i hsame
    subst hsame
    rcases hquiet with hheld' | hunselected | hpulled
    · exact ⟨button, hline, hheld', hselected⟩
    · exact absurd hselected hunselected
    · exact hline ▸ hpulled
  · exact ⟨other, hline, hheld, hselected⟩

/-- A write is silent if it selects no group that was not selected. -/
theorem Told.silent_write {first : UInt8} (h : Told first past j) {v : UInt8}
    (hquiet : ∀ button, Selects (v &&& 0x30) button → Selects (selectionAfter first past) button) :
    (j.write v).2 = false := by
  apply h.silent (.write v)
  rintro k ⟨button, hline, hheld, hselected⟩
  exact ⟨button, hline, hheld, hquiet button hselected⟩

/-- The latch is its selection, its groups and the lines that it last saw. -/
theorem eq_of_groups {p q : Joypad} (hselect : p.select = q.select)
    (hgroup : ∀ direction, p.group direction = q.group direction) (hp : p.lines = p.lineLevels)
    (hq : q.lines = q.lineLevels) : p = q := by
  obtain ⟨select, directions, actions, lines⟩ := p
  obtain ⟨select', directions', actions', lines'⟩ := q
  obtain rfl : select = select' := hselect
  obtain rfl : directions = directions' := hgroup true
  obtain rfl : actions = actions' := hgroup false
  obtain rfl : lines = lines' := hp.trans hq.symm
  rfl

/-- **Events of two buttons commute.** -/
theorem setButton_comm (j : Joypad) {button other : Button} (hne : button ≠ other)
    (pressed pressed' : Bool) :
    ((j.setButton button pressed).1.setButton other pressed').1 =
      ((j.setButton other pressed').1.setButton button pressed).1 := by
  apply eq_of_groups
  · simp only [setButton_select]
  · intro direction
    simp only [setButton_group]
    by_cases hbutton : button.isDirection = direction
    · by_cases hother : other.isDirection = direction
      · -- In one group the two are on different lines.
        have hline : button.lineNumber ≠ other.lineNumber :=
          fun hline => hne (Button.eq_of_line (hbutton.trans hother.symm) hline)
        rw [if_pos hbutton, if_pos hother, if_pos hother, if_pos hbutton, hold_comm _ hline]
      · rw [if_neg hother, if_neg hother]
    · rw [if_neg hbutton, if_neg hbutton]
  · exact perform_lines _ (.button other pressed')
  · exact perform_lines _ (.button button pressed)

end Joypad

namespace Board

/-- The board after an operation on its latch: a write to P1, or an event of a button. -/
def handle (b : Board) : Joypad.Operation → Board
  | .write v => (b.write 0xFF00 v).value
  | .button button pressed => b.setButton button pressed

theorem handle_eq (b : Board) (op : Joypad.Operation) :
    b.handle op = b.withJoypad (b.joypad.perform op) := by
  cases op with
  | write v => rfl
  | button button pressed => rfl

/-- **The board hands on what the latch asks for**, and no other request. -/
theorem handle_isRequested (b : Board) (op : Joypad.Operation) (s : Source) :
    (b.handle op).interrupts.isRequested s =
      (b.interrupts.isRequested s || (b.joypad.perform op).2 && .joypad == s) := by
  rw [handle_eq]
  exact isRequested_raiseIf b.interrupts _ .joypad s

end Board

namespace Joypad

/-- **What P1 shows after a history of operations.** -/
structure Shows (first : UInt8) (past : List Operation) (j : Joypad) : Prop where
  read : j.read = 0xC0 ||| selectionAfter first past ||| j.lines
  low : ∀ k, j.LineLow k ↔ Pulls first past k
  held : ∀ button, j.isHeld button = heldAfter button past
  anyLow : j.anyLineLow = true ↔ ∃ k, j.LineLow k
  visible : j.lines = j.lineLevels
  nibble : j.lines = j.read &&& 0x0F

/-- **When a board requests the interrupt**, if its latch has such a history. -/
structure Asks (first : UInt8) (past : List Operation) (b : Board) : Prop where
  latch : ∀ op, (b.handle op).joypad = (b.joypad.perform op).1
  falls : ∀ op s, (b.handle op).interrupts.isRequested s = true ↔
    b.interrupts.isRequested s = true ∨
      s = .joypad ∧ ∃ k, ¬ b.joypad.LineLow k ∧ (b.handle op).joypad.LineLow k
  release : ∀ button, (b.handle (.button button false)).interrupts = b.interrupts
  press : ∀ button, heldAfter button past = true ∨
    ¬ Selects (selectionAfter first past) button ∨ b.joypad.LineLow button.lineNumber →
      (b.handle (.button button true)).interrupts = b.interrupts
  deselect : ∀ v, (∀ button, Selects (v &&& 0x30) button →
    Selects (selectionAfter first past) button) → (b.handle (.write v)).interrupts = b.interrupts

theorem Told.select_low {first : UInt8} (hfirst : first &&& 0x0F = 0) (h : Told first past j) :
    j.select &&& 0x0F = 0 := by
  rw [h.select]
  exact selectionAfter_low hfirst past

theorem Told.lineLow {first : UInt8} (hfirst : first &&& 0x0F = 0) (h : Told first past j)
    (k : Fin 4) : j.LineLow k ↔ Pulls first past k := by
  rw [lineLow_iff (h.select_low hfirst), h.pulls]

theorem Told.shows {first : UInt8} (hfirst : first &&& 0x0F = 0) (h : Told first past j) :
    Shows first past j where
  read := by
    rw [← h.select, h.lines]
    rfl
  low := h.lineLow hfirst
  held := h.held
  anyLow := by
    rw [anyLineLow_iff]
    simp only [h.lineLow hfirst, h.pulls]
  visible := h.lines
  nibble := by
    rw [read_low (h.select_low hfirst), h.lines]

theorem Told.requests {first : UInt8} (hfirst : first &&& 0x0F = 0) {b : Board}
    (h : Told first past b.joypad) : Asks first past b := by
  have hlatch (op : Operation) : (b.handle op).joypad = (b.joypad.perform op).1 := by
    rw [Board.handle_eq]
    rfl
  have hsilent {op : Operation} (hop : (b.joypad.perform op).2 = false) :
      (b.handle op).interrupts = b.interrupts := by
    rw [Board.handle_eq]
    show b.interrupts.raiseIf (b.joypad.perform op).2 .joypad = b.interrupts
    rw [hop]
    rfl
  constructor
  case latch => exact hlatch
  case falls =>
    intro op s
    -- the latch tells the visible lines before and after, so it asks exactly when one has fallen
    have hafter : Told first (op :: past) (b.handle op).joypad := by
      rw [hlatch]
      exact h.perform op
    rw [Board.handle_isRequested, Bool.or_eq_true, Bool.and_eq_true, h.asks, beq_iff_eq]
    simp only [h.lineLow hfirst, hafter.lineLow hfirst, and_comm, eq_comm]
  case release =>
    intro button
    exact hsilent (h.silent_release button)
  case press =>
    intro button hquiet
    rw [h.lineLow hfirst] at hquiet
    exact hsilent (h.silent_press hquiet)
  case deselect =>
    intro v hquiet
    exact hsilent (h.silent_write hquiet)

/-- **P1 shows what is held and selected, and a falling line requests the interrupt**, after any
operations on a latch as it is at first. -/
theorem requests_on_falls (h : Initial start) (past : List Operation) :
    Shows start.select past (start.through past) ∧
      (∀ b : Board, b.joypad = start.through past → Asks start.select past b) ∧
      ∀ button other pressed pressed', button ≠ other →
        start.through (.button other pressed' :: .button button pressed :: past) =
          start.through (.button button pressed :: .button other pressed' :: past) := by
  have htold := through_told h past
  have hfirst : start.select &&& 0x0F = 0 := by
    rcases h with rfl | rfl
    · rfl
    · rfl
  refine ⟨htold.shows hfirst, ?_, ?_⟩
  · intro b hb
    rw [← hb] at htold
    exact htold.requests hfirst
  · intro button other pressed pressed' hne
    exact setButton_comm (start.through past) hne pressed pressed'

/-- A button held in a group that is not selected pulls its line down once the group is. -/
theorem requests_on_falls_selecting :
    let past := [Operation.write 0x10, .button .up true]
    ((afterBoot.through past).read = 0xDF ∧ (afterBoot.through past).isHeld .up = true) ∧
      ∃ k, ¬ Pulls 0 past k ∧ Pulls 0 (.write 0x20 :: past) k := by
  intro past
  have hshows := (requests_on_falls (.inr rfl) past).1
  have hafter := (requests_on_falls (.inr rfl) (.write 0x20 :: past)).1
  refine ⟨⟨hshows.read.trans (by decide), hshows.held .up⟩, 2, ?_, ?_⟩
  · intro hpulls
    exact absurd ((hshows.low 2).2 hpulls) (by decide)
  · exact (hafter.low 2).1 (by decide)

end Joypad

end Handheld
