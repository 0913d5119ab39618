import Handheld.Proofs.Board.BootOverlay
import Handheld.Proofs.Machine.Interrupts
import Handheld.Proofs.Machine.Reset

/-!
# From the boot image to the cartridge

A machine that is loaded with a boot image starts with the image over the cartridge and, on color
hardware, with output in color. A run can end either state and cannot bring it back.

* `Machine.log`: what the CPU does to the board in a run, each operation with the board it finds.
* `log_keeps`: what every operation and every button keep, a run keeps.
* `Machine.mapped`, `Machine.darkened`: what the operations of a run say about the two states.
* `boot_one_way`: so it is, at every moment of a run.
-/

namespace Handheld

namespace Deed

variable {β : Type} [Bus β] {b d e : β} {l l' : List (β × Deed)}

theorem Leads.trans (h : Leads b l d) (h' : Leads d l' e) : Leads b (l ++ l') e := by
  induction h' with
  | start => rwa [List.append_nil]
  | deed _ op ih =>
    rw [← List.append_assoc]
    exact ih.deed op

/-- **What every operation keeps of a history, many keep**, and every one of them finds it. -/
theorem Leads.keeps {P : List (β × Deed) → β → Prop}
    (hstep : ∀ past b op, P past b → P (past ++ [(b, op)]) (op.perform b)) (h : Leads b l d)
    {past : List (β × Deed)} (hb : P past b) :
    P (past ++ l) d ∧ ∀ n x op, l[n]? = some (x, op) → P (past ++ l.take n) x := by
  induction h with
  | start =>
    rw [List.append_nil]
    exact ⟨hb, fun n x op hn => by simp at hn⟩
  | @deed l d _ op ih =>
    obtain ⟨hd, hall⟩ := ih
    refine ⟨?_, ?_⟩
    · rw [← List.append_assoc]
      exact hstep _ d op hd
    · intro n x op' hn
      rw [List.getElem?_append] at hn
      split at hn
      · rename_i hlt
        rw [List.take_append_of_le_length (Nat.le_of_lt hlt)]
        exact hall n x op' hn
      · -- The last operation finds the history of all the others.
        rename_i hge
        obtain ⟨hlast, heq⟩ := List.getElem?_eq_some_iff.1 hn
        rw [List.length_singleton] at hlast
        obtain rfl : n = l.length := by omega
        obtain rfl : d = x := by simpa using congrArg Prod.fst heq
        rw [List.take_left]
        exact hd

end Deed

namespace Machine

variable {m m₀ : Machine} {boot image : ByteArray} {model : Model}

/-- The operations of the steps that a frame runs. -/
def deedsUntil (start : Nat) : (steps elapsed : Nat) → Machine → List (Board × Deed)
  | 0, _, _ => []
  | steps + 1, elapsed, m =>
    if m.frames ≠ start ∨ frameLimit ≤ elapsed then []
    else
      let next := m.step.value.2
      let elapsed := elapsed + m.step.value.1
      if Ppu.dotsPerFrame ≤ elapsed && next.cannotComplete then m.deeds
      else m.deeds ++ deedsUntil start steps elapsed next

/-- The operations of a call; a button is no operation of the CPU. -/
def callDeeds (m : Machine) : Call → List (Board × Deed)
  | .step => m.deeds
  | .runFrame => if m.isLoaded then deedsUntil m.frames (frameLimit / 2) 0 m else []
  | .setButton _ _ => []

/-- **What the CPU does to the board in a run**, in order, each deed with the board it finds. -/
def log (m : Machine) : List Call → List (Board × Deed)
  | [] => []
  | call :: calls => m.callDeeds call ++ (m.perform call).value.log calls

/-- The machine after some calls. -/
def afterCalls (m : Machine) (calls : List Call) : Machine :=
  calls.foldl (fun m call => (m.perform call).value) m

/-- The operations of a frame lead to the board that it returns with. -/
theorem leads_until (start steps elapsed : Nat) (m : Machine) (reported : List Event) :
    Deed.Leads m.board (deedsUntil start steps elapsed m)
      (runUntil start steps elapsed m reported).value.board := by
  induction steps generalizing elapsed m reported with
  | zero => exact .start
  | succ steps ih =>
    unfold deedsUntil runUntil
    simp only
    split
    · exact .start
    · split
      · exact leads_step m
      · exact (leads_step m).trans (ih _ _ _)

/-- **What every operation and every button keep of a history, a run keeps.** -/
theorem log_keeps {P : List (Board × Deed) → Board → Prop}
    (hstep : ∀ past b e, P past b → P (past ++ [(b, e)]) (e.perform b))
    (hbutton : ∀ past b button pressed, P past b → P past (b.setButton button pressed))
    (calls : List Call) {past : List (Board × Deed)} (h : P past m.board) :
    P (past ++ m.log calls) (m.afterCalls calls).board ∧
      ∀ n b e, (m.log calls)[n]? = some (b, e) → P (past ++ (m.log calls).take n) b := by
  induction calls generalizing m past with
  | nil =>
    rw [log, List.append_nil]
    exact ⟨h, fun n b e hn => by simp at hn⟩
  | cons call calls ih =>
    have hcall : P (past ++ m.callDeeds call) (m.perform call).value.board ∧
        ∀ n b e, (m.callDeeds call)[n]? = some (b, e) →
          P (past ++ (m.callDeeds call).take n) b := by
      cases call with
      | step => exact (leads_step m).keeps hstep h
      | runFrame =>
        unfold callDeeds perform runFrame
        simp only
        split
        · exact (leads_until _ _ _ m []).keeps hstep h
        · exact Deed.Leads.start.keeps hstep h
      | setButton button pressed =>
        unfold callDeeds
        rw [List.append_nil]
        exact ⟨hbutton past m.board button pressed h, fun n b e hn => by simp at hn⟩
    obtain ⟨hafter, hduring⟩ := hcall
    obtain ⟨hend, hrest⟩ := ih hafter
    refine ⟨?_, ?_⟩
    · rw [log, ← List.append_assoc]
      exact hend
    · intro n b e hn
      -- the operation is one of this call, or of a later one that finds the history of this call
      rw [log] at hn ⊢
      rw [List.getElem?_append] at hn
      split at hn
      · rename_i hlt
        rw [List.take_append_of_le_length (Nat.le_of_lt hlt)]
        exact hduring n b e hn
      · rename_i hge
        have hlater := hrest _ b e hn
        rw [List.take_append, List.take_of_length_le (Nat.not_lt.1 hge), ← List.append_assoc]
        exact hlater

/-- No operation so far has uncovered the cartridge. -/
def mapped (past : List (Board × Deed)) : Bool := !past.any fun d => d.2.unmaps

/-- An operation so far has switched to monochrome output. -/
def darkened (past : List (Board × Deed)) : Bool := past.any fun d => d.1.darkens d.2

/-- What a run keeps: the boot image and the output are as the operations so far say. -/
structure Phase (model : Model) (boot : ByteArray) (past : List (Board × Deed)) (b : Board) :
    Prop where
  overlaid : b.Overlaid model boot (mapped past)
  output : b.ppu.colorOutput = (model.isColor && !darkened past)

theorem mapped_concat (past : List (Board × Deed)) (b : Board) (e : Deed) :
    mapped (past ++ [(b, e)]) = (mapped past && !e.unmaps) := by
  unfold mapped
  rw [List.any_append, Bool.not_or]
  simp

theorem darkened_concat (past : List (Board × Deed)) (b : Board) (e : Deed) :
    darkened (past ++ [(b, e)]) = (darkened past || b.darkens e) := by
  unfold darkened
  rw [List.any_append]
  simp

/-- **Every operation keeps the two states as the history says.** -/
theorem perform_phase {past : List (Board × Deed)} {b : Board} (h : Phase model boot past b)
    (e : Deed) : Phase model boot (past ++ [(b, e)]) (e.perform b) := by
  constructor
  case overlaid =>
    rw [mapped_concat]
    exact Board.perform_overlaid h.overlaid e
  case output =>
    have houtput : (e.perform b).ppu.colorOutput = _ :=
      congrArg Prod.snd (Board.perform_outlook b e)
    rw [houtput, h.output, darkened_concat, Bool.not_or, Bool.and_assoc]

/-- A machine starts with the boot image over the cartridge, and in color if its hardware can. -/
theorem load_phase (h : (m₀.load (some boot) image).value = (.ok (), m)) :
    Phase m₀.model boot [] m.board ∧ boot.size = m₀.model.bootImageSize := by
  have hsize : boot.size = m₀.model.bootImageSize := by
    by_contra hwrong
    have hrejected : start m₀.model (some boot) image =
        .error (.wrongBootImageSize boot.size m₀.model.bootImageSize) := by
      have hcheck : checkBoot m₀.model (some boot) =
          .error (.wrongBootImageSize boot.size m₀.model.bootImageSize) := if_neg hwrong
      unfold start
      rw [hcheck]
      rfl
    rw [load_rejected m₀ hrejected] at h
    cases congrArg Prod.fst h
  refine ⟨?_, hsize⟩
  rcases load_cases m₀ (some boot) image with ⟨e, he⟩ | ⟨r, -, hload⟩
  · rw [he] at h
    cases congrArg Prod.fst h
  · rw [hload] at h
    obtain rfl : startWith m₀.model r.value (some boot) = m := congrArg Prod.snd h
    exact ⟨⟨rfl, rfl, rfl⟩, (Bool.and_true _).symm⟩

/-- **Neither state comes back** on the way from one board to another. -/
structure OneWay (b d : Board) : Prop where
  boot : b.bootMapped = false → d.bootMapped = false
  output : b.ppu.colorOutput = false → d.ppu.colorOutput = false

theorem Phase.bootMapped {past : List (Board × Deed)} {b : Board} (h : Phase model boot past b) :
    b.bootMapped = mapped past := by
  unfold Board.bootMapped
  rw [h.overlaid.boot]
  cases mapped past with
  | true => rfl
  | false => rfl

/-- More operations uncover and darken no less. -/
theorem Phase.oneWay {past later : List (Board × Deed)} {b d : Board}
    (h : Phase model boot past b) (h' : Phase model boot (past ++ later) d) : OneWay b d := by
  constructor
  case boot =>
    intro hboot
    rw [h.bootMapped] at hboot
    rw [h'.bootMapped]
    unfold mapped at hboot ⊢
    rw [List.any_append, Bool.not_or, hboot, Bool.false_and]
  case output =>
    intro houtput
    rw [h.output] at houtput
    rw [h'.output]
    unfold darkened at houtput ⊢
    rw [List.any_append, Bool.not_or, ← Bool.and_assoc, houtput, Bool.false_and]

/-- **A moment of a run**, after the operations `past`: what is read from the ROM area, and whether
the output is in color. -/
structure Moment (model : Model) (boot : ByteArray) (past : List (Board × Deed)) (b : Board) :
    Prop where
  reads : b.Reads model boot (mapped past)
  bootMapped : b.bootMapped = mapped past
  output : b.ppu.colorOutput = (model.isColor && !darkened past)

theorem Phase.moment {past : List (Board × Deed)} {b : Board} (h : Phase model boot past b)
    (hsize : boot.size = model.bootImageSize) : Moment model boot past b :=
  ⟨h.overlaid.reads hsize, h.bootMapped, h.output⟩

/-- **An operation at such a moment.** What the CPU and the transfer engines read during it from the
ROM area is what is read before it, and what it writes there reaches the bank registers. -/
structure Acts (model : Model) (boot : ByteArray) (past : List (Board × Deed)) (b : Board)
    (e : Deed) : Prop extends Moment model boot past b where
  during : ∀ x, b.ReadFrom e x → x.Reads model boot (mapped past)
  banks : ∀ addr v c, e = .write addr v → addr.toNat < 0x8000 → b.cartridge = some c →
    (e.perform b).cartridge = some { c with banking := c.banking.write addr v }

theorem Phase.acts {past : List (Board × Deed)} {b : Board} (h : Phase model boot past b)
    (hsize : boot.size = model.bootImageSize) (e : Deed) : Acts model boot past b e where
  toMoment := h.moment hsize
  during := by
    intro x hx
    exact (hx.elapses.overlaid h.overlaid).reads hsize
  banks := by
    rintro addr v c rfl haddr hc
    exact Board.write_banks hc haddr v

/-- **The boot image gives way once.** At every moment of a run of a machine that was loaded with a
boot image the image covers its part of the ROM area until the first write to `FF50`, and never
again. The output is in color on color hardware, until a write to `FF4C` with bit 2 set that comes
while the image is there. -/
theorem boot_one_way (h : (m₀.load (some boot) image).value = (.ok (), m)) (calls : List Call) :
    Moment m₀.model boot (m.log calls) (m.afterCalls calls).board ∧
      ∀ n b e, (m.log calls)[n]? = some (b, e) →
        Acts m₀.model boot ((m.log calls).take n) b e ∧ OneWay b (m.afterCalls calls).board ∧
          ∀ k d e', n ≤ k → (m.log calls)[k]? = some (d, e') → OneWay b d := by
  obtain ⟨hstart, hsize⟩ := load_phase h
  obtain ⟨hend, hall⟩ := log_keeps (P := Phase m₀.model boot)
    (fun past b e hb => perform_phase hb e)
    (fun past b button pressed hb => ⟨⟨hb.overlaid.model, hb.overlaid.boot, hb.overlaid.loaded⟩,
      hb.output⟩) calls hstart
  rw [List.nil_append] at hend
  simp only [List.nil_append] at hall
  refine ⟨hend.moment hsize, ?_⟩
  intro n b e hn
  have hphase := hall n b e hn
  refine ⟨hphase.acts hsize e, ?_, ?_⟩
  · rw [← List.take_append_drop n (m.log calls)] at hend
    exact hphase.oneWay hend
  · intro k d e' hle hk
    have hlater := hall k d e' hk
    have htake := (List.take_append_drop n ((m.log calls).take k)).symm
    rw [List.take_take, Nat.min_eq_left hle] at htake
    rw [htake] at hlater
    exact hphase.oneWay hlater

/-- A boot image that uncovers the cartridge: it loads `A` and stores it to `FF50`. -/
def leavingBoot : ByteArray :=
  ⟨((((Array.replicate 0x100 0).setIfInBounds 0 0x3E).setIfInBounds 1 0x01).setIfInBounds 2
    0xE0).setIfInBounds 3 0x50⟩

/-- A machine that starts with it. -/
def leavingMachine : Machine := ((powerOn .mono).load (some leavingBoot) ramImage).value.2

/-- After its first instruction the image is still there, after the second one it is gone. -/
theorem boot_one_way_leaving :
    ((powerOn .mono).load (some leavingBoot) ramImage).value = (.ok (), leavingMachine) ∧
      (leavingMachine.afterCalls [.step]).board.read 0x0000 = 0x3E ∧
      ∃ c, (leavingMachine.afterCalls [.step, .step]).board.cartridge = some c ∧
        (leavingMachine.afterCalls [.step, .step]).board.read 0x0000 = c.read 0x0000 := by
  have hload : ((powerOn .mono).load (some leavingBoot) ramImage).value =
      (.ok (), leavingMachine) := load_of_isOk (by decide +kernel)
  have hcovered := (boot_one_way hload [.step]).1.reads.covered (by decide +kernel) 0x0000
    (.inl (by decide))
  have huncovered := (boot_one_way hload [.step, .step]).1.reads.uncovered 0x0000 (by decide)
  refine ⟨hload, ?_, huncovered ?_⟩
  · have hbyte : ∀ hsize : 0 < leavingBoot.size, leavingBoot[0] = 0x3E := by decide +kernel
    obtain ⟨hsize, hread⟩ := hcovered
    exact hread.trans (hbyte hsize)
  · have hgone : mapped (leavingMachine.log [.step, .step]) = false := by decide +kernel
    intro hmapped
    exact absurd (hgone.symm.trans hmapped) Bool.false_ne_true

end Machine

end Handheld
