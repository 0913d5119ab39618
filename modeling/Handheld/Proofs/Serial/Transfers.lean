import Mathlib.Algebra.Ring.Nat
import Handheld.Word
import Handheld.Proofs.Serial.Spending

/-!
# Transfers, cycle by cycle

With nothing plugged into the link port a transfer depends on nothing but the cycles since the write
to SC that started it: how they come in steps, and what is written to SB meanwhile, makes no
difference.

* `withOnes`: a byte with ones shifted into its low end.
* `Elapsed`: a transfer after some cycles; `Passes`: what more of them do.
* `Elapsed.cycle`, `Elapsed.step`, `Elapsed.run`: one cycle, any number of them, any calls that spare
  SC.
* `Resting`, `reachable_phase`: the port rests in every reachable state in which no transfer is under
  way.
* `OnTime`: the registers and the interrupt at each cycle of a transfer.
* `transfers_by_cycle` (every reachable state).
-/

namespace Handheld.Serial

/-- What happens to the port. -/
inductive Call where
  | write (addr : UInt16) (v : UInt8)
  | step (cycles : Nat)

/-- Performs a call; true if the interrupt was requested. -/
def perform (s : Serial) : Call → Serial × Bool
  | .write addr v => (s.write addr v, false)
  | .step cycles => s.step cycles

/-- Every state that the port can be in. -/
inductive Reachable : Serial → Prop where
  | powerOn (model : Model) : Reachable { model }
  | perform {s : Serial} (h : Reachable s) (call : Call) : Reachable (s.perform call).1

/-- Performs calls in a row, and counts those that requested the interrupt. -/
def run (s : Serial) : List Call → Serial × Nat
  | [] => (s, 0)
  | call :: rest =>
    let after := run (s.perform call).1 rest
    (after.1, (s.perform call).2.toNat + after.2)

def Call.cycles : Call → Nat
  | .write .. => 0
  | .step cycles => cycles

/-- The cycles that calls take. -/
def elapsed (calls : List Call) : Nat := (calls.map Call.cycles).sum

/-- None of the calls is a write to `addr`. -/
def Spares (addr : UInt16) (calls : List Call) : Prop := ∀ v, Call.write addr v ∉ calls

variable {s : Serial} {r q : Serial × Bool} {c v : UInt8} {addr : UInt16} {b t t' t'' : Nat}
  {call : Call} {calls rest : List Call}

theorem Spares.head (h : Spares addr (call :: rest)) (v : UInt8) : call ≠ .write addr v := by
  rintro rfl
  exact h v List.mem_cons_self

theorem Spares.tail (h : Spares addr (call :: rest)) : Spares addr rest :=
  fun v hv => h v (List.mem_cons_of_mem _ hv)

theorem run_append (s : Serial) (calls later : List Call) :
    s.run (calls ++ later) =
      (((s.run calls).1.run later).1, (s.run calls).2 + ((s.run calls).1.run later).2) := by
  induction calls generalizing s with
  | nil => simp only [List.nil_append, run, Nat.zero_add]
  | cons call rest ih => simp only [List.cons_append, run, ih, Nat.add_assoc]

theorem elapsed_cons (call : Call) (rest : List Call) :
    elapsed (call :: rest) = call.cycles + elapsed rest := List.sum_cons

/-- Only two addresses are registers of the port. -/
theorem write_other (h1 : addr ≠ 0xFF01) (h2 : addr ≠ 0xFF02) (v : UInt8) : s.write addr v = s := by
  unfold write
  split
  · exact absurd rfl h1
  · exact absurd rfl h2
  · rfl

/-- A write that spares SC changes nothing but SB. -/
theorem perform_write (h : ∀ w, Call.write addr v ≠ .write 0xFF02 w) :
    ∃ data, s.perform (.write addr v) = ({ s with data }, false) ∧
      ((∀ w, Call.write addr v ≠ .write 0xFF01 w) → data = s.data) := by
  have h2 : addr ≠ 0xFF02 := fun heq => h v (heq ▸ rfl)
  by_cases h1 : addr = 0xFF01
  · subst h1
    exact ⟨v, rfl, fun hne => absurd rfl (hne v)⟩
  · exact ⟨s.data, congrArg (·, false) (write_other h1 h2 v), fun _ => rfl⟩

/-- `v` with `k` ones shifted into its low end. -/
def withOnes (k : Nat) (v : UInt8) : UInt8 := UInt8.ofNat (v.toNat * 2 ^ k + (2 ^ k - 1))

theorem withOnes_zero (v : UInt8) : withOnes 0 v = v := by
  rw [withOnes, Nat.pow_zero, Nat.mul_one, Nat.sub_self, Nat.add_zero, UInt8.ofNat_toNat]

theorem withOnes_one (v : UInt8) : withOnes 1 v = (v <<< 1) ||| 1 := by
  revert v
  exact forall_byte (by decide +kernel)

theorem toNat_withOnes (k : Nat) (v : UInt8) :
    (withOnes k v).toNat = (v.toNat * 2 ^ k + (2 ^ k - 1)) % 256 := UInt8.toNat_ofNat'

/-- Ones behind ones. -/
theorem withOnes_withOnes (j k : Nat) (v : UInt8) :
    withOnes j (withOnes k v) = withOnes (k + j) v := by
  have hpos : 0 < 2 ^ k := Nat.two_pow_pos k
  have hones : (2 ^ k - 1) * 2 ^ j + (2 ^ j - 1) = 2 ^ (k + j) - 1 := by
    have hj : 0 < 2 ^ j := Nat.two_pow_pos j
    have hle : 2 ^ j ≤ 2 ^ (k + j) := Nat.pow_le_pow_right (by decide) (Nat.le_add_left j k)
    rw [Nat.sub_mul, Nat.one_mul, ← Nat.pow_add]
    omega
  apply UInt8.toNat_inj.1
  calc (withOnes j (withOnes k v)).toNat
      = ((v.toNat * 2 ^ k + (2 ^ k - 1)) % 256 * 2 ^ j + (2 ^ j - 1)) % 256 := by
        rw [toNat_withOnes, toNat_withOnes]
    _ = ((v.toNat * 2 ^ k + (2 ^ k - 1)) * 2 ^ j + (2 ^ j - 1)) % 256 := by
        rw [Nat.add_mod, Nat.mod_mul_mod, ← Nat.add_mod]
    _ = (v.toNat * 2 ^ (k + j) + (2 ^ (k + j) - 1)) % 256 := by
        rw [Nat.add_mul, Nat.mul_assoc, ← Nat.pow_add, Nat.add_assoc, hones]
    _ = (withOnes (k + j) v).toNat := (toNat_withOnes (k + j) v).symm

/-- Bits that a transfer has shifted in after `t` cycles. -/
def shifted (b t : Nat) : Nat := min 8 (t / b)

/-- **`t` cycles after a write of `c` to SC**, which started a transfer of `b` cycles for each bit. -/
structure Elapsed (c : UInt8) (b t : Nat) (s : Serial) : Prop where
  control : s.control = if t < 8 * b then c else c &&& 0x7F
  transfer : s.transfer = if t < 8 * b then some ⟨7 - t / b, b - t % b, b⟩ else none

/-- **From `t` cycles to `t'`**: the bits of that time are shifted in, and the interrupt is requested
if they complete the transfer. -/
structure Passes (c : UInt8) (b t t' : Nat) (s : Serial) (r : Serial × Bool) : Prop where
  place : Elapsed c b t' r.1
  data : r.1.data = withOnes (shifted b t' - shifted b t) s.data
  asks : r.2 = true ↔ t < 8 * b ∧ 8 * b ≤ t'

theorem shifted_mono (b : Nat) (h : t ≤ t') : shifted b t ≤ shifted b t' := by
  have hdiv : t / b ≤ t' / b := Nat.div_le_div_right h
  unfold shifted
  omega

/-- The ones of one time behind those of the time before. -/
theorem withOnes_shifted (b : Nat) (v : UInt8) (ht : t ≤ t') (ht' : t' ≤ t'') :
    withOnes (shifted b t'' - shifted b t') (withOnes (shifted b t' - shifted b t) v) =
      withOnes (shifted b t'' - shifted b t) v := by
  have hone := shifted_mono b ht
  have htwo := shifted_mono b ht'
  have hsum : shifted b t' - shifted b t + (shifted b t'' - shifted b t') =
      shifted b t'' - shifted b t := by omega
  rw [withOnes_withOnes, hsum]

theorem elapsed_iff : Elapsed c b t s ↔ (s.control = if t < 8 * b then c else c &&& 0x7F) ∧
    s.transfer = if t < 8 * b then some ⟨7 - t / b, b - t % b, b⟩ else none := by
  constructor
  · rintro ⟨hcontrol, htransfer⟩
    exact ⟨hcontrol, htransfer⟩
  · rintro ⟨hcontrol, htransfer⟩
    exact ⟨hcontrol, htransfer⟩

theorem elapsed_underway (h : t < 8 * b) :
    Elapsed c b t s ↔ s.control = c ∧ s.transfer = some ⟨7 - t / b, b - t % b, b⟩ := by
  rw [elapsed_iff, if_pos h, if_pos h]

theorem elapsed_over (h : ¬t < 8 * b) :
    Elapsed c b t s ↔ s.control = c &&& 0x7F ∧ s.transfer = none := by
  rw [elapsed_iff, if_neg h, if_neg h]

/-- No bit is shifted in. -/
theorem Passes.of_same (h : Elapsed c b t' r.1) (hbits : shifted b t' = shifted b t)
    (hdata : r.1.data = s.data) (hasks : r.2 = false) (hnone : t < 8 * b → t' < 8 * b) :
    Passes c b t t' s r := by
  refine ⟨h, ?_, ?_⟩
  · rw [hbits, Nat.sub_self, withOnes_zero, hdata]
  · rw [hasks]
    apply iff_of_false Bool.false_ne_true
    rintro ⟨hlt, hle⟩
    exact absurd (hnone hlt) (Nat.not_lt.2 hle)

/-- A bit is shifted in. -/
theorem Passes.of_bit (h : Elapsed c b t' r.1) (hbits : shifted b t' = shifted b t + 1)
    (hdata : r.1.data = (s.data <<< 1) ||| 1) (hasks : r.2 = true ↔ t < 8 * b ∧ 8 * b ≤ t') :
    Passes c b t t' s r := by
  refine ⟨h, ?_, hasks⟩
  rw [hbits, Nat.add_sub_cancel_left, withOnes_one, hdata]

theorem Passes.trans (h : Passes c b t t' s r) (h' : Passes c b t' t'' r.1 q) (ht : t ≤ t')
    (ht' : t' ≤ t'') : Passes c b t t'' s (q.1, r.2 || q.2) := by
  refine ⟨h'.place, ?_, ?_⟩
  · rw [h'.data, h.data, withOnes_shifted b s.data ht ht']
  · rw [Bool.or_eq_true, h.asks, h'.asks]
    omega

/-- A cycle within a bit, or the last one of it. -/
theorem place_cycle (hb : b = 16 ∨ b = 512) (t : Nat) :
    (t % b + 1 < b ∧ (t + 1) / b = t / b ∧ (t + 1) % b = t % b + 1) ∨
      (t % b + 1 = b ∧ (t + 1) / b = t / b + 1 ∧ (t + 1) % b = 0) := by
  rcases hb with rfl | rfl <;> omega

/-- The last cycle of a bit shifts it in. -/
theorem Elapsed.last_cycle (h : Elapsed c b t s) (hunder : t < 8 * b) (hlast : t % b + 1 = b)
    (hdiv : (t + 1) / b = t / b + 1) (hmod : (t + 1) % b = 0) :
    Passes c b t (t + 1) s (s.step 1) := by
  obtain ⟨hcontrol, htransfer⟩ := (elapsed_underway hunder).1 h
  have hpos : 0 < b := by omega
  have hbits : t / b < 8 := (Nat.div_lt_iff_lt_mul hpos).2 hunder
  have hnext : t + 1 < 8 * b ↔ t / b + 1 < 8 := hdiv ▸ (Nat.div_lt_iff_lt_mul hpos).symm
  have hleft : b - t % b = 1 := by omega
  have hshifted : shifted b (t + 1) = shifted b t + 1 := by
    unfold shifted
    omega
  rw [hleft] at htransfer
  obtain hseven | ⟨bits, hmore⟩ : 7 - t / b = 0 ∨ ∃ bits, 7 - t / b = bits + 1 := by
    cases 7 - t / b with
    | zero => exact .inl rfl
    | succ bits => exact .inr ⟨bits, rfl⟩
  · -- the eighth bit ends the transfer
    have hover : ¬t + 1 < 8 * b := by omega
    rw [hseven] at htransfer
    rw [step_busy htransfer, clock_last s b (Nat.lt_irrefl 1)]
    refine .of_bit ((elapsed_over hover).2 ⟨?_, rfl⟩) hshifted rfl ?_
    · exact congrArg (· &&& 0x7F) hcontrol
    · exact iff_of_true rfl ⟨hunder, Nat.le_of_not_lt hover⟩
  · have hgoes : t + 1 < 8 * b := by omega
    rw [hmore] at htransfer
    rw [step_busy htransfer, clock_next s b bits (Nat.lt_irrefl 1), clock_running _ _ _ hpos]
    refine .of_bit ((elapsed_underway hgoes).2 ⟨hcontrol, ?_⟩) hshifted rfl ?_
    · have hbitsAfter : 7 - (t + 1) / b = bits := by omega
      rw [hbitsAfter, hmod]
    · apply iff_of_false Bool.false_ne_true
      rintro ⟨-, hend⟩
      exact absurd hgoes (Nat.not_lt.2 hend)

/-- **One cycle of a transfer.** -/
theorem Elapsed.cycle (h : Elapsed c b t s) (hb : b = 16 ∨ b = 512) :
    Passes c b t (t + 1) s (s.step 1) := by
  have hpos : 0 < b := by omega
  by_cases hunder : t < 8 * b
  · rcases place_cycle hb t with ⟨hwithin, hdiv, hmod⟩ | ⟨hlast, hdiv, hmod⟩
    · obtain ⟨hcontrol, htransfer⟩ := (elapsed_underway hunder).1 h
      have hgoes : t + 1 < 8 * b := by
        rw [← Nat.div_lt_iff_lt_mul hpos, hdiv]
        exact (Nat.div_lt_iff_lt_mul hpos).2 hunder
      have hmore : 1 < b - t % b := by omega
      rw [step_busy htransfer, clock_running s _ _ hmore]
      refine .of_same ((elapsed_underway hgoes).2 ⟨hcontrol, ?_⟩) ?_ rfl rfl fun _ => hgoes
      · rw [hdiv, hmod, ← Nat.sub_sub]
      · rw [shifted, shifted, hdiv]
    · exact h.last_cycle hunder hlast hdiv hmod
  · obtain ⟨hcontrol, htransfer⟩ := (elapsed_over hunder).1 h
    have hover : ¬t + 1 < 8 * b := by omega
    rw [step_idle htransfer]
    refine .of_same ((elapsed_over hover).2 ⟨hcontrol, htransfer⟩) ?_ rfl rfl fun hlt =>
      absurd hlt hunder
    have hall : 8 ≤ t / b := (Nat.le_div_iff_mul_le hpos).2 (by omega)
    have hall' : 8 ≤ (t + 1) / b := (Nat.le_div_iff_mul_le hpos).2 (by omega)
    rw [shifted, shifted, Nat.min_eq_left hall, Nat.min_eq_left hall']

/-- While a transfer lasts, the current bit has cycles left. -/
theorem Elapsed.ticking (h : Elapsed c b t s) (hb : 0 < b) : s.Ticking := by
  intro transfer ht
  by_cases hunder : t < 8 * b
  · rw [((elapsed_underway hunder).1 h).2] at ht
    cases ht
    exact ⟨Nat.sub_pos_of_lt (Nat.mod_lt t hb), hb⟩
  · rw [((elapsed_over hunder).1 h).2] at ht
    cases ht

/-- **Any number of cycles.** -/
theorem Elapsed.step (h : Elapsed c b t s) (hb : b = 16 ∨ b = 512) (n : Nat) :
    Passes c b t (t + n) s (s.step n) := by
  induction n with
  | zero =>
    rw [(h.ticking (by omega)).step_zero]
    exact .of_same h rfl rfl rfl id
  | succ n ih =>
    rw [step_add, thenStep]
    exact ih.trans (ih.place.cycle hb) (Nat.le_add_right t n) (Nat.le_succ _)

/-- **A call that spares SC** lets its cycles pass. -/
theorem Elapsed.perform (h : Elapsed c b t s) (hb : b = 16 ∨ b = 512)
    (hcall : ∀ v, call ≠ .write 0xFF02 v) :
    Elapsed c b (t + call.cycles) (s.perform call).1 ∧
      ((s.perform call).2 = true ↔ t < 8 * b ∧ 8 * b ≤ t + call.cycles) ∧
      ((∀ v, call ≠ .write 0xFF01 v) → (s.perform call).1.data =
        withOnes (shifted b (t + call.cycles) - shifted b t) s.data) := by
  cases call with
  | step cycles =>
    have hpass := h.step hb cycles
    exact ⟨hpass.place, hpass.asks, fun _ => hpass.data⟩
  | write addr v =>
    obtain ⟨data, hwrite, hsame⟩ := perform_write (s := s) hcall
    rw [hwrite]
    refine ⟨⟨h.control, h.transfer⟩, ?_, ?_⟩
    · -- no time passes, so nothing is completed
      apply iff_of_false Bool.false_ne_true
      rintro ⟨hlt, hle⟩
      exact absurd hlt (Nat.not_lt.2 hle)
    · intro hspares
      rw [hsame hspares, Call.cycles, Nat.add_zero, Nat.sub_self, withOnes_zero]

/-- **Any calls that spare SC**: one of them requests the interrupt if they complete the transfer, and
no other does. -/
theorem Elapsed.run (h : Elapsed c b t s) (hb : b = 16 ∨ b = 512) (hcalls : Spares 0xFF02 calls) :
    Elapsed c b (t + elapsed calls) (s.run calls).1 ∧
      (s.run calls).2 = if t < 8 * b ∧ 8 * b ≤ t + elapsed calls then 1 else 0 := by
  induction calls generalizing s t with
  | nil =>
    refine ⟨h, (if_neg ?_).symm⟩
    rintro ⟨hlt, hle⟩
    exact absurd hlt (Nat.not_lt.2 hle)
  | cons call rest ih =>
    obtain ⟨hplace, hasks, -⟩ := h.perform hb hcalls.head
    obtain ⟨hplace', hcount⟩ := ih hplace hcalls.tail
    rw [elapsed_cons, ← Nat.add_assoc]
    refine ⟨hplace', ?_⟩
    have hadd : (s.run (call :: rest)).2 =
        (s.perform call).2.toNat + ((s.perform call).1.run rest).2 := rfl
    rw [hadd, hcount]
    -- the transfer is completed by this call, or by a later one
    cases hnow : (s.perform call).2 with
    | true =>
      obtain ⟨hlt, hle⟩ := hasks.1 hnow
      rw [if_neg (by omega), if_pos (by omega)]
      rfl
    | false =>
      have hnot := mt hasks.2 (Bool.not_eq_true _ ▸ hnow)
      rw [Bool.toNat_false, Nat.zero_add]
      apply if_congr _ rfl rfl
      omega

/-- **Calls that spare SB as well** leave what was in it, with the ones of their time behind it. -/
theorem Elapsed.run_data (h : Elapsed c b t s) (hb : b = 16 ∨ b = 512)
    (hcontrol : Spares 0xFF02 calls) (hdata : Spares 0xFF01 calls) :
    (s.run calls).1.data = withOnes (shifted b (t + elapsed calls) - shifted b t) s.data := by
  induction calls generalizing s t with
  | nil =>
    have hnone : elapsed [] = 0 := rfl
    rw [hnone, Nat.add_zero, Nat.sub_self, withOnes_zero]
    rfl
  | cons call rest ih =>
    obtain ⟨hplace, -, hones⟩ := h.perform hb hcontrol.head
    have hrest := ih hplace hcontrol.tail hdata.tail
    rw [hones hdata.head, withOnes_shifted b s.data (Nat.le_add_right ..) (Nat.le_add_right ..),
      Nat.add_assoc] at hrest
    rw [elapsed_cons]
    exact hrest

/-! ## Every state -/

theorem bitPeriod_cases (c : UInt8) : bitPeriod c = 16 ∨ bitPeriod c = 512 := by
  unfold bitPeriod
  split
  · exact .inl rfl
  · exact .inr rfl

theorem controlMask_starts (model : Model) (v : UInt8) :
    (v &&& controlMask model) &&& 0x81 = v &&& 0x81 := by
  revert v
  cases model <;> exact forall_byte (by decide +kernel)

/-- Without the start bit nothing starts. -/
theorem cleared_start (c : UInt8) : (c &&& 0x7F) &&& 0x81 ≠ 0x81 := by
  revert c
  exact forall_byte (by decide +kernel)

/-- A write to SC that starts a transfer by the internal clock. -/
theorem write_starts (s : Serial) (h : v &&& 0x81 = 0x81) :
    Elapsed (v &&& controlMask s.model) (bitPeriod (v &&& controlMask s.model)) 0
      (s.write 0xFF02 v) := by
  have hpos : 0 < 8 * bitPeriod (v &&& controlMask s.model) := by
    rcases bitPeriod_cases (v &&& controlMask s.model) with hb | hb <;> rw [hb] <;> decide
  have hstarts : starts (v &&& controlMask s.model) = true := by
    rw [starts, controlMask_starts, h]
    rfl
  refine (elapsed_underway hpos).2 ⟨rfl, ?_⟩
  rw [Nat.zero_div, Nat.zero_mod]
  exact if_pos hstarts

/-- No transfer is under way, and none was to be started. -/
structure Resting (s : Serial) : Prop where
  transfer : s.transfer = none
  control : s.control &&& 0x81 ≠ 0x81

theorem write_rests (s : Serial) (h : v &&& 0x81 ≠ 0x81) : Resting (s.write 0xFF02 v) := by
  have hstarts : starts (v &&& controlMask s.model) = false := by
    rw [starts, controlMask_starts]
    exact beq_eq_false_iff_ne.2 h
  refine ⟨if_neg (Bool.eq_false_iff.1 hstarts), ?_⟩
  show (v &&& controlMask s.model) &&& 0x81 ≠ 0x81
  rw [controlMask_starts]
  exact h

theorem Resting.step (h : Resting s) (n : Nat) : s.step n = (s, false) := step_idle h.transfer n

theorem Resting.perform (h : Resting s) (hcall : ∀ v, call ≠ .write 0xFF02 v) :
    Resting (s.perform call).1 ∧ (s.perform call).2 = false := by
  cases call with
  | step cycles =>
    have hstep : s.perform (.step cycles) = (s, false) := h.step cycles
    rw [hstep]
    exact ⟨h, rfl⟩
  | write addr v =>
    obtain ⟨data, hwrite, -⟩ := perform_write (s := s) hcall
    rw [hwrite]
    exact ⟨⟨h.transfer, h.control⟩, rfl⟩

theorem Resting.run (h : Resting s) (hcalls : Spares 0xFF02 calls) :
    Resting (s.run calls).1 ∧ (s.run calls).2 = 0 := by
  induction calls generalizing s with
  | nil => exact ⟨h, rfl⟩
  | cons call rest ih =>
    obtain ⟨hrests, hasks⟩ := h.perform hcalls.head
    obtain ⟨hrests', hcount⟩ := ih hrests hcalls.tail
    refine ⟨hrests', ?_⟩
    have hadd : (s.run (call :: rest)).2 =
        (s.perform call).2.toNat + ((s.perform call).1.run rest).2 := rfl
    rw [hadd, hasks, hcount]
    rfl

/-- A transfer is under way, some cycles after its start. -/
def Underway (s : Serial) : Prop :=
  s.control &&& 0x81 = 0x81 ∧
    ∃ t, t < 8 * bitPeriod s.control ∧ Elapsed s.control (bitPeriod s.control) t s

/-- A transfer goes on for eight bits, and then the port rests. -/
theorem Elapsed.phase (h : Elapsed c (bitPeriod c) t s) (hc : c &&& 0x81 = 0x81) :
    Resting s ∨ Underway s := by
  by_cases hunder : t < 8 * bitPeriod c
  · have hcontrol : s.control = c := ((elapsed_underway hunder).1 h).1
    subst hcontrol
    exact .inr ⟨hc, t, hunder, h⟩
  · obtain ⟨hcontrol, htransfer⟩ := (elapsed_over hunder).1 h
    refine .inl ⟨htransfer, ?_⟩
    rw [hcontrol]
    exact cleared_start c

/-- **In every reachable state** the port rests or a transfer is under way. -/
theorem reachable_phase (h : Reachable s) : Resting s ∨ Underway s := by
  induction h with
  | powerOn model => exact .inl ⟨rfl, (by decide : (0 : UInt8) &&& 0x81 ≠ 0x81)⟩
  | @perform s h call ih =>
    by_cases hcontrol : ∃ v, call = .write 0xFF02 v
    · obtain ⟨v, rfl⟩ := hcontrol
      by_cases hv : v &&& 0x81 = 0x81
      · refine (write_starts s hv).phase ?_
        rw [controlMask_starts, hv]
      · exact .inl (write_rests s hv)
    · have hspares : ∀ v, call ≠ .write 0xFF02 v := fun v heq => hcontrol ⟨v, heq⟩
      rcases ih with hrests | ⟨hc, t, -, helapsed⟩
      · exact .inl (hrests.perform hspares).1
      · exact (helapsed.perform (bitPeriod_cases _) hspares).1.phase hc

theorem Underway.ticking (h : Underway s) : s.Ticking := by
  obtain ⟨-, t, -, helapsed⟩ := h
  refine helapsed.ticking ?_
  rcases bitPeriod_cases s.control with hb | hb <;> rw [hb] <;> decide

theorem reachable_ticking (h : Reachable s) : s.Ticking := by
  rcases reachable_phase h with hrests | hunder
  · intro transfer ht
    rw [hrests.transfer] at ht
    cases ht
  · exact hunder.ticking

theorem reachable_bits (h : Reachable s) (transfer : Transfer) (ht : s.transfer = some transfer) :
    transfer.bitsAfter < 8 := by
  rcases reachable_phase h with hrests | ⟨-, t, hunder, helapsed⟩
  · rw [hrests.transfer] at ht
    cases ht
  · rw [((elapsed_underway hunder).1 helapsed).2] at ht
    cases ht
    exact Nat.lt_of_le_of_lt (Nat.sub_le 7 _) (by decide)

/-- Cycles for each bit: the color model has a fast clock. -/
def bitTime (model : Model) (v : UInt8) : Nat :=
  if model.isColor && v.toNat.testBit 1 then 16 else 512

theorem bitPeriod_masked (model : Model) (v : UInt8) :
    bitPeriod (v &&& controlMask model) = bitTime model v := by
  revert v
  cases model <;> exact forall_byte (by decide +kernel)

/-- **A transfer on time**, from the write to SC on that starts it, with `b` cycles for each bit. Eight
bits are shifted in, each at the end of its cycles, whatever SB holds by then; a byte that is written
meanwhile gets those that are left. With the last one the start bit is cleared and the interrupt
requested, once. -/
structure OnTime (s : Serial) (b : Nat) : Prop where
  control : ∀ calls, Spares 0xFF02 calls →
    (s.run calls).1.control = if elapsed calls < 8 * b then s.control else s.control &&& 0x7F
  startBit : ∀ calls, Spares 0xFF02 calls →
    ((s.run calls).1.read 0xFF02).toNat.testBit 7 = decide (elapsed calls < 8 * b)
  busy : ∀ calls, Spares 0xFF02 calls → (s.run calls).1.busy = decide (elapsed calls < 8 * b)
  data : ∀ calls, Spares 0xFF02 calls → Spares 0xFF01 calls →
    (s.run calls).1.data = withOnes (min 8 (elapsed calls / b)) s.data
  written : ∀ calls later v, Spares 0xFF02 calls → Spares 0xFF02 later → Spares 0xFF01 later →
    (s.run (calls ++ .write 0xFF01 v :: later)).1.data =
      withOnes (min 8 ((elapsed calls + elapsed later) / b) - min 8 (elapsed calls / b)) v
  asks : ∀ calls n, Spares 0xFF02 calls →
    (((s.run calls).1.step n).2 = true ↔ elapsed calls < 8 * b ∧ 8 * b ≤ elapsed calls + n)
  once : ∀ calls, Spares 0xFF02 calls → (s.run calls).2 = if 8 * b ≤ elapsed calls then 1 else 0

theorem read_startBit (s : Serial) :
    (s.read 0xFF02).toNat.testBit 7 = s.control.toNat.testBit 7 := by
  have hbyte (c : UInt8) (model : Model) :
      (c ||| (controlMask model ^^^ 0xFF)).toNat.testBit 7 = c.toNat.testBit 7 := by
    revert c
    cases model <;> exact forall_byte (by decide +kernel)
  exact hbyte s.control s.model

/-- The start bit is set in what starts a transfer, and cleared at its end. -/
theorem startBit_cases (c : UInt8) :
    (c &&& 0x81 = 0x81 → c.toNat.testBit 7 = true) ∧ (c &&& 0x7F).toNat.testBit 7 = false := by
  revert c
  exact forall_byte (by decide +kernel)

theorem Elapsed.onTime (h : Elapsed c b 0 s) (hb : b = 16 ∨ b = 512) (hc : c &&& 0x81 = 0x81) :
    OnTime s b := by
  have hpos : 0 < 8 * b := by omega
  have hstart : s.control = c := ((elapsed_underway hpos).1 h).1
  have hplace {calls : List Call} (hcalls : Spares 0xFF02 calls) :
      Elapsed c b (elapsed calls) (s.run calls).1 := by
    have hrun := (h.run hb hcalls).1
    rwa [Nat.zero_add] at hrun
  refine ⟨?_, ?_, ?_, ?_, ?_, ?_, ?_⟩
  · intro calls hcalls
    rw [hstart]
    exact (hplace hcalls).control
  · intro calls hcalls
    rw [read_startBit, (hplace hcalls).control]
    by_cases hunder : elapsed calls < 8 * b
    · rw [if_pos hunder, (startBit_cases c).1 hc, decide_eq_true hunder]
    · rw [if_neg hunder, (startBit_cases c).2, decide_eq_false hunder]
  · intro calls hcalls
    rw [Serial.busy, (hplace hcalls).transfer]
    by_cases hunder : elapsed calls < 8 * b
    · rw [if_pos hunder, decide_eq_true hunder]
      rfl
    · rw [if_neg hunder, decide_eq_false hunder]
      rfl
  · intro calls hcontrol hdata
    have hzero : shifted b 0 = 0 := by rw [shifted, Nat.zero_div, Nat.min_zero]
    have hones := h.run_data hb hcontrol hdata
    rw [Nat.zero_add, hzero, Nat.sub_zero] at hones
    exact hones
  · intro calls later v hcalls hlater hdata
    -- the byte is in SB where the later calls begin
    have hspares : ∀ w, Call.write 0xFF01 v ≠ .write 0xFF02 w := by simp
    obtain ⟨hwritten, -, -⟩ := (hplace hcalls).perform hb hspares
    have hones := hwritten.run_data hb hlater hdata
    rw [run_append]
    exact hones
  · intro calls n hcalls
    exact ((hplace hcalls).step hb n).asks
  · intro calls hcalls
    rw [(h.run hb hcalls).2, Nat.zero_add]
    exact if_congr (and_iff_right hpos) rfl rfl

/-- **Transfers go by the cycles alone.** A step of any number of cycles ends, and does what as many
steps of a cycle each do. A write that starts a transfer by the internal clock has it on time, for as
long as SC is left alone. Where nothing was to be started no step changes anything or requests the
interrupt. -/
theorem transfers_by_cycle (h : Reachable s) :
    (∀ n, s.step n = s.ticks n ∧
      ∃ rounds ≤ 8, Spending.Ends ⟨s, n, false⟩ rounds (s.step n)) ∧
    (∀ v, v &&& 0x81 = 0x81 → OnTime (s.write 0xFF02 v) (bitTime s.model v)) ∧
    (s.control &&& 0x81 ≠ 0x81 → ∀ calls, Spares 0xFF02 calls →
      (s.run calls).2 = 0 ∧ ∀ n, (s.run calls).1.step n = ((s.run calls).1, false)) := by
  have hticking := reachable_ticking h
  refine ⟨?_, ?_, ?_⟩
  · intro n
    exact ⟨hticking.step_eq_ticks n, Spending.ends hticking (reachable_bits h) n⟩
  · intro v hv
    have hstarts := write_starts s hv
    rw [bitPeriod_masked] at hstarts
    refine hstarts.onTime ?_ ?_
    · rw [← bitPeriod_masked]
      exact bitPeriod_cases _
    · rw [controlMask_starts, hv]
  · intro hoff calls hcalls
    have hrests : Resting s := by
      rcases reachable_phase h with hrests | hunder
      · exact hrests
      · exact absurd hunder.1 hoff
    obtain ⟨hrests', hcount⟩ := hrests.run hcalls
    exact ⟨hcount, hrests'.step⟩

/-- A byte that waits for its transfer. -/
def loaded : Serial := (({ model := .color } : Serial).perform (.write 0xFF01 0x12)).1

/-- On the fast clock two bits are over after 40 cycles, so **a byte that is written then gets six
ones**; one step takes it past the end. -/
theorem transfers_by_cycle_fast :
    Reachable loaded ∧
      (((loaded.write 0xFF02 0x83).run [.step 40]).1.data = 0x4B) ∧
      (((loaded.write 0xFF02 0x83).run [.step 40, .write 0xFF01 0x5A, .step 100]).1.data = 0xBF) ∧
      ((loaded.write 0xFF02 0x83).run [.step 40, .write 0xFF01 0x5A, .step 100]).2 = 1 := by
  have hreach : Reachable loaded := .perform (.powerOn .color) _
  obtain ⟨-, hstarts, -⟩ := transfers_by_cycle hreach
  have hontime : OnTime (loaded.write 0xFF02 0x83) 16 := hstarts 0x83 (by decide)
  have hspares (addr : UInt16) (n : Nat) : Spares addr [.step n] := by simp [Spares]
  refine ⟨hreach, ?_, ?_, ?_⟩
  · rw [hontime.data [.step 40] (hspares _ _) (hspares _ _)]
    decide +kernel
  · have hones := hontime.written [.step 40] [.step 100] 0x5A (hspares _ _) (hspares _ _) (hspares _ _)
    refine hones.trans ?_
    decide +kernel
  · rw [hontime.once _ (by simp [Spares])]
    decide +kernel

end Handheld.Serial
