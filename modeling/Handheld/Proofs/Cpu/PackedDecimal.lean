import Handheld.Proofs.Cpu.LongArithmetic

/-!
# Packed decimal numbers

A byte holds two decimal digits, one in each nibble. DAA after an addition or a subtraction makes
the result decimal again, and its carry is that of the decimal operation.

* `Digits.decimal`: bytes as digits of the base one hundred.
* `decimalStep`: an accumulator operation and DAA after it; `decimal_adc`, `decimal_sbc`.
* `packed`: the bytes of a number; `packed_value`: a number has no others.
* `decimal_exact`: decimal addition and subtraction of numbers of any length.
-/

namespace Handheld.Alu

/-- A byte with a decimal digit in each nibble, as one digit of the base one hundred. -/
def Digits.decimal : Digits where
  base := 100
  one_lt_base := by decide
  Valid v := v.toNat / 16 ≤ 9 ∧ v.toNat % 16 ≤ 9
  digit v := 10 * (v.toNat / 16) + v.toNat % 16
  digit_lt := by
    rintro v ⟨hhigh, hlow⟩
    omega

theorem decimal_digit (v : UInt8) :
    Digits.decimal.digit v = 10 * (v.toNat / 16) + v.toNat % 16 := rfl

/-- The packed decimal byte of a number below one hundred. -/
def packedByte (n : Nat) : UInt8 := UInt8.ofNat (16 * (n / 10) + n % 10)

/-- The packed decimal form of a number in so many bytes, lowest first. -/
def packed : Nat → Nat → List UInt8
  | 0, _ => []
  | length + 1, n => packedByte (n % 100) :: packed length (n / 100)

theorem packedByte_digit {v : UInt8} (h : Digits.decimal.Valid v) :
    packedByte (Digits.decimal.digit v) = v := by
  obtain ⟨hhigh, hlow⟩ := h
  rw [← UInt8.toNat_inj, packedByte, UInt8.toNat_ofNat', decimal_digit]
  omega

/-- **A decimal number has one packed form.** -/
theorem packed_value {bytes : List UInt8} (h : ∀ v ∈ bytes, Digits.decimal.Valid v) :
    packed bytes.length (Digits.decimal.value bytes) = bytes := by
  induction bytes with
  | nil => rfl
  | cons v bytes ih =>
    have hv := h v List.mem_cons_self
    have hdigit : Digits.decimal.digit v < 100 := Digits.decimal.digit_lt hv
    have hvalue : Digits.decimal.value (v :: bytes) =
        Digits.decimal.digit v + 100 * Digits.decimal.value bytes :=
      Digits.decimal.value_cons v bytes
    have hlow : Digits.decimal.value (v :: bytes) % 100 = Digits.decimal.digit v := by omega
    have hrest : Digits.decimal.value (v :: bytes) / 100 = Digits.decimal.value bytes := by omega
    rw [List.length_cons, packed, hlow, hrest, packedByte_digit hv, ih fun w hw => h w (.tail _ hw)]

/-- An accumulator operation and the decimal adjustment of its result. -/
def decimalStep (op : AluOp) (x y : UInt8) (f : Flags) : UInt8 × Flags :=
  decimalAdjust (apply op x y f).1 (apply op x y f).2

theorem low_nibble (v : UInt8) : (v &&& 0x0F).toNat = v.toNat % 16 := by
  rw [UInt8.toNat_and]
  exact Nat.and_two_pow_sub_one_eq_mod v.toNat 4

/-- A flag counts one where its condition holds. -/
theorem toNat_decide_cases (p : Prop) [Decidable p] :
    (decide p).toNat = 1 ∧ p ∨ (decide p).toNat = 0 ∧ ¬p := by
  by_cases h : p
  · exact .inl ⟨by rw [decide_eq_true h]; rfl, h⟩
  · exact .inr ⟨by rw [decide_eq_false h]; rfl, h⟩

theorem toNat_or_cases (b : Bool) (p : Prop) [Decidable p] :
    (b || decide p).toNat = 1 ∧ (b.toNat = 1 ∨ p) ∨
      (b || decide p).toNat = 0 ∧ b.toNat = 0 ∧ ¬p := by
  cases b with
  | true => exact .inl ⟨rfl, .inl rfl⟩
  | false =>
    rw [Bool.false_or]
    rcases toNat_decide_cases p with ⟨hd, hp⟩ | ⟨hd, hp⟩
    · exact .inl ⟨hd, .inr hp⟩
    · exact .inr ⟨hd, rfl, hp⟩

/-- A correction by six in either nibble. -/
theorem toNat_correction (a : UInt8) (high low : Bool) :
    (a + (if high then 0x60 else 0) + (if low then 0x06 else 0)).toNat =
      (a.toNat + 0x60 * high.toNat + 6 * low.toNat) % 256 := by
  have ha := a.toNat_lt
  cases high <;> cases low <;> simp

/-- A correction back by six: modulo 256 the rest is added. -/
theorem toNat_correction_back (a : UInt8) (high low : Bool) :
    (a - (if high then 0x60 else 0) - (if low then 0x06 else 0)).toNat =
      (a.toNat + 0xA0 * high.toNat + 0xFA * low.toNat) % 256 := by
  have ha := a.toNat_lt
  cases high <;> cases low <;> simp [UInt8.toNat_sub] <;> omega

/-- After an addition a nibble is corrected that is above nine or has carried. -/
theorem decimalAdjust_sum (a : UInt8) {f : Flags} (hf : f.subtract = false) :
    let high := f.carry || decide (0x99 < a.toNat)
    let low := f.halfCarry || decide (9 < a.toNat % 16)
    (decimalAdjust a f).1.toNat = (a.toNat + 0x60 * high.toNat + 6 * low.toNat) % 256 ∧
      (decimalAdjust a f).2.carry = high := by
  intro high low
  have hlow : (f.halfCarry || decide (a &&& 0x0F > 0x09)) = low := by
    show (f.halfCarry || decide ((0x09 : UInt8).toNat < (a &&& 0x0F).toNat)) = low
    rw [low_nibble]
    rfl
  unfold decimalAdjust
  rw [hf, hlow]
  exact ⟨toNat_correction a high low, rfl⟩

/-- After a subtraction a nibble is corrected that has borrowed. -/
theorem decimalAdjust_difference (a : UInt8) {f : Flags} (hf : f.subtract = true) :
    (decimalAdjust a f).1.toNat =
        (a.toNat + 0xA0 * f.carry.toNat + 0xFA * f.halfCarry.toNat) % 256 ∧
      (decimalAdjust a f).2.carry = f.carry := by
  unfold decimalAdjust
  rw [hf]
  exact ⟨toNat_correction_back a f.carry f.halfCarry, rfl⟩

/-- **ADC and DAA add decimal digits.** -/
theorem decimal_adc : Exact .decimal false (decimalStep .adc) := by
  refine .of_step ?_
  rintro x y f ⟨hxhigh, hxlow⟩ ⟨hyhigh, hylow⟩
  obtain ⟨s, hs⟩ : ∃ s, s = add x y f.carry := ⟨_, rfl⟩
  have hsum : x.toNat + y.toNat + f.carry.toNat = s.1.toNat + 256 * s.2.carry.toNat :=
    hs ▸ add_balance x y f.carry
  have hhalf : s.2.halfCarry.toNat = 1 ∧ x.toNat % 16 + y.toNat % 16 + f.carry.toNat > 0x0F ∨
      s.2.halfCarry.toNat = 0 ∧ ¬x.toNat % 16 + y.toNat % 16 + f.carry.toNat > 0x0F :=
    hs ▸ toNat_decide_cases _
  obtain ⟨hr, hout⟩ := decimalAdjust_sum s.1 (f := s.2) (hs ▸ rfl)
  -- a decimal carry is a binary one, or a sum that the bytes hold and two decimal digits do not
  have hhigh := toNat_or_cases s.2.carry (0x99 < s.1.toNat)
  have hlow := toNat_or_cases s.2.halfCarry (9 < s.1.toNat % 16)
  have hlt := s.1.toNat_lt
  have hc := Bool.toNat_le f.carry
  rw [show decimalStep .adc x y f = decimalAdjust s.1 s.2 from hs ▸ rfl]
  show (_ ∧ _) ∧ _ = _ + 100 * _
  rw [hout, decimal_digit, decimal_digit, decimal_digit]
  omega

/-- **SBC and DAA subtract decimal digits.** -/
theorem decimal_sbc : Exact .decimal true (decimalStep .sbc) := by
  refine .of_step ?_
  rintro x y f ⟨hxhigh, hxlow⟩ ⟨hyhigh, hylow⟩
  obtain ⟨s, hs⟩ : ∃ s, s = sub x y f.carry := ⟨_, rfl⟩
  have hdifference : s.1.toNat + y.toNat + f.carry.toNat = x.toNat + 256 * s.2.carry.toNat :=
    hs ▸ sub_balance x y f.carry
  have hhalf : s.2.halfCarry.toNat = 1 ∧ x.toNat % 16 < y.toNat % 16 + f.carry.toNat ∨
      s.2.halfCarry.toNat = 0 ∧ ¬x.toNat % 16 < y.toNat % 16 + f.carry.toNat :=
    hs ▸ toNat_decide_cases _
  -- a decimal borrow is a binary one, since nibbles up to nine compare as the digits do
  have hcarry : s.2.carry.toNat = 1 ∧ x.toNat < y.toNat + f.carry.toNat ∨
      s.2.carry.toNat = 0 ∧ ¬x.toNat < y.toNat + f.carry.toNat :=
    hs ▸ toNat_decide_cases _
  obtain ⟨hr, hout⟩ := decimalAdjust_difference s.1 (f := s.2) (hs ▸ rfl)
  have hlt := s.1.toNat_lt
  have hc := Bool.toNat_le f.carry
  rw [show decimalStep .sbc x y f = decimalAdjust s.1 s.2 from hs ▸ rfl]
  show (_ ∧ _) ∧ _ = _ + 100 * _
  rw [hout, decimal_digit, decimal_digit, decimal_digit]
  omega

/-- **Decimal arithmetic is exact.** On packed decimal numbers of one length, lowest bytes first, ADC
and DAA add and SBC and DAA subtract, with the carry flag as the decimal carry. The two instructions
one after the other are the step that does so. -/
theorem decimal_exact :
    (∀ (xs ys : List UInt8) (f : Flags), xs.length = ys.length →
      (∀ v ∈ xs, Digits.decimal.Valid v) → (∀ v ∈ ys, Digits.decimal.Valid v) →
      let unit := 100 ^ xs.length
      let x := Digits.decimal.value xs
      let y := Digits.decimal.value ys
      let sum := chain (decimalStep .adc) xs ys f
      let difference := chain (decimalStep .sbc) xs ys f
      (sum.1 = packed xs.length ((x + y + f.carry.toNat) % unit) ∧
          (∀ v ∈ sum.1, Digits.decimal.Valid v) ∧
          (sum.2.carry = true ↔ unit ≤ x + y + f.carry.toNat)) ∧
        difference.1 =
            packed xs.length (((x : Int) - y - f.carry.toNat) % (unit : Nat)).toNat ∧
          (∀ v ∈ difference.1, Digits.decimal.Valid v) ∧
          (difference.2.carry = true ↔ x < y + f.carry.toNat)) ∧
    ∀ {β : Type} [Bus β] (c : Core β) (op : AluOp) (src : Operand),
      let r := decimalStep op c.registers.a (c.load src).1 c.registers.flags
      ((c.execute (.alu op src)).execute .daa).registers =
        { c.registers with a := r.1, flags := r.2 } := by
  refine ⟨?_, ?_⟩
  · intro xs ys f hlen hx hy unit x y sum difference
    obtain ⟨hsumLength, hsumValid, -⟩ := decimal_adc.chain f hlen hx hy
    obtain ⟨hsum, hcarry⟩ := decimal_adc.sum f hlen hx hy
    obtain ⟨hdiffLength, hdiffValid, -⟩ := decimal_sbc.chain f hlen hx hy
    obtain ⟨hdiff, hborrow⟩ := decimal_sbc.difference f hlen hx hy
    -- valid bytes of one length are determined by their number
    refine ⟨⟨?_, hsumValid, hcarry⟩, ?_, hdiffValid, hborrow⟩
    · have hpacked := packed_value hsumValid
      rw [hsumLength, hsum] at hpacked
      exact hpacked.symm
    · have hpacked := packed_value hdiffValid
      rw [hdiffLength, ← Int.toNat_natCast (Digits.decimal.value _), hdiff] at hpacked
      exact hpacked.symm
  · intro β _ c op src
    have hdaa (d : Core β) : (d.execute .daa).registers =
        { d.registers with
          a := (decimalAdjust d.registers.a d.registers.flags).1
          flags := (decimalAdjust d.registers.a d.registers.flags).2 } := rfl
    rw [hdaa, Core.execute_alu]
    rfl

/-- 1299 and 8701, with a carry, are 0001 with a carry. -/
theorem decimal_exact_overflow :
    ([0x99, 0x12].length = [(0x01 : UInt8), 0x87].length ∧
      (∀ v ∈ [0x99, 0x12], Digits.decimal.Valid v) ∧
        ∀ v ∈ [0x01, 0x87], Digits.decimal.Valid v) ∧
      (chain (decimalStep .adc) [0x99, 0x12] [0x01, 0x87] { carry := true }).1 = [0x01, 0x00] ∧
      (chain (decimalStep .adc) [0x99, 0x12] [0x01, 0x87] { carry := true }).2.carry = true := by
  have hlen : [0x99, 0x12].length = [(0x01 : UInt8), 0x87].length := rfl
  have hx : ∀ v ∈ [0x99, 0x12], Digits.decimal.Valid v := by simp [Digits.decimal]
  have hy : ∀ v ∈ [0x01, 0x87], Digits.decimal.Valid v := by simp [Digits.decimal]
  obtain ⟨⟨hsum, -, hout⟩, -⟩ :=
    decimal_exact.1 [0x99, 0x12] [0x01, 0x87] { carry := true } hlen hx hy
  exact ⟨⟨hlen, hx, hy⟩, hsum.trans (by decide), hout.2 (by decide)⟩

end Handheld.Alu
