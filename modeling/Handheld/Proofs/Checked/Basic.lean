import Mathlib.Algebra.Group.Int.Defs
import Mathlib.Algebra.Group.Nat.Defs

/-!
# Checked operations

Numbers of a fixed width, places in a table, divisors and assertions can be at fault. The operations
here say so instead of returning anything; a computation that returns `ok` has met no fault.

* `Checked.unsigned`, `Checked.signed`, `Checked.minus`: results that fit their width.
* `Checked.get`, `Checked.set`, `Checked.entry`: cells of a table.
* `Checked.foldlM_ok`: a loop meets no fault if none of its rounds does.
-/

namespace Handheld

/-- What an operation can fail with. -/
inductive Fault where
  /-- A result that does not fit the width of its type, or a shift by that width or more. -/
  | overflow
  | outOfBounds
  | zeroDivisor
  | assertion
  /-- A loop that goes on after its last round. -/
  | unfinished
  deriving DecidableEq

/-- A computation that may meet a fault. -/
abbrev Checked := Except Fault

namespace Checked

variable {α σ : Type}

/-- An unsigned result of `bits` bits. -/
def unsigned (bits n : Nat) : Checked Nat := if n < 2 ^ bits then .ok n else .error .overflow

/-- A signed result of `bits + 1` bits. -/
def signed (bits : Nat) (z : Int) : Checked Int :=
  if -2 ^ bits ≤ z ∧ z < 2 ^ bits then .ok z else .error .overflow

/-- A signed number taken for an unsigned one of 64 bits; a negative one becomes huge. -/
def asSize (z : Int) : Nat := (z % 2 ^ 64).toNat

/-- The difference of unsigned numbers. -/
def minus (a b : Nat) : Checked Nat := if b ≤ a then .ok (a - b) else .error .overflow

/-- The amount by which a number of `bits` bits is shifted. -/
def amount (bits n : Nat) : Checked Nat := if n < bits then .ok n else .error .overflow

def remainder (a b : Nat) : Checked Nat := if b = 0 then .error .zeroDivisor else .ok (a % b)

/-- A place in a table of `size` cells. -/
def place (size i : Nat) : Checked (Fin size) :=
  if h : i < size then .ok ⟨i, h⟩ else .error .outOfBounds

def get {n : Nat} (v : Vector α n) (i : Nat) : Checked α := v.get <$> place n i

def set {n : Nat} (v : Vector α n) (i : Nat) (a : α) : Checked (Vector α n) :=
  (fun j : Fin n => v.set j a) <$> place n i

/-- An entry of a list. -/
def entry (l : List α) (i : Nat) : Checked α := (fun j : Fin l.length => l[j]) <$> place l.length i

def ensure (p : Prop) [Decidable p] : Checked Unit := if p then .ok () else .error .assertion

variable {a b i n bits size : Nat} {z : Int}

@[simp] theorem ok_bind {β : Type} (a : α) (f : α → Checked β) : (Except.ok a >>= f) = f a := rfl

@[simp] theorem map_ok {β : Type} (f : α → β) (a : α) :
    (f <$> (Except.ok a : Checked α)) = .ok (f a) :=
  rfl

@[simp] theorem pure_eq_ok (a : α) : (pure a : Checked α) = .ok a := rfl

/-- Both branches without fault are no fault. -/
theorem ite_ok (p : Prop) [Decidable p] (a b : α) :
    (if p then .ok a else .ok b : Checked α) = .ok (if p then a else b) := by
  split <;> rfl

theorem unsigned_ok (h : n < 2 ^ bits) : unsigned bits n = .ok n := if_pos h

theorem signed_ok (h : -2 ^ bits ≤ z) (h' : z < 2 ^ bits) : signed bits z = .ok z :=
  if_pos ⟨h, h'⟩

theorem asSize_eq (h : 0 ≤ z) (h' : z < 2 ^ 63) : asSize z = z.toNat := by
  unfold asSize
  omega

theorem minus_ok (h : b ≤ a) : minus a b = .ok (a - b) := if_pos h

theorem amount_ok (h : n < bits) : amount bits n = .ok n := if_pos h

theorem remainder_ok (h : b ≠ 0) : remainder a b = .ok (a % b) := if_neg h

theorem place_ok (h : i < size) : place size i = .ok ⟨i, h⟩ := dif_pos h

theorem get_ok (v : Vector α n) (h : i < n) : get v i = .ok v[i] := by
  rw [get, place_ok h]
  rfl

theorem set_ok (v : Vector α n) (h : i < n) (a : α) : set v i a = .ok (v.set i a) := by
  rw [set, place_ok h]
  rfl

theorem entry_ok {l : List α} (h : i < l.length) : entry l i = .ok l[i] := by
  rw [entry, place_ok h]
  rfl

theorem ensure_ok {p : Prop} [Decidable p] (h : p) : ensure p = .ok () := if_pos h

/-- **A loop meets no fault** if no round does. -/
theorem foldlM_ok {f : σ → α → Checked σ} {g : σ → α → σ} {l : List α}
    (h : ∀ s, ∀ a ∈ l, f s a = .ok (g s a)) (s : σ) : l.foldlM f s = .ok (l.foldl g s) := by
  induction l generalizing s with
  | nil => rfl
  | cons a l ih =>
    rw [List.foldlM_cons, h s a (.head _), ok_bind, List.foldl_cons]
    exact ih (fun s b hb => h s b (.tail _ hb)) _

end Checked

end Handheld
