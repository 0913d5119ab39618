/-!
# Bytes and words

* `highByte`, `lowByte`, `word`: taking a 16-bit word apart and putting it together.
* `signExtend`: a byte as a two's complement offset.
-/

namespace Handheld

/-- The high byte of a word. -/
def highByte (w : UInt16) : UInt8 := (w >>> 8).toUInt8

/-- The low byte of a word. -/
def lowByte (w : UInt16) : UInt8 := w.toUInt8

/-- The word with the given high and low byte. -/
def word (high low : UInt8) : UInt16 := high.toUInt16 * 256 + low.toUInt16

/-- The word that a byte stands for as a signed offset. -/
def signExtend (v : UInt8) : UInt16 :=
  if v < 0x80 then v.toUInt16 else v.toUInt16 + 0xFF00

theorem toNat_highByte (w : UInt16) : (highByte w).toNat = w.toNat / 256 := by
  have := w.toNat_lt
  simp [highByte, Nat.shiftRight_eq_div_pow]
  omega

theorem toNat_lowByte (w : UInt16) : (lowByte w).toNat = w.toNat % 256 := by simp [lowByte]

theorem toNat_word (h l : UInt8) : (word h l).toNat = h.toNat * 256 + l.toNat := by
  have := h.toNat_lt
  have := l.toNat_lt
  simp [word]
  omega

@[simp] theorem word_highByte_lowByte (w : UInt16) : word (highByte w) (lowByte w) = w := by
  rw [← UInt16.toNat_inj, toNat_word, toNat_highByte, toNat_lowByte]
  omega

/-- A statement about all bytes, by going through them. -/
theorem forall_byte {P : UInt8 → Prop} (h : ∀ n : Fin 256, P (UInt8.ofNat n)) (v : UInt8) : P v := by
  have hv := h ⟨v.toNat, v.toNat_lt⟩
  rwa [UInt8.ofNat_toNat] at hv

theorem bit_set (v : UInt8) (k : Fin 8) :
    (v &&& (1 <<< k.val.toUInt8) != 0) = v.toNat.testBit k := by
  revert k
  revert v
  exact forall_byte (by decide +kernel)

end Handheld
