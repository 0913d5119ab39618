/-!
# Reading text that may be damaged

UTF-8 with every ill-formed part replaced by `U+FFFD`. A part is as long as it can be the beginning
of a character: after a lead byte the sequence breaks off at the first byte that cannot follow.

* `decodeLossy`: the characters of a list of bytes.
* `scan_length_le`: a sequence never gives bytes back, so reading ends.
-/

namespace Handheld.Text

/-- The character that stands for an ill-formed part. -/
def replacement : Char := '\uFFFD'

/-- What a lead byte announces: its own bits, how many bytes follow and the range of the first of
them. The ranges keep out overlong forms, surrogates and code points that do not exist. -/
structure Lead where
  bits : Nat
  following : Nat
  lowest : UInt8 := 0x80
  highest : UInt8 := 0xBF

/-- The lead bytes of UTF-8. -/
def Lead.of? (b : UInt8) : Option Lead :=
  let n := b.toNat
  if n < 0x80 then some ⟨n, 0, 0x80, 0xBF⟩
  else if n < 0xC2 then none
  else if n < 0xE0 then some ⟨n % 0x20, 1, 0x80, 0xBF⟩
  else if n = 0xE0 then some ⟨0, 2, 0xA0, 0xBF⟩
  else if n = 0xED then some ⟨0xD, 2, 0x80, 0x9F⟩
  else if n < 0xF0 then some ⟨n % 0x10, 2, 0x80, 0xBF⟩
  else if n = 0xF0 then some ⟨0, 3, 0x90, 0xBF⟩
  else if n < 0xF4 then some ⟨n % 8, 3, 0x80, 0xBF⟩
  else if n = 0xF4 then some ⟨4, 3, 0x80, 0x8F⟩
  else none

/-- Reads the bytes that a lead announces; returns the character and what is left. -/
def scan (lead : Lead) : Nat → Nat → List UInt8 → Char × List UInt8
  | 0, bits, rest => (Char.ofNat bits, rest)
  | _ + 1, _, [] => (replacement, [])
  | n + 1, bits, b :: rest =>
    if lead.lowest ≤ b ∧ b ≤ lead.highest then
      scan { lead with lowest := 0x80, highest := 0xBF } n (bits * 0x40 + b.toNat % 0x40) rest
    else (replacement, b :: rest)

theorem scan_length_le (lead : Lead) (n bits : Nat) (bytes : List UInt8) :
    (scan lead n bits bytes).2.length ≤ bytes.length := by
  induction n generalizing lead bits bytes with
  | zero => simp [scan]
  | succ n ih =>
    cases bytes with
    | nil => simp [scan]
    | cons b rest =>
      simp only [scan]
      split
      · have := ih { lead with lowest := 0x80, highest := 0xBF } (bits * 0x40 + b.toNat % 0x40) rest
        simp only [List.length_cons]
        omega
      · exact Nat.le_refl _

/-- The first character of a text and what follows it. -/
def firstChar (b : UInt8) (rest : List UInt8) : Char × List UInt8 :=
  match Lead.of? b with
  | some lead => scan lead lead.following lead.bits rest
  | none => (replacement, rest)

theorem firstChar_length_le (b : UInt8) (rest : List UInt8) :
    (firstChar b rest).2.length ≤ rest.length := by
  unfold firstChar
  split
  · exact scan_length_le ..
  · exact Nat.le_refl _

def decodeLossy : List UInt8 → List Char
  | [] => []
  | b :: rest => (firstChar b rest).1 :: decodeLossy (firstChar b rest).2
termination_by bytes => bytes.length
decreasing_by
  have := firstChar_length_le b rest
  simp only [List.length_cons]
  omega

end Handheld.Text
