/-!
# Numbers as text

Fixed-width hexadecimal and right-aligned decimal numbers, as they stand in log lines and messages.
A number that needs more room than its width gets it.
-/

namespace Handheld.Text

/-- Fills `s` up to `width` characters on its left. -/
def padLeft (width : Nat) (fill : Char) (s : String) : String :=
  "".pushn fill (width - s.length) ++ s

/-- Hexadecimal with lower-case digits. -/
def lowerHex (width n : Nat) : String :=
  padLeft width '0' (String.ofList (Nat.toDigits 16 n))

/-- Hexadecimal with upper-case digits. -/
def upperHex (width n : Nat) : String :=
  padLeft width '0' (String.ofList ((Nat.toDigits 16 n).map Char.toUpper))

/-- Decimal, aligned to the right with blanks. -/
def alignRight (width n : Nat) : String :=
  padLeft width ' ' (toString n)

end Handheld.Text
