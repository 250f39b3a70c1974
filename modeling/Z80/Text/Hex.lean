import Z80.Word

/-!
# Hexadecimal text

Bytes and addresses are printed in lower-case hexadecimal with a fixed number of digits, two for a
byte and four for a word, after the mark `0x`.
-/

namespace Z80.Hex

/-- The hexadecimal digit of value `n`, for `n` below 16. -/
def digit (n : Nat) : Char := Nat.digitChar n

/-- The last `width` hexadecimal digits of a number. -/
def digits : Nat → Nat → List Char
  | 0, _ => []
  | width + 1, n => digits width (n / 16) ++ [digit (n % 16)]

def bareByte (x : Byte) : String := String.ofList (digits 2 x.toNat)

def bareWord (w : Word) : String := String.ofList (digits 4 w.toNat)

/-- A byte as two digits after the mark. -/
def byte (x : Byte) : String := "0x" ++ bareByte x

/-- A word as four digits after the mark. -/
def word (w : Word) : String := "0x" ++ bareWord w

/-- A number is written with as many digits as are asked for, whatever its size. -/
theorem length_digits (width n : Nat) : (digits width n).length = width := by
  induction width generalizing n with
  | zero => rfl
  | succ width ih => simp [digits, ih]

end Z80.Hex
