/-!
# Bytes and words

The two widths everything else is made of. A byte is what one bus access moves; a word is an
address or a register pair, and is read either whole or as its two halves. All arithmetic wraps.

Main statements: a word is determined by its halves (`Word.ofHalves_high_low`), and the halves of a
word that was put together from two bytes are those bytes (`Word.high_ofHalves`,
`Word.low_ofHalves`).
-/

namespace Z80

/-- What one bus access moves. -/
abbrev Byte := UInt8

/-- An address, or the content of a register pair. -/
abbrev Word := UInt16

namespace Byte

/-- Bit `n` of a byte. Bits past the width are clear. -/
def bit (x : Byte) (n : Nat) : Bool := x.toNat.testBit n

/-- An even number of bits is set. -/
def evenParity (x : Byte) : Bool := (List.range 8).countP x.bit % 2 == 0

/-- One when the condition holds and zero when it does not. -/
def ofBool (b : Bool) : Byte := if b then 1 else 0

/-- The bits of `mask` when the condition holds, and no bit when it does not. -/
def maskIf (mask : Byte) (b : Bool) : Byte := if b then mask else 0

/-- What holds of the 256 values holds of every byte. -/
theorem forall_of_lt {P : Byte → Prop} (h : ∀ n < 256, P (UInt8.ofNat n)) (x : Byte) : P x := by
  have value := h x.toNat x.toNat_lt
  rwa [UInt8.ofNat_toNat] at value

end Byte

namespace Word

/-- Bit `n` of a word. Bits past the width are clear. -/
def bit (w : Word) (n : Nat) : Bool := w.toNat.testBit n

def high (w : Word) : Byte := UInt8.ofNat (w.toNat / 256)

def low (w : Word) : Byte := UInt8.ofNat w.toNat

def ofHalves (high low : Byte) : Word := UInt16.ofNat (256 * high.toNat + low.toNat)

def withHigh (w : Word) (high : Byte) : Word := ofHalves high w.low

def withLow (w : Word) (low : Byte) : Word := ofHalves w.high low

/-- The word with the value of a byte, its high half clear. -/
def ofByte (x : Byte) : Word := ofHalves 0 x

/-- One when the condition holds and zero when it does not. -/
def ofBool (b : Bool) : Word := if b then 1 else 0

/-- Moves a word by a displacement byte, which counts from -128 to 127. -/
def displace (w : Word) (displacement : Byte) : Word :=
  w + ofHalves (if displacement.bit 7 then 0xFF else 0) displacement

/-- A word counts 256 times its high half and its low half once. -/
theorem toNat_ofHalves (high low : Byte) :
    (ofHalves high low).toNat = 256 * high.toNat + low.toNat := by
  have hh := high.toNat_lt
  have hl := low.toNat_lt
  rw [ofHalves, UInt16.toNat_ofNat']
  omega

/-- The high half is what is left when the low eight bits are dropped. -/
theorem toNat_high (w : Word) : w.high.toNat = w.toNat / 256 := by
  have hw := w.toNat_lt
  rw [high, UInt8.toNat_ofNat']
  omega

/-- The low half is the low eight bits. -/
theorem toNat_low (w : Word) : w.low.toNat = w.toNat % 256 := by
  rw [low, UInt8.toNat_ofNat']

/-- The high half of a word is the one that it was made of. -/
@[simp] theorem high_ofHalves (high low : Byte) : (ofHalves high low).high = high := by
  have hl := low.toNat_lt
  apply UInt8.toNat.inj
  rw [toNat_high, toNat_ofHalves]
  omega

/-- The low half of a word is the one that it was made of. -/
@[simp] theorem low_ofHalves (high low : Byte) : (ofHalves high low).low = low := by
  have hl := low.toNat_lt
  apply UInt8.toNat.inj
  rw [toNat_low, toNat_ofHalves]
  omega

/-- A word is made of its own halves. -/
@[simp] theorem ofHalves_high_low (w : Word) : ofHalves w.high w.low = w := by
  apply UInt16.toNat.inj
  rw [toNat_ofHalves, toNat_high, toNat_low]
  omega

end Word

end Z80
