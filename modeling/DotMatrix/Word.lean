/-!
# Bytes and words

The arithmetic of the machine is that of `UInt8` and `UInt16`, which wrap. This file adds the
operations that look inside a value.

* `Byte.bit`, `Byte.withBit`: one bit of a byte;
* `Word.ofBytes`, `Word.high`, `Word.low`: a word and its two bytes, with the three laws that tie
  them together;
* `Word.addSigned`: a word displaced by a byte read as a number from -128 to 127.
-/

namespace DotMatrix

namespace Byte

/-- Bit `n` of a byte, counted from the least significant. -/
def bit (b : UInt8) (n : Nat) : Bool := b.toNat.testBit n

/-- The byte whose only bit is bit `n`. -/
def ofBit (n : Nat) : UInt8 := UInt8.ofNat (1 <<< n)

/-- Switch bit `n` on. -/
def setBit (b : UInt8) (n : Nat) : UInt8 := b ||| ofBit n

/-- Switch bit `n` off. -/
def clearBit (b : UInt8) (n : Nat) : UInt8 := b &&& ~~~ofBit n

/-- Switch bit `n` on or off. -/
def withBit (b : UInt8) (n : Nat) (on : Bool) : UInt8 := if on then setBit b n else clearBit b n

/-- What holds of the bytes of all numbers below 256 holds of every byte. -/
@[elab_as_elim]
theorem forall_of_fin {P : UInt8 → Prop} (h : ∀ n : Fin 256, P (UInt8.ofNat n.val)) (b : UInt8) :
    P b := by
  simpa using h ⟨b.toNat, b.toNat_lt⟩

/-- One if the flag is on. -/
def ofBool (on : Bool) : UInt8 := if on then 1 else 0

@[simp] theorem toNat_ofBool (on : Bool) : (ofBool on).toNat = on.toNat := by
  cases on <;> rfl

end Byte

namespace Word

/-- The word with the given high and low bytes. -/
def ofBytes (high low : UInt8) : UInt16 := high.toUInt16 * 256 + low.toUInt16

/-- The upper byte. -/
def high (w : UInt16) : UInt8 := (w / 256).toUInt8

/-- The lower byte. -/
def low (w : UInt16) : UInt8 := w.toUInt8

/-- A byte as a word, its sign bit copied into the upper half. -/
def signExtend (b : UInt8) : UInt16 := if b < 0x80 then b.toUInt16 else 0xFF00 + b.toUInt16

/-- A word displaced by a byte read as a number from -128 to 127. -/
def addSigned (w : UInt16) (b : UInt8) : UInt16 := w + signExtend b

theorem toNat_ofBytes (h l : UInt8) : (ofBytes h l).toNat = h.toNat * 256 + l.toNat := by
  have hh := h.toNat_lt
  have hl := l.toNat_lt
  simp only [ofBytes, UInt16.toNat_add, UInt16.toNat_mul, UInt8.toNat_toUInt16, UInt16.toNat_ofNat]
  omega

theorem toNat_high (w : UInt16) : (high w).toNat = w.toNat / 256 := by
  have hw := w.toNat_lt
  simp only [high, UInt16.toNat_toUInt8, UInt16.toNat_div, UInt16.toNat_ofNat, Nat.reducePow,
    Nat.reduceMod]
  omega

theorem toNat_low (w : UInt16) : (low w).toNat = w.toNat % 256 := by
  simp only [low, UInt16.toNat_toUInt8]

@[simp] theorem high_ofBytes (h l : UInt8) : high (ofBytes h l) = h := by
  have hl := l.toNat_lt
  apply UInt8.toNat_inj.1
  rw [toNat_high, toNat_ofBytes]
  omega

@[simp] theorem low_ofBytes (h l : UInt8) : low (ofBytes h l) = l := by
  have hl := l.toNat_lt
  apply UInt8.toNat_inj.1
  rw [toNat_low, toNat_ofBytes]
  omega

@[simp] theorem ofBytes_high_low (w : UInt16) : ofBytes (high w) (low w) = w := by
  apply UInt16.toNat_inj.1
  rw [toNat_ofBytes, toNat_high, toNat_low]
  omega

end Word

end DotMatrix
