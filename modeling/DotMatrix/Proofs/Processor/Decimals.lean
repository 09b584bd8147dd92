import DotMatrix.Proofs.Processor.Columns

/-!
# Calculations in decimal digits

A byte can hold two decimal digits. The processor adds and subtracts such bytes in binary, and an
instruction of its own, right after the operation, makes the result decimal again: it looks at the
flags that the operation has left and adds or takes away six where a digit has gone past nine or has
borrowed. With its carry the decimal digits of long numbers hang together as their bytes do.

* `Byte.IsDecimal`, `Byte.decimal`: two decimal digits, and the number that they stand for;
* `Alu.decimalAdjust_add`, `Alu.decimalAdjust_sub`: an operation on two such bytes with a carry
  before it, adjusted;
* `Machine.CombinesDecimal`: a column that is an operation and its adjustment;
* `long_decimal_arithmetic`: the sum or difference of two decimal numbers of any length.
-/

namespace DotMatrix

namespace Byte

/-- Are both halves of a byte decimal digits? -/
def IsDecimal (b : UInt8) : Prop := b.toNat / 16 ≤ 9 ∧ b.toNat % 16 ≤ 9

/-- The number that two decimal digits stand for, the upper half of the byte first. -/
def decimal (b : UInt8) : Nat := 10 * (b.toNat / 16) + b.toNat % 16

instance (b : UInt8) : Decidable (IsDecimal b) :=
  inferInstanceAs (Decidable (b.toNat / 16 ≤ 9 ∧ b.toNat % 16 ≤ 9))

theorem IsDecimal.decimal_lt {b : UInt8} (h : IsDecimal b) : decimal b < 100 := by
  obtain ⟨hh, hl⟩ := h
  unfold decimal
  omega

/-- A subtraction borrows in binary just if it does in decimal digits. -/
theorem IsDecimal.lt_add_iff {x y : UInt8} (hx : IsDecimal x) (hy : IsDecimal y) {k : Nat}
    (hk : k ≤ 1) : x.toNat < y.toNat + k ↔ decimal x < decimal y + k := by
  obtain ⟨hxh, hxl⟩ := hx
  obtain ⟨hyh, hyl⟩ := hy
  unfold decimal
  omega

end Byte

namespace Alu

open Byte

variable {x y : UInt8} (carry : Bool)

/-- After an addition of decimal digits six is added to a digit just if it has come to more than
nine, and that of the upper digit is what the two numbers come to. -/
theorem decimalCorrection_add (hx : IsDecimal x) (hy : IsDecimal y) :
    decimalCorrection (add x y carry).1 (add x y carry).2 =
      ((if 9 < x.toNat % 16 + y.toNat % 16 + carry.toNat then 0x06 else 0) +
        (if 99 < decimal x + decimal y + carry.toNat then 0x60 else 0),
        decide (99 < decimal x + decimal y + carry.toNat)) := by
  obtain ⟨hxh, hxl⟩ := hx
  obtain ⟨hyh, hyl⟩ := hy
  have hc := carry.toNat_le
  have hlow : (decide (15 < x.toNat % 16 + y.toNat % 16 + carry.toNat) ||
      decide (9 < (x + y + ofBool carry).toNat % 16)) =
        decide (9 < x.toNat % 16 + y.toNat % 16 + carry.toNat) := by
    rw [← Bool.decide_or, decide_eq_decide, UInt8.toNat_add, UInt8.toNat_add, toNat_ofBool]
    omega
  have hhigh : (decide (255 < x.toNat + y.toNat + carry.toNat) ||
      decide (0x99 < (x + y + ofBool carry).toNat)) =
        decide (99 < decimal x + decimal y + carry.toNat) := by
    rw [← Bool.decide_or, decide_eq_decide, UInt8.toNat_add, UInt8.toNat_add, toNat_ofBool, decimal,
      decimal]
    omega
  show ((if (decide (15 < x.toNat % 16 + y.toNat % 16 + carry.toNat) ||
      decide (9 < (x + y + ofBool carry).toNat % 16)) then (0x06 : UInt8) else 0) +
    (if (decide (255 < x.toNat + y.toNat + carry.toNat) ||
      decide (0x99 < (x + y + ofBool carry).toNat)) then (0x60 : UInt8) else 0),
    (decide (255 < x.toNat + y.toNat + carry.toNat) ||
      decide (0x99 < (x + y + ofBool carry).toNat))) = _
  rw [hlow, hhigh]
  simp only [decide_eq_true_eq]

/-- After a subtraction of decimal digits six is taken from a digit just if it has borrowed. -/
theorem decimalCorrection_sub (hx : IsDecimal x) (hy : IsDecimal y) :
    decimalCorrection (sub x y carry).1 (sub x y carry).2 =
      ((if x.toNat % 16 < y.toNat % 16 + carry.toNat then 0x06 else 0) +
        (if decimal x < decimal y + carry.toNat then 0x60 else 0),
        decide (decimal x < decimal y + carry.toNat)) := by
  have hhigh : decide (x.toNat < y.toNat + carry.toNat) =
      decide (decimal x < decimal y + carry.toNat) :=
    decide_eq_decide.2 (hx.lt_add_iff hy carry.toNat_le)
  show ((if (decide (x.toNat % 16 < y.toNat % 16 + carry.toNat) || false) then (0x06 : UInt8) else 0) +
    (if (decide (x.toNat < y.toNat + carry.toNat) || false) then (0x60 : UInt8) else 0),
    (decide (x.toNat < y.toNat + carry.toNat) || false)) = _
  rw [hhigh]
  simp only [Bool.or_false, decide_eq_true_eq]

theorem toNat_add_correction (n : UInt8) (low high : Prop) [Decidable low] [Decidable high] :
    (n + ((if low then 0x06 else 0) + if high then 0x60 else 0)).toNat =
      (n.toNat + ((if low then 6 else 0) + if high then 96 else 0)) % 256 := by
  split <;> split <;> exact UInt8.toNat_add _ _

theorem toNat_sub_correction (n : UInt8) (low high : Prop) [Decidable low] [Decidable high] :
    (n - ((if low then 0x06 else 0) + if high then 0x60 else 0)).toNat =
      (256 - ((if low then 6 else 0) + if high then 96 else 0) + n.toNat) % 256 := by
  split <;> split <;> exact UInt8.toNat_sub _ _

/-- **A sum of decimal digits, adjusted**, is decimal, and has their carry. -/
theorem decimalAdjust_add (hx : IsDecimal x) (hy : IsDecimal y) :
    let adjusted := decimalAdjust (add x y carry).1 (add x y carry).2
    IsDecimal adjusted.1 ∧
      decimal adjusted.1 + 100 * adjusted.2.carry.toNat = decimal x + decimal y + carry.toNat := by
  intro adjusted
  have hcorrection := decimalCorrection_add carry hx hy
  obtain ⟨hxh, hxl⟩ := hx
  obtain ⟨hyh, hyl⟩ := hy
  have hc := carry.toNat_le
  have hcarry : adjusted.2.carry.toNat =
      if 99 < decimal x + decimal y + carry.toNat then 1 else 0 :=
    (congrArg (Bool.toNat ∘ Prod.snd) hcorrection).trans (apply_ite Bool.toNat _ true false)
  have hresult : adjusted.1.toNat = (((x.toNat + y.toNat) % 256 + carry.toNat) % 256 +
      ((if 9 < x.toNat % 16 + y.toNat % 16 + carry.toNat then 6 else 0) +
        (if 99 < decimal x + decimal y + carry.toNat then 96 else 0))) % 256 := by
    show (x + y + ofBool carry +
      (decimalCorrection (add x y carry).1 (add x y carry).2).1).toNat = _
    rw [hcorrection, toNat_add_correction, UInt8.toNat_add, UInt8.toNat_add, toNat_ofBool]
  generalize adjusted.1 = r at hresult ⊢
  rw [hcarry]
  unfold IsDecimal
  unfold decimal at *
  split_ifs at hresult ⊢ <;> omega

/-- **A difference of decimal digits, adjusted**, is decimal, and has their borrow. -/
theorem decimalAdjust_sub (hx : IsDecimal x) (hy : IsDecimal y) :
    let adjusted := decimalAdjust (sub x y carry).1 (sub x y carry).2
    IsDecimal adjusted.1 ∧
      decimal x + 100 * adjusted.2.carry.toNat = decimal adjusted.1 + decimal y + carry.toNat := by
  intro adjusted
  have hcorrection := decimalCorrection_sub carry hx hy
  have hborrow : (sub x y carry).2.carry.toNat =
      if decimal x < decimal y + carry.toNat then 1 else 0 :=
    (congrArg Bool.toNat (decide_eq_decide.2 (hx.lt_add_iff hy carry.toNat_le))).trans
      (apply_ite Bool.toNat _ true false)
  have hcarry : adjusted.2.carry.toNat = if decimal x < decimal y + carry.toNat then 1 else 0 :=
    (congrArg (Bool.toNat ∘ Prod.snd) hcorrection).trans (apply_ite Bool.toNat _ true false)
  have hbalance := sub_balance x y carry
  have hresult : adjusted.1.toNat =
      (256 - ((if x.toNat % 16 < y.toNat % 16 + carry.toNat then 6 else 0) +
        (if decimal x < decimal y + carry.toNat then 96 else 0)) + (sub x y carry).1.toNat) % 256 := by
    show ((sub x y carry).1 -
      (decimalCorrection (sub x y carry).1 (sub x y carry).2).1).toNat = _
    rw [hcorrection, toNat_sub_correction]
  obtain ⟨hxh, hxl⟩ := hx
  obtain ⟨hyh, hyl⟩ := hy
  have hc := carry.toNat_le
  rw [hborrow] at hbalance
  rw [hcarry]
  generalize (sub x y carry).1.toNat = s at hbalance hresult
  generalize adjusted.1 = r at hresult ⊢
  unfold IsDecimal
  unfold decimal at *
  split_ifs at hresult hbalance ⊢ <;> omega

end Alu

namespace Machine

open Byte

variable {m m' : Machine} {c : Column} {cs : List Column}

/-- The instruction at PC is the operation of the column, and the one after it adjusts the result. -/
def CombinesDecimal (m : Machine) (c : Column) (m' : Machine) : Prop :=
  ∃ (binary : UInt8) (m₁ : Machine), Combines m { c with result := binary } m₁ ∧
    m₁.Executes .decimalAdjust ∧ m₁.step.1 = m' ∧ m'.cpu.registers.a = c.result

/-- What a decimal column leaves in A and in the flags. -/
theorem CombinesDecimal.outcome (h : CombinesDecimal m c m') :
    let binary := Alu.arithmetic c.operation c.left c.right m.cpu.registers.flags
    let adjusted := Alu.decimalAdjust binary.1 binary.2
    c.result = adjusted.1 ∧ m'.cpu.registers.flags = adjusted.2 := by
  obtain ⟨binary, m₁, hcombines, hexecutes, rfl, hresult⟩ := h
  obtain ⟨hbinary, hflags⟩ := hcombines.outcome
  have hstep : m₁.step.1 = m₁.executed .decimalAdjust := by
    rw [hexecutes.step_eq (by simp) (by simp)]
  have ha : m₁.cpu.registers.a = binary := hcombines.result_eq
  intro b adjusted
  have hadjusted : adjusted = Alu.decimalAdjust m₁.cpu.registers.a m₁.cpu.registers.flags := by
    rw [ha, hflags]
    exact congrArg (Alu.decimalAdjust · b.2) hbinary.symm
  rw [← hresult, hstep, hadjusted]
  exact ⟨rfl, rfl⟩

/-- The balance of a column that adds. -/
theorem CombinesDecimal.sum_balance (hop : c.operation = .adc) (hl : IsDecimal c.left)
    (hr : IsDecimal c.right) (h : CombinesDecimal m c m') :
    IsDecimal c.result ∧
      decimal c.result + 100 * m'.carry.toNat =
        decimal c.left + decimal c.right + m.carry.toNat := by
  obtain ⟨hresult, hflags⟩ := h.outcome
  rw [carry, hresult, hflags, hop]
  exact Alu.decimalAdjust_add _ hl hr

/-- The balance of a column that subtracts. -/
theorem CombinesDecimal.difference_balance (hop : c.operation = .sbc) (hl : IsDecimal c.left)
    (hr : IsDecimal c.right) (h : CombinesDecimal m c m') :
    IsDecimal c.result ∧
      decimal c.left + 100 * m'.carry.toNat =
        decimal c.result + decimal c.right + m.carry.toNat := by
  obtain ⟨hresult, hflags⟩ := h.outcome
  rw [carry, hresult, hflags, hop]
  exact Alu.decimalAdjust_sub _ hl hr

/-- **Long sums and differences in decimal digits.** Let a program run through the columns of a
calculation on bytes of two decimal digits, the least significant first, each operation with its
adjustment right after it, with nothing but moves between columns and no interrupt served. Where
every column adds with carry, the results are the decimal digits of the sum of the two numbers and
the carry before it, in as many digits, and the carry after it is on just if the sum does not fit.
Where every column subtracts with carry, they are those of the difference, and the carry after it is
on just if it is negative. -/
theorem long_decimal_arithmetic (h : Calculates CombinesDecimal m cs m')
    (hdecimal : ∀ c ∈ cs, IsDecimal c.left ∧ IsDecimal c.right) :
    let n := cs.length
    let x := number 100 (decimal ·.left) cs
    let y := number 100 (decimal ·.right) cs
    let z := number 100 (decimal ·.result) cs
    let carry := m.carry.toNat
    (cs.map (·.operation) = List.replicate n .adc →
      (∀ c ∈ cs, IsDecimal c.result) ∧
        z = (x + y + carry) % 100 ^ n ∧ (m'.carry = true ↔ 100 ^ n ≤ x + y + carry)) ∧
    (cs.map (·.operation) = List.replicate n .sbc →
      (∀ c ∈ cs, IsDecimal c.result) ∧
        (z : Int) = ((x : Int) - y - carry) % (100 ^ n : Nat) ∧
          (m'.carry = true ↔ x < y + carry)) := by
  intro n x y z carry
  have hz (hresult : ∀ c ∈ cs, IsDecimal c.result) : z < 100 ^ n :=
    number_lt (by decide) fun c hc => (hresult c hc).decimal_lt
  refine ⟨fun hops => ?_, fun hops => ?_⟩
  · rw [List.map_eq_replicate_iff] at hops
    have hcolumn (c) (hc : c ∈ cs) (m m') (hm : CombinesDecimal m c m') :=
      hm.sum_balance (hops c hc) (hdecimal c hc).1 (hdecimal c hc).2
    have hresult (c) (hc : c ∈ cs) : IsDecimal c.result := by
      obtain ⟨m₁, m₂, hm⟩ := h.exists_of_mem hc
      exact (hcolumn c hc m₁ m₂ hm).1
    exact ⟨hresult, sum_of_balance (hz hresult) (h.total fun c hc m m' hm => (hcolumn c hc m m' hm).2)⟩
  · rw [List.map_eq_replicate_iff] at hops
    have hcolumn (c) (hc : c ∈ cs) (m m') (hm : CombinesDecimal m c m') :=
      hm.difference_balance (hops c hc) (hdecimal c hc).1 (hdecimal c hc).2
    have hresult (c) (hc : c ∈ cs) : IsDecimal c.result := by
      obtain ⟨m₁, m₂, hm⟩ := h.exists_of_mem hc
      exact (hcolumn c hc m₁ m₂ hm).1
    exact ⟨hresult,
      difference_of_balance (hz hresult) (h.total fun c hc m m' hm => (hcolumn c hc m m' hm).2)⟩

/-- A program that takes 2 from 300: `SBC A,B`, `DAA`, `LD A,D`, `SBC A,C`, `DAA`, with 0 in A, 2 in B,
0 in C and 3 in D, and no carry. -/
def subtractingDecimals : Machine :=
  ofProgram { Registers.zeroed with b := 0x02, d := 0x03 } [0x98, 0x27, 0x7A, 0x99, 0x27]

/-- The difference of 300 and 2 is 298. -/
theorem long_decimal_arithmetic_borrow :
    let cs : List Column := [⟨.sbc, 0x00, 0x02, 0x98⟩, ⟨.sbc, 0x03, 0x00, 0x02⟩]
    subtractingDecimals.Calculates CombinesDecimal cs (subtractingDecimals.run 5) ∧
      (∀ c ∈ cs, IsDecimal c.left ∧ IsDecimal c.right) ∧
      (number 100 (decimal ·.result) cs : Int) = (300 - 2) % (100 ^ 2 : Nat) ∧
      (subtractingDecimals.run 5).carry = false := by
  intro cs
  have hlow : subtractingDecimals.CombinesDecimal ⟨.sbc, 0x00, 0x02, 0x98⟩ (subtractingDecimals.run 2) :=
    ⟨0xFE, subtractingDecimals.run 1,
      ⟨⟨.cell (.register .b), by decide +kernel, by decide +kernel⟩, rfl, rfl, by decide +kernel⟩,
      by decide +kernel, rfl, by decide +kernel⟩
  have hmove : (subtractingDecimals.run 2).Executes (.load .a (.cell (.register .d))) := by
    decide +kernel
  have hhigh : (subtractingDecimals.run 3).CombinesDecimal ⟨.sbc, 0x03, 0x00, 0x02⟩
      (subtractingDecimals.run 5) :=
    ⟨0x02, subtractingDecimals.run 4,
      ⟨⟨.cell (.register .c), by decide +kernel, by decide +kernel⟩, by decide +kernel, rfl,
        by decide +kernel⟩,
      by decide +kernel, rfl, by decide +kernel⟩
  have hcalculates : subtractingDecimals.Calculates CombinesDecimal cs (subtractingDecimals.run 5) :=
    .column hlow (.move hmove rfl (.column hhigh (.done _)))
  have hdecimal : ∀ c ∈ cs, IsDecimal c.left ∧ IsDecimal c.right := by decide
  obtain ⟨-, hdifference, hcarry⟩ := (long_decimal_arithmetic hcalculates hdecimal).2 rfl
  have hbefore : subtractingDecimals.carry = false := rfl
  refine ⟨hcalculates, hdecimal, ?_, ?_⟩
  · rw [hdifference, hbefore]
    rfl
  · rw [Bool.eq_false_iff, ne_eq, hcarry, hbefore]
    decide

end Machine

end DotMatrix
