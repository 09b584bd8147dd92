import DotMatrix.Proofs.Processor.Timing
import Mathlib.Data.Nat.Digits.Defs
import Mathlib.Tactic.Ring

/-!
# Calculations over several bytes

A program adds and subtracts long numbers byte by byte, the least significant first, and the carry
flag takes the carry from each byte to the next. Between two bytes it only moves data, which leaves
the flags alone.

* `Instruction.isMove`: the instructions that move data;
* `Column`: one byte of a calculation;
* `Machine.Calculates`: a run through the columns of a calculation, with moves between them;
* `Calculates.total`: if each column keeps the balance of its bytes and the carries, so does the
  calculation;
* `Machine.Combines`: a column that is one instruction of arithmetic;
* `long_arithmetic`: the sum or difference of two numbers of any length, and the last carry.
-/

namespace DotMatrix

/-- Does an instruction move data? These are the loads and stores, pushes, pops other than that of
AF, and the counting of pairs. Loading HL with a displaced SP calculates and is not among them. -/
def Instruction.isMove : Instruction → Bool
  | .load _ _ | .store _ | .storeImmediate | .loadA _ | .storeA _ | .loadPair _ | .storeSP
  | .loadSPFromHL | .push _ | .incrementPair _ | .decrementPair _ => true
  | .pop dst => dst != .af
  | _ => false

/-- One byte of a calculation: A and the operand before it, and A after it. -/
structure Column where
  operation : Arithmetic
  left : UInt8
  right : UInt8
  result : UInt8

namespace Machine

variable {m m' : Machine} {i : Instruction}

/-- The carry flag. -/
def carry (m : Machine) : Bool := m.cpu.registers.flags.carry

/-! ### Moves -/

theorem setByte_flags (r : Registers) (name : ByteRegister) (v : UInt8) :
    (r.setByte name v).flags = r.flags := by
  cases name <;> rfl

theorem setPair_flags (r : Registers) (name : PairRegister) (w : UInt16) :
    (r.setPair name w).flags = r.flags := by
  cases name <;> rfl

/-- A move leaves the flags alone. -/
theorem execute_flags_of_isMove (h : i.isMove = true) :
    (m.execute i).cpu.registers.flags = m.cpu.registers.flags := by
  cases i with
  | load dst src =>
    refine (setByte_flags _ dst _).trans ?_
    cases src with
    | cell c => cases c <;> rfl
    | immediate => rfl
  | loadA src => cases src <;> rfl
  | storeA dst => cases dst <;> rfl
  | loadPair dst => exact setPair_flags _ dst _
  | pop dst =>
    cases dst with
    | af => cases h
    | _ => rfl
  | incrementPair p => exact setPair_flags _ p _
  | decrementPair p => exact setPair_flags _ p _
  | store | storeImmediate | storeSP | loadSPFromHL | push => rfl
  | _ => cases h

theorem Executes.move_flags (h : m.Executes i) (hi : i.isMove = true) :
    m.step.1.cpu.registers.flags = m.cpu.registers.flags := by
  rw [h.step_eq_of_kind hi rfl rfl]
  exact execute_flags_of_isMove (m := m.fetch.2) hi

/-! ### Columns in a row -/

/-- From the first machine to the second the program runs through columns, and between them, before
and after it only moves data. -/
inductive Calculates (column : Machine → Column → Machine → Prop) :
    Machine → List Column → Machine → Prop
  | done (m : Machine) : Calculates column m [] m
  | move {m m' : Machine} {i : Instruction} {cs : List Column} :
      m.Executes i → i.isMove = true → Calculates column m.step.1 cs m' → Calculates column m cs m'
  | column {m m₁ m' : Machine} {c : Column} {cs : List Column} :
      column m c m₁ → Calculates column m₁ cs m' → Calculates column m (c :: cs) m'

section

variable {column : Machine → Column → Machine → Prop} {c : Column} {cs : List Column}

/-- A calculation comes to its first column with the flags that it began with. -/
theorem Calculates.uncons (h : Calculates column m (c :: cs) m') :
    ∃ m₁ m₂, m₁.cpu.registers.flags = m.cpu.registers.flags ∧ column m₁ c m₂ ∧
      Calculates column m₂ cs m' := by
  generalize hcs : c :: cs = all at h
  induction h with
  | done m => cases hcs
  | move hm hi _ ih =>
    obtain ⟨m₁, m₂, hflags, hcolumn, hrest⟩ := ih hcs
    exact ⟨m₁, m₂, hflags.trans (hm.move_flags hi), hcolumn, hrest⟩
  | column hcolumn hrest =>
    cases hcs
    exact ⟨_, _, rfl, hcolumn, hrest⟩

theorem Calculates.flags_eq_of_nil (h : Calculates column m [] m') :
    m'.cpu.registers.flags = m.cpu.registers.flags := by
  generalize hcs : ([] : List Column) = all at h
  induction h with
  | done m => rfl
  | move hm hi _ ih => exact (ih hcs).trans (hm.move_flags hi)
  | column => cases hcs

theorem Calculates.exists_of_mem (h : Calculates column m cs m') (hc : c ∈ cs) :
    ∃ m₁ m₂, column m₁ c m₂ := by
  induction h with
  | done m => cases hc
  | move _ _ _ ih => exact ih hc
  | column hcolumn _ ih =>
    obtain rfl | hc := List.mem_cons.1 hc
    · exact ⟨_, _, hcolumn⟩
    · exact ih hc

/-- The number whose digits some part of the columns gives, the least significant first. -/
def number (base : Nat) (digit : Column → Nat) (cs : List Column) : Nat :=
  Nat.ofDigits base (cs.map digit)

theorem number_cons (base : Nat) (digit : Column → Nat) (c : Column) (cs : List Column) :
    number base digit (c :: cs) = digit c + base * number base digit cs :=
  Nat.ofDigits_cons

theorem number_lt {base : Nat} {digit : Column → Nat} (hbase : 1 < base)
    (hdigit : ∀ c ∈ cs, digit c < base) : number base digit cs < base ^ cs.length := by
  have hlt := Nat.ofDigits_lt_base_pow_length hbase (l := cs.map digit) (by simpa using hdigit)
  rwa [List.length_map] at hlt

/-- The balance of one more column: its own carry `k₁` goes into the columns after it. -/
theorem balance_cons {base bound s a o k k₁ k' S A O : Nat} (hc : s + base * k₁ = a + o + k)
    (hcs : S + bound * k' = A + O + k₁) :
    s + base * S + bound * base * k' = a + base * A + (o + base * O) + k :=
  calc s + base * S + bound * base * k'
      = s + base * (S + bound * k') := by ring
    _ = (s + base * k₁) + base * (A + O) := by rw [hcs]; ring
    _ = a + base * A + (o + base * O) + k := by rw [hc]; ring

/-- **The balance of a calculation.** If each column keeps the balance of two addends, a sum, and
the carries before and after it, then so do the columns together. -/
theorem Calculates.total {base : Nat} {sum addend other : Column → Nat}
    (hcolumn : ∀ c ∈ cs, ∀ m m', column m c m' →
      sum c + base * m'.carry.toNat = addend c + other c + m.carry.toNat)
    (h : Calculates column m cs m') :
    number base sum cs + base ^ cs.length * m'.carry.toNat =
      number base addend cs + number base other cs + m.carry.toNat := by
  induction cs generalizing m with
  | nil =>
    have hcarry : m'.carry = m.carry := congrArg Flags.carry h.flags_eq_of_nil
    simp [number, hcarry]
  | cons c cs ih =>
    obtain ⟨m₁, m₂, hflags, hfirst, hrest⟩ := h.uncons
    have hcarry : m₁.carry = m.carry := congrArg Flags.carry hflags
    have hc := hcolumn c List.mem_cons_self m₁ m₂ hfirst
    have hcs := ih (fun c hc => hcolumn c (List.mem_cons_of_mem _ hc)) hrest
    rw [hcarry] at hc
    simp only [number_cons, List.length_cons, pow_succ]
    exact balance_cons hc hcs

/-- If the first column leaves out the carry before it, the balance is that of no carry. -/
theorem Calculates.total_without_carry {base : Nat} {sum addend other : Column → Nat}
    (hfirst : ∀ m m', column m c m' → sum c + base * m'.carry.toNat = addend c + other c)
    (hcolumn : ∀ c ∈ cs, ∀ m m', column m c m' →
      sum c + base * m'.carry.toNat = addend c + other c + m.carry.toNat)
    (h : Calculates column m (c :: cs) m') :
    number base sum (c :: cs) + base ^ (c :: cs).length * m'.carry.toNat =
      number base addend (c :: cs) + number base other (c :: cs) := by
  obtain ⟨m₁, m₂, -, hc, hrest⟩ := h.uncons
  have hc := hfirst m₁ m₂ hc
  have hcs := hrest.total hcolumn
  simp only [number_cons, List.length_cons, pow_succ]
  exact balance_cons (k := 0) hc hcs

end

/-- The sum and its carry, from their balance. -/
theorem sum_of_balance {bound sum total : Nat} {carry : Bool} (hlt : sum < bound)
    (h : sum + bound * carry.toNat = total) :
    sum = total % bound ∧ (carry = true ↔ bound ≤ total) := by
  subst h
  rw [Nat.add_mul_mod_self_left, Nat.mod_eq_of_lt hlt]
  cases carry <;> simp [hlt]

/-- The difference and its borrow, from their balance. -/
theorem difference_of_balance {bound difference minuend subtrahend before : Nat} {borrow : Bool}
    (hlt : difference < bound)
    (h : minuend + bound * borrow.toNat = difference + subtrahend + before) :
    (difference : Int) = ((minuend : Int) - subtrahend - before) % bound ∧
      (borrow = true ↔ minuend < subtrahend + before) := by
  have hint : (minuend : Int) - subtrahend - before = difference - bound * borrow.toNat := by
    have hcast : ((minuend + bound * borrow.toNat : Nat) : Int) =
        (difference + subtrahend + before : Nat) := by rw [h]
    push_cast at hcast
    omega
  constructor
  · rw [hint, Int.sub_mul_emod_self_left, Int.emod_eq_of_lt (Int.natCast_nonneg _)]
    exact Int.ofNat_lt.2 hlt
  · cases borrow with
    | false =>
      rw [Bool.toNat_false] at h
      simp only [Bool.false_eq_true, false_iff]
      omega
    | true =>
      rw [Bool.toNat_true] at h
      simp only [true_iff]
      omega

/-! ### Columns of arithmetic -/

/-- The instruction at PC is the operation of the column, on its bytes. -/
structure Combines (m : Machine) (c : Column) (m' : Machine) : Prop where
  executes : ∃ right, m.Executes (.arithmetic c.operation right) ∧
    (m.fetch.2.readOperand right).1 = c.right
  left_eq : m.cpu.registers.a = c.left
  step_eq : m.step.1 = m'
  result_eq : m'.cpu.registers.a = c.result

theorem combine_result (op : Arithmetic) (right : Operand) :
    let result := Alu.arithmetic op m.cpu.registers.a (m.readOperand right).1 m.cpu.registers.flags
    (m.combine op right).cpu.registers.a = result.1 ∧
      (m.combine op right).cpu.registers.flags = result.2 := by
  cases right with
  | cell c => cases c <;> exact ⟨rfl, rfl⟩
  | immediate => exact ⟨rfl, rfl⟩

variable {c : Column}

/-- What a column leaves in A and in the flags. -/
theorem Combines.outcome (h : Combines m c m') :
    let outcome := Alu.arithmetic c.operation c.left c.right m.cpu.registers.flags
    c.result = outcome.1 ∧ m'.cpu.registers.flags = outcome.2 := by
  obtain ⟨right, hexecutes, hright⟩ := h.executes
  have hstep : m' = m.executed (.arithmetic c.operation right) := by
    rw [← h.step_eq, hexecutes.step_eq (by simp) (by simp)]
  have hresult := combine_result (m := m.fetch.2) c.operation right
  rw [hright] at hresult
  rw [← h.result_eq, ← h.left_eq, hstep]
  exact hresult

end Machine

/-- The carry that an operation takes in. -/
def Arithmetic.carryIn (op : Arithmetic) (carry : Bool) : Bool :=
  match op with
  | .adc | .sbc => carry
  | _ => false

namespace Alu

theorem add_balance (a n : UInt8) (carry : Bool) :
    (add a n carry).1.toNat + 256 * (add a n carry).2.carry.toNat =
      a.toNat + n.toNat + carry.toNat := by
  have ha := a.toNat_lt
  have hn := n.toNat_lt
  have hc := carry.toNat_le
  simp only [add, UInt8.toNat_add, Byte.toNat_ofBool]
  by_cases h : 255 < a.toNat + n.toNat + carry.toNat
  · rw [decide_eq_true h, Bool.toNat_true]
    omega
  · rw [decide_eq_false h, Bool.toNat_false]
    omega

theorem sub_balance (a n : UInt8) (carry : Bool) :
    a.toNat + 256 * (sub a n carry).2.carry.toNat =
      (sub a n carry).1.toNat + n.toNat + carry.toNat := by
  have ha := a.toNat_lt
  have hn := n.toNat_lt
  have hc := carry.toNat_le
  simp only [sub, UInt8.toNat_sub, Byte.toNat_ofBool]
  by_cases h : a.toNat < n.toNat + carry.toNat
  · rw [decide_eq_true h, Bool.toNat_true]
    omega
  · rw [decide_eq_false h, Bool.toNat_false]
    omega

end Alu

namespace Machine

variable {m m' : Machine} {c : Column} {cs : List Column}

/-- The balance of a column that adds. -/
theorem Combines.sum_balance (hop : c.operation = .add ∨ c.operation = .adc)
    (h : Combines m c m') :
    c.result.toNat + 256 * m'.carry.toNat =
      c.left.toNat + c.right.toNat + (c.operation.carryIn m.carry).toNat := by
  obtain ⟨hresult, hflags⟩ := h.outcome
  rw [carry, hresult, hflags]
  obtain hop | hop := hop <;> rw [hop] <;> exact Alu.add_balance _ _ _

/-- The balance of a column that subtracts. -/
theorem Combines.difference_balance (hop : c.operation = .sub ∨ c.operation = .sbc)
    (h : Combines m c m') :
    c.left.toNat + 256 * m'.carry.toNat =
      c.result.toNat + c.right.toNat + (c.operation.carryIn m.carry).toNat := by
  obtain ⟨hresult, hflags⟩ := h.outcome
  rw [carry, hresult, hflags]
  obtain hop | hop := hop <;> rw [hop] <;> exact Alu.sub_balance _ _ _

/-- A calculation whose operations are one and then others all alike. -/
theorem exists_cons_of_operations {first others : Arithmetic}
    (h : cs.map (·.operation) = first :: List.replicate (cs.length - 1) others) :
    ∃ c rest, cs = c :: rest ∧ c.operation = first ∧ ∀ c ∈ rest, c.operation = others := by
  cases cs with
  | nil => cases h
  | cons c rest =>
    obtain ⟨hfirst, hrest⟩ := List.cons.inj h
    exact ⟨c, rest, rfl, hfirst, List.map_eq_replicate_iff.1 hrest⟩

/-- **Long sums and differences.** Let a program run through the columns of a calculation, the least
significant first, with nothing but moves between them and no interrupt served. Where every column
adds with carry, the results are the sum of the two numbers and the carry before it, in as many
bytes, and the carry after it is on just if the sum does not fit. Where every column subtracts with
carry, they are the difference, and the carry after it is on just if it is negative. Starting with
an addition or subtraction without carry is the same as starting with no carry. -/
theorem long_arithmetic (h : Calculates Combines m cs m') :
    let n := cs.length
    let x := number 256 (·.left.toNat) cs
    let y := number 256 (·.right.toNat) cs
    let z := number 256 (·.result.toNat) cs
    let carry := m.carry.toNat
    (cs.map (·.operation) = List.replicate n .adc →
      z = (x + y + carry) % 256 ^ n ∧ (m'.carry = true ↔ 256 ^ n ≤ x + y + carry)) ∧
    (cs.map (·.operation) = .add :: List.replicate (n - 1) .adc →
      z = (x + y) % 256 ^ n ∧ (m'.carry = true ↔ 256 ^ n ≤ x + y)) ∧
    (cs.map (·.operation) = List.replicate n .sbc →
      (z : Int) = ((x : Int) - y - carry) % (256 ^ n : Nat) ∧ (m'.carry = true ↔ x < y + carry)) ∧
    (cs.map (·.operation) = .sub :: List.replicate (n - 1) .sbc →
      (z : Int) = ((x : Int) - y) % (256 ^ n : Nat) ∧ (m'.carry = true ↔ x < y)) := by
  intro n x y z carry
  have hz : z < 256 ^ n := number_lt (by decide) fun c _ => c.result.toNat_lt
  refine ⟨fun hops => ?_, fun hops => ?_, fun hops => ?_, fun hops => ?_⟩
  · rw [List.map_eq_replicate_iff] at hops
    refine sum_of_balance hz (h.total fun c hc m m' hm => ?_)
    have hbalance := hm.sum_balance (.inr (hops c hc))
    rwa [hops c hc] at hbalance
  · obtain ⟨c, rest, rfl, hfirst, hrest⟩ := exists_cons_of_operations hops
    refine sum_of_balance hz (h.total_without_carry (fun m m' hm => ?_) fun c hc m m' hm => ?_)
    · have hbalance := hm.sum_balance (.inl hfirst)
      rwa [hfirst] at hbalance
    · have hbalance := hm.sum_balance (.inr (hrest c hc))
      rwa [hrest c hc] at hbalance
  · rw [List.map_eq_replicate_iff] at hops
    refine difference_of_balance hz (h.total fun c hc m m' hm => ?_)
    have hbalance := hm.difference_balance (.inr (hops c hc))
    rwa [hops c hc] at hbalance
  · obtain ⟨c, rest, rfl, hfirst, hrest⟩ := exists_cons_of_operations hops
    have hbalance : x + 256 ^ n * m'.carry.toNat = z + y :=
      h.total_without_carry (fun m m' hm => ?_) fun c hc m m' hm => ?_
    · have hbalance' : x + 256 ^ n * m'.carry.toNat = z + y + 0 := hbalance
      simpa using difference_of_balance hz hbalance'
    · have hbalance := hm.difference_balance (.inl hfirst)
      rwa [hfirst] at hbalance
    · have hbalance := hm.difference_balance (.inr (hrest c hc))
      rwa [hrest c hc] at hbalance

/-- A program that adds 01 and 01 to 12FF: `ADC A,B`, `LD A,D`, `ADC A,B`, with 1 in B and 12 in D. -/
def addingWords : Machine :=
  ofProgram { Registers.zeroed with a := 0xFF, b := 0x01, d := 0x12 } [0x88, 0x7A, 0x88]

/-- The sum of 12FF and 0101 is 1400. -/
theorem long_arithmetic_words :
    let cs : List Column := [⟨.adc, 0xFF, 0x01, 0x00⟩, ⟨.adc, 0x12, 0x01, 0x14⟩]
    addingWords.Calculates Combines cs (addingWords.run 3) ∧
      number 256 (·.result.toNat) cs = (0x12FF + 0x0101) % 256 ^ 2 ∧
      (addingWords.run 3).carry = false := by
  intro cs
  have hlow : addingWords.Combines ⟨.adc, 0xFF, 0x01, 0x00⟩ (addingWords.run 1) :=
    ⟨⟨.cell (.register .b), by decide +kernel, by decide +kernel⟩, rfl, rfl, by decide +kernel⟩
  have hmove : (addingWords.run 1).Executes (.load .a (.cell (.register .d))) := by decide +kernel
  have hhigh : (addingWords.run 2).Combines ⟨.adc, 0x12, 0x01, 0x14⟩ (addingWords.run 3) :=
    ⟨⟨.cell (.register .b), by decide +kernel, by decide +kernel⟩, by decide +kernel, rfl,
      by decide +kernel⟩
  have hcalculates : addingWords.Calculates Combines cs (addingWords.run 3) :=
    .column hlow (.move hmove rfl (.column hhigh (.done _)))
  obtain ⟨hsum, hcarry⟩ := (long_arithmetic hcalculates).1 rfl
  have hbefore : addingWords.carry = false := rfl
  refine ⟨hcalculates, ?_, ?_⟩
  · rw [hsum, hbefore]
    rfl
  · rw [Bool.eq_false_iff, ne_eq, hcarry, hbefore]
    decide

end Machine

end DotMatrix
