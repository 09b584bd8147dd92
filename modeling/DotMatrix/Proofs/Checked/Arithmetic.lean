import DotMatrix.Memory
import Mathlib.Algebra.Group.Int.Defs
import Mathlib.Algebra.Group.Nat.Defs

/-!
# Arithmetic that can fail

Counters of the machine have a width, tables have a size, and an index is never negative. The
functions of this file are the operations of arithmetic and storage under these conditions: they
give a result only if the conditions hold.

Everything under `Checked` repeats a part of the machine with these operations and shows that it
gives a result, and the same result. A name that ends in a question mark is that of the repetition.
A part of the machine that has no bound to keep is not repeated.

* `Checked.add`, `Checked.sub`, `Checked.mul`: numbers without sign, of a given width;
* `Checked.addCapped`: a sum that stops at the end of its width, and so always has a result;
* `Checked.signed`: a result with a sign, of sixteen bits;
* `Checked.index`: a number with a sign that is used as an index;
* `Checked.shift`: the number of places of a shift;
* `Checked.require`: any other condition;
* `Memory.get?`: a cell of a memory.
-/

namespace DotMatrix

namespace Checked

/-- The sum, if it fits into `w` bits. -/
def add (w a b : Nat) : Option Nat := if a + b < 2 ^ w then some (a + b) else none

/-- The difference, if it is not negative. -/
def sub (a b : Nat) : Option Nat := if b ≤ a then some (a - b) else none

/-- The product, if it fits into `w` bits. -/
def mul (w a b : Nat) : Option Nat := if a * b < 2 ^ w then some (a * b) else none

/-- The sum, or the greatest number of `w` bits if it does not fit. -/
def addCapped (w a b : Nat) : Nat := min (a + b) (2 ^ w - 1)

/-- A number with a sign, if it fits into sixteen bits. -/
def signed (i : Int) : Option Int := if -2 ^ 15 ≤ i ∧ i < 2 ^ 15 then some i else none

/-- A number with a sign as an index, if it is not negative. -/
def index (i : Int) : Option Nat := if 0 ≤ i then some i.toNat else none

/-- The places of a shift, if they are fewer than the `w` bits that are shifted. -/
def shift (w n : Nat) : Option Nat := if n < w then some n else none

/-- Nothing, if a condition holds. -/
def require (p : Prop) [Decidable p] : Option Unit := if p then some () else none

theorem add_eq {w a b : Nat} (h : a + b < 2 ^ w) : add w a b = some (a + b) := if_pos h

theorem sub_eq {a b : Nat} (h : b ≤ a) : sub a b = some (a - b) := if_pos h

theorem mul_eq {w a b : Nat} (h : a * b < 2 ^ w) : mul w a b = some (a * b) := if_pos h

theorem signed_eq {i : Int} (h : -2 ^ 15 ≤ i) (h' : i < 2 ^ 15) : signed i = some i :=
  if_pos ⟨h, h'⟩

theorem index_eq {i : Int} (h : 0 ≤ i) : index i = some i.toNat := if_pos h

theorem shift_eq {w n : Nat} (h : n < w) : shift w n = some n := if_pos h

theorem require_eq {p : Prop} [Decidable p] (h : p) : require p = some () := if_pos h

/-- The operations do fail. -/
example : add 8 255 1 = none ∧ sub 2 3 = none ∧ index (-1) = none ∧ shift 8 8 = none := by decide

/-- A loop whose every round gives a result gives one. -/
theorem foldlM_eq {α β : Type} {f : β → α → Option β} {g : β → α → β} {l : List α} (b : β)
    (h : ∀ b, ∀ a ∈ l, f b a = some (g b a)) : l.foldlM f b = some (l.foldl g b) := by
  induction l generalizing b with
  | nil => rfl
  | cons a l ih =>
    rw [List.foldlM_cons, h b a List.mem_cons_self, List.foldl_cons]
    exact ih (g b a) fun b a ha => h b a (List.mem_cons_of_mem _ ha)

end Checked

namespace Memory

variable {n : Nat} (m : Memory n)

/-- The byte in cell `i`, if there is one. -/
def get? (i : Nat) : Option UInt8 := if h : i < n then some (m.get ⟨i, h⟩) else none

theorem get?_eq {i : Nat} (h : i < n) : m.get? i = some (m.get ⟨i, h⟩) := dif_pos h

end Memory

end DotMatrix
