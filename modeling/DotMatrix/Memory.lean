/-!
# Storage of a fixed size

`Memory n` holds exactly `n` bytes; its cells are numbered by `Fin n`, so no access can miss. The
laws `get_set_self` and `get_set_of_ne` say that a write changes its own cell and no other; `get_set`
says both at once.
-/

namespace DotMatrix

/-- Exactly `n` bytes. -/
structure Memory (n : Nat) where
  bytes : ByteArray
  size_bytes : bytes.size = n

namespace Memory

variable {n : Nat}

/-- Every cell holds `b`. -/
def filled (n : Nat) (b : UInt8) : Memory n :=
  ⟨⟨Array.replicate n b⟩, by simp [ByteArray.size]⟩

theorem lt_size (m : Memory n) (i : Fin n) : i.val < m.bytes.size := m.size_bytes.symm ▸ i.isLt

/-- The byte in cell `i`. -/
def get (m : Memory n) (i : Fin n) : UInt8 := m.bytes.get i.val (m.lt_size i)

/-- Put `b` into cell `i`. -/
def set (m : Memory n) (i : Fin n) (b : UInt8) : Memory n :=
  ⟨m.bytes.set i.val b (m.lt_size i), by
    rw [ByteArray.size, ByteArray.data_set, Array.size_set]
    exact m.size_bytes⟩

/-- All cells in order. -/
def toList (m : Memory n) : List UInt8 := m.bytes.data.toList

@[simp] theorem get_filled (b : UInt8) (i : Fin n) : (filled n b).get i = b :=
  Array.getElem_replicate _

@[simp] theorem get_set_self (m : Memory n) (i : Fin n) (b : UInt8) : (m.set i b).get i = b :=
  Array.getElem_set_self (m.lt_size i)

theorem get_set_of_ne (m : Memory n) {i j : Fin n} (b : UInt8) (h : j ≠ i) :
    (m.set i b).get j = m.get j := by
  have hv : i.val ≠ j.val := fun e => h (Fin.ext e.symm)
  exact Array.getElem_set_ne (m.lt_size i) (m.lt_size j) hv

theorem get_set (m : Memory n) (i j : Fin n) (b : UInt8) :
    (m.set i b).get j = if j = i then b else m.get j := by
  by_cases h : j = i
  · rw [if_pos h, h, get_set_self]
  · rw [if_neg h, get_set_of_ne m b h]

end Memory

end DotMatrix
