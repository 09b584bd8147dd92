import DotMatrix.Word

/-!
# Object transfer

The engine that fills object memory with a page of bytes. It waits two machine cycles and then
copies one byte in each of the next 160. It only keeps count; the bus does the copying, so that the
source is read under the rules of the bus.
-/

namespace DotMatrix

/-- How far a transfer has come. -/
inductive ObjectTransfer
  | idle
  /-- Machine cycles to wait before the first byte of the page. -/
  | waiting (page : UInt8) (cycles : Nat)
  /-- The next byte to copy from the page. -/
  | copying (page : UInt8) (next : Fin 160)
  deriving DecidableEq, Repr

namespace ObjectTransfer

/-- One byte to copy into object memory. -/
structure Copy where
  source : UInt16
  index : Fin 160
  deriving DecidableEq, Repr

/-- Address of the first byte of object memory. -/
def objectBase : UInt16 := 0xFE00

/-- The address that a copy goes to. -/
def Copy.destination (c : Copy) : UInt16 := objectBase + UInt16.ofNat c.index.val

/-- Begin a transfer of a page; one that is under way is given up. -/
def start (page : UInt8) : ObjectTransfer := .waiting page 2

/-- Is a transfer under way? -/
def isActive : ObjectTransfer → Bool
  | .idle => false
  | _ => true

/-- The copy of byte `i` of a page. -/
def copyOf (page : UInt8) (i : Fin 160) : Copy := ⟨Word.ofBytes page (UInt8.ofNat i.val), i⟩

/-- One machine cycle, and the byte to copy in it. -/
def step : ObjectTransfer → ObjectTransfer × Option Copy
  | .idle => (.idle, none)
  | .waiting page n => (if n ≤ 1 then .copying page 0 else .waiting page (n - 1), none)
  | .copying page i =>
    (if h : i.val + 1 < 160 then .copying page ⟨i.val + 1, h⟩ else .idle, some (copyOf page i))

end ObjectTransfer

end DotMatrix
