import DotMatrix.Memory
import DotMatrix.Word

/-!
# Sprites

Object memory holds forty sprites of four bytes each. A line shows at most ten of those that cover
it, the first ten in memory order. They are drawn one over the other: a sprite later in memory
before one earlier in memory, except that a sprite moves ahead of the one drawn before it while it
lies to the right of that one by at most eight columns. So among overlapping sprites the leftmost
is drawn last.

* `Sprite.onLine` selects the sprites of a line;
* `Sprite.drawOrder` sorts them for drawing.
-/

namespace DotMatrix

/-- One entry of object memory. The position counts from a point sixteen rows above and eight
columns left of the screen's corner. -/
structure Sprite where
  x : UInt8
  y : UInt8
  tile : UInt8
  attributes : UInt8
  deriving DecidableEq, Repr

namespace Sprite

/-- Rows of a sprite. -/
def height (tall : Bool) : Nat := if tall then 16 else 8

variable (s : Sprite)

/-- Is the sprite drawn behind background colours 1 to 3? -/
def behind : Bool := Byte.bit s.attributes 7

/-- Is the sprite upside down? -/
def flippedY : Bool := Byte.bit s.attributes 6

/-- Is the sprite turned left to right? -/
def flippedX : Bool := Byte.bit s.attributes 5

/-- Does the sprite use the second object palette? -/
def secondPalette : Bool := Byte.bit s.attributes 4

/-- Does the sprite have a row on the line? -/
def Covers (tall : Bool) (line : Nat) : Prop :=
  s.y.toNat ≤ line + 16 ∧ line + 16 < s.y.toNat + height tall

instance (tall : Bool) (line : Nat) : Decidable (s.Covers tall line) :=
  inferInstanceAs (Decidable (_ ∧ _))

theorem Covers.lt_height {s : Sprite} {tall : Bool} {line : Nat} (h : s.Covers tall line) :
    line + 16 - s.y.toNat < height tall := by
  unfold Covers at h
  omega

theorem height_le (tall : Bool) : height tall ≤ 16 := by
  cases tall <;> decide

/-- The row of the sprite's pattern that the line shows. -/
def patternRow (tall : Bool) (line : Nat) (h : s.Covers tall line) : Fin 16 :=
  let row := line + 16 - s.y.toNat
  have hr : row < height tall := h.lt_height
  have hh := height_le tall
  if s.flippedY then ⟨height tall - 1 - row, by omega⟩ else ⟨row, by omega⟩

/-- The tile that holds the pattern's first row: tall sprites use an even tile and the next. -/
def firstTile (tall : Bool) : UInt8 := if tall then s.tile &&& 0xFE else s.tile

/-- Sprite `i` of object memory. -/
def entry (objects : Memory 160) (i : Fin 40) : Sprite :=
  { y := objects.get ⟨4 * i.val, by omega⟩
    x := objects.get ⟨4 * i.val + 1, by omega⟩
    tile := objects.get ⟨4 * i.val + 2, by omega⟩
    attributes := objects.get ⟨4 * i.val + 3, by omega⟩ }

/-- All sprites of object memory. -/
def all (objects : Memory 160) : List Sprite := (List.finRange 40).map (entry objects)

/-- The most sprites that one line can show. -/
def lineLimit : Nat := 10

/-- The sprites that a line shows, in memory order. -/
def onLine (objects : Memory 160) (tall : Bool) (line : Nat) : List Sprite :=
  ((all objects).filter fun s => decide (s.Covers tall line)).take lineLimit

/-- Does the sprite move ahead of `p`, which would be drawn just before it? -/
def passes (p : Sprite) : Bool := p.x < s.x && s.x.toNat ≤ p.x.toNat + 8

theorem passes_iff {s p : Sprite} :
    s.passes p = true ↔ p.x < s.x ∧ s.x.toNat ≤ p.x.toNat + 8 := by
  rw [passes, Bool.and_eq_true, decide_eq_true_iff, decide_eq_true_iff]

/-- Add a sprite to a drawing order given last to first: it takes the last place and passes what it
can. -/
def place : List Sprite → List Sprite
  | [] => [s]
  | p :: rest => if s.passes p then p :: place rest else s :: p :: rest

/-- The order in which the selected sprites are drawn. -/
def drawOrder (selected : List Sprite) : List Sprite := (selected.foldr place []).reverse

end Sprite

end DotMatrix
