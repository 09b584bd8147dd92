import DotMatrix.Proofs.Checked.Sprites

/-!
# Drawing a line, checked

Drawing computes addresses in video RAM, places on the screen and numbers of places to shift by.
The rows of sprites come from a subtraction that is only right if the sprite covers the line.

* `Video.colourAt?_eq`: the background needs no condition;
* `Video.paintSprite?_eq`: a sprite needs to cover the line under the height of the last scan;
* `Video.drawLine?_eq`: the whole line.
-/

namespace DotMatrix

/-- The shade that a palette register gives to a colour number. -/
def shadeIn? (palette : UInt8) (c : Colour) : Option Shade := do
  let places ← Checked.shift 8 (← Checked.mul 8 c.val 2)
  some (.ofIndex (palette.toNat >>> places))

theorem shadeIn?_eq (palette : UInt8) (c : Colour) : shadeIn? palette c = some (shadeIn palette c) := by
  have hc := c.isLt
  unfold shadeIn? shadeIn
  rw [Checked.mul_eq (by omega)]
  simp only [Option.bind_eq_bind, Option.bind_some]
  rw [Checked.shift_eq (by omega), Nat.mul_comm]
  rfl

/-- The colour number in bit `n` of two pattern bytes. -/
def Colour.ofPattern? (pattern : UInt8 × UInt8) (n : Nat) : Option Colour := do
  let n ← Checked.shift 8 n
  some (.ofBits (Byte.bit pattern.2 n) (Byte.bit pattern.1 n))

theorem Colour.ofPattern?_eq (pattern : UInt8 × UInt8) {n : Nat} (h : n < 8) :
    ofPattern? pattern n = some (.ofBits (Byte.bit pattern.2 n) (Byte.bit pattern.1 n)) := by
  rw [ofPattern?, Checked.shift_eq h]
  rfl

namespace Video

variable (v : Video)

/-- The number of a pixel of the screen. -/
def pixel? (line column : Nat) : Option Nat := do
  let i ← Checked.add 64 (← Checked.mul 64 line 160) column
  Checked.require (i < 144 * 160)
  some i

theorem pixel?_eq {line column : Nat} (hl : line < 144) (hc : column < 160) :
    pixel? line column = some (line * 160 + column) := by
  unfold pixel?
  rw [Checked.mul_eq (by omega)]
  simp only [Option.bind_eq_bind, Option.bind_some]
  rw [Checked.add_eq (by omega), Option.bind_some, Checked.require_eq (by omega)]
  rfl

/-- The two pattern bytes at an address of video RAM. -/
def patternAt? (address : Nat) : Option (UInt8 × UInt8) := do
  let lower ← v.ram.get? address
  let upper ← v.ram.get? (← Checked.add 64 address 1)
  some (lower, upper)

theorem patternAt?_eq {address : Nat} (h : address + 1 < 0x2000) :
    v.patternAt? address =
      some (v.ram.get ⟨address, Nat.lt_of_succ_lt h⟩, v.ram.get ⟨address + 1, h⟩) := by
  unfold patternAt?
  rw [Memory.get?_eq _ (by omega), Checked.add_eq (by omega)]
  simp only [Option.bind_eq_bind, Option.bind_some]
  rw [Memory.get?_eq _ h]
  rfl

/-! ### The background -/

/-- A byte read as a number from -128 to 127. -/
def signedByte (b : UInt8) : Int := if b.toNat < 128 then b.toNat else b.toNat - 256

/-- Where the pattern of a background tile begins. -/
def tileBase? (tile : UInt8) : Option Nat :=
  if v.tilesFromStart then Checked.mul 64 tile.toNat 16
  else do
    let number ← Checked.index (← Checked.signed (signedByte tile + 128))
    Checked.add 64 0x800 (← Checked.mul 64 number 16)

theorem toNat_signedByte (b : UInt8) : (signedByte b + 128).toNat = (b + 0x80).toNat := by
  have hb := b.toNat_lt
  unfold signedByte
  rw [UInt8.toNat_add]
  show _ = (b.toNat + 128) % 256
  split <;> omega

theorem tileBase?_eq (tile : UInt8) : v.tileBase? tile = some (v.tileBase tile) := by
  have ht := tile.toNat_lt
  have hs : 0 ≤ signedByte tile + 128 ∧ signedByte tile + 128 < 256 := by
    unfold signedByte
    split <;> omega
  unfold tileBase? tileBase
  split
  · rw [Checked.mul_eq (by omega), Nat.mul_comm]
  · rw [Checked.signed_eq (by omega) (by omega)]
    simp only [Option.bind_eq_bind, Option.bind_some]
    rw [Checked.index_eq hs.1, Option.bind_some, Checked.mul_eq (by omega), Option.bind_some,
      Checked.add_eq (by omega), toNat_signedByte, Nat.mul_comm]

/-- The tile at a pixel of a plane. -/
def tileAt? (high : Bool) (x y : UInt8) : Option UInt8 := do
  let row ← Checked.add 64 (mapBase high) (← Checked.mul 64 (y.toNat / 8) 32)
  v.ram.get? (← Checked.add 64 row (x.toNat / 8))

theorem tileAt?_eq (high : Bool) (x y : UInt8) : v.tileAt? high x y = some (v.tileAt high x y) := by
  have hx := x.toNat_lt
  have hy := y.toNat_lt
  have hm : mapBase high ≤ 0x1C00 := by
    cases high <;> decide
  unfold tileAt?
  rw [Checked.mul_eq (by omega)]
  simp only [Option.bind_eq_bind, Option.bind_some]
  rw [Checked.add_eq (by omega), Option.bind_some, Checked.add_eq (by omega), Option.bind_some,
    Memory.get?_eq _ (by omega)]
  rfl

/-- The colour of a pixel of a plane. -/
def planeColour? (high : Bool) (x y : UInt8) : Option Colour := do
  let base ← v.tileBase? (← v.tileAt? high x y)
  let pattern ← v.patternAt? (← Checked.add 64 base (← Checked.mul 64 (y.toNat % 8) 2))
  Colour.ofPattern? pattern (← Checked.sub 7 (x.toNat % 8))

theorem planeColour?_eq (high : Bool) (x y : UInt8) :
    v.planeColour? high x y = some (v.planeColour high x y) := by
  have hb := v.tileBase_lt (v.tileAt high x y)
  unfold planeColour?
  simp only [tileAt?_eq, tileBase?_eq, Option.bind_eq_bind, Option.bind_some]
  rw [Checked.mul_eq (by omega), Option.bind_some, Checked.add_eq (by omega), Option.bind_some,
    patternAt?_eq _ (by omega), Option.bind_some, Checked.sub_eq (by omega), Option.bind_some,
    Colour.ofPattern?_eq _ (by omega)]
  simp only [planeColour, Nat.mul_comm]

/-- The colour of a column of the line under the sprites, which has a place on the screen. -/
def colourAt? (x : Fin 160) : Option Colour := do
  let _ ← pixel? v.line x.val
  let column := UInt8.ofNat x.val
  if v.backgroundOn then
    if v.showsWindow x then v.planeColour? v.windowMapHigh (column - v.windowStart) v.windowLine
    else
      v.planeColour? v.backgroundMapHigh (column + v.scrollX) (UInt8.ofNat v.line + v.scrollY)
  else some .clear

theorem colourAt?_eq (hl : v.line < 144) (x : Fin 160) : v.colourAt? x = some (v.colourAt x) := by
  unfold colourAt? colourAt
  rw [pixel?_eq hl x.isLt]
  simp only [planeColour?_eq, Option.bind_eq_bind, Option.bind_some]
  split
  · split <;> rfl
  · rfl

/-! ### Sprites -/

variable {v}

/-- The row of the sprite's pattern that the line shows. The row is taken from the position of the
sprite and has to be one that the sprite has. -/
def patternRow? (s : Sprite) (tall : Bool) (line : Nat) : Option Nat := do
  let row ← Checked.signed ((line : Int) - (← Checked.signed ((s.y.toNat : Int) - 16)))
  Checked.require (0 ≤ row ∧ row < Sprite.height tall)
  if s.flippedY then
    Checked.index (← Checked.signed ((← Checked.signed ((Sprite.height tall : Int) - 1)) - row))
  else Checked.index row

theorem patternRow?_eq {s : Sprite} {tall : Bool} {line : Nat} (h : s.Covers tall line) :
    patternRow? s tall line = some (s.patternRow tall line h).val := by
  have hy := s.y.toNat_lt
  have hh := Sprite.height_le tall
  have hrow := h.lt_height
  have hle : s.y.toNat ≤ line + 16 := h.1
  unfold patternRow?
  -- That the sprite covers the line is what makes the difference a row of the sprite.
  rw [Checked.signed_eq (i := (s.y.toNat : Int) - 16) (by omega) (by omega)]
  simp only [Option.bind_eq_bind, Option.bind_some]
  rw [Checked.signed_eq (by omega) (by omega), Option.bind_some,
    Checked.require_eq ⟨by omega, by omega⟩, Option.bind_some]
  unfold Sprite.patternRow
  dsimp only
  split
  · rw [Checked.signed_eq (by omega) (by omega), Option.bind_some,
      Checked.signed_eq (by omega) (by omega), Option.bind_some, Checked.index_eq (by omega)]
    refine congrArg some ?_
    show Int.toNat _ = Sprite.height tall - 1 - (line + 16 - s.y.toNat)
    omega
  · rw [Checked.index_eq (by omega)]
    refine congrArg some ?_
    show Int.toNat _ = line + 16 - s.y.toNat
    omega

/-- A sprite that the line has passed has no row to show. -/
example : patternRow? ⟨8, 16, 0, 0⟩ false 8 = none := by decide

/-- The two pattern bytes of a sprite's row. -/
def spritePattern? (v : Video) (tile : UInt8) (row : Nat) : Option (UInt8 × UInt8) := do
  let base ← Checked.mul 64 tile.toNat 16
  v.patternAt? (← Checked.add 64 base (← Checked.mul 64 row 2))

theorem spritePattern?_eq (tile : UInt8) (row : Fin 16) :
    v.spritePattern? tile row.val = some (v.spritePattern tile row) := by
  have ht := tile.toNat_lt
  have hr := row.isLt
  unfold spritePattern?
  rw [Checked.mul_eq (by omega)]
  simp only [Option.bind_eq_bind, Option.bind_some]
  rw [Checked.mul_eq (by omega), Option.bind_some, Checked.add_eq (by omega), Option.bind_some,
    patternAt?_eq _ (by omega)]
  simp only [spritePattern, Nat.mul_comm]

/-- The colour of a sprite's column, counted from its left edge. -/
def spriteColour? (s : Sprite) (pattern : UInt8 × UInt8) (column : Fin 8) : Option Colour := do
  let bit ← if s.flippedX then some column.val else Checked.sub 7 column.val
  Colour.ofPattern? pattern bit

theorem spriteColour?_eq (s : Sprite) (pattern : UInt8 × UInt8) (column : Fin 8) :
    spriteColour? s pattern column = some (spriteColour s pattern column) := by
  have hc := column.isLt
  unfold spriteColour? spriteColour
  split
  · exact Colour.ofPattern?_eq pattern hc
  · rw [Checked.sub_eq (by omega)]
    exact Colour.ofPattern?_eq pattern (by omega)

/-- Does the background hide a sprite in this column? -/
def hidden? (under : Vector Colour 160) (s : Sprite) (x : Nat) : Option Bool :=
  if s.behind then under[x]?.map fun c => decide (c ≠ .clear) else some false

theorem hidden?_eq (under : Vector Colour 160) (s : Sprite) {x : Nat} (hx : x < 160) :
    hidden? under s x = some (decide (s.behind ∧ under[x] ≠ .clear)) := by
  unfold hidden?
  split
  · rename_i hb
    rw [Vector.getElem?_eq_getElem hx]
    simp [hb]
  · rename_i hb
    simp [hb]

/-- Put a shade into a column of a row, which has a place on the screen. -/
def setColumn? (v : Video) (row : Row) (x : Nat) (shade : Shade) : Option Row := do
  let _ ← pixel? v.line x
  if h : x < 160 then some (row.set x shade h) else none

theorem setColumn?_eq (hl : v.line < 144) (row : Row) (x : Fin 160) (shade : Shade) :
    v.setColumn? row x.val shade = some (row.set x shade) := by
  unfold setColumn?
  rw [pixel?_eq hl x.isLt]
  exact dif_pos x.isLt

/-- Paint one column of a sprite. -/
def paintColumn? (v : Video) (under : Vector Colour 160) (s : Sprite) (pattern : UInt8 × UInt8)
    (row : Row) (column : Fin 8) : Option Row := do
  let colour ← spriteColour? s pattern column
  if colour = .clear then some row
  else
    let x ← Checked.signed ((← Checked.signed ((s.x.toNat : Int) - 8)) + column.val)
    if 0 ≤ x ∧ x < 160 then
      let x ← Checked.index x
      if ← hidden? under s x then some row
      else
        let palette := if s.secondPalette then v.objectPalette1 else v.objectPalette0
        v.setColumn? row x (← shadeIn? palette colour)
    else some row

theorem paintColumn?_eq (hl : v.line < 144) (under : Vector Colour 160) (s : Sprite)
    (pattern : UInt8 × UInt8) (row : Row) (column : Fin 8) :
    v.paintColumn? under s pattern row column = some (v.paintColumn under s pattern row column) := by
  have hx := s.x.toNat_lt
  have hc := column.isLt
  unfold paintColumn? paintColumn
  rw [spriteColour?_eq, Checked.signed_eq (i := (s.x.toNat : Int) - 8) (by omega) (by omega)]
  simp only [Option.bind_eq_bind, Option.bind_some]
  rw [Checked.signed_eq (by omega) (by omega), Option.bind_some]
  by_cases hclear : spriteColour s pattern column = .clear
  · rw [if_pos hclear]
    split
    · rfl
    · rw [if_pos (.inl hclear)]
  rw [if_neg hclear]
  by_cases hon : 8 ≤ s.x.toNat + column.val ∧ s.x.toNat + column.val < 168
  · let x : Fin 160 := ⟨s.x.toNat + column.val - 8, by omega⟩
    have hcol : screenColumn? s column = some x := dif_pos hon
    have hval : ((s.x.toNat : Int) - 8 + column.val).toNat = x.val := by
      show _ = s.x.toNat + column.val - 8
      omega
    rw [if_pos ⟨by omega, by omega⟩, Checked.index_eq (by omega), Option.bind_some, hval, hcol,
      hidden?_eq under s x.isLt, Option.bind_some, shadeIn?_eq, Option.bind_some, setColumn?_eq hl]
    simp only [hclear, false_or, decide_eq_true_eq, Fin.getElem_fin]
    split <;> rfl
  · have hcol : screenColumn? s column = none := dif_neg hon
    rw [if_neg fun h => hon ⟨by omega, by omega⟩, hcol]

/-- Paint a sprite's row on the line. -/
def paintSprite? (v : Video) (under : Vector Colour 160) (row : Row) (s : Sprite) : Option Row := do
  let patternRow ← patternRow? s v.tallSprites v.line
  let pattern ← v.spritePattern? (s.firstTile v.tallSprites) patternRow
  (List.finRange 8).foldlM (v.paintColumn? under s pattern) row

theorem paintSprite?_eq (hl : v.line < 144) (under : Vector Colour 160) (row : Row) {s : Sprite}
    (h : s.Covers v.tallSprites v.line) :
    v.paintSprite? under row s = some (v.paintSprite under row s) := by
  unfold paintSprite? paintSprite
  rw [patternRow?_eq h, dif_pos h]
  simp only [Option.bind_eq_bind, Option.bind_some]
  rw [spritePattern?_eq, Option.bind_some]
  exact Checked.foldlM_eq row fun row column _ => paintColumn?_eq hl under s _ row column

/-! ### The line -/

/-- The shades of the line. -/
def lineRow? (v : Video) : Option Row := do
  let under ← Vector.ofFnM v.colourAt?
  let row ← under.mapM (shadeIn? v.backgroundPalette)
  if v.spritesOn then
    Checked.require (v.sprites.length ≤ Sprite.lineLimit)
    v.sprites.foldlM (v.paintSprite? under) row
  else some row

theorem lineRow?_eq (hl : v.line < 144) (hlen : v.sprites.length ≤ Sprite.lineLimit)
    (hs : ∀ s ∈ v.sprites, s.Covers v.tallSprites v.line) : v.lineRow? = some v.lineRow := by
  have hunder : Vector.ofFnM v.colourAt? = some v.lineColours := by
    rw [funext (v.colourAt?_eq hl)]
    exact Vector.ofFnM_pure
  have hrow : v.lineColours.mapM (shadeIn? v.backgroundPalette) =
      some (v.lineColours.map (shadeIn v.backgroundPalette)) := by
    rw [funext (shadeIn?_eq v.backgroundPalette)]
    exact Vector.mapM_pure _
  unfold lineRow? lineRow
  rw [hunder]
  simp only [Option.bind_eq_bind, Option.bind_some]
  rw [hrow, Option.bind_some]
  split
  · rw [Checked.require_eq hlen, Option.bind_some]
    exact Checked.foldlM_eq _ fun row s hmem => paintSprite?_eq hl _ row (hs s hmem)
  · rfl

/-- Draw the current line into the picture, if the screen has it. -/
def drawLine? (v : Video) : Option Video :=
  if h : v.line < 144 then do
    let first ← Checked.mul 64 v.line 160
    Checked.require ((← Checked.add 64 first 160) ≤ 144 * 160)
    let row ← v.lineRow?
    some
      { v with
        picture := v.picture.set v.line row
        windowLine := if v.drawsWindow then v.windowLine + 1 else v.windowLine }
  else some v

theorem drawLine?_eq (hlen : v.sprites.length ≤ Sprite.lineLimit)
    (hs : ∀ s ∈ v.sprites, s.Covers v.tallSprites v.line) : v.drawLine? = some v.drawLine := by
  unfold drawLine? drawLine
  split
  · rename_i hl
    rw [Checked.mul_eq (by omega)]
    simp only [Option.bind_eq_bind, Option.bind_some]
    rw [Checked.add_eq (by omega), Option.bind_some, Checked.require_eq (by omega),
      Option.bind_some, lineRow?_eq hl hlen hs]
    rfl
  · rfl

end Video

end DotMatrix
