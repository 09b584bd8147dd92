import DotMatrix.Proofs.Video.Compositing

/-!
# The planes of background and window

Background and window are cut out of planes of 256 by 256 pixels. A plane is a map of 32 by 32 tiles
of eight by eight pixels, so everything about a pixel can be said with two coordinates: they name the
tile, and the pixel in it. The unit finds the same pixel by bytes that wrap round and by addresses.

* `mapEntry`, `patternAddress`, `tilePoint`: which tile a map has in a place, where the pattern of a
  tile lies, and the colours in it;
* `planePoint`: the colour of a point of a plane;
* `planeColour_ofNat`: it is the one that the unit finds;
* `background_scrolls`: a line without window and sprites is the background plane, scrolled.
-/

namespace DotMatrix.Video

section Planes

variable (v : Video)

/-- The tile in a column and a row of a map. The maps lie one after the other, row by row. -/
def mapEntry (high : Bool) (column row : Fin 32) : UInt8 :=
  v.ram.get ⟨(if high then 0x1C00 else 0x1800) + 32 * row.val + column.val, by split <;> omega⟩

/-- Where the pattern of a tile lies. Tiles are numbered from the beginning of tile memory, or by
signed bytes from its middle. -/
def patternAddress (tile : UInt8) : Int :=
  if v.tilesFromStart then 16 * (tile.toNat : Int) else 0x1000 + 16 * tile.toInt8.toInt

theorem toInt_toInt8 (n : UInt8) :
    n.toInt8.toInt = if n.toNat < 128 then (n.toNat : Int) else n.toNat - 256 := by
  have h := n.toNat_lt
  rw [← Int8.toInt_toBitVec, BitVec.toInt_eq_toNat_cond]
  simp only [UInt8.toBitVec_toInt8, UInt8.toNat_toBitVec, Nat.reducePow]
  split <;> split <;> omega

/-- Both ways of numbering lead to the byte at which the unit looks. -/
theorem tileBase_eq (tile : UInt8) : (v.tileBase tile : Int) = v.patternAddress tile := by
  have hlt := tile.toNat_lt
  have hmiddle : (tile + 0x80).toNat = (tile.toNat + 128) % 256 := UInt8.toNat_add tile 0x80
  unfold tileBase patternAddress
  rw [toInt_toInt8]
  cases v.tilesFromStart with
  | true => simp
  | false =>
    simp only [Bool.false_eq_true, if_false, hmiddle]
    split <;> omega

theorem patternAddress_bounds (tile : UInt8) :
    0 ≤ v.patternAddress tile ∧ v.patternAddress tile + 16 ≤ 0x1800 := by
  have h := v.tileBase_lt tile
  rw [← tileBase_eq]
  omega

/-- The colour of a pixel of a tile. A row is two bytes, one for each bit of a colour, and the
leftmost pixel is in the highest bits. -/
def tilePoint (tile : UInt8) (column row : Fin 8) : Colour :=
  have h := v.patternAddress_bounds tile
  let lower := v.ram.get ⟨(v.patternAddress tile).toNat + 2 * row.val, by omega⟩
  let upper := v.ram.get ⟨(v.patternAddress tile).toNat + 2 * row.val + 1, by omega⟩
  .ofBits (Byte.bit upper (7 - column.val)) (Byte.bit lower (7 - column.val))

/-- A coordinate, round the edges of a plane. -/
def coordinate (n : Nat) : Fin 256 := ⟨n % 256, Nat.mod_lt n (by decide)⟩

/-- The colour of a point of a plane. -/
def planePoint (high : Bool) (x y : Fin 256) : Colour :=
  v.tilePoint (v.mapEntry high ⟨x.val / 8, by omega⟩ ⟨y.val / 8, by omega⟩)
    ⟨x.val % 8, by omega⟩ ⟨y.val % 8, by omega⟩

/-- **The unit finds the point of the plane.** -/
theorem planeColour_ofNat (high : Bool) (x y : Nat) :
    v.planeColour high (UInt8.ofNat x) (UInt8.ofNat y) =
      v.planePoint high (coordinate x) (coordinate y) := by
  have hx : (UInt8.ofNat x).toNat = (coordinate x).val := UInt8.toNat_ofNat'
  have hy : (UInt8.ofNat y).toNat = (coordinate y).val := UInt8.toNat_ofNat'
  have htile : v.tileAt high (UInt8.ofNat x) (UInt8.ofNat y) =
      v.mapEntry high ⟨(coordinate x).val / 8, by omega⟩ ⟨(coordinate y).val / 8, by omega⟩ := by
    simp only [tileAt, mapEntry, mapBase, hx, hy, Nat.mul_comm 32]
  have hbase (tile : UInt8) : v.tileBase tile = (v.patternAddress tile).toNat := by
    rw [← tileBase_eq, Int.toNat_natCast]
  simp only [planeColour, planePoint, tilePoint, htile, hbase, hx, hy]

/-- The point of the background's plane that the scroll registers bring to a column of the line. -/
def backgroundPoint (x : Fin 160) : Colour :=
  v.planePoint v.backgroundMapHigh (coordinate (x.val + v.scrollX.toNat))
    (coordinate (v.line + v.scrollY.toNat))

end Planes

variable {v : Video} {x : Fin 160}

/-- The colour of a column that does not show the window. -/
theorem colourAt_of_background (hon : v.backgroundOn = true) (hw : v.showsWindow x = false) :
    v.colourAt x = v.backgroundPoint x := by
  have hcolumn : UInt8.ofNat x.val + v.scrollX = UInt8.ofNat (x.val + v.scrollX.toNat) := by
    rw [UInt8.ofNat_add, UInt8.ofNat_toNat]
  have hrow : UInt8.ofNat v.line + v.scrollY = UInt8.ofNat (v.line + v.scrollY.toNat) := by
    rw [UInt8.ofNat_add, UInt8.ofNat_toNat]
  unfold colourAt
  simp only [hon, hw, if_true, Bool.false_eq_true, if_false, hcolumn, hrow]
  exact v.planeColour_ofNat _ _ _

/-- Without sprites a drawn line has the shades of what lies under them. -/
theorem drawLine_get (hl : v.line < 144) (hs : v.spritesOn = false) (x : Fin 160) :
    v.drawLine.picture[v.line].get x = shadeIn v.backgroundPalette (v.colourAt x) := by
  have hoff : ¬v.spritesOn = true := by simp [hs]
  have hrow : v.drawLine.picture[v.line] = v.lineColours.map (shadeIn v.backgroundPalette) := by
    simp only [drawLine_picture hl, Vector.getElem_set_self, lineRow]
    exact if_neg hoff
  rw [hrow]
  exact (Vector.getElem_map _ x.isLt).trans (congrArg _ (Vector.getElem_ofFn x.isLt))

theorem drawLine_windowLine_eq (hl : v.line < 144) :
    v.drawLine.windowLine = if v.drawsWindow then v.windowLine + 1 else v.windowLine := by
  rw [drawLine, dif_pos hl]

/-- **The background scrolls round its plane.** Let a line of the screen be drawn with the background
on, without sprites and without a window: it is switched off, or it begins further down. Whatever
video RAM and registers hold, every column of the line gets the shade, in the background's palette,
of the point of the chosen plane that lies as far to the right and down as the scroll registers say,
round the edges of the plane. The row counter of the window and the other rows of the picture
stay. -/
theorem background_scrolls (v : Video) (hl : v.line < 144) (hon : v.backgroundOn = true)
    (hs : v.spritesOn = false) (hw : v.windowOn = false ∨ v.line < v.windowY.toNat) :
    (∀ x : Fin 160, v.drawLine.picture[v.line].get x =
      shadeIn v.backgroundPalette (v.planePoint v.backgroundMapHigh
        (coordinate (x.val + v.scrollX.toNat)) (coordinate (v.line + v.scrollY.toNat)))) ∧
    v.drawLine.windowLine = v.windowLine ∧
    ∀ (y : Nat) (hy : y < 144), y ≠ v.line → v.drawLine.picture[y] = v.picture[y] := by
  have hreach : v.windowReached = false := by
    rcases hw with hoff | hbelow
    · simp [windowReached, hoff]
    · simp [windowReached, hbelow]
  refine ⟨fun x => ?_, ?_, fun y hy hne => ?_⟩
  · have hshow : v.showsWindow x = false := by simp [showsWindow, hreach]
    rw [drawLine_get hl hs, colourAt_of_background hon hshow]
    rfl
  · have hnone : v.drawsWindow = false := by simp [drawsWindow, hreach]
    rw [drawLine_windowLine_eq hl, hnone]
    rfl
  · simp only [drawLine_picture hl]
    exact Vector.getElem_set_ne hl hy hne.symm

/-- Line 100 of a background that is scrolled over both edges of its plane: its second map has tile
-112 at the left of its sixth row, with one pixel in the fifth row of the tile. -/
def scrolledOver : Video :=
  { powerOn with
    ram := .ofCells [(0x1CA0, 0x90), (0x908, 0x08)]
    control := 0x89, scrollX := 250, scrollY := 200, backgroundPalette := 0xE4
    line := 100 }

/-- The pixel is in column 10 of the screen. -/
theorem background_scrolls_over :
    scrolledOver.drawLine.picture[100].get 10 = .lightGray ∧
      scrolledOver.drawLine.picture[100].get 11 = .white := by
  have hpixel := (background_scrolls scrolledOver (by decide) rfl rfl (.inl rfl)).1
  exact ⟨(hpixel 10).trans (by decide +kernel), (hpixel 11).trans (by decide +kernel)⟩

end DotMatrix.Video
