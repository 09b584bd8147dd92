import DotMatrix.Proofs.Video.History

/-!
# The pixels of a line with sprites

Sprites are painted one after the other, column by column, over the background. What is left at the
end can be said of each pixel by itself: it belongs to the last sprite in drawing order that shows
there, and to the background if none does.

* `Sprite.rowOn`, `Sprite.tileOfRow`, `Sprite.columnAt`: where in its tiles a sprite's pixel lies;
* `Video.spritePixel`, `Video.Shows`: the colour of a sprite's pixel, and whether it is seen;
* `paintSprite_get`: what painting one sprite does to a pixel;
* `foldl_paintSprite_get`: what painting all of them does;
* `pixel_of_last_shown`: every pixel of the line.
-/

namespace DotMatrix

/-- Memory with the given bytes in some of its cells, and zeros in the others. -/
def Memory.ofCells {n : Nat} (cells : List (Nat × UInt8)) : Memory n :=
  cells.foldl (fun m c => if h : c.1 < n then m.set ⟨c.1, h⟩ c.2 else m) (.filled n 0)

namespace Sprite

variable (s : Sprite)

/-- The line of the sprite's first row, which may lie above the screen. -/
def top : Int := (s.y.toNat : Int) - 16

/-- The column of the sprite's left edge, which may lie left of the screen. -/
def left : Int := (s.x.toNat : Int) - 8

/-- Does the sprite have a column there? -/
def Spans (x : Fin 160) : Prop := s.left ≤ x.val ∧ (x.val : Int) < s.left + 8

instance (x : Fin 160) : Decidable (s.Spans x) := inferInstanceAs (Decidable (_ ∧ _))

/-- The row of the sprite that the line shows, counted from the bottom if it is upside down. -/
def rowOn (tall : Bool) (line : Nat) : Nat :=
  let row := ((line : Int) - s.top).toNat
  if s.flippedY then height tall - 1 - row else row

/-- The tile that a row lies in. The upper half of a tall sprite is the even tile of a pair, the
lower half the odd one. -/
def tileOfRow (tall : Bool) (row : Nat) : UInt8 :=
  if tall then if row < 8 then Byte.clearBit s.tile 0 else Byte.setBit s.tile 0 else s.tile

/-- The column of its tile that the sprite shows there, counted from the right if it is turned. -/
def columnAt (x : Fin 160) : Nat :=
  let column := ((x.val : Int) - s.left).toNat
  if s.flippedX then 7 - column else column

end Sprite

/-! ### Two tiles in a row -/

theorem Byte.toNat_clearBit_zero (b : UInt8) : (clearBit b 0).toNat = b.toNat / 2 * 2 := by
  have hall : ∀ n : Fin 256, n.val &&& 254 = n.val / 2 * 2 := by decide +kernel
  exact (UInt8.toNat_and b 254).trans (hall ⟨b.toNat, b.toNat_lt⟩)

theorem Byte.toNat_setBit_zero (b : UInt8) : (setBit b 0).toNat = b.toNat / 2 * 2 + 1 := by
  have hall : ∀ n : Fin 256, n.val ||| 1 = n.val / 2 * 2 + 1 := by decide +kernel
  exact (UInt8.toNat_or b 1).trans (hall ⟨b.toNat, b.toNat_lt⟩)

namespace Sprite

variable {s : Sprite}

theorem patternRow_val {tall : Bool} {line : Nat} (h : s.Covers tall line) :
    (s.patternRow tall line h).val = s.rowOn tall line := by
  have hle : s.y.toNat ≤ line + 16 := h.1
  have hrow : ((line : Int) - s.top).toNat = line + 16 - s.y.toNat := by
    unfold top
    omega
  unfold patternRow rowOn
  simp only [hrow]
  split <;> rfl

theorem rowOn_lt {tall : Bool} {line : Nat} (h : s.Covers tall line) :
    s.rowOn tall line < height tall := by
  have hrow := h.lt_height
  rw [← patternRow_val h]
  unfold patternRow
  dsimp only
  split
  · show height tall - 1 - _ < height tall
    omega
  · exact hrow

/-- Row by row the pattern of a sprite goes from its first tile to the next. -/
theorem pattern_address {tall : Bool} {line : Nat} (h : s.Covers tall line) :
    16 * (s.firstTile tall).toNat + 2 * (s.patternRow tall line h).val =
      16 * (s.tileOfRow tall (s.rowOn tall line)).toNat + 2 * (s.rowOn tall line % 8) := by
  have hlt := rowOn_lt h
  rw [patternRow_val h]
  cases tall with
  | false =>
    have h8 : s.rowOn false line < 8 := hlt
    rw [Nat.mod_eq_of_lt h8]
    rfl
  | true =>
    have h16 : s.rowOn true line < 16 := hlt
    have hfirst : (s.firstTile true).toNat = s.tile.toNat / 2 * 2 := Byte.toNat_clearBit_zero s.tile
    rw [hfirst]
    by_cases h8 : s.rowOn true line < 8
    · have htile : s.tileOfRow true (s.rowOn true line) = Byte.clearBit s.tile 0 := if_pos h8
      rw [htile, Byte.toNat_clearBit_zero]
      omega
    · have htile : s.tileOfRow true (s.rowOn true line) = Byte.setBit s.tile 0 := if_neg h8
      rw [htile, Byte.toNat_setBit_zero]
      omega

end Sprite

namespace Video

/-! ### What a sprite shows -/

section Pixels

variable (v : Video)

/-- The colour of a pixel of a tile of sprites. Its row is two bytes, and the leftmost pixel is in
the highest bits. -/
def tilePixel (tile : UInt8) (row : Fin 8) (column : Nat) : Colour :=
  have h := tile.toNat_lt
  let lower := v.ram.get ⟨16 * tile.toNat + 2 * row.val, by omega⟩
  let upper := v.ram.get ⟨16 * tile.toNat + 2 * row.val + 1, by omega⟩
  .ofBits (Byte.bit upper (7 - column)) (Byte.bit lower (7 - column))

/-- The colour that a sprite has in a column of the line. -/
def spritePixel (s : Sprite) (x : Fin 160) : Colour :=
  let row := s.rowOn v.tallSprites v.line
  v.tilePixel (s.tileOfRow v.tallSprites row) ⟨row % 8, Nat.mod_lt _ (by decide)⟩ (s.columnAt x)

/-- The shade of this colour in the sprite's palette. -/
def spriteShade (s : Sprite) (x : Fin 160) : Shade :=
  shadeIn (if s.secondPalette then v.objectPalette1 else v.objectPalette0) (v.spritePixel s x)

/-- Does the sprite have a pixel in the column that is not transparent? -/
def Solid (s : Sprite) (x : Fin 160) : Prop := s.Spans x ∧ v.spritePixel s x ≠ .clear

/-- Is the sprite seen in the column, if no other one is painted over it? -/
def Shows (under : Vector Colour 160) (x : Fin 160) (s : Sprite) : Prop :=
  v.Solid s x ∧ ¬(s.behind ∧ under.get x ≠ .clear)

instance (s : Sprite) (x : Fin 160) : Decidable (v.Solid s x) :=
  inferInstanceAs (Decidable (_ ∧ _))

instance (under : Vector Colour 160) (x : Fin 160) (s : Sprite) : Decidable (v.Shows under x s) :=
  inferInstanceAs (Decidable (_ ∧ _))

end Pixels

variable {v : Video} {s : Sprite} {under : Vector Colour 160} {row : Row} {x : Fin 160}

/-- The screen's column of a sprite's column. -/
theorem screenColumn?_eq_some {c : Fin 8} :
    screenColumn? s c = some x ↔ (x.val : Int) = s.left + c.val := by
  have hx := x.isLt
  unfold screenColumn? Sprite.left
  dsimp only
  split
  · rw [Option.some.injEq, Fin.ext_iff]
    show s.x.toNat + c.val - 8 = x.val ↔ _
    omega
  · rename_i hoff
    exact iff_of_false nofun fun h => hoff (by omega)

theorem spriteColour_eq {c : Fin 8} (h : s.Covers v.tallSprites v.line)
    (hc : screenColumn? s c = some x) :
    spriteColour s (v.spritePattern (s.firstTile v.tallSprites)
      (s.patternRow v.tallSprites v.line h)) c = v.spritePixel s x := by
  have hlt := c.isLt
  have haddress := Sprite.pattern_address h
  have hcolumn : ((x.val : Int) - s.left).toNat = c.val := by
    rw [screenColumn?_eq_some.1 hc]
    omega
  have hbit : (if s.flippedX then c.val else 7 - c.val) = 7 - s.columnAt x := by
    unfold Sprite.columnAt
    simp only [hcolumn]
    split <;> omega
  simp only [spriteColour, spritePattern, spritePixel, tilePixel, haddress, hbit]

/-! ### Painting one sprite -/

/-- One column of a sprite changes one pixel at most. -/
theorem paintColumn_get (pattern : UInt8 × UInt8) (row : Row) (c : Fin 8) :
    (v.paintColumn under s pattern row c).get x =
      if screenColumn? s c = some x ∧ spriteColour s pattern c ≠ .clear ∧
          ¬(s.behind ∧ under.get x ≠ .clear) then
        shadeIn (if s.secondPalette then v.objectPalette1 else v.objectPalette0)
          (spriteColour s pattern c)
      else row.get x := by
  unfold paintColumn
  dsimp only
  cases screenColumn? s c with
  | none =>
    have hnot : ¬((none : Option (Fin 160)) = some x ∧ spriteColour s pattern c ≠ .clear ∧
        ¬(s.behind ∧ under.get x ≠ .clear)) := fun h => nomatch h.1
    exact (if_neg hnot).symm
  | some z =>
    have hunder : under[z] = under.get z := rfl
    simp only [hunder, Option.some.injEq]
    by_cases hz : z = x
    · subst hz
      simp only [true_and]
      by_cases hpaint : spriteColour s pattern c = .clear ∨ (s.behind ∧ under.get z ≠ .clear)
      · have hnot : ¬(spriteColour s pattern c ≠ .clear ∧ ¬(s.behind ∧ under.get z ≠ .clear)) :=
          fun h => hpaint.elim h.1 h.2
        rw [if_pos hpaint, if_neg hnot]
      · rw [if_neg hpaint, if_pos (not_or.1 hpaint)]
        exact Vector.getElem_set_self z.isLt
    · simp only [hz, false_and, if_false]
      by_cases hpaint : spriteColour s pattern c = .clear ∨ (s.behind ∧ under.get z ≠ .clear)
      · rw [if_pos hpaint]
      · rw [if_neg hpaint]
        exact Vector.getElem_set_ne z.isLt x.isLt fun hv => hz (Fin.ext hv)

/-- Columns that do not fall on the pixel leave it. -/
theorem foldl_paintColumn_get_of_ne (pattern : UInt8 × UInt8) {l : List (Fin 8)}
    (h : ∀ d ∈ l, screenColumn? s d ≠ some x) (row : Row) :
    (l.foldl (v.paintColumn under s pattern) row).get x = row.get x := by
  induction l generalizing row with
  | nil => rfl
  | cons d l ih =>
    obtain ⟨hd, hrest⟩ := List.forall_mem_cons.1 h
    rw [List.foldl_cons, ih hrest, paintColumn_get, if_neg fun hp => hd hp.1]

/-- The eight columns change the pixel as the one does that falls on it. -/
theorem foldl_paintColumn_get (pattern : UInt8 × UInt8) {c : Fin 8}
    (hc : screenColumn? s c = some x) (row : Row) :
    ((List.finRange 8).foldl (v.paintColumn under s pattern) row).get x =
      (v.paintColumn under s pattern row c).get x := by
  obtain ⟨before, after, hl⟩ := List.append_of_mem (List.mem_finRange c)
  have hnodup := List.nodup_finRange 8
  rw [hl, List.nodup_append, List.nodup_cons] at hnodup
  obtain ⟨-, ⟨hafter, -⟩, hapart⟩ := hnodup
  have hbefore : c ∉ before := fun h => hapart c h c List.mem_cons_self rfl
  have hother {l : List (Fin 8)} (hmem : c ∉ l) : ∀ d ∈ l, screenColumn? s d ≠ some x := by
    intro d hd hx
    rw [screenColumn?_eq_some] at hx hc
    have hdc : d = c := Fin.ext (by omega)
    exact hmem (hdc ▸ hd)
  rw [hl, List.foldl_append, List.foldl_cons, foldl_paintColumn_get_of_ne _ (hother hafter),
    paintColumn_get, paintColumn_get, foldl_paintColumn_get_of_ne _ (hother hbefore)]

/-- **One sprite** that covers the line is painted on the pixels where it shows. -/
theorem paintSprite_get (h : s.Covers v.tallSprites v.line) (row : Row) :
    (v.paintSprite under row s).get x =
      if v.Shows under x s then v.spriteShade s x else row.get x := by
  unfold paintSprite
  rw [dif_pos h]
  by_cases hx : s.Spans x
  · obtain ⟨hleft, hright⟩ := hx
    let c : Fin 8 := ⟨((x.val : Int) - s.left).toNat, by omega⟩
    have hc : screenColumn? s c = some x := by
      rw [screenColumn?_eq_some]
      show (x.val : Int) = s.left + ((x.val : Int) - s.left).toNat
      omega
    rw [foldl_paintColumn_get _ hc, paintColumn_get, spriteColour_eq h hc]
    refine if_congr ⟨fun hp => ?_, fun hs => ?_⟩ rfl rfl
    · exact ⟨⟨⟨hleft, hright⟩, hp.2.1⟩, hp.2.2⟩
    · exact ⟨hc, hs.1.2, hs.2⟩
  · have hother : ∀ c ∈ List.finRange 8, screenColumn? s c ≠ some x := fun c _ hc => hx <| by
      have hlt := c.isLt
      rw [screenColumn?_eq_some] at hc
      constructor <;> omega
    rw [foldl_paintColumn_get_of_ne _ hother, if_neg fun hs => hx hs.1.1]

/-! ### Painting all of them -/

/-- **Sprites in a row** leave in each pixel the last one that shows there. -/
theorem foldl_paintSprite_get {l : List Sprite} (hl : ∀ s ∈ l, s.Covers v.tallSprites v.line)
    (row : Row) :
    (l.foldl (v.paintSprite under) row).get x =
      ((l.filter (v.Shows under x)).getLast?).elim (row.get x) (v.spriteShade · x) := by
  -- A sprite painted first is seen only where none of those that follow shows.
  induction l generalizing row with
  | nil => rfl
  | cons s l ih =>
    obtain ⟨hs, hrest⟩ := List.forall_mem_cons.1 hl
    rw [List.foldl_cons, ih hrest, paintSprite_get hs]
    by_cases hshows : v.Shows under x s
    · rw [if_pos hshows, List.filter_cons_of_pos (by simpa using hshows), List.getLast?_cons]
      cases (l.filter (v.Shows under x)).getLast? <;> rfl
    · rw [if_neg hshows, List.filter_cons_of_neg (by simpa using hshows)]

/-- The line as a program sees it: its sprites painted over the shades of its background. -/
theorem lineRow_get (hon : v.spritesOn = true) (hs : ∀ s ∈ v.sprites, s.Covers v.tallSprites v.line)
    (x : Fin 160) :
    v.lineRow.get x =
      ((v.sprites.filter (v.Shows v.lineColours x)).getLast?).elim
        (shadeIn v.backgroundPalette (v.colourAt x)) (v.spriteShade · x) := by
  have hrow : (v.lineColours.map (shadeIn v.backgroundPalette)).get x =
      shadeIn v.backgroundPalette (v.colourAt x) :=
    (Vector.getElem_map _ x.isLt).trans (congrArg _ (Vector.getElem_ofFn x.isLt))
  rw [lineRow, if_pos hon, foldl_paintSprite_get hs, hrow]

/-! ### The line in time -/

/-- The first dot of a line selects its sprites. -/
theorem tick_of_lineStart (hm : v.mode = .objectScan) (hd : v.dot = 0) (hon : v.displayOn = true) :
    v.tick.1 = { v.scanObjects with dot := 1 } := by
  have hdot : v.nextDot.dot = 1 := congrArg (· + 1) hd
  have hlt : v.nextDot.dot < scanDots := by
    rw [hdot]
    decide
  rw [tick_of_on hon, hm]
  dsimp only
  rw [tickScan_of_lt hlt, if_pos hdot]
  simp only [nextDot, scanObjects, hd]
  rfl

/-- Until the transfer begins nothing more happens. -/
theorem run_scan (hm : v.mode = .objectScan) (hon : v.displayOn = true) (hpos : 0 < v.dot) {n : Nat}
    (hn : v.dot + n < scanDots) :
    run v (List.replicate n .tick) = { v with dot := v.dot + n } := by
  induction n generalizing v with
  | zero => rfl
  | succ n ih =>
    have hlt : v.nextDot.dot < scanDots := by
      show v.dot + 1 < scanDots
      omega
    have hne : v.nextDot.dot ≠ 1 := by
      show v.dot + 1 ≠ 1
      omega
    have hfirst : Event.apply v .tick = v.nextDot := by
      rw [Event.apply, tick_of_on hon, hm]
      dsimp only
      rw [tickScan_of_lt hlt, if_neg hne]
    rw [List.replicate_succ, run_cons, hfirst, ih (v := v.nextDot) hm hon (Nat.succ_pos _)]
    · simp only [nextDot, Nat.add_assoc, Nat.add_comm 1 n]
    · show v.dot + 1 + n < scanDots
      omega

/-- With the last dot of the scan the transfer begins. -/
theorem tick_of_scanEnd (hm : v.mode = .objectScan) (hon : v.displayOn = true)
    (hd : v.dot + 1 = scanDots) : v.tick.1 = { v with mode := .transfer, dot := scanDots } := by
  have hle : scanDots ≤ v.nextDot.dot := Nat.le_of_eq hd.symm
  rw [tick_of_on hon, hm]
  dsimp only
  rw [tickScan_of_le hle]
  simp only [nextDot, hd]

theorem drawLine_picture (hl : v.line < 144) :
    v.drawLine.picture = v.picture.set v.line v.lineRow := by
  rw [drawLine, dif_pos hl]

/-- The first dot of the transfer draws the line. -/
theorem tick_of_transferStart (hm : v.mode = .transfer) (hon : v.displayOn = true)
    (hd : v.dot = scanDots) (hl : v.line < 144) :
    v.tick.1.picture = v.picture.set v.line v.lineRow := by
  have hdot : v.nextDot.dot = scanDots + 1 := congrArg (· + 1) hd
  have hlt : v.nextDot.dot < transferEnd := by
    rw [hdot]
    decide
  rw [tick_of_on hon, hm]
  dsimp only
  rw [tickTransfer_of_lt hlt, if_pos hdot]
  exact drawLine_picture (v := v.nextDot) hl

/-- What is drawn does not depend on when. -/
theorem lineRow_at (v : Video) (mode : Mode) (dot : Nat) :
    lineRow { v with mode, dot } = v.lineRow := rfl

/-- **A line**, if nothing is written meanwhile, is in the picture with the first dot of the
transfer. -/
theorem run_line (hm : v.mode = .objectScan) (hd : v.dot = 0) (hon : v.displayOn = true)
    (hl : v.line < 144) :
    (run v (List.replicate 81 .tick)).picture = v.picture.set v.line v.scanObjects.lineRow := by
  let w (mode : Mode) (dot : Nat) : Video := { v.scanObjects with mode, dot }
  have hticks : List.replicate 81 Event.tick =
      .tick :: (List.replicate 78 .tick ++ [.tick, .tick]) := rfl
  have hfirst : Event.apply v .tick = w .objectScan 1 := (tick_of_lineStart hm hd hon).trans <| by
    simp only [w, scanObjects, hm]
  have hscan : run (w .objectScan 1) (List.replicate 78 .tick) = w .objectScan 79 :=
    run_scan (v := w .objectScan 1) rfl hon Nat.one_pos (Nat.lt_succ_self 79)
  have hlast : Event.apply (w .objectScan 79) .tick = w .transfer scanDots :=
    tick_of_scanEnd (v := w .objectScan 79) rfl hon rfl
  rw [hticks, run_cons, hfirst, run_append, hscan, run_cons, hlast, run_cons]
  have hdrawn := tick_of_transferStart (v := w .transfer scanDots) rfl hon rfl hl
  rw [lineRow_at] at hdrawn
  exact hdrawn

/-- **Every pixel of a line with sprites.** Let the selected sprites be any list, each of which covers
the line with the height that it was selected with, and let the line under them have any colours
`under` and any shades `row`. After all sprites have been painted in their order, the pixel in a
column belongs to the last sprite for which the column is one of its eight, its colour there is not
0, and it does not lie behind a background of another colour than 0: it has the shade of this colour
in the palette that the sprite selects. If there is no such sprite, the pixel is that of `row`. -/
theorem pixel_of_last_shown (v : Video) (under : Vector Colour 160) (row : Row)
    (hs : ∀ s ∈ v.sprites, s.Covers v.tallSprites v.line) (x : Fin 160) :
    let painted := v.sprites.foldl (v.paintSprite under) row
    (∀ before s after, v.sprites = before ++ s :: after → v.Shows under x s →
      (∀ t ∈ after, ¬v.Shows under x t) → painted.get x = v.spriteShade s x) ∧
    ((∀ s ∈ v.sprites, ¬v.Shows under x s) → painted.get x = row.get x) := by
  have hnone : ∀ l : List Sprite, (∀ t ∈ l, ¬v.Shows under x t) →
      l.filter (v.Shows under x) = [] := fun l h =>
    List.filter_eq_nil_iff.2 fun t ht => by simpa using h t ht
  intro painted
  refine ⟨fun before s after hl hshown hafter => ?_, fun h => ?_⟩
  · have hlast : (v.sprites.filter (v.Shows under x)).getLast? = some s := by
      rw [hl, List.filter_append, List.filter_cons_of_pos (by simpa using hshown), hnone after hafter]
      exact List.getLast?_concat
    exact (foldl_paintSprite_get hs row).trans (by rw [hlast]; rfl)
  · exact (foldl_paintSprite_get hs row).trans (by rw [hnone _ h]; rfl)

/-- A line that shows the upper half of one tall sprite and, over it, the lower half of another one,
which is upside down, turned, and has one pixel only in its row. -/
def twoSprites : Video :=
  { powerOn with
    ram := .ofCells [(32, 0xFF), (50, 0x04), (51, 0x04)]
    objectPalette0 := 0xE4, line := 0, tallSprites := true
    sprites := [⟨8, 16, 3, 0x00⟩, ⟨10, 10, 2, 0x60⟩] }

theorem pixel_of_two_sprites :
    let row : Row := Vector.replicate 160 .darkGray
    let painted := twoSprites.sprites.foldl (twoSprites.paintSprite twoSprites.lineColours) row
    (∀ s ∈ twoSprites.sprites, s.Covers twoSprites.tallSprites twoSprites.line) ∧
      painted.get 4 = .black ∧ painted.get 5 = .lightGray ∧ painted.get 9 = .darkGray := by
  intro row painted
  have hs : ∀ s ∈ twoSprites.sprites, s.Covers twoSprites.tallSprites twoSprites.line := by decide
  have hpixel (x : Fin 160) := pixel_of_last_shown twoSprites twoSprites.lineColours row hs x
  refine ⟨hs, ?_, ?_, ?_⟩
  · exact ((hpixel 4).1 [_] _ [] rfl (by decide +kernel) (by decide)).trans (by decide +kernel)
  · exact ((hpixel 5).1 [] _ [_] rfl (by decide +kernel) (by decide +kernel)).trans
      (by decide +kernel)
  · exact ((hpixel 9).2 (by decide +kernel)).trans (Vector.getElem_replicate _)

end Video

end DotMatrix
