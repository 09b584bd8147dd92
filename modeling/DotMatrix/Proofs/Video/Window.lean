import DotMatrix.Proofs.Video.Planes

/-!
# Where the window lies

The window covers a line from one column on. The register that says which is seven more than the
column, so that its edge may lie left of the screen; but the unit takes the seven off in a byte, and
an edge left of the screen becomes one far to the right of it.

* `toNat_windowStart`: the column at which the unit lets the window begin;
* `showsWindow_iff`: the columns that show the window are those right of the edge, if the edge is on
  the screen, and none if it lies left of it;
* `drawsWindow_iff`: the rows of the window are counted on lines with such a column;
* `window_placed`: every column of a line with the window on;
* `window_lost_off_left`: an edge left of the screen.
-/

namespace DotMatrix.Video

/-- The point of the window's plane that lies as far to the right of its edge as the column does,
in the row that the window has come to. -/
def windowPoint (v : Video) (x : Fin 160) : Colour :=
  v.planePoint v.windowMapHigh (coordinate (x.val + 7 - v.windowX.toNat))
    (coordinate v.windowLine.toNat)

variable {v : Video} {x : Fin 160}

theorem toNat_windowStart (v : Video) : v.windowStart.toNat =
    if 7 ≤ v.windowX.toNat then v.windowX.toNat - 7 else v.windowX.toNat + 249 := by
  have h := v.windowX.toNat_lt
  have hseven : (7 : UInt8).toNat = 7 := rfl
  unfold windowStart
  rw [UInt8.toNat_sub, hseven]
  split <;> omega

/-- The columns of the screen that show the window. -/
theorem showsWindow_iff (hr : v.windowReached = true) :
    v.showsWindow x = true ↔ 7 ≤ v.windowX.toNat ∧ v.windowX.toNat ≤ x.val + 7 := by
  have hx := x.isLt
  have hwindow := v.windowX.toNat_lt
  rw [showsWindow, hr, Bool.true_and, decide_eq_true_iff, toNat_windowStart]
  split <;> omega

/-- The window is drawn on a line if one of its columns shows it. -/
theorem drawsWindow_iff :
    v.drawsWindow = true ↔ v.backgroundOn = true ∧ ∃ x : Fin 160, v.showsWindow x = true := by
  simp only [drawsWindow, showsWindow, Bool.and_eq_true, decide_eq_true_iff, and_assoc]
  refine and_congr_right fun _ => ⟨?_, ?_⟩
  · rintro ⟨hr, hlt⟩
    exact ⟨⟨v.windowStart.toNat, hlt⟩, hr, Nat.le_refl _⟩
  · rintro ⟨x, hr, hle⟩
    exact ⟨hr, Nat.lt_of_le_of_lt hle x.isLt⟩

/-- The colour of a column that shows the window. -/
theorem colourAt_of_window (hon : v.backgroundOn = true) (hw : v.showsWindow x = true) :
    v.colourAt x = v.windowPoint x := by
  have hr : v.windowReached = true := (Bool.and_eq_true _ _ ▸ hw).1
  obtain ⟨h7, hle⟩ := (showsWindow_iff hr).1 hw
  have hstart : v.windowStart = UInt8.ofNat (v.windowX.toNat - 7) := by
    have hlt := v.windowX.toNat_lt
    apply UInt8.toNat_inj.1
    rw [toNat_windowStart, if_pos h7, UInt8.toNat_ofNat', Nat.mod_eq_of_lt (by omega)]
  have hcolumn : UInt8.ofNat x.val - v.windowStart =
      UInt8.ofNat (x.val + 7 - v.windowX.toNat) := by
    have hsplit : x.val = x.val + 7 - v.windowX.toNat + (v.windowX.toNat - 7) := by omega
    rw [hstart, hsplit, UInt8.ofNat_add, UInt8.add_sub_cancel, ← hsplit]
  have hrow : v.windowLine = UInt8.ofNat v.windowLine.toNat := UInt8.ofNat_toNat.symm
  unfold colourAt
  simp only [hon, hw, if_true, hcolumn]
  rw [hrow]
  exact v.planeColour_ofNat _ _ _

/-- **Where the window lies.** Let a line of the screen be drawn with the background on, without
sprites, and with the window on and begun. Whatever video RAM and registers hold, the columns that
show the window are those right of its edge, if the register for the edge is 7 or more, and none if
it is less. A column that shows the window has the shade of the window's point in the row that the
window has come to, and every other column that of the background's. The window goes on by a row if
and only if a column showed it. So the rule that the columns right of the edge show the window holds
for every edge that is not left of the screen, and for no other. -/
theorem window_placed (v : Video) (hl : v.line < 144) (hon : v.backgroundOn = true)
    (hw : v.windowOn = true) (hy : v.windowY.toNat ≤ v.line) (hs : v.spritesOn = false) :
    (∀ x : Fin 160,
      (v.showsWindow x = true ↔ 7 ≤ v.windowX.toNat ∧ v.windowX.toNat ≤ x.val + 7) ∧
      v.drawLine.picture[v.line].get x = shadeIn v.backgroundPalette
        (if v.showsWindow x then v.windowPoint x else v.backgroundPoint x)) ∧
    ((∃ x : Fin 160, v.showsWindow x = true) → v.drawLine.windowLine = v.windowLine + 1) ∧
    ((∀ x : Fin 160, v.showsWindow x = false) → v.drawLine.windowLine = v.windowLine) ∧
    ((∀ x : Fin 160, v.showsWindow x = true ↔ v.windowX.toNat ≤ x.val + 7) ↔
      7 ≤ v.windowX.toNat) := by
  have hr : v.windowReached = true := by simp [windowReached, hw, hy]
  refine ⟨fun x => ⟨showsWindow_iff hr, ?_⟩, fun hsome => ?_, fun hnone => ?_, ?_⟩
  · rw [drawLine_get hl hs]
    cases hshow : v.showsWindow x with
    | true => rw [colourAt_of_window hon hshow, if_pos rfl]
    | false => rw [colourAt_of_background hon hshow, if_neg Bool.false_ne_true]
  · rw [drawLine_windowLine_eq hl, drawsWindow_iff.2 ⟨hon, hsome⟩, if_pos rfl]
  · have hdraws : ¬v.drawsWindow = true := fun h => by
      obtain ⟨-, x, hx⟩ := drawsWindow_iff.1 h
      exact Bool.false_ne_true ((hnone x).symm.trans hx)
    rw [drawLine_windowLine_eq hl, if_neg hdraws]
  · constructor
    · intro hrule
      -- The last column lies right of every edge that is left of the screen.
      by_contra hless
      have hlast := (hrule 159).2 (by show _ ≤ 159 + 7; omega)
      exact hless ((showsWindow_iff hr).1 hlast).1
    · intro h7 x
      rw [showsWindow_iff hr]
      exact and_iff_right h7

/-- A line with the window's edge in column 0, and a tile at the beginning of the window whose first
row is black. -/
def windowAtLeft : Video :=
  { powerOn with
    ram := .ofCells [(0x1C00, 1), (16, 0xFF), (17, 0xFF)]
    control := 0xF1, backgroundPalette := 0xE4, windowX := 7, line := 0 }

theorem window_placed_at_left :
    (windowAtLeft.drawLine.picture.get 0).get 7 = .black ∧
      (windowAtLeft.drawLine.picture.get 0).get 8 = .white ∧ windowAtLeft.drawLine.windowLine = 1 := by
  obtain ⟨hcolumn, hsome, -, -⟩ :=
    window_placed windowAtLeft (by decide) rfl rfl (by decide) rfl
  exact ⟨(hcolumn 7).2.trans (by decide +kernel), (hcolumn 8).2.trans (by decide +kernel),
    hsome ⟨0, rfl⟩⟩

/-- The same line with the edge four columns left of the screen. The screen's first column lies right
of it and the window is black there, but the picture shows the white of the background, and the
window does not go on to its next row. -/
theorem window_lost_off_left :
    let v := { windowAtLeft with windowX := 3 }
    v.line < 144 ∧ v.displayOn = true ∧ v.backgroundOn = true ∧ v.windowOn = true ∧
      v.windowY.toNat ≤ v.line ∧ v.spritesOn = false ∧ v.windowX.toNat ≤ (0 : Fin 160).val + 7 ∧
      shadeIn v.backgroundPalette (v.windowPoint 0) = .black ∧
      (v.drawLine.picture.get 0).get 0 = .white ∧ v.drawLine.windowLine = v.windowLine := by
  intro v
  have hl : v.line < 144 := by decide
  have hshade : v.drawLine.picture[v.line].get 0 = .white :=
    (drawLine_get hl (by decide) 0).trans (by decide +kernel)
  exact ⟨hl, by decide, by decide, by decide, by decide, by decide, by decide, by decide +kernel,
    hshade, by decide +kernel⟩

end DotMatrix.Video
