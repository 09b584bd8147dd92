import DotMatrix.Proofs.Checked.Sprites
import DotMatrix.Proofs.Video.Compositing
import DotMatrix.Proofs.Video.DrawingOrder

/-!
# Which sprite is seen

Of the sprites that have a pixel in a column, the one furthest to the left ought to be seen, and among
those equally far the one that comes first in object memory. A sprite that comes earlier and lies
further to the right has to be moved behind it for that, and on its way it meets sprites that have no
pixel in the column. If it cannot pass one of these, it stays in front.

* `Video.solidEntries`: the entries with a pixel in a column;
* `Video.Leftmost`: the entry that ought to be seen; `Video.Frontmost`: the one that is seen;
* `Video.InTheWay`: an entry that keeps an earlier one from moving behind the leftmost;
* `frontmost_eq_leftmost_iff`: the leftmost entry is seen exactly if nothing is in the way;
* `leftmost_seen_iff`: the same of the picture;
* `right_seen_before_left`: a line on which it is not seen.
-/

namespace DotMatrix.Video

section Entries

variable (v : Video)

/-- The numbers of the entries that the current line shows. -/
def entries : List (Fin 40) := Sprite.lineEntries v.objects v.spritesTall v.line

/-- An entry of object memory. -/
def sprite (i : Fin 40) : Sprite := Sprite.entry v.objects i

/-- The entries of the line that have a pixel in the column which is not transparent. -/
def solidEntries (x : Fin 160) : List (Fin 40) :=
  v.entries.filter fun i => v.scanObjects.Solid (v.sprite i) x

/-- One entry of the line is drawn after another. -/
def InFront (i j : Fin 40) : Prop := Sprite.InFront v.objects v.entries i j

/-- No entry with a pixel in the column lies further to the left, nor as far and earlier in memory. -/
structure Leftmost (x : Fin 160) (w : Fin 40) : Prop where
  mem : w ∈ v.solidEntries x
  least : ∀ i ∈ v.solidEntries x,
    (v.sprite w).x < (v.sprite i).x ∨ (v.sprite w).x = (v.sprite i).x ∧ w ≤ i

/-- All other entries with a pixel in the column are drawn before. -/
structure Frontmost (x : Fin 160) (t : Fin 40) : Prop where
  mem : t ∈ v.solidEntries x
  front : ∀ i ∈ v.solidEntries x, i ≠ t → v.InFront t i

/-- To get behind `w`, an earlier entry with a pixel in the column would have to pass `p`, and it
cannot. -/
def InTheWay (x : Fin 160) (w p : Fin 40) : Prop :=
  v.InFront p w ∧ ∃ i ∈ v.solidEntries x, i < w ∧ i < p ∧ (v.sprite i).passes (v.sprite p) = false

instance (i j : Fin 40) : Decidable (v.InFront i j) :=
  inferInstanceAs (Decidable (Sprite.InFront _ _ i j))

instance (x : Fin 160) (w p : Fin 40) : Decidable (v.InTheWay x w p) :=
  inferInstanceAs (Decidable (_ ∧ ∃ i ∈ v.solidEntries x, _))

end Entries

variable {v : Video} {x : Fin 160} {i j w t : Fin 40}

/-! ### Leftmost and frontmost -/

theorem mem_solidEntries :
    i ∈ v.solidEntries x ↔ i ∈ v.entries ∧ v.scanObjects.Solid (v.sprite i) x := by
  rw [solidEntries, List.mem_filter, decide_eq_true_iff]

/-- Two sprites with a pixel in one column overlap. -/
theorem near_of_solid (hi : i ∈ v.solidEntries x) (hj : j ∈ v.solidEntries x) :
    (v.sprite i).x.toNat < (v.sprite j).x.toNat + 8 := by
  obtain ⟨-, hright⟩ := (mem_solidEntries.1 hi).2.1
  obtain ⟨hleft, -⟩ := (mem_solidEntries.1 hj).2.1
  obtain ⟨hleft', -⟩ := (mem_solidEntries.1 hi).2.1
  obtain ⟨-, hright'⟩ := (mem_solidEntries.1 hj).2.1
  unfold Sprite.left at *
  omega

theorem inFront_iff (hi : i ∈ v.entries) (hj : j ∈ v.entries) (hij : i < j) :
    v.InFront j i ↔ ∀ p ∈ v.entries, i < p → p = j ∨ v.InFront p j →
      (v.sprite i).passes (v.sprite p) = true :=
  Sprite.inFront_iff (Sprite.lineEntries_increasing _ _ _) hi hj hij

/-- Later entries are drawn before the leftmost one. -/
theorem Leftmost.inFront_of_lt (hw : v.Leftmost x w) (hi : i ∈ v.solidEntries x) (hlt : w < i) :
    v.InFront w i := by
  have hline := (mem_solidEntries.1 hw.mem).1
  refine (Sprite.inFront_or hline (ne_of_lt hlt)).resolve_right fun hfront => ?_
  -- Behind a later entry it would have passed this one, which does not lie to its left.
  have hpass := (inFront_iff hline (mem_solidEntries.1 hi).1 hlt).1 hfront i
    (mem_solidEntries.1 hi).1 hlt (.inl rfl)
  have hx := (Sprite.passes_iff.1 hpass).1
  obtain hless | ⟨heq, -⟩ := hw.least i hi
  · exact UInt8.lt_asymm hx hless
  · exact UInt8.lt_irrefl _ (heq ▸ hx)

/-- Earlier entries lie to the right of the leftmost one. -/
theorem Leftmost.x_lt_of_lt (hw : v.Leftmost x w) (hi : i ∈ v.solidEntries x) (hlt : i < w) :
    (v.sprite w).x < (v.sprite i).x :=
  (hw.least i hi).resolve_right fun h => absurd h.2 (not_le_of_gt hlt)

/-- An earlier entry is drawn before the leftmost one unless it is stopped on its way. -/
theorem Leftmost.inFront_iff_of_lt (hw : v.Leftmost x w) (hi : i ∈ v.solidEntries x)
    (hlt : i < w) :
    v.InFront w i ↔ ∀ p ∈ v.entries, i < p → v.InFront p w →
      (v.sprite i).passes (v.sprite p) = true := by
  have hpass : (v.sprite i).passes (v.sprite w) = true := by
    have hnear := near_of_solid hi hw.mem
    exact Sprite.passes_iff.2 ⟨hw.x_lt_of_lt hi hlt, hnear.le⟩
  rw [inFront_iff (mem_solidEntries.1 hi).1 (mem_solidEntries.1 hw.mem).1 hlt]
  refine ⟨fun h p hp hip hfront => h p hp hip (.inr hfront), fun h p hp hip hfront => ?_⟩
  obtain rfl | hfront := hfront
  · exact hpass
  · exact h p hp hip hfront

theorem Frontmost.unique (ht : v.Frontmost x t) (hw : v.Frontmost x w) : t = w :=
  Decidable.byContradiction fun hne =>
    Sprite.inFront_asymm (ht.front w hw.mem fun h => hne h.symm) (hw.front t ht.mem hne)

/-- **The leftmost entry is in front** exactly if nothing is in the way. -/
theorem frontmost_eq_leftmost_iff (hw : v.Leftmost x w) (ht : v.Frontmost x t) :
    t = w ↔ ∀ p ∈ v.entries, ¬v.InTheWay x w p := by
  refine ⟨?_, fun h => ?_⟩
  · rintro rfl p hp ⟨hfront, i, hi, hlt, hip, hstop⟩
    have hpass := (hw.inFront_iff_of_lt hi hlt).1 (ht.front i hi (ne_of_lt hlt)) p hp hip hfront
    exact Bool.false_ne_true (hstop.symm.trans hpass)
  · refine ht.unique ⟨hw.mem, fun i hi hne => ?_⟩
    rcases lt_or_gt_of_ne hne with hlt | hlt
    · refine (hw.inFront_iff_of_lt hi hlt).2 fun p hp hip hfront => ?_
      exact Bool.eq_true_of_not_eq_false fun hstop => h p hp ⟨hfront, i, hi, hlt, hip, hstop⟩
    · exact hw.inFront_of_lt hi hlt

/-- Entries within eight columns are not in each other's way. -/
theorem not_inTheWay_of_near
    (hnear : ∀ i ∈ v.entries, ∀ j ∈ v.entries, (v.sprite i).x.toNat ≤ (v.sprite j).x.toNat + 8)
    (hw : v.Leftmost x w) {p : Fin 40} (hp : p ∈ v.entries) : ¬v.InTheWay x w p := by
  rintro ⟨hfront, i, hi, hlt, -, hstop⟩
  have hline := (mem_solidEntries.1 hi).1
  have hsorted : (v.sprite p).x.toNat ≤ (v.sprite w).x.toNat :=
    Sprite.le_of_inFront_of_near hnear hp (mem_solidEntries.1 hw.mem).1 hfront
  have hx := hw.x_lt_of_lt hi hlt
  have hless : (v.sprite p).x < (v.sprite i).x := by
    rw [UInt8.lt_iff_toNat_lt] at hx ⊢
    omega
  have hpass := Sprite.passes_iff.2 ⟨hless, hnear i hline p hp⟩
  exact Bool.false_ne_true (hstop.symm.trans hpass)

/-! ### What is seen -/

/-- The scan latches sprites that cover the line. -/
theorem scanObjects_covers (v : Video) :
    ∀ s ∈ v.scanObjects.sprites, s.Covers v.scanObjects.tallSprites v.scanObjects.line := by
  intro s hs
  have hmem : s ∈ Sprite.onLine v.objects v.spritesTall v.line :=
    (Sprite.drawOrder_perm _).mem_iff.1 hs
  exact of_decide_eq_true (List.mem_filter.1 (List.mem_of_mem_take hmem)).2

/-- **The frontmost entry is seen**, if none of those with a pixel in the column lies behind the
background. -/
theorem exists_frontmost_seen (hon : v.spritesOn = true) (hi : i ∈ v.solidEntries x)
    (hbehind : ∀ i ∈ v.solidEntries x, (v.sprite i).behind = false) :
    ∃ t, v.Frontmost x t ∧
      v.scanObjects.lineRow.get x = v.scanObjects.spriteShade (v.sprite t) x := by
  let shows (s : Sprite) : Bool := v.scanObjects.Shows v.scanObjects.lineColours x s
  have hshows : ∀ i ∈ v.entries, shows (v.sprite i) = true ↔ i ∈ v.solidEntries x := by
    intro i hline
    rw [mem_solidEntries, decide_eq_true_iff]
    refine ⟨fun h => ⟨hline, h.1⟩, fun h => ⟨h.2, fun hb => ?_⟩⟩
    rw [hbehind i (mem_solidEntries.2 h)] at hb
    exact Bool.false_ne_true hb.1
  have hlast : (v.scanObjects.sprites.filter shows).getLast? =
      ((Sprite.frontToBack v.objects v.entries).find? fun i => shows (v.sprite i)).map v.sprite := by
    show ((Sprite.drawOrder (Sprite.onLine _ _ _)).filter shows).getLast? = _
    rw [Sprite.drawOrder_onLine, List.filter_reverse, List.getLast?_reverse, List.head?_filter,
      List.find?_map]
    rfl
  cases hfind : (Sprite.frontToBack v.objects v.entries).find? fun i => shows (v.sprite i) with
  | none =>
    have hline := (mem_solidEntries.1 hi).1
    exact absurd ((hshows i hline).2 hi) (List.find?_eq_none.1 hfind i (Sprite.mem_frontToBack.2 hline))
  | some t =>
    have ht : t ∈ v.entries := Sprite.mem_frontToBack.1 (List.mem_of_find?_eq_some hfind)
    have hseen : shows (v.sprite t) = true := List.find?_some (p := fun i => shows (v.sprite i)) hfind
    refine ⟨t, ⟨(hshows t ht).1 hseen, fun i hi hne => ?_⟩, ?_⟩
    · exact Sprite.inFront_of_find? hfind ((hshows i (mem_solidEntries.1 hi).1).2 hi) hne
    · rw [lineRow_get (v := v.scanObjects) hon v.scanObjects_covers, hlast, hfind]
      rfl

/-- **The leftmost sprite is seen unless one is in the way.** Let nothing be written while the sprites
of a shown line are selected and the line is drawn, and let sprites be on. Whatever the memories hold,
take a column and the leftmost entry `w` with a pixel there, ties going to the first in object memory,
and let none of the entries with a pixel there lie behind the background. The picture shows the
frontmost of them, in the shade of its own palette. This is `w` if and only if no entry of the line is
in its way: one that is drawn after `w`, and that comes later in memory than an entry with a pixel in
the column which has to move behind `w`, but does not lie to its left by one to eight columns. If all
entries of the line lie within eight columns of each other, it is `w` in every column. -/
theorem leftmost_seen_iff (v : Video) (x : Fin 160) (w : Fin 40) (hm : v.mode = .objectScan)
    (hd : v.dot = 0) (hl : v.line < 144) (hon : v.displayOn = true) (hs : v.spritesOn = true)
    (hw : v.Leftmost x w) (hbehind : ∀ i ∈ v.solidEntries x, (v.sprite i).behind = false) :
    let pixel := ((run v (List.replicate 81 .tick)).picture[v.line]).get x
    ∃ t, v.Frontmost x t ∧ pixel = v.scanObjects.spriteShade (v.sprite t) x ∧
      (t = w ↔ ∀ p ∈ v.entries, ¬v.InTheWay x w p) ∧
      ((∀ i ∈ v.entries, ∀ j ∈ v.entries,
        (v.sprite i).x.toNat ≤ (v.sprite j).x.toNat + 8) → t = w) := by
  intro pixel
  obtain ⟨t, ht, hseen⟩ := exists_frontmost_seen hs hw.mem hbehind
  have hiff := frontmost_eq_leftmost_iff hw ht
  refine ⟨t, ht, ?_, hiff, fun hnear => hiff.2 fun p hp => not_inTheWay_of_near hnear hw hp⟩
  have hrow : (run v (List.replicate 81 .tick)).picture[v.line] = v.scanObjects.lineRow := by
    simp only [run_line hm hd hon hl, Vector.getElem_set_self]
  show ((run v (List.replicate 81 .tick)).picture[v.line]).get x = _
  rw [hrow, hseen]

/-! ### A line with a sprite in the way -/

/-- The beginning of a line with three sprites: the first in memory at column 25, the second at
column 10 and the third at column 20, which has the second palette. -/
def threeSprites : Video :=
  { powerOn with
    ram := .ofCells [(16, 0xFF), (17, 0xFF)]
    objects := .ofCells [(0, 16), (1, 25), (2, 1), (4, 16), (5, 10), (6, 1),
      (8, 16), (9, 20), (10, 1), (11, 0x10)]
    control := 0x93, objectPalette0 := 0xE4, objectPalette1 := 0xAA
    mode := .objectScan, line := 0, dot := 0 }

/-- With the second sprite at column 22 all three have a pixel in column 17, nothing is in the way, and
the third is seen. -/
theorem leftmost_of_three_seen :
    let v := { threeSprites with objects := threeSprites.objects.set 5 22 }
    v.solidEntries 17 = [0, 1, 2] ∧ v.Leftmost 17 2 ∧
      ((run v (List.replicate 81 .tick)).picture[0]).get 17 = .darkGray := by
  intro v
  have hw : v.Leftmost 17 2 := ⟨by decide +kernel, by decide +kernel⟩
  obtain ⟨t, -, hpixel, hiff, -⟩ :=
    leftmost_seen_iff v 17 2 rfl rfl (by decide) (by decide) (by decide) hw (by decide +kernel)
  obtain rfl := hiff.2 (by decide +kernel)
  exact ⟨by decide +kernel, hw, hpixel.trans (by decide +kernel)⟩

/-- In column 17 the first and the third sprite have a pixel, and neither lies behind the background.
The third lies further to the left, but the second, which has no pixel there, keeps the first in
front: the picture shows black, where the third sprite is dark gray. -/
theorem right_seen_before_left :
    threeSprites.Leftmost 17 2 ∧
      (∀ i ∈ threeSprites.solidEntries 17, (threeSprites.sprite i).behind = false) ∧
      ((run threeSprites (List.replicate 81 .tick)).picture[0]).get 17 = .black ∧
      threeSprites.scanObjects.spriteShade (threeSprites.sprite 2) 17 = .darkGray := by
  have hw : threeSprites.Leftmost 17 2 := ⟨by decide +kernel, by decide +kernel⟩
  have hbehind : ∀ i ∈ threeSprites.solidEntries 17, (threeSprites.sprite i).behind = false := by
    decide +kernel
  obtain ⟨t, ht, hseen⟩ := exists_frontmost_seen rfl hw.mem hbehind
  have hblack : threeSprites.scanObjects.spriteShade (threeSprites.sprite t) 17 = .black := by
    have hfront : threeSprites.Frontmost 17 0 := ⟨by decide +kernel, by decide +kernel⟩
    rw [ht.unique hfront]
    decide +kernel
  refine ⟨hw, hbehind, ?_, by decide +kernel⟩
  simp only [run_line (v := threeSprites) rfl rfl rfl (by decide)]
  exact (congrArg (Vector.get · 17) (Vector.getElem_set_self _)).trans (hseen.trans hblack)

end DotMatrix.Video
