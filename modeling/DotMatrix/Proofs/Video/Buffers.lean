import DotMatrix.Proofs.Video.History

/-!
# The buffers of the video unit

The unit has more state than `Video` shows. A flag says whether the work of the mode has been done;
every change of mode lowers it. A line is drawn in place: the background is laid over whatever its
row held, marks are left where the background has colour 0, and sprites that lie behind it are
painted where there is a mark. Flag and marks make no difference, because both are set anew before
they are read: without them the unit is that of `Video`, which tells by the dot when to work and
looks the background up again.

* `Buffered`: the unit with flag and marks, and with a journal of the lines that it has drawn;
* `drawLine_toVideo`: drawing in place draws the line;
* `InStep`: the flag says what the dot says;
* `run_toVideo`: after any history, a unit in step is the unit of `Video` with buffers;
* `tick_cases`: a tick selects sprites, or draws a line, or leaves all that a line is drawn from.
-/

namespace DotMatrix.Video

/-- The unit with the buffers that a program does not see. -/
structure Buffered extends Video where
  /-- Has the work of the mode been done? -/
  worked : Bool
  /-- The columns that had colour 0 under the sprites when a line was last drawn. -/
  marks : Vector Bool 160
  /-- The lines that have been drawn, the first drawn first. Nothing reads this journal. -/
  drawn : List Nat

/-! ### Drawing in place -/

section Drawing

variable (v : Video)

/-- Set one column of a buffer. -/
def setColumn {α : Type} {n : Nat} (buffer : Vector α n) (x : Fin n) (a : α) : Vector α n :=
  buffer.set x a x.isLt

/-- Lay one column of the background, and mark it if it has colour 0. -/
def layColumn (place : Row × Vector Bool 160) (x : Fin 160) : Row × Vector Bool 160 :=
  (setColumn place.1 x (shadeIn v.backgroundPalette (v.colourAt x)),
    setColumn place.2 x (decide (v.colourAt x = .clear)))

/-- Lay the background over a row and its marks: all of colour 0 first, then column by column. -/
def layBackground (row : Row) (marks : Vector Bool 160) : Row × Vector Bool 160 :=
  let blank := (row.map fun _ => shadeIn v.backgroundPalette .clear, marks.map fun _ => true)
  if v.backgroundOn then (List.finRange 160).foldl v.layColumn blank else blank

/-- Paint one column of a sprite, behind the columns without a mark if the sprite lies behind. -/
def paintMarkedColumn (marks : Vector Bool 160) (s : Sprite) (pattern : UInt8 × UInt8) (row : Row)
    (column : Fin 8) : Row :=
  let colour := spriteColour s pattern column
  let palette := if s.secondPalette then v.objectPalette1 else v.objectPalette0
  (screenColumn? s column).elim row fun x =>
    if colour = .clear ∨ (s.behind ∧ marks.get x = false) then row
    else setColumn row x (shadeIn palette colour)

/-- Paint a sprite's row on the line. -/
def paintMarkedSprite (marks : Vector Bool 160) (row : Row) (s : Sprite) : Row :=
  if h : s.Covers v.tallSprites v.line then
    let tile := s.firstTile v.tallSprites
    let pattern := v.spritePattern tile (s.patternRow v.tallSprites v.line h)
    (List.finRange 8).foldl (v.paintMarkedColumn marks s pattern) row
  else row

theorem get_setColumn {α : Type} {n : Nat} (buffer : Vector α n) (x z : Fin n) (a : α) :
    (setColumn buffer z a).get x = if x = z then a else buffer.get x := by
  by_cases h : x = z
  · subst h
    rw [if_pos rfl]
    exact Vector.getElem_set_self x.isLt
  · rw [if_neg h]
    exact Vector.getElem_set_ne z.isLt x.isLt fun hv => h (Fin.ext hv.symm)

/-- The column holds the shade of the background and the mark that goes with it. -/
def Laid (place : Row × Vector Bool 160) (x : Fin 160) : Prop :=
  place.1.get x = shadeIn v.backgroundPalette (v.colourAt x) ∧
    place.2.get x = decide (v.colourAt x = .clear)

theorem layColumn_laid (place : Row × Vector Bool 160) (z x : Fin 160)
    (h : x = z ∨ v.Laid place x) : v.Laid (v.layColumn place z) x := by
  unfold Laid layColumn
  rw [get_setColumn, get_setColumn]
  by_cases hz : x = z
  · rw [if_pos hz, if_pos hz, hz]
    exact ⟨rfl, rfl⟩
  · rw [if_neg hz, if_neg hz]
    exact h.resolve_left hz

theorem foldl_layColumn_laid (l : List (Fin 160)) (place : Row × Vector Bool 160) (x : Fin 160)
    (h : x ∈ l ∨ v.Laid place x) : v.Laid (l.foldl v.layColumn place) x := by
  induction l generalizing place with
  | nil => exact h.resolve_left List.not_mem_nil
  | cons z l ih =>
    rw [List.mem_cons, or_assoc, or_left_comm] at h
    exact ih _ (h.imp_right (v.layColumn_laid place z x))

/-- Whatever the row and the marks held, they now hold the shades and the marks of the line. -/
theorem layBackground_eq (row : Row) (marks : Vector Bool 160) :
    v.layBackground row marks =
      (v.lineColours.map (shadeIn v.backgroundPalette),
        v.lineColours.map fun c => decide (c = .clear)) := by
  simp only [layBackground]
  split
  case isTrue =>
    -- Every column is laid, so nothing of the blank is left.
    have hall (x : Fin 160) := v.foldl_layColumn_laid (List.finRange 160)
      (row.map fun _ => shadeIn v.backgroundPalette .clear, marks.map fun _ => true) x
      (.inl (List.mem_finRange x))
    ext x hx
    · exact (hall ⟨x, hx⟩).1.trans (by simp [lineColours])
    · exact (hall ⟨x, hx⟩).2.trans (by simp [lineColours])
  case isFalse hoff => ext x hx <;> simp [lineColours, colourAt, hoff]

theorem paintMarkedColumn_eq (under : Vector Colour 160) (s : Sprite) (pattern : UInt8 × UInt8)
    (row : Row) (column : Fin 8) :
    v.paintMarkedColumn (under.map fun c => decide (c = .clear)) s pattern row column =
      v.paintColumn under s pattern row column := by
  simp only [paintMarkedColumn, paintColumn]
  cases screenColumn? s column with
  | none => rfl
  | some x =>
    have hmark : (under.map fun c => decide (c = .clear)).get x = decide (under.get x = .clear) :=
      Vector.getElem_map _ x.isLt
    simp only [Option.elim_some, hmark, decide_eq_false_iff_not]
    rfl

theorem paintMarkedSprite_eq (under : Vector Colour 160) (row : Row) (s : Sprite) :
    v.paintMarkedSprite (under.map fun c => decide (c = .clear)) row s =
      v.paintSprite under row s := by
  unfold paintMarkedSprite paintSprite
  split
  · exact congrArg (fun paint => (List.finRange 8).foldl paint row)
      (funext₂ (v.paintMarkedColumn_eq under s _))
  · rfl

end Drawing

namespace Buffered

/-! ### Running with the buffers -/

section Events

variable (b : Buffered)

/-- Change what is not a buffer. -/
def onVideo (f : Video → Video) : Buffered := ⟨f b.toVideo, b.worked, b.marks, b.drawn⟩

/-- Draw the current line over what its row held, and enter it in the journal. -/
def drawLine : Buffered :=
  if h : b.line < 144 then
    let (row, marks) := b.layBackground b.picture[b.line] b.marks
    { b with
      picture := b.picture.set b.line
        (if b.spritesOn then b.sprites.foldl (b.paintMarkedSprite marks) row else row)
      windowLine := if b.drawsWindow then b.windowLine + 1 else b.windowLine
      marks
      drawn := b.drawn ++ [b.line] }
  else b

/-- Change the mode. The work of the new one is still to be done. -/
def enter (m : Mode) : Buffered := { b with mode := m, worked := false }

/-- The unit one dot further, before the dot has had its effect. -/
def nextDot : Buffered := b.onVideo Video.nextDot

/-- The unit at the beginning of a line. -/
def startLine (line : Nat) : Buffered := b.onVideo fun v => v.startLine line

/-- A dot of the object scan. -/
def tickScan : Buffered :=
  let b := if b.worked then b else { b.onVideo scanObjects with worked := true }
  if scanDots ≤ b.dot then b.enter .transfer else b

/-- A dot of the transfer. -/
def tickTransfer : Buffered :=
  let b := if b.worked then b else { b.drawLine with worked := true }
  if transferEnd ≤ b.dot then b.enter .hblank else b

/-- A dot of horizontal blank. -/
def tickHBlank : Buffered :=
  if lineDots ≤ b.dot then
    let b := b.startLine (b.line + 1)
    if screenHeight ≤ b.line then { b.enter .vblank with frameReady := true }
    else b.enter .objectScan
  else b

/-- A dot of vertical blank. -/
def tickVBlank : Buffered :=
  let b := { b with windowLine := 0 }
  if lineDots ≤ b.dot then
    if frameLines ≤ b.line + 1 then
      let b := b.startLine 0
      { b.enter .objectScan with frames := b.frames + 1 }
    else b.startLine (b.line + 1)
  else b

/-- One dot. Nothing happens while the display is off. -/
def tick : Buffered :=
  if b.displayOn then
    match b.mode with
    | .objectScan => b.nextDot.tickScan
    | .transfer => b.nextDot.tickTransfer
    | .hblank => b.nextDot.tickHBlank
    | .vblank => b.nextDot.tickVBlank
  else b

/-- A program's write. Switching the display leads to a mode whose work is still to be done. -/
def write (r : Register) (x : UInt8) : Buffered :=
  let c := b.onVideo fun v => v.write r x
  { c with worked := b.worked && c.displayOn == b.displayOn }

/-- The unit after an event. -/
def apply : Event → Buffered
  | .tick => b.tick
  | .write r x => b.write r x
  | .memories ram objects => { b with ram, objects }
  | .acknowledge => b.onVideo clearFrameReady

/-- The unit after events in a row. -/
def run (es : List Event) : Buffered := es.foldl apply b

/-- The unit when a program starts. -/
def powerOn : Buffered :=
  { toVideo := Video.powerOn, worked := false, marks := Vector.replicate 160 false, drawn := [] }

end Events

variable {b : Buffered}

theorem run_append (b : Buffered) (es fs : List Event) : b.run (es ++ fs) = (b.run es).run fs :=
  List.foldl_append

theorem run_concat (b : Buffered) (es : List Event) (e : Event) :
    b.run (es ++ [e]) = (b.run es).apply e := run_append b es [e]

/-- **Drawing in place** draws the line, whatever row and marks held. -/
theorem drawLine_toVideo (b : Buffered) : b.drawLine.toVideo = b.toVideo.drawLine := by
  unfold drawLine Video.drawLine
  split
  · have hpaint : b.paintMarkedSprite (b.lineColours.map fun c => decide (c = .clear)) =
        b.paintSprite b.lineColours := funext₂ (b.paintMarkedSprite_eq b.lineColours)
    simp only [layBackground_eq, hpaint]
    rfl
  · rfl

/-! ### The flag and the dot -/

/-- Has the work of the mode been done at a dot? -/
def workDone : Mode → Nat → Bool
  | .objectScan, dot => decide (0 < dot)
  | .transfer, dot => decide (scanDots < dot)
  | .hblank, _ | .vblank, _ => false

/-- The unit is on schedule, and the flag says what the dot says. -/
structure InStep (b : Buffered) : Prop where
  onSchedule : OnSchedule b.toVideo
  worked_eq : b.displayOn = true → b.worked = workDone b.mode b.dot

theorem powerOn_inStep : InStep powerOn := ⟨powerOn_onSchedule, fun _ => rfl⟩

theorem drawLine_place (b : Buffered) : b.drawLine.mode = b.mode ∧ b.drawLine.dot = b.dot := by
  unfold drawLine
  split <;> exact ⟨rfl, rfl⟩

/-! ### One dot

In each mode a dot does the mode's work, or it changes the mode, or it passes. -/

theorem tickScan_cases (hd : b.dot < 80) (hw : b.worked = decide (0 < b.dot)) :
    b.dot = 0 ∧ b.nextDot.tickScan = { b.nextDot.onVideo scanObjects with worked := true } ∨
      b.dot ≠ 0 ∧ b.dot + 1 < 80 ∧ b.nextDot.tickScan = b.nextDot ∨
      b.dot + 1 = 80 ∧ b.nextDot.tickScan = b.nextDot.enter .transfer := by
  have hflag : b.nextDot.worked = decide (0 < b.dot) := hw
  have hdot : b.nextDot.dot = b.dot + 1 := rfl
  rcases Nat.eq_zero_or_pos b.dot with h0 | h0
  · have hnot : ¬scanDots ≤ b.nextDot.dot := by rw [hdot, h0]; decide
    left
    refine ⟨h0, ?_⟩
    simp only [tickScan, hflag, h0, Nat.lt_irrefl, decide_false, Bool.false_eq_true, if_false]
    exact if_neg hnot
  · have hwork : b.nextDot.tickScan =
        if scanDots ≤ b.nextDot.dot then b.nextDot.enter .transfer else b.nextDot := by
      simp only [tickScan, hflag, h0, decide_true, if_true]
    right
    rcases Nat.lt_or_ge (b.dot + 1) 80 with h | h
    · exact .inl ⟨Nat.ne_of_gt h0, h, hwork.trans (if_neg (Nat.not_le.2 h))⟩
    · exact .inr ⟨Nat.le_antisymm hd h, hwork.trans (if_pos h)⟩

theorem tickTransfer_cases (h80 : 80 ≤ b.dot) (hd : b.dot < 252)
    (hw : b.worked = decide (80 < b.dot)) :
    b.dot = 80 ∧ b.nextDot.tickTransfer = { b.nextDot.drawLine with worked := true } ∨
      80 < b.dot ∧ b.dot + 1 < 252 ∧ b.nextDot.tickTransfer = b.nextDot ∨
      b.dot + 1 = 252 ∧ b.nextDot.tickTransfer = b.nextDot.enter .hblank := by
  have hflag : b.nextDot.worked = decide (80 < b.dot) := hw
  have hdot : b.nextDot.dot = b.dot + 1 := rfl
  rcases Nat.eq_or_lt_of_le h80 with h0 | h0
  · have hnot : ¬transferEnd ≤ b.nextDot.drawLine.dot := by
      rw [(drawLine_place _).2, hdot, ← h0]
      decide
    left
    refine ⟨h0.symm, ?_⟩
    simp only [tickTransfer, hflag, ← h0, Nat.lt_irrefl, decide_false, Bool.false_eq_true, if_false]
    exact if_neg hnot
  · have hwork : b.nextDot.tickTransfer =
        if transferEnd ≤ b.nextDot.dot then b.nextDot.enter .hblank else b.nextDot := by
      simp only [tickTransfer, hflag, h0, decide_true, if_true]
    right
    rcases Nat.lt_or_ge (b.dot + 1) 252 with h | h
    · exact .inl ⟨h0, h, hwork.trans (if_neg (Nat.not_le.2 h))⟩
    · exact .inr ⟨Nat.le_antisymm hd h, hwork.trans (if_pos h)⟩

theorem tickHBlank_cases (b : Buffered) :
    b.dot + 1 < lineDots ∧ b.nextDot.tickHBlank = b.nextDot ∨
      lineDots ≤ b.dot + 1 ∧ b.line + 1 < screenHeight ∧
        b.nextDot.tickHBlank = (b.nextDot.startLine (b.line + 1)).enter .objectScan ∨
      lineDots ≤ b.dot + 1 ∧ screenHeight ≤ b.line + 1 ∧
        b.nextDot.tickHBlank =
          { (b.nextDot.startLine (b.line + 1)).enter .vblank with frameReady := true } := by
  rcases Nat.lt_or_ge (b.dot + 1) lineDots with h | h
  · exact .inl ⟨h, if_neg (Nat.not_le.2 h)⟩
  · rcases Nat.lt_or_ge (b.line + 1) screenHeight with hv | hv
    · exact .inr (.inl ⟨h, hv, (if_pos h).trans (if_neg (Nat.not_le.2 hv))⟩)
    · exact .inr (.inr ⟨h, hv, (if_pos h).trans (if_pos hv)⟩)

theorem tickVBlank_cases (b : Buffered) :
    b.dot + 1 < lineDots ∧ b.nextDot.tickVBlank = { b.nextDot with windowLine := 0 } ∨
      lineDots ≤ b.dot + 1 ∧ b.line + 1 < frameLines ∧
        b.nextDot.tickVBlank = { b.nextDot with windowLine := 0 }.startLine (b.line + 1) ∨
      lineDots ≤ b.dot + 1 ∧ frameLines ≤ b.line + 1 ∧
        b.nextDot.tickVBlank =
          { ({ b.nextDot with windowLine := 0 }.startLine 0).enter .objectScan with
            frames := b.frames + 1 } := by
  rcases Nat.lt_or_ge (b.dot + 1) lineDots with h | h
  · exact .inl ⟨h, if_neg (Nat.not_le.2 h)⟩
  · rcases Nat.lt_or_ge (b.line + 1) frameLines with hv | hv
    · exact .inr (.inl ⟨h, hv, (if_pos h).trans (if_neg (Nat.not_le.2 hv))⟩)
    · exact .inr (.inr ⟨h, hv, (if_pos h).trans (if_pos hv)⟩)

/-- Without its buffers the unit is `v`, and its flag says what the dot says. -/
structure Follows (b : Buffered) (v : Video) : Prop where
  toVideo_eq : b.toVideo = v
  worked_eq : b.worked = workDone b.mode b.dot

theorem tickScan_follows (hm : b.mode = .objectScan) (hd : b.dot < 80)
    (hw : b.worked = decide (0 < b.dot)) :
    Follows b.nextDot.tickScan b.nextDot.toVideo.tickScan.1 := by
  have hmode : b.nextDot.mode = .objectScan := hm
  have hflag : b.nextDot.worked = decide (0 < b.dot) := hw
  obtain ⟨h0, he⟩ | ⟨h0, h, he⟩ | ⟨h, he⟩ := tickScan_cases hd hw
  · have hone : b.nextDot.dot = 1 := congrArg (· + 1) h0
    have hlt : b.nextDot.dot < scanDots := by rw [hone]; decide
    rw [he, tickScan_of_lt hlt, if_pos hone]
    refine ⟨rfl, ?_⟩
    show true = workDone b.nextDot.mode b.nextDot.dot
    rw [hmode, hone]
    rfl
  · have hone : b.nextDot.dot ≠ 1 := fun hone => h0 (Nat.succ.inj hone)
    rw [he, tickScan_of_lt h, if_neg hone]
    refine ⟨rfl, ?_⟩
    rw [hflag, hmode, decide_eq_true (Nat.pos_of_ne_zero h0)]
    rfl
  · have h80 : b.nextDot.dot = 80 := h
    rw [he, tickScan_of_le (Nat.le_of_eq h80.symm)]
    refine ⟨rfl, ?_⟩
    show false = workDone .transfer b.nextDot.dot
    rw [h80]
    rfl

theorem tickTransfer_follows (hm : b.mode = .transfer) (h80 : 80 ≤ b.dot) (hd : b.dot < 252)
    (hw : b.worked = decide (80 < b.dot)) :
    Follows b.nextDot.tickTransfer b.nextDot.toVideo.tickTransfer.1 := by
  have hmode : b.nextDot.mode = .transfer := hm
  have hflag : b.nextDot.worked = decide (80 < b.dot) := hw
  obtain ⟨h0, he⟩ | ⟨h0, h, he⟩ | ⟨h, he⟩ := tickTransfer_cases h80 hd hw
  · have hone : b.nextDot.dot = scanDots + 1 := congrArg (· + 1) h0
    have hlt : b.nextDot.dot < transferEnd := by rw [hone]; decide
    rw [he, tickTransfer_of_lt hlt, if_pos hone]
    refine ⟨drawLine_toVideo _, ?_⟩
    show true = workDone b.nextDot.drawLine.mode b.nextDot.drawLine.dot
    rw [(drawLine_place _).1, (drawLine_place _).2, hmode, hone]
    rfl
  · have hone : b.nextDot.dot ≠ scanDots + 1 := fun hone => Nat.ne_of_gt h0 (Nat.succ.inj hone)
    have hlater : scanDots < b.nextDot.dot := Nat.lt_succ_of_lt h0
    rw [he, tickTransfer_of_lt h, if_neg hone]
    refine ⟨rfl, ?_⟩
    rw [hflag, hmode, decide_eq_true h0]
    exact (decide_eq_true hlater).symm
  · have h252 : b.nextDot.dot = 252 := h
    rw [he, tickTransfer_of_le (Nat.le_of_eq h252.symm)]
    exact ⟨rfl, rfl⟩

theorem tickHBlank_follows (hm : b.mode = .hblank) (hw : b.worked = false) :
    Follows b.nextDot.tickHBlank b.nextDot.toVideo.tickHBlank.1 := by
  obtain ⟨h, he⟩ | ⟨h, hv, he⟩ | ⟨h, hv, he⟩ := tickHBlank_cases b
  · have hflag : b.nextDot.worked = workDone b.nextDot.mode b.nextDot.dot := by
      show b.worked = workDone b.mode _
      rw [hm, hw]
      rfl
    rw [he, tickHBlank_of_lt h]
    exact ⟨rfl, hflag⟩
  · rw [he]
    exact ⟨congrArg Prod.fst (tickHBlank_of_shown (v := b.toVideo) h hv).symm, rfl⟩
  · rw [he]
    exact ⟨congrArg Prod.fst (tickHBlank_of_last (v := b.toVideo) h hv).symm, rfl⟩

theorem tickVBlank_follows (hm : b.mode = .vblank) (hw : b.worked = false) :
    Follows b.nextDot.tickVBlank b.nextDot.toVideo.tickVBlank.1 := by
  have hflag : ∀ dot, b.worked = workDone b.mode dot := fun dot => by rw [hm]; exact hw
  obtain ⟨h, he⟩ | ⟨h, hv, he⟩ | ⟨h, hv, he⟩ := tickVBlank_cases b
  · rw [he, tickVBlank_of_lt h]
    exact ⟨rfl, hflag _⟩
  · rw [he]
    exact ⟨congrArg Prod.fst (tickVBlank_of_blank (v := b.toVideo) h hv).symm, hflag _⟩
  · rw [he]
    exact ⟨congrArg Prod.fst (tickVBlank_of_last (v := b.toVideo) h hv).symm, rfl⟩

theorem tick_of_on (hon : b.displayOn = true) :
    b.tick =
      match b.mode with
      | .objectScan => b.nextDot.tickScan
      | .transfer => b.nextDot.tickTransfer
      | .hblank => b.nextDot.tickHBlank
      | .vblank => b.nextDot.tickVBlank :=
  if_pos hon

theorem tick_of_off (hoff : b.displayOn = false) : b.tick = b := by
  simp [tick, hoff]

theorem InStep.tick_follows (h : InStep b) (hon : b.displayOn = true) :
    Follows b.tick b.toVideo.tick.1 := by
  have hspan := h.onSchedule.spans hon
  have hw := h.worked_eq hon
  rw [tick_of_on hon, Video.tick_of_on hon]
  cases hm : b.mode with
  | objectScan =>
    rw [hm] at hspan hw
    exact tickScan_follows hm hspan.2 hw
  | transfer =>
    rw [hm] at hspan hw
    exact tickTransfer_follows hm hspan.2.1 hspan.2.2 hw
  | hblank =>
    rw [hm] at hw
    exact tickHBlank_follows hm hw
  | vblank =>
    rw [hm] at hw
    exact tickVBlank_follows hm hw

theorem tick_toVideo (h : InStep b) : b.tick.toVideo = b.toVideo.tick.1 := by
  cases hon : b.displayOn with
  | true => exact (h.tick_follows hon).toVideo_eq
  | false => rw [tick_of_off hon, Video.tick_of_off hon]

/-- **One event** does to a unit in step what it does to the unit without buffers. -/
theorem apply_toVideo (h : InStep b) (e : Event) : (b.apply e).toVideo = e.apply b.toVideo := by
  cases e with
  | tick => exact tick_toVideo h
  | write | memories | acknowledge => rfl

theorem InStep.tick (h : InStep b) : InStep b.tick where
  onSchedule := by
    rw [tick_toVideo h]
    exact h.onSchedule.tick
  worked_eq hon' := by
    cases hon : b.displayOn with
    | true => exact (h.tick_follows hon).worked_eq
    | false =>
      rw [tick_of_off hon] at hon'
      exact absurd (hon.symm.trans hon') Bool.false_ne_true

/-- A write leaves mode and dot, or it switches the display and leads to the beginning of a line. -/
theorem write_place (v : Video) (r : Register) (x : UInt8) :
    (v.write r x).displayOn = v.displayOn ∧ (v.write r x).mode = v.mode ∧
        (v.write r x).dot = v.dot ∨
      (v.write r x).displayOn = !v.displayOn ∧ (v.write r x).dot = 0 := by
  cases r with
  | control =>
    obtain ⟨hon, hx, he⟩ | ⟨hoff, hx, he⟩ | ⟨hsame, he⟩ := writeControl_cases v x <;>
      simp only [Video.write, he]
    · exact .inr ⟨by rw [hon]; exact hx, trivial⟩
    · exact .inr ⟨by rw [hoff]; exact hx, trivial⟩
    · exact .inl ⟨hsame.symm, trivial, trivial⟩
  | _ => exact .inl ⟨rfl, rfl, rfl⟩

theorem workDone_zero (m : Mode) : workDone m 0 = false := by
  cases m <;> rfl

theorem InStep.write (h : InStep b) (r : Register) (x : UInt8) : InStep (b.write r x) where
  onSchedule := h.onSchedule.write r x
  worked_eq hon' := by
    show (b.worked && (b.toVideo.write r x).displayOn == b.displayOn) =
      workDone (b.toVideo.write r x).mode (b.toVideo.write r x).dot
    obtain ⟨hon, hm, hd⟩ | ⟨hon, hd⟩ := write_place b.toVideo r x
    · rw [hm, hd, hon, ← h.worked_eq (hon ▸ hon')]
      simp
    · rw [hd, hon, workDone_zero]
      simp

theorem InStep.apply (h : InStep b) (e : Event) : InStep (b.apply e) := by
  cases e with
  | tick => exact h.tick
  | write r x => exact h.write r x
  | memories | acknowledge => exact ⟨h.onSchedule.congr rfl rfl rfl rfl rfl, h.worked_eq⟩

theorem InStep.run (h : InStep b) (es : List Event) : InStep (b.run es) := by
  induction es generalizing b with
  | nil => exact h
  | cons e es ih => exact ih (h.apply e)

/-- **A history** does to a unit in step what it does to the unit without buffers. -/
theorem run_toVideo (h : InStep b) (es : List Event) :
    (b.run es).toVideo = Video.run b.toVideo es := by
  induction es generalizing b with
  | nil => rfl
  | cons e es ih =>
    rw [run_cons, ← apply_toVideo h e]
    exact ih (h.apply e)

/-! ### What a tick does to the picture -/

/-- A dot that neither selects sprites nor draws: whatever a line is drawn from stays, and so does
all that has been drawn. The row of the window goes on or back only in vertical blank. -/
def Idle (b c : Buffered) : Prop :=
  ∃ mode line dot coincidence windowLine frameReady frames worked,
    (b.line < 144 → windowLine = b.windowLine) ∧
      c = { b with mode, line, dot, coincidence, windowLine, frameReady, frames, worked }

/-- **A tick** selects sprites on the first dot of a line, draws the line on the first dot after the
object scan, and is idle otherwise. -/
theorem tick_cases (h : InStep b) (hon : b.displayOn = true) :
    b.line < 144 ∧ b.dot = 0 ∧ b.tick = { b.nextDot.onVideo scanObjects with worked := true } ∨
      b.line < 144 ∧ b.dot = 80 ∧ b.tick = { b.nextDot.drawLine with worked := true } ∨
      (b.line < 144 → b.dot ≠ 0 ∧ b.dot ≠ 80) ∧ Idle b b.tick := by
  have hspan := h.onSchedule.spans hon
  have hw := h.worked_eq hon
  rw [tick_of_on hon]
  cases hm : b.mode with
  | objectScan =>
    rw [hm] at hspan hw
    obtain ⟨h0, he⟩ | ⟨h0, hlt, he⟩ | ⟨hend, he⟩ := tickScan_cases hspan.2 hw
    · exact .inl ⟨hspan.1, h0, he⟩
    · refine .inr (.inr ⟨fun _ => ⟨h0, Nat.ne_of_lt hspan.2⟩, ?_⟩)
      exact ⟨_, _, _, _, _, _, _, _, fun _ => rfl, he⟩
    · refine .inr (.inr ⟨fun _ => ⟨by omega, Nat.ne_of_lt hspan.2⟩, ?_⟩)
      exact ⟨_, _, _, _, _, _, _, _, fun _ => rfl, he⟩
  | transfer =>
    rw [hm] at hspan hw
    obtain ⟨hl, h80, hd⟩ := hspan
    obtain ⟨h0, he⟩ | ⟨h0, hlt, he⟩ | ⟨hend, he⟩ := tickTransfer_cases h80 hd hw
    · exact .inr (.inl ⟨hl, h0, he⟩)
    · refine .inr (.inr ⟨fun _ => ⟨by omega, Nat.ne_of_gt h0⟩, ?_⟩)
      exact ⟨_, _, _, _, _, _, _, _, fun _ => rfl, he⟩
    · refine .inr (.inr ⟨fun _ => by omega, ?_⟩)
      exact ⟨_, _, _, _, _, _, _, _, fun _ => rfl, he⟩
  | hblank =>
    rw [hm] at hspan
    obtain ⟨hl, h252, hd⟩ := hspan
    refine .inr (.inr ⟨fun _ => by omega, ?_⟩)
    obtain ⟨-, he⟩ | ⟨-, -, he⟩ | ⟨-, -, he⟩ := tickHBlank_cases b <;>
      exact ⟨_, _, _, _, _, _, _, _, fun _ => rfl, he⟩
  | vblank =>
    rw [hm] at hspan
    have hlit : ¬b.line < 144 := Nat.not_lt.2 hspan.1
    refine .inr (.inr ⟨fun hl => absurd hl hlit, ?_⟩)
    obtain ⟨-, he⟩ | ⟨-, -, he⟩ | ⟨-, -, he⟩ := tickVBlank_cases b <;>
      exact ⟨_, _, _, _, _, _, _, _, fun hl => absurd hl hlit, he⟩

end Buffered

end DotMatrix.Video
