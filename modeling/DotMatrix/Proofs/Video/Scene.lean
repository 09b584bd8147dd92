import DotMatrix.Proofs.Video.Lines

/-!
# The picture of a scene

Sprites that were selected, the height they were selected with, the marks and the whole picture stay
in the unit from line to line and from frame to frame. None of them shows through: each is set anew
before it is used. So a frame is a function of what the program has put into the two memories and
the registers.

* `Scene`: what a frame is drawn from; `Scene.picture`: the picture that it makes;
* `Draws`: the unit has drawn the lines of a scene as far as it has come;
* `Draws.tick`: so it has after one more dot;
* `picture_of_scene`: frames that begin with the same scene end with the same picture.
-/

namespace DotMatrix.Video

/-- What a frame is drawn from. -/
structure Scene where
  ram : Memory 0x2000
  objects : Memory 160
  control : UInt8
  scrollY : UInt8
  scrollX : UInt8
  backgroundPalette : UInt8
  objectPalette0 : UInt8
  objectPalette1 : UInt8
  windowY : UInt8
  windowX : UInt8

/-- The scene before the unit. -/
def scene (v : Video) : Scene :=
  ⟨v.ram, v.objects, v.control, v.scrollY, v.scrollX, v.backgroundPalette, v.objectPalette0,
    v.objectPalette1, v.windowY, v.windowX⟩

/-- What the shades of a line are worked out from. -/
structure SameLine (v w : Video) : Prop where
  scene_eq : v.scene = w.scene
  line_eq : v.line = w.line
  windowLine_eq : v.windowLine = w.windowLine
  sprites_eq : v.sprites = w.sprites
  tallSprites_eq : v.tallSprites = w.tallSprites

theorem SameLine.lineRow_eq {v w : Video} (h : SameLine v w) : v.lineRow = w.lineRow := by
  obtain ⟨hs, hl, hw, hsp, ht⟩ := h
  cases v
  cases w
  simp only [scene, Scene.mk.injEq] at hs hl hw hsp ht
  obtain ⟨rfl, rfl, rfl, rfl, rfl, rfl, rfl, rfl, rfl, rfl⟩ := hs
  subst hl hw hsp ht
  rfl

theorem drawsWindow_eq {v w : Video} (hs : v.scene = w.scene) (hl : v.line = w.line) :
    v.drawsWindow = w.drawsWindow := by
  cases v
  cases w
  simp only [scene, Scene.mk.injEq] at hs hl
  obtain ⟨rfl, rfl, rfl, rfl, rfl, rfl, rfl, rfl, rfl, rfl⟩ := hs
  subst hl
  rfl

/-! ### The picture -/

namespace Scene

variable (s : Scene)

/-- A unit with the scene before it that has selected the sprites of a line. -/
def scanned (line : Nat) (windowLine : UInt8) : Video :=
  scanObjects
    { powerOn with
      ram := s.ram, objects := s.objects, control := s.control
      scrollY := s.scrollY, scrollX := s.scrollX
      backgroundPalette := s.backgroundPalette
      objectPalette0 := s.objectPalette0, objectPalette1 := s.objectPalette1
      windowY := s.windowY, windowX := s.windowX
      line, windowLine }

/-- The row of the window that line `y` shows, if it shows one: the window goes on by a row on every
line that shows it. -/
def windowRow : Nat → UInt8
  | 0 => 0
  | y + 1 => if (s.scanned y 0).drawsWindow then windowRow y + 1 else windowRow y

/-- The shades of a line. -/
def row (y : Nat) : Row := (s.scanned y (s.windowRow y)).lineRow

/-- The picture that the scene makes. -/
def picture : Picture := Vector.ofFn fun y => s.row y

@[simp] theorem scanned_scene (line : Nat) (windowLine : UInt8) :
    (s.scanned line windowLine).scene = s := rfl

end Scene

/-! ### Drawing it -/

namespace Buffered

variable {b : Buffered} {s : Scene}

/-- The unit has drawn the scene as far as it has come since the beginning of the frame: it has the
rows, the row of the window is the one that comes next, and the sprites are those of the line while
they wait to be drawn. -/
structure Draws (s : Scene) (b : Buffered) : Prop where
  scene_eq : b.scene = s
  rows : ∀ (y : Nat) (hy : y < 144), y < linesDrawn b.phase → b.picture[y] = s.row y
  windowLine_eq : b.phase < blankPhase → b.windowLine = s.windowRow (linesDrawn b.phase)
  sprites_eq : b.line < 144 → 0 < b.dot → b.dot ≤ 80 →
    b.sprites = (s.scanned b.line 0).sprites ∧ b.tallSprites = (s.scanned b.line 0).tallSprites

/-- A tick leaves the scene alone. -/
theorem tick_scene (h : InStep b) (hon : b.displayOn = true) : b.tick.scene = b.scene := by
  obtain ⟨-, -, he⟩ | ⟨hl, -, he⟩ | ⟨-, hidle⟩ := tick_cases h hon
  · rw [he]
    rfl
  · rw [he]
    show b.nextDot.drawLine.toVideo.scene = b.scene
    rw [drawLine_toVideo]
    obtain ⟨picture, windowLine, hd⟩ := b.nextDot.toVideo.drawLine_eq
    rw [hd]
    rfl
  · obtain ⟨_, _, _, _, _, _, _, _, -, he⟩ := hidle
    rw [he]
    rfl

theorem tick_phase_succ (h : InStep b) (hon : b.displayOn = true) (hp : b.phase < blankPhase) :
    b.tick.phase = b.phase + 1 := by
  have hlt : b.phase + 1 < frameDots := Nat.lt_of_le_of_lt hp (by decide)
  rw [tick_toVideo h, (tick_phase h.onSchedule hon).2, Nat.mod_eq_of_lt hlt]

/-- The line that is due is drawn as the scene has it. -/
theorem Draws.lineRow_eq (hd : Draws s b) (hl : b.line < 144) (h80 : b.dot = 80)
    (hw : b.windowLine = s.windowRow b.line) : b.lineRow = s.row b.line := by
  have hsprites := hd.sprites_eq hl (by omega) (by omega)
  have hsame : SameLine b.toVideo (s.scanned b.line (s.windowRow b.line)) :=
    ⟨hd.scene_eq, rfl, hw, hsprites.1, hsprites.2⟩
  exact hsame.lineRow_eq

theorem drawLine_windowLine (hl : b.line < 144) :
    b.drawLine.windowLine = if b.drawsWindow then b.windowLine + 1 else b.windowLine := by
  rw [drawLine, dif_pos hl]

/-- The dot that draws a line. -/
theorem Draws.draw (hd : Draws s b) (h : InStep b) (hon : b.displayOn = true)
    (hp : b.phase < blankPhase) (hl : b.line < 144) (h80 : b.dot = 80)
    (he : b.tick = { b.nextDot.drawLine with worked := true }) : Draws s b.tick := by
  have hdot : b.dot < 456 := by omega
  have hnow : linesDrawn b.phase = b.line := by rw [linesDrawn_phase hdot, if_neg (by omega)]
  have hnext : linesDrawn b.tick.phase = b.line + 1 := by
    rw [tick_phase_succ h hon hp, linesDrawn_phase_succ hdot, if_pos (by omega)]
  have hw : b.windowLine = s.windowRow b.line := hnow ▸ hd.windowLine_eq hp
  have hpicture : b.tick.picture = b.picture.set b.line (s.row b.line) := by
    rw [he, ← hd.lineRow_eq hl h80 hw]
    exact (b.nextDot.drawLine_drawing hl).1
  constructor
  case scene_eq => rw [tick_scene h hon, hd.scene_eq]
  case rows =>
    intro y hy hlt
    rw [hnext] at hlt
    by_cases hline : b.line = y
    · subst hline
      rw [hpicture, Vector.getElem_set_self]
    · rw [hpicture, Vector.getElem_set_ne hl hy hline]
      exact hd.rows y hy (by omega)
  case windowLine_eq =>
    intro _
    have hwindow : b.drawsWindow = (s.scanned b.line 0).drawsWindow :=
      drawsWindow_eq hd.scene_eq rfl
    rw [hnext, Scene.windowRow, ← hwindow, ← hw, he]
    exact drawLine_windowLine (b := b.nextDot) hl
  case sprites_eq =>
    intro _ _ hle
    have h81 := (tick_dot h hon).2 h80
    omega

/-- A dot that draws nothing. -/
theorem Draws.pass (hd : Draws s b) (h : InStep b) (hon : b.displayOn = true)
    (hp : b.phase < blankPhase) (h80 : b.dot ≠ 80) (hpicture : b.tick.picture = b.picture)
    (hwindow : b.tick.windowLine = b.windowLine)
    (hsprites : 0 < b.tick.dot → b.tick.dot ≤ 80 →
      b.tick.sprites = (s.scanned b.tick.line 0).sprites ∧
        b.tick.tallSprites = (s.scanned b.tick.line 0).tallSprites) : Draws s b.tick := by
  have hdot := (h.onSchedule.spans hon).dot_lt
  have hsame : linesDrawn b.tick.phase = linesDrawn b.phase := by
    rw [tick_phase_succ h hon hp, linesDrawn_phase_succ hdot, linesDrawn_phase hdot]
    exact if_congr (by omega) rfl rfl
  constructor
  case scene_eq => rw [tick_scene h hon, hd.scene_eq]
  case rows =>
    rw [hsame, hpicture]
    exact hd.rows
  case windowLine_eq =>
    intro _
    rw [hsame, hwindow]
    exact hd.windowLine_eq hp
  case sprites_eq => exact fun _ => hsprites

/-- **One dot more** of the scene. -/
theorem Draws.tick (hd : Draws s b) (h : InStep b) (hon : b.displayOn = true)
    (hp : b.phase < blankPhase) : Draws s b.tick := by
  have hspan := h.onSchedule.spans hon
  have hl := line_lt_of_phase_lt hspan.dot_lt hp
  obtain ⟨-, h0, he⟩ | ⟨-, h80, he⟩ | ⟨hne, hidle⟩ := tick_cases h hon
  · -- The sprites are selected anew, whatever was selected before.
    obtain rfl := hd.scene_eq
    refine hd.pass h hon hp (by omega) (by rw [he]; rfl) (by rw [he]; rfl) fun _ _ => ?_
    rw [he]
    exact ⟨rfl, rfl⟩
  · exact hd.draw h hon hp hl h80 he
  · obtain ⟨h0, h80⟩ := hne hl
    obtain ⟨_, _, _, _, _, _, _, _, hwindow, he⟩ := hidle
    refine hd.pass h hon hp h80 (by rw [he]) (by rw [he]; exact hwindow hl) fun hpos hle => ?_
    -- The line goes on, and its sprites are still waiting.
    obtain ⟨hline, hdot⟩ := tick_within h hon hpos
    have hsprites := hd.sprites_eq hl (Nat.pos_of_ne_zero h0) (by omega)
    rw [hline, ← hsprites.1, ← hsprites.2, he]
    exact ⟨rfl, rfl⟩

/-! ### A frame, and the next ones -/

/-- A frame begins: the unit is switched on, at the beginning of line 0, and the first row of the
window comes next. -/
structure BeginsFrame (b : Buffered) : Prop where
  displayOn : b.displayOn = true
  mode_eq : b.mode = .objectScan
  line_eq : b.line = 0
  dot_eq : b.dot = 0
  worked_eq : b.worked = false
  windowLine_eq : b.windowLine = 0

namespace BeginsFrame

variable (hb : b.BeginsFrame)
include hb

theorem phase_eq : b.phase = 0 := phase_eq_zero_iff.2 ⟨hb.line_eq, hb.dot_eq⟩

theorem inStep : InStep b := by
  constructor
  case onSchedule =>
    constructor
    · intro _
      rw [hb.mode_eq, hb.line_eq, hb.dot_eq]
      decide
    · intro hoff
      exact absurd (hoff.symm.trans hb.displayOn) Bool.false_ne_true
  case worked_eq =>
    intro _
    rw [hb.worked_eq, hb.dot_eq, workDone_zero]

/-- After any ticks up to vertical blank the scene is drawn as far as they have come. -/
theorem draws {n : Nat} (hn : n ≤ blankPhase) : Draws b.scene (b.run (List.replicate n .tick)) := by
  induction n with
  | zero =>
    have hnone : linesDrawn b.phase = 0 := by
      rw [hb.phase_eq]
      rfl
    constructor
    case scene_eq => rfl
    case rows => exact fun y _ hlt => absurd (hnone ▸ hlt) (Nat.not_lt_zero y)
    case windowLine_eq =>
      intro _
      show b.windowLine = b.scene.windowRow (linesDrawn b.phase)
      rw [hnone, hb.windowLine_eq]
      rfl
    case sprites_eq => exact fun _ hpos _ => absurd hb.dot_eq (Nat.ne_of_gt hpos)
  | succ n ih =>
    have hle := Nat.le_of_succ_le hn
    obtain ⟨hin, hon, hphase⟩ := run_ticks_from_top hb.inStep hb.displayOn hb.phase_eq hle
    rw [List.replicate_succ', run_concat]
    exact (ih hle).tick hin hon (hphase.symm ▸ hn)

/-- When vertical blank begins, the picture is that of the scene. -/
theorem run_picture : (b.run (List.replicate blankPhase .tick)).picture = b.scene.picture := by
  obtain ⟨-, -, hphase⟩ :=
    run_ticks_from_top hb.inStep hb.displayOn hb.phase_eq (Nat.le_refl blankPhase)
  have hall : linesDrawn (b.run (List.replicate blankPhase .tick)).phase = 144 := by
    rw [hphase]
    rfl
  ext1 y hy
  rw [(hb.draws (Nat.le_refl _)).rows y hy (hall.symm ▸ hy), Scene.picture, Vector.getElem_ofFn]

end BeginsFrame

/-- Ticks go round the frame and leave the scene. -/
theorem run_ticks (h : InStep b) (hon : b.displayOn = true) (n : Nat) :
    (b.run (List.replicate n .tick)).displayOn = true ∧
      (b.run (List.replicate n .tick)).phase = (b.phase + n) % frameDots ∧
      (b.run (List.replicate n .tick)).scene = b.scene := by
  have hphase : ∀ n, (b.run (List.replicate n .tick)).displayOn = true ∧
      (b.run (List.replicate n .tick)).phase = (b.phase + n) % frameDots := by
    intro n
    have hrun := run_phase h.onSchedule hon (keepsOn_ticks (n := n))
    rwa [← run_toVideo h, ticks_replicate_tick] at hrun
  refine ⟨(hphase n).1, (hphase n).2, ?_⟩
  induction n with
  | zero => rfl
  | succ n ih =>
    rw [List.replicate_succ', run_concat, ← ih]
    exact tick_scene (h.run _) (hphase n).1

/-- In vertical blank the window goes back to its first row. -/
theorem tick_windowLine (hon : b.displayOn = true) (hm : b.mode = .vblank) :
    b.tick.windowLine = 0 := by
  rw [tick_of_on hon, hm]
  obtain ⟨-, he⟩ | ⟨-, -, he⟩ | ⟨-, -, he⟩ := tickVBlank_cases b <;> simp only [he] <;> rfl

namespace BeginsFrame

/-- **The next frame** begins with the same scene, if nothing is written. -/
theorem next (hb : b.BeginsFrame) : (b.run (List.replicate frameDots .tick)).BeginsFrame ∧
    (b.run (List.replicate frameDots .tick)).scene = b.scene := by
  obtain ⟨n, hn⟩ : ∃ n, n + 1 = frameDots := ⟨70223, rfl⟩
  rw [← hn]
  obtain ⟨hon, hphase, hscene⟩ := run_ticks hb.inStep hb.displayOn (n + 1)
  have hwhole : (0 + (n + 1)) % frameDots = 0 := by rw [Nat.zero_add, hn, Nat.mod_self]
  rw [hb.phase_eq, hwhole] at hphase
  obtain ⟨hline, hdot⟩ := phase_eq_zero_iff.1 hphase
  have hin := hb.inStep.run (List.replicate (n + 1) .tick)
  have hmode := mode_eq_modeAt (hin.onSchedule.spans hon)
  rw [hphase] at hmode
  refine ⟨⟨hon, hmode, hline, hdot, ?_, ?_⟩, hscene⟩
  · rw [hin.worked_eq hon, hdot, workDone_zero]
  · -- The last tick was one of vertical blank.
    obtain ⟨hon', hphase', -⟩ := run_ticks hb.inStep hb.displayOn n
    rw [hb.phase_eq, Nat.zero_add, Nat.mod_eq_of_lt (Nat.le_of_eq hn)] at hphase'
    have hspan := (hb.inStep.run (List.replicate n .tick)).onSchedule.spans hon'
    have hblank : blankPhase ≤ n := by
      unfold frameDots at hn
      unfold blankPhase screenHeight lineDots
      omega
    rw [List.replicate_succ', run_concat]
    refine tick_windowLine hon' ((mode_eq_vblank_iff hspan).2 ?_)
    rw [hphase']
    exact hblank

theorem iterate_next (hb : b.BeginsFrame) (k : Nat) :
    (b.run (List.replicate (k * frameDots) .tick)).BeginsFrame ∧
      (b.run (List.replicate (k * frameDots) .tick)).scene = b.scene := by
  induction k with
  | zero => exact ⟨by simpa [run] using hb, by simp [run]⟩
  | succ k ih =>
    obtain ⟨hk, hscene⟩ := ih
    rw [Nat.add_mul, Nat.one_mul, ← List.replicate_append_replicate, run_append]
    exact ⟨hk.next.1, hk.next.2.trans hscene⟩

end BeginsFrame

/-- **A frame depends on its scene only.** Let two units be at the beginning of a frame, with the
same scene and whatever pictures, sprites, marks and other registers. After the dots of the shown
lines their pictures are the same. So a unit whose scene is not written to makes the same picture in
every frame; and all this is said of the unit of `Video`, which has no flag and no marks. -/
theorem picture_of_scene {b c : Buffered} (hb : b.BeginsFrame) (hc : c.BeginsFrame)
    (hs : c.scene = b.scene) :
    (c.run (List.replicate (144 * 456) .tick)).picture =
        (b.run (List.replicate (144 * 456) .tick)).picture ∧
    (∀ k, (b.run (List.replicate (k * frameDots + 144 * 456) .tick)).picture =
        (b.run (List.replicate (144 * 456) .tick)).picture) ∧
    ∀ n, (b.run (List.replicate n .tick)).toVideo =
        Video.run b.toVideo (List.replicate n .tick) := by
  rw [show 144 * 456 = blankPhase from rfl]
  refine ⟨?_, fun k => ?_, fun n => run_toVideo hb.inStep _⟩
  · exact hc.run_picture.trans ((congrArg Scene.picture hs).trans hb.run_picture.symm)
  · obtain ⟨hk, hscene⟩ := hb.iterate_next k
    rw [← List.replicate_append_replicate, run_append]
    exact hk.run_picture.trans ((congrArg Scene.picture hscene).trans hb.run_picture.symm)

/-- The restarted unit with a black picture, with a sprite and marks left over, and with another
status register. -/
def leftover : Buffered :=
  { restarted with
    picture := .filled .black, sprites := [⟨8, 16, 1, 0x80⟩], tallSprites := true
    marks := Vector.replicate 160 true, statusSelect := 0x78 }

theorem leftover_does_not_show :
    (leftover.run (List.replicate (144 * 456) .tick)).picture =
      (restarted.run (List.replicate (144 * 456) .tick)).picture :=
  (picture_of_scene (b := restarted) (c := leftover) ⟨rfl, rfl, rfl, rfl, rfl, rfl⟩
    ⟨rfl, rfl, rfl, rfl, rfl, rfl⟩ rfl).1

end Buffered

end DotMatrix.Video
