import DotMatrix.Video.Clock
import Mathlib.Logic.ExistsUnique

/-!
# The schedule of the video unit

The unit keeps its place in three fields: mode, line and dot. Ticks move all three, and the control
register may stop and restart the unit between any two ticks. This file shows that the three always
agree.

* `Mode.Spans`: the lines and dots that belong to a mode;
* `OnSchedule`: a unit that is switched on is in the mode its line and dot belong to, and one that
  is switched off waits at the beginning of line 0;
* `Reachable`: what ticks, register writes and changes of the two memories make of the unit;
* `Reachable.onSchedule`: every reachable unit is on schedule.
-/

namespace DotMatrix.Video

/-! ### Places and modes -/

/-- The lines and dots that belong to a mode. -/
def Mode.Spans : Mode → (line dot : Nat) → Prop
  | .objectScan, line, dot => line < 144 ∧ dot < 80
  | .transfer, line, dot => line < 144 ∧ 80 ≤ dot ∧ dot < 252
  | .hblank, line, dot => line < 144 ∧ 252 ≤ dot ∧ dot < 456
  | .vblank, line, dot => 144 ≤ line ∧ line < 154 ∧ dot < 456

instance : (m : Mode) → (line dot : Nat) → Decidable (m.Spans line dot)
  | .objectScan, _, _ => inferInstanceAs (Decidable (_ ∧ _))
  | .transfer, _, _ => inferInstanceAs (Decidable (_ ∧ _))
  | .hblank, _, _ => inferInstanceAs (Decidable (_ ∧ _))
  | .vblank, _, _ => inferInstanceAs (Decidable (_ ∧ _))

theorem Mode.Spans.line_lt {m : Mode} {line dot : Nat} (h : m.Spans line dot) : line < 154 := by
  cases m <;> simp only [Mode.Spans] at h <;> omega

theorem Mode.Spans.dot_lt {m : Mode} {line dot : Nat} (h : m.Spans line dot) : dot < 456 := by
  cases m <;> simp only [Mode.Spans] at h <;> omega

/-- The place of a unit that is switched off. -/
structure AtRest (v : Video) : Prop where
  mode_eq : v.mode = .hblank
  line_eq : v.line = 0
  dot_eq : v.dot = 0
  windowLine_eq : v.windowLine = 0

/-- Mode, line and dot agree. -/
structure OnSchedule (v : Video) : Prop where
  spans : v.displayOn = true → v.mode.Spans v.line v.dot
  atRest : v.displayOn = false → v.AtRest

theorem powerOn_onSchedule : OnSchedule powerOn where
  spans _ := by decide
  atRest h := absurd h (by decide)

/-! ### Ticks

`Advances` says all that a tick does to place, signals and frame count; there is one lemma for each
mode the tick may begin in. -/

variable (v : Video)

/-- The registers that a program writes and the two memories are no business of a tick. -/
structure SameInputs (v w : Video) : Prop where
  ram_eq : w.ram = v.ram
  objects_eq : w.objects = v.objects
  control_eq : w.control = v.control
  statusSelect_eq : w.statusSelect = v.statusSelect
  lineCompare_eq : w.lineCompare = v.lineCompare

theorem SameInputs.displayOn_eq {v w : Video} (h : SameInputs v w) : w.displayOn = v.displayOn := by
  rw [displayOn, displayOn, h.control_eq]

theorem SameInputs.trans {u v w : Video} (h : SameInputs u v) (h' : SameInputs v w) :
    SameInputs u w :=
  ⟨h'.ram_eq.trans h.ram_eq, h'.objects_eq.trans h.objects_eq, h'.control_eq.trans h.control_eq,
    h'.statusSelect_eq.trans h.statusSelect_eq, h'.lineCompare_eq.trans h.lineCompare_eq⟩

/-- The unit one dot further, before the dot has had its effect. -/
def nextDot : Video := { v with dot := v.dot + 1 }

/-- The place after one more dot. -/
def nextPlace (line dot : Nat) : Nat × Nat :=
  if dot + 1 < lineDots then (line, dot + 1)
  else if line + 1 < frameLines then (line + 1, 0)
  else (0, 0)

/-- Is the status interrupt due on arrival at a place? -/
def statusDue (line dot : Nat) : Bool :=
  (v.selectsHBlank && decide (line < 144 ∧ dot = 252)) ||
    (v.selectsVBlank && decide (line = 144 ∧ dot = 0)) ||
    (v.selectsScan && decide (line < 144 ∧ dot = 0)) ||
    (v.selectsCoincidence && decide (line = v.lineCompare.toNat ∧ dot = 0))

/-- The unit has moved on by one dot and given the signals due there. -/
structure Advances (v w : Video) (s : Signals) : Prop where
  inputs : SameInputs v w
  place : (w.line, w.dot) = nextPlace v.line v.dot
  spans : w.mode.Spans w.line w.dot
  vblank : s.vblank = decide (w.line = 144 ∧ w.dot = 0)
  status : s.status = v.statusDue w.line w.dot
  ready : w.frameReady = (v.frameReady || decide (w.line = 144 ∧ w.dot = 0))
  frames : w.frames = v.frames + if w.line = 0 ∧ w.dot = 0 then 1 else 0

theorem drawLine_eq : ∃ picture windowLine, v.drawLine = { v with picture, windowLine } := by
  unfold drawLine
  split
  · exact ⟨_, _, rfl⟩
  · exact ⟨_, _, rfl⟩

variable {v : Video}

/-- A tick within a line. Only the end of a transfer is signalled. -/
theorem advances_within {w : Video} {s : Signals} (hi : SameInputs v w) (hl : w.line = v.line)
    (hd : w.dot = v.dot + 1) (hm : w.mode.Spans w.line w.dot) (hv : s.vblank = false)
    (hs : s.status = (v.selectsHBlank && decide (v.line < 144 ∧ v.dot + 1 = 252)))
    (hr : w.frameReady = v.frameReady) (hf : w.frames = v.frames) : Advances v w s where
  inputs := hi
  place := by
    have := hm.dot_lt
    rw [nextPlace, if_pos (show v.dot + 1 < lineDots by unfold lineDots; omega), hl, hd]
  spans := hm
  vblank := by simp [hv, hd]
  status := by simp [hs, statusDue, hl, hd]
  ready := by simp [hr, hd]
  frames := by simp [hf, hd]

theorem tickScan_of_lt (h : v.dot < scanDots) :
    v.tickScan = (if v.dot = 1 then v.scanObjects else v, {}) := by
  unfold tickScan
  split
  · exact if_neg (by simpa [scanObjects] using h)
  · exact if_neg (by simpa using h)

theorem tickScan_of_le (h : scanDots ≤ v.dot) : v.tickScan = ({ v with mode := .transfer }, {}) := by
  have h1 : v.dot ≠ 1 := by unfold scanDots at h; omega
  simp [tickScan, h1, h]

theorem tickTransfer_of_lt (h : v.dot < transferEnd) :
    v.tickTransfer = (if v.dot = scanDots + 1 then v.drawLine else v, {}) := by
  unfold tickTransfer
  split
  · obtain ⟨picture, windowLine, hd⟩ := v.drawLine_eq
    rw [hd]
    exact if_neg (by simpa using h)
  · exact if_neg (by simpa using h)

theorem tickTransfer_of_le (h : transferEnd ≤ v.dot) :
    v.tickTransfer = ({ v with mode := .hblank }, { status := v.selectsHBlank }) := by
  have h1 : v.dot ≠ scanDots + 1 := by unfold transferEnd scanDots at *; omega
  simp [tickTransfer, h1, h]

theorem tickHBlank_of_lt (h : v.dot < lineDots) : v.tickHBlank = (v, {}) :=
  if_neg (Nat.not_le.2 h)

theorem tickVBlank_of_lt (h : v.dot < lineDots) : v.tickVBlank = ({ v with windowLine := 0 }, {}) :=
  if_neg (Nat.not_le.2 h)

/-- The unit at the beginning of a line, compared anew with the line that the program asked for. -/
def startLine (v : Video) (line : Nat) : Video := compareLine { v with dot := 0, line }

theorem tickHBlank_of_shown (h : lineDots ≤ v.dot + 1) (hl : v.line + 1 < screenHeight) :
    v.nextDot.tickHBlank =
      ({ v.startLine (v.line + 1) with mode := .objectScan },
        { status := (v.startLine (v.line + 1)).coincidenceSignal || v.selectsScan }) :=
  (if_pos h).trans (if_neg (Nat.not_le.2 hl))

theorem tickHBlank_of_last (h : lineDots ≤ v.dot + 1) (hl : screenHeight ≤ v.line + 1) :
    v.nextDot.tickHBlank =
      ({ v.startLine (v.line + 1) with mode := .vblank, frameReady := true },
        { vblank := true
          status := (v.startLine (v.line + 1)).coincidenceSignal || v.selectsVBlank }) :=
  (if_pos h).trans (if_pos hl)

theorem tickVBlank_of_blank (h : lineDots ≤ v.dot + 1) (hl : v.line + 1 < frameLines) :
    v.nextDot.tickVBlank =
      (startLine { v with windowLine := 0 } (v.line + 1),
        { status := (v.startLine (v.line + 1)).coincidenceSignal }) :=
  (if_pos h).trans (if_neg (Nat.not_le.2 hl))

theorem tickVBlank_of_last (h : lineDots ≤ v.dot + 1) (hl : frameLines ≤ v.line + 1) :
    v.nextDot.tickVBlank =
      (startLine { v with windowLine := 0, frames := v.frames + 1, mode := .objectScan } 0,
        { status := v.selectsScan || (v.startLine 0).coincidenceSignal }) :=
  (if_pos h).trans (if_pos hl)

theorem coincidenceSignal_startLine (line : Nat) :
    (v.startLine line).coincidenceSignal =
      (v.selectsCoincidence && decide (line = v.lineCompare.toNat)) := by
  rw [Bool.and_comm]
  rfl

theorem tickScan_advances (hm : v.mode = .objectScan) (hl : v.line < 144) (hd : v.dot < 80) :
    Advances v v.nextDot.tickScan.1 v.nextDot.tickScan.2 := by
  have h252 : v.dot + 1 ≠ 252 := by omega
  rcases Nat.lt_or_ge (v.dot + 1) scanDots with h | h
  · rw [tickScan_of_lt h]
    have hspan : Mode.objectScan.Spans v.line (v.dot + 1) := ⟨hl, h⟩
    split
    · exact advances_within ⟨rfl, rfl, rfl, rfl, rfl⟩ rfl rfl (hm ▸ hspan) rfl
        (by simp [h252]) rfl rfl
    · exact advances_within ⟨rfl, rfl, rfl, rfl, rfl⟩ rfl rfl (hm ▸ hspan) rfl
        (by simp [h252]) rfl rfl
  · rw [tickScan_of_le h]
    have hspan : Mode.transfer.Spans v.line (v.dot + 1) := ⟨hl, h, by omega⟩
    exact advances_within ⟨rfl, rfl, rfl, rfl, rfl⟩ rfl rfl hspan rfl (by simp [h252]) rfl rfl

theorem tickTransfer_advances (hm : v.mode = .transfer) (hl : v.line < 144) (h80 : 80 ≤ v.dot)
    (hd : v.dot < 252) :
    Advances v v.nextDot.tickTransfer.1 v.nextDot.tickTransfer.2 := by
  rcases Nat.lt_or_ge (v.dot + 1) transferEnd with h | h
  · rw [tickTransfer_of_lt h]
    have h252 : v.dot + 1 ≠ 252 := Nat.ne_of_lt h
    have hspan : Mode.transfer.Spans v.line (v.dot + 1) := ⟨hl, by omega, h⟩
    split
    · obtain ⟨picture, windowLine, he⟩ := v.nextDot.drawLine_eq
      rw [he]
      exact advances_within ⟨rfl, rfl, rfl, rfl, rfl⟩ rfl rfl (hm ▸ hspan) rfl
        (by simp [h252]) rfl rfl
    · exact advances_within ⟨rfl, rfl, rfl, rfl, rfl⟩ rfl rfl (hm ▸ hspan) rfl
        (by simp [h252]) rfl rfl
  · rw [tickTransfer_of_le h]
    have h252 : v.dot + 1 = 252 := Nat.le_antisymm hd h
    have hspan : Mode.hblank.Spans v.line (v.dot + 1) := ⟨hl, h, by omega⟩
    exact advances_within ⟨rfl, rfl, rfl, rfl, rfl⟩ rfl rfl hspan rfl
      (by simp [nextDot, selectsHBlank, hl, h252]) rfl rfl

/-- A tick that ends a line, the last line of the frame apart. -/
theorem advances_newLine {w : Video} {s : Signals} (hi : SameInputs v w) (hend : v.dot + 1 = 456)
    (hl : w.line = v.line + 1) (hd : w.dot = 0) (hm : w.mode.Spans w.line w.dot)
    (hv : s.vblank = decide (v.line + 1 = 144)) (hs : s.status = v.statusDue (v.line + 1) 0)
    (hr : w.frameReady = (v.frameReady || decide (v.line + 1 = 144))) (hf : w.frames = v.frames) :
    Advances v w s where
  inputs := hi
  place := by
    have := hm.line_lt
    rw [nextPlace, if_neg (show ¬v.dot + 1 < lineDots by unfold lineDots; omega),
      if_pos (show v.line + 1 < frameLines by unfold frameLines; omega), hl, hd]
  spans := hm
  vblank := by simp [hv, hl, hd]
  status := by rw [hs, hl, hd]
  ready := by simp [hr, hl, hd]
  frames := by simp [hf, hl]

theorem statusDue_zero (line : Nat) :
    v.statusDue line 0 =
      ((v.selectsVBlank && decide (line = 144)) || (v.selectsScan && decide (line < 144)) ||
        (v.selectsCoincidence && decide (line = v.lineCompare.toNat))) := by
  simp [statusDue]

theorem tickHBlank_advances (hm : v.mode = .hblank) (hl : v.line < 144) (h252 : 252 ≤ v.dot)
    (hd : v.dot < 456) :
    Advances v v.nextDot.tickHBlank.1 v.nextDot.tickHBlank.2 := by
  rcases Nat.lt_or_ge (v.dot + 1) lineDots with h | h
  · rw [tickHBlank_of_lt h]
    have hspan : Mode.hblank.Spans v.line (v.dot + 1) := ⟨hl, by omega, h⟩
    have hne : v.dot + 1 ≠ 252 := by omega
    exact advances_within ⟨rfl, rfl, rfl, rfl, rfl⟩ rfl rfl (hm ▸ hspan) rfl (by simp [hne]) rfl rfl
  have hend : v.dot + 1 = 456 := Nat.le_antisymm hd h
  rcases Nat.lt_or_ge (v.line + 1) screenHeight with hv | hv
  · rw [tickHBlank_of_shown h hv]
    have hlit : v.line + 1 < 144 := hv
    have hne : v.line + 1 ≠ 144 := Nat.ne_of_lt hv
    have hspan : Mode.objectScan.Spans (v.line + 1) 0 := ⟨hv, by decide⟩
    refine advances_newLine ⟨rfl, rfl, rfl, rfl, rfl⟩ hend rfl rfl hspan ?_ ?_ ?_ rfl
    · simp [hne]
    · -- The comparison comes before the change of mode here, and after it in vertical blank.
      rw [coincidenceSignal_startLine, statusDue_zero, Bool.or_comm]
      simp [hne, hlit]
    · simp [startLine, compareLine, hne]
  · rw [tickHBlank_of_last h hv]
    have h144 : v.line + 1 = 144 := Nat.le_antisymm hl hv
    have hspan : Mode.vblank.Spans (v.line + 1) 0 := by simp only [Mode.Spans]; omega
    refine advances_newLine ⟨rfl, rfl, rfl, rfl, rfl⟩ hend rfl rfl hspan ?_ ?_ ?_ rfl
    · simp [h144]
    · rw [coincidenceSignal_startLine, statusDue_zero, Bool.or_comm]
      simp [h144]
    · simp [h144]

theorem tickVBlank_advances (hm : v.mode = .vblank) (h144 : 144 ≤ v.line) (hl : v.line < 154)
    (hd : v.dot < 456) :
    Advances v v.nextDot.tickVBlank.1 v.nextDot.tickVBlank.2 := by
  have hlit : ¬v.line < 144 := Nat.not_lt.2 h144
  rcases Nat.lt_or_ge (v.dot + 1) lineDots with h | h
  · rw [tickVBlank_of_lt h]
    have hspan : Mode.vblank.Spans v.line (v.dot + 1) := ⟨h144, hl, h⟩
    exact advances_within ⟨rfl, rfl, rfl, rfl, rfl⟩ rfl rfl (hm ▸ hspan) rfl (by simp [hlit]) rfl rfl
  have hend : v.dot + 1 = 456 := Nat.le_antisymm hd h
  rcases Nat.lt_or_ge (v.line + 1) frameLines with hv | hv
  · rw [tickVBlank_of_blank h hv]
    have hne : v.line + 1 ≠ 144 := by omega
    have hlit' : ¬v.line + 1 < 144 := by omega
    have hspan : Mode.vblank.Spans (v.line + 1) 0 := ⟨by omega, hv, by decide⟩
    refine advances_newLine ⟨rfl, rfl, rfl, rfl, rfl⟩ hend rfl rfl (hm ▸ hspan) ?_ ?_ ?_ rfl
    · simp [hne]
    · rw [coincidenceSignal_startLine, statusDue_zero]
      simp [hne, hlit']
    · simp [startLine, compareLine, hne]
  · -- The frame begins again at line 0, which a new line in general does not lead to.
    rw [tickVBlank_of_last h hv]
    have hlast : ¬v.line + 1 < 154 := Nat.not_lt.2 hv
    constructor
    case inputs => exact ⟨rfl, rfl, rfl, rfl, rfl⟩
    case place => simp [startLine, compareLine, nextPlace, lineDots, frameLines, hend, hlast]
    case spans => exact (by decide : Mode.objectScan.Spans 0 0)
    case vblank => simp [startLine, compareLine]
    case status =>
      rw [coincidenceSignal_startLine]
      show _ = v.statusDue 0 0
      rw [statusDue_zero]
      simp
    case ready => simp [startLine, compareLine]
    case frames => simp [startLine, compareLine]

theorem tick_of_on (hon : v.displayOn = true) :
    v.tick =
      match v.mode with
      | .objectScan => v.nextDot.tickScan
      | .transfer => v.nextDot.tickTransfer
      | .hblank => v.nextDot.tickHBlank
      | .vblank => v.nextDot.tickVBlank :=
  if_pos hon

theorem tick_of_off (hoff : v.displayOn = false) : v.tick = (v, {}) := by
  simp [tick, hoff]

/-- What a tick does to a unit that is switched on. -/
theorem tick_advances (hon : v.displayOn = true) (h : v.mode.Spans v.line v.dot) :
    Advances v v.tick.1 v.tick.2 := by
  rw [tick_of_on hon]
  cases hm : v.mode with
  | objectScan =>
    obtain ⟨hl, hd⟩ : v.line < 144 ∧ v.dot < 80 := by rwa [hm] at h
    exact tickScan_advances hm hl hd
  | transfer =>
    obtain ⟨hl, h80, hd⟩ : v.line < 144 ∧ 80 ≤ v.dot ∧ v.dot < 252 := by rwa [hm] at h
    exact tickTransfer_advances hm hl h80 hd
  | hblank =>
    obtain ⟨hl, h252, hd⟩ : v.line < 144 ∧ 252 ≤ v.dot ∧ v.dot < 456 := by rwa [hm] at h
    exact tickHBlank_advances hm hl h252 hd
  | vblank =>
    obtain ⟨h144, hl, hd⟩ : 144 ≤ v.line ∧ v.line < 154 ∧ v.dot < 456 := by rwa [hm] at h
    exact tickVBlank_advances hm h144 hl hd

theorem OnSchedule.tick (h : OnSchedule v) : OnSchedule v.tick.1 := by
  cases hon : v.displayOn with
  | false => rwa [tick_of_off hon]
  | true =>
    have ha := tick_advances hon (h.spans hon)
    have hon' : v.tick.1.displayOn = true := ha.inputs.displayOn_eq.trans hon
    exact ⟨fun _ => ha.spans, fun hoff => absurd hon' (by simp [hoff])⟩

/-! ### Everything else that changes a unit -/

/-- What writing the control register may do: stop the unit, start it, or leave its place alone. -/
theorem writeControl_cases (v : Video) (b : UInt8) :
    (v.displayOn = true ∧ Byte.bit b 7 = false ∧
      v.writeControl b =
        { v with control := b, mode := .hblank, dot := 0, windowLine := 0, line := 0 }) ∨
    (v.displayOn = false ∧ Byte.bit b 7 = true ∧
      v.writeControl b = { v with control := b, mode := .objectScan, dot := 0 }) ∨
    (v.displayOn = Byte.bit b 7 ∧ v.writeControl b = { v with control := b }) := by
  have hb : displayOn { v with control := b } = Byte.bit b 7 := rfl
  cases hwas : v.displayOn <;> cases hnow : Byte.bit b 7
  · exact .inr (.inr ⟨rfl, by simp [writeControl, hwas, hb, hnow]⟩)
  · exact .inr (.inl ⟨rfl, rfl, by simp [writeControl, hwas, hb, hnow]⟩)
  · exact .inl ⟨rfl, rfl, by simp [writeControl, hwas, hb, hnow]⟩
  · exact .inr (.inr ⟨rfl, by simp [writeControl, hwas, hb, hnow]⟩)

theorem OnSchedule.writeControl (h : OnSchedule v) (b : UInt8) : OnSchedule (v.writeControl b) := by
  obtain ⟨-, hb, he⟩ | ⟨hoff, hb, he⟩ | ⟨hsame, he⟩ := writeControl_cases v b <;> rw [he]
  · exact ⟨fun hon => absurd hon (by simp [displayOn, hb]), fun _ => ⟨rfl, rfl, rfl, rfl⟩⟩
  · refine ⟨fun _ => ?_, fun hoff' => absurd hoff' (by simp [displayOn, hb])⟩
    have hline := (h.atRest hoff).line_eq
    simp [Mode.Spans, hline]
  · have hon : displayOn { v with control := b } = v.displayOn := hsame.symm
    refine ⟨fun hb => h.spans (hon ▸ hb), fun hb => ?_⟩
    have hrest := h.atRest (hon ▸ hb)
    exact ⟨hrest.1, hrest.2, hrest.3, hrest.4⟩

/-- A change that the schedule does not speak of. -/
theorem OnSchedule.congr {w : Video} (h : OnSchedule v) (hc : w.control = v.control)
    (hm : w.mode = v.mode) (hl : w.line = v.line) (hd : w.dot = v.dot)
    (hw : w.windowLine = v.windowLine) : OnSchedule w := by
  have hon : w.displayOn = v.displayOn := by rw [displayOn, displayOn, hc]
  refine ⟨fun hb => ?_, fun hb => ?_⟩
  · rw [hm, hl, hd]
    exact h.spans (hon ▸ hb)
  · have hrest := h.atRest (hon ▸ hb)
    exact ⟨hm.trans hrest.1, hl.trans hrest.2, hd.trans hrest.3, hw.trans hrest.4⟩

theorem OnSchedule.write (h : OnSchedule v) (r : Register) (b : UInt8) :
    OnSchedule (v.write r b) := by
  cases r
  case control => exact h.writeControl b
  all_goals exact h.congr rfl rfl rfl rfl rfl

/-! ### Reachable units -/

/-- What becomes of the unit by ticks, register writes, changes of the two memories and
acknowledgements of frames, in any order. -/
inductive Reachable : Video → Prop
  | powerOn : Reachable powerOn
  | tick {v : Video} : Reachable v → Reachable v.tick.1
  | write {v : Video} (r : Register) (b : UInt8) : Reachable v → Reachable (v.write r b)
  | memories {v : Video} (ram : Memory 0x2000) (objects : Memory 160) :
      Reachable v → Reachable { v with ram, objects }
  | acknowledge {v : Video} : Reachable v → Reachable v.clearFrameReady

theorem Reachable.onSchedule (h : Reachable v) : OnSchedule v := by
  induction h with
  | powerOn => exact powerOn_onSchedule
  | tick _ ih => exact ih.tick
  | write r b _ ih => exact ih.write r b
  | memories ram objects _ ih => exact ih.congr rfl rfl rfl rfl rfl
  | acknowledge _ ih => exact ih.congr rfl rfl rfl rfl rfl

/-- **Mode, line and dot never disagree.** A reachable unit that is switched on is in exactly one
mode that spans its line and dot; one that is switched off rests at the beginning of line 0. -/
theorem exactly_one_mode_spans (h : Reachable v) :
    (v.displayOn = true → ∃! m : Mode, v.mode = m ∧ m.Spans v.line v.dot) ∧
      (v.displayOn = false → v.mode = .hblank ∧ v.line = 0 ∧ v.dot = 0 ∧ v.windowLine = 0) := by
  refine ⟨fun hon => ?_, fun hoff => ?_⟩
  · exact ⟨v.mode, ⟨rfl, h.onSchedule.spans hon⟩, fun m hm => hm.1.symm⟩
  · obtain ⟨hm, hl, hd, hw⟩ := h.onSchedule.atRest hoff
    exact ⟨hm, hl, hd, hw⟩

/-- The display is switched off in the middle of line 145 and on again. -/
theorem one_mode_spans_after_restart :
    ∃! m : Mode, ((powerOn.write .control 0x11).write .control 0x91).mode = m ∧
      m.Spans ((powerOn.write .control 0x11).write .control 0x91).line
        ((powerOn.write .control 0x11).write .control 0x91).dot :=
  (exactly_one_mode_spans (.write .control 0x91 (.write .control 0x11 .powerOn))).1 rfl

end DotMatrix.Video
