import DotMatrix.Bus.Basic
import DotMatrix.Proofs.Interrupts.Ledger
import DotMatrix.Proofs.Video.Schedule

/-!
# The frame

While the display stays on and no register is written, the unit goes round a frame of 70224 dots.
Where it is then depends on nothing but the dots that have passed, and so does what it signals.

* `phase`: the dots from the beginning of the frame;
* `modeAt`: the mode at a phase;
* `runVideo_closed_form`: phase, mode, interrupts, completed frames and frame count after any
  number of dots.
-/

namespace DotMatrix

namespace Video

/-- Dots from the beginning of the frame. -/
def phase (v : Video) : Nat := lineDots * v.line + v.dot

/-- The phase at which vertical blank begins. -/
def blankPhase : Nat := screenHeight * lineDots

/-- The mode at a phase. -/
def modeAt (p : Nat) : Mode :=
  if blankPhase ≤ p then .vblank
  else if p % lineDots < scanDots then .objectScan
  else if p % lineDots < transferEnd then .transfer
  else .hblank

variable {v w : Video} {s : Signals}

theorem phase_div (hd : v.dot < 456) : v.phase / lineDots = v.line := by
  unfold phase lineDots
  omega

theorem phase_mod (hd : v.dot < 456) : v.phase % lineDots = v.dot := by
  unfold phase lineDots
  omega

theorem blankPhase_le_phase_iff (hd : v.dot < 456) : blankPhase ≤ v.phase ↔ 144 ≤ v.line := by
  unfold blankPhase screenHeight phase lineDots
  omega

/-- The mode is that of the phase. -/
theorem mode_eq_modeAt (h : v.mode.Spans v.line v.dot) : v.mode = modeAt v.phase := by
  have hd := h.dot_lt
  simp only [modeAt, blankPhase_le_phase_iff hd, phase_mod hd, scanDots, transferEnd]
  cases hm : v.mode <;> rw [hm] at h <;> simp only [Mode.Spans] at h
  · rw [if_neg (by omega), if_neg (by omega), if_neg (by omega)]
  · rw [if_pos h.1]
  · rw [if_neg (by omega), if_pos h.2]
  · rw [if_neg (by omega), if_neg (by omega), if_pos h.2.2]

/-- A dot moves the phase on by one, round the frame. -/
theorem Advances.phase_eq (h : Advances v w s) (hl : v.line < 154) (hd : v.dot < 456) :
    w.phase = (v.phase + 1) % frameDots := by
  have hp := h.place
  unfold nextPlace lineDots frameLines at hp
  unfold phase lineDots frameDots
  split at hp
  · obtain ⟨h1, h2⟩ := Prod.mk.inj hp
    omega
  split at hp <;> obtain ⟨h1, h2⟩ := Prod.mk.inj hp <;> omega

theorem phase_eq_blankPhase_iff (hd : v.dot < 456) :
    v.phase = blankPhase ↔ v.line = 144 ∧ v.dot = 0 := by
  unfold phase blankPhase screenHeight lineDots
  omega

theorem phase_eq_zero_iff : v.phase = 0 ↔ v.line = 0 ∧ v.dot = 0 := by
  unfold phase lineDots
  omega

theorem SameInputs.statusDue_eq (h : SameInputs v w) (line dot : Nat) :
    w.statusDue line dot = v.statusDue line dot := by
  unfold statusDue selectsHBlank selectsVBlank selectsScan selectsCoincidence
  rw [h.statusSelect_eq, h.lineCompare_eq]

end Video

namespace Bus

open Video

variable {b : Bus}

/-- A dot of the unit, seen from the bus: what follows from the phase that it leads to. -/
structure Dot (b c : Bus) (began : Bool) (p : Nat) : Prop where
  phase_eq : c.video.phase = p
  began_eq : began = decide (p = blankPhase)
  interrupts_eq : c.interrupts =
    (b.interrupts.requestIf (decide (p = blankPhase)) .vblank).requestIf
      (b.video.statusDue (p / lineDots) (p % lineDots)) .lcdStatus
  frameReady_eq : c.video.frameReady = (b.video.frameReady || decide (p = blankPhase))
  frames_eq : c.video.frames = b.video.frames + if p = 0 then 1 else 0

/-- After a dot the requests that were up before it are up, and those that it makes. -/
theorem Dot.requested_iff {c : Bus} {began : Bool} {p : Nat} (h : Dot b c began p)
    (source : Interrupt) : c.interrupts.requested source = true ↔
      b.interrupts.requested source = true ∨ (p = blankPhase ∧ source = .vblank) ∨
        (b.video.statusDue (p / lineDots) (p % lineDots) = true ∧ source = .lcdStatus) := by
  rw [h.interrupts_eq, Interrupts.requested_requestIf, Interrupts.requested_requestIf]
  simp only [Bool.or_eq_true, Bool.and_eq_true, decide_eq_true_eq, or_assoc]

theorem tickVideo_dot (hs : b.video.OnSchedule) (hon : b.video.displayOn = true) :
    Dot b b.tickVideo.1 b.tickVideo.2 ((b.video.phase + 1) % frameDots) := by
  have hspan := hs.spans hon
  have ha := tick_advances hon hspan
  have hd := ha.spans.dot_lt
  have hp : b.video.tick.1.phase = (b.video.phase + 1) % frameDots :=
    ha.phase_eq hspan.line_lt hspan.dot_lt
  rw [← hp]
  have hv : b.video.tick.2.vblank = decide (b.video.tick.1.phase = blankPhase) := by
    rw [ha.vblank]
    simp only [phase_eq_blankPhase_iff hd]
  refine ⟨rfl, hv, ?_, ?_, ?_⟩
  · rw [phase_div hd, phase_mod hd, ← ha.status, ← hv]
    rfl
  · simp only [phase_eq_blankPhase_iff hd]
    exact ha.ready
  · simp only [phase_eq_zero_iff]
    exact ha.frames

/-! ### Any number of dots -/

theorem runVideo_succ (n : Nat) :
    runVideo (n + 1) b =
      ((runVideo n b.tickVideo.1).1, b.tickVideo.2 || (runVideo n b.tickVideo.1).2) :=
  rfl

/-- The unit stays on schedule and nobody changes its registers. -/
theorem runVideo_onSchedule (hs : b.video.OnSchedule) (hon : b.video.displayOn = true) (n : Nat) :
    (runVideo n b).1.video.OnSchedule ∧ SameInputs b.video (runVideo n b).1.video := by
  induction n generalizing b with
  | zero => exact ⟨hs, rfl, rfl, rfl, rfl, rfl⟩
  | succ n ih =>
    have hi : SameInputs b.video b.tickVideo.1.video := (tick_advances hon (hs.spans hon)).inputs
    obtain ⟨hn, hin⟩ := ih (b := b.tickVideo.1) hs.tick (hi.displayOn_eq.trans hon)
    exact ⟨hn, hi.trans hin⟩

theorem runVideo_phase (hs : b.video.OnSchedule) (hon : b.video.displayOn = true) (n : Nat) :
    (runVideo n b).1.video.phase = (b.video.phase + n) % frameDots := by
  induction n generalizing b with
  | zero =>
    have hspan := hs.spans hon
    have hl := hspan.line_lt
    have hd := hspan.dot_lt
    have hp : b.video.phase < frameDots := by
      unfold phase lineDots frameDots
      omega
    exact (Nat.mod_eq_of_lt hp).symm
  | succ n ih =>
    have hi := (tick_advances hon (hs.spans hon)).inputs
    rw [runVideo_succ, ih (b := b.tickVideo.1) hs.tick (hi.displayOn_eq.trans hon),
      (tickVideo_dot hs hon).phase_eq, Nat.mod_add_mod, Nat.add_assoc, Nat.add_comm 1 n]

theorem runVideo_began (hs : b.video.OnSchedule) (hon : b.video.displayOn = true) (n : Nat) :
    (runVideo n b).2 = true ↔
      ∃ k, 1 ≤ k ∧ k ≤ n ∧ (b.video.phase + k) % frameDots = blankPhase := by
  induction n generalizing b with
  | zero =>
    constructor
    · intro h
      cases h
    · rintro ⟨k, h1, h0, -⟩
      omega
  | succ n ih =>
    have hi := (tick_advances hon (hs.spans hon)).inputs
    have hd := tickVideo_dot hs hon
    have hn := ih (b := b.tickVideo.1) hs.tick (hi.displayOn_eq.trans hon)
    -- phases counted from the second dot
    have hshift : ∀ k, (b.tickVideo.1.video.phase + k) % frameDots =
        (b.video.phase + (k + 1)) % frameDots := by
      intro k
      rw [hd.phase_eq, Nat.mod_add_mod, Nat.add_assoc, Nat.add_comm 1 k]
    rw [runVideo_succ, Bool.or_eq_true, hn, hd.began_eq, decide_eq_true_iff]
    constructor
    · rintro (h | ⟨k, h1, hk, h⟩)
      · exact ⟨1, Nat.le_refl 1, by omega, h⟩
      · exact ⟨k + 1, by omega, by omega, hshift k ▸ h⟩
    · rintro ⟨k, h1, hk, h⟩
      rcases Nat.eq_or_lt_of_le h1 with rfl | h1
      · exact .inl h
      · refine .inr ⟨k - 1, by omega, by omega, ?_⟩
        rw [hshift, Nat.sub_add_cancel (by omega)]
        exact h

/-- **The closed form of the frame.** `n` dots after any reachable state with the display on, phase
and mode are those of the dots passed, and the next dot signals what is due at the phase that it
leads to: the request for vertical blank is up after it if it was up before or this is the first
phase of vertical blank, the request for the display's status if it was up before or is due, and all
others are as they were. Vertical blank has begun in these `n` dots if one of them led to its first
phase. -/
theorem runVideo_closed_form (hr : b.video.Reachable) (hon : b.video.displayOn = true) (n : Nat) :
    (runVideo n b).1.video.phase = (b.video.phase + n) % frameDots ∧
    (runVideo n b).1.video.mode = modeAt ((b.video.phase + n) % frameDots) ∧
    ((runVideo n b).2 = true ↔
      ∃ k, 1 ≤ k ∧ k ≤ n ∧ (b.video.phase + k) % frameDots = blankPhase) ∧
    ∀ p, p = (b.video.phase + (n + 1)) % frameDots →
      (runVideo n b).1.tickVideo.1.video.phase = p ∧
      ((runVideo n b).1.tickVideo.2 = true ↔ p = blankPhase) ∧
      (runVideo n b).1.tickVideo.1.interrupts =
        ((runVideo n b).1.interrupts.requestIf (decide (p = blankPhase)) .vblank).requestIf
          (b.video.statusDue (p / lineDots) (p % lineDots)) .lcdStatus ∧
      (∀ source, (runVideo n b).1.tickVideo.1.interrupts.requested source = true ↔
        (runVideo n b).1.interrupts.requested source = true ∨
          (p = blankPhase ∧ source = .vblank) ∨
          (b.video.statusDue (p / lineDots) (p % lineDots) = true ∧ source = .lcdStatus)) ∧
      (runVideo n b).1.tickVideo.1.video.frameReady =
        ((runVideo n b).1.video.frameReady || decide (p = blankPhase)) ∧
      (runVideo n b).1.tickVideo.1.video.frames =
        (runVideo n b).1.video.frames + if p = 0 then 1 else 0 := by
  have hs := hr.onSchedule
  obtain ⟨hsn, hin⟩ := runVideo_onSchedule hs hon n
  have honn := hin.displayOn_eq.trans hon
  have hp := runVideo_phase hs hon n
  refine ⟨hp, ?_, runVideo_began hs hon n, ?_⟩
  · rw [← hp]
    exact mode_eq_modeAt (hsn.spans honn)
  · rintro p rfl
    have hdot := tickVideo_dot hsn honn
    rw [hp, Nat.mod_add_mod, Nat.add_assoc] at hdot
    refine ⟨hdot.phase_eq, ?_, ?_, fun source => ?_, hdot.frameReady_eq, hdot.frames_eq⟩
    · rw [hdot.began_eq, decide_eq_true_iff]
    · rw [hdot.interrupts_eq, hin.statusDue_eq]
    · rw [hdot.requested_iff, hin.statusDue_eq]

/-- The first frame after power on has 4104 dots left; the last of them begins the next frame. -/
theorem runVideo_first_frame :
    (runVideo 4103 (powerOn (.ofVolume .empty))).1.tickVideo.1.video.frames =
      (runVideo 4103 (powerOn (.ofVolume .empty))).1.video.frames + 1 := by
  have h := (runVideo_closed_form (b := powerOn (.ofVolume .empty)) .powerOn rfl 4103).2.2.2 0 rfl
  rw [h.2.2.2.2.2, if_pos rfl]

end Bus

end DotMatrix
