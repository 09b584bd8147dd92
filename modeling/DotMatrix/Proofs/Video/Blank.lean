import DotMatrix.Proofs.Video.History

/-!
# How long until vertical blank

A frame is completed when vertical blank begins. While the display stays on, every dot brings that
nearer; switching the display off and on puts it off, but not by more than the lines that are shown.

* `toBlank`: the dots until vertical blank begins;
* `run_toBlank`: after a history that keeps the display on, a frame has been completed, or the dots
  have become fewer by its ticks;
* `Soon`: no more dots are left than the shown lines have;
* `run_soon`: so it is after a history that switches the display off, whatever follows.
-/

namespace DotMatrix.Video

variable {v : Video} {e : Event}

/-- Dots until vertical blank begins, from 1 to those of a whole frame. -/
def toBlank (v : Video) : Nat :=
  if v.phase < blankPhase then blankPhase - v.phase else frameDots + blankPhase - v.phase

theorem OnSchedule.toBlank_pos (hs : OnSchedule v) : 0 < v.toBlank := by
  have hp := hs.phase_lt
  unfold toBlank
  split <;> omega

theorem toBlank_le (v : Video) : v.toBlank ≤ frameDots := by
  unfold toBlank blankPhase screenHeight lineDots frameDots
  split <;> omega

/-- A display that is switched on has the shown lines before it. -/
theorem writeControl_toBlank (hs : OnSchedule v) (hoff : v.displayOn = false) {b : UInt8}
    (hb : Byte.bit b 7 = true) :
    (v.writeControl b).displayOn = true ∧ (v.writeControl b).frameReady = v.frameReady ∧
      (v.writeControl b).toBlank = blankPhase := by
  obtain ⟨hon, -, -⟩ | ⟨-, -, he⟩ | ⟨hsame, -⟩ := writeControl_cases v b
  · exact absurd (hoff.symm.trans hon) Bool.false_ne_true
  · have hphase : (v.writeControl b).phase = 0 := by
      rw [he]
      exact phase_eq_zero_iff.2 ⟨(hs.atRest hoff).line_eq, rfl⟩
    refine ⟨by rw [he]; exact hb, by rw [he], ?_⟩
    rw [toBlank, hphase, if_pos (by decide), Nat.sub_zero]
  · exact absurd ((hoff.symm.trans hsame).trans hb) Bool.false_ne_true

/-- The last dot before vertical blank completes a frame, and every other brings it nearer. -/
theorem tick_toBlank (hs : OnSchedule v) (hon : v.displayOn = true) :
    v.tick.1.frameReady = true ∧ v.toBlank = 1 ∨
      v.tick.1.frameReady = v.frameReady ∧ v.tick.1.toBlank + 1 = v.toBlank := by
  have hspan := hs.spans hon
  have ha := tick_advances hon hspan
  have hlt := hs.phase_lt
  have hready := ha.ready
  simp only [← phase_eq_blankPhase_iff ha.spans.dot_lt] at hready
  obtain ⟨-, hp⟩ := tick_phase hs hon
  by_cases hblank : v.tick.1.phase = blankPhase
  · left
    refine ⟨by rw [hready, decide_eq_true hblank, Bool.or_true], ?_⟩
    rw [hp] at hblank
    unfold toBlank
    unfold blankPhase screenHeight lineDots frameDots at *
    split <;> omega
  · right
    refine ⟨by rw [hready, decide_eq_false hblank, Bool.or_false], ?_⟩
    unfold toBlank
    rw [hp] at hblank ⊢
    unfold blankPhase screenHeight lineDots frameDots at *
    split <;> split <;> omega

theorem Event.eq_tick (h : e.isTick = true) : e = .tick := by
  cases e with
  | tick => rfl
  | write | memories | acknowledge => cases h

/-- Only ticks complete frames. -/
theorem Event.frameReady_eq (ht : e.isTick = false) (ha : e ≠ .acknowledge) :
    (e.apply v).frameReady = v.frameReady := by
  cases e with
  | tick => cases ht
  | write r b =>
    cases r with
    | control =>
      simp only [Event.apply, Video.write]
      obtain ⟨-, -, he⟩ | ⟨-, -, he⟩ | ⟨-, he⟩ := writeControl_cases v b <;> rw [he]
    | _ => rfl
  | memories => rfl
  | acknowledge => exact absurd rfl ha

/-- A completed frame stays completed until it is acknowledged. -/
theorem Event.frameReady (hs : OnSchedule v) (ha : e ≠ .acknowledge) (h : v.frameReady = true) :
    (e.apply v).frameReady = true := by
  by_cases ht : e.isTick = true
  · obtain rfl := Event.eq_tick ht
    cases hon : v.displayOn with
    | true =>
      obtain ⟨hready, -⟩ | ⟨hkeep, -⟩ := tick_toBlank hs hon
      · exact hready
      · exact hkeep.trans h
    | false =>
      rw [Event.apply, tick_of_off hon]
      exact h
  · rw [Event.frameReady_eq (Bool.eq_false_iff.2 ht) ha]
    exact h

theorem run_frameReady {es : List Event} (hs : OnSchedule v) (ha : ∀ e ∈ es, e ≠ .acknowledge)
    (h : v.frameReady = true) : (run v es).frameReady = true := by
  induction es generalizing v with
  | nil => exact h
  | cons e es ih =>
    obtain ⟨hne, hrest⟩ := List.forall_mem_cons.1 ha
    exact ih (hs.apply e) hrest (Event.frameReady hs hne h)

/-! ### The display stays on -/

theorem Event.KeepsOn.toBlank (hk : e.KeepsOn) (hs : OnSchedule v) (hon : v.displayOn = true)
    (ha : e ≠ .acknowledge) :
    (e.apply v).frameReady = true ∧ v.toBlank ≤ ticks [e] ∨
      (e.apply v).frameReady = v.frameReady ∧ (e.apply v).toBlank + ticks [e] = v.toBlank := by
  by_cases ht : e.isTick = true
  · obtain rfl := Event.eq_tick ht
    obtain ⟨hready, hone⟩ | ⟨hkeep, hnear⟩ := tick_toBlank hs hon
    · exact .inl ⟨hready, Nat.le_of_eq hone⟩
    · exact .inr ⟨hkeep, hnear⟩
  · have ht' : e.isTick = false := Bool.eq_false_iff.2 ht
    obtain ⟨-, hp⟩ := hk.phase_eq hs hon
    rw [ht', if_neg Bool.false_ne_true, Nat.add_zero, Nat.mod_eq_of_lt hs.phase_lt] at hp
    have hsame : (e.apply v).toBlank = v.toBlank := by rw [Video.toBlank, Video.toBlank, hp]
    right
    refine ⟨Event.frameReady_eq ht' ha, ?_⟩
    rw [ticks_cons, ht', hsame]
    rfl

/-- **A history that keeps the display on** completes a frame, or it completes none and brings
vertical blank nearer by its ticks. -/
theorem run_toBlank {es : List Event} (hs : OnSchedule v) (hon : v.displayOn = true)
    (hk : ∀ e ∈ es, e.KeepsOn) (ha : ∀ e ∈ es, e ≠ .acknowledge) :
    (run v es).frameReady = true ∧ v.toBlank ≤ ticks es ∨
      (run v es).frameReady = v.frameReady ∧ (run v es).toBlank + ticks es = v.toBlank := by
  induction es generalizing v with
  | nil => exact .inr ⟨rfl, rfl⟩
  | cons e es ih =>
    obtain ⟨hfirst, hrest⟩ := List.forall_mem_cons.1 hk
    obtain ⟨hne, harest⟩ := List.forall_mem_cons.1 ha
    have hsum : ticks (e :: es) = ticks [e] + ticks es := ticks_append [e] es
    rw [run_cons]
    obtain ⟨hready, hle⟩ | ⟨hkeep, hnear⟩ := hfirst.toBlank hs hon hne
    · left
      exact ⟨run_frameReady (hs.apply e) harest hready, by omega⟩
    · have hon' := (hfirst.phase_eq hs hon).1
      obtain ⟨hready, hle⟩ | ⟨hkeep', hnear'⟩ := ih (hs.apply e) hon' hrest harest
      · left
        exact ⟨hready, by omega⟩
      · right
        exact ⟨hkeep'.trans hkeep, by omega⟩

/-! ### The display is switched off -/

/-- If the display is on, then a frame is complete or will be, once the lines that are shown have
gone by. -/
def Soon (v : Video) : Prop := v.displayOn = true → v.frameReady = true ∨ v.toBlank ≤ blankPhase

theorem Soon.apply (h : Soon v) (hs : OnSchedule v) (ha : e ≠ .acknowledge) : Soon (e.apply v) := by
  cases e with
  | tick =>
    cases hon : v.displayOn with
    | true =>
      intro _
      obtain ⟨hready, -⟩ | ⟨hkeep, hnear⟩ := tick_toBlank hs hon
      · exact .inl hready
      · rcases h hon with hready | hle
        · exact .inl (hkeep.trans hready)
        · exact .inr (by simp only [Event.apply]; omega)
    | false =>
      rw [Event.apply, tick_of_off hon]
      exact h
  | write r b =>
    cases r with
    | control =>
      simp only [Event.apply, Video.write]
      obtain ⟨-, hb, he⟩ | ⟨hoff, hb, -⟩ | ⟨hsame, he⟩ := writeControl_cases v b
      · rw [he]
        intro hon
        exact absurd (hb.symm.trans hon) Bool.false_ne_true
      · intro _
        right
        exact Nat.le_of_eq (writeControl_toBlank hs hoff hb).2.2
      · rw [he]
        intro hon
        exact h (hsame.trans hon)
    | _ => exact h
  | memories => exact h
  | acknowledge => exact absurd rfl ha

theorem Soon.run {es : List Event} (h : Soon v) (hs : OnSchedule v) (ha : ∀ e ∈ es, e ≠ .acknowledge) :
    Soon (run v es) := by
  induction es generalizing v with
  | nil => exact h
  | cons e es ih =>
    obtain ⟨hne, hrest⟩ := List.forall_mem_cons.1 ha
    exact ih (h.apply hs hne) (hs.apply e) hrest

theorem Event.displayOff (hk : ¬e.KeepsOn) : (e.apply v).displayOn = false := by
  cases e with
  | write r b =>
    cases r with
    | control =>
      have hb : Byte.bit b 7 = false := Bool.eq_false_iff.2 hk
      simp only [Event.apply, Video.write]
      obtain ⟨-, -, he⟩ | ⟨-, -, he⟩ | ⟨-, he⟩ := writeControl_cases v b <;> rw [he] <;> exact hb
    | _ => exact absurd trivial hk
  | _ => exact absurd trivial hk

/-- **A history that switches the display off**: whatever follows, vertical blank is not further
away than the shown lines. -/
theorem run_soon {es : List Event} (hs : OnSchedule v) (ha : ∀ e ∈ es, e ≠ .acknowledge) (he : e ∈ es)
    (hk : ¬e.KeepsOn) : Soon (run v es) := by
  obtain ⟨before, after, rfl⟩ := List.append_of_mem he
  have hoff : (e.apply (Video.run v before)).displayOn = false := Event.displayOff hk
  have hsoon : Soon (e.apply (Video.run v before)) := fun hon => absurd hon (by simp [hoff])
  rw [run_append, run_cons]
  refine hsoon.run ((hs.run before).apply e) fun f hf => ?_
  exact ha f (List.mem_append_right before (List.mem_cons_of_mem e hf))

end DotMatrix.Video
