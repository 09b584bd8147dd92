import DotMatrix.Proofs.Video.Frame
import Mathlib.Data.List.Induction

/-!
# Histories of the video unit

A program and the clock act on the unit in any order. A history is the list of these events, and
where the unit is after it follows from the ticks in it, as long as no event switches the display
off.

* `Event`, `run`: whatever may happen to the unit, in any order;
* `ticks`: how many of the events are ticks of the clock;
* `run_phase`: the unit goes round the frame by the ticks of a history that keeps the display on;
* `run_frames`: and it counts how often.
-/

namespace DotMatrix.Video

/-- What happens to the unit. -/
inductive Event
  | tick
  | write (r : Register) (b : UInt8)
  | memories (ram : Memory 0x2000) (objects : Memory 160)
  | acknowledge

/-- The unit after an event. -/
def Event.apply (v : Video) : Event → Video
  | tick => v.tick.1
  | write r b => v.write r b
  | memories ram objects => { v with ram, objects }
  | acknowledge => v.clearFrameReady

/-- The unit after events in a row. -/
def run (v : Video) (es : List Event) : Video := es.foldl Event.apply v

/-- Is the event a tick of the clock? -/
def Event.isTick : Event → Bool
  | tick => true
  | _ => false

/-- How many of the events are ticks. -/
def ticks (es : List Event) : Nat := es.countP Event.isTick

/-- Does the event leave the display on? -/
def Event.KeepsOn : Event → Prop
  | write .control b => Byte.bit b 7 = true
  | _ => True

@[simp] theorem run_cons (v : Video) (e : Event) (es : List Event) :
    run v (e :: es) = run (e.apply v) es := rfl

theorem run_append (v : Video) (es fs : List Event) : run v (es ++ fs) = run (run v es) fs :=
  List.foldl_append

theorem run_concat (v : Video) (es : List Event) (e : Event) :
    run v (es ++ [e]) = e.apply (run v es) := run_append v es [e]

@[simp] theorem ticks_nil : ticks [] = 0 := rfl

@[simp] theorem ticks_cons (e : Event) (es : List Event) :
    ticks (e :: es) = ticks es + if e.isTick then 1 else 0 := List.countP_cons

@[simp] theorem ticks_append (es fs : List Event) : ticks (es ++ fs) = ticks es + ticks fs :=
  List.countP_append

@[simp] theorem ticks_replicate_tick (n : Nat) : ticks (List.replicate n .tick) = n := by
  simp [ticks, List.countP_replicate, Event.isTick]

theorem run_reachable (es : List Event) : Reachable (run powerOn es) := by
  induction es using List.reverseRecOn with
  | nil => exact .powerOn
  | append_singleton es e ih =>
    rw [run_concat]
    cases e with
    | tick => exact .tick ih
    | write r b => exact .write r b ih
    | memories ram objects => exact .memories ram objects ih
    | acknowledge => exact .acknowledge ih

/-! ### One event -/

variable {v : Video} {e : Event}

theorem OnSchedule.apply (hs : OnSchedule v) (e : Event) : OnSchedule (e.apply v) := by
  cases e with
  | tick => exact hs.tick
  | write r b => exact hs.write r b
  | memories | acknowledge => exact hs.congr rfl rfl rfl rfl rfl

theorem OnSchedule.run (hs : OnSchedule v) (es : List Event) : OnSchedule (run v es) := by
  induction es generalizing v with
  | nil => exact hs
  | cons e es ih => exact ih (hs.apply e)

theorem OnSchedule.phase_lt (hs : OnSchedule v) : v.phase < frameDots := by
  cases hon : v.displayOn with
  | true =>
    have hl := (hs.spans hon).line_lt
    have hd := (hs.spans hon).dot_lt
    unfold phase lineDots frameDots
    omega
  | false =>
    have hrest := hs.atRest hon
    unfold phase lineDots frameDots
    rw [hrest.line_eq, hrest.dot_eq]
    decide

/-- A tick leads on by one dot, while the display is on. -/
theorem tick_phase (hs : OnSchedule v) (hon : v.displayOn = true) :
    v.tick.1.displayOn = true ∧ v.tick.1.phase = (v.phase + 1) % frameDots := by
  have hspan := hs.spans hon
  have ha := tick_advances hon hspan
  exact ⟨ha.inputs.displayOn_eq.trans hon, ha.phase_eq hspan.line_lt hspan.dot_lt⟩

/-- An event that is not a tick leaves the unit at its dot, or it switches the display and leads to
the beginning of a line. -/
theorem Event.dot_cases (ht : e.isTick = false) :
    (e.apply v).dot = v.dot ∨ (e.apply v).dot = 0 := by
  cases e with
  | tick => cases ht
  | write r b =>
    cases r with
    | control =>
      simp only [Event.apply, Video.write]
      obtain ⟨-, -, he⟩ | ⟨-, -, he⟩ | ⟨-, he⟩ := writeControl_cases v b <;> rw [he]
      · exact .inr rfl
      · exact .inr rfl
      · exact .inl rfl
    | _ => exact .inl rfl
  | memories | acknowledge => exact .inl rfl

/-- An event that keeps the display on leads on by one dot if it is a tick, and not at all if it is
not. -/
theorem Event.KeepsOn.phase_eq (hk : e.KeepsOn) (hs : OnSchedule v) (hon : v.displayOn = true) :
    (e.apply v).displayOn = true ∧
      (e.apply v).phase = (v.phase + if e.isTick then 1 else 0) % frameDots := by
  have hstays : (v.phase + 0) % frameDots = v.phase := Nat.mod_eq_of_lt hs.phase_lt
  cases e with
  | tick => exact tick_phase hs hon
  | write r b =>
    cases r with
    | control =>
      have hb : Byte.bit b 7 = true := hk
      simp only [Event.apply, Video.write]
      obtain ⟨-, hb', -⟩ | ⟨hoff, -, -⟩ | ⟨-, he⟩ := writeControl_cases v b
      · rw [hb'] at hb
        cases hb
      · rw [hoff] at hon
        cases hon
      · rw [he]
        exact ⟨hb, hstays.symm⟩
    | _ => exact ⟨hon, hstays.symm⟩
  | memories | acknowledge => exact ⟨hon, hstays.symm⟩

/-- Dots are counted in frames and, within a frame, by the place. A tick is one dot. -/
theorem tick_frames (hs : OnSchedule v) (hon : v.displayOn = true) :
    frameDots * v.tick.1.frames + v.tick.1.phase = frameDots * v.frames + v.phase + 1 := by
  have hlt := hs.phase_lt
  have hframes := (tick_advances hon (hs.spans hon)).frames
  obtain ⟨-, hp⟩ := tick_phase hs hon
  simp only [← phase_eq_zero_iff, hp] at hframes
  rw [hp, hframes]
  unfold frameDots at *
  split <;> omega

theorem Event.KeepsOn.frames_eq (hk : e.KeepsOn) (hs : OnSchedule v) (hon : v.displayOn = true) :
    frameDots * (e.apply v).frames + (e.apply v).phase =
      frameDots * v.frames + v.phase + if e.isTick then 1 else 0 := by
  cases e with
  | tick => exact tick_frames hs hon
  | write r b =>
    cases r with
    | control =>
      have hb : Byte.bit b 7 = true := hk
      simp only [Event.apply, Video.write]
      obtain ⟨-, hb', -⟩ | ⟨hoff, -, -⟩ | ⟨-, he⟩ := writeControl_cases v b
      · rw [hb'] at hb
        cases hb
      · rw [hoff] at hon
        cases hon
      · rw [he]
        rfl
    | _ => rfl
  | memories | acknowledge => rfl

/-! ### Events in a row -/

/-- **A history that keeps the display on** takes the unit round the frame by its ticks. -/
theorem run_phase {es : List Event} (hs : OnSchedule v) (hon : v.displayOn = true)
    (hk : ∀ e ∈ es, e.KeepsOn) :
    (run v es).displayOn = true ∧ (run v es).phase = (v.phase + ticks es) % frameDots := by
  induction es generalizing v with
  | nil => exact ⟨hon, (Nat.mod_eq_of_lt hs.phase_lt).symm⟩
  | cons e es ih =>
    obtain ⟨hfirst, hrest⟩ := List.forall_mem_cons.1 hk
    obtain ⟨hon', hp⟩ := hfirst.phase_eq hs hon
    obtain ⟨hon'', hp'⟩ := ih (hs.apply e) hon' hrest
    refine ⟨hon'', ?_⟩
    rw [run_cons, hp', hp, Nat.mod_add_mod, ticks_cons, Nat.add_assoc, Nat.add_comm (ticks es)]

/-- **A history that keeps the display on** counts the frames that its ticks complete. -/
theorem run_frames {es : List Event} (hs : OnSchedule v) (hon : v.displayOn = true)
    (hk : ∀ e ∈ es, e.KeepsOn) :
    frameDots * (run v es).frames + (run v es).phase =
      frameDots * v.frames + v.phase + ticks es := by
  induction es generalizing v with
  | nil => rfl
  | cons e es ih =>
    obtain ⟨hfirst, hrest⟩ := List.forall_mem_cons.1 hk
    obtain ⟨hon', -⟩ := hfirst.phase_eq hs hon
    have hframes := hfirst.frames_eq hs hon
    rw [run_cons, ih (hs.apply e) hon' hrest, ticks_cons]
    omega

/-- Ticks do nothing to a unit that is switched off. -/
theorem run_ticks_of_off (hoff : v.displayOn = false) (n : Nat) :
    run v (List.replicate n .tick) = v := by
  induction n with
  | zero => rfl
  | succ n ih =>
    have hfirst : Event.apply v .tick = v := by rw [Event.apply, tick_of_off hoff]
    rw [List.replicate_succ, run_cons, hfirst, ih]

/-- Lines and frames are a whole number of machine cycles long, so ticks that come by fours lead
from the beginning of one to the beginning of another. -/
theorem run_ticks_dot {n : Nat} (hs : OnSchedule v) (hn : 4 ∣ n) (h : 4 ∣ v.dot) :
    4 ∣ (run v (List.replicate n .tick)).dot := by
  cases hon : v.displayOn with
  | true =>
    have hk : ∀ e ∈ List.replicate n Event.tick, e.KeepsOn := by
      intro e he
      rw [List.eq_of_mem_replicate he]
      trivial
    obtain ⟨-, hp⟩ := run_phase hs hon hk
    rw [ticks_replicate_tick] at hp
    unfold phase lineDots frameDots at hp
    omega
  | false =>
    rw [run_ticks_of_off hon]
    exact h

end DotMatrix.Video
