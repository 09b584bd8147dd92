import DotMatrix.Proofs.Video.Blank
import DotMatrix.Proofs.Video.Buffers

/-!
# Every line is drawn once

A row of the picture changes on one dot of its line only, whatever the program writes and whenever
it writes it: the flag that the scan and the drawing share never lets a line be drawn twice or be
passed over. While the display stays on, the journal of a frame is therefore the list of all lines.

* `DrawsAt`: the event is the tick that leads to the dot after the object scan of a line;
* `apply_drawing`: such a tick draws its line, and every other event leaves picture and journal;
* `linesDrawn`, `run_drawn`: the lines that have been drawn at a phase of the frame;
* `lines_drawn_once`: from the beginning of line 0 to vertical blank, each line is drawn once.
-/

namespace DotMatrix.Video

variable {v : Video} {e : Event}

/-! ### Vertical blank -/

theorem Mode.Spans.vblank_iff {m : Mode} {line dot : Nat} (h : m.Spans line dot) :
    m = .vblank ↔ 144 ≤ line := by
  cases m with
  | vblank => exact iff_of_true rfl h.1
  | objectScan | transfer | hblank => exact iff_of_false Mode.noConfusion (Nat.not_le.2 h.1)

theorem mode_eq_vblank_iff (h : v.mode.Spans v.line v.dot) :
    v.mode = .vblank ↔ blankPhase ≤ v.phase :=
  h.vblank_iff.trans (blankPhase_le_phase_iff h.dot_lt).symm

theorem tick_frameReady (hs : OnSchedule v) (hon : v.displayOn = true) :
    v.tick.1.frameReady = (v.frameReady || decide (v.tick.1.phase = blankPhase)) := by
  have ha := tick_advances hon (hs.spans hon)
  rw [ha.ready]
  simp only [phase_eq_blankPhase_iff ha.spans.dot_lt]

/-- No frame is completed by an event that does not lead to the first dot of vertical blank. -/
theorem Event.frameReady_eq_false (hs : OnSchedule v) (hon : v.displayOn = true)
    (hp : (e.apply v).phase ≠ blankPhase) (hr : v.frameReady = false) :
    (e.apply v).frameReady = false := by
  cases e with
  | tick =>
    simp only [Event.apply] at hp ⊢
    rw [tick_frameReady hs hon, hr, decide_eq_false hp]
    rfl
  | write r x => exact (Event.frameReady_eq rfl Event.noConfusion).trans hr
  | memories ram objects => exact hr
  | acknowledge => rfl

namespace Buffered

variable {b : Buffered}

/-! ### One event -/

/-- The event is the tick that leads to dot 81 of line `y`, with the display on. -/
def DrawsAt (b : Buffered) (e : Event) (y : Nat) : Prop :=
  e = .tick ∧ b.displayOn = true ∧ b.line = y ∧ (b.apply e).dot = 81

theorem tick_place (h : InStep b) (hon : b.displayOn = true) :
    (b.tick.line, b.tick.dot) = nextPlace b.line b.dot := by
  rw [tick_toVideo h]
  exact (tick_advances hon (h.onSchedule.spans hon)).place

/-- A tick that does not begin a line goes on by a dot. -/
theorem tick_within (h : InStep b) (hon : b.displayOn = true) (hpos : 0 < b.tick.dot) :
    b.tick.line = b.line ∧ b.tick.dot = b.dot + 1 := by
  have hplace := tick_place h hon
  rw [nextPlace] at hplace
  split at hplace
  · exact Prod.mk.inj hplace
  split at hplace <;> exact absurd (Prod.mk.inj hplace).2 (Nat.ne_of_gt hpos)

theorem tick_dot (h : InStep b) (hon : b.displayOn = true) : b.tick.dot = 81 ↔ b.dot = 80 := by
  constructor
  · intro h81
    obtain ⟨-, hd⟩ := tick_within h hon (by omega)
    omega
  · intro h80
    have hplace := tick_place h hon
    rw [nextPlace, h80, if_pos (by decide)] at hplace
    exact (Prod.mk.inj hplace).2

theorem drawLine_drawing (hl : b.line < 144) :
    b.drawLine.picture = b.picture.set b.line b.lineRow ∧
      b.drawLine.drawn = b.drawn ++ [b.line] := by
  constructor
  · rw [drawLine_toVideo, Video.drawLine, dif_pos hl]
  · rw [drawLine, dif_pos hl]

/-- An event that is not a tick leaves picture and journal. -/
theorem apply_picture (ht : e.isTick = false) :
    (b.apply e).picture = b.picture ∧ (b.apply e).drawn = b.drawn := by
  cases e with
  | tick => cases ht
  | write r x =>
    refine ⟨?_, rfl⟩
    cases r with
    | control =>
      show (b.toVideo.writeControl x).picture = b.picture
      obtain ⟨-, -, he⟩ | ⟨-, -, he⟩ | ⟨-, he⟩ := writeControl_cases b.toVideo x <;> rw [he]
    | _ => rfl
  | memories | acknowledge => exact ⟨rfl, rfl⟩

/-- **One event** draws the line that it is due to draw, or it draws nothing. -/
theorem apply_drawing (h : InStep b) (e : Event) :
    (∃ hl : b.line < 144, b.DrawsAt e b.line ∧
        (b.apply e).picture = b.picture.set b.line b.lineRow ∧
        (b.apply e).drawn = b.drawn ++ [b.line]) ∨
      (∀ y < 144, ¬b.DrawsAt e y) ∧
        (b.apply e).picture = b.picture ∧ (b.apply e).drawn = b.drawn := by
  by_cases ht : e.isTick = true
  swap
  · refine .inr ⟨fun y _ hd => ht ?_, apply_picture (Bool.eq_false_iff.2 ht)⟩
    rw [hd.1]
    rfl
  obtain rfl := Event.eq_tick ht
  cases hon : b.displayOn with
  | false =>
    have hoff : b.apply .tick = b := tick_of_off hon
    rw [hoff]
    refine .inr ⟨fun y _ hd => ?_, rfl, rfl⟩
    exact absurd (hon.symm.trans hd.2.1) Bool.false_ne_true
  | true =>
    -- A tick that is due to draw comes to a line of the screen, at dot 80.
    have hdue : ∀ y < 144, b.DrawsAt .tick y → b.line < 144 ∧ b.dot = 80 := fun y hy hd =>
      ⟨hd.2.2.1 ▸ hy, (tick_dot h hon).1 hd.2.2.2⟩
    obtain ⟨-, h0, he⟩ | ⟨hl, h80, he⟩ | ⟨hne, hidle⟩ := tick_cases h hon
    · refine .inr ⟨fun y hy hd => ?_, ?_⟩
      · have h80 := (hdue y hy hd).2
        omega
      · show b.tick.picture = b.picture ∧ b.tick.drawn = b.drawn
        rw [he]
        exact ⟨rfl, rfl⟩
    · have hdraw := b.nextDot.drawLine_drawing hl
      left
      refine ⟨hl, ⟨rfl, hon, rfl, (tick_dot h hon).2 h80⟩, ?_⟩
      show b.tick.picture = _ ∧ b.tick.drawn = _
      rw [he]
      exact hdraw
    · refine .inr ⟨fun y hy hd => ?_, ?_⟩
      · obtain ⟨hl, h80⟩ := hdue y hy hd
        exact (hne hl).2 h80
      · obtain ⟨_, _, _, _, _, _, _, _, -, he⟩ := hidle
        show b.tick.picture = b.picture ∧ b.tick.drawn = b.drawn
        rw [he]
        exact ⟨rfl, rfl⟩

/-! ### A frame -/

/-- How many lines have been drawn at a phase of the frame: those whose dot 81 has come. -/
def linesDrawn (p : Nat) : Nat := (p + 375) / lineDots

theorem linesDrawn_phase {v : Video} (hd : v.dot < 456) :
    linesDrawn v.phase = if 80 < v.dot then v.line + 1 else v.line := by
  unfold linesDrawn phase lineDots
  split <;> omega

theorem linesDrawn_phase_succ {v : Video} (hd : v.dot < 456) :
    linesDrawn (v.phase + 1) = if 80 ≤ v.dot then v.line + 1 else v.line := by
  unfold linesDrawn phase lineDots
  split <;> omega

theorem line_lt_of_phase_lt {v : Video} (hd : v.dot < 456) (hp : v.phase < blankPhase) :
    v.line < 144 :=
  Nat.not_le.1 fun hle => Nat.not_le.2 hp ((blankPhase_le_phase_iff hd).2 hle)

/-- One event more, before vertical blank: the journal has the lines from the top. -/
theorem apply_drawn (h : InStep b) (hon : b.displayOn = true) (hp : b.phase < blankPhase)
    {before : List Nat} (hb : b.drawn = before ++ List.range (linesDrawn b.phase)) (e : Event) :
    (b.apply e).drawn = before ++ List.range (linesDrawn (b.phase + ticks [e])) := by
  have hd := (h.onSchedule.spans hon).dot_lt
  have hl : b.line < 144 := line_lt_of_phase_lt hd hp
  obtain ⟨-, ⟨rfl, -, -, hdot⟩, -, hdrawn⟩ | ⟨hnot, -, hdrawn⟩ := apply_drawing h e
  · have h80 : b.dot = 80 := (tick_dot h hon).1 hdot
    have hnow : linesDrawn b.phase = b.line := by
      rw [linesDrawn_phase hd, if_neg (by omega)]
    have hnext : linesDrawn (b.phase + ticks [.tick]) = b.line + 1 :=
      (linesDrawn_phase_succ hd).trans (if_pos (Nat.le_of_eq h80.symm))
    rw [hdrawn, hb, hnow, hnext, List.range_succ, List.append_assoc]
  · have hsame : linesDrawn (b.phase + ticks [e]) = linesDrawn b.phase := by
      by_cases ht : e.isTick = true
      · obtain rfl := Event.eq_tick ht
        have h80 : b.dot ≠ 80 := fun h80 =>
          hnot b.line hl ⟨rfl, hon, rfl, (tick_dot h hon).2 h80⟩
        refine (linesDrawn_phase_succ hd).trans ?_
        rw [linesDrawn_phase hd]
        exact if_congr (by omega) rfl rfl
      · rw [ticks_cons, if_neg ht, ticks_nil]
        rfl
    rw [hdrawn, hb, hsame]

theorem keepsOn_ticks {n : Nat} : ∀ f ∈ List.replicate n Event.tick, f.KeepsOn := fun f hf => by
  rw [List.eq_of_mem_replicate hf]
  trivial

theorem ticks_concat_le (fs : List Event) (f : Event) : ticks (fs ++ [f]) ≤ ticks fs + 1 := by
  rw [ticks_append]
  exact Nat.add_le_add_left List.countP_le_length _

section Frame

variable {gs : List Event} (h : InStep b) (hon : b.displayOn = true) (hp : b.phase = 0)
include h hon hp

/-- From the beginning of a frame the phase counts the ticks. -/
theorem run_from_top (hk : ∀ f ∈ gs, f.KeepsOn) (ht : ticks gs ≤ blankPhase) :
    InStep (b.run gs) ∧ (b.run gs).displayOn = true ∧ (b.run gs).phase = ticks gs := by
  have hlt : ticks gs < frameDots := Nat.lt_of_le_of_lt ht (by decide)
  obtain ⟨hon', hphase⟩ := run_phase h.onSchedule hon hk
  rw [hp, Nat.zero_add, Nat.mod_eq_of_lt hlt] at hphase
  refine ⟨h.run gs, ?_⟩
  rw [run_toVideo h]
  exact ⟨hon', hphase⟩

theorem run_ticks_from_top {n : Nat} (hn : n ≤ blankPhase) :
    InStep (b.run (List.replicate n .tick)) ∧ (b.run (List.replicate n .tick)).displayOn = true ∧
      (b.run (List.replicate n .tick)).phase = n := by
  have hticks : ticks (List.replicate n .tick) = n := ticks_replicate_tick n
  have hrun := run_from_top h hon hp keepsOn_ticks (hticks.symm ▸ hn)
  rwa [hticks] at hrun

/-- **The lines drawn so far** are those from the top, in order, as long as the display stays on and
vertical blank has not begun. -/
theorem run_drawn (hk : ∀ f ∈ gs, f.KeepsOn) (ht : ticks gs < blankPhase) :
    (b.run gs).drawn = b.drawn ++ List.range (linesDrawn (ticks gs)) := by
  induction gs using List.reverseRecOn with
  | nil => exact (List.append_nil _).symm
  | append_singleton fs f ih =>
    have hkfs : ∀ g ∈ fs, g.KeepsOn := fun g hg => hk g (List.mem_append_left _ hg)
    rw [ticks_append] at ht ⊢
    have htfs : ticks fs < blankPhase := by omega
    obtain ⟨hfs, honfs, hphase⟩ := run_from_top h hon hp hkfs (Nat.le_of_lt htfs)
    rw [run_concat, ← hphase]
    exact apply_drawn hfs honfs (hphase ▸ htfs) (hphase ▸ ih hkfs htfs) f

end Frame

/-- A history `gs` that begins with line 0 and goes on, with the display on, until the next event
`e` enters vertical blank. -/
structure ShowsFrame (b : Buffered) (gs : List Event) (e : Event) : Prop where
  line_eq : b.line = 0
  dot_eq : b.dot = 0
  staysOn : ∀ hs, hs <+: gs ++ [e] → (b.run hs).displayOn = true
  shown : ∀ hs, hs <+: gs → (b.run hs).mode ≠ .vblank
  blank : (b.run (gs ++ [e])).mode = .vblank

namespace ShowsFrame

variable {gs hs : List Event} (h : InStep b) (hf : b.ShowsFrame gs e)

include hf in
theorem phase_eq : b.phase = 0 := phase_eq_zero_iff.2 ⟨hf.line_eq, hf.dot_eq⟩

include hf in
theorem displayOn : b.displayOn = true := hf.staysOn [] List.nil_prefix

include h hf in
/-- No event of the history can have switched the display off. -/
theorem keepsOn : ∀ f ∈ gs ++ [e], f.KeepsOn := by
  intro f hmem
  obtain ⟨before, after, hsplit⟩ := List.append_of_mem hmem
  have hpre : before ++ [f] <+: gs ++ [e] := ⟨after, by rw [hsplit, List.append_assoc]; rfl⟩
  by_contra hk
  have hoff : ((b.run before).apply f).displayOn = false := by
    rw [apply_toVideo (h.run before)]
    exact Event.displayOff hk
  have hon := hf.staysOn _ hpre
  rw [run_concat] at hon
  exact Bool.false_ne_true (hoff.symm.trans hon)

include h hf

theorem keepsOn_of_prefix (hpre : hs <+: gs) : ∀ f ∈ hs, f.KeepsOn := fun f hmem =>
  hf.keepsOn h f (List.mem_append_left _ (hpre.subset hmem))

/-- Until vertical blank is entered, it has not begun. -/
theorem ticks_lt (hpre : hs <+: gs) : ticks hs < blankPhase := by
  induction hs using List.reverseRecOn with
  | nil => decide
  | append_singleton fs f ih =>
    have hfs := ih ((List.prefix_append fs [f]).trans hpre)
    have hle := ticks_concat_le fs f
    obtain ⟨hin, hon, hphase⟩ :=
      run_from_top h hf.displayOn hf.phase_eq (hf.keepsOn_of_prefix h hpre) (Nat.le_trans hle hfs)
    have hmode := hf.shown _ hpre
    rw [Ne, mode_eq_vblank_iff (hin.onSchedule.spans hon), hphase] at hmode
    exact Nat.not_le.1 hmode

/-- Vertical blank is entered on the tick that its first dot is due. -/
theorem last_eq : ticks gs + 1 = blankPhase ∧ e = .tick := by
  have hlt := hf.ticks_lt h (List.prefix_rfl (l := gs))
  have hle := ticks_concat_le gs e
  obtain ⟨hin, hon, hphase⟩ :=
    run_from_top h hf.displayOn hf.phase_eq (hf.keepsOn h) (Nat.le_trans hle hlt)
  have hblank := (mode_eq_vblank_iff (hin.onSchedule.spans hon)).1 hf.blank
  rw [hphase, ticks_append] at hblank
  by_cases ht : e.isTick = true
  · have hone : ticks [e] = 1 := by rw [ticks_cons, if_pos ht]; rfl
    exact ⟨by omega, Event.eq_tick ht⟩
  · have hzero : ticks [e] = 0 := by rw [ticks_cons, if_neg ht]; rfl
    omega

/-- No frame is completed before. -/
theorem frameReady_eq_false (hpre : hs <+: gs) (hr : b.frameReady = false) :
    (b.run hs).frameReady = false := by
  induction hs using List.reverseRecOn with
  | nil => exact hr
  | append_singleton fs f ih =>
    have hfs : fs <+: gs := (List.prefix_append fs [f]).trans hpre
    have hlt := hf.ticks_lt h hpre
    obtain ⟨hin, hon, -⟩ := run_from_top h hf.displayOn hf.phase_eq (hf.keepsOn_of_prefix h hfs)
      (Nat.le_of_lt (hf.ticks_lt h hfs))
    obtain ⟨-, -, hphase⟩ := run_from_top h hf.displayOn hf.phase_eq (hf.keepsOn_of_prefix h hpre)
      (Nat.le_of_lt hlt)
    have hne : (b.run (fs ++ [f])).phase ≠ blankPhase := hphase ▸ Nat.ne_of_lt hlt
    rw [run_concat, apply_toVideo hin] at hne ⊢
    exact Event.frameReady_eq_false hin.onSchedule hon hne (ih hfs)

/-- Before vertical blank all lines have been drawn, -/
theorem drawn_eq : (b.run gs).drawn = b.drawn ++ List.range 144 := by
  have hlast : ticks gs = 65663 := Nat.succ.inj (hf.last_eq h).1
  rw [run_drawn h hf.displayOn hf.phase_eq (hf.keepsOn_of_prefix h List.prefix_rfl)
    (hf.ticks_lt h List.prefix_rfl), hlast]
  rfl

/-- and the tick that enters it completes the frame and draws nothing. -/
theorem entering : (b.run (gs ++ [e])).drawn = (b.run gs).drawn ∧
    (b.run (gs ++ [e])).frameReady = true := by
  obtain ⟨hticks, rfl⟩ := hf.last_eq h
  have hlt := hf.ticks_lt h (List.prefix_rfl (l := gs))
  obtain ⟨hin, hon, hphase⟩ := run_from_top h hf.displayOn hf.phase_eq
    (hf.keepsOn_of_prefix h List.prefix_rfl) (Nat.le_of_lt hlt)
  rw [run_concat]
  constructor
  · have hdrawn := hf.drawn_eq h
    have hall : linesDrawn (b.run gs).phase = 144 := by
      rw [hphase, Nat.succ.inj hticks]
      rfl
    have hnone : linesDrawn ((b.run gs).phase + ticks [.tick]) = 144 := by
      rw [hphase]
      exact (congrArg linesDrawn hticks).trans rfl
    rw [apply_drawn hin hon (hphase ▸ hlt) (hall.symm ▸ hdrawn), hnone, hdrawn]
  · have hsucc : (b.run gs).toVideo.tick.1.phase = blankPhase := by
      rw [(tick_phase hin.onSchedule hon).2, hphase, hticks]
      rfl
    rw [apply_toVideo hin]
    exact (tick_frameReady hin.onSchedule hon).trans (by rw [decide_eq_true hsucc, Bool.or_true])

end ShowsFrame

/-- **Every line is drawn once.** Let a program and the clock have done to the unit whatever they
like. Then row `y` changes on the tick that leads to dot 81 of line `y` with the display on and on
no other event; this tick gives it the shades of the line, enters it in the journal and leaves the
other rows. And if from the beginning of line 0 to vertical blank the display stays on, then the
journal gets all lines of the screen from the top, each once, before the frame is completed. -/
theorem lines_drawn_once (es : List Event) (hb : b = powerOn.run es) :
    b.toVideo = Video.run Video.powerOn es ∧
    (∀ (e : Event) (y : Nat) (hy : y < 144),
      (b.apply e).picture[y] ≠ b.picture[y] → b.DrawsAt e y) ∧
    (∀ (e : Event) (y : Nat) (hy : y < 144), b.DrawsAt e y →
      (b.apply e).drawn = b.drawn ++ [y] ∧ (b.apply e).picture[y] = b.lineRow ∧
        ∀ (z : Nat) (hz : z < 144), z ≠ y → (b.apply e).picture[z] = b.picture[z]) ∧
    (∀ e : Event, (∀ y < 144, ¬b.DrawsAt e y) → (b.apply e).drawn = b.drawn) ∧
    ∀ gs e, b.ShowsFrame gs e →
      (b.run gs).drawn = b.drawn ++ List.range 144 ∧
      (∀ hs, hs <+: gs → b.frameReady = false → (b.run hs).frameReady = false) ∧
      (b.run (gs ++ [e])).drawn = (b.run gs).drawn ∧ (b.run (gs ++ [e])).frameReady = true := by
  have h : InStep b := hb ▸ powerOn_inStep.run es
  refine ⟨?_, ?_, ?_, ?_, ?_⟩
  · rw [hb, run_toVideo powerOn_inStep]
    rfl
  · intro e y hy hne
    obtain ⟨hl, hd, hpicture, -⟩ | ⟨-, hpicture, -⟩ := apply_drawing h e
    · have hline : b.line = y := by
        by_contra hother
        exact hne (by rw [hpicture, Vector.getElem_set_ne hl hy hother])
      exact hline ▸ hd
    · exact absurd (by rw [hpicture]) hne
  · intro e y hy hd
    obtain rfl := hd.2.2.1
    obtain ⟨hl, -, hpicture, hdrawn⟩ | ⟨hnot, -, -⟩ := apply_drawing h e
    · refine ⟨hdrawn, ?_, fun z hz hne => ?_⟩
      · rw [hpicture, Vector.getElem_set_self]
      · rw [hpicture, Vector.getElem_set_ne hl hz hne.symm]
    · exact absurd hd (hnot b.line hy)
  · intro e hnot
    obtain ⟨hl, hd, -, -⟩ | ⟨-, -, hdrawn⟩ := apply_drawing h e
    · exact absurd hd (hnot b.line hl)
    · exact hdrawn
  · intro gs e hf
    exact ⟨hf.drawn_eq h, fun hs hpre => hf.frameReady_eq_false h hpre, hf.entering h⟩

/-- A program that writes nothing keeps the display on for the whole frame. -/
theorem showsFrame_ticks {n : Nat} (h : InStep b) (hon : b.displayOn = true) (hp : b.phase = 0)
    (hn : n + 1 = blankPhase) : b.ShowsFrame (List.replicate n .tick) .tick := by
  have hrun : ∀ k ≤ blankPhase, (b.run (List.replicate k .tick)).displayOn = true ∧
      ((b.run (List.replicate k .tick)).mode = .vblank ↔ blankPhase ≤ k) := by
    intro k hk
    obtain ⟨hin, hon', hphase⟩ := run_ticks_from_top h hon hp hk
    refine ⟨hon', ?_⟩
    rw [mode_eq_vblank_iff (hin.onSchedule.spans hon'), hphase]
  have hall : List.replicate n Event.tick ++ [.tick] = List.replicate blankPhase .tick :=
    hn ▸ List.replicate_succ'.symm
  constructor
  case line_eq => exact (phase_eq_zero_iff.1 hp).1
  case dot_eq => exact (phase_eq_zero_iff.1 hp).2
  case staysOn =>
    intro hs hpre
    rw [hall] at hpre
    obtain ⟨hlen, hhs⟩ := List.prefix_replicate_iff.1 hpre
    rw [hhs]
    exact (hrun _ hlen).1
  case shown =>
    intro hs hpre
    obtain ⟨hlen, hhs⟩ := List.prefix_replicate_iff.1 hpre
    rw [hhs, Ne, (hrun _ (by omega)).2]
    omega
  case blank =>
    rw [hall]
    exact (hrun _ (Nat.le_refl _)).2.2 (Nat.le_refl _)

theorem drawsAt_of_phase {y : Nat} (h : InStep b) (hon : b.displayOn = true)
    (hp : b.phase = lineDots * y + 80) : b.DrawsAt .tick y := by
  have hd := (h.onSchedule.spans hon).dot_lt
  unfold phase lineDots at hp
  exact ⟨rfl, hon, by omega, (tick_dot h hon).2 (by omega)⟩

/-- A unit whose display has been switched off and on. -/
def restarted : Buffered := powerOn.run [.write .control 0x11, .write .control 0x91]

/-- Then nothing is written for a frame. Its first line is drawn on the 81st tick, and all of them
before vertical blank. -/
theorem ticks_draw_lines_once :
    ((restarted.run (List.replicate 80 .tick)).apply .tick).drawn = [0] ∧
      (restarted.run (List.replicate 65663 .tick)).drawn = List.range 144 := by
  have h : InStep restarted := powerOn_inStep.run _
  constructor
  · have h80 : ticks (List.replicate 80 .tick) < blankPhase := by decide
    have hnone := run_drawn h rfl rfl keepsOn_ticks h80
    obtain ⟨hin, hon, hphase⟩ := run_ticks_from_top (n := 80) h rfl rfl (by decide)
    have hrun : restarted.run (List.replicate 80 .tick) =
        powerOn.run ([.write .control 0x11, .write .control 0x91] ++ List.replicate 80 .tick) :=
      (run_append _ _ _).symm
    have hdraws := drawsAt_of_phase (y := 0) hin hon hphase
    have hdrawn := ((lines_drawn_once _ hrun).2.2.1 .tick 0 (by decide) hdraws).1
    rw [hdrawn, hnone]
    rfl
  · have hf := showsFrame_ticks (n := 65663) h rfl rfl rfl
    have hdrawn := ((lines_drawn_once _ (b := restarted) rfl).2.2.2.2 _ _ hf).1
    exact hdrawn.trans (List.nil_append _)

end Buffered

end DotMatrix.Video
