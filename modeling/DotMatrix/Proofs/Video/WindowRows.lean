import DotMatrix.Proofs.Video.Scene
import DotMatrix.Proofs.Video.Window

/-!
# The row that the window has come to

The window is drawn from a row of its own. The row goes on when a line shows the window; it goes back
on the ticks of vertical blank, and when the display is switched off. A program may move the window,
or switch it or the display off and on, between any two ticks. Still the row is a count: of the lines
with a window that have been drawn since line 0 last began.

* `AtTop`, `SinceTop`: line 0 begins, and what has happened since it last did;
* `DrawsWindow`, `linesWithWindow`: the lines with a window that a history draws;
* `apply_windowLine`: what one event does to the row while lines are shown;
* `windowLine_le`: it never gets ahead of the lines that have been drawn;
* `windowLine_counts`: it is the count, after any history.
-/

namespace DotMatrix.Video

variable {v : Video} {e : Event}

/-- Events leave a unit that is switched off at the beginning of line 0. -/
theorem Event.apply_of_off (hs : OnSchedule v) (hoff : v.displayOn = false) :
    (e.apply v).line = 0 ∧ (e.apply v).dot = 0 := by
  have hrest : v.line = 0 ∧ v.dot = 0 := ⟨(hs.atRest hoff).line_eq, (hs.atRest hoff).dot_eq⟩
  cases e with
  | tick =>
    rw [Event.apply, tick_of_off hoff]
    exact hrest
  | write r b =>
    cases r with
    | control =>
      simp only [Event.apply, Video.write]
      obtain ⟨-, -, he⟩ | ⟨-, -, he⟩ | ⟨-, he⟩ := writeControl_cases v b <;> rw [he]
      · exact ⟨rfl, rfl⟩
      · exact ⟨hrest.1, rfl⟩
      · exact hrest
    | _ => exact hrest
  | memories | acknowledge => exact hrest

theorem Event.keepsOn_of_displayOn (hon : (e.apply v).displayOn = true) : e.KeepsOn := by
  by_contra hk
  exact Bool.false_ne_true ((Event.displayOff hk).symm.trans hon)

/-- Between ticks the row of the window stays, unless the display is switched off. -/
theorem Event.windowLine_eq (ht : e.isTick = false) (hk : e.KeepsOn) :
    (e.apply v).windowLine = v.windowLine := by
  cases e with
  | tick => cases ht
  | write r b =>
    cases r with
    | control =>
      have hb : Byte.bit b 7 = true := hk
      simp only [Event.apply, Video.write]
      obtain ⟨-, hb', -⟩ | ⟨-, -, he⟩ | ⟨-, he⟩ := writeControl_cases v b
      · exact absurd (hb'.symm.trans hb) Bool.false_ne_true
      · rw [he]
      · rw [he]
    | _ => rfl
  | memories | acknowledge => rfl

namespace Buffered

/-! ### Counting the lines with a window -/

/-- Line 0 begins: the display is on, and no dot of the line has passed. -/
def AtTop (b : Buffered) : Prop := b.displayOn = true ∧ b.line = 0 ∧ b.dot = 0

/-- Since power on `es` has happened, and `after` of it since line 0 last began. -/
structure SinceTop (es before after : List Event) : Prop where
  split : es = before ++ after
  top : (powerOn.run before).AtTop
  latest : ∀ fs, fs <+: after → fs ≠ [] → ¬(powerOn.run (before ++ fs)).AtTop

/-- Does the event draw a line that shows the window in some column? -/
def DrawsWindow (b : Buffered) (e : Event) : Prop :=
  (b.apply e).drawn ≠ b.drawn ∧ b.backgroundOn = true ∧ ∃ x : Fin 160, b.showsWindow x = true

instance (b : Buffered) (e : Event) : Decidable (b.DrawsWindow e) :=
  inferInstanceAs (Decidable (_ ∧ _))

/-- How many lines with a window the events draw. -/
def linesWithWindow (b : Buffered) : List Event → Nat
  | [] => 0
  | e :: es => linesWithWindow (b.apply e) es + if b.DrawsWindow e then 1 else 0

variable {b : Buffered} {es before after before' after' : List Event}

theorem linesDrawn_mono {p q : Nat} (h : p ≤ q) : linesDrawn p ≤ linesDrawn q :=
  Nat.div_le_div_right (Nat.add_le_add_right h 375)

theorem linesWithWindow_concat (b : Buffered) (es : List Event) (e : Event) :
    b.linesWithWindow (es ++ [e]) =
      b.linesWithWindow es + if (b.run es).DrawsWindow e then 1 else 0 := by
  induction es generalizing b with
  | nil => rfl
  | cons f es ih =>
    show (b.apply f).linesWithWindow (es ++ [e]) + _ = (b.apply f).linesWithWindow es + _ + _
    rw [ih, Nat.add_right_comm]
    rfl

/-- The display is on at the beginning of line 0. -/
theorem atTop_iff : b.AtTop ↔ b.displayOn = true ∧ b.phase = 0 :=
  and_congr_right fun _ => phase_eq_zero_iff.symm

/-- Line 0 begins with the last event. -/
theorem SinceTop.begin (h : (powerOn.run es).AtTop) : SinceTop es es [] where
  split := (List.append_nil es).symm
  top := h
  latest _ hpre hne := absurd (List.prefix_nil.1 hpre) hne

/-- One event more, if line 0 does not begin with it. -/
theorem SinceTop.concat (h : SinceTop es before after) (hnot : ¬(powerOn.run (es ++ [e])).AtTop) :
    SinceTop (es ++ [e]) before (after ++ [e]) where
  split := by rw [h.split, List.append_assoc]
  top := h.top
  latest fs hpre hne := by
    rcases List.prefix_concat_iff.1 hpre with rfl | hpre
    · rwa [← List.append_assoc, ← h.split]
    · exact h.latest fs hpre hne

/-- Line 0 last began at one point of a history only. -/
theorem SinceTop.unique (h : SinceTop es before after) (h' : SinceTop es before' after') :
    before = before' ∧ after = after' := by
  -- The later of two such points lies in what has happened since the earlier one.
  have key : ∀ {before after before' after' : List Event}, SinceTop es before after →
      SinceTop es before' after' → before <+: before' → before = before' := by
    rintro before after before' after' h h' ⟨fs, rfl⟩
    have hafter : after = fs ++ after' :=
      List.append_cancel_left (h.split.symm.trans (h'.split.trans (List.append_assoc _ _ _)))
    by_cases hne : fs = []
    · rw [hne, List.append_nil]
    · exact absurd h'.top (h.latest fs ⟨after', hafter.symm⟩ hne)
  have hbefore : before = before' := by
    have hpre : before <+: es := ⟨after, h.split.symm⟩
    have hpre' : before' <+: es := ⟨after', h'.split.symm⟩
    rcases List.prefix_or_prefix_of_prefix hpre hpre' with hle | hle
    · exact key h h' hle
    · exact (key h' h hle).symm
  subst hbefore
  exact ⟨rfl, List.append_cancel_left (h.split.symm.trans h'.split)⟩

/-! ### One event -/

/-- An event that draws a line is a tick with the display on. -/
theorem shown_of_drawn (h : InStep b) (hd : (b.apply e).drawn ≠ b.drawn) :
    b.DrawsAt e b.line ∧ b.line < 144 ∧ (b.apply e).drawn = b.drawn ++ [b.line] ∧
      (b.apply e).displayOn = true := by
  obtain ⟨hl, hat, -, hdrawn⟩ | ⟨-, -, hsame⟩ := apply_drawing h e
  · refine ⟨hat, hl, hdrawn, ?_⟩
    obtain rfl := hat.1
    rw [apply_toVideo h]
    exact (tick_phase h.onSchedule hat.2.1).1
  · exact absurd hsame hd

/-- By then all the lines above it have been drawn. -/
theorem linesDrawn_of_drawsAt {y : Nat} (h : InStep b) (hat : b.DrawsAt e y) :
    linesDrawn b.phase = y ∧ linesDrawn (b.phase + 1) = y + 1 := by
  obtain ⟨rfl, hon, rfl, h81⟩ := hat
  have hdot := (h.onSchedule.spans hon).dot_lt
  have h80 : b.dot = 80 := (tick_dot h hon).1 h81
  rw [linesDrawn_phase hdot, linesDrawn_phase_succ hdot, if_neg (by omega), if_pos (by omega)]
  exact ⟨rfl, rfl⟩

/-- **While lines are shown** the row of the window goes on with a line that shows the window, and
stays otherwise. -/
theorem apply_windowLine (h : InStep b) (hon : b.displayOn = true) (hl : b.line < 144)
    (hon' : (b.apply e).displayOn = true) :
    (b.apply e).windowLine = if b.DrawsWindow e then b.windowLine + 1 else b.windowLine := by
  by_cases ht : e.isTick = true
  · obtain rfl := Event.eq_tick ht
    obtain ⟨-, -, he⟩ | ⟨-, -, he⟩ | ⟨-, hidle⟩ := tick_cases h hon
    · have hnot : ¬b.DrawsWindow .tick := fun hd => hd.1 (by rw [apply, he]; rfl)
      rw [if_neg hnot, apply, he]
      rfl
    · have hdrawn : b.tick.drawn ≠ b.drawn := by
        rw [he]
        show b.nextDot.drawLine.drawn ≠ b.drawn
        rw [(b.nextDot.drawLine_drawing hl).2]
        exact fun hsame => List.cons_ne_nil _ _ (List.append_right_eq_self.1 hsame)
      have hdraws : b.DrawsWindow .tick ↔ b.drawsWindow = true :=
        (and_iff_right hdrawn).trans drawsWindow_iff.symm
      rw [apply, he]
      exact (drawLine_windowLine (b := b.nextDot) hl).trans (if_congr hdraws.symm rfl rfl)
    · obtain ⟨_, _, _, _, _, _, _, _, hwindow, he⟩ := hidle
      have hnot : ¬b.DrawsWindow .tick := fun hd => hd.1 (by rw [apply, he])
      rw [if_neg hnot, apply, he]
      exact hwindow hl
  · have ht' : e.isTick = false := Bool.eq_false_iff.2 ht
    have hnot : ¬b.DrawsWindow e := fun hd => hd.1 (apply_picture ht').2
    have hk : e.KeepsOn := Event.keepsOn_of_displayOn (v := b.toVideo) (apply_toVideo h e ▸ hon')
    rw [if_neg hnot, apply_toVideo h]
    exact Event.windowLine_eq ht' hk

/-- The row of the window does not get ahead of the lines that have been drawn. -/
def Behind (b : Buffered) : Prop :=
  b.displayOn = true → b.windowLine.toNat ≤ linesDrawn b.phase

theorem Behind.tick (hb : Behind b) (h : InStep b) (hon : b.displayOn = true) :
    b.tick.windowLine.toNat ≤ linesDrawn b.tick.phase := by
  have hspan := h.onSchedule.spans hon
  have hon' : (b.apply .tick).displayOn = true := by
    rw [apply_toVideo h]
    exact (tick_phase h.onSchedule hon).1
  rcases Nat.lt_or_ge b.line 144 with hl | hl
  · have hp : b.phase < blankPhase :=
      Nat.not_le.1 fun hle => Nat.not_le.2 hl ((blankPhase_le_phase_iff hspan.dot_lt).1 hle)
    have hrow := apply_windowLine h hon hl hon'
    simp only [apply] at hrow
    rw [hrow, tick_phase_succ h hon hp]
    split
    case isTrue hd =>
      obtain ⟨hnow, hnext⟩ := linesDrawn_of_drawsAt h (shown_of_drawn h hd.1).1
      have hle := hb hon
      rw [hnow] at hle
      rw [hnext, UInt8.toNat_add]
      exact Nat.le_trans (Nat.mod_le _ _) (Nat.succ_le_succ hle)
    case isFalse => exact Nat.le_trans (hb hon) (linesDrawn_mono (Nat.le_succ _))
  · have hm : b.mode = .vblank :=
      (mode_eq_vblank_iff hspan).2 ((blankPhase_le_phase_iff hspan.dot_lt).2 hl)
    rw [tick_windowLine hon hm]
    exact Nat.zero_le _

theorem Behind.apply (hb : Behind b) (h : InStep b) (e : Event) : Behind (b.apply e) := by
  intro hon'
  by_cases ht : e.isTick = true
  · obtain rfl := Event.eq_tick ht
    have hon : b.displayOn = true := by
      by_contra hoff
      have hsame : b.tick = b := tick_of_off (Bool.eq_false_iff.2 hoff)
      exact hoff (hsame ▸ hon')
    exact hb.tick h hon
  · have ht' : e.isTick = false := Bool.eq_false_iff.2 ht
    rw [apply_toVideo h] at hon' ⊢
    have hk := Event.keepsOn_of_displayOn hon'
    rw [Event.windowLine_eq ht' hk]
    cases hon : b.displayOn with
    | true =>
      have hphase := (hk.phase_eq h.onSchedule hon).2
      rw [ht', if_neg Bool.false_ne_true, Nat.add_zero,
        Nat.mod_eq_of_lt h.onSchedule.phase_lt] at hphase
      rw [hphase]
      exact hb hon
    | false =>
      rw [(h.onSchedule.atRest hon).windowLine_eq]
      exact Nat.zero_le _

theorem Behind.run (hb : Behind b) (h : InStep b) (es : List Event) : Behind (b.run es) := by
  induction es generalizing b with
  | nil => exact hb
  | cons e es ih => exact ih (hb.apply h e) (h.apply e)

theorem powerOn_behind : Behind powerOn := fun _ => Nat.zero_le _

/-- **The bound**: after any history the row is at most one more than the line. -/
theorem windowLine_le (hb : Behind b) (h : InStep b) : b.windowLine.toNat ≤ b.line + 1 := by
  cases hon : b.displayOn with
  | true =>
    have hle := hb hon
    rw [linesDrawn_phase (h.onSchedule.spans hon).dot_lt] at hle
    split at hle <;> omega
  | false =>
    rw [(h.onSchedule.atRest hon).windowLine_eq]
    exact Nat.zero_le _

/-- So the row counts on without wrapping round. -/
theorem apply_windowLine_toNat (h : InStep b) (hb : Behind b) (hon : b.displayOn = true)
    (hl : b.line < 144) (hon' : (b.apply e).displayOn = true) :
    (b.apply e).windowLine.toNat = b.windowLine.toNat + if b.DrawsWindow e then 1 else 0 := by
  have hsmall := windowLine_le hb h
  have hone : (1 : UInt8).toNat = 1 := rfl
  rw [apply_windowLine h hon hl hon']
  split
  · rw [UInt8.toNat_add, hone]
    exact Nat.mod_eq_of_lt (by omega)
  · rfl

/-- Lines are shown with the display on, and come from lines that are shown, unless line 0 has just
begun. -/
theorem shown_of_apply (h : InStep b) (hon' : (b.apply e).displayOn = true)
    (hl' : (b.apply e).line < 144) (hnot : ¬(b.apply e).AtTop) :
    b.displayOn = true ∧ b.line < 144 := by
  have hin := h.apply e
  have hd' := (hin.onSchedule.spans hon').dot_lt
  rw [atTop_iff, not_and] at hnot
  have hphase' := hnot hon'
  have hlt' : (b.apply e).phase < blankPhase :=
    Nat.not_le.1 fun hle => Nat.not_le.2 hl' ((blankPhase_le_phase_iff hd').1 hle)
  rw [apply_toVideo h] at hon' hphase' hlt'
  cases hon : b.displayOn with
  | false => exact absurd (phase_eq_zero_iff.2 (Event.apply_of_off h.onSchedule hon)) hphase'
  | true =>
    refine ⟨rfl, line_lt_of_phase_lt (h.onSchedule.spans hon).dot_lt ?_⟩
    rw [((Event.keepsOn_of_displayOn hon').phase_eq h.onSchedule hon).2] at hphase' hlt'
    -- An event goes on by a dot at most, so vertical blank is left for line 0 only.
    have hone : (if e.isTick then 1 else 0) ≤ 1 := by split <;> decide
    by_contra hblank
    rcases Nat.lt_or_eq_of_le (Nat.le_trans (Nat.add_le_add_left hone _) h.onSchedule.phase_lt)
      with hwithin | hround
    · rw [Nat.mod_eq_of_lt hwithin] at hlt'
      exact hblank (Nat.lt_of_le_of_lt (Nat.le_add_right _ _) hlt')
    · rw [hround, Nat.mod_self] at hphase'
      exact hphase' rfl

/-! ### Histories -/

/-- **Since line 0 last began**: as long as lines are shown, the row of the window counts the lines
with a window. -/
theorem exists_sinceTop (es : List Event) (hon : (powerOn.run es).displayOn = true)
    (hl : (powerOn.run es).line < 144) :
    ∃ before after, SinceTop es before after ∧
      (powerOn.run es).windowLine.toNat = (powerOn.run before).linesWithWindow after := by
  induction es using List.reverseRecOn with
  | nil => exact absurd hl (by decide)
  | append_singleton es e ih =>
    have hin : InStep (powerOn.run es) := powerOn_inStep.run es
    have hbehind : Behind (powerOn.run es) := powerOn_behind.run powerOn_inStep es
    by_cases htop : (powerOn.run (es ++ [e])).AtTop
    · have hle := (powerOn_behind.run powerOn_inStep (es ++ [e])) hon
      rw [(atTop_iff.1 htop).2] at hle
      exact ⟨_, [], .begin htop, Nat.le_zero.1 hle⟩
    · rw [run_concat] at hon hl htop ⊢
      obtain ⟨hon₀, hl₀⟩ := shown_of_apply hin hon hl htop
      obtain ⟨before, after, hsince, hcount⟩ := ih hon₀ hl₀
      refine ⟨before, after ++ [e], hsince.concat (by rwa [run_concat]), ?_⟩
      rw [linesWithWindow_concat, ← run_append, ← hsince.split, ← hcount]
      exact apply_windowLine_toNat hin hbehind hon₀ hl₀ hon

/-- **The row of the window is a count.** Let a program and the clock have done to the unit whatever
they like since power on, and let the next event draw line `y`. Then line 0 has begun before, and the
row of the window from which the line is drawn is the number of lines drawn since it last began that
showed the window in some column; line 0 is drawn from row 0. At all times the row is at most one more
than the line, and a line that shows the window takes it on by one, without wrapping round. -/
theorem windowLine_counts (es : List Event) (hb : b = powerOn.run es) :
    b.toVideo = Video.run Video.powerOn es ∧
    (∀ (e : Event) (y : Nat), (b.apply e).drawn = b.drawn ++ [y] → b.line = y ∧
      (∃ before after, SinceTop es before after) ∧
      (∀ before after, SinceTop es before after →
        b.windowLine.toNat = (powerOn.run before).linesWithWindow after) ∧
      (y = 0 → b.windowLine = 0)) ∧
    b.windowLine.toNat ≤ b.line + 1 ∧
    ∀ e : Event, b.DrawsWindow e → (b.apply e).windowLine.toNat = b.windowLine.toNat + 1 := by
  have hin : InStep b := hb ▸ powerOn_inStep.run es
  have hbehind : Behind b := hb ▸ powerOn_behind.run powerOn_inStep es
  refine ⟨?_, fun e y hdrawn => ?_, windowLine_le hbehind hin, fun e hd => ?_⟩
  · rw [hb, run_toVideo powerOn_inStep]
    rfl
  · have hne : (b.apply e).drawn ≠ b.drawn := by
      rw [hdrawn]
      exact fun hsame => List.cons_ne_nil _ _ (List.append_right_eq_self.1 hsame)
    obtain ⟨hat, hl, hline, -⟩ := shown_of_drawn hin hne
    have hon : b.displayOn = true := hat.2.1
    obtain ⟨before, after, hsince, hcount⟩ := exists_sinceTop es (hb ▸ hon) (hb ▸ hl)
    rw [← hb] at hcount
    have hy : b.line = y :=
      List.singleton_inj.1 (List.append_cancel_left (hline.symm.trans hdrawn))
    refine ⟨hy, ⟨before, after, hsince⟩, fun before' after' hsince' => ?_, fun hzero => ?_⟩
    · obtain ⟨rfl, rfl⟩ := hsince.unique hsince'
      exact hcount
    · have hle := hbehind hon
      rw [(linesDrawn_of_drawsAt hin hat).1, hy, hzero] at hle
      exact UInt8.toNat_inj.1 (Nat.le_zero.1 hle)
  · obtain ⟨hat, hl, -, hon'⟩ := shown_of_drawn hin hd.1
    rw [apply_windowLine_toNat hin hbehind hat.2.1 hl hon', if_pos hd]

/-- The display is switched off and on again, with a window that covers it. -/
def opened : List Event :=
  [.write .control 0x11, .write .windowX 7, .write .control 0xB1]

theorem sinceTop_opened {n : Nat} (hn : n ≤ blankPhase) :
    SinceTop (opened ++ List.replicate n .tick) opened (List.replicate n .tick) where
  split := rfl
  top := ⟨rfl, rfl, rfl⟩
  latest fs hpre hne htop := by
    obtain ⟨hle, hfs⟩ := List.prefix_replicate_iff.1 hpre
    obtain ⟨-, -, hphase⟩ := run_ticks_from_top (powerOn_inStep.run opened) rfl rfl
      (Nat.le_trans hle hn)
    rw [run_append, atTop_iff, hfs, hphase] at htop
    exact hne (List.length_eq_zero_iff.1 htop.2)

/-- The tick that draws line 1: line 0 has shown the window. -/
theorem windowLine_counts_opened :
    ((powerOn.run (opened ++ List.replicate 536 .tick)).apply .tick).drawn =
        (powerOn.run (opened ++ List.replicate 536 .tick)).drawn ++ [1] ∧
      (powerOn.run opened).linesWithWindow (List.replicate 536 .tick) = 1 := by
  have h : InStep (powerOn.run opened) := powerOn_inStep.run opened
  have hb : (powerOn.run opened).BeginsFrame := ⟨rfl, rfl, rfl, rfl, rfl, rfl⟩
  have hrun := run_append powerOn opened (List.replicate 536 .tick)
  obtain ⟨hin, hon, hphase⟩ := run_ticks_from_top (n := 536) h rfl rfl (by decide)
  have hdrawn : ((powerOn.run (opened ++ List.replicate 536 .tick)).apply .tick).drawn =
      (powerOn.run (opened ++ List.replicate 536 .tick)).drawn ++ [1] := by
    have hat := drawsAt_of_phase (y := 1) hin hon hphase
    rw [hrun]
    obtain ⟨-, -, -, hdrawn⟩ | ⟨hnot, -, -⟩ := apply_drawing hin .tick
    · rwa [hat.2.2.1] at hdrawn
    · exact absurd hat (hnot 1 (by decide))
  obtain ⟨-, -, hcount, -⟩ := (windowLine_counts _ rfl).2.1 .tick 1 hdrawn
  have hrow := (hb.draws (n := 536) (by decide)).windowLine_eq (by rw [hphase]; decide)
  rw [hphase] at hrow
  refine ⟨hdrawn, (hcount _ _ (sinceTop_opened (by decide))).symm.trans ?_⟩
  rw [hrun, hrow]
  decide +kernel

end Buffered

end DotMatrix.Video
