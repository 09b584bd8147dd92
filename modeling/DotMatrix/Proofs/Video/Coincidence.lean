import DotMatrix.Proofs.Video.History

/-!
# The coincidence bit

Bit 2 of the status register is kept, not computed: it holds what the last comparison of the line
with the compare register gave. The unit compares them whenever it moves on to another line, and
whenever a program writes the compare register. Switching the display off is the one thing that
changes the line without comparing, and so the bit may be out of date after it.

* `Compares`, `SwitchesOff`: the events that make the bit right, and those that may make it wrong;
* `coincidence_of_compared`: the bit is right if there was a comparison since the display was last
  switched off;
* `status_coincidence`: and if there was none, the bit is what it was before.
-/

namespace DotMatrix.Video

/-! ### Comparisons -/

/-- Does the event compare the line with the compare register? Moving on to another line does, and
writing that register. -/
def Compares (v : Video) : Event → Prop
  | .tick => v.tick.1.line ≠ v.line
  | .write .lineCompare _ => True
  | _ => False

/-- Does the event switch the display off? -/
def SwitchesOff (v : Video) : Event → Prop
  | .write .control b => v.displayOn = true ∧ Byte.bit b 7 = false
  | _ => False

/-- Something in `es` compares the line, if they happen to `v`. -/
def SomeCompares (v : Video) (es : List Event) : Prop :=
  ∃ before e after, es = before ++ e :: after ∧ Compares (run v before) e

/-- Each time the display was switched off in these events since power on, the line was compared
again later. -/
def Compared (es : List Event) : Prop :=
  ∀ before e after, es = before ++ e :: after → SwitchesOff (run powerOn before) e →
    SomeCompares (run powerOn (before ++ [e])) after

/-! ### One event -/

variable {v : Video}

/-- A tick moves on to another line and compares it, or does neither. -/
theorem tick_line_cases (v : Video) :
    v.tick.1.lineCompare = v.lineCompare ∧
      (v.tick.1.line = v.line ∧ v.tick.1.coincidence = v.coincidence ∨
        v.tick.1.line ≠ v.line ∧ v.tick.1.coincidence = v.tick.1.onCompareLine) := by
  cases hon : v.displayOn with
  | false =>
    rw [tick_of_off hon]
    exact ⟨rfl, .inl ⟨rfl, rfl⟩⟩
  | true =>
    rw [tick_of_on hon]
    cases v.mode with
    | objectScan =>
      rcases Nat.lt_or_ge v.nextDot.dot scanDots with h | h
      · simp only [tickScan_of_lt h]
        split <;> exact ⟨rfl, .inl ⟨rfl, rfl⟩⟩
      · simp only [tickScan_of_le h]
        exact ⟨rfl, .inl ⟨rfl, rfl⟩⟩
    | transfer =>
      rcases Nat.lt_or_ge v.nextDot.dot transferEnd with h | h
      · simp only [tickTransfer_of_lt h]
        obtain ⟨picture, windowLine, he⟩ := v.nextDot.drawLine_eq
        rw [he]
        split <;> exact ⟨rfl, .inl ⟨rfl, rfl⟩⟩
      · simp only [tickTransfer_of_le h]
        exact ⟨rfl, .inl ⟨rfl, rfl⟩⟩
    | hblank =>
      have hnext : v.line + 1 ≠ v.line := Nat.succ_ne_self _
      rcases Nat.lt_or_ge v.nextDot.dot lineDots with h | h
      · simp only [tickHBlank_of_lt h]
        exact ⟨rfl, .inl ⟨rfl, rfl⟩⟩
      rcases Nat.lt_or_ge (v.line + 1) screenHeight with hl | hl
      · simp only [tickHBlank_of_shown h hl]
        exact ⟨rfl, .inr ⟨hnext, rfl⟩⟩
      · simp only [tickHBlank_of_last h hl]
        exact ⟨rfl, .inr ⟨hnext, rfl⟩⟩
    | vblank =>
      rcases Nat.lt_or_ge v.nextDot.dot lineDots with h | h
      · simp only [tickVBlank_of_lt h]
        exact ⟨rfl, .inl ⟨rfl, rfl⟩⟩
      rcases Nat.lt_or_ge (v.line + 1) frameLines with hl | hl
      · simp only [tickVBlank_of_blank h hl]
        exact ⟨rfl, .inr ⟨Nat.succ_ne_self _, rfl⟩⟩
      · simp only [tickVBlank_of_last h hl]
        have hfirst : 0 ≠ v.line := by
          unfold frameLines at hl
          omega
        exact ⟨rfl, .inr ⟨hfirst, rfl⟩⟩

/-- After a comparison the bit is right. -/
theorem Compares.coincidence_eq {e : Event} (h : Compares v e) :
    (e.apply v).coincidence = (e.apply v).onCompareLine := by
  cases e with
  | tick =>
    obtain ⟨-, ⟨hl, -⟩ | ⟨-, hc⟩⟩ := v.tick_line_cases
    · exact absurd hl h
    · exact hc
  | write r b =>
    cases r with
    | lineCompare => rfl
    | _ => exact h.elim
  | memories | acknowledge => exact h.elim

/-- Without a comparison the bit and the compare register stay as they are, and so does the line
unless the display is switched off. -/
theorem kept_of_not_compares {e : Event} (h : ¬Compares v e) :
    (e.apply v).coincidence = v.coincidence ∧ (e.apply v).lineCompare = v.lineCompare ∧
      ((e.apply v).line = v.line ∨ SwitchesOff v e ∧ (e.apply v).line = 0) := by
  cases e with
  | tick =>
    obtain ⟨hlc, ⟨hl, hc⟩ | ⟨hl, -⟩⟩ := v.tick_line_cases
    · exact ⟨hc, hlc, .inl hl⟩
    · exact absurd hl h
  | write r b =>
    cases r with
    | control =>
      simp only [Event.apply, Video.write]
      obtain ⟨hon, hb, he⟩ | ⟨-, -, he⟩ | ⟨-, he⟩ := writeControl_cases v b <;> rw [he]
      · exact ⟨rfl, rfl, .inr ⟨⟨hon, hb⟩, rfl⟩⟩
      · exact ⟨rfl, rfl, .inl rfl⟩
      · exact ⟨rfl, rfl, .inl rfl⟩
    | lineCompare => exact absurd trivial h
    | _ => exact ⟨rfl, rfl, .inl rfl⟩
  | memories | acknowledge => exact ⟨rfl, rfl, .inl rfl⟩

/-- Switching off is no comparison, and it leads to line 0. -/
theorem SwitchesOff.line_eq {e : Event} (h : SwitchesOff v e) :
    ¬Compares v e ∧ (e.apply v).line = 0 := by
  cases e with
  | write r b =>
    cases r with
    | control =>
      refine ⟨id, ?_⟩
      simp only [Event.apply, Video.write]
      obtain ⟨-, -, he⟩ | ⟨hoff, -, -⟩ | ⟨hsame, -⟩ := writeControl_cases v b
      · rw [he]
      · exact absurd h.1 (by simp [hoff])
      · exact absurd (hsame.symm.trans h.1) (by simp [h.2])
    | _ => exact h.elim
  | _ => exact h.elim

/-! ### Histories since power on -/

theorem SomeCompares.concat {es : List Event} {e : Event} (h : SomeCompares v (es ++ [e])) :
    SomeCompares v es ∨ Compares (run v es) e := by
  obtain ⟨before, f, after, heq, hc⟩ := h
  rcases List.eq_nil_or_concat after with rfl | ⟨after, g, rfl⟩
  · obtain ⟨rfl, hf⟩ := List.append_inj' heq rfl
    obtain rfl := List.singleton_inj.1 hf
    exact .inr hc
  · left
    refine ⟨before, f, after, ?_, hc⟩
    rw [List.concat_eq_append, ← List.cons_append, ← List.append_assoc] at heq
    exact (List.append_inj' heq rfl).1

/-- The bit is right as long as every switching off was followed by a comparison. -/
theorem coincidence_of_compared {es : List Event} (h : Compared es) :
    (run powerOn es).coincidence = (run powerOn es).onCompareLine := by
  induction es using List.reverseRecOn with
  | nil => rfl
  | append_singleton es e ih =>
    rw [run_concat]
    by_cases hc : Compares (run powerOn es) e
    · exact hc.coincidence_eq
    have hon : ¬SwitchesOff (run powerOn es) e := by
      intro hoff
      obtain ⟨before, f, after, heq, -⟩ := h es e [] rfl hoff
      simp at heq
    have hbefore : Compared es := by
      rintro before f after rfl hoff
      have hsome := h before f (after ++ [e]) (by simp) hoff
      rcases hsome.concat with hsome | hlast
      · exact hsome
      · rw [← run_append, List.append_assoc, List.singleton_append] at hlast
        exact absurd hlast hc
    obtain ⟨hbit, hlc, hline | ⟨hoff, -⟩⟩ := kept_of_not_compares hc
    · rw [hbit, onCompareLine, hlc, hline]
      exact ih hbefore
    · exact absurd hoff hon

/-- Without any comparison the bit and the compare register stay as they are, and so does line 0. -/
theorem kept_of_no_comparison {es : List Event} (h : ¬SomeCompares v es) :
    (run v es).coincidence = v.coincidence ∧ (run v es).lineCompare = v.lineCompare ∧
      (v.line = 0 → (run v es).line = 0) := by
  induction es generalizing v with
  | nil => exact ⟨rfl, rfl, id⟩
  | cons e es ih =>
    have hfirst : ¬Compares v e := fun hc => h ⟨[], e, es, rfl, hc⟩
    have hrest : ¬SomeCompares (e.apply v) es := by
      rintro ⟨before, f, after, rfl, hc⟩
      exact h ⟨e :: before, f, after, rfl, hc⟩
    obtain ⟨hbit, hlc, hline⟩ := kept_of_not_compares hfirst
    obtain ⟨hbit', hlc', hline'⟩ := ih hrest
    refine ⟨hbit'.trans hbit, hlc'.trans hlc, fun hzero => hline' ?_⟩
    rcases hline with hsame | ⟨-, hzero'⟩
    · exact hsame.trans hzero
    · exact hzero'

/-! ### What a program reads -/

/-- The cause that would stand in the place of the coincidence bit cannot be selected. -/
theorem Reachable.statusSelect_bit (h : Reachable v) : Byte.bit v.statusSelect 2 = false := by
  induction h with
  | powerOn => decide
  | @tick v h ih =>
    have hsame : v.tick.1.statusSelect = v.statusSelect := by
      cases hon : v.displayOn with
      | false => rw [tick_of_off hon]
      | true => exact (tick_advances hon (h.onSchedule.spans hon)).inputs.statusSelect_eq
    rw [hsame]
    exact ih
  | @write v r b _ ih =>
    cases r with
    | status =>
      have h78 : Nat.testBit 0x78 2 = false := by decide
      simp [Video.write, Byte.bit, h78]
    | control =>
      simp only [Video.write]
      obtain ⟨-, -, he⟩ | ⟨-, -, he⟩ | ⟨-, he⟩ := writeControl_cases v b <;> rw [he] <;> exact ih
    | _ => exact ih
  | memories _ _ _ ih => exact ih
  | acknowledge _ ih => exact ih

/-- Bit 2 of the status register is the outcome of the last comparison. -/
theorem Reachable.status_bit (h : Reachable v) : Byte.bit (v.read .status) 2 = v.coincidence := by
  have hselect : v.statusSelect.toNat.testBit 2 = false := h.statusSelect_bit
  have htop : Nat.testBit 0x80 2 = false := by decide
  have hmode : v.mode.number.toNat.testBit 2 = false := by cases v.mode <;> decide
  have hbit : (if v.coincidence then (0x04 : UInt8) else 0).toNat.testBit 2 = v.coincidence := by
    cases v.coincidence <;> decide
  simp [Video.read, status, Byte.bit, hselect, htop, hmode, hbit]

/-- **When the coincidence bit is right.** After anything that may happen since power on, bit 2 of
the status register says whether the line is the one in the compare register, if each time the
display was switched off a comparison came later: the unit moved on to another line, or the compare
register was written. As long as there was none, the unit is on line 0, and the bit is still what it
was when the display was switched off. -/
theorem status_coincidence (es : List Event) :
    (Compared es → (Byte.bit ((run powerOn es).read .status) 2 = true ↔
      (run powerOn es).line = (run powerOn es).lineCompare.toNat)) ∧
    ∀ before e after, es = before ++ e :: after → SwitchesOff (run powerOn before) e →
      ¬SomeCompares (run powerOn (before ++ [e])) after →
      (run powerOn es).line = 0 ∧
      (run powerOn es).lineCompare = (run powerOn before).lineCompare ∧
      Byte.bit ((run powerOn es).read .status) 2 =
        Byte.bit ((run powerOn before).read .status) 2 := by
  constructor
  · intro h
    rw [(run_reachable es).status_bit, coincidence_of_compared h, onCompareLine, beq_iff_eq]
  · rintro before e after rfl hoff hnone
    obtain ⟨hfirst, hzero⟩ := hoff.line_eq
    obtain ⟨hbit, hlc, -⟩ := kept_of_not_compares hfirst
    obtain ⟨hbit', hlc', hline'⟩ := kept_of_no_comparison hnone
    rw [(run_reachable _).status_bit, (run_reachable _).status_bit, List.append_cons, run_append]
    rw [run_concat] at hbit' hlc' hline' ⊢
    exact ⟨hline' hzero, hlc'.trans hlc, hbit'.trans hbit⟩

/-- The display is switched off and on again at once: the unit is on line 0, which the compare
register asks for, and the bit does not say so. -/
theorem coincidence_lost_by_restart :
    ¬∀ v : Video, Reachable v → v.displayOn = true →
      (Byte.bit (v.read .status) 2 = true ↔ v.line = v.lineCompare.toNat) := by
  intro h
  have hr : Reachable ((powerOn.write .control 0x11).write .control 0x91) :=
    .write .control 0x91 (.write .control 0x11 .powerOn)
  have hline : ((powerOn.write .control 0x11).write .control 0x91).line =
      ((powerOn.write .control 0x11).write .control 0x91).lineCompare.toNat := by decide
  have hbit := (h _ hr (by decide)).2 hline
  exact absurd hbit (by decide)

end DotMatrix.Video
