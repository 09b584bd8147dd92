import DotMatrix.Proofs.Bus.History
import Mathlib.Data.Nat.Count

/-!
# How fast the timer counts

While nothing is written, the counter goes up each time the divider reaches a multiple of the period.
It misses no multiple: the four ticks after a wrap in which it does not count are over before the next
one. So the time from one wrap to the next is a whole number of periods, which the modulo register
chooses, and where the counter is after any number of ticks can be said without running it.

* `after`: the timer after ticks;
* `Counts`, `Wrapped`: a timer that counts, and one whose counter wrapped some ticks ago;
* `after_cases`: after any number of ticks the timer is the one or the other, and how far it is;
* `after_wraps_iff`, `after_requests_iff`: which ticks wrap the counter, and which request the
  interrupt;
* `Bus.timer_counts_in_periods`: wraps, requests and counter in closed form.
-/

namespace DotMatrix

namespace Timer

/-- The timer after `n` ticks. -/
def after (t : Timer) (n : Nat) : Timer := t.run (List.replicate n .tick)

/-- How many of the next `n` ticks wrap the counter. -/
def wraps (t : Timer) (n : Nat) : Nat := Nat.count (fun i => (t.after i).Wraps) n

/-- Ticks from the divider's last multiple of the period to the next wrap of the counter, while it
counts. -/
def toWrap (t : Timer) : Nat := t.period * (256 - t.counter.toNat)

/-- Ticks from one wrap to the next. -/
def span (t : Timer) : Nat := t.period * (256 - t.modulo.toNat)

/-- Ticks from the divider's last multiple of the period to the end of the next `n` ticks. -/
def sinceMultiple (t : Timer) (n : Nat) : Nat := t.divider.toNat % t.period + n

/-- How many multiples of the period the divider reaches in `n` ticks, if it does not wrap round. -/
def multiples (t : Timer) (n : Nat) : Nat :=
  (t.divider.toNat + n) / t.period - t.divider.toNat / t.period

variable {t : Timer} {base p : Nat}

theorem after_succ (t : Timer) (n : Nat) : t.after (n + 1) = (t.after n).tick := by
  rw [after, List.replicate_succ', run_concat]
  rfl

/-! ### The period -/

theorem period_cases (t : Timer) :
    t.period = 1024 ∨ t.period = 16 ∨ t.period = 64 ∨ t.period = 256 := by
  unfold period
  split
  · exact .inl rfl
  · exact .inr (.inl rfl)
  · exact .inr (.inr (.inl rfl))
  · exact .inr (.inr (.inr rfl))

theorem sixteen_le_period (t : Timer) : 16 ≤ t.period := by
  obtain h | h | h | h := t.period_cases <;> omega

theorem period_pos (t : Timer) : 0 < t.period := Nat.lt_of_lt_of_le (by decide) t.sixteen_le_period

/-- The divider wraps round at a multiple of the period. -/
theorem period_dvd (t : Timer) : t.period ∣ 65536 := by
  obtain h | h | h | h := t.period_cases <;> rw [h] <;> decide

theorem period_le_span (t : Timer) : t.period ≤ t.span := by
  have h := t.modulo.toNat_lt
  exact Nat.le_mul_of_pos_right _ (by omega)

theorem period_le_toWrap (t : Timer) : t.period ≤ t.toWrap := by
  have h := t.counter.toNat_lt
  exact Nat.le_mul_of_pos_right _ (by omega)

theorem sinceMultiple_zero_lt (t : Timer) : t.sinceMultiple 0 < t.toWrap :=
  Nat.lt_of_lt_of_le (Nat.mod_lt _ t.period_pos) t.period_le_toWrap

theorem span_pos (t : Timer) : 0 < t.span := Nat.lt_of_lt_of_le t.period_pos t.period_le_span

/-! ### What ticks keep -/

theorem tick_control (t : Timer) : t.tick.control = t.control := by
  have htick := t.ticksTo_tick
  generalize t.tick = u at htick
  cases htick <;> rfl

theorem tick_modulo (t : Timer) : t.tick.modulo = t.modulo := by
  have htick := t.ticksTo_tick
  generalize t.tick = u at htick
  cases htick <;> rfl

theorem tick_enabled (t : Timer) : t.tick.enabled = t.enabled := by
  rw [enabled, enabled, tick_control]

theorem tick_period (t : Timer) : t.tick.period = t.period := by
  rw [period, period, tick_control]

theorem after_period (t : Timer) (n : Nat) : (t.after n).period = t.period := by
  induction n with
  | zero => rfl
  | succ n ih => rw [after_succ, tick_period, ih]

theorem after_modulo (t : Timer) (n : Nat) : (t.after n).modulo = t.modulo := by
  induction n with
  | zero => rfl
  | succ n ih => rw [after_succ, tick_modulo, ih]

theorem after_span (t : Timer) (n : Nat) : (t.after n).span = t.span := by
  rw [span, span, after_period, after_modulo]

/-- The divider goes on by a tick, also when it wraps round. -/
theorem advance_divider (h : t.divider.toNat % t.period = p % t.period) :
    t.advance.divider.toNat % t.period = (p + 1) % t.period := by
  have hnext : t.advance.divider.toNat = (t.divider.toNat + 1) % 65536 :=
    UInt16.toNat_add t.divider 1
  rw [hnext, Nat.mod_mod_of_dvd _ t.period_dvd, ← Nat.mod_add_mod, h, Nat.mod_add_mod]

theorem tick_divider (h : t.divider.toNat % t.period = p % t.period) :
    t.tick.divider.toNat % t.tick.period = (p + 1) % t.tick.period := by
  have hnext : t.tick.divider = t.advance.divider := by
    have htick := t.ticksTo_tick
    generalize t.tick = u at htick
    cases htick <;> rfl
  rw [hnext, tick_period]
  exact advance_divider h

/-! ### Counting -/

/-- The counter has counted the multiples of the period in `p` ticks, from `base` on. -/
structure Counts (base p : Nat) (t : Timer) : Prop where
  enabled_eq : t.enabled = true
  window_eq : t.window = none
  divider_eq : t.divider.toNat % t.period = p % t.period
  counter_eq : t.counter.toNat = base + p / t.period

theorem tick_reloading (hon : t.enabled = true) (hw : t.window = none) : t.tick.reloading = false := by
  rw [tick_of_no_window hon hw]
  split <;> rfl

theorem Counts.tick_eq (h : Counts base p t) :
    t.tick = if (p + 1) % t.period = 0 then t.advance.countUp else t.advance := by
  rw [tick_of_no_window h.enabled_eq h.window_eq, advance_divider h.divider_eq]

/-- Below 256 the counter goes on with the multiples of the period. -/
theorem Counts.tick (h : Counts base p t) (hlt : base + (p + 1) / t.period < 256) :
    Counts base (p + 1) t.tick := by
  have hnext : t.tick.window = none ∧ t.tick.counter.toNat = base + (p + 1) / t.period := by
    rw [h.tick_eq]
    split
    case isTrue hmod =>
      rw [Nat.succ_div_of_mod_eq_zero hmod] at hlt ⊢
      have hcount : (t.counter + 1).toNat = t.counter.toNat + 1 := by
        rw [UInt8.toNat_add, h.counter_eq]
        exact Nat.mod_eq_of_lt hlt
      have hne : t.counter + 1 ≠ 0 := fun hzero => by
        rw [hzero] at hcount
        exact absurd hcount (Nat.succ_ne_zero _).symm
      exact ⟨if_neg hne, hcount.trans (by rw [h.counter_eq, Nat.add_assoc])⟩
    case isFalse hmod =>
      rw [Nat.succ_div_of_mod_ne_zero hmod]
      exact ⟨h.window_eq, h.counter_eq⟩
  obtain ⟨hwindow, hcounter⟩ := hnext
  refine ⟨?_, hwindow, tick_divider h.divider_eq, ?_⟩
  · rw [tick_enabled, h.enabled_eq]
  · rw [hcounter, tick_period]

/-- In fewer ticks than the periods take that are left, `v` does not go up to 256. -/
theorem counted_lt {v : UInt8} {period : Nat} (hperiod : 0 < period)
    (hp : p < period * (256 - v.toNat)) : v.toNat + p / period < 256 := by
  have hv := v.toNat_lt
  have hlt : p / period < 256 - v.toNat := (Nat.div_lt_iff_lt_mul hperiod).2 (by rwa [Nat.mul_comm])
  omega

/-- In one tick more it does, if that makes up these periods. -/
theorem counted_eq_iff {v : UInt8} {period : Nat} (hperiod : 0 < period)
    (hp : p < period * (256 - v.toNat)) :
    v.toNat + (p + 1) / period = 256 ↔ p + 1 = period * (256 - v.toNat) := by
  have hv := v.toNat_lt
  constructor
  · intro h
    have hdiv : (p + 1) / period = 256 - v.toNat := by omega
    exact Nat.le_antisymm hp (hdiv ▸ Nat.mul_div_le (p + 1) period)
  · intro h
    rw [h, Nat.mul_div_cancel_left _ hperiod]
    omega

/-- It is at 256 that the counter wraps. -/
theorem Counts.wraps_iff (h : Counts base p t) :
    t.Wraps ↔ base + (p + 1) / t.period = 256 := by
  have hcounter := h.counter_eq
  have hlt := t.counter.toNat_lt
  by_cases hmod : (p + 1) % t.period = 0
  · have htick : t.tick = t.advance.countUp := h.tick_eq.trans (if_pos hmod)
    rw [Nat.succ_div_of_mod_eq_zero hmod]
    constructor
    · rintro ⟨h255, -, -⟩
      have hgreatest : t.counter.toNat = 255 := congrArg UInt8.toNat h255
      omega
    · intro heq
      have h255 : t.counter = 255 := UInt8.toNat_inj.1 (hcounter.trans (Nat.succ.inj heq))
      refine ⟨h255, ?_, tick_reloading h.enabled_eq h.window_eq⟩
      rw [htick]
      show t.counter + 1 = 0
      rw [h255]
      rfl
  · have htick : t.tick = t.advance := h.tick_eq.trans (if_neg hmod)
    rw [Nat.succ_div_of_mod_ne_zero hmod]
    refine iff_of_false (fun hw => ?_) (by omega)
    -- The counter stays, so it cannot be both 255 and zero.
    have hstays : t.tick.counter = t.counter := by rw [htick]; rfl
    exact absurd (hw.1.symm.trans (hstays.symm.trans hw.2.1)) (by decide)

/-! ### From one wrap to the next -/

/-- The counter wrapped `p` ticks ago: it waits for its reload, or has counted on from the value of
the modulo register. -/
structure Wrapped (p : Nat) (t : Timer) : Prop where
  divider_eq : t.divider.toNat % t.period = p % t.period
  waits : p < 4 → Waits p t
  counts : 4 ≤ p → Counts t.modulo.toNat p t

/-- A wrap comes on a multiple of the period. -/
theorem Wraps.wrapped (h : t.Wraps) (hdivider : t.divider.toNat % t.period = p % t.period)
    (hp : t.period ∣ p + 1) : Wrapped 0 t.tick where
  divider_eq := by
    rw [tick_divider hdivider, tick_period, Nat.mod_eq_zero_of_dvd hp, Nat.zero_mod]
  waits _ := h.waits
  counts hle := absurd hle (by decide)

/-- The end of the wait. No multiple of the period has gone by. -/
theorem Waits.counts (h : Waits 3 t) (hdivider : t.divider.toNat % t.period = 3 % t.period) :
    Counts t.tick.modulo.toNat 4 t.tick := by
  obtain ⟨hreload, hcounter⟩ := h.reloads
  have hfour : 4 / t.period = 0 :=
    Nat.div_eq_of_lt (Nat.lt_of_lt_of_le (by decide) t.sixteen_le_period)
  refine ⟨by rw [tick_enabled, h.enabled_eq], ?_, tick_divider hdivider, ?_⟩
  · have htick := t.ticksTo_tick
    generalize t.tick = u at htick hreload
    cases htick with
    | reload => rfl
    | _ => contradiction
  · rw [hcounter, tick_modulo, tick_period, hfour]
    rfl

/-- The fourth tick after the wrap requests the interrupt. -/
theorem Wrapped.reloading_iff (h : Wrapped p t) : t.tick.reloading = true ↔ p = 3 := by
  rcases Nat.lt_trichotomy p 3 with hlt | rfl | hgt
  · rw [((h.waits (by omega)).tick hlt).reloading_eq]
    exact iff_of_false Bool.false_ne_true (Nat.ne_of_lt hlt)
  · exact iff_of_true (h.waits (by decide)).reloads.1 rfl
  · rw [tick_reloading (h.counts hgt).enabled_eq (h.counts hgt).window_eq]
    exact iff_of_false Bool.false_ne_true (Nat.ne_of_gt hgt)

/-- The last tick of a span wraps the counter again. -/
theorem Wrapped.wraps_iff (h : Wrapped p t) (hp : p < t.span) : t.Wraps ↔ p + 1 = t.span := by
  rcases Nat.lt_or_ge p 4 with hlt | hle
  · have hlong := Nat.le_trans t.sixteen_le_period t.period_le_span
    refine iff_of_false (fun hw => ?_) (by omega)
    exact absurd ((h.waits hlt).counter_eq.symm.trans hw.1) (by decide)
  · exact (h.counts hle).wraps_iff.trans (counted_eq_iff t.period_pos hp)

/-- **A tick goes round the span.** -/
theorem Wrapped.tick (h : Wrapped p t) (hp : p < t.span) :
    Wrapped ((p + 1) % t.span) t.tick := by
  have hdivider := tick_divider h.divider_eq
  rcases Nat.lt_or_eq_of_le (Nat.succ_le_of_lt hp) with hlt | heq
  · rw [Nat.mod_eq_of_lt hlt]
    refine ⟨hdivider, fun h4 => (h.waits (by omega)).tick (by omega), fun h4 => ?_⟩
    obtain rfl | hgt := Nat.eq_or_lt_of_le (Nat.le_of_succ_le_succ h4)
    · exact (h.waits (by decide)).counts h.divider_eq
    · rw [tick_modulo]
      exact (h.counts hgt).tick (counted_lt t.period_pos hlt)
  · have hlast : p + 1 = t.span := heq
    rw [hlast, Nat.mod_self]
    exact ((h.wraps_iff hp).2 hlast).wrapped h.divider_eq (hlast ▸ Nat.dvd_mul_right _ _)

/-! ### Any number of ticks -/

section After

variable (hon : t.enabled = true) (hw : t.window = none)
include hon hw

/-- **After any number of ticks** the counter has not yet wrapped, or it is known how long ago it last
did. -/
theorem after_cases (n : Nat) :
    t.sinceMultiple n < t.toWrap ∧ Counts t.counter.toNat (t.sinceMultiple n) (t.after n) ∨
      t.toWrap ≤ t.sinceMultiple n ∧
        Wrapped ((t.sinceMultiple n - t.toWrap) % t.span) (t.after n) := by
  induction n with
  | zero =>
    have hphase : t.divider.toNat % t.period < t.period := Nat.mod_lt _ t.period_pos
    refine .inl ⟨t.sinceMultiple_zero_lt, hon, hw, ?_, ?_⟩
    · exact (Nat.mod_mod _ _).symm
    · show t.counter.toNat = _ + t.divider.toNat % t.period / t.period
      rw [Nat.div_eq_of_lt hphase, Nat.add_zero]
  | succ n ih =>
    rw [after_succ, show t.sinceMultiple (n + 1) = t.sinceMultiple n + 1 from rfl]
    have hperiod := after_period t n
    obtain ⟨hlt, hcounts⟩ | ⟨hle, hwrapped⟩ := ih
    · rcases Nat.lt_or_eq_of_le (Nat.succ_le_of_lt hlt) with hbefore | hlast
      · refine .inl ⟨hbefore, hcounts.tick ?_⟩
        rw [hperiod]
        exact counted_lt t.period_pos hbefore
      · have heq : t.sinceMultiple n + 1 = t.toWrap := hlast
        refine .inr ⟨Nat.le_of_eq heq.symm, ?_⟩
        rw [heq, Nat.sub_self, Nat.zero_mod]
        have hwraps : (t.after n).Wraps := by
          rw [hcounts.wraps_iff, hperiod]
          exact (counted_eq_iff t.period_pos hlt).2 heq
        refine hwraps.wrapped hcounts.divider_eq ?_
        rw [hperiod, heq]
        exact Nat.dvd_mul_right _ _
    · refine .inr ⟨Nat.le_succ_of_le hle, ?_⟩
      have hnext := hwrapped.tick (by rw [after_span]; exact Nat.mod_lt _ t.span_pos)
      rwa [after_span, Nat.mod_add_mod, ← Nat.sub_add_comm hle] at hnext

/-- Which ticks wrap the counter. -/
theorem after_wraps_iff (n : Nat) : (t.after n).Wraps ↔
    t.toWrap ≤ t.sinceMultiple (n + 1) ∧ t.span ∣ t.sinceMultiple (n + 1) - t.toWrap := by
  have hsucc : t.sinceMultiple (n + 1) = t.sinceMultiple n + 1 := rfl
  obtain ⟨hlt, hcounts⟩ | ⟨hle, hwrapped⟩ := after_cases hon hw n
  · rw [hcounts.wraps_iff, after_period, hsucc]
    refine (counted_eq_iff t.period_pos hlt).trans ⟨fun heq => ?_, fun h => ?_⟩
    · have heq' : t.sinceMultiple n + 1 = t.toWrap := heq
      rw [heq', Nat.sub_self]
      exact ⟨Nat.le_refl _, Nat.dvd_zero _⟩
    · exact Nat.le_antisymm hlt h.1
  · rw [hwrapped.wraps_iff (by rw [after_span]; exact Nat.mod_lt _ t.span_pos), after_span, hsucc,
      Nat.sub_add_comm hle, Nat.dvd_iff_mod_eq_zero, and_iff_right (Nat.le_succ_of_le hle)]
    obtain ⟨s, hs⟩ := Nat.exists_eq_succ_of_ne_zero (Nat.ne_of_gt t.span_pos)
    rw [hs, Nat.succ_mod_succ_eq_zero_iff]
    exact Nat.succ_inj

/-- Which ticks request the interrupt. -/
theorem after_requests_iff (n : Nat) : (t.after n).tick.reloading = true ↔
    t.toWrap ≤ t.sinceMultiple n ∧ (t.sinceMultiple n - t.toWrap) % t.span = 3 := by
  obtain ⟨hlt, hcounts⟩ | ⟨hle, hwrapped⟩ := after_cases hon hw n
  · rw [tick_reloading hcounts.enabled_eq hcounts.window_eq]
    exact iff_of_false Bool.false_ne_true fun h => absurd h.1 (Nat.not_le.2 hlt)
  · rw [hwrapped.reloading_iff, and_iff_right hle]

/-- How many ticks have wrapped the counter. -/
theorem wraps_eq (n : Nat) : t.wraps n =
    if t.sinceMultiple n < t.toWrap then 0 else 1 + (t.sinceMultiple n - t.toWrap) / t.span := by
  induction n with
  | zero => exact (if_pos t.sinceMultiple_zero_lt).symm
  | succ n ih =>
    have hsucc : t.sinceMultiple (n + 1) = t.sinceMultiple n + 1 := rfl
    rw [wraps, Nat.count_succ, ← wraps, ih]
    simp only [after_wraps_iff hon hw n]
    rw [hsucc]
    rcases Nat.lt_trichotomy (t.sinceMultiple n + 1) t.toWrap with hlt | heq | hgt
    · rw [if_pos (Nat.lt_of_succ_lt hlt), if_pos hlt, if_neg fun h => Nat.not_le.2 hlt h.1]
    · rw [heq, Nat.sub_self, Nat.zero_div, if_pos (heq ▸ Nat.lt_succ_self _),
        if_pos ⟨Nat.le_refl _, Nat.dvd_zero _⟩, if_neg (Nat.lt_irrefl _)]
    · have hle : t.toWrap ≤ t.sinceMultiple n := Nat.le_of_lt_succ hgt
      rw [if_neg (Nat.not_lt.2 hle), if_neg (Nat.lt_asymm hgt), Nat.sub_add_comm hle, Nat.succ_div,
        Nat.add_assoc]
      simp only [Nat.le_of_lt hgt, true_and]

/-- Every request comes four ticks after a wrap, and every wrap leads to one. -/
theorem requests_iff_wraps (i : Nat) :
    (t.after i).tick.reloading = true ↔ ∃ j, i = j + 4 ∧ (t.after j).Wraps := by
  have hphase := t.sinceMultiple_zero_lt
  have hlong := Nat.le_trans t.sixteen_le_period t.period_le_span
  rw [after_requests_iff hon hw]
  constructor
  · rintro ⟨hle, hmod⟩
    have hthree : 3 ≤ t.sinceMultiple i - t.toWrap := hmod ▸ Nat.mod_le _ _
    have hdvd := Nat.dvd_sub_mod (n := t.span) (t.sinceMultiple i - t.toWrap)
    rw [hmod] at hdvd
    have hi : 4 ≤ i := by
      unfold sinceMultiple at hphase hle hthree
      omega
    obtain ⟨j, rfl⟩ := Nat.exists_eq_add_of_le' hi
    have hearlier : t.sinceMultiple (j + 1) = t.sinceMultiple (j + 4) - 3 := rfl
    refine ⟨j, rfl, (after_wraps_iff hon hw j).2 ⟨by omega, ?_⟩⟩
    rwa [hearlier, Nat.sub_right_comm]
  · rintro ⟨j, rfl, hwraps⟩
    obtain ⟨hle, hdvd⟩ := (after_wraps_iff hon hw j).1 hwraps
    have hlater : t.sinceMultiple (j + 4) = t.sinceMultiple (j + 1) + 3 := rfl
    rw [hlater]
    refine ⟨Nat.le_add_right_of_le hle, ?_⟩
    rw [Nat.sub_add_comm hle, Nat.add_mod, Nat.mod_eq_zero_of_dvd hdvd, Nat.zero_add, Nat.mod_mod]
    exact Nat.mod_eq_of_lt (by omega)

/-- From one request to the next it is a span. -/
theorem next_request {i : Nat} (h : (t.after i).tick.reloading = true) :
    (t.after (i + t.span)).tick.reloading = true ∧
      ∀ j, i < j → j < i + t.span → (t.after j).tick.reloading = false := by
  obtain ⟨hle, hmod⟩ := (after_requests_iff hon hw i).1 h
  have hlater (d : Nat) : t.sinceMultiple (i + d) = t.sinceMultiple i + d :=
    (Nat.add_assoc _ _ _).symm
  constructor
  · rw [after_requests_iff hon hw, hlater, Nat.sub_add_comm hle, Nat.add_mod_right]
    exact ⟨Nat.le_add_right_of_le hle, hmod⟩
  · intro j hij hj
    obtain ⟨d, rfl⟩ := Nat.exists_eq_add_of_le (Nat.le_of_lt hij)
    rw [← Bool.not_eq_true, after_requests_iff hon hw, hlater, Nat.sub_add_comm hle]
    rintro ⟨-, hmod'⟩
    have hd : (t.sinceMultiple i - t.toWrap + d - (t.sinceMultiple i - t.toWrap)) % t.span = 0 :=
      Nat.sub_mod_eq_zero_of_mod_eq (hmod'.trans hmod.symm)
    rw [Nat.add_sub_cancel_left, Nat.mod_eq_of_lt (by omega)] at hd
    omega

/-- Once the counter has wrapped there was a last wrap, and it is known how long ago. -/
theorem exists_last_wrap {n : Nat} (h : t.toWrap ≤ t.sinceMultiple n) :
    ∃ last < n, (t.after last).Wraps ∧ (∀ i, last < i → i < n → ¬(t.after i).Wraps) ∧
      n - (last + 1) = (t.sinceMultiple n - t.toWrap) % t.span := by
  have hphase := t.sinceMultiple_zero_lt
  have hdvd := Nat.dvd_sub_mod (n := t.span) (t.sinceMultiple n - t.toWrap)
  have hle := Nat.mod_le (t.sinceMultiple n - t.toWrap) t.span
  have hlt := Nat.mod_lt (t.sinceMultiple n - t.toWrap) t.span_pos
  generalize (t.sinceMultiple n - t.toWrap) % t.span = r at hdvd hle hlt ⊢
  have hrn : r < n := by
    unfold sinceMultiple at hphase h hle
    omega
  obtain ⟨last, rfl⟩ := Nat.exists_eq_add_of_lt hrn
  have hearlier : t.sinceMultiple (r + last + 1) = t.sinceMultiple (last + 1) + r := by
    unfold sinceMultiple
    omega
  have hreached : t.toWrap ≤ t.sinceMultiple (last + 1) := by omega
  rw [hearlier, Nat.sub_add_comm hreached, Nat.add_sub_cancel] at hdvd
  refine ⟨last, by omega, (after_wraps_iff hon hw last).2 ⟨hreached, hdvd⟩,
    fun i hlast hi hwraps => ?_, by omega⟩
  -- Another wrap would be a whole span later.
  obtain ⟨d, rfl⟩ := Nat.exists_eq_add_of_le (Nat.le_of_lt hlast)
  have hlater : t.sinceMultiple (last + d + 1) = t.sinceMultiple (last + 1) + d := by
    unfold sinceMultiple
    omega
  have hagain := ((after_wraps_iff hon hw _).1 hwraps).2
  rw [hlater, Nat.sub_add_comm hreached] at hagain
  have hspan := Nat.le_of_dvd (by omega) ((Nat.dvd_add_right hdvd).1 hagain)
  omega

/-! ### Multiples of the period -/

omit hon hw in
theorem multiples_eq (t : Timer) (n : Nat) : t.multiples n = t.sinceMultiple n / t.period := by
  have hsplit : t.divider.toNat + n =
      t.period * (t.divider.toNat / t.period) + t.sinceMultiple n := by
    rw [sinceMultiple, ← Nat.add_assoc, Nat.div_add_mod]
  rw [multiples, hsplit, Nat.mul_add_div t.period_pos, Nat.add_sub_cancel_left]

omit hon hw in
theorem sinceMultiple_lt_iff (t : Timer) (n : Nat) :
    t.sinceMultiple n < t.toWrap ↔ t.multiples n < 256 - t.counter.toNat := by
  rw [multiples_eq, Nat.div_lt_iff_lt_mul t.period_pos, toWrap, Nat.mul_comm]

/-- Before the first wrap the counter has gone up with the multiples. -/
theorem counter_before {n : Nat} (h : t.multiples n < 256 - t.counter.toNat) :
    t.wraps n = 0 ∧ (t.after n).counter.toNat = t.counter.toNat + t.multiples n := by
  have hlt := (sinceMultiple_lt_iff t n).2 h
  refine ⟨(wraps_eq hon hw n).trans (if_pos hlt), ?_⟩
  obtain ⟨-, hcounts⟩ | ⟨hle, -⟩ := after_cases hon hw n
  · rw [hcounts.counter_eq, after_period, multiples_eq]
  · exact absurd hlt (Nat.not_lt.2 hle)

/-- After it the counter waits, or has gone up from the value of the modulo register. -/
theorem counter_since {n : Nat} (h : 256 - t.counter.toNat ≤ t.multiples n) :
    t.wraps n = 1 + (t.multiples n - (256 - t.counter.toNat)) / (256 - t.modulo.toNat) ∧
      ∃ last < n, (t.after last).Wraps ∧ (∀ i, last < i → i < n → ¬(t.after i).Wraps) ∧
        (t.after n).counter.toNat =
          if n - (last + 1) < 4 then 0
          else t.modulo.toNat +
            (t.multiples n - (256 - t.counter.toNat)) % (256 - t.modulo.toNat) := by
  have hnot : ¬t.sinceMultiple n < t.toWrap := fun hlt =>
    absurd ((sinceMultiple_lt_iff t n).1 hlt) (Nat.not_lt.2 h)
  have hgone : t.multiples n - (256 - t.counter.toNat) =
      (t.sinceMultiple n - t.toWrap) / t.period := by
    rw [multiples_eq, toWrap, Nat.sub_mul_div]
  have hwrapped : Wrapped ((t.sinceMultiple n - t.toWrap) % t.span) (t.after n) := by
    obtain ⟨hlt, -⟩ | ⟨-, hwrapped⟩ := after_cases hon hw n
    · exact absurd hlt hnot
    · exact hwrapped
  obtain ⟨last, hlast, hwraps, hnone, hago⟩ := exists_last_wrap hon hw (Nat.not_lt.1 hnot)
  rw [hgone, wraps_eq hon hw, if_neg hnot, Nat.div_div_eq_div_mul]
  refine ⟨rfl, last, hlast, hwraps, hnone, ?_⟩
  rw [hago, ← Nat.mod_mul_right_div_self]
  split
  case isTrue hwait =>
    rw [(hwrapped.waits hwait).counter_eq]
    rfl
  case isFalse hwait =>
    rw [(hwrapped.counts (Nat.not_lt.1 hwait)).counter_eq, after_modulo, after_period]
    rfl

end After

end Timer

namespace Bus

theorem runTimer_succ (n : Nat) (b : Bus) : runTimer (n + 1) b = (runTimer n b).tickTimer := by
  induction n generalizing b with
  | zero => rfl
  | succ n ih => exact ih b.tickTimer

theorem runTimer_timer (n : Nat) (b : Bus) : (runTimer n b).timer = b.timer.after n := by
  obtain ⟨_, h⟩ := b.runTimer_eq n
  rw [h]
  rfl

/-- **The counter in closed form.** Let the timer be on and not wait for a reload, and let ticks go by
in which nothing is written. Before the counter has gone up to 256 no tick wraps it; after that it
wraps again each time it has gone from the modulo register's value to 256. Between two wraps it stands
at zero for four ticks and is then where the multiples of the period since the wrap take it from that
value. A tick requests the interrupt if and only if it is the fourth after a wrap, so that the requests
are a fixed time apart. -/
theorem timer_counts_in_periods (b : Bus) (hon : b.timer.enabled = true)
    (hw : b.timer.window = none) :
    let t := b.timer
    let first := 256 - t.counter.toNat
    let next := 256 - t.modulo.toNat
    (∀ n, (runTimer n b).timer = t.after n ∧
      (runTimer (n + 1) b).interrupts =
        (runTimer n b).interrupts.requestIf (t.after n).tick.reloading .timer) ∧
    (∀ n, t.multiples n < first →
      t.wraps n = 0 ∧ (t.after n).counter.toNat = t.counter.toNat + t.multiples n) ∧
    (∀ n, first ≤ t.multiples n →
      t.wraps n = 1 + (t.multiples n - first) / next ∧
      ∃ last < n, (t.after last).Wraps ∧ (∀ i, last < i → i < n → ¬(t.after i).Wraps) ∧
        (t.after n).counter.toNat =
          if n - (last + 1) < 4 then 0
          else t.modulo.toNat + (t.multiples n - first) % next) ∧
    (∀ i, (t.after i).tick.reloading = true ↔ ∃ j, i = j + 4 ∧ (t.after j).Wraps) ∧
    ∀ i, (t.after i).tick.reloading = true →
      (t.after (i + next * t.period)).tick.reloading = true ∧
      ∀ j, i < j → j < i + next * t.period → (t.after j).tick.reloading = false := by
  intro t first next
  have hspan : next * t.period = t.span := Nat.mul_comm _ _
  refine ⟨fun n => ⟨runTimer_timer n b, ?_⟩, fun n => Timer.counter_before hon hw,
    fun n => Timer.counter_since hon hw, Timer.requests_iff_wraps hon hw, fun i hi => ?_⟩
  · rw [runTimer_succ, ← runTimer_timer]
    rfl
  · rw [hspan]
    exact Timer.next_request hon hw hi

/-- The divider is about to wrap round, and the modulo register makes the counter wrap in every
period. -/
def shortPeriods : Bus :=
  { powerOn (.ofVolume .empty) with
    timer := { Timer.powerOn with divider := 0xFFF8, counter := 0xFE, modulo := 0xFF, control := 5 } }

/-- Three wraps in 70 ticks, and requests 16 ticks apart. -/
theorem timer_counts_in_short_periods :
    let b := shortPeriods
    b.timer.enabled = true ∧ b.timer.window = none ∧ b.timer.wraps 70 = 3 ∧
      (b.timer.after 27).tick.reloading = true ∧ (b.timer.after 43).tick.reloading = true := by
  intro b
  have hon : b.timer.enabled = true := by decide
  obtain ⟨-, -, hsince, -, hnext⟩ := timer_counts_in_periods b hon rfl
  have hfirst : (b.timer.after 27).tick.reloading = true := by decide +kernel
  have hsteps : (b.timer.multiples 70, 256 - b.timer.counter.toNat, 256 - b.timer.modulo.toNat,
      b.timer.period) = (4, 2, 1, 16) := by decide +kernel
  simp only [Prod.mk.injEq] at hsteps
  obtain ⟨h4, h2, h1, h16⟩ := hsteps
  have hthree := (hsince 70 (by omega)).1
  have hsecond := (hnext 27 hfirst).1
  rw [h4, h2, h1] at hthree
  rw [h1, h16] at hsecond
  exact ⟨hon, rfl, hthree, hfirst, hsecond⟩

end Bus

end DotMatrix
