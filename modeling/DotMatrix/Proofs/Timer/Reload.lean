import DotMatrix.Bus.Basic
import DotMatrix.Proofs.Interrupts.Ledger
import Mathlib.Data.List.Induction

/-!
# When the timer reloads its counter

The counter wraps, stands at zero for a window of four ticks and is then reloaded, unless a program
gets in between. This file says the same of whole histories, in terms of what a program sees and
does, without a word about the window.

* `Event`, `run`: ticks and writes in any order;
* `Wraps`: the next tick takes the counter from 255 to zero by counting;
* `WrappedAgo es n`: there was such a tick, `n` ticks have gone by since it, and nothing that
  cancels the reload;
* `reload_iff_wrapped`: the timer's interrupt is requested by exactly the ticks that come fourth
  after a wrap that nothing cancelled.
-/

namespace DotMatrix.Timer

/-! ### Histories -/

/-- What happens to the timer. -/
inductive Event
  | tick
  | write (r : Register) (b : UInt8)
  deriving DecidableEq, Repr

/-- The timer after an event. -/
def Event.apply (t : Timer) : Event → Timer
  | tick => t.tick
  | write r b => t.write r b

/-- The timer after events in a row. -/
def run (t : Timer) (es : List Event) : Timer := es.foldl Event.apply t

/-- How many of the events are ticks. -/
def ticks (es : List Event) : Nat := es.count .tick

/-- Does the next tick take the counter from its greatest value to zero, without reloading it? -/
def Wraps (t : Timer) : Prop := t.counter = 255 ∧ t.tick.counter = 0 ∧ t.tick.reloading = false

instance (t : Timer) : Decidable t.Wraps := inferInstanceAs (Decidable (_ ∧ _))

/-- Does the event cancel a reload that is to come? A write to the counter does, and switching the
timer off. -/
def Event.Cancels : Event → Prop
  | write .counter _ => True
  | write .control b => Byte.bit b 2 = false
  | _ => False

instance : (e : Event) → Decidable e.Cancels
  | .tick => .isFalse id
  | .write .divider _ => .isFalse id
  | .write .counter _ => .isTrue trivial
  | .write .modulo _ => .isFalse id
  | .write .control b => inferInstanceAs (Decidable (Byte.bit b 2 = false))

/-- In these events since power on the counter has wrapped, then `n` ticks have gone by, and nothing
has cancelled the reload. -/
def WrappedAgo (es : List Event) (n : Nat) : Prop :=
  ∃ before during, es = before ++ .tick :: during ∧ ticks during = n ∧
    (run powerOn before).Wraps ∧ ∀ e ∈ during, ¬e.Cancels

theorem run_append (t : Timer) (es fs : List Event) : run t (es ++ fs) = run (run t es) fs :=
  List.foldl_append

theorem run_concat (t : Timer) (es : List Event) (e : Event) :
    run t (es ++ [e]) = e.apply (run t es) := run_append t es [e]

@[simp] theorem ticks_append (es fs : List Event) : ticks (es ++ fs) = ticks es + ticks fs :=
  List.count_append

@[simp] theorem ticks_tick : ticks [.tick] = 1 := rfl

@[simp] theorem ticks_write (r : Register) (b : UInt8) : ticks [.write r b] = 0 := rfl

/-! ### A tick -/

variable {t : Timer}

/-- The timer at the beginning of a tick, before the counter and its window are looked at. -/
def advance (t : Timer) : Timer := { t with divider := t.divider + 1, reloading := false }

/-- All that a tick can do. -/
inductive TicksTo (t : Timer) : Timer → Prop
  | off : t.enabled = false → TicksTo t { t.advance with window := none }
  | reload (w : Window) : t.window = some w → w.elapsed = 3 → w.decided = true →
      TicksTo t { t.advance with counter := t.modulo, window := none, reloading := true }
  | giveUp (w : Window) : t.window = some w → w.elapsed = 3 → w.decided = false →
      TicksTo t { t.advance with window := none }
  | stay (w : Window) : t.enabled = true → t.window = some w → w.elapsed ≠ 3 →
      TicksTo t
        { t.advance with
          window := some ⟨w.elapsed + 1, w.decided || (w.elapsed == 2 && t.counter == 0)⟩ }
  | wrap : t.enabled = true → t.window = none → t.counter = 255 →
      TicksTo t { t.advance with counter := 0, window := some ⟨0, false⟩ }
  | count : t.window = none → t.counter ≠ 255 →
      TicksTo t { t.advance with counter := t.counter + 1, window := none }
  | pass : t.window = none → TicksTo t t.advance

theorem tickWindow_ticksTo (h : t.enabled = true) {w : Window} (hw : t.window = some w) :
    TicksTo t (t.advance.tickWindow w) := by
  unfold tickWindow
  by_cases h3 : w.elapsed = 3
  · have hlength : w.elapsed + 1 = Window.length := by
      rw [h3]
      rfl
    have hlate : (w.elapsed + 1 == Window.decision) = false := by
      rw [h3]
      rfl
    cases hd : w.decided with
    | true =>
      simp only [if_pos hlength, Bool.true_or, if_true]
      exact .reload w hw h3 hd
    | false =>
      simp only [if_pos hlength, hlate, Bool.false_and, Bool.or_false]
      exact .giveUp w hw h3 hd
  · have hlength : w.elapsed + 1 ≠ Window.length := by
      unfold Window.length
      omega
    have hdecision : (w.elapsed + 1 == Window.decision) = (w.elapsed == 2) := by
      simp [Window.decision]
    simp only [if_neg hlength, hdecision]
    exact .stay w h hw h3

theorem countUp_ticksTo (h : t.enabled = true) (hw : t.window = none) :
    TicksTo t t.advance.countUp := by
  by_cases h255 : t.counter = 255
  · have hwrap : t.advance.countUp = { t.advance with counter := 0, window := some ⟨0, false⟩ } := by
      simp [countUp, advance, h255]
    rw [hwrap]
    exact .wrap h hw h255
  · have hne : t.counter + 1 ≠ 0 := by
      intro hzero
      apply h255
      have : t.counter = 0 - 1 := by rw [← hzero, UInt8.add_sub_cancel]
      exact this
    have hcount : t.advance.countUp =
        { t.advance with counter := t.counter + 1, window := none } := by
      simp [countUp, advance, hne]
    rw [hcount]
    exact .count hw h255

theorem tick_of_off (h : t.enabled = false) : t.tick = { t.advance with window := none } :=
  if_neg (show ¬t.enabled = true by simp [h])

theorem tick_of_window (h : t.enabled = true) {w : Window} (hw : t.window = some w) :
    t.tick = t.advance.tickWindow w := by
  refine (if_pos h).trans ?_
  split
  · next w' hsome =>
    cases hw.symm.trans hsome
    rfl
  · next hnone => cases hw.symm.trans hnone

theorem tick_of_no_window (h : t.enabled = true) (hw : t.window = none) : t.tick =
    if t.advance.divider.toNat % t.period = 0 then t.advance.countUp else t.advance := by
  refine (if_pos h).trans ?_
  split
  · next w hsome => cases hw.symm.trans hsome
  · rfl

theorem ticksTo_tick (t : Timer) : TicksTo t t.tick := by
  cases h : t.enabled with
  | false =>
    rw [tick_of_off h]
    exact .off h
  | true =>
    cases hw : t.window with
    | some w =>
      rw [tick_of_window h hw]
      exact tickWindow_ticksTo h hw
    | none =>
      rw [tick_of_no_window h hw]
      split
      · exact countUp_ticksTo h hw
      · exact .pass hw

/-- The bits of the control register that a write drops say nothing about the timer being on. -/
theorem enabled_control (t : Timer) (b : UInt8) :
    enabled { t with control := b &&& 0x07 } = Byte.bit b 2 := by
  have h7 : Nat.testBit 7 2 = true := by decide
  simp [enabled, Byte.bit, h7]

/-! ### From the wrap to the reload -/

/-- `n` ticks after a wrap that nothing has cancelled. -/
structure Waits (n : Nat) (t : Timer) : Prop where
  window_eq : t.window = some ⟨n, decide (3 ≤ n)⟩
  counter_eq : t.counter = 0
  enabled_eq : t.enabled = true
  reloading_eq : t.reloading = false

theorem Wraps.waits (h : t.Wraps) : Waits 0 t.tick := by
  obtain ⟨h255, hzero, hreload⟩ := h
  have htick := t.ticksTo_tick
  generalize t.tick = u at htick hzero hreload
  cases htick with
  | wrap hon => exact ⟨rfl, rfl, hon, rfl⟩
  | reload => contradiction
  | count _ hne => contradiction
  -- In the other cases the counter has kept its value, which is not zero.
  | _ => exact absurd (h255.symm.trans hzero) (by decide)

theorem Waits.tick {n : Nat} (h : Waits n t) (hn : n < 3) : Waits (n + 1) t.tick := by
  obtain ⟨hw, hc, hon, -⟩ := h
  have htick := t.ticksTo_tick
  generalize t.tick = u at htick
  cases htick with
  | off hoff => simp [hon] at hoff
  | stay w _ hw' _ =>
    obtain rfl := Option.some.inj (hw.symm.trans hw')
    refine ⟨?_, hc, hon, rfl⟩
    simp only [hc, Option.some.injEq, Window.mk.injEq, true_and]
    grind
  | reload w hw' h3 | giveUp w hw' h3 =>
    obtain rfl := Option.some.inj (hw.symm.trans hw')
    exact absurd h3 (Nat.ne_of_lt hn)
  | wrap _ hnone | count hnone | pass hnone => simp [hw] at hnone

theorem Waits.write {n : Nat} (h : Waits n t) {r : Register} {b : UInt8}
    (hc : ¬(Event.write r b).Cancels) : Waits n (t.write r b) := by
  obtain ⟨hw, hz, hon, hr⟩ := h
  cases r with
  | divider => exact ⟨hw, hz, hon, hr⟩
  | counter => exact absurd trivial hc
  | modulo => exact ⟨hw, by simp [Timer.write, hr, hz], hon, hr⟩
  | control =>
    have hbit : Byte.bit b 2 = true := by simpa [Event.Cancels] using hc
    have hon' : enabled { t with control := b &&& 0x07 } = true := (enabled_control t b).trans hbit
    have hkeep : t.write .control b = { t with control := b &&& 0x07 } := if_pos hon'
    rw [hkeep]
    exact ⟨hw, hz, hon', hr⟩

theorem Waits.run {n : Nat} (h : Waits n t) (es : List Event) (hc : ∀ e ∈ es, ¬e.Cancels)
    (hn : n + ticks es ≤ 3) : Waits (n + ticks es) (run t es) := by
  induction es generalizing t n with
  | nil => exact h
  | cons e es ih =>
    have hes : ∀ e ∈ es, ¬e.Cancels := fun e he => hc e (List.mem_cons_of_mem _ he)
    cases e with
    | tick =>
      have hcount : ticks (.tick :: es) = ticks es + 1 := List.count_cons_self
      rw [hcount] at hn ⊢
      have := ih (h.tick (by omega)) hes (by omega)
      rwa [Nat.add_assoc, Nat.add_comm 1] at this
    | write r b =>
      have hcount : ticks (.write r b :: es) = ticks es := List.count_cons_of_ne (by simp)
      rw [hcount] at hn ⊢
      exact ih (h.write (hc _ List.mem_cons_self)) hes hn

theorem WrappedAgo.waits {es : List Event} {n : Nat} (h : WrappedAgo es n) (hn : n ≤ 3) :
    Waits n (Timer.run powerOn es) := by
  obtain ⟨before, during, rfl, rfl, hwraps, hc⟩ := h
  rw [run_append]
  have := Waits.run hwraps.waits during hc (by omega)
  rwa [Nat.zero_add] at this

/-- The fourth tick after the wrap reloads the counter. -/
theorem Waits.reloads (h : Waits 3 t) : t.tick.reloading = true ∧ t.tick.counter = t.modulo := by
  obtain ⟨hw, hc, hon, -⟩ := h
  have htick := t.ticksTo_tick
  generalize t.tick = u at htick
  cases htick with
  | reload => exact ⟨rfl, rfl⟩
  | off hoff => simp [hon] at hoff
  | giveUp w hw' _ hd | stay w _ hw' hd =>
    obtain rfl := Option.some.inj (hw.symm.trans hw')
    simp at hd
  | wrap _ hnone | count hnone | pass hnone => simp [hw] at hnone

/-! ### From the reload back to the wrap -/

theorem WrappedAgo.concat_tick {es : List Event} {n : Nat} (h : WrappedAgo es n) :
    WrappedAgo (es ++ [.tick]) (n + 1) := by
  obtain ⟨before, during, rfl, rfl, hwraps, hc⟩ := h
  refine ⟨before, during ++ [.tick], by simp, by simp, hwraps, ?_⟩
  intro e he
  rcases List.mem_append.1 he with he | he
  · exact hc e he
  · obtain rfl := List.mem_singleton.1 he
    exact id

theorem WrappedAgo.concat_write {es : List Event} {n : Nat} (h : WrappedAgo es n) {r : Register}
    {b : UInt8} (hw : ¬(Event.write r b).Cancels) : WrappedAgo (es ++ [.write r b]) n := by
  obtain ⟨before, during, rfl, rfl, hwraps, hc⟩ := h
  refine ⟨before, during ++ [.write r b], by simp, by simp, hwraps, ?_⟩
  intro e he
  rcases List.mem_append.1 he with he | he
  · exact hc e he
  · obtain rfl := List.mem_singleton.1 he
    exact hw

/-- A window that is open goes back to a wrap, and none is open on the tick of a reload. -/
theorem wrappedAgo_of_window (es : List Event) :
    ((run powerOn es).reloading = true → (run powerOn es).window = none) ∧
      ∀ w, (run powerOn es).window = some w → WrappedAgo es w.elapsed := by
  induction es using List.reverseRecOn with
  | nil => exact ⟨nofun, nofun⟩
  | append_singleton es e ih =>
    obtain ⟨hnone, hago⟩ := ih
    rw [run_concat]
    generalize ht : run powerOn es = t at hnone hago
    cases e with
    | tick =>
      have htick := t.ticksTo_tick
      have hwraps : t.counter = 255 → t.tick.counter = 0 → t.tick.reloading = false → t.Wraps :=
        fun h255 hzero hr => ⟨h255, hzero, hr⟩
      simp only [Event.apply]
      generalize t.tick = u at htick hwraps
      cases htick with
      | off | giveUp | reload | count => exact ⟨fun _ => rfl, nofun⟩
      | pass hw => exact ⟨nofun, fun w hw' => absurd (hw.symm.trans hw') nofun⟩
      | stay w _ hw =>
        refine ⟨nofun, fun w' hw' => ?_⟩
        obtain rfl := Option.some.inj hw'
        exact (hago w hw).concat_tick
      | wrap _ _ h255 =>
        refine ⟨nofun, fun w' hw' => ?_⟩
        obtain rfl := Option.some.inj hw'
        exact ⟨es, [], rfl, rfl, ht ▸ hwraps h255 rfl rfl, nofun⟩
    | write r b =>
      cases r with
      | divider => exact ⟨hnone, fun w hw => (hago w hw).concat_write id⟩
      | modulo => exact ⟨hnone, fun w hw => (hago w hw).concat_write id⟩
      | counter =>
        simp only [Event.apply, Timer.write]
        by_cases hr : t.reloading = true
        · simp only [hr, if_true]
          exact ⟨fun _ => hnone hr, fun w hw => absurd ((hnone hr).symm.trans hw) nofun⟩
        · simp only [hr]
          exact ⟨fun _ => rfl, nofun⟩
      | control =>
        simp only [Event.apply, Timer.write]
        rw [enabled_control]
        cases hb : Byte.bit b 2 with
        | false => exact ⟨fun _ => rfl, nofun⟩
        | true => exact ⟨hnone, fun w hw => (hago w hw).concat_write (by simp [Event.Cancels, hb])⟩

theorem wrappedAgo_of_reloading {es : List Event}
    (h : (run powerOn es).tick.reloading = true) : WrappedAgo es 3 := by
  have hago := (wrappedAgo_of_window es).2
  have htick := (run powerOn es).ticksTo_tick
  generalize run powerOn es = t at h htick hago
  generalize t.tick = u at h htick
  cases htick with
  | reload w hw h3 => exact h3 ▸ hago w hw
  | _ => contradiction

/-- A tick that does not reload the counter leaves it alone or counts it up. -/
theorem counter_of_not_reloading (h : t.tick.reloading = false) :
    t.tick.counter = t.counter ∨ t.tick.counter = t.counter + 1 := by
  have htick := t.ticksTo_tick
  generalize t.tick = u at h htick
  cases htick with
  | reload => contradiction
  | wrap _ _ h255 => exact .inr (by rw [h255]; rfl)
  | count => exact .inr rfl
  | _ => exact .inl rfl

/-- **Reloads and wraps correspond.** After any ticks and writes since power on, the next tick
requests the timer's interrupt if the counter wrapped exactly four ticks before it and nothing has
cancelled the reload since: the request is up after the tick, and the counter has the value that the
modulo register has. Up to then the counter reads as zero. No other tick and no write requests the
interrupt, and other ticks only count. -/
theorem reload_iff_wrapped (es : List Event) (b : Bus) (h : b.timer = run powerOn es) :
    (WrappedAgo es 3 → b.tickTimer.interrupts = b.interrupts.request .timer ∧
      b.tickTimer.interrupts.requested .timer = true ∧
      b.tickTimer.timer.counter = b.timer.modulo) ∧
    (¬WrappedAgo es 3 → b.tickTimer.interrupts = b.interrupts ∧
      (b.tickTimer.timer.counter = b.timer.counter ∨
        b.tickTimer.timer.counter = b.timer.counter + 1)) ∧
    (∀ n ≤ 3, WrappedAgo es n → b.timer.read .counter = 0) ∧
    ∀ r v, (b.writeDevice (.timer r) v).interrupts = b.interrupts := by
  have htick : b.tickTimer.interrupts = b.interrupts.requestIf b.timer.tick.reloading .timer := rfl
  refine ⟨fun hago => ?_, fun hago => ?_, fun n hn hago => ?_, fun r v => rfl⟩
  · obtain ⟨hreload, hcounter⟩ := (hago.waits (Nat.le_refl 3)).reloads
    rw [← h] at hreload hcounter
    rw [hreload] at htick
    have hrequest : b.tickTimer.interrupts = b.interrupts.request .timer := htick
    refine ⟨hrequest, ?_, hcounter⟩
    rw [hrequest, Interrupts.requested_request_self]
  · have hreload : b.timer.tick.reloading = false := by
      cases hr : b.timer.tick.reloading with
      | false => rfl
      | true =>
        rw [h] at hr
        exact absurd (wrappedAgo_of_reloading hr) hago
    refine ⟨?_, counter_of_not_reloading hreload⟩
    rw [htick, hreload]
    rfl
  · rw [h]
    exact (hago.waits hn).counter_eq

/-- Sixteen ticks at the fastest rate, the last of which wraps the counter; in the window the divider
is cleared, the modulo register is changed and the rate as well. -/
def wrapThenMeddle : List Event :=
  [.write .control 0x05, .write .modulo 0x10, .write .counter 0xFF, .write .divider 0] ++
    List.replicate 15 .tick ++
    .tick :: [.write .divider 7, .tick, .write .modulo 0x42, .tick, .write .control 0x06, .tick]

/-- A bus whose timer has this behind it. -/
def meddled : Bus :=
  { Bus.powerOn (.ofVolume .empty) with timer := run powerOn wrapThenMeddle }

theorem reload_after_meddling :
    meddled.timer = run powerOn wrapThenMeddle ∧ WrappedAgo wrapThenMeddle 3 ∧
      meddled.tickTimer.interrupts = meddled.interrupts.request .timer ∧
        meddled.tickTimer.interrupts.requested .timer = true ∧
        meddled.tickTimer.timer.counter = 0x42 := by
  have htimer : meddled.timer = run powerOn wrapThenMeddle := by dsimp only [meddled]
  have hmodulo : meddled.timer.modulo = 0x42 := by decide +kernel
  have hago : WrappedAgo wrapThenMeddle 3 :=
    ⟨[.write .control 0x05, .write .modulo 0x10, .write .counter 0xFF, .write .divider 0] ++
        List.replicate 15 .tick,
      [.write .divider 7, .tick, .write .modulo 0x42, .tick, .write .control 0x06, .tick],
      rfl, rfl, by decide +kernel, by decide⟩
  obtain ⟨hint, hup, hcounter⟩ := (reload_iff_wrapped wrapThenMeddle meddled htimer).1 hago
  exact ⟨htimer, hago, hint, hup, hcounter.trans hmodulo⟩

end DotMatrix.Timer
