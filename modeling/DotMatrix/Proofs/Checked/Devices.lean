import DotMatrix.ObjectTransfer
import DotMatrix.Proofs.Checked.Arithmetic
import DotMatrix.Timer

/-!
# Timer and object transfer, checked

Two counters are bounded by what is done when they reach their end: the window of the timer closes
after four ticks, and a transfer ends after 160 bytes.

* `Timer.WindowOpen`, `Timer.tick?_eq`: a window that is open has not reached its length;
* `ObjectTransfer.Counting`, `ObjectTransfer.step?_eq`: a transfer that waits has a cycle left to
  wait, and the count of bytes never passes 160.
-/

namespace DotMatrix

namespace Timer

/-- The periods of the counter. -/
def periods : List Nat := [1024, 16, 64, 256]

/-- Ticks between two steps of the counter. -/
def period? (t : Timer) : Option Nat := periods[t.control.toNat % 4]?

/-- One more tick of the window `w`. -/
def tickWindow? (t : Timer) (w : Window) : Option Timer := do
  let elapsed ← Checked.add 8 w.elapsed 1
  let decided := w.decided || (elapsed == Window.decision && t.counter == 0)
  some
    (if elapsed = Window.length then
      if decided then { t with counter := t.modulo, window := none, reloading := true }
      else { t with window := none }
    else { t with window := some ⟨elapsed, decided⟩ })

/-- One clock tick. -/
def tick? (t : Timer) : Option Timer :=
  let t := { t with divider := t.divider + 1, reloading := false }
  if t.enabled then
    match t.window with
    | some w => t.tickWindow? w
    | none => do
      let period ← t.period?
      Checked.require (period ≠ 0)
      some (if t.divider.toNat % period = 0 then t.countUp else t)
  else some { t with window := none }

/-- A window that is open is not over. -/
def WindowOpen (t : Timer) : Prop := ∀ w, t.window = some w → w.elapsed < Window.length

variable {t : Timer}

theorem period?_eq (t : Timer) : t.period? = some t.period ∧ t.period ≠ 0 := by
  have hr : t.control.toNat % 4 < 4 := Nat.mod_lt _ (by decide)
  unfold period? period
  generalize t.control.toNat % 4 = r at hr
  match r, hr with
  | 0, _ => exact ⟨rfl, by decide⟩
  | 1, _ => exact ⟨rfl, by decide⟩
  | 2, _ => exact ⟨rfl, by decide⟩
  | 3, _ => exact ⟨rfl, by decide⟩

theorem tickWindow?_eq {w : Window} (h : w.elapsed < Window.length) :
    t.tickWindow? w = some (t.tickWindow w) := by
  unfold Window.length at h
  rw [tickWindow?, Checked.add_eq (by omega)]
  rfl

theorem tick?_eq (h : WindowOpen t) : t.tick? = some t.tick := by
  unfold tick? tick
  dsimp only
  split
  · cases hw : t.window with
    | some w => exact tickWindow?_eq (h w hw)
    | none =>
      dsimp only
      rw [(period?_eq _).1]
      simp only [Option.bind_eq_bind, Option.bind_some]
      rw [Checked.require_eq (period?_eq _).2]
      rfl
  · rfl

theorem powerOn_windowOpen : WindowOpen powerOn := nofun

theorem windowOpen_of_none (h : t.window = none) : WindowOpen t := by
  intro w hw
  rw [h] at hw
  contradiction

theorem tickWindow_windowOpen {w : Window} (h : w.elapsed < Window.length) :
    WindowOpen (t.tickWindow w) := by
  unfold tickWindow
  dsimp only
  split
  · split <;> exact windowOpen_of_none rfl
  · rename_i hne
    intro w' hw'
    obtain rfl := Option.some.inj hw'
    exact Nat.lt_of_le_of_ne h hne

theorem countUp_windowOpen (t : Timer) : WindowOpen t.countUp := by
  intro w hw
  unfold countUp at hw
  dsimp only at hw
  split at hw
  · obtain rfl := Option.some.inj hw
    decide
  · contradiction

theorem WindowOpen.tick (h : WindowOpen t) : WindowOpen t.tick := by
  unfold Timer.tick
  dsimp only
  split
  · split
    · rename_i w hw
      exact tickWindow_windowOpen (h w hw)
    · split
      · exact countUp_windowOpen _
      · exact h
  · exact windowOpen_of_none rfl

theorem WindowOpen.write (h : WindowOpen t) (r : Register) (b : UInt8) :
    WindowOpen (t.write r b) := by
  cases r with
  | divider => exact h
  | counter =>
    unfold Timer.write
    dsimp only
    split
    · exact h
    · exact windowOpen_of_none rfl
  | modulo => exact h
  | control =>
    unfold Timer.write
    dsimp only
    split
    · exact h
    · exact windowOpen_of_none rfl

end Timer

namespace ObjectTransfer

/-- One machine cycle, and the byte to copy in it. -/
def step? : ObjectTransfer → Option (ObjectTransfer × Option Copy)
  | .idle => some (.idle, none)
  | .waiting page n => do
    let _ ← Checked.sub n 1
    some (step (.waiting page n))
  | .copying page i => do
    let _ ← Checked.add 16 objectBase.toNat i.val
    let next ← Checked.add 8 i.val 1
    Checked.require (next ≤ 160)
    some (if h : next < 160 then .copying page ⟨next, h⟩ else .idle, some (copyOf page i))

/-- A transfer that waits has one or two cycles to wait. -/
def Counting (t : ObjectTransfer) : Prop := ∀ page n, t = .waiting page n → 1 ≤ n ∧ n ≤ 2

variable {t : ObjectTransfer}

theorem step?_eq (h : Counting t) : t.step? = some t.step := by
  cases t with
  | idle => rfl
  | waiting page n =>
    obtain ⟨h1, -⟩ := h page n rfl
    rw [step?, Checked.sub_eq h1]
    rfl
  | copying page i =>
    have hi := i.isLt
    have hbase : objectBase.toNat = 0xFE00 := rfl
    rw [step?, hbase, Checked.add_eq (by omega)]
    simp only [Option.bind_eq_bind, Option.bind_some]
    rw [Checked.add_eq (by omega), Option.bind_some, Checked.require_eq (by omega)]
    rfl

theorem idle_counting : Counting .idle := nofun

theorem start_counting (page : UInt8) : Counting (start page) := by
  intro page' n h
  obtain ⟨-, rfl⟩ := waiting.inj h
  decide

theorem Counting.step (h : Counting t) : Counting t.step.1 := by
  intro page' n' h'
  cases t with
  | idle => contradiction
  | waiting page n =>
    obtain ⟨h1, h2⟩ := h page n rfl
    unfold ObjectTransfer.step at h'
    dsimp only at h'
    split at h'
    · contradiction
    · obtain ⟨-, rfl⟩ := waiting.inj h'
      omega
  | copying page i =>
    unfold ObjectTransfer.step at h'
    dsimp only at h'
    split at h' <;> contradiction

end ObjectTransfer

end DotMatrix
