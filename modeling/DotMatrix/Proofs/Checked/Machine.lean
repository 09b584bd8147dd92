import DotMatrix.Processor.Machine
import DotMatrix.Proofs.Checked.Bus

/-!
# Machine cycles, checked

The clock is a number of 64 bits and every machine cycle adds to it, so whether a step gives a
result depends on how far the clock gets by the end of the step. A `Tracks` fact says of a part of
a step that it gives its result, if the bus is sound before and the clock is not full after it.
Facts about parts compose as the parts do.

* `Leads`: the bus stays sound, and the clock goes on by whole machine cycles;
* `Tracks`, `Tracks.bind`: what is said of a part of a step, and two parts in a row;
* `cycle_tracks`: a machine cycle, which every access to memory takes.
-/

namespace DotMatrix

namespace Machine

/-- What a part of a step does to the machine. -/
structure Leads (m m' : Machine) : Prop where
  sound : m.bus.Sound → m'.bus.Sound
  clock : ∃ n, m'.cpu.cycles = m.cpu.cycles + Bus.ticksPerCycle * n

/-- A computation `p` that begins at the machine `m` has the result `x`, and leads to the machine
in it. -/
structure Tracks {α : Type} (state : α → Machine) (m : Machine) (p : Option α) (x : α) : Prop where
  leads : Leads m (state x)
  result : m.bus.Sound → (state x).cpu.cycles < 2 ^ 64 → p = some x

section

variable {m m' m'' : Machine} {α β : Type} {state : α → Machine} {state' : β → Machine}

theorem Leads.refl (m : Machine) : Leads m m := ⟨id, 0, rfl⟩

theorem Leads.trans (h : Leads m m') (h' : Leads m' m'') : Leads m m'' := by
  obtain ⟨n, hn⟩ := h.clock
  obtain ⟨n', hn'⟩ := h'.clock
  refine ⟨h'.sound ∘ h.sound, n + n', ?_⟩
  rw [hn', hn, Nat.mul_add, Nat.add_assoc]

theorem Leads.cycles_le (h : Leads m m') : m.cpu.cycles ≤ m'.cpu.cycles := by
  obtain ⟨n, hn⟩ := h.clock
  omega

/-- A change of the bus that takes no time. -/
theorem Leads.ofBus {b : Bus} (h : m.bus.Sound → b.Sound) : Leads m { m with bus := b } :=
  ⟨h, 0, rfl⟩

/-- A change of the processor that takes no time. -/
theorem Leads.ofCpu {cpu : Processor} (h : cpu.cycles = m.cpu.cycles) :
    Leads m { m with cpu } :=
  ⟨id, 0, h⟩

/-- A result that is at hand. -/
theorem Tracks.some {x : α} (h : Leads m (state x)) : Tracks state m (some x) x := ⟨h, fun _ _ => rfl⟩

/-- Two parts in a row. -/
theorem Tracks.bind {p : Option α} {x : α} {f : α → Option β} {y : β} (hp : Tracks state m p x)
    (hf : Tracks state' (state x) (f x) y) : Tracks state' m (p >>= f) y where
  leads := hp.leads.trans hf.leads
  result hs hc := by
    -- The clock is not full between the parts, as it is not full after both.
    have hx : p = Option.some x := hp.result hs (Nat.lt_of_le_of_lt hf.leads.cycles_le hc)
    rw [hx]
    exact hf.result (hp.leads.sound hs) hc

/-- A part after a change that cannot fail. -/
theorem Tracks.after {p : Option α} {x : α} (hp : Tracks state m' p x) (h : Leads m m') :
    Tracks state m p x where
  leads := h.trans hp.leads
  result hs hc := hp.result (h.sound hs) hc

end

/-! ### Time and memory -/

variable (m : Machine)

/-- One machine cycle. -/
def cycle? : Option Machine := do
  let cycles ← Checked.add 64 m.cpu.cycles Bus.ticksPerCycle
  let bus ← m.bus.cycle?
  some { cpu := { m.cpu with cycles }, bus }

/-- Machine cycles in a row. -/
def idle? : Nat → Machine → Option Machine
  | 0, m => some m
  | n + 1, m => do idle? n (← m.cycle?)

/-- Read a byte. -/
def read? (a : UInt16) : Option (UInt8 × Machine) := do
  let v ← m.bus.read? a
  let m ← m.cycle?
  some (v, m)

/-- Write a byte. -/
def write? (a : UInt16) (v : UInt8) : Option Machine := do
  let bus ← m.bus.write? a v
  cycle? { m with bus }

/-- Write a word, low byte first. -/
def writeWord? (a : UInt16) (w : UInt16) : Option Machine := do
  let m ← m.write? a (Word.low w)
  m.write? (a + 1) (Word.high w)

/-- Read the byte at PC and go past it. -/
def fetch? : Option (UInt8 × Machine) :=
  let pc := m.cpu.registers.pc
  (m.setPC (pc + 1)).read? pc

/-- Read the word at PC, low byte first, and go past it. -/
def fetchWord? : Option (UInt16 × Machine) := do
  let (low, m) ← m.fetch?
  let (high, m) ← m.fetch?
  some (Word.ofBytes high low, m)

/-- Push a byte. -/
def pushByte? (v : UInt8) : Option Machine :=
  let sp := m.cpu.registers.sp - 1
  (m.setSP sp).write? sp v

/-- Pop a byte. -/
def popByte? : Option (UInt8 × Machine) := do
  let sp := m.cpu.registers.sp
  let (v, m) ← m.read? sp
  some (v, m.setSP (sp + 1))

/-- Push a word, high byte first. -/
def push? (w : UInt16) : Option Machine := do
  let m ← m.pushByte? (Word.high w)
  m.pushByte? (Word.low w)

/-- Pop a word, low byte first. -/
def pop? : Option (UInt16 × Machine) := do
  let (low, m) ← m.popByte?
  let (high, m) ← m.popByte?
  some (Word.ofBytes high low, m)

theorem cycle_tracks : Tracks id m m.cycle? m.cycle where
  leads := ⟨fun h => h.cycle, 1, rfl⟩
  result hs hc := by
    have hsum : m.cpu.cycles + Bus.ticksPerCycle < 2 ^ 64 := hc
    rw [cycle?, Checked.add_eq hsum, Bus.cycle?_eq hs]
    rfl

theorem idle_tracks (n : Nat) : Tracks id m (idle? n m) (idle n m) := by
  induction n generalizing m with
  | zero => exact .some (.refl m)
  | succ n ih => exact m.cycle_tracks.bind (ih m.cycle)

theorem read_tracks (a : UInt16) : Tracks Prod.snd m (m.read? a) (m.read a) := by
  rw [read?, Bus.read?_eq, Option.bind_eq_bind, Option.bind_some]
  exact m.cycle_tracks.bind (.some (.refl _))

theorem write_tracks (a : UInt16) (v : UInt8) : Tracks id m (m.write? a v) (m.write a v) := by
  rw [write?, Bus.write?_eq, Option.bind_eq_bind, Option.bind_some]
  exact (cycle_tracks _).after (.ofBus fun h => h.write a v)

theorem writeWord_tracks (a w : UInt16) : Tracks id m (m.writeWord? a w) (m.writeWord a w) :=
  (m.write_tracks a _).bind (write_tracks _ _ _)

theorem fetch_tracks : Tracks Prod.snd m m.fetch? m.fetch :=
  (read_tracks _ _).after (.ofCpu rfl)

theorem fetchWord_tracks : Tracks Prod.snd m m.fetchWord? m.fetchWord := by
  refine m.fetch_tracks.bind ?_
  unfold fetchWord
  generalize m.fetch = first
  obtain ⟨low, m⟩ := first
  exact m.fetch_tracks.bind (.some (.refl _))

theorem pushByte_tracks (v : UInt8) : Tracks id m (m.pushByte? v) (m.pushByte v) :=
  (write_tracks _ _ _).after (.ofCpu rfl)

theorem popByte_tracks : Tracks Prod.snd m m.popByte? m.popByte :=
  (m.read_tracks _).bind (.some (.ofCpu rfl))

theorem push_tracks (w : UInt16) : Tracks id m (m.push? w) (m.push w) :=
  (m.pushByte_tracks _).bind (pushByte_tracks _ _)

theorem pop_tracks : Tracks Prod.snd m m.pop? m.pop := by
  refine m.popByte_tracks.bind ?_
  unfold pop
  generalize m.popByte = first
  obtain ⟨low, m⟩ := first
  exact m.popByte_tracks.bind (.some (.refl _))

end Machine

end DotMatrix
