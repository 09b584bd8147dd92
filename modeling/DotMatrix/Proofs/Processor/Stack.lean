import DotMatrix.Proofs.Bus.Isolation
import DotMatrix.Proofs.Processor.Timing

/-!
# The stack

The stack lies in memory, below SP. A word that is pushed takes two bytes there, and the devices go
on while they are written and read; but none of them writes to work RAM or high RAM, so on a stack
in such memory a word comes back as it was pushed.

* `Location.IsRam`, `Bus.KeepsRam`: the cells of such memory, and what leaves them alone;
* `wordCells`, `stackCells`: the cells of a word, and of words pushed one upon the other;
* `Machine.Pushed`, `Machine.Popped`: a word has been pushed or popped, in whatever way;
* `Pushed.popped`: it comes back, if its two cells have been left alone in between;
* `Balanced`: sequences of pushes and pops in which each pop has its push;
* `Machine.Nested`: runs of a program in which calls and returns are nested;
* `stack_is_lifo`: pops return what was pushed, and subroutines return to where they were called.
-/

namespace DotMatrix

/-! ### Work RAM and high RAM -/

/-- Is the location a cell of work RAM or high RAM? -/
def Location.IsRam : Location → Prop
  | .workRam _ | .highRam _ => True
  | _ => False

instance : DecidablePred Location.IsRam
  | .workRam _ | .highRam _ => isTrue trivial
  | .rom _ | .videoRam _ | .cartridgeRam _ | .objects _ | .nothing | .device _ | .unused
  | .interruptEnable => isFalse id

namespace Bus

variable {b b' b'' : Bus} {keep keep' : Location → Prop}

/-- Of work RAM and high RAM the cells that are to be kept are the same. -/
def KeepsRam (keep : Location → Prop) (b b' : Bus) : Prop :=
  ∀ l : Location, l.IsRam → keep l → b'.readAt l = b.readAt l

theorem KeepsRam.refl (keep : Location → Prop) (b : Bus) : KeepsRam keep b b := fun _ _ _ => rfl

theorem KeepsRam.trans (h : KeepsRam keep b b') (h' : KeepsRam keep b' b'') :
    KeepsRam keep b b'' :=
  fun l hl hkeep => (h' l hl hkeep).trans (h l hl hkeep)

theorem KeepsRam.mono (h : KeepsRam keep b b') (hkeep : ∀ l, keep' l → keep l) :
    KeepsRam keep' b b' :=
  fun l hl hl' => h l hl (hkeep l hl')

/-- In a machine cycle no device writes to this memory. -/
theorem readAt_cycle (b : Bus) {l : Location} (h : l.IsRam) : b.cycle.readAt l = b.readAt l := by
  obtain ⟨_, _, _, hcycle, -⟩ := b.cycle_eq
  rw [hcycle]
  cases l with
  | workRam i => rfl
  | highRam i => rfl
  | _ => cases h

theorem cycle_keepsRam (b : Bus) : KeepsRam keep b b.cycle := fun _ hl _ => b.readAt_cycle hl

/-- A write changes no cell but the one that its address leads to. -/
theorem write_keepsRam (b : Bus) {a : UInt16} (v : UInt8) (h : ¬ keep (.ofAddress a)) :
    KeepsRam keep b (b.write a v) := by
  intro l hl hkeep
  by_contra hchanged
  have haffects := affects_of_readAt_ne hchanged
  generalize Location.ofAddress a = l' at h haffects
  cases haffects with
  | cell _ => exact h hkeep
  | _ => cases hl

/-- What is written to a cell of this memory can be read there. -/
theorem readAt_write_self (b : Bus) {a : UInt16} (v : UInt8) (h : (Location.ofAddress a).IsRam) :
    (b.write a v).readAt (.ofAddress a) = v := by
  unfold write
  generalize Location.ofAddress a = l at h
  cases l with
  | workRam i => exact b.workRam.get_set_self i v
  | highRam i => exact b.highRam.get_set_self i v
  | _ => cases h

/-- Accesses change no cells but those that they write to. -/
theorem perform_keepsRam (b : Bus) {xs : List Access}
    (h : ∀ a v, .write a v ∈ xs → ¬ keep (.ofAddress a)) : KeepsRam keep b (b.perform xs) := by
  induction xs generalizing b with
  | nil => exact .refl _ b
  | cons x xs ih =>
    refine .trans ?_ (ih (b.access x) fun a v hmem => h a v (List.mem_cons_of_mem x hmem))
    cases x with
    | quiet => exact b.cycle_keepsRam
    | write a v => exact (b.write_keepsRam v (h a v List.mem_cons_self)).trans (cycle_keepsRam _)
    | acknowledge source =>
      intro l hl _
      cases l <;> first | rfl | cases hl

end Bus

/-! ### The cells of the stack -/

/-- The two cells of a word. -/
def wordCells (a : UInt16) : List Location := [.ofAddress a, .ofAddress (a + 1)]

/-- The cells of as many words as are pushed one upon the other, from SP on downwards. -/
def stackCells (sp : UInt16) : Nat → List Location
  | 0 => []
  | n + 1 => wordCells (sp - 2) ++ stackCells (sp - 2) n

/-- A stack can lie in these cells: they are all in work RAM or high RAM, and no two of them are the
same. -/
structure StackRoom (cells : List Location) : Prop where
  isRam : ∀ l ∈ cells, l.IsRam
  nodup : cells.Nodup

instance (cells : List Location) : Decidable (StackRoom cells) :=
  decidable_of_iff ((∀ l ∈ cells, l.IsRam) ∧ cells.Nodup)
    ⟨fun ⟨hram, hnodup⟩ => ⟨hram, hnodup⟩, fun h => ⟨h.isRam, h.nodup⟩⟩

namespace StackRoom

variable {cells cells' : List Location}

theorem left (h : StackRoom (cells ++ cells')) : StackRoom cells where
  isRam l hl := h.isRam l (List.mem_append_left _ hl)
  nodup := (List.nodup_append.1 h.nodup).1

theorem right (h : StackRoom (cells ++ cells')) : StackRoom cells' where
  isRam l hl := h.isRam l (List.mem_append_right _ hl)
  nodup := (List.nodup_append.1 h.nodup).2.1

theorem apart (h : StackRoom (cells ++ cells')) {l : Location} (hl : l ∈ cells) : l ∉ cells' :=
  fun hl' => (List.nodup_append.1 h.nodup).2.2 l hl l hl' rfl

end StackRoom

namespace Bus

variable {keep : Location → Prop} {a : UInt16} {b b' : Bus}

theorem readWord_congr (h : ∀ l ∈ wordCells a, b'.readAt l = b.readAt l) :
    b'.readWord a = b.readWord a :=
  congrArg₂ Word.ofBytes (h _ (List.mem_cons_of_mem _ List.mem_cons_self))
    (h _ List.mem_cons_self)

theorem KeepsRam.readWord_eq (h : KeepsRam keep b b') (hram : ∀ l ∈ wordCells a, l.IsRam)
    (hkeep : ∀ l ∈ wordCells a, keep l) : b'.readWord a = b.readWord a :=
  readWord_congr fun l hl => h l (hram l hl) (hkeep l hl)

/-- A word written to the stack can be read there, although its upper byte is written first and has
to outlast the writing of the lower. -/
theorem readWord_perform_write (b : Bus) (w : UInt16) (hroom : StackRoom (wordCells a)) :
    (b.perform [.write (a + 1) (Word.high w), .write a (Word.low w)]).readWord a = w := by
  have hlowRam : (Location.ofAddress a).IsRam := hroom.isRam _ List.mem_cons_self
  have hhighRam : (Location.ofAddress (a + 1)).IsRam :=
    hroom.isRam _ (List.mem_cons_of_mem _ List.mem_cons_self)
  have hne : Location.ofAddress a ≠ Location.ofAddress (a + 1) := fun h =>
    (List.nodup_cons.1 hroom.nodup).1 (h ▸ List.mem_cons_self)
  let b₁ := (b.write (a + 1) (Word.high w)).cycle
  let b₂ := (b₁.write a (Word.low w)).cycle
  have hlow : b₂.read a = Word.low w :=
    (readAt_cycle _ hlowRam).trans (b₁.readAt_write_self _ hlowRam)
  have hhigh : b₂.read (a + 1) = Word.high w := by
    have hfirst : b₁.read (a + 1) = Word.high w :=
      (readAt_cycle _ hhighRam).trans (b.readAt_write_self _ hhighRam)
    have hsecond : KeepsRam (Location.ofAddress a ≠ ·) b₁ b₂ :=
      (b₁.write_keepsRam _ (not_not.2 rfl)).trans (cycle_keepsRam _)
    exact (hsecond _ hhighRam hne).trans hfirst
  show Word.ofBytes (b₂.read (a + 1)) (b₂.read a) = w
  rw [hlow, hhigh, Word.ofBytes_high_low]

end Bus

namespace Machine

variable {m m' m₁ m₂ m₃ : Machine} {w w' : UInt16} {i : Instruction}

/-! ### Pushing and popping -/

/-- SP has not moved, and work RAM and high RAM are the same. -/
structure LeavesStack (m m' : Machine) : Prop where
  sp_eq : m'.cpu.registers.sp = m.cpu.registers.sp
  keeps : m.bus.KeepsRam (fun _ => True) m'.bus

/-- A word has been pushed, and nothing else written to work RAM and high RAM. -/
structure Pushed (m : Machine) (w : UInt16) (m' : Machine) : Prop where
  sp_eq : m'.cpu.registers.sp = m.cpu.registers.sp - 2
  keeps : m.bus.KeepsRam (· ∉ wordCells (m.cpu.registers.sp - 2)) m'.bus
  word : StackRoom (wordCells (m.cpu.registers.sp - 2)) →
    m'.bus.readWord (m.cpu.registers.sp - 2) = w

/-- The word on top of the stack has been popped, and nothing written to work RAM and high RAM. -/
structure Popped (m : Machine) (w : UInt16) (m' : Machine) : Prop where
  sp_eq : m'.cpu.registers.sp = m.cpu.registers.sp + 2
  keeps : m.bus.KeepsRam (fun _ => True) m'.bus
  word : StackRoom (wordCells m.cpu.registers.sp) → m.bus.readWord m.cpu.registers.sp = w

theorem LeavesStack.refl (m : Machine) : LeavesStack m m := ⟨rfl, .refl _ _⟩

theorem LeavesStack.trans (h : LeavesStack m m₁) (h' : LeavesStack m₁ m₂) : LeavesStack m m₂ :=
  ⟨h'.sp_eq.trans h.sp_eq, h.keeps.trans h'.keeps⟩

theorem cycle_leavesStack (m : Machine) : LeavesStack m m.cycle := ⟨rfl, m.bus.cycle_keepsRam⟩

theorem fetch_leavesStack (m : Machine) : LeavesStack m m.fetch.2 := ⟨rfl, m.bus.cycle_keepsRam⟩

theorem fetchWord_leavesStack (m : Machine) : LeavesStack m m.fetchWord.2 :=
  m.fetch_leavesStack.trans (fetch_leavesStack _)

/-- A change of the processor that leaves SP alone. -/
theorem leavesStack_of_cpu {cpu : Processor} (h : cpu.registers.sp = m.cpu.registers.sp) :
    LeavesStack m { m with cpu } :=
  ⟨h, .refl _ _⟩

theorem setPC_leavesStack (m : Machine) (a : UInt16) : LeavesStack m (m.setPC a) :=
  leavesStack_of_cpu rfl

theorem sub_one_sub_one (a : UInt16) : a - 1 - 1 = a - 2 := by grind

theorem sub_two_add_one (a : UInt16) : a - 2 + 1 = a - 1 := by grind

theorem pushing_eq (m : Machine) (w : UInt16) :
    m.pushing w = [.write (m.cpu.registers.sp - 2 + 1) (Word.high w),
      .write (m.cpu.registers.sp - 2) (Word.low w)] := by
  rw [pushing, sub_one_sub_one, sub_two_add_one]

theorem push_pushed (m : Machine) (w : UInt16) : Pushed m w (m.push w) := by
  have hbus := (m.push_performs w).bus_eq
  rw [pushing_eq] at hbus
  refine ⟨sub_one_sub_one _, ?_, fun hroom => ?_⟩
  · rw [hbus]
    refine m.bus.perform_keepsRam fun a v hmem => not_not.2 ?_
    simp only [List.mem_cons, Access.write.injEq, List.not_mem_nil, or_false] at hmem
    obtain ⟨rfl, -⟩ | ⟨rfl, -⟩ := hmem
    · exact List.mem_cons_of_mem _ List.mem_cons_self
    · exact List.mem_cons_self
  · rw [hbus]
    exact m.bus.readWord_perform_write w hroom

theorem pop_popped (m : Machine) : Popped m m.pop.1 m.pop.2 := by
  refine ⟨UInt16.add_assoc _ 1 1, m.bus.cycle_keepsRam.trans (Bus.cycle_keepsRam _), fun hroom => ?_⟩
  have hhigh : m.bus.cycle.read (m.cpu.registers.sp + 1) = m.bus.read (m.cpu.registers.sp + 1) :=
    m.bus.readAt_cycle (hroom.isRam _ (List.mem_cons_of_mem _ List.mem_cons_self))
  show Word.ofBytes _ _ = Word.ofBytes (m.bus.cycle.read (m.cpu.registers.sp + 1)) _
  rw [hhigh]

theorem LeavesStack.pushed (h : LeavesStack m m₁) (hpushed : Pushed m₁ w m₂)
    (h' : LeavesStack m₂ m₃) : Pushed m w m₃ := by
  obtain ⟨hsp, hkeeps, hword⟩ := hpushed
  rw [h.sp_eq] at hsp hkeeps hword
  refine ⟨h'.sp_eq.trans hsp, ?_, fun hroom => ?_⟩
  · have hall : ∀ l : Location, l ∉ wordCells (m.cpu.registers.sp - 2) → True := fun _ _ => trivial
    exact ((h.keeps.mono hall).trans hkeeps).trans (h'.keeps.mono hall)
  · rw [h'.keeps.readWord_eq hroom.isRam fun _ _ => trivial, hword hroom]

theorem LeavesStack.popped (h : LeavesStack m m₁) (hpopped : Popped m₁ w m₂)
    (h' : LeavesStack m₂ m₃) : Popped m w m₃ := by
  obtain ⟨hsp, hkeeps, hword⟩ := hpopped
  rw [h.sp_eq] at hsp hword
  refine ⟨h'.sp_eq.trans hsp, (h.keeps.trans hkeeps).trans h'.keeps, fun hroom => ?_⟩
  rw [← h.keeps.readWord_eq hroom.isRam fun _ _ => trivial, hword hroom]

/-- **A word comes back as it was pushed**, if in between SP has come back and the two cells of the
word are among those that have been kept. What has been kept stays so, but for these two. -/
theorem Pushed.popped {keep : Location → Prop} (hpush : Pushed m w m₁)
    (hroom : StackRoom (wordCells (m.cpu.registers.sp - 2)))
    (hkeeps : m₁.bus.KeepsRam keep m₂.bus)
    (hkeep : ∀ l ∈ wordCells (m.cpu.registers.sp - 2), keep l)
    (hsp : m₂.cpu.registers.sp = m₁.cpu.registers.sp) (hpop : Popped m₂ w' m₃) :
    w' = w ∧ m₃.cpu.registers.sp = m.cpu.registers.sp ∧
      m.bus.KeepsRam (fun l => l ∉ wordCells (m.cpu.registers.sp - 2) ∧ keep l) m₃.bus := by
  have htop : m₂.cpu.registers.sp = m.cpu.registers.sp - 2 := hsp.trans hpush.sp_eq
  have hword := hpop.word
  rw [htop] at hword
  refine ⟨?_, ?_, ?_⟩
  · rw [← hword hroom, hkeeps.readWord_eq hroom.isRam hkeep, hpush.word hroom]
  · rw [hpop.sp_eq, htop, UInt16.sub_add_cancel]
  · exact ((hpush.keeps.mono fun _ hl => hl.1).trans (hkeeps.mono fun _ hl => hl.2)).trans
      (hpop.keeps.mono fun _ _ => trivial)

end Machine

/-! ### Balanced sequences -/

/-- What is done with a stack, or while it waits. -/
inductive StackOperation
  | push (w : UInt16)
  | pop
  | cycle

/-- Each pop has its push, with a sequence of the same kind between them, and no more than so many
words lie on the stack at a time. The words are those that the pops are to return. -/
inductive Balanced : Nat → List StackOperation → List UInt16 → Prop
  | done (depth : Nat) : Balanced depth [] []
  | cycle {depth : Nat} {ops : List StackOperation} {ws : List UInt16} :
      Balanced depth ops ws → Balanced depth (.cycle :: ops) ws
  | nest {depth : Nat} {inner ops : List StackOperation} {ws ws' : List UInt16} (w : UInt16) :
      Balanced depth inner ws → Balanced (depth + 1) ops ws' →
      Balanced (depth + 1) (.push w :: (inner ++ .pop :: ops)) (ws ++ w :: ws')

namespace Machine

variable {m m' m₁ m₂ m₃ : Machine} {w w' : UInt16} {i : Instruction}

/-- The words that the pops return, and the machine after the operations. -/
def runStack (m : Machine) : List StackOperation → List UInt16 × Machine
  | [] => ([], m)
  | .push w :: ops => (m.push w).runStack ops
  | .pop :: ops =>
    let (w, m) := m.pop
    let (ws, m) := m.runStack ops
    (w :: ws, m)
  | .cycle :: ops => m.cycle.runStack ops

theorem runStack_append (m : Machine) (xs ys : List StackOperation) :
    m.runStack (xs ++ ys) =
      ((m.runStack xs).1 ++ ((m.runStack xs).2.runStack ys).1, ((m.runStack xs).2.runStack ys).2) := by
  induction xs generalizing m with
  | nil => rfl
  | cons x xs ih =>
    cases x with
    | push w => exact ih (m.push w)
    | pop => simp only [List.cons_append, runStack, ih]
    | cycle => exact ih m.cycle

/-- **A balanced sequence** returns the words that it pushes, brings SP back, and changes no cells of
work RAM and high RAM but those below SP. -/
theorem runStack_of_balanced {depth : Nat} {ops : List StackOperation} {ws : List UInt16}
    (h : Balanced depth ops ws) (hroom : StackRoom (stackCells m.cpu.registers.sp depth)) :
    (m.runStack ops).1 = ws ∧ (m.runStack ops).2.cpu.registers.sp = m.cpu.registers.sp ∧
      m.bus.KeepsRam (· ∉ stackCells m.cpu.registers.sp depth) (m.runStack ops).2.bus := by
  induction h generalizing m with
  | done depth => exact ⟨rfl, rfl, .refl _ _⟩
  | cycle _ ih =>
    obtain ⟨hws, hsp, hkeeps⟩ := ih (m := m.cycle) hroom
    exact ⟨hws, hsp, m.bus.cycle_keepsRam.trans hkeeps⟩
  | @nest depth inner ops ws ws' w _ _ ihInner ihOps =>
    -- The word lies on top while the inner operations go on below it.
    have hpush := m.push_pushed w
    have hinner := ihInner (m := m.push w)
    rw [hpush.sp_eq] at hinner
    obtain ⟨hws, hsp, hkeeps⟩ := hinner hroom.right
    rw [← hpush.sp_eq] at hsp
    obtain ⟨hw, hsp', hkeeps'⟩ := hpush.popped hroom.left hkeeps (fun _ hl => hroom.apart hl) hsp
      (pop_popped _)
    have hops := ihOps (m := ((m.push w).runStack inner).2.pop.2)
    rw [hsp'] at hops
    obtain ⟨hws', hsp'', hkeeps''⟩ := hops hroom
    simp only [runStack, runStack_append, hws, hw, hws']
    exact ⟨trivial, hsp'', (hkeeps'.mono fun _ hl => not_or.1 (mt List.mem_append.2 hl)).trans hkeeps''⟩

/-! ### Nested calls -/

/-- Does the instruction call a subroutine? The machine is the one that it begins with. -/
def calls (m : Machine) : Instruction → Bool
  | .call way => m.taken way
  | .restart _ => true
  | _ => false

/-- Does the instruction return from a subroutine? -/
def returns (m : Machine) : Instruction → Bool
  | .ret way => m.taken way
  | .returnFromInterrupt => true
  | _ => false

theorem callAddress_pushed (m : Machine) (target : UInt16) :
    Pushed m m.cpu.registers.pc (m.callAddress target) :=
  m.cycle_leavesStack.pushed (push_pushed _ _) (setPC_leavesStack _ _)

theorem popPC_popped (m : Machine) : Popped m m.popPC.cpu.registers.pc m.popPC :=
  (LeavesStack.refl m).popped m.pop_popped ((setPC_leavesStack _ _).trans (cycle_leavesStack _))

/-- A call pushes the address of the instruction after it. -/
theorem execute_pushed (h : m.calls i = true) :
    Pushed m (m.cpu.registers.pc + UInt16.ofNat (i.size - 1)) (m.execute i) := by
  cases i with
  | call way =>
    have hopen : m.call way = m.fetchWord.2.callAddress m.fetchWord.1 := if_pos h
    rw [execute, hopen]
    have hpushed := m.fetchWord_leavesStack.pushed (callAddress_pushed _ m.fetchWord.1) (.refl _)
    rwa [fetchWord_pc] at hpushed
  | restart v =>
    have hpushed := m.callAddress_pushed v.toUInt16
    rwa [← UInt16.add_zero m.cpu.registers.pc] at hpushed
  | _ => cases h

/-- A return goes on at the address that it pops. -/
theorem execute_popped (h : m.returns i = true) :
    Popped m (m.execute i).cpu.registers.pc (m.execute i) := by
  cases i with
  | ret way =>
    cases way with
    | none => exact m.popPC_popped
    | some condition =>
      have hopen : m.ret (some condition) = m.cycle.popPC := if_pos h
      rw [execute, hopen]
      exact m.cycle_leavesStack.popped (popPC_popped _) (.refl _)
  | returnFromInterrupt =>
    let m' : Machine := { m with cpu := { m.cpu with interruptsOn := true, enableDelay := 0 } }
    have hleaves : LeavesStack m m' := leavesStack_of_cpu rfl
    exact hleaves.popped m'.popPC_popped (.refl _)
  | _ => cases h

theorem Executes.pushed (h : m.Executes i) (hi : m.calls i = true) :
    Pushed m (m.cpu.registers.pc + UInt16.ofNat i.size) m.step.1 := by
  have hpushed : Pushed m.fetch.2 _ (m.fetch.2.execute i) := execute_pushed hi
  rw [h.step_eq_of_kind hi rfl rfl, ← Instruction.add_one_add_size]
  exact m.fetch_leavesStack.pushed hpushed (leavesStack_of_cpu rfl)

theorem Executes.popped (h : m.Executes i) (hi : m.returns i = true) :
    Popped m m.step.1.cpu.registers.pc m.step.1 := by
  have hpopped : Popped m.fetch.2 _ (m.fetch.2.execute i) := execute_popped hi
  rw [h.step_eq_of_kind hi rfl rfl]
  exact m.fetch_leavesStack.popped hpopped (leavesStack_of_cpu rfl)

/-- A step writes to none of the cells. -/
def Spares (m : Machine) (cells : List Location) : Prop :=
  ∀ a v, .write a v ∈ m.stepAccesses → .ofAddress a ∉ cells

theorem Spares.keepsRam {cells : List Location} (h : m.Spares cells) :
    m.bus.KeepsRam (· ∈ cells) m.step.1.bus := by
  rw [m.step_performs.bus_eq]
  exact m.bus.perform_keepsRam h

/-- A subroutine has been called and has returned. -/
structure Return where
  /-- The address of the instruction after the call. -/
  due : UInt16
  /-- The address that the return has gone to. -/
  reached : UInt16

/-- From the first machine to the second calls and returns are nested. The cells `live` hold the
return addresses of the subroutines that the first machine is in; other steps do not write to them.
Other steps may move SP, and from the first machine to the second they have moved it by `moved`, but
within a subroutine they bring it back. -/
inductive Nested : List Location → UInt16 → List Return → Machine → Machine → Prop
  | done (live : List Location) (m : Machine) : Nested live 0 [] m m
  | other {live : List Location} {first moved : UInt16} {rs : List Return} {m m' : Machine} :
      m.Spares live → m.step.1.cpu.registers.sp = m.cpu.registers.sp + first →
      Nested live moved rs m.step.1 m' → Nested live (first + moved) rs m m'
  | call {live : List Location} {moved : UInt16} {rs rs' : List Return} {m m₁ m' : Machine}
      {i j : Instruction} :
      m.Executes i → m.calls i = true → StackRoom (wordCells (m.cpu.registers.sp - 2) ++ live) →
      Nested (wordCells (m.cpu.registers.sp - 2) ++ live) 0 rs m.step.1 m₁ →
      m₁.Executes j → m₁.returns j = true → Nested live moved rs' m₁.step.1 m' →
      Nested live moved
        (rs ++ ⟨m.cpu.registers.pc + UInt16.ofNat i.size, m₁.step.1.cpu.registers.pc⟩ :: rs') m m'

/-- **Nested subroutines return to where they were called**, and together they leave SP alone. -/
theorem Nested.reached_eq {live : List Location} {moved : UInt16} {rs : List Return}
    (h : Nested live moved rs m m') :
    m'.cpu.registers.sp = m.cpu.registers.sp + moved ∧ m.bus.KeepsRam (· ∈ live) m'.bus ∧
      ∀ r ∈ rs, r.reached = r.due := by
  induction h with
  | done live m => exact ⟨(UInt16.add_zero _).symm, .refl _ _, fun _ hr => absurd hr List.not_mem_nil⟩
  | other hspares hfirst _ ih =>
    obtain ⟨hsp, hkeeps, hreturns⟩ := ih
    refine ⟨?_, hspares.keepsRam.trans hkeeps, hreturns⟩
    rw [hsp, hfirst, UInt16.add_assoc]
  | call hcall hcalls hroom _ hreturn hreturnsJ _ ihBody ihRest =>
    obtain ⟨hspBody, hkeepsBody, hreturnsBody⟩ := ihBody
    obtain ⟨hspRest, hkeepsRest, hreturnsRest⟩ := ihRest
    obtain ⟨hreached, hsp, hkeeps⟩ := (hcall.pushed hcalls).popped hroom.left hkeepsBody
      (fun _ hl => List.mem_append_left _ hl) (hspBody.trans (UInt16.add_zero _))
      (hreturn.popped hreturnsJ)
    refine ⟨by rw [hspRest, hsp], ?_, fun r hr => ?_⟩
    · refine (hkeeps.mono fun l hl => ?_).trans hkeepsRest
      exact ⟨fun hword => hroom.apart hword hl, List.mem_append_right _ hl⟩
    · obtain hr | hr := List.mem_append.1 hr
      · exact hreturnsBody r hr
      · obtain rfl | hr := List.mem_cons.1 hr
        · exact hreached
        · exact hreturnsRest r hr

/-- **The stack is last in, first out.** Where the words of a balanced sequence of pushes and pops,
and of machine cycles between them, have room in work RAM and high RAM, each pop returns what its
push has pushed, SP ends where it was, and no other cell of this memory changes. So where calls and
returns are nested, and the return addresses have such room and are not written to, every return goes
to the instruction after its call, and only the other instructions have moved SP. -/
theorem stack_is_lifo (m : Machine) :
    (∀ depth ops ws, Balanced depth ops ws → StackRoom (stackCells m.cpu.registers.sp depth) →
      let (popped, m') := m.runStack ops
      popped = ws ∧ m'.cpu.registers.sp = m.cpu.registers.sp ∧
        ∀ l : Location, l.IsRam → l ∉ stackCells m.cpu.registers.sp depth →
          m'.bus.readAt l = m.bus.readAt l) ∧
    ∀ moved rs m', Nested [] moved rs m m' →
      m'.cpu.registers.sp = m.cpu.registers.sp + moved ∧ ∀ r ∈ rs, r.reached = r.due := by
  refine ⟨fun depth ops ws hbalanced hroom => runStack_of_balanced hbalanced hroom,
    fun moved rs m' hnested => ?_⟩
  obtain ⟨hsp, -, hreached⟩ := hnested.reached_eq
  exact ⟨hsp, hreached⟩

/-- A program with SP at the top of high RAM: `CALL FF83`, and there `CALL FF88`, `INC B`, `RET`, and
there `RET`. -/
def callingTwice : Machine :=
  ofProgram { Registers.zeroed with sp := 0xFFFE }
    [0xCD, 0x83, 0xFF, 0xCD, 0x88, 0xFF, 0x04, 0xC9, 0xC9]

/-- Both subroutines return, and two words come back in the other order. -/
theorem stack_is_lifo_twice :
    let m := callingTwice
    let ops : List StackOperation := [.push 0x1234, .cycle, .push 0xABCD, .pop, .pop]
    Balanced 2 ops [0xABCD, 0x1234] ∧ StackRoom (stackCells m.cpu.registers.sp 2) ∧
      (m.runStack ops).1 = [0xABCD, 0x1234] ∧
      (m.run 3).cpu.registers.pc = (m.run 1).cpu.registers.pc + 3 ∧
      (m.run 5).cpu.registers.pc = m.cpu.registers.pc + 3 := by
  intro m ops
  have hbalanced : Balanced 2 ops [0xABCD, 0x1234] :=
    .nest 0x1234 (.cycle (.nest 0xABCD (.done 0) (.done 1))) (.done 2)
  have hroom : StackRoom (stackCells m.cpu.registers.sp 2) := by decide +kernel
  have hinner : Nested (wordCells (m.cpu.registers.sp - 2)) 0
      [⟨(m.run 1).cpu.registers.pc + 3, (m.run 3).cpu.registers.pc⟩] (m.run 1) (m.run 4) := by
    have hcall : (m.run 1).Executes (.call none) := by decide +kernel
    have hreturn : (m.run 2).Executes (.ret none) := by decide +kernel
    have hother : (m.run 3).Spares (wordCells (m.cpu.registers.sp - 2)) := by
      have haccesses : (m.run 3).stepAccesses = [.quiet] := by decide +kernel
      intro a v hmem
      rw [haccesses] at hmem
      cases List.mem_singleton.1 hmem
    have hsp : (m.run 4).cpu.registers.sp = (m.run 3).cpu.registers.sp + 0 := by decide +kernel
    have hroom' : StackRoom (wordCells ((m.run 1).cpu.registers.sp - 2) ++
        wordCells (m.cpu.registers.sp - 2)) := by
      decide +kernel
    exact .call hcall rfl hroom' (.done _ _) hreturn rfl (.other hother hsp (.done _ _))
  have hnested : Nested [] 0
      [⟨(m.run 1).cpu.registers.pc + 3, (m.run 3).cpu.registers.pc⟩,
        ⟨m.cpu.registers.pc + 3, (m.run 5).cpu.registers.pc⟩] m (m.run 5) := by
    have hcall : m.Executes (.call none) := by decide +kernel
    have hreturn : (m.run 4).Executes (.ret none) := by decide +kernel
    have hroom' : StackRoom (wordCells (m.cpu.registers.sp - 2) ++ []) := by decide +kernel
    exact .call hcall rfl hroom' hinner hreturn rfl (.done _ _)
  obtain ⟨hstack, hreturns⟩ := stack_is_lifo m
  obtain ⟨-, hreached⟩ := hreturns _ _ _ hnested
  refine ⟨hbalanced, hroom, (hstack _ _ _ hbalanced hroom).1, ?_, ?_⟩
  · exact hreached _ List.mem_cons_self
  · exact hreached _ (List.mem_cons_of_mem _ List.mem_cons_self)

end Machine

end DotMatrix
