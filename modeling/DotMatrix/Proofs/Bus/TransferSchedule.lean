import DotMatrix.Proofs.Bus.Isolation
import DotMatrix.Proofs.Bus.Kept
import DotMatrix.Proofs.Checked.Bus

/-!
# The schedule of an object transfer

A write to the register of transfers starts one, whatever the engine was doing. From then on the
number of steps decides everything: two steps go by, the next 160 copy one byte each, and the engine
is idle again. Writes to other registers and memories, in any number between the steps, make no
difference to that.

* `ObjectTransfer.after`, `ObjectTransfer.due`: the engine after some steps since its start, and the
  copy that is due then;
* `Bus.Turn`, `Bus.turns`: steps of the engine and writes of the program, in any order;
* `Bus.copies`: the bytes copied in such a run;
* `transfer_turns`, `copies_turns`: engine and copies follow the number of steps;
* `transfer_runs_to_schedule`: the whole schedule, from any state of the machine.
-/

namespace DotMatrix

namespace ObjectTransfer

/-! ### The engine by itself -/

/-- Steps of a transfer: two that wait, and one for each byte. -/
def length : Nat := 162

/-- The transfer of a page, some steps after its start. -/
def after (page : UInt8) (n : Nat) : ObjectTransfer :=
  if n < 2 then .waiting page (2 - n)
  else if h : n - 2 < 160 then .copying page ⟨n - 2, h⟩
  else .idle

/-- The copy that is due when some steps have gone by. -/
def due (page : UInt8) (n : Nat) : Option Copy :=
  if h : 2 ≤ n ∧ n < length then some (copyOf page ⟨n - 2, by unfold length at h; omega⟩) else none

variable {page : UInt8} {n : Nat}

theorem after_of_lt (h : n < 2) : after page n = .waiting page (2 - n) := if_pos h

theorem after_of_due (h : 2 ≤ n) (h' : n - 2 < 160) : after page n = .copying page ⟨n - 2, h'⟩ := by
  rw [after, if_neg (Nat.not_lt.2 h), dif_pos h']

theorem after_of_le (h : length ≤ n) : after page n = .idle := by
  unfold length at h
  rw [after, if_neg (by omega), dif_neg (by omega)]

theorem due_add_two (page : UInt8) (i : Fin 160) : due page (i.val + 2) = some (copyOf page i) := by
  have hi := i.isLt
  rw [due, dif_pos ⟨by omega, by unfold length; omega⟩]
  simp

theorem due_eq_none (h : n < 2 ∨ length ≤ n) : due page n = none := dif_neg (by omega)

/-- **One step.** -/
theorem step_after (page : UInt8) (n : Nat) :
    (after page n).step = (after page (n + 1), due page n) := by
  rcases Nat.lt_or_ge n 2 with h | h
  · rw [after_of_lt h, due_eq_none (.inl h), step]
    rcases Nat.lt_or_ge (n + 1) 2 with h' | h'
    · rw [after_of_lt h', if_neg (by omega)]
      rfl
    · rw [after_of_due h' (by omega), if_pos (by omega)]
      simp only [show n + 1 - 2 = 0 by omega]
      rfl
  rcases Nat.lt_or_ge n length with h' | h'
  · have hn : n - 2 < 160 := by
      unfold length at h'
      omega
    have hnext : n - 2 + 1 = n + 1 - 2 := by omega
    rw [after_of_due h hn, due, dif_pos ⟨h, h'⟩, step]
    simp only [hnext]
    split
    · rename_i hlt
      rw [after_of_due (by omega) hlt]
    · rename_i hend
      rw [after_of_le (by unfold length; omega)]
  · rw [after_of_le h', after_of_le (by omega), due_eq_none (.inr h')]
    rfl

/-- The engine is active for as many steps as a transfer has. -/
theorem isActive_after (page : UInt8) (n : Nat) : (after page n).isActive = true ↔ n < length := by
  rcases Nat.lt_or_ge n length with h | h
  · refine iff_of_true ?_ h
    unfold length at h
    unfold after
    split
    · rfl
    · rw [dif_pos (by omega)]
      rfl
  · rw [after_of_le h]
    exact iff_of_false Bool.false_ne_true (Nat.not_lt.2 h)

/-- The bytes of a page that are copied in the first steps, in order. -/
def firstCopies (page : UInt8) (n : Nat) : List Copy :=
  ((List.finRange 160).take (n - 2)).map (copyOf page)

theorem firstCopies_succ (page : UInt8) (n : Nat) :
    firstCopies page (n + 1) = firstCopies page n ++ (due page n).toList := by
  have hlength : (List.finRange 160).length = 160 := List.length_finRange
  unfold firstCopies
  rcases Nat.lt_or_ge n 2 with h | h
  · rw [due_eq_none (.inl h), show n + 1 - 2 = 0 by omega, show n - 2 = 0 by omega]
    rfl
  rcases Nat.lt_or_ge n length with h' | h'
  · have hn : n - 2 < (List.finRange 160).length := by
      unfold length at h'
      omega
    rw [show n + 1 - 2 = n - 2 + 1 by omega, List.take_succ_eq_append_getElem hn, List.map_append,
      due, dif_pos ⟨h, h'⟩]
    simp
  · unfold length at h'
    rw [due_eq_none (.inr h'), List.take_of_length_le (by omega), List.take_of_length_le (by omega)]
    simp

theorem toNat_source (page : UInt8) (i : Fin 160) :
    (copyOf page i).source.toNat = page.toNat * 256 + i.val := by
  have hi := i.isLt
  rw [copyOf, Word.toNat_ofBytes]
  show page.toNat * 256 + i.val % 256 = _
  omega

theorem toNat_destination (c : Copy) : c.destination.toNat = 0xFE00 + c.index.val := by
  have hi := c.index.isLt
  show (0xFE00 + c.index.val % 2 ^ 16) % 2 ^ 16 = _
  omega

end ObjectTransfer

namespace Bus

/-! ### Steps and writes in any order -/

/-- What happens on the bus: the engine takes a step, or a byte is written. -/
inductive Turn
  | step
  | write (a : UInt16) (v : UInt8)
  deriving DecidableEq, Repr

/-- The bus after a turn. -/
def Turn.apply (b : Bus) : Turn → Bus
  | step => b.stepTransfer
  | write a v => b.write a v

/-- The bus after turns in a row. -/
def turns (b : Bus) (ts : List Turn) : Bus := ts.foldl Turn.apply b

/-- How many of the turns are steps of the engine. -/
def steps (ts : List Turn) : Nat := ts.count .step

/-- The bytes that are copied in the course of turns. -/
def copies (b : Bus) : List Turn → List ObjectTransfer.Copy
  | [] => []
  | .step :: ts => b.transfer.step.2.toList ++ copies b.stepTransfer ts
  | .write a v :: ts => copies (b.write a v) ts

variable {b : Bus} {ts : List Turn} {page : UInt8} {n : Nat}

@[simp] theorem turns_cons (b : Bus) (t : Turn) (ts : List Turn) :
    b.turns (t :: ts) = (t.apply b).turns ts := rfl

theorem turns_append (b : Bus) (ts us : List Turn) : b.turns (ts ++ us) = (b.turns ts).turns us :=
  List.foldl_append

theorem steps_step (ts : List Turn) : steps (.step :: ts) = steps ts + 1 := List.count_cons_self

theorem steps_write (a : UInt16) (v : UInt8) (ts : List Turn) :
    steps (.write a v :: ts) = steps ts := List.count_cons_of_ne (by simp)

theorem copies_append (b : Bus) (ts us : List Turn) :
    b.copies (ts ++ us) = b.copies ts ++ (b.turns ts).copies us := by
  induction ts generalizing b with
  | nil => rfl
  | cons t ts ih =>
    cases t with
    | step => simp only [List.cons_append, copies, ih, List.append_assoc, turns_cons, Turn.apply]
    | write a v => simp only [List.cons_append, copies, ih, turns_cons, Turn.apply]

/-! ### One turn -/

/-- The bus with the engine one step further, before it has copied. -/
def engineStepped (b : Bus) : Bus := { b with transfer := b.transfer.step.1 }

/-- A step without a copy moves the engine. -/
theorem stepTransfer_of_none (h : b.transfer.step.2 = none) : b.stepTransfer = b.engineStepped := by
  unfold stepTransfer
  dsimp only
  rw [h]
  rfl

/-- A step with a copy is a write like any other, of a byte read like any other, once the engine has
moved. Its address leads to object memory. -/
theorem stepTransfer_of_some {c : ObjectTransfer.Copy} (h : b.transfer.step.2 = some c) :
    b.stepTransfer = b.engineStepped.write c.destination (b.engineStepped.read c.source) ∧
      b.stepTransfer = b.engineStepped.writeObject c.index (b.engineStepped.read c.source) := by
  have hstep : b.stepTransfer =
      b.engineStepped.writeObject c.index (b.engineStepped.read c.source) := by
    unfold stepTransfer
    dsimp only
    rw [h]
    rfl
  refine ⟨?_, hstep⟩
  rw [hstep, write, ofAddress_destination]
  rfl

/-- A step with a copy, cell by cell: one cell holds the byte that was read, the others what they
held. -/
theorem stepTransfer_cell {c : ObjectTransfer.Copy} (h : b.transfer.step.2 = some c) (k : Fin 160) :
    b.stepTransfer.video.objects.get k =
      if k = c.index then b.engineStepped.read c.source else b.video.objects.get k := by
  rw [(stepTransfer_of_some h).2]
  exact Memory.get_set b.video.objects c.index k _

theorem stepTransfer_transfer (b : Bus) : b.stepTransfer.transfer = b.transfer.step.1 := by
  obtain ⟨_, h⟩ := b.stepTransfer_eq
  rw [h]

/-- A write to the register of transfers starts one. -/
theorem write_start (b : Bus) (page : UInt8) : (b.write 0xFF46 page).transfer = .start page :=
  congrArg Bus.transfer (b.write_address (.video .transfer) page)

/-- No other write reaches the engine. -/
theorem write_transfer {a : UInt16} (h : a ≠ 0xFF46) (v : UInt8) :
    (b.write a v).transfer = b.transfer := by
  unfold Bus.write
  cases hl : Location.ofAddress a with
  | device r =>
    cases r with
    | video r =>
      have hr : r ≠ .transfer := by
        rintro rfl
        exact h (Location.ofAddress_eq_device_iff.1 hl)
      exact if_neg hr
    | _ => rfl
  | _ => rfl

/-- Object memory cannot be read while the engine is active. -/
theorem read_objects_of_active (h : b.transfer.isActive = true) {a : UInt16}
    (hlow : 0xFE00 ≤ a.toNat) (hhigh : a.toNat ≤ 0xFE9F) : b.read a = 0xFF := by
  have ha := Location.covers_of_ofAddress (a := a) rfl
  unfold Bus.read
  cases hl : Location.ofAddress a with
  | objects i => exact if_pos h
  | _ =>
    rw [hl] at ha
    simp only [Location.Covers] at ha
    omega

/-! ### The run -/

/-- **The engine follows the steps.** Writes make no difference, but one to its own register. -/
theorem transfer_turns (hb : b.transfer = .after page n) (h : ∀ v, .write 0xFF46 v ∉ ts) :
    (b.turns ts).transfer = .after page (n + steps ts) := by
  induction ts generalizing b n with
  | nil => exact hb
  | cons t ts ih =>
    have hrest : ∀ v, .write 0xFF46 v ∉ ts := fun v hv => h v (List.mem_cons_of_mem t hv)
    cases t with
    | step =>
      have hstep : b.stepTransfer.transfer = .after page (n + 1) := by
        rw [stepTransfer_transfer, hb, ObjectTransfer.step_after]
      rw [turns_cons, Turn.apply, ih hstep hrest, steps_step]
      congr 1
      omega
    | write a v =>
      have ha : a ≠ 0xFF46 := by
        rintro rfl
        exact h v List.mem_cons_self
      rw [turns_cons, Turn.apply, ih ((write_transfer ha v).trans hb) hrest, steps_write]

/-- **The copies follow the steps.** -/
theorem copies_turns (hb : b.transfer = .after page n) (h : ∀ v, .write 0xFF46 v ∉ ts) :
    ObjectTransfer.firstCopies page n ++ b.copies ts =
      ObjectTransfer.firstCopies page (n + steps ts) := by
  induction ts generalizing b n with
  | nil => exact List.append_nil _
  | cons t ts ih =>
    have hrest : ∀ v, .write 0xFF46 v ∉ ts := fun v hv => h v (List.mem_cons_of_mem t hv)
    cases t with
    | step =>
      have hstep : b.stepTransfer.transfer = .after page (n + 1) := by
        rw [stepTransfer_transfer, hb, ObjectTransfer.step_after]
      have hcopy : b.transfer.step.2 = ObjectTransfer.due page n := by
        rw [hb, ObjectTransfer.step_after]
      rw [copies, hcopy, ← List.append_assoc, ← ObjectTransfer.firstCopies_succ, ih hstep hrest,
        steps_step]
      congr 1
      omega
    | write a v =>
      have ha : a ≠ 0xFF46 := by
        rintro rfl
        exact h v List.mem_cons_self
      rw [copies, ih ((write_transfer ha v).trans hb) hrest, steps_write]

/-- **The schedule of a transfer.** In any state of the machine, and after any steps and writes, a
page is written to the register of transfers, and then `n` steps are taken, with any writes to other
places between them. The engine is active if and only if `n` is less than 162. Another step copies
nothing while `n` is less than two, and byte `i` of the page if `n` is `i + 2`: the byte that is
read at that address is written to the cell of object memory with the same number. This cell holds
it then, and the others hold what they held. In these `n` steps the first bytes of the page have been
copied, each once and in order, whatever has been copied before. A step changes the engine and object
memory only, and while the engine is active object memory reads as ones. -/
theorem transfer_runs_to_schedule (b : Bus) (earlier later : List Turn) (page : UInt8)
    (h : ∀ v, .write 0xFF46 v ∉ later) :
    let ts := earlier ++ .write 0xFF46 page :: later
    let c := b.turns ts
    let n := steps later
    (c.transfer.isActive = true ↔ n < 162) ∧
    (n < 2 ∨ 162 ≤ n → c.stepTransfer = c.engineStepped ∧
      c.stepTransfer.video.objects = c.video.objects) ∧
    (∀ i : Fin 160, n = i.val + 2 →
      ∃ source destination : UInt16,
        source.toNat = page.toNat * 256 + i.val ∧ destination.toNat = 0xFE00 + i.val ∧
        c.stepTransfer = c.engineStepped.write destination (c.engineStepped.read source) ∧
        c.stepTransfer = c.engineStepped.writeObject i (c.engineStepped.read source) ∧
        ∀ k, c.stepTransfer.video.objects.get k =
          if k = i then c.engineStepped.read source else c.video.objects.get k) ∧
    b.copies ts =
      b.copies earlier ++ ((List.finRange 160).take (n - 2)).map (ObjectTransfer.copyOf page) ∧
    (∃ objects, b.stepTransfer =
      { b with transfer := b.transfer.step.1, video := { b.video with objects } }) ∧
    (b.transfer.isActive = true →
      ∀ a : UInt16, 0xFE00 ≤ a.toNat → a.toNat ≤ 0xFE9F → b.read a = 0xFF) := by
  intro ts c n
  have hstart : ((b.turns earlier).write 0xFF46 page).transfer = .after page 0 :=
    write_start _ page
  have hengine : c.transfer = .after page n := by
    show (b.turns (earlier ++ .write 0xFF46 page :: later)).transfer = _
    rw [turns_append, turns_cons, Turn.apply, transfer_turns hstart h, Nat.zero_add]
  have hdue : c.transfer.step.2 = ObjectTransfer.due page n := by
    rw [hengine, ObjectTransfer.step_after]
  refine ⟨?_, fun hn => ?_, fun i hn => ?_, ?_, b.stepTransfer_eq, fun hactive a => ?_⟩
  · rw [hengine]
    exact ObjectTransfer.isActive_after page n
  · rw [ObjectTransfer.due_eq_none hn] at hdue
    have hstep := stepTransfer_of_none hdue
    exact ⟨hstep, congrArg (·.video.objects) hstep⟩
  · rw [hn, ObjectTransfer.due_add_two] at hdue
    obtain ⟨hwrite, hobject⟩ := stepTransfer_of_some hdue
    exact ⟨_, _, ObjectTransfer.toNat_source page i, ObjectTransfer.toNat_destination _, hwrite,
      hobject, stepTransfer_cell hdue⟩
  · rw [copies_append]
    have hcopies := copies_turns hstart h
    rw [Nat.zero_add] at hcopies
    exact congrArg (b.copies earlier ++ ·) hcopies
  · exact read_objects_of_active hactive

/-- A transfer of one page is given up in favour of another after its first byte, and a byte of the
new page is changed while the engine waits: the third step copies byte 0 of the new page. -/
theorem restarted_transfer_runs_to_schedule :
    let earlier : List Turn := [.write 0xFF46 0x80, .step, .step, .step]
    let later : List Turn := [.step, .write 0xC100 0x42, .step, .step]
    let b := powerOn (.ofVolume .empty)
    let ts := earlier ++ .write 0xFF46 0xC1 :: later
    (∀ v, .write 0xFF46 v ∉ later) ∧ (b.turns ts).transfer.isActive = true ∧
      b.copies ts = b.copies earlier ++ [ObjectTransfer.copyOf 0xC1 0] := by
  intro earlier later b ts
  have hlater : ∀ v, .write 0xFF46 v ∉ later := by
    intro v hv
    simp [later] at hv
  obtain ⟨hactive, -, -, hcopies, -, -⟩ := transfer_runs_to_schedule b earlier later 0xC1 hlater
  exact ⟨hlater, hactive.2 (by decide), hcopies⟩

end Bus

end DotMatrix
