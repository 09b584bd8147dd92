import DotMatrix.Proofs.Bus.TransferSchedule

/-!
# The bytes of an object transfer

In each step the engine goes on first and the bus copies afterwards. Up to the last byte but one the
engine is active before and after it has gone on, so the byte that is copied is the byte that a
program would have read. With the last byte the engine comes to rest before the bus reads, and object
memory is open again. This makes a difference to one byte of one page: if the page is object memory
itself, its last cell is copied onto itself, where a program reads ones as in all cells before it.

* `copiedByte`: what a step brings into a cell of object memory;
* `stepTransfer_objects`: one step brings it there and leaves the other cells;
* `turns_objects`: steps in a row bring the bytes of the page as they read before the first of them;
* `copied_as_read`: when this is what a program reads, for one step and for the rest of a page;
* `last_cell_not_as_read`: a transfer that copies something else.
-/

namespace DotMatrix

namespace Bus

variable {b : Bus} {page : UInt8} {i : Fin 160}

/-! ### Reading while the engine goes on -/

/-- The bus with another state of the engine and other object memory. -/
def withTransfer (b : Bus) (transfer : ObjectTransfer) (objects : Memory 160) : Bus :=
  { b with transfer, video := { b.video with objects } }

/-- Engine and object memory show in object memory only. -/
theorem readAt_withTransfer {t : ObjectTransfer} {objects : Memory 160} {l : Location}
    (h : ∀ k, l ≠ .objects k) : (b.withTransfer t objects).readAt l = b.readAt l := by
  cases l with
  | objects k => exact absurd rfl (h k)
  | device r =>
    cases r with
    | video r => cases r <;> rfl
    | _ => rfl
  | _ => rfl

/-- While the engine is active, what a program reads does not depend on its state, nor on object
memory. -/
theorem read_withTransfer {t : ObjectTransfer} {objects : Memory 160} (a : UInt16)
    (hb : b.transfer.isActive = true) (ht : t.isActive = true) :
    (b.withTransfer t objects).read a = b.read a := by
  unfold Bus.read
  cases Location.ofAddress a with
  | objects k => exact (if_pos ht).trans (if_pos hb).symm
  | _ => exact readAt_withTransfer fun k => Location.noConfusion

/-- A byte to be copied comes from object memory only if the page is object memory, and then from
the cell that it goes to. -/
theorem source_leads_to_objects {k : Fin 160}
    (h : Location.ofAddress (ObjectTransfer.copyOf page i).source = .objects k) :
    page = 0xFE ∧ k = i := by
  have ha := Location.covers_of_ofAddress h
  rw [ObjectTransfer.toNat_source] at ha
  have hk := k.isLt
  have hi := i.isLt
  simp only [Location.Covers] at ha
  refine ⟨UInt8.toNat_inj.1 ?_, Fin.ext (by omega)⟩
  show page.toNat = 0xFE
  omega

theorem source_of_objects (i : Fin 160) :
    Location.ofAddress (ObjectTransfer.copyOf 0xFE i).source = .objects i := by
  have hsource : (ObjectTransfer.copyOf 0xFE i).source = (ObjectTransfer.copyOf 0xFE i).destination := by
    apply UInt16.toNat_inj.1
    rw [ObjectTransfer.toNat_source, ObjectTransfer.toNat_destination]
    rfl
  rw [hsource, ofAddress_destination]
  rfl

/-! ### One step -/

/-- What a step brings into cell `i` of object memory when byte `i` of the page is due. -/
def copiedByte (b : Bus) (page : UInt8) (i : Fin 160) : UInt8 :=
  if page = 0xFE ∧ i.val = 159 then b.video.objects.get i
  else b.read (ObjectTransfer.copyOf page i).source

theorem isActive_of_copying (h : b.transfer = .copying page i) : b.transfer.isActive = true := by
  rw [h]
  rfl

/-- When the engine has gone on, the bus reads what `copiedByte` says. -/
theorem engineStepped_read (h : b.transfer = .copying page i) :
    b.engineStepped.read (ObjectTransfer.copyOf page i).source = b.copiedByte page i := by
  have hactive := isActive_of_copying h
  have hengine : b.engineStepped = b.withTransfer b.transfer.step.1 b.video.objects := rfl
  by_cases hlast : i.val = 159
  swap
  · -- The engine is active before and after it has gone on.
    have hstep : b.transfer.step.1.isActive = true := by
      rw [h, ObjectTransfer.step, dif_pos (by omega)]
      rfl
    rw [hengine, read_withTransfer _ hactive hstep, copiedByte, if_neg fun hc => hlast hc.2]
  by_cases hpage : page = 0xFE
  · -- The engine is at rest, and the byte lies in object memory.
    have hstep : b.engineStepped.transfer.isActive = false := by
      show b.transfer.step.1.isActive = false
      rw [h, ObjectTransfer.step, dif_neg (by omega)]
      rfl
    subst hpage
    rw [copiedByte, if_pos ⟨rfl, hlast⟩, Bus.read, source_of_objects]
    exact if_neg (Bool.eq_false_iff.1 hstep)
  · have hsource : ∀ k, Location.ofAddress (ObjectTransfer.copyOf page i).source ≠ .objects k :=
      fun k hk => hpage (source_leads_to_objects hk).1
    rw [copiedByte, if_neg fun hc => hpage hc.1, hengine]
    exact readAt_withTransfer hsource

/-- **One step** puts the copied byte into its cell. -/
theorem stepTransfer_objects (h : b.transfer = .copying page i) :
    b.stepTransfer.video.objects = b.video.objects.set i (b.copiedByte page i) := by
  have hdue : b.transfer.step.2 = some (ObjectTransfer.copyOf page i) := by
    rw [h]
    rfl
  rw [(stepTransfer_of_some hdue).2, ← engineStepped_read h]
  rfl

/-- What is copied is what a program would have read, but for the last cell of object memory, if it
does not happen to hold ones. -/
theorem copiedByte_eq_read_iff (h : b.transfer = .copying page i) :
    b.copiedByte page i = b.read (ObjectTransfer.copyOf page i).source ↔
      (page = 0xFE → i.val = 159 → b.video.objects.get i = 0xFF) := by
  unfold copiedByte
  split
  · rename_i hlast
    obtain ⟨rfl, hi⟩ := hlast
    have hread : b.read (ObjectTransfer.copyOf 0xFE i).source = 0xFF := by
      rw [Bus.read, source_of_objects]
      exact if_pos (isActive_of_copying h)
    rw [hread]
    exact ⟨fun he _ _ => he, fun he => he rfl hi⟩
  · rename_i hlast
    exact iff_of_true rfl fun hpage hi => absurd ⟨hpage, hi⟩ hlast

/-! ### Steps in a row -/

theorem turns_concat (b : Bus) (ts : List Turn) (t : Turn) :
    b.turns (ts ++ [t]) = t.apply (b.turns ts) := turns_append b ts [t]

/-- Steps change engine and object memory only. -/
theorem turns_steps_eq (b : Bus) (n : Nat) :
    ∃ t objects, b.turns (List.replicate n .step) = b.withTransfer t objects := by
  induction n with
  | zero => exact ⟨b.transfer, b.video.objects, rfl⟩
  | succ n ih =>
    obtain ⟨t, objects, hn⟩ := ih
    obtain ⟨objects', hstep⟩ := (b.turns (List.replicate n .step)).stepTransfer_eq
    rw [List.replicate_succ', turns_concat, Turn.apply, hstep, hn]
    exact ⟨_, objects', rfl⟩

/-- The engine goes on by one byte with each step, and rests after the last. -/
theorem turns_steps_transfer (h : b.transfer = .copying page i) (n : Nat) :
    (b.turns (List.replicate n .step)).transfer = .after page (i.val + 2 + n) := by
  have hi := i.isLt
  have hb : b.transfer = .after page (i.val + 2) := by
    rw [h, ObjectTransfer.after_of_due (by omega) (by omega)]
    rfl
  have hsteps : steps (List.replicate n Turn.step) = n := List.count_replicate_self
  have hnone : ∀ v, Turn.write 0xFF46 v ∉ List.replicate n Turn.step := fun v hv =>
    Turn.noConfusion (List.eq_of_mem_replicate hv)
  rw [transfer_turns hb hnone, hsteps]

/-- While the engine is active, a byte that is still to come reads as it did before. -/
theorem copiedByte_withTransfer {t : ObjectTransfer} {objects : Memory 160} (k : Fin 160)
    (hb : b.transfer.isActive = true) (ht : t.isActive = true)
    (hk : objects.get k = b.video.objects.get k) :
    (b.withTransfer t objects).copiedByte page k = b.copiedByte page k := by
  have hcell : (b.withTransfer t objects).video.objects.get k = b.video.objects.get k := hk
  rw [copiedByte, copiedByte, read_withTransfer _ hb ht, hcell]

/-- **Steps in a row** bring the bytes from `i` on, each as it read before the first step, and leave
the other cells. -/
theorem turns_objects (h : b.transfer = .copying page i) {n : Nat} (hn : i.val + n ≤ 160)
    (k : Fin 160) :
    (b.turns (List.replicate n .step)).video.objects.get k =
      if i.val ≤ k.val ∧ k.val < i.val + n then b.copiedByte page k else b.video.objects.get k := by
  -- Before each step the engine is active and the cell of the next byte is as it was.
  induction n generalizing k with
  | zero => exact (if_neg (by omega)).symm
  | succ n ih =>
    have hlt : i.val + n < 160 := by omega
    have hobjects := ih (by omega)
    have htransfer : (b.turns (List.replicate n .step)).transfer = .copying page ⟨i.val + n, hlt⟩ := by
      rw [turns_steps_transfer h, ObjectTransfer.after_of_due (by omega) (by omega)]
      congr 2
      omega
    obtain ⟨t, objects, hturns⟩ := turns_steps_eq b n
    rw [List.replicate_succ', turns_concat, Turn.apply, stepTransfer_objects htransfer]
    rw [hturns] at htransfer hobjects ⊢
    have hnext : (b.withTransfer t objects).copiedByte page ⟨i.val + n, hlt⟩ =
        b.copiedByte page ⟨i.val + n, hlt⟩ := by
      refine copiedByte_withTransfer _ (isActive_of_copying h) (isActive_of_copying htransfer) ?_
      exact (hobjects _).trans (if_neg (Nat.lt_irrefl _ ·.2))
    rw [hnext]
    by_cases hk : k = ⟨i.val + n, hlt⟩
    · subst hk
      rw [Memory.get_set_self, if_pos ⟨Nat.le_add_right _ _, Nat.lt_succ_self _⟩]
    · have hne : k.val ≠ i.val + n := fun hv => hk (Fin.ext hv)
      rw [Memory.get_set_of_ne _ _ hk, hobjects]
      exact if_congr (by omega) rfl rfl

/-- **What is copied.** In any state of the machine in which byte `i` of a page is due, a step puts
into cell `i` of object memory what a program would have read at the address of that byte just before
the step, unless the byte is the last of object memory itself: this one is left as it is, whatever a
program would have read. The other cells are left too. So cell and read agree after the step unless
the page is object memory, the byte is its last, and it is not all ones. If the rest of the page is
copied with nothing written meanwhile, this holds of all bytes from `i` on, as a program would have
read them before the first of these steps; and with `i` the first byte that is the whole page. -/
theorem copied_as_read (b : Bus) (page : UInt8) (i : Fin 160) (h : b.transfer = .copying page i) :
    let source (k : Fin 160) := UInt16.ofNat (page.toNat * 256 + k.val)
    let rest := b.turns (List.replicate (160 - i.val) .step)
    (∀ k, b.stepTransfer.video.objects.get k =
      if k = i ∧ ¬(page = 0xFE ∧ i.val = 159) then b.read (source i) else b.video.objects.get k) ∧
    (b.stepTransfer.video.objects.get i = b.read (source i) ↔
      (page = 0xFE → i.val = 159 → b.video.objects.get i = 0xFF)) ∧
    rest.transfer = .idle ∧
    ∀ k, rest.video.objects.get k =
      if i.val ≤ k.val ∧ ¬(page = 0xFE ∧ k.val = 159) then b.read (source k)
      else b.video.objects.get k := by
  intro source rest
  have hi := i.isLt
  have hsource : ∀ k, (ObjectTransfer.copyOf page k).source = source k := fun k => by
    have hk := k.isLt
    have hp := page.toNat_lt
    apply UInt16.toNat_inj.1
    rw [ObjectTransfer.toNat_source, UInt16.toNat_ofNat']
    omega
  have hcopied : ∀ k, b.copiedByte page k =
      if ¬(page = 0xFE ∧ k.val = 159) then b.read (source k) else b.video.objects.get k := fun k => by
    rw [ite_not, copiedByte, hsource]
  refine ⟨fun k => ?_, ?_, ?_, fun k => ?_⟩
  · rw [stepTransfer_objects h]
    by_cases hk : k = i
    · subst hk
      rw [Memory.get_set_self, hcopied]
      exact if_congr (by simp) rfl rfl
    · rw [Memory.get_set_of_ne _ _ hk, if_neg fun hc => hk hc.1]
  · rw [stepTransfer_objects h, Memory.get_set_self, ← hsource, copiedByte_eq_read_iff h]
  · exact (turns_steps_transfer h _).trans
      (ObjectTransfer.after_of_le (by unfold ObjectTransfer.length; omega))
  · rw [turns_objects h (by omega) k, hcopied]
    by_cases hk : i.val ≤ k.val
    · rw [if_pos ⟨hk, by omega⟩]
      exact if_congr (by simp [hk]) rfl rfl
    · rw [if_neg fun hc => hk hc.1, if_neg fun hc => hk hc.1]

/-- A transfer of a page of work RAM, just before the last byte of the page, which is 42. -/
def beforeLastByte : Bus :=
  (((powerOn (.ofVolume .empty)).write 0xC19F 0x42).write 0xFF46 0xC1).turns (List.replicate 161 .step)

theorem last_byte_copied_as_read :
    beforeLastByte.transfer = .copying 0xC1 159 ∧
      beforeLastByte.stepTransfer.video.objects.get 159 = beforeLastByte.read 0xC19F ∧
      beforeLastByte.read 0xC19F = 0x42 := by
  have h : beforeLastByte.transfer = .copying 0xC1 159 := by decide +kernel
  obtain ⟨-, hread, -⟩ := copied_as_read beforeLastByte 0xC1 159 h
  exact ⟨h, hread.2 (fun hpage => absurd hpage (by decide)), by decide +kernel⟩

/-- A transfer of the page that object memory lies in, whose last cell holds 42. -/
def ontoItself : Bus := ((powerOn (.ofVolume .empty)).write 0xFE9F 0x42).write 0xFF46 0xFE

/-- Before its last step a program reads ones in the last cell, as it does in all others, and the step
leaves 42 there. -/
theorem last_cell_not_as_read :
    let b := ontoItself.turns (List.replicate 161 .step)
    b.transfer = .copying 0xFE 159 ∧ b.read 0xFE9F = 0xFF ∧
      b.stepTransfer.video.objects.get 159 = 0x42 := by
  decide +kernel

end Bus

end DotMatrix
