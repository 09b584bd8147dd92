import DotMatrix.Proofs.Bus.Kept
import DotMatrix.Proofs.Bus.Transmission
import DotMatrix.Proofs.Interrupts.Ledger
import Mathlib.Data.List.Basic

/-!
# What the serial link records

The bytes that leave are recorded until somebody takes them, and they can be taken at any time. What
has been taken and what is left is, in order, what was in the data register when the transfers were
started.

* `Bus.Use`: what is done to a bus, by the program and by whoever takes the bytes;
* `Use.data`, `Use.transmissions`: the data register and the bytes that leave, told from what was
  done;
* `perform_link`: one use, as the serial link sees it;
* `serial_capture`: uses in a row.
-/

namespace DotMatrix

/-- A transfer is started if bits 7 and 0 are on. -/
theorem Serial.starts_control (v : UInt8) :
    starts .control v = (Byte.bit v 7 && Byte.bit v 0) := by
  induction v using Byte.forall_of_fin with
  | h n =>
    revert n
    decide +kernel

namespace Bus

/-- What is done to a bus. -/
inductive Use
  | write (a : UInt16) (v : UInt8)
  /-- A machine cycle goes by. -/
  | cycle
  /-- An interrupt is dispatched. -/
  | acknowledge (source : Interrupt)
  /-- Somebody takes the bytes that have left. -/
  | take
  deriving DecidableEq, Repr

namespace Use

/-! ### What can be told from what was done -/

/-- Does it start a transfer? -/
def starts : Use → Bool
  | write a v => a == 0xFF02 && Byte.bit v 7 && Byte.bit v 0
  | _ => false

/-- The byte that it leaves in the data register, if it changes that. What arrives in a transfer is
all ones. -/
def leaves? : Use → Option UInt8
  | write a v => if a = 0xFF01 then some v else if (write a v).starts then some 0xFF else none
  | _ => none

/-- The byte in the data register: the last that was left there. -/
def data (us : List Use) : UInt8 := (us.reverse.findSome? leaves?).getD 0

/-- The bytes that leave: what is in the data register whenever a transfer is started. -/
def transmissions (us : List Use) : List UInt8 :=
  (List.range us.length).filterMap fun i =>
    if us[i]?.any starts then some (data (us.take i)) else none

theorem data_concat (us : List Use) (u : Use) : data (us ++ [u]) = u.leaves?.getD (data us) := by
  unfold data
  rw [List.reverse_concat, List.findSome?_cons]
  cases u.leaves? <;> rfl

theorem transmissions_concat (us : List Use) (u : Use) :
    transmissions (us ++ [u]) = transmissions us ++ if u.starts then [data us] else [] := by
  -- What is told of a place before the last depends only on the places before it.
  have hbefore : (List.range us.length).filterMap (fun i =>
      if (us ++ [u])[i]?.any starts then some (data ((us ++ [u]).take i)) else none) =
      transmissions us := by
    refine List.filterMap_congr fun i hi => ?_
    have hlt : i < us.length := List.mem_range.1 hi
    rw [List.getElem?_append_left hlt, List.take_append_of_le_length (Nat.le_of_lt hlt)]
  unfold transmissions at hbefore ⊢
  rw [List.length_append, List.length_singleton, List.range_succ, List.filterMap_append, hbefore]
  congr 1
  rw [List.filterMap_cons, List.getElem?_concat_length, List.take_left, Option.any_some]
  cases u.starts <;> rfl

/-! ### What the link does -/

/-- What is done to a bus, and what was taken so far. -/
def perform : Use → List (List UInt8) × Bus → List (List UInt8) × Bus
  | write a v, (outputs, b) => (outputs, b.write a v)
  | cycle, (outputs, b) => (outputs, b.cycle)
  | acknowledge source, (outputs, b) =>
    (outputs, { b with interrupts := b.interrupts.acknowledge source })
  | take, (outputs, b) => (outputs ++ [b.takeSerial.1.toList], b.takeSerial.2)

/-- Uses in a row, and what was taken in them. -/
def run (us : List Use) (b : Bus) : List (List UInt8) × Bus :=
  us.foldl (fun x u => u.perform x) ([], b)

theorem run_concat (us : List Use) (u : Use) (b : Bus) :
    run (us ++ [u]) b = u.perform (run us b) := by
  unfold run
  rw [List.foldl_concat]

end Use

/-- A write, as the serial link sees it. -/
theorem write_link (b : Bus) (a : UInt16) (v : UInt8) :
    (b.write a v).serial.sent.toList =
        b.serial.sent.toList ++ (if (Use.write a v).starts then [b.serial.data] else []) ∧
      (b.write a v).serial.data = (Use.write a v).leaves?.getD b.serial.data := by
  unfold Use.leaves?
  by_cases hcontrol : a = 0xFF02
  · have hstarts : (Use.write a v).starts = Serial.starts .control v := by
      rw [Use.starts, hcontrol, beq_self_eq_true, Bool.true_and, Serial.starts_control]
    have hdata : a ≠ 0xFF01 := by
      rw [hcontrol]
      decide
    dsimp only
    rw [write_serial, if_neg hdata, if_pos hcontrol, if_neg hdata, hstarts]
    unfold Serial.write
    cases Serial.starts .control v with
    | true => exact ⟨Array.toList_push, rfl⟩
    | false => exact ⟨(List.append_nil _).symm, rfl⟩
  · have hstarts : (Use.write a v).starts = false := by
      rw [Use.starts, beq_eq_false_iff_ne.2 hcontrol]
      rfl
    dsimp only
    rw [write_serial, if_neg hcontrol, hstarts]
    by_cases hdata : a = 0xFF01
    · rw [if_pos hdata, if_pos hdata]
      exact ⟨(List.append_nil _).symm, rfl⟩
    · rw [if_neg hdata, if_neg hdata]
      exact ⟨(List.append_nil _).symm, rfl⟩

/-- One use, as the serial link sees it. -/
theorem perform_link (u : Use) (outputs : List (List UInt8)) (b : Bus) :
    (u.perform (outputs, b)).1.flatten ++ (u.perform (outputs, b)).2.serial.sent.toList =
        outputs.flatten ++ b.serial.sent.toList ++ (if u.starts then [b.serial.data] else []) ∧
      (u.perform (outputs, b)).2.serial.data = u.leaves?.getD b.serial.data := by
  cases u with
  | write a v =>
    obtain ⟨hsent, hdata⟩ := b.write_link a v
    rw [List.append_assoc, ← hsent]
    exact ⟨rfl, hdata⟩
  | cycle =>
    unfold Use.perform
    rw [cycle_serial]
    exact ⟨(List.append_nil _).symm, rfl⟩
  | acknowledge source => exact ⟨(List.append_nil _).symm, rfl⟩
  | take =>
    refine ⟨?_, rfl⟩
    show (outputs ++ [b.serial.sent.toList]).flatten ++ [] = _
    rw [List.flatten_append, List.flatten_singleton]
    rfl

/-- Uses in a row, as the serial link sees them. -/
theorem run_serial (us : List Use) {b : Bus} (h : b.serial = .powerOn) :
    (Use.run us b).1.flatten ++ (Use.run us b).2.serial.sent.toList = Use.transmissions us ∧
      (Use.run us b).2.serial.data = Use.data us := by
  induction us using List.reverseRecOn with
  | nil =>
    show b.serial.sent.toList = [] ∧ b.serial.data = 0
    rw [h]
    exact ⟨rfl, rfl⟩
  | append_singleton us u ih =>
    obtain ⟨hsent, hdata⟩ := ih
    obtain ⟨hsent', hdata'⟩ := perform_link u (Use.run us b).1 (Use.run us b).2
    rw [Use.run_concat, Use.transmissions_concat, Use.data_concat, ← hsent, ← hdata]
    exact ⟨hsent', hdata'⟩

/-- A write to the control register, as the program and the interrupts see it. -/
theorem write_control (b : Bus) (v : UInt8) :
    (b.write 0xFF02 v).interrupts = b.interrupts.requestIf (Byte.bit v 7 && Byte.bit v 0) .serial ∧
      Byte.bit ((b.write 0xFF02 v).read 0xFF02) 7 = (Byte.bit v 7 && !Byte.bit v 0) := by
  have hlocation : Location.ofAddress 0xFF02 = .device (.serial .control) :=
    Location.ofAddress_address (.serial .control)
  have hwrite : b.write 0xFF02 v = b.writeDevice (.serial .control) v :=
    b.write_address (.serial .control) v
  have hread : (b.write 0xFF02 v).read 0xFF02 = (b.serial.write .control v).read .control := by
    rw [hwrite, Bus.read, hlocation]
    rfl
  have hclear : Byte.bit 0x7F 7 = false := by decide
  have hunused : Byte.bit 0x7E 7 = false := by decide
  refine ⟨?_, ?_⟩
  · rw [hwrite, ← Serial.starts_control]
    rfl
  · rw [hread, Serial.write, Serial.starts_control, Serial.read, Byte.bit_or, hunused, Bool.or_false]
    cases hstart : Byte.bit v 7 && Byte.bit v 0 with
    | true =>
      obtain ⟨-, hzero⟩ := Bool.and_eq_true_iff.1 hstart
      rw [if_pos rfl, Byte.bit_and, hclear, hzero, Bool.and_false, Bool.not_true, Bool.and_false]
    | false =>
      rw [if_neg Bool.false_ne_true]
      dsimp only
      cases hbit : Byte.bit v 7 with
      | false => rfl
      | true =>
        rw [hbit, Bool.true_and] at hstart
        rw [hstart]
        rfl

/-- **What the serial link records.** However writes, machine cycles, dispatched interrupts and takes
follow each other, from a link at power on: what was taken and what is left is what was in the data
register whenever a transfer was started, in order and nothing else. A transfer that is started
requests the serial interrupt and is over when the program reads the control register; nothing else
that is done to the link requests an interrupt, and what else is written to bit 7 of the control
register stays there. -/
theorem serial_capture (b : Bus) (us : List Use) :
    let x := Use.run us { b with serial := .powerOn }
    let after := x.2
    x.1.flatten ++ after.serial.sent.toList = Use.transmissions us ∧
      after.read 0xFF01 = Use.data us ∧
      (∀ v, Byte.bit v 7 = true → Byte.bit v 0 = true →
        (after.write 0xFF02 v).interrupts = after.interrupts.request .serial ∧
          (after.write 0xFF02 v).interrupts.requested .serial = true ∧
          Byte.bit ((after.write 0xFF02 v).read 0xFF02) 7 = false) ∧
      (∀ v, ¬(Byte.bit v 7 = true ∧ Byte.bit v 0 = true) →
        (after.write 0xFF02 v).interrupts = after.interrupts ∧
          Byte.bit ((after.write 0xFF02 v).read 0xFF02) 7 = Byte.bit v 7) ∧
      (∀ v, (after.write 0xFF01 v).interrupts = after.interrupts) ∧
      after.takeSerial.2.interrupts = after.interrupts := by
  intro x after
  obtain ⟨hsent, hdata⟩ := run_serial us (b := { b with serial := .powerOn }) rfl
  have hread : after.read 0xFF01 = after.serial.data := by
    rw [Bus.read, show Location.ofAddress 0xFF01 = .device (.serial .data) from
      Location.ofAddress_address (.serial .data)]
    rfl
  refine ⟨hsent, hread.trans hdata, fun v hseven hzero => ?_, fun v hnot => ?_, fun v => ?_, rfl⟩
  · obtain ⟨hinterrupts, hbit⟩ := after.write_control v
    rw [hseven, hzero] at hinterrupts hbit
    have hrequest : (after.write 0xFF02 v).interrupts = after.interrupts.request .serial :=
      hinterrupts
    refine ⟨hrequest, ?_, hbit⟩
    rw [hrequest, Interrupts.requested_request_self]
  · obtain ⟨hinterrupts, hbit⟩ := after.write_control v
    have hstart : (Byte.bit v 7 && Byte.bit v 0) = false :=
      Bool.eq_false_iff.2 fun h => hnot (Bool.and_eq_true_iff.1 h)
    rw [hstart] at hinterrupts
    refine ⟨hinterrupts, hbit.trans ?_⟩
    revert hstart
    cases Byte.bit v 7 <;> cases Byte.bit v 0 <;> decide
  · exact congrArg (·.interrupts) (after.write_address (.serial .data) v)

/-- A byte is taken, and the link sends what arrived in its place. -/
theorem serial_capture_twice :
    let us := [.write 0xFF01 0x4F, .write 0xFF02 0x81, .take, .write 0xFF02 0x81]
    let b := Bus.powerOn (.ofVolume .empty)
    (Use.run us b).1.flatten ++ (Use.run us b).2.serial.sent.toList = [0x4F, 0xFF] ∧
      ((Use.run us b).2.write 0xFF02 0xFF).interrupts.requested .serial = true ∧
      Byte.bit (((Use.run us b).2.write 0xFF02 0x80).read 0xFF02) 7 = true := by
  intro us b
  obtain ⟨hsent, -, hstarted, hwritten, -⟩ := serial_capture b us
  exact ⟨hsent.trans (by decide), (hstarted 0xFF (by decide) (by decide)).2.1,
    (hwritten 0x80 (by decide)).2⟩

end Bus
end DotMatrix
