import DotMatrix.Proofs.Bus.History
import DotMatrix.Proofs.Processor.Bisimulation

/-!
# What a program sends

A program sends a byte by writing it to the data register of the serial link and then starting a
transfer. What it sends can be read off its writes. Whoever takes the bytes that have left, and
acknowledges frames, is not noticed by the program.

* `Access.transmitted`: the bytes that accesses send;
* `Bus.perform_sent`: they are what performing the accesses adds to the bytes that have left;
* `Machine.transmitted`: the bytes that steps in a row send;
* `Bus.Taken`: the same bus, after somebody has taken bytes and acknowledged frames;
* `Bus.taken_bisimulation`: the processor cannot tell the two apart.
-/

namespace DotMatrix

/-! ### The bytes -/

/-- The bytes that accesses send, when `data` is in the data register before them. What arrives in
its place is all ones. -/
def Access.transmitted : UInt8 → List Access → List UInt8
  | _, [] => []
  | data, .write a v :: xs =>
    if a = 0xFF01 then transmitted v xs
    else if a = 0xFF02 ∧ v &&& 0x81 = 0x81 then data :: transmitted 0xFF xs
    else transmitted data xs
  | data, _ :: xs => transmitted data xs

namespace Bus

variable (b : Bus)

theorem cycle_serial : b.cycle.serial = b.serial := by
  obtain ⟨_, _, _, h, -⟩ := b.cycle_eq
  rw [h]

/-- Only writes to its registers reach the serial link. -/
theorem write_serial (a : UInt16) (v : UInt8) : (b.write a v).serial =
    if a = 0xFF01 then b.serial.write .data v
    else if a = 0xFF02 then b.serial.write .control v else b.serial := by
  have hdata : Location.ofAddress a = .device (.serial .data) ↔ a = 0xFF01 :=
    Location.ofAddress_eq_device_iff
  have hcontrol : Location.ofAddress a = .device (.serial .control) ↔ a = 0xFF02 :=
    Location.ofAddress_eq_device_iff
  rw [← if_congr hdata rfl (if_congr hcontrol rfl rfl)]
  unfold write
  cases Location.ofAddress a with
  | device r =>
    cases r with
    | serial r => cases r <;> simp [writeAt, writeDevice]
    | _ => rfl
  | _ => rfl

/-- **What accesses send** is what performing them adds to the bytes that have left. -/
theorem perform_sent (xs : List Access) : (b.perform xs).serial.sent.toList =
    b.serial.sent.toList ++ Access.transmitted b.serial.data xs := by
  induction xs generalizing b with
  | nil => exact (List.append_nil _).symm
  | cons x xs ih =>
    rw [perform_cons, ih]
    cases x with
    | quiet =>
      rw [access, cycle_serial]
      rfl
    | acknowledge source => rfl
    | write a v =>
      rw [access, cycle_serial, write_serial, Access.transmitted]
      by_cases hdata : a = 0xFF01
      · rw [if_pos hdata, if_pos hdata]
        rfl
      rw [if_neg hdata, if_neg hdata]
      by_cases hcontrol : a = 0xFF02
      · rw [if_pos hcontrol]
        by_cases hstart : v &&& 0x81 = 0x81
        · have hstarts : Serial.starts .control v = true := by simp [Serial.starts, hstart]
          rw [if_pos ⟨hcontrol, hstart⟩, Serial.write, if_pos hstarts, Array.toList_push,
            List.append_assoc]
          rfl
        · have hstarts : Serial.starts .control v ≠ true := by simp [Serial.starts, hstart]
          rw [if_neg (fun h => hstart h.2), Serial.write, if_neg hstarts]
      · rw [if_neg hcontrol, if_neg (fun h => hcontrol h.1)]

end Bus

/-! ### Taking them -/

namespace Video

/-- The unit with the completed frame acknowledged, or not. -/
def acknowledged (v : Video) (ready : Bool) : Video := { v with frameReady := ready }

variable (v : Video) (ready : Bool)

theorem acknowledged_write (r : Register) (x : UInt8) :
    (v.acknowledged ready).write r x = (v.write r x).acknowledged ready := by
  cases r with
  | control =>
    unfold write writeControl
    dsimp only
    rw [apply_ite (acknowledged · ready), apply_ite (acknowledged · ready)]
    rfl
  | _ => rfl

theorem acknowledged_tickScan : (v.acknowledged ready).tickScan =
    v.tickScan.map (acknowledged · ready) id := by
  rcases Nat.lt_or_ge v.dot scanDots with h | h
  · rw [tickScan_of_lt h, tickScan_of_lt (v := v.acknowledged ready) h, Prod.map_apply,
      apply_ite (acknowledged · ready)]
    rfl
  · rw [tickScan_of_le h, tickScan_of_le (v := v.acknowledged ready) h]
    rfl

theorem acknowledged_tickTransfer : (v.acknowledged ready).tickTransfer =
    v.tickTransfer.map (acknowledged · ready) id := by
  have hdraw : (v.acknowledged ready).drawLine = v.drawLine.acknowledged ready := by
    unfold drawLine
    rw [apply_dite (acknowledged · ready)]
    rfl
  rcases Nat.lt_or_ge v.dot transferEnd with h | h
  · rw [tickTransfer_of_lt h, tickTransfer_of_lt (v := v.acknowledged ready) h, Prod.map_apply,
      apply_ite (acknowledged · ready), hdraw]
    rfl
  · rw [tickTransfer_of_le h, tickTransfer_of_le (v := v.acknowledged ready) h]
    rfl

/-- At the end of the picture a frame is complete, acknowledged before or not. -/
theorem acknowledged_tickHBlank : ∃ later, (v.acknowledged ready).nextDot.tickHBlank =
    v.nextDot.tickHBlank.map (acknowledged · later) id := by
  rcases Nat.lt_or_ge (v.dot + 1) lineDots with h | h
  · rw [tickHBlank_of_lt (v := v.nextDot) h,
      tickHBlank_of_lt (v := (v.acknowledged ready).nextDot) h]
    exact ⟨ready, rfl⟩
  rcases Nat.lt_or_ge (v.line + 1) screenHeight with hl | hl
  · rw [tickHBlank_of_shown h hl, tickHBlank_of_shown (v := v.acknowledged ready) h hl]
    exact ⟨ready, rfl⟩
  · rw [tickHBlank_of_last h hl, tickHBlank_of_last (v := v.acknowledged ready) h hl]
    exact ⟨true, rfl⟩

theorem acknowledged_tickVBlank : (v.acknowledged ready).nextDot.tickVBlank =
    v.nextDot.tickVBlank.map (acknowledged · ready) id := by
  rcases Nat.lt_or_ge (v.dot + 1) lineDots with h | h
  · rw [tickVBlank_of_lt (v := v.nextDot) h,
      tickVBlank_of_lt (v := (v.acknowledged ready).nextDot) h]
    rfl
  rcases Nat.lt_or_ge (v.line + 1) frameLines with hl | hl
  · rw [tickVBlank_of_blank h hl, tickVBlank_of_blank (v := v.acknowledged ready) h hl]
    rfl
  · rw [tickVBlank_of_last h hl, tickVBlank_of_last (v := v.acknowledged ready) h hl]
    rfl

/-- Nothing but the next acknowledgement depends on the last one. -/
theorem acknowledged_tick : ∃ later, (v.acknowledged ready).tick =
    v.tick.map (acknowledged · later) id := by
  by_cases hon : v.displayOn = true
  · have hon' : (v.acknowledged ready).displayOn = true := hon
    have hmode : (v.acknowledged ready).mode = v.mode := rfl
    rw [tick_of_on hon, tick_of_on hon', hmode]
    cases v.mode with
    | objectScan => exact ⟨ready, v.nextDot.acknowledged_tickScan ready⟩
    | transfer => exact ⟨ready, v.nextDot.acknowledged_tickTransfer ready⟩
    | hblank => exact v.acknowledged_tickHBlank ready
    | vblank => exact ⟨ready, v.acknowledged_tickVBlank ready⟩
  · refine ⟨ready, ?_⟩
    have hoff : v.displayOn = false := Bool.eq_false_iff.2 hon
    have hoff' : (v.acknowledged ready).displayOn = false := hoff
    rw [tick_of_off hoff, tick_of_off hoff']
    rfl

end Video

namespace Bus

/-- The same bus, after somebody has taken the first bytes that had left and has acknowledged
frames. -/
inductive Taken (taken : List UInt8) (b : Bus) : Bus → Prop
  | intro {sent : Array UInt8} (ready : Bool) : b.serial.sent.toList = taken ++ sent.toList →
    Taken taken b
      { b with serial := { b.serial with sent }, video := b.video.acknowledged ready }

variable {b b' : Bus} {taken : List UInt8}

theorem Taken.refl (b : Bus) : Taken [] b b := .intro b.video.frameReady (List.nil_append _).symm

theorem Taken.read (h : Taken taken b b') (a : UInt16) : b'.read a = b.read a := by
  cases h with
  | intro ready hs =>
    unfold Bus.read
    cases Location.ofAddress a with
    | device r =>
      cases r with
      | serial r => cases r <;> rfl
      | video r => cases r <;> rfl
      | _ => rfl
    | _ => rfl

theorem Taken.write (h : Taken taken b b') (a : UInt16) (v : UInt8) :
    Taken taken (b.write a v) (b'.write a v) := by
  cases h with
  | intro ready hs =>
    unfold Bus.write
    cases Location.ofAddress a with
    | device r =>
      cases r with
      | serial r =>
        cases r with
        | data => exact .intro ready hs
        | control =>
          by_cases hstarts : Serial.starts .control v = true
          · simp only [writeAt, writeDevice, Serial.write, if_pos hstarts]
            refine .intro ready ?_
            dsimp only
            rw [Array.toList_push, Array.toList_push, hs, List.append_assoc]
          · simp only [writeAt, writeDevice, Serial.write, if_neg hstarts]
            exact .intro ready hs
      | video r =>
        simp only [writeAt, writeDevice, writeVideo, Video.acknowledged_write]
        exact .intro ready hs
      | _ => exact .intro ready hs
    | _ => exact .intro ready hs

/-- A change that has nothing to do with what has left and with frames. -/
theorem Taken.map (h : Taken taken b b') {f : Bus → Bus}
    (hs : ∀ b, (f b).serial = b.serial)
    (hf : ∀ (b : Bus) (sent : Array UInt8) (ready : Bool),
      f { b with serial := { b.serial with sent }, video := b.video.acknowledged ready } =
        { f b with serial := { b.serial with sent }, video := (f b).video.acknowledged ready }) :
    Taken taken (f b) (f b') := by
  cases h with
  | intro ready h =>
    rw [hf, ← hs b]
    refine .intro ready ?_
    rw [hs]
    exact h

theorem Taken.tickVideo (h : Taken taken b b') :
    Taken taken b.tickVideo.1 b'.tickVideo.1 ∧ b'.tickVideo.2 = b.tickVideo.2 := by
  cases h with
  | intro ready hs =>
    obtain ⟨later, htick⟩ := b.video.acknowledged_tick ready
    unfold Bus.tickVideo
    dsimp only
    rw [htick]
    exact ⟨.intro later hs, rfl⟩

/-- A save sees the cartridge and the host only. -/
theorem vblankBegan_with (b : Bus) (serial : Serial) (video : Video) :
    vblankBegan { b with serial, video } = { b.vblankBegan with serial, video } := by
  unfold vblankBegan saveRam needsSave
  dsimp only
  split
  · split
    · rfl
    · split <;> rfl
  · rfl

theorem Taken.vblankBegan (h : Taken taken b b') : Taken taken b.vblankBegan b'.vblankBegan := by
  have hsame (b : Bus) : b.vblankBegan.serial = b.serial ∧ b.vblankBegan.video = b.video := by
    obtain ⟨_, _, h, -⟩ := b.vblankBegan_eq
    rw [h]
    exact ⟨rfl, rfl⟩
  refine h.map (f := Bus.vblankBegan) (fun b => (hsame b).1) fun b sent ready => ?_
  rw [vblankBegan_with, (hsame b).2]

theorem taken_lockstep (taken : List UInt8) : Lockstep (Taken taken) where
  read h := h.read
  transfer_eq h := by
    cases h
    rfl
  setTransfer h transfer :=
    h.map (f := fun b => { b with transfer }) (fun _ => rfl) fun _ _ _ => rfl
  writeObject h i v := h.map (f := (·.writeObject i v)) (fun _ => rfl) fun _ _ _ => rfl
  tickTimer h := h.map (f := tickTimer) (fun _ => rfl) fun _ _ _ => rfl
  tickVideo h := h.tickVideo
  vblankBegan h := h.vblankBegan

/-- **The processor does not learn who takes the bytes that have left**, and when. -/
theorem taken_bisimulation (taken : List UInt8) : Bisimulation (Taken taken) where
  read h := h.read
  interrupts h := by
    cases h
    rfl
  write h := h.write
  cycle h := (taken_lockstep taken).cycle h
  acknowledge h source :=
    h.map (f := fun b => { b with interrupts := b.interrupts.acknowledge source }) (fun _ => rfl)
      fun _ _ _ => rfl

/-- Somebody takes the bytes that have left since. -/
theorem Taken.drain (h : Taken taken b b') :
    Taken (taken ++ b'.serial.sent.toList) b { b' with serial := b'.serial.drain } := by
  cases h with
  | intro ready hs => exact .intro ready (hs.trans (List.append_nil _).symm)

/-- Somebody acknowledges a frame. -/
theorem Taken.clearFrameReady (h : Taken taken b b') :
    Taken taken b { b' with video := b'.video.clearFrameReady } := by
  cases h with
  | intro ready hs => exact .intro false hs

/-- What has left is what was taken and what is left. -/
theorem Taken.sent (h : Taken taken b b') :
    b.serial.sent.toList = taken ++ b'.serial.sent.toList := by
  cases h with
  | intro ready hs => exact hs

end Bus

/-! ### Steps in a row -/

namespace Machine

variable (m : Machine)

theorem run_succ (n : Nat) : run (n + 1) m = (run n m).step.1 := by
  induction n generalizing m with
  | zero => rfl
  | succ n ih => exact ih m.step.1

/-- The bytes that steps in a row send. -/
def transmitted (n : Nat) : List UInt8 :=
  Access.transmitted m.bus.serial.data (runAccesses n m)

/-- They are added to the bytes that have left. -/
theorem run_sent (n : Nat) : (run n m).bus.serial.sent.toList =
    m.bus.serial.sent.toList ++ m.transmitted n := by
  rw [(m.run_performs n).bus_eq]
  exact m.bus.perform_sent _

end Machine

end DotMatrix
