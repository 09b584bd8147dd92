import DotMatrix.Interrupts
import Mathlib.Data.Nat.Bitwise

/-!
# Requests and their services

A source's request goes up when a device asks for service and down when it is served. Nothing else
moves it, unless the program writes the register itself.

* `Interrupt.number`: the bit of a source, and what it selects in both registers;
* `Event`, `run`: what can happen to the registers, in any order;
* `run_requested_iff`: a request that nobody takes back stays, and a new one appears only if it is
  made;
* `rises`, `Answered`: how often a request goes up, and histories that only serve what was requested;
* `count_acknowledge_le`, `count_acknowledge_eq`: a source is served as often as its request went up,
  but for a request that was up at the start or is still up at the end.
-/

namespace DotMatrix

namespace Byte

theorem bit_or (a b : UInt8) (n : Nat) : bit (a ||| b) n = (bit a n || bit b n) := by
  simp only [bit, UInt8.toNat_or, Nat.testBit_or]

theorem bit_and (a b : UInt8) (n : Nat) : bit (a &&& b) n = (bit a n && bit b n) := by
  simp only [bit, UInt8.toNat_and, Nat.testBit_and]

/-- A byte without any of its lower five bits, taken by themselves, is zero. -/
theorem and_eq_zero_of_bits {b : UInt8} (h : ∀ n < 5, bit b n = false) : b &&& 0x1F = 0 := by
  apply UInt8.toNat_inj.1
  apply Nat.eq_of_testBit_eq
  intro n
  rw [UInt8.toNat_and, Nat.testBit_and]
  show (bit b n && Nat.testBit (2 ^ 5 - 1) n) = Nat.testBit 0 n
  rw [Nat.testBit_two_pow_sub_one, Nat.zero_testBit]
  by_cases hn : n < 5
  · rw [h n hn, Bool.false_and]
  · rw [decide_eq_false hn, Bool.and_false]

end Byte

namespace Interrupt

/-- The number of the source's bit in both registers. -/
def number : Interrupt → Nat
  | .vblank => 0
  | .lcdStatus => 1
  | .timer => 2
  | .serial => 3
  | .joypad => 4

theorem number_lt (s : Interrupt) : s.number < 5 := by
  cases s <;> decide

theorem exists_number {n : Nat} (h : n < 5) : ∃ s : Interrupt, s.number = n := by
  match n, h with
  | 0, _ => exact ⟨.vblank, rfl⟩
  | 1, _ => exact ⟨.lcdStatus, rfl⟩
  | 2, _ => exact ⟨.timer, rfl⟩
  | 3, _ => exact ⟨.serial, rfl⟩
  | 4, _ => exact ⟨.joypad, rfl⟩

theorem number_inj {s t : Interrupt} : s.number = t.number ↔ s = t := by
  cases s <;> cases t <;> decide

theorem bit_mask (s t : Interrupt) : Byte.bit s.mask t.number = decide (t = s) := by
  cases s <;> cases t <;> decide

theorem bit_not_mask (s t : Interrupt) : Byte.bit (~~~s.mask) t.number = decide (t ≠ s) := by
  cases s <;> cases t <;> decide

/-- A source's mask picks its bit out of a byte. -/
theorem and_mask_ne_zero (b : UInt8) (s : Interrupt) :
    (b &&& s.mask != 0) = Byte.bit b s.number := by
  have hmask : s.mask.toNat = 2 ^ s.number := by cases s <;> rfl
  rw [Bool.eq_iff_iff, bne_iff_ne, ne_eq, ← UInt8.toNat_inj, UInt8.toNat_and, hmask,
    Nat.and_two_pow, Byte.bit]
  cases b.toNat.testBit s.number <;> simp

end Interrupt

namespace Interrupts

variable (i : Interrupts)

/-- Is the source's request up? -/
def requested (source : Interrupt) : Bool := Byte.bit i.flags source.number

/-! ### One event -/

/-- What can happen to the registers. -/
inductive Event
  | request (source : Interrupt)
  | acknowledge (source : Interrupt)
  /-- A program writes the requests. -/
  | writeFlags (v : UInt8)
  /-- A program writes the enabled sources. -/
  | writeEnable (v : UInt8)
  deriving DecidableEq, Repr

/-- The registers after an event. -/
def Event.apply (i : Interrupts) : Event → Interrupts
  | request source => i.request source
  | acknowledge source => i.acknowledge source
  | writeFlags v => i.writeFlags v
  | writeEnable v => { i with enable := v }

/-- The registers after events in a row. -/
def run (es : List Event) : Interrupts := es.foldl Event.apply i

@[simp] theorem run_nil : run i [] = i := rfl

@[simp] theorem run_cons (e : Event) (es : List Event) : run i (e :: es) = run (e.apply i) es := rfl

theorem run_append (es fs : List Event) : run i (es ++ fs) = run (run i es) fs := List.foldl_append

@[simp] theorem requested_request (s t : Interrupt) :
    (i.request s).requested t = (i.requested t || decide (t = s)) := by
  rw [requested, request, Byte.bit_or, Interrupt.bit_mask]
  rfl

theorem requested_request_self (s : Interrupt) : (i.request s).requested s = true := by
  rw [requested_request, decide_eq_true rfl, Bool.or_true]

@[simp] theorem requested_requestIf (on : Bool) (s t : Interrupt) :
    (i.requestIf on s).requested t = (i.requested t || (on && decide (t = s))) := by
  cases on with
  | false => exact (Bool.or_false _).symm
  | true => exact i.requested_request s t

@[simp] theorem requested_acknowledge (s t : Interrupt) :
    (i.acknowledge s).requested t = (i.requested t && decide (t ≠ s)) := by
  rw [requested, acknowledge, Byte.bit_and, Interrupt.bit_not_mask]
  rfl

@[simp] theorem requested_enable (s : Interrupt) (v : UInt8) :
    ({ i with enable := v } : Interrupts).requested s = i.requested s := rfl

/-! ### Pending sources -/

theorem pending_bit (s : Interrupt) :
    Byte.bit i.pending s.number = (i.requested s && Byte.bit i.enable s.number) := by
  have hlow : Byte.bit 0x1F s.number = true := by cases s <;> decide
  rw [pending, Byte.bit_and, Byte.bit_and, hlow, Bool.and_true]
  rfl

/-- The source with the lowest of the bits that are requested and enabled. -/
structure Lowest (s : Interrupt) : Prop where
  bit : Byte.bit (i.flags &&& i.enable) s.number = true
  lower (n : Nat) : n < s.number → Byte.bit (i.flags &&& i.enable) n = false

variable {i}

theorem Lowest.unique {s t : Interrupt} (hs : i.Lowest s) (ht : i.Lowest t) : s = t := by
  have hst : ¬s.number < t.number := fun h => Bool.eq_false_iff.1 (ht.lower _ h) hs.bit
  have hts : ¬t.number < s.number := fun h => Bool.eq_false_iff.1 (hs.lower _ h) ht.bit
  exact Interrupt.number_inj.1 (by omega)

theorem Lowest.requested {s : Interrupt} (h : i.Lowest s) : i.requested s = true := by
  have hbit := h.bit
  rw [Byte.bit_and, Bool.and_eq_true] at hbit
  exact hbit.1

variable (i)

/-- **The source that is served first** has the lowest bit. There is one as soon as any source is
pending. -/
theorem highest?_cases : i.pending = 0 ∧ i.highest? = none ∨
    i.pending ≠ 0 ∧ ∃ s, i.highest? = some s ∧ i.Lowest s := by
  have hfive (s : Interrupt) :
      (i.pending &&& s.mask != 0) = Byte.bit (i.flags &&& i.enable) s.number := by
    rw [Interrupt.and_mask_ne_zero, pending_bit, Byte.bit_and]
    rfl
  have hzero (n : Nat) (h : i.pending = 0) (hn : n < 5) :
      Byte.bit (i.flags &&& i.enable) n = false := by
    obtain ⟨s, rfl⟩ := Interrupt.exists_number hn
    rw [← hfive, h]
    cases s <;> rfl
  cases hh : i.highest? with
  | none =>
    left
    refine ⟨Byte.and_eq_zero_of_bits fun n hn => ?_, rfl⟩
    obtain ⟨s, rfl⟩ := Interrupt.exists_number hn
    have hnone := List.find?_eq_none.1 hh s (by cases s <;> decide)
    rw [hfive] at hnone
    exact Bool.eq_false_iff.2 hnone
  | some s =>
    right
    obtain ⟨htest, before, after, hall, hbefore⟩ := List.find?_eq_some_iff_append.1 hh
    rw [hfive] at htest
    refine ⟨fun h => ?_, s, rfl, htest, fun n hn => ?_⟩
    · rw [hzero s.number h s.number_lt] at htest
      cases htest
    · -- A source with a lower number stands before this one in the list.
      obtain ⟨t, rfl⟩ := Interrupt.exists_number (Nat.lt_trans hn s.number_lt)
      have hsorted : Interrupt.all.Pairwise (fun a b => a.number < b.number) := by decide
      have hmem : t ∈ Interrupt.all := by cases t <;> decide
      rw [hall, List.pairwise_append, List.pairwise_cons] at hsorted
      rw [hall, List.mem_append, List.mem_cons] at hmem
      obtain hmem | rfl | hmem := hmem
      · have hfalse := hbefore t hmem
        rwa [hfive, Bool.not_eq_true'] at hfalse
      · exact absurd hn (Nat.lt_irrefl _)
      · exact absurd hn (Nat.lt_asymm (hsorted.2.1.1 t hmem))

/-! ### Events in a row -/

/-- Events among which no program writes the requests, and nobody takes the source's request back:
it is up afterwards just if it was up before or has been made. -/
theorem run_requested_iff {es : List Event} {s : Interrupt} (hw : ∀ v, .writeFlags v ∉ es)
    (ha : .acknowledge s ∉ es) :
    (run i es).requested s = true ↔ i.requested s = true ∨ .request s ∈ es := by
  induction es generalizing i with
  | nil => simp
  | cons e es ih =>
    have hw' : ∀ v, .writeFlags v ∉ es := fun v hv => hw v (List.mem_cons_of_mem e hv)
    have ha' : .acknowledge s ∉ es := fun h => ha (List.mem_cons_of_mem e h)
    rw [run_cons, ih (e.apply i) hw' ha', List.mem_cons, ← or_assoc]
    refine or_congr_left ?_
    cases e with
    | request t => simp [Event.apply]
    | acknowledge t =>
      have hne : s ≠ t := by
        rintro rfl
        exact ha List.mem_cons_self
      simp [Event.apply, hne]
    | writeFlags v => exact absurd List.mem_cons_self (hw v)
    | writeEnable v => simp [Event.apply]

/-- How often the source's request goes up. -/
def rises (s : Interrupt) : Interrupts → List Event → Nat
  | _, [] => 0
  | i, e :: es => (!i.requested s && (e.apply i).requested s).toNat + rises s (e.apply i) es

@[simp] theorem rises_nil (s : Interrupt) : rises s i [] = 0 := rfl

@[simp] theorem rises_cons (s : Interrupt) (e : Event) (es : List Event) :
    rises s i (e :: es) =
      (!i.requested s && (e.apply i).requested s).toNat + rises s (e.apply i) es := rfl

/-- Only requests that are up are served. -/
def Answered : Interrupts → List Event → Prop
  | _, [] => True
  | i, e :: es => (∀ s, e = .acknowledge s → i.requested s = true) ∧ Answered (e.apply i) es

@[simp] theorem answered_nil : Answered i [] := trivial

@[simp] theorem answered_cons (e : Event) (es : List Event) :
    Answered i (e :: es) ↔
      (∀ s, e = .acknowledge s → i.requested s = true) ∧ Answered (e.apply i) es := Iff.rfl

theorem answered_append (es fs : List Event) :
    Answered i (es ++ fs) ↔ Answered i es ∧ Answered (run i es) fs := by
  induction es generalizing i with
  | nil => simp
  | cons e es ih => rw [List.cons_append, answered_cons, answered_cons, ih, run_cons, and_assoc]

/-- Where nothing is served there is nothing to answer. -/
theorem answered_of_not_mem {es : List Event} (h : ∀ s, .acknowledge s ∉ es) : Answered i es := by
  induction es generalizing i with
  | nil => trivial
  | cons e es ih =>
    refine ⟨?_, ih _ fun s hs => h s (List.mem_cons_of_mem e hs)⟩
    rintro s rfl
    exact absurd List.mem_cons_self (h s)

variable {i}

/-- One event: serving a source takes down a request that was up. -/
theorem Answered.count_head_le {e : Event} {es : List Event} (h : Answered i (e :: es))
    (s : Interrupt) :
    [e].count (.acknowledge s) + ((e.apply i).requested s).toNat ≤
      (!i.requested s && (e.apply i).requested s).toNat + (i.requested s).toNat := by
  by_cases he : e = .acknowledge s
  · subst he
    rw [h.1 s rfl]
    simp [Event.apply]
  · rw [List.count_singleton, beq_eq_false_iff_ne.2 he]
    cases i.requested s <;> cases (e.apply i).requested s <;> decide

/-- The same, if the event is no write of a program to the requests. -/
theorem Answered.count_head_eq {e : Event} {es : List Event} (h : Answered i (e :: es))
    (hw : ∀ v, e ≠ .writeFlags v) (s : Interrupt) :
    [e].count (.acknowledge s) + ((e.apply i).requested s).toNat =
      (!i.requested s && (e.apply i).requested s).toNat + (i.requested s).toNat := by
  by_cases he : e = .acknowledge s
  · subst he
    rw [h.1 s rfl]
    simp [Event.apply]
  · -- A request that is up and is not served stays up.
    have hkeep : i.requested s = true → (e.apply i).requested s = true := by
      intro hup
      have hw' : ∀ v, .writeFlags v ∉ [e] := fun v hv => hw v (List.mem_singleton.1 hv).symm
      have ha : .acknowledge s ∉ [e] := fun ha => he (List.mem_singleton.1 ha).symm
      exact (run_requested_iff i hw' ha).2 (.inl hup)
    rw [List.count_singleton, beq_eq_false_iff_ne.2 he]
    cases hup : i.requested s with
    | false => cases (e.apply i).requested s <;> decide
    | true =>
      rw [hkeep hup]
      decide

/-- **A source is served at most as often as its request went up**, and once more if the request was
up at the start. -/
theorem count_acknowledge_le {es : List Event} (h : Answered i es) (s : Interrupt) :
    es.count (.acknowledge s) + ((run i es).requested s).toNat ≤
      rises s i es + (i.requested s).toNat := by
  induction es generalizing i with
  | nil => simp
  | cons e es ih =>
    have hhead := h.count_head_le s
    have htail := ih h.2
    rw [← List.singleton_append, List.count_append, List.singleton_append, run_cons, rises_cons]
    omega

/-- **No request is lost**, as long as no program writes the requests: each time a request goes up,
the source is served or the request is still up. -/
theorem count_acknowledge_eq {es : List Event} (h : Answered i es)
    (hw : ∀ v, .writeFlags v ∉ es) (s : Interrupt) :
    es.count (.acknowledge s) + ((run i es).requested s).toNat =
      rises s i es + (i.requested s).toNat := by
  induction es generalizing i with
  | nil => simp
  | cons e es ih =>
    have hhead := h.count_head_eq (fun v hv => hw v (hv ▸ List.mem_cons_self)) s
    have htail := ih h.2 fun v hv => hw v (List.mem_cons_of_mem e hv)
    rw [← List.singleton_append, List.count_append, List.singleton_append, run_cons, rises_cons]
    omega

end Interrupts

end DotMatrix
