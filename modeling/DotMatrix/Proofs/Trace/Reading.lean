import DotMatrix.Trace.Line

/-!
# Reading trace lines

A trace line loses nothing: whoever knows its layout can tell the registers and the four bytes from
it. So different states have different lines.

* `Hex.value?_digit`: digits are read back;
* `Reading`: what reads something off the front of a line, and leaves the rest;
* `state`: the whole line;
* `read?_line`: a trace line is read back;
* `line_eq_iff`: so it stands for one state.
-/

namespace DotMatrix

theorem Hex.value?_digit {n : Nat} (h : n < 16) : value? (digit n) = some n := by
  have hall : ∀ n ∈ List.range 16, value? (digit n) = some n := by decide
  exact hall n (List.mem_range.2 h)

namespace Trace

/-- It reads something off the front of a text, and leaves the rest. -/
abbrev Reading := StateT (List Char) Option

namespace Reading

/-- What is left behind a label. -/
def behind? : (label text : List Char) → Option (List Char)
  | [], text => some text
  | l :: label, c :: text => if l = c then behind? label text else none
  | _ :: _, [] => none

/-- A label. -/
def label (text : String) : Reading Unit := fun cs => (behind? text.toList cs).map ((), ·)

/-- A byte in two digits. -/
def byte : Reading UInt8
  | x :: y :: rest => do
    let high ← Hex.value? x
    let low ← Hex.value? y
    some (UInt8.ofNat (16 * high + low), rest)
  | _ => none

/-- A word in four digits. -/
def word : Reading UInt16
  | x :: y :: z :: w :: rest => do
    let n3 ← Hex.value? x
    let n2 ← Hex.value? y
    let n1 ← Hex.value? z
    let n0 ← Hex.value? w
    some (UInt16.ofNat (4096 * n3 + 256 * n2 + 16 * n1 + n0), rest)
  | _ => none

/-- A byte behind a label. -/
def labelledByte (text : String) : Reading UInt8 := do
  label text
  byte

/-- A word behind a label. -/
def labelledWord (text : String) : Reading UInt16 := do
  label text
  word

theorem behind?_append (label rest : List Char) : behind? label (label ++ rest) = some rest := by
  induction label with
  | nil => rfl
  | cons l label ih => exact (if_pos rfl).trans ih

theorem label_run (text : String) (rest : List Char) :
    (label text).run (text.toList ++ rest) = some ((), rest) := by
  show (behind? text.toList (text.toList ++ rest)).map ((), ·) = _
  rw [behind?_append]
  rfl

theorem byte_run (b : UInt8) (rest : List Char) :
    byte.run (Hex.byteDigits b ++ rest) = some (b, rest) := by
  have hlt := b.toNat_lt
  have hhigh : Hex.value? (Hex.digit (b.toNat / 16)) = some (b.toNat / 16) :=
    Hex.value?_digit (by omega)
  have hlow : Hex.value? (Hex.digit (b.toNat % 16)) = some (b.toNat % 16) :=
    Hex.value?_digit (by omega)
  have hsum : 16 * (b.toNat / 16) + b.toNat % 16 = b.toNat := by omega
  show byte (Hex.digit (b.toNat / 16) :: Hex.digit (b.toNat % 16) :: rest) = _
  unfold byte
  dsimp only
  rw [hhigh, hlow]
  show some (UInt8.ofNat (16 * (b.toNat / 16) + b.toNat % 16), rest) = _
  rw [hsum, UInt8.ofNat_toNat]

theorem word_run (w : UInt16) (rest : List Char) :
    word.run (Hex.wordDigits w ++ rest) = some (w, rest) := by
  have hlt := w.toNat_lt
  have h3 : Hex.value? (Hex.digit (w.toNat / 4096)) = some (w.toNat / 4096) :=
    Hex.value?_digit (by omega)
  have h2 : Hex.value? (Hex.digit (w.toNat / 256 % 16)) = some (w.toNat / 256 % 16) :=
    Hex.value?_digit (by omega)
  have h1 : Hex.value? (Hex.digit (w.toNat / 16 % 16)) = some (w.toNat / 16 % 16) :=
    Hex.value?_digit (by omega)
  have h0 : Hex.value? (Hex.digit (w.toNat % 16)) = some (w.toNat % 16) :=
    Hex.value?_digit (by omega)
  have hsum : 4096 * (w.toNat / 4096) + 256 * (w.toNat / 256 % 16) + 16 * (w.toNat / 16 % 16) +
      w.toNat % 16 = w.toNat := by omega
  show word (Hex.digit (w.toNat / 4096) :: Hex.digit (w.toNat / 256 % 16) ::
    Hex.digit (w.toNat / 16 % 16) :: Hex.digit (w.toNat % 16) :: rest) = _
  unfold word
  dsimp only
  rw [h3, h2, h1, h0]
  show some (UInt16.ofNat (4096 * (w.toNat / 4096) + 256 * (w.toNat / 256 % 16) +
    16 * (w.toNat / 16 % 16) + w.toNat % 16), rest) = _
  rw [hsum, UInt16.ofNat_toNat]

/-- Reading a byte behind its label, and then something else. -/
theorem labelledByte_run {α : Type} (text : String) (b : UInt8) (rest : List Char)
    (next : UInt8 → Reading α) :
    (labelledByte text >>= next).run (text.toList ++ (Hex.byteDigits b ++ rest)) =
      (next b).run rest := by
  unfold labelledByte
  rw [StateT.run_bind, StateT.run_bind, label_run]
  show (byte.run (Hex.byteDigits b ++ rest)).bind (fun p => (next p.1).run p.2) = _
  rw [byte_run, Option.bind_some]

/-- Reading a word behind its label, and then something else. -/
theorem labelledWord_run {α : Type} (text : String) (w : UInt16) (rest : List Char)
    (next : UInt16 → Reading α) :
    (labelledWord text >>= next).run (text.toList ++ (Hex.wordDigits w ++ rest)) =
      (next w).run rest := by
  unfold labelledWord
  rw [StateT.run_bind, StateT.run_bind, label_run]
  show (word.run (Hex.wordDigits w ++ rest)).bind (fun p => (next p.1).run p.2) = _
  rw [word_run, Option.bind_some]

/-- The state that a trace line describes. -/
def state : Reading (Registers × UInt8 × UInt8 × UInt8 × UInt8) := do
  let a ← labelledByte "A:"
  let f ← labelledByte " F:"
  let b ← labelledByte " B:"
  let c ← labelledByte " C:"
  let d ← labelledByte " D:"
  let e ← labelledByte " E:"
  let h ← labelledByte " H:"
  let l ← labelledByte " L:"
  let sp ← labelledWord " SP:"
  let pc ← labelledWord " PC:"
  let b0 ← labelledByte " PCMEM:"
  let b1 ← labelledByte ","
  let b2 ← labelledByte ","
  let b3 ← labelledByte ","
  pure ({ a, flags := .ofByte f, b, c, d, e, h, l, sp, pc }, b0, b1, b2, b3)

/-- The layout of a trace line. -/
theorem toList_line (r : Registers) (b0 b1 b2 b3 : UInt8) : (line r b0 b1 b2 b3).toList =
    "A:".toList ++ (Hex.byteDigits r.a ++ (" F:".toList ++ (Hex.byteDigits r.flags.toByte ++
      (" B:".toList ++ (Hex.byteDigits r.b ++ (" C:".toList ++ (Hex.byteDigits r.c ++
      (" D:".toList ++ (Hex.byteDigits r.d ++ (" E:".toList ++ (Hex.byteDigits r.e ++
      (" H:".toList ++ (Hex.byteDigits r.h ++ (" L:".toList ++ (Hex.byteDigits r.l ++
      (" SP:".toList ++ (Hex.wordDigits r.sp ++ (" PC:".toList ++ (Hex.wordDigits r.pc ++
      (" PCMEM:".toList ++ (Hex.byteDigits b0 ++ (",".toList ++ (Hex.byteDigits b1 ++
      (",".toList ++ (Hex.byteDigits b2 ++ (",".toList ++ (Hex.byteDigits b3 ++
      []))))))))))))))))))))))))))) := by
  unfold line Hex.byte Hex.word
  simp only [String.toList_append, String.toList_ofList, toString, List.append_assoc,
    List.append_nil]
  rfl

theorem state_run (r : Registers) (b0 b1 b2 b3 : UInt8) :
    state.run (line r b0 b1 b2 b3).toList = some ((r, b0, b1, b2, b3), []) := by
  unfold state
  rw [toList_line]
  -- Each field takes its label and its digits off the front: eight bytes, two words, four bytes.
  iterate 8 rw [labelledByte_run]
  iterate 2 rw [labelledWord_run]
  iterate 4 rw [labelledByte_run]
  rw [Flags.ofByte_toByte]
  rfl

end Reading

/-- The registers and the four bytes that a trace line describes, if it is one. -/
def read? (text : String) : Option (Registers × UInt8 × UInt8 × UInt8 × UInt8) :=
  match Reading.state.run text.toList with
  | some (x, []) => some x
  | _ => none

/-- A trace line is read back. -/
theorem read?_line (r : Registers) (b0 b1 b2 b3 : UInt8) :
    read? (line r b0 b1 b2 b3) = some (r, b0, b1, b2, b3) := by
  unfold read?
  rw [Reading.state_run]

/-- Different states have different lines. -/
theorem line_eq_iff {r r' : Registers} {b0 b1 b2 b3 b0' b1' b2' b3' : UInt8} :
    line r b0 b1 b2 b3 = line r' b0' b1' b2' b3' ↔
      r = r' ∧ b0 = b0' ∧ b1 = b1' ∧ b2 = b2' ∧ b3 = b3' := by
  constructor
  · intro h
    have hread := congrArg read? h
    rw [read?_line, read?_line] at hread
    simpa using hread
  · rintro ⟨rfl, rfl, rfl, rfl, rfl⟩
    rfl

end Trace

end DotMatrix
