import Mathlib.Logic.Basic
import Mathlib.Logic.ExistsUnique
import Mathlib.Logic.Relation
import DotMatrix.Proofs.Trace.Reading
import DotMatrix.Transcript

/-!
# Reading transcripts

A byte that does not stand for itself is spelled in a transcript: a backslash, an `x` and its two
digits. But a backslash stands for itself, like the other three, so a program that sends these four
bytes leaves the same text behind as one that sends the byte. This is all that a transcript hides.
Who knows that no four bytes in a row spell another can tell from the text what was sent.

* `spelling`: the bytes that spell a byte, if one by one they are printed as themselves;
* `SpellsOut`: a byte of a list is replaced by its spelling; `Mimics`: a list has such a spelling;
* `read`: a text is read from its end. What may be a spelling is taken for one;
* `spellsOut_read`: what was sent is what is read, with some bytes spelled out;
* `text_is_read_back`: which of the lists with one text is read, and which lists these are;
* `spelled_out_alike`: a byte and its spelling have one text.
-/

namespace DotMatrix.Transcript

open Relation (ReflTransGen)

variable {b : UInt8} {x y : List UInt8}

/-! ### Spellings -/

/-- The characters for a byte, as bytes. -/
def spelling (b : UInt8) : List UInt8 := (ofByte b).map Char.toUInt8

theorem ofByte_of_plain (h : isPlain b = true) : ofByte b = [Char.ofNat b.toNat] := if_pos h

theorem ofByte_of_not_plain (h : isPlain b = false) : ofByte b = '\\' :: 'x' :: Hex.byteDigits b :=
  if_neg (by simp [h])

theorem toUInt8_ofNat_toNat (b : UInt8) : (Char.ofNat b.toNat).toUInt8 = b :=
  Byte.forall_of_fin (by decide +kernel) b

theorem spelling_eq_cons (h : isPlain b = false) :
    spelling b = 0x5C :: 0x78 :: (Hex.byteDigits b).map Char.toUInt8 := by
  unfold spelling
  rw [ofByte_of_not_plain h]
  rfl

theorem length_spelling (h : isPlain b = false) : (spelling b).length = 4 := by
  rw [spelling_eq_cons h]
  rfl

/-- The bytes that spell a byte are printed as themselves. -/
theorem flatMap_spelling (b : UInt8) : (spelling b).flatMap ofByte = ofByte b :=
  Byte.forall_of_fin (by decide +kernel) b

theorem digits_of_spelling (b : UInt8) :
    ((Hex.byteDigits b).map Char.toUInt8).map (fun d => Char.ofNat d.toNat) = Hex.byteDigits b :=
  Byte.forall_of_fin (by decide +kernel) b

theorem toUInt8_digit_ne {n : Nat} (h : n < 16) : (Hex.digit n).toUInt8 ≠ 0x5C := by
  have hall : ∀ n ∈ List.range 16, (Hex.digit n).toUInt8 ≠ 0x5C := by decide
  exact hall n (List.mem_range.2 h)

/-- No digit is a backslash. -/
theorem toUInt8_ne_of_mem_byteDigits (b : UInt8) : ∀ c ∈ Hex.byteDigits b, c.toUInt8 ≠ 0x5C := by
  have hlt := b.toNat_lt
  exact List.forall_mem_cons.2 ⟨toUInt8_digit_ne (by omega),
    List.forall_mem_singleton.2 (toUInt8_digit_ne (by omega))⟩

/-- The second list is the first with a byte spelled out that does not stand for itself. -/
def SpellsOut (x y : List UInt8) : Prop :=
  ∃ before b behind, isPlain b = false ∧ x = before ++ b :: behind ∧
    y = before ++ (spelling b ++ behind)

/-- Somewhere in a list, bytes in a row spell a byte that does not stand for itself. -/
def Mimics (x : List UInt8) : Prop := ∃ b, isPlain b = false ∧ spelling b <:+: x

theorem mimics_iff : Mimics x ↔ ∃ z, SpellsOut z x := by
  constructor
  · rintro ⟨b, hb, before, behind, rfl⟩
    exact ⟨before ++ b :: behind, before, b, behind, hb, rfl, List.append_assoc ..⟩
  · rintro ⟨z, before, b, behind, hb, -, rfl⟩
    exact ⟨b, hb, before, behind, List.append_assoc ..⟩

namespace SpellsOut

theorem cons (h : SpellsOut x y) (b : UInt8) : SpellsOut (b :: x) (b :: y) := by
  obtain ⟨before, d, behind, hd, rfl, rfl⟩ := h
  exact ⟨b :: before, d, behind, hd, rfl, rfl⟩

theorem length_lt (h : SpellsOut x y) : x.length < y.length := by
  obtain ⟨before, b, behind, hb, rfl, rfl⟩ := h
  have hlength := length_spelling hb
  simp only [List.length_append, List.length_cons]
  omega

theorem ofBytes_eq (h : SpellsOut x y) : ofBytes x = ofBytes y := by
  obtain ⟨before, b, behind, -, rfl, rfl⟩ := h
  unfold ofBytes
  rw [List.flatMap_append, List.flatMap_append, List.flatMap_append, flatMap_spelling,
    List.flatMap_cons]

end SpellsOut

theorem length_le_of_spellsOut (h : ReflTransGen SpellsOut x y) : x.length ≤ y.length := by
  induction h with
  | refl => exact Nat.le_refl _
  | tail _ hstep ih => exact Nat.le_trans ih (Nat.le_of_lt hstep.length_lt)

theorem ofBytes_eq_of_spellsOut (h : ReflTransGen SpellsOut x y) : ofBytes x = ofBytes y := by
  induction h with
  | refl => rfl
  | tail _ hstep ih => exact ih.trans hstep.ofBytes_eq

/-! ### Reading -/

/-- The byte that some bytes spell. Digits are read in either case, but spelled in one. -/
def spelled? (bytes : List UInt8) : Option UInt8 :=
  let digits := (bytes.drop 2).map fun d => Char.ofNat d.toNat
  ((Trace.Reading.byte.run digits).map Prod.fst).filter fun b => !isPlain b && spelling b == bytes

/-- Bytes with their beginning unspelled, if it spells a byte. -/
def unspell (bytes : List UInt8) : List UInt8 :=
  (spelled? (bytes.take 4)).elim bytes (· :: bytes.drop 4)

/-- Read a character in front of what has been read already. A spelling has no backslash but the one
in front, so its other three characters have been read as themselves. -/
def readOn (c : Char) (behind : List UInt8) : List UInt8 := unspell (c.toUInt8 :: behind)

/-- The bytes that a text is read as. -/
def read (text : String) : List UInt8 := text.toList.foldr readOn []

theorem spelled?_eq_some_iff : spelled? x = some b ↔ isPlain b = false ∧ spelling b = x := by
  unfold spelled?
  simp only [Option.filter_eq_some_iff, Bool.and_eq_true, Bool.not_eq_true', beq_iff_eq]
  refine ⟨fun h => h.2, fun h => ⟨?_, h⟩⟩
  obtain ⟨hb, rfl⟩ := h
  have hdigits : ((spelling b).drop 2).map (fun d => Char.ofNat d.toNat) = Hex.byteDigits b := by
    rw [spelling_eq_cons hb]
    exact digits_of_spelling b
  have hread := Trace.Reading.byte_run b []
  rw [List.append_nil] at hread
  rw [hdigits, hread]
  rfl

theorem unspell_of_some (h : spelled? (x.take 4) = some b) : unspell x = b :: x.drop 4 := by
  unfold unspell
  rw [h]
  rfl

theorem unspell_of_none (h : spelled? (x.take 4) = none) : unspell x = x := by
  unfold unspell
  rw [h]
  rfl

theorem unspell_spelling (hb : isPlain b = false) (behind : List UInt8) :
    unspell (spelling b ++ behind) = b :: behind := by
  have hlength := length_spelling hb
  have htake : (spelling b ++ behind).take 4 = spelling b := List.take_left' hlength
  rw [unspell_of_some (htake ▸ spelled?_eq_some_iff.2 ⟨hb, rfl⟩), List.drop_left' hlength]

/-- Only spellings are changed. -/
theorem unspell_cases (x : List UInt8) : unspell x = x ∨ SpellsOut (unspell x) x := by
  cases h : spelled? (x.take 4) with
  | none => exact .inl (unspell_of_none h)
  | some b =>
    obtain ⟨hb, htake⟩ := spelled?_eq_some_iff.1 h
    refine .inr ⟨[], b, x.drop 4, hb, unspell_of_some h, ?_⟩
    rw [List.nil_append, htake, List.take_append_drop]

theorem unspell_of_ne (h : b ≠ 0x5C) (x : List UInt8) : unspell (b :: x) = b :: x := by
  cases hspelled : spelled? ((b :: x).take 4) with
  | none => exact unspell_of_none hspelled
  | some d =>
    obtain ⟨hd, htake⟩ := spelled?_eq_some_iff.1 hspelled
    rw [spelling_eq_cons hd, List.take_succ_cons] at htake
    exact absurd (List.head_eq_of_cons_eq htake).symm h

theorem foldr_readOn_of_ne {cs : List Char} (h : ∀ c ∈ cs, c.toUInt8 ≠ 0x5C)
    (behind : List UInt8) : cs.foldr readOn behind = cs.map Char.toUInt8 ++ behind := by
  induction cs with
  | nil => rfl
  | cons c cs ih =>
    rw [List.foldr_cons, ih fun d hd => h d (List.mem_cons_of_mem c hd),
      readOn, unspell_of_ne (h c List.mem_cons_self)]
    rfl

/-- The text for a byte that does not stand for itself is read as the byte. -/
theorem foldr_readOn_ofByte (hb : isPlain b = false) (behind : List UInt8) :
    (ofByte b).foldr readOn behind = b :: behind := by
  have hne : ∀ c ∈ 'x' :: Hex.byteDigits b, c.toUInt8 ≠ 0x5C :=
    List.forall_mem_cons.2 ⟨by decide, toUInt8_ne_of_mem_byteDigits b⟩
  rw [ofByte_of_not_plain hb, List.foldr_cons, foldr_readOn_of_ne hne]
  have hbytes : '\\'.toUInt8 :: (('x' :: Hex.byteDigits b).map Char.toUInt8 ++ behind) =
      spelling b ++ behind := by
    rw [spelling_eq_cons hb]
    rfl
  rw [readOn, hbytes, unspell_spelling hb]

theorem read_ofBytes_cons (b : UInt8) (x : List UInt8) :
    read (ofBytes (b :: x)) = (ofByte b).foldr readOn (read (ofBytes x)) := by
  unfold read ofBytes
  rw [String.toList_ofList, String.toList_ofList, List.flatMap_cons, List.foldr_append]

/-- What was sent is what is read, with some bytes spelled out. -/
theorem spellsOut_read (x : List UInt8) : ReflTransGen SpellsOut (read (ofBytes x)) x := by
  induction x with
  | nil => exact .refl
  | cons b x ih =>
    -- A text is read from its end: the byte is read in front of what the others are read as.
    have htail : ReflTransGen SpellsOut (b :: read (ofBytes x)) (b :: x) :=
      ih.lift (b :: ·) fun _ _ h => h.cons b
    rw [read_ofBytes_cons]
    cases hb : isPlain b with
    | false =>
      rw [foldr_readOn_ofByte hb]
      exact htail
    | true =>
      rw [ofByte_of_plain hb, List.foldr_cons, List.foldr_nil, readOn, toUInt8_ofNat_toNat]
      obtain hself | hspells := unspell_cases (b :: read (ofBytes x))
      · rw [hself]
        exact htail
      · exact .head hspells htail

/-! ### What a transcript tells -/

theorem read_ofBytes_eq_iff (x : List UInt8) : read (ofBytes x) = x ↔ ¬ Mimics x := by
  rw [mimics_iff]
  constructor
  · rintro h ⟨z, hz⟩
    -- The shorter list has the same text, and nothing longer than it is read from this text.
    have hle := length_le_of_spellsOut (spellsOut_read z)
    rw [hz.ofBytes_eq, h] at hle
    exact absurd hz.length_lt (Nat.not_lt.2 hle)
  · intro h
    obtain hread | ⟨z, -, hz⟩ := (spellsOut_read x).cases_tail
    · exact hread.symm
    · exact absurd ⟨z, hz⟩ h

theorem ofBytes_eq_iff (x y : List UInt8) : ofBytes x = ofBytes y ↔
    ∃ z, ReflTransGen SpellsOut z x ∧ ReflTransGen SpellsOut z y := by
  constructor
  · intro h
    have hy := spellsOut_read y
    rw [← h] at hy
    exact ⟨read (ofBytes x), spellsOut_read x, hy⟩
  · rintro ⟨z, hx, hy⟩
    exact (ofBytes_eq_of_spellsOut hx).symm.trans (ofBytes_eq_of_spellsOut hy)

instance (x : List UInt8) : Decidable (Mimics x) :=
  decidable_of_iff (read (ofBytes x) ≠ x) ((read_ofBytes_eq_iff x).not.trans not_not)

theorem ofBytes_eq_iff_of_not_mimics (hx : ¬ Mimics x) (hy : ¬ Mimics y) :
    ofBytes x = ofBytes y ↔ x = y := by
  refine ⟨fun h => ?_, congrArg ofBytes⟩
  calc x = read (ofBytes x) := ((read_ofBytes_eq_iff x).2 hx).symm
    _ = read (ofBytes y) := congrArg read h
    _ = y := (read_ofBytes_eq_iff y).2 hy

/-- What is read from a transcript has the same transcript, and mimics nothing. -/
theorem existsUnique_ofBytes_eq (x : List UInt8) : ∃! z, ¬ Mimics z ∧ ofBytes z = ofBytes x := by
  have htext : ofBytes (read (ofBytes x)) = ofBytes x := ofBytes_eq_of_spellsOut (spellsOut_read x)
  have hread : ¬ Mimics (read (ofBytes x)) := (read_ofBytes_eq_iff _).1 (congrArg read htext)
  refine ⟨read (ofBytes x), ⟨hread, htext⟩, ?_⟩
  rintro z ⟨hz, hsame⟩
  exact (ofBytes_eq_iff_of_not_mimics hz hread).1 (hsame.trans htext.symm)

/-- **What a transcript tells.** What was sent is read back from its text if nothing in it mimics
another byte, and only then. So lists that mimic nothing have the same text only if they are the
same, and every text has one of them. Any two lists have the same text if both are one list with
some bytes spelled out, and not otherwise. -/
theorem text_is_read_back (x y : List UInt8) :
    (read (ofBytes x) = x ↔ ¬ Mimics x) ∧
      (¬ Mimics x → ¬ Mimics y → (ofBytes x = ofBytes y ↔ x = y)) ∧
      (∃! z, ¬ Mimics z ∧ ofBytes z = ofBytes x) ∧
      (ofBytes x = ofBytes y ↔ ∃ z, ReflTransGen SpellsOut z x ∧ ReflTransGen SpellsOut z y) :=
  ⟨read_ofBytes_eq_iff x, ofBytes_eq_iff_of_not_mimics, existsUnique_ofBytes_eq x,
    ofBytes_eq_iff x y⟩

/-- One list has a backslash and then a byte that is spelled. The other has a backslash and the
number of a letter, which is no spelling, because a letter stands for itself. -/
theorem text_is_read_back_with_backslashes :
    ¬ Mimics [0x5C, 0x80] ∧ ¬ Mimics [0x5C, 0x78, 0x34, 0x31] ∧
      ofBytes [0x5C, 0x80] ≠ ofBytes [0x5C, 0x78, 0x34, 0x31] ∧
      read (ofBytes [0x5C, 0x80]) = [0x5C, 0x80] := by
  have hx : ¬ Mimics [0x5C, 0x80] := by decide +kernel
  have hy : ¬ Mimics [0x5C, 0x78, 0x34, 0x31] := by decide +kernel
  obtain ⟨hread, hsame, -, -⟩ := text_is_read_back [0x5C, 0x80] [0x5C, 0x78, 0x34, 0x31]
  exact ⟨hx, hy, fun h => absurd ((hsame hx hy).1 h) (by decide), hread.2 hx⟩

/-- A byte and the four bytes that spell it have the same text, so no reading gives back all lists
from their texts. -/
theorem spelled_out_alike :
    ofBytes [0x80] = ofBytes [0x5C, 0x78, 0x38, 0x30] ∧
      (¬ ∀ x y, ofBytes x = ofBytes y → x = y) ∧
      ¬ ∃ decode : String → List UInt8, ∀ x, decode (ofBytes x) = x := by
  have hsame : ofBytes [0x80] = ofBytes [0x5C, 0x78, 0x38, 0x30] :=
    congrArg String.ofList (by decide)
  refine ⟨hsame, fun h => absurd (h _ _ hsame) (by decide), ?_⟩
  rintro ⟨decode, h⟩
  have hdecoded := congrArg decode hsame
  rw [h, h] at hdecoded
  exact absurd hdecoded (by decide)

end DotMatrix.Transcript
