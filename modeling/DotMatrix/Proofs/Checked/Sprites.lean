import DotMatrix.Proofs.Checked.Arithmetic
import DotMatrix.Video.Clock

/-!
# The object scan, checked

The scan goes through the forty entries of object memory, latches up to ten sprites in ten places
and sorts the places in use by moving sprites forward, one exchange at a time.

* `Sprite.scan?`, `Sprite.sort?`: the two loops, with every index and every sum checked;
* `Video.scanObjects?_eq`: they always give a result, the one that `Video.scanObjects` describes
  as a filtered and sorted list.
-/

namespace DotMatrix

namespace Sprite

/-! ### Latching -/

/-- Does a sprite at this vertical position have a row on the line? -/
def covers? (tall : Bool) (line : Nat) (y : UInt8) : Option Bool := do
  let top ← Checked.signed ((y.toNat : Int) - 16)
  if top ≤ line then
    let bottom ← Checked.signed (top + height tall)
    some (decide ((line : Int) < bottom))
  else some false

/-- Look at one entry. The scan is over when the ten places are taken. -/
def visit? (objects : Memory 160) (tall : Bool) (line : Nat) (latched : List Sprite)
    (i : Fin 40) : Option (List Sprite) :=
  if lineLimit ≤ latched.length then some latched
  else do
    let base ← Checked.mul 64 i.val 4
    let y ← objects.get? base
    if ← covers? tall line y then
      let x ← objects.get? (← Checked.add 64 base 1)
      let tile ← objects.get? (← Checked.add 64 base 2)
      let attributes ← objects.get? (← Checked.add 64 base 3)
      Checked.require (latched.length < lineLimit)
      some (latched ++ [⟨x, y, tile, attributes⟩])
    else some latched

/-- The sprites of a line in memory order. -/
def scan? (objects : Memory 160) (tall : Bool) (line : Nat) : Option (List Sprite) :=
  (List.finRange 40).foldlM (visit? objects tall line) []

theorem covers?_eq (s : Sprite) (tall : Bool) (line : Nat) :
    covers? tall line s.y = some (decide (s.Covers tall line)) := by
  have hy := s.y.toNat_lt
  have hh := height_le tall
  unfold covers?
  rw [Checked.signed_eq (by omega) (by omega)]
  simp only [Option.bind_eq_bind, Option.bind_some]
  split
  · rw [Checked.signed_eq (by omega) (by omega)]
    refine congrArg some (decide_eq_decide.2 ?_)
    unfold Covers
    omega
  · refine congrArg some (decide_eq_false ?_).symm
    unfold Covers
    omega

/-- What looking at one entry comes to. -/
def latch (tall : Bool) (line : Nat) (latched : List Sprite) (s : Sprite) : List Sprite :=
  if lineLimit ≤ latched.length then latched
  else if s.Covers tall line then latched ++ [s] else latched

theorem visit?_eq (objects : Memory 160) (tall : Bool) (line : Nat)
    (latched : List Sprite) (i : Fin 40) :
    visit? objects tall line latched i = some (latch tall line latched (entry objects i)) := by
  have hi := i.isLt
  unfold visit? latch
  split
  · rfl
  · have hy : objects.get? (i.val * 4) = some (entry objects i).y := by
      rw [Memory.get?_eq _ (by omega)]
      simp only [entry, Nat.mul_comm]
    rw [Checked.mul_eq (by omega)]
    simp only [Option.bind_eq_bind, Option.bind_some, hy, covers?_eq, decide_eq_true_eq]
    split
    · have hn : latched.length < lineLimit := by omega
      rw [Checked.add_eq (by omega), Checked.add_eq (by omega), Checked.add_eq (by omega)]
      simp only [Option.bind_some]
      rw [Memory.get?_eq _ (by omega), Memory.get?_eq _ (by omega), Memory.get?_eq _ (by omega),
        Checked.require_eq hn]
      simp only [Option.bind_some, entry, Nat.mul_comm]
    · rfl

theorem foldl_latch (tall : Bool) (line : Nat) (l : List Sprite) {latched : List Sprite}
    (h : latched.length ≤ lineLimit) :
    l.foldl (latch tall line) latched =
      (latched ++ l.filter fun s => decide (s.Covers tall line)).take lineLimit := by
  induction l generalizing latched with
  | nil => rw [List.foldl_nil, List.filter_nil, List.append_nil, List.take_of_length_le h]
  | cons s l ih =>
    rw [List.foldl_cons, latch]
    split
    · rename_i hfull
      -- With all places taken, neither side looks at the other entries.
      have hlen : latched.length = lineLimit := Nat.le_antisymm h hfull
      rw [ih h, List.take_left' hlen, List.take_left' hlen]
    · rename_i hfree
      split
      · rename_i hc
        rw [ih (by rw [List.length_append]; simp; omega), List.filter_cons_of_pos (by simpa using hc)]
        rw [List.append_assoc, List.singleton_append]
      · rename_i hc
        rw [ih h, List.filter_cons_of_neg (by simpa using hc)]

theorem scan?_eq (objects : Memory 160) (tall : Bool) (line : Nat) :
    scan? objects tall line = some (onLine objects tall line) := by
  unfold scan?
  rw [Checked.foldlM_eq [] fun latched i _ => visit?_eq objects tall line latched i]
  rw [← List.foldl_map, foldl_latch tall line _ (Nat.zero_le _), List.nil_append]
  rfl

/-! ### Sorting -/

/-- Placing a sprite loses none. -/
theorem place_perm (s : Sprite) (l : List Sprite) : (s.place l).Perm (s :: l) := by
  induction l with
  | nil => exact .refl _
  | cons p rest ih =>
    rw [place]
    split
    · exact (ih.cons p).trans (.swap s p rest)
    · exact .refl _

/-- The drawing order holds the sprites that were selected. -/
theorem drawOrder_perm (selected : List Sprite) : (drawOrder selected).Perm selected := by
  refine (List.reverse_perm _).trans ?_
  induction selected with
  | nil => exact .refl _
  | cons s rest ih => exact (place_perm s _).trans (ih.cons s)

/-- Move the sprite in place `j` forward past those that it passes. -/
def sink? (places : List Sprite) : Nat → Option (List Sprite)
  | 0 => some places
  | j + 1 => do
    let s ← places[j + 1]?
    let p ← places[j]?
    if p.x < s.x then
      let reach ← Checked.signed ((p.x.toNat : Int) + 8)
      if (s.x.toNat : Int) ≤ reach then sink? ((places.set (j + 1) p).set j s) j else some places
    else some places

/-- Sort the places in use. -/
def sort? (places : List Sprite) : Option (List Sprite) :=
  (List.range' 1 (places.length - 1)).foldlM sink? places

/-- Exchanging the two sprites between sorted and unsorted ones. -/
theorem exchange (p s : Sprite) (before after : List Sprite) :
    (((p :: before).reverse ++ s :: after).set (before.length + 1) p).set before.length s =
      before.reverse ++ s :: p :: after := by
  rw [List.reverse_cons, List.append_assoc, List.singleton_append]
  rw [List.set_append_right _ _ (by simp), List.length_reverse, Nat.add_sub_cancel_left]
  rw [List.set_append_right _ _ (by simp), List.length_reverse, Nat.sub_self]
  rfl

/-- A sprite that is moved forward takes its place among the sorted ones. -/
theorem sink?_eq (s : Sprite) (before after : List Sprite) :
    sink? (before.reverse ++ s :: after) before.length =
      some ((s.place before).reverse ++ after) := by
  -- The sprite is in the place that counts the sorted ones before it, and moves on by one place for
  -- every sorted one that it passes.
  induction before generalizing after with
  | nil => rfl
  | cons p before ih =>
    have hs : ((p :: before).reverse ++ s :: after)[before.length + 1]? = some s := by
      simp
    have hp : ((p :: before).reverse ++ s :: after)[before.length]? = some p := by
      simp
    have hx := p.x.toNat_lt
    rw [List.length_cons, sink?, hs, hp]
    simp only [Option.bind_eq_bind, Option.bind_some]
    rw [Checked.signed_eq (by omega) (by omega)]
    simp only [Option.bind_some]
    have hreach : (s.x.toNat : Int) ≤ (p.x.toNat : Int) + 8 ↔ s.x.toNat ≤ p.x.toNat + 8 := by
      omega
    cases hpass : s.passes p with
    | true =>
      obtain ⟨hlt, hle⟩ : p.x < s.x ∧ s.x.toNat ≤ p.x.toNat + 8 := by simpa [passes] using hpass
      rw [if_pos hlt, if_pos (hreach.2 hle), exchange, ih, place, if_pos hpass, List.reverse_cons,
        List.append_assoc, List.singleton_append]
    | false =>
      have hstay : place s (p :: before) = s :: p :: before := by simp [place, hpass]
      rw [hstay, List.reverse_cons (a := s), List.append_assoc, List.singleton_append]
      split
      · rename_i hlt
        have hnot : ¬s.x.toNat ≤ p.x.toNat + 8 := by simpa [passes, hlt] using hpass
        rw [if_neg fun h => hnot (hreach.1 h)]
      · rfl

/-- The loop from a place on, when the places before it are sorted. -/
theorem sortFrom_eq (rest before : List Sprite) :
    (List.range' before.length rest.length).foldlM sink? (before.reverse ++ rest) =
      some (rest.foldl (fun sorted s => s.place sorted) before).reverse := by
  induction rest generalizing before with
  | nil => rw [List.append_nil]; rfl
  | cons s rest ih =>
    have hlen : (s.place before).length = before.length + 1 := (place_perm s before).length_eq
    rw [List.length_cons, List.range'_succ, List.foldlM_cons, sink?_eq]
    rw [← hlen]
    exact ih (s.place before)

theorem sort?_eq (selected : List Sprite) :
    sort? selected.reverse = some (drawOrder selected) := by
  unfold sort? drawOrder
  rw [← List.foldl_reverse]
  cases selected.reverse with
  | nil => rfl
  | cons s rest => exact sortFrom_eq rest [s]

end Sprite

/-! ### The scan -/

/-- Select the sprites of the line. -/
def Video.scanObjects? (v : Video) : Option Video := do
  let selected ← Sprite.scan? v.objects v.spritesTall v.line
  Checked.require (selected.length ≤ Sprite.lineLimit)
  let sprites ← Sprite.sort? selected.reverse
  some { v with tallSprites := v.spritesTall, sprites }

theorem Video.scanObjects?_eq (v : Video) : v.scanObjects? = some v.scanObjects := by
  have hlen : (Sprite.onLine v.objects v.spritesTall v.line).length ≤ Sprite.lineLimit :=
    List.length_take_le _ _
  unfold scanObjects?
  rw [Sprite.scan?_eq]
  simp only [Option.bind_eq_bind, Option.bind_some]
  rw [Checked.require_eq hlen, Sprite.sort?_eq]
  rfl

end DotMatrix
