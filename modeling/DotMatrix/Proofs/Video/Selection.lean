import DotMatrix.Proofs.Checked.Sprites
import DotMatrix.Proofs.Video.Compositing
import Mathlib.Data.Multiset.Filter

/-!
# The sprites of a line

The scan latches the first ten entries that cover the line and brings them into drawing order, in
place and one exchange of neighbours at a time. However the sprites lie, the two loops that exchange
them come to an end, and at every moment the places hold the sprites that were latched.

* `Sprite.Latched`: what is known of a latched sprite;
* `Sprite.Sorting`, `Sorting.next?`: the loops between two comparisons, and one comparison;
* `run_perm`: no comparison loses, doubles or alters a sprite;
* `next?_run_eq_none`: after a number of comparisons that depends on the number of sprites only, the
  loops have ended;
* `run_places`: then the sprites are in drawing order;
* `scan_latches_first_ten`: the whole scan.
-/

namespace DotMatrix

namespace Sprite

/-- What the unit latches of an entry: its position across, the line of its first row, its tile and
its attributes. -/
structure Latched where
  x : Int
  top : Int
  tile : UInt8
  attributes : UInt8
  deriving DecidableEq, Repr

/-- Does the span of its rows hold the line? -/
def Latched.OnLine (l : Latched) (tall : Bool) (line : Nat) : Prop :=
  l.top ≤ line ∧ (line : Int) < l.top + height tall

instance (l : Latched) (tall : Bool) (line : Nat) : Decidable (l.OnLine tall line) :=
  inferInstanceAs (Decidable (_ ∧ _))

/-- A sprite as it is latched. -/
def latched (s : Sprite) : Latched := ⟨s.x.toNat, s.top, s.tile, s.attributes⟩

theorem latched_onLine_iff (s : Sprite) (tall : Bool) (line : Nat) :
    s.latched.OnLine tall line ↔ s.Covers tall line := by
  unfold Latched.OnLine Covers
  simp only [latched, top]
  omega

/-- All entries of object memory that cover the line, in memory order. -/
def covering (objects : Memory 160) (tall : Bool) (line : Nat) : List Latched :=
  ((List.finRange 40).map fun i => (entry objects i).latched).filter (·.OnLine tall line)

theorem map_latched_onLine (objects : Memory 160) (tall : Bool) (line : Nat) :
    (onLine objects tall line).map latched = (covering objects tall line).take 10 := by
  have hfilter : covering objects tall line =
      ((all objects).filter fun s => decide (s.Covers tall line)).map latched := by
    simp only [covering, all, ← latched_onLine_iff, List.filter_map, List.map_map]
    rfl
  rw [hfilter, onLine, List.map_take]
  rfl

/-! ### The loops of the sort -/

/-- The two loops between two comparisons. -/
structure Sorting where
  places : List Sprite
  /-- The place that the outer loop has come to. -/
  outer : Nat
  /-- Where the sprite of that place stands by now. -/
  inner : Nat
  inner_le : inner ≤ outer

namespace Sorting

/-- The loops before the first comparison. The first sprite is in order by itself. -/
def start (places : List Sprite) : Sorting := ⟨places, 1, 1, Nat.le_refl 1⟩

/-- The next place of the outer loop, whose sprite has not been moved yet. -/
def advance (l : Sorting) : Sorting := ⟨l.places, l.outer + 1, l.outer + 1, Nat.le_refl _⟩

/-- One comparison: the sprite passes the one before it, or the outer loop goes on to the next. There
is none when the outer loop has gone through all places. -/
def next? (l : Sorting) : Option Sorting :=
  if h : l.outer < l.places.length then
    have hle := l.inner_le
    let s := l.places[l.inner]
    let p := l.places[l.inner - 1]
    if 0 < l.inner ∧ s.passes p then
      some ⟨(l.places.set l.inner p).set (l.inner - 1) s, l.outer, l.inner - 1, by omega⟩
    else some l.advance
  else none

/-- The loops after a number of comparisons, or at their end. -/
def run : Nat → Sorting → Sorting
  | 0, l => l
  | n + 1, l =>
    match l.next? with
    | none => l
    | some l' => run n l'

/-- A bound on the comparisons that are still to come. -/
def toGo (l : Sorting) : Nat := (l.places.length - l.outer) * (l.places.length + 1) + l.inner

variable {l l' : Sorting} {places : List Sprite} {n : Nat}

theorem run_of_none (h : l.next? = none) (n : Nat) : run n l = l := by
  cases n with
  | zero => rfl
  | succ n => rw [run, h]

theorem run_of_some (h : l.next? = some l') (n : Nat) : run (n + 1) l = run n l' := by
  rw [run, h]

theorem next?_eq_none_iff : l.next? = none ↔ l.places.length ≤ l.outer := by
  unfold next?
  split
  · rename_i hlt
    dsimp only
    split <;> exact iff_of_false nofun (Nat.not_le.2 hlt)
  · rename_i hend
    exact iff_of_true rfl (Nat.not_lt.1 hend)

theorem outer_lt (h : l.next? = some l') : l.outer < l.places.length := by
  refine Nat.not_le.1 fun hend => ?_
  rw [next?_eq_none_iff.2 hend] at h
  cases h

/-- **One comparison** exchanges two neighbours, or it goes on to the next place. -/
theorem next?_cases (h : l.next? = some l') :
    (∃ j p s, l.inner = j + 1 ∧ l.places[j]? = some p ∧ l.places[j + 1]? = some s ∧
        s.passes p = true ∧ l'.places = (l.places.set (j + 1) p).set j s ∧ l'.outer = l.outer ∧
        l'.inner = j) ∨
      l' = l.advance ∧
        (l.inner = 0 ∨ ∃ j p s, l.inner = j + 1 ∧ l.places[j]? = some p ∧
          l.places[j + 1]? = some s ∧ s.passes p = false) := by
  have hlt := outer_lt h
  have hle := l.inner_le
  rw [next?, dif_pos hlt] at h
  dsimp only at h
  obtain h0 | ⟨j, hj⟩ : l.inner = 0 ∨ ∃ j, l.inner = j + 1 := by
    cases l.inner with
    | zero => exact .inl rfl
    | succ j => exact .inr ⟨j, rfl⟩
  · rw [if_neg fun hc => Nat.ne_of_gt hc.1 h0] at h
    exact .inr ⟨(Option.some.inj h).symm, .inl h0⟩
  have hp : l.places[j]? = some l.places[l.inner - 1] := by
    rw [List.getElem?_eq_getElem (by omega)]
    simp only [hj, Nat.add_sub_cancel]
  have hs : l.places[j + 1]? = some l.places[l.inner] := by
    rw [List.getElem?_eq_getElem (by omega)]
    simp only [hj]
  cases hpass : l.places[l.inner].passes l.places[l.inner - 1] with
  | true =>
    rw [if_pos ⟨by omega, hpass⟩] at h
    obtain rfl := Option.some.inj h
    refine .inl ⟨j, _, _, hj, hp, hs, hpass, ?_, rfl, ?_⟩
    · show (l.places.set l.inner _).set (l.inner - 1) _ = _
      simp only [hj, Nat.add_sub_cancel]
    · show l.inner - 1 = j
      omega
  | false =>
    rw [if_neg fun hc => Bool.false_ne_true (hpass.symm.trans hc.2)] at h
    exact .inr ⟨(Option.some.inj h).symm, .inr ⟨j, _, _, hj, hp, hs, hpass⟩⟩

/-- A comparison loses no sprite, and doubles or alters none. -/
theorem next?_perm (h : l.next? = some l') : l'.places.Perm l.places := by
  obtain ⟨j, p, s, -, hp, hs, -, hplaces, -, -⟩ | ⟨rfl, -⟩ := next?_cases h
  · obtain ⟨hj, rfl⟩ := List.getElem?_eq_some_iff.1 hp
    obtain ⟨hj', rfl⟩ := List.getElem?_eq_some_iff.1 hs
    rw [hplaces]
    exact List.set_set_perm hj' hj
  · exact .refl _

/-- At every moment of the loops the places hold the same sprites. -/
theorem run_perm (n : Nat) (l : Sorting) : (run n l).places.Perm l.places := by
  induction n generalizing l with
  | zero => exact .refl _
  | succ n ih =>
    cases h : l.next? with
    | none => rw [run_of_none h]
    | some l' =>
      rw [run_of_some h]
      exact (ih l').trans (next?_perm h)

/-- Every comparison brings the loops nearer to their end. -/
theorem toGo_lt (h : l.next? = some l') : l'.toGo < l.toGo := by
  have hlen := (next?_perm h).length_eq
  have hlt := outer_lt h
  unfold toGo
  rw [hlen]
  obtain ⟨j, p, s, hj, -, -, -, -, houter, hinner⟩ | ⟨rfl, -⟩ := next?_cases h
  · rw [houter, hinner, hj]
    exact Nat.lt_succ_self _
  · -- The outer loop goes on by a place, which is worth more than the inner loop can lose.
    obtain ⟨k, hk⟩ : ∃ k, l.places.length - l.outer = k + 1 :=
      ⟨l.places.length - (l.outer + 1), by omega⟩
    have hk' : l.places.length - (l.outer + 1) = k := by omega
    show (l.places.length - (l.outer + 1)) * _ + (l.outer + 1) < _
    rw [hk, hk', Nat.succ_mul]
    omega

/-- **The loops end**, after at most as many comparisons as `toGo` says. -/
theorem next?_run_eq_none (h : l.toGo ≤ n) : (run n l).next? = none := by
  induction n generalizing l with
  | zero =>
    cases hl : l.next? with
    | none => exact hl
    | some l' => exact absurd (toGo_lt hl) (by omega)
  | succ n ih =>
    cases hl : l.next? with
    | none => rw [run_of_none hl, hl]
    | some l' =>
      rw [run_of_some hl]
      exact ih (Nat.le_of_lt_succ (Nat.lt_of_lt_of_le (toGo_lt hl) h))

/-! ### What the loops come to -/

theorem sink?_of_passes {j : Nat} {p s : Sprite} (hp : places[j]? = some p)
    (hs : places[j + 1]? = some s) (hpass : s.passes p = true) :
    sink? places (j + 1) = sink? ((places.set (j + 1) p).set j s) j := by
  have hx := p.x.toNat_lt
  obtain ⟨hlt, hle⟩ := passes_iff.1 hpass
  rw [sink?, hs, hp]
  simp only [Option.bind_eq_bind, Option.bind_some]
  rw [if_pos hlt, Checked.signed_eq (by omega) (by omega), Option.bind_some, if_pos (by omega)]

theorem sink?_of_not_passes {j : Nat} {p s : Sprite} (hp : places[j]? = some p)
    (hs : places[j + 1]? = some s) (hpass : s.passes p = false) :
    sink? places (j + 1) = some places := by
  have hx := p.x.toNat_lt
  have hnot : p.x < s.x → ¬s.x.toNat ≤ p.x.toNat + 8 := fun hlt hle =>
    Bool.false_ne_true (hpass.symm.trans (passes_iff.2 ⟨hlt, hle⟩))
  rw [sink?, hs, hp]
  simp only [Option.bind_eq_bind, Option.bind_some]
  split
  · rename_i hlt
    have hfar := hnot hlt
    rw [Checked.signed_eq (by omega) (by omega), Option.bind_some, if_neg (by omega)]
  · rfl

/-- What is left to do: the sprite on its way is moved on, and then each of the places that follow. -/
def rest? (l : Sorting) : Option (List Sprite) := do
  let places ← sink? l.places l.inner
  (List.range' (l.outer + 1) (l.places.length - 1 - l.outer)).foldlM sink? places

/-- A comparison leaves the rest to do, or it was the last and there is nothing left. -/
theorem next?_rest? (h : l.next? = some l') :
    l'.next? = none ∧ l.rest? = some l'.places ∨ l'.next? ≠ none ∧ l.rest? = l'.rest? := by
  have hlt := outer_lt h
  have hlen := (next?_perm h).length_eq
  obtain ⟨j, p, s, hj, hp, hs, hpass, hplaces, houter, hinner⟩ | ⟨rfl, hstay⟩ := next?_cases h
  · refine .inr ⟨fun hend => ?_, ?_⟩
    · have hge := next?_eq_none_iff.1 hend
      omega
    · rw [rest?, rest?, hj, sink?_of_passes hp hs hpass, hplaces, houter, hinner]
      simp only [List.length_set]
  · have hsink : sink? l.places l.inner = some l.places := by
      obtain h0 | ⟨j, p, s, hj, hp, hs, hpass⟩ := hstay
      · rw [h0]
        rfl
      · rw [hj, sink?_of_not_passes hp hs hpass]
    have hgo : l.advance.next? = none ↔ l.places.length ≤ l.outer + 1 := next?_eq_none_iff
    rw [rest?, hsink, Option.bind_eq_bind, Option.bind_some]
    by_cases hend : l.places.length ≤ l.outer + 1
    · refine .inl ⟨hgo.2 hend, ?_⟩
      rw [show l.places.length - 1 - l.outer = 0 by omega]
      rfl
    · refine .inr ⟨mt hgo.1 hend, ?_⟩
      rw [show l.places.length - 1 - l.outer = l.places.length - 1 - (l.outer + 1) + 1 by omega,
        List.range'_succ, List.foldlM_cons]
      rfl

/-- When the loops have ended, nothing is left to do. -/
theorem run_places_of_rest? (hlt : l.next? ≠ none) (hrest : l.rest? = some places)
    (h : l.toGo ≤ n) : (run n l).places = places := by
  induction n generalizing l with
  | zero =>
    obtain ⟨l', hl⟩ := Option.ne_none_iff_exists'.1 hlt
    exact absurd (toGo_lt hl) (by omega)
  | succ n ih =>
    obtain ⟨l', hl⟩ := Option.ne_none_iff_exists'.1 hlt
    have hgo : l'.toGo ≤ n := Nat.le_of_lt_succ (Nat.lt_of_lt_of_le (toGo_lt hl) h)
    rw [run_of_some hl]
    obtain ⟨hend, hdone⟩ | ⟨hgoes, hsame⟩ := next?_rest? hl
    · rw [run_of_none hend]
      exact Option.some.inj (hdone.symm.trans hrest)
    · exact ih hgoes (hsame ▸ hrest) hgo

/-- **The sort.** When the loops have ended, the sprites are in drawing order. -/
theorem run_places (selected : List Sprite) (h : (start selected.reverse).toGo ≤ n) :
    (run n (start selected.reverse)).places = drawOrder selected := by
  by_cases hend : (start selected.reverse).next? = none
  · -- With one sprite or none there is nothing to compare.
    have hlen : selected.reverse.length ≤ 1 := next?_eq_none_iff.1 hend
    have hsort := sort?_eq selected
    rw [sort?, show selected.reverse.length - 1 = 0 by omega] at hsort
    rw [run_of_none hend]
    exact Option.some.inj hsort
  · have hlen : 1 < selected.reverse.length :=
      Nat.not_le.1 fun hle => hend (next?_eq_none_iff.2 hle)
    refine run_places_of_rest? hend ?_ h
    rw [← sort?_eq, sort?,
      show selected.reverse.length - 1 = selected.reverse.length - 1 - 1 + 1 by omega,
      List.range'_succ, List.foldlM_cons]
    rfl

/-- Ten sprites are sorted with a hundred comparisons. -/
theorem toGo_start_le (h : places.length ≤ lineLimit) : (start places).toGo ≤ 100 := by
  have hlen : places.length + 1 ≤ 11 := Nat.succ_le_succ h
  have hbefore : places.length - 1 ≤ 9 := Nat.sub_le_sub_right h 1
  calc (start places).toGo = (places.length - 1) * (places.length + 1) + 1 := rfl
    _ ≤ 9 * 11 + 1 := Nat.succ_le_succ (Nat.mul_le_mul hbefore hlen)

end Sorting

end Sprite

/-! ### The scan -/

/-- **The sprites of a line.** For all contents of object memory, on every line and with both heights,
the scan goes through the entries and latches the first ten, in memory order, of those whose span
covers the line. The loops that sort them, beginning with the reverse of this order, have ended after
a hundred comparisons, and after any number of comparisons the places hold the latched sprites, each
as often as it was latched. So the sprites of the line are, in some order, the first ten of those that
cover it, with their position, the line of their first row, their tile and their attributes, and there
are as many of them as cover the line, but ten at most. -/
theorem Video.scan_latches_first_ten (v : Video) :
    let covering := Sprite.covering v.objects v.spritesTall v.line
    ∃ selected, Sprite.scan? v.objects v.spritesTall v.line = some selected ∧
      selected.map Sprite.latched = covering.take 10 ∧
      (∀ n, (Sprite.Sorting.run n (.start selected.reverse)).places.Perm selected) ∧
      (Sprite.Sorting.run 100 (.start selected.reverse)).next? = none ∧
      (Sprite.Sorting.run 100 (.start selected.reverse)).places = v.scanObjects.sprites ∧
      (v.scanObjects.sprites.map Sprite.latched : Multiset Sprite.Latched) = covering.take 10 ∧
      v.scanObjects.sprites.length = min 10 covering.length := by
  intro covering
  have hlatched := Sprite.map_latched_onLine v.objects v.spritesTall v.line
  have hperm := Sprite.drawOrder_perm (Sprite.onLine v.objects v.spritesTall v.line)
  have hgo : (Sprite.Sorting.start (Sprite.onLine v.objects v.spritesTall v.line).reverse).toGo ≤
      100 := by
    refine Sprite.Sorting.toGo_start_le ?_
    rw [List.length_reverse]
    exact List.length_take_le _ _
  refine ⟨_, Sprite.scan?_eq _ _ _, hlatched, fun n => ?_, ?_, ?_, ?_, ?_⟩
  · exact (Sprite.Sorting.run_perm n _).trans (List.reverse_perm _)
  · exact Sprite.Sorting.next?_run_eq_none hgo
  · exact Sprite.Sorting.run_places _ hgo
  · rw [← hlatched]
    exact Multiset.coe_eq_coe.2 (hperm.map _)
  · have hlen := congrArg List.length hlatched
    rw [List.length_map, List.length_take] at hlen
    exact hperm.length_eq.trans hlen

end DotMatrix
