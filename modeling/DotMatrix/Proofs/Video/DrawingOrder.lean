import DotMatrix.Video.Sprite
import Mathlib.Data.Fin.Basic
import Mathlib.Data.List.FinRange
import Mathlib.Data.List.Sort

/-!
# The drawing order of a line's sprites

The entries of a line are placed one after the other, the last in memory first, and each is moved
behind those in front of it as long as it lies to the right of them by at most eight columns. This
relation is neither transitive nor total, so the result need not be sorted by it. But the order of two
entries is settled when the earlier one is placed, and never changes again.

* `Sprite.lineEntries`: the numbers of the entries that a line shows;
* `Sprite.frontToBack`: these entries, the one that is drawn last first;
* `Sprite.InFront`: one entry is drawn after another;
* `inFront_iff`: an entry is behind a later one exactly if it can pass that one and all later ones in
  front of it;
* `le_of_inFront_of_near`: entries that all lie within eight columns are sorted by column.
-/

namespace DotMatrix

namespace Sprite

/-- The entries that a line shows, in memory order. -/
def lineEntries (objects : Memory 160) (tall : Bool) (line : Nat) : List (Fin 40) :=
  ((List.finRange 40).filter fun i => decide ((entry objects i).Covers tall line)).take lineLimit

theorem map_entry_lineEntries (objects : Memory 160) (tall : Bool) (line : Nat) :
    (lineEntries objects tall line).map (entry objects) = onLine objects tall line := by
  rw [lineEntries, onLine, all, List.map_take, List.filter_map]
  rfl

theorem lineEntries_increasing (objects : Memory 160) (tall : Bool) (line : Nat) :
    (lineEntries objects tall line).Pairwise (· < ·) :=
  (List.pairwise_lt_finRange 40).sublist ((List.take_sublist _ _).trans List.filter_sublist)

/-- Does entry `i` move behind entry `j`, which is just behind it? -/
def passesEntry (objects : Memory 160) (i j : Fin 40) : Bool :=
  (entry objects i).passes (entry objects j)

/-- Entries from front to back: the one that is drawn last comes first. -/
def frontToBack (objects : Memory 160) (l : List (Fin 40)) : List (Fin 40) :=
  l.insertionSort fun i j => passesEntry objects i j = false

/-- Entry `i` is drawn after entry `j`. -/
def InFront (objects : Memory 160) (l : List (Fin 40)) (i j : Fin 40) : Prop :=
  (frontToBack objects l).idxOf i < (frontToBack objects l).idxOf j

instance (objects : Memory 160) (l : List (Fin 40)) (i j : Fin 40) :
    Decidable (InFront objects l i j) := inferInstanceAs (Decidable (_ < _))

variable {objects : Memory 160} {l : List (Fin 40)} {i j k : Fin 40}

theorem foldr_place_map_entry (objects : Memory 160) (l : List (Fin 40)) :
    (l.map (entry objects)).foldr place [] = (frontToBack objects l).map (entry objects) := by
  have hplace : ∀ (s : Sprite) (rest : List Sprite),
      s.place rest = rest.orderedInsert (fun s p => s.passes p = false) s := by
    intro s rest
    induction rest with
    | nil => rfl
    | cons p rest ih =>
      rw [place, List.orderedInsert_cons, ih]
      cases s.passes p <;> rfl
  have hsort : (frontToBack objects l).map (entry objects) =
      (l.map (entry objects)).insertionSort fun s p => s.passes p = false :=
    List.map_insertionSort _ _ (entry objects) l fun i _ j _ => Iff.rfl
  rw [hsort]
  exact congrArg (fun f => (l.map (entry objects)).foldr f []) (funext₂ hplace)

/-- The sprites of the line are the entries from back to front. -/
theorem drawOrder_onLine (objects : Memory 160) (tall : Bool) (line : Nat) :
    drawOrder (onLine objects tall line) =
      ((frontToBack objects (lineEntries objects tall line)).map (entry objects)).reverse := by
  rw [← map_entry_lineEntries, drawOrder, foldr_place_map_entry]

theorem mem_frontToBack : i ∈ frontToBack objects l ↔ i ∈ l := List.mem_insertionSort _

/-! ### The order of two entries -/

/-- A new entry at the front passes what it can. -/
theorem frontToBack_cons (objects : Memory 160) (i : Fin 40) (l : List (Fin 40)) :
    frontToBack objects (i :: l) =
      (frontToBack objects l).takeWhile (passesEntry objects i) ++
        i :: (frontToBack objects l).dropWhile (passesEntry objects i) := by
  have hpasses : (fun j => decide ¬passesEntry objects i j = false) = passesEntry objects i := by
    funext j
    cases passesEntry objects i j <;> rfl
  rw [frontToBack, List.insertionSort_cons, List.orderedInsert_eq_take_drop, hpasses]
  rfl

section Places

variable {α : Type} [DecidableEq α] {front back : List α} {a x y : α}

/-- Putting an element between others leaves the order of those. -/
theorem idxOf_lt_idxOf_iff_of_ne (hx : x ≠ a) (hy : y ≠ a) :
    (front ++ a :: back).idxOf x < (front ++ a :: back).idxOf y ↔
      (front ++ back).idxOf x < (front ++ back).idxOf y := by
  simp only [List.idxOf_append, List.idxOf_cons_ne _ hx.symm, List.idxOf_cons_ne _ hy.symm]
  by_cases hx' : x ∈ front <;> by_cases hy' : y ∈ front
  · simp only [hx', hy', if_true]
  · have hlt := List.idxOf_lt_length_of_mem hx'
    simp only [hx', hy', if_true, if_false]
    omega
  · have hlt := List.idxOf_lt_length_of_mem hy'
    simp only [hx', hy', if_true, if_false]
    omega
  · simp only [hx', hy', if_false]
    omega

/-- It is behind those that stand in front of its place. -/
theorem idxOf_lt_idxOf_self_iff (ha : a ∉ front) (hx : x ≠ a) :
    (front ++ a :: back).idxOf x < (front ++ a :: back).idxOf a ↔ x ∈ front := by
  simp only [List.idxOf_append, ha, if_false, List.idxOf_cons_self, List.idxOf_cons_ne _ hx.symm]
  by_cases hx' : x ∈ front
  · have hlt := List.idxOf_lt_length_of_mem hx'
    simp only [hx', if_true, iff_true]
    omega
  · simp only [hx', if_false, iff_false]
    omega

theorem mem_takeWhile_iff {p : α → Bool} {l : List α} (hx : x ∈ l) :
    x ∈ l.takeWhile p ↔ ∀ y ∈ l, l.idxOf y ≤ l.idxOf x → p y = true := by
  induction l with
  | nil => cases hx
  | cons z l ih =>
    by_cases hz : p z = true
    swap
    · rw [List.takeWhile_cons_of_neg hz]
      refine iff_of_false List.not_mem_nil fun h => hz (h z List.mem_cons_self ?_)
      rw [List.idxOf_cons_self]
      exact Nat.zero_le _
    rw [List.takeWhile_cons_of_pos hz, List.mem_cons, List.forall_mem_cons]
    by_cases hxz : x = z
    · subst hxz
      refine iff_of_true (.inl rfl) ⟨fun _ => hz, fun y _ hle => ?_⟩
      by_cases hy : y = x
      · rw [hy]
        exact hz
      · rw [List.idxOf_cons_self, List.idxOf_cons_ne _ (Ne.symm hy)] at hle
        omega
    · rw [or_iff_right hxz, ih (List.mem_of_ne_of_mem hxz hx)]
      refine ⟨fun h => ⟨fun _ => hz, fun y hy hle => ?_⟩, fun h y hy hle => h.2 y hy ?_⟩
      · by_cases hyz : y = z
        · rw [hyz]
          exact hz
        · rw [List.idxOf_cons_ne _ (Ne.symm hyz), List.idxOf_cons_ne _ (Ne.symm hxz)] at hle
          exact h y hy (Nat.le_of_succ_le_succ hle)
      · by_cases hyz : y = z
        · rw [hyz, List.idxOf_cons_self]
          exact Nat.zero_le _
        · rw [List.idxOf_cons_ne _ (Ne.symm hyz), List.idxOf_cons_ne _ (Ne.symm hxz)]
          exact Nat.succ_le_succ hle

end Places

theorem inFront_cons_of_ne (hi : i ≠ k) (hj : j ≠ k) :
    InFront objects (k :: l) i j ↔ InFront objects l i j := by
  unfold InFront
  rw [frontToBack_cons, idxOf_lt_idxOf_iff_of_ne hi hj, List.takeWhile_append_dropWhile]

theorem inFront_cons_self (hk : k ∉ l) (hj : j ∈ l) :
    InFront objects (k :: l) j k ↔
      ∀ p ∈ l, p = j ∨ InFront objects l p j → passesEntry objects k p = true := by
  have hne : j ≠ k := fun h => hk (h ▸ hj)
  have hnot : k ∉ (frontToBack objects l).takeWhile (passesEntry objects k) := fun h =>
    hk (mem_frontToBack.1 (List.takeWhile_subset _ h))
  have hle : ∀ p ∈ l, (frontToBack objects l).idxOf p ≤ (frontToBack objects l).idxOf j ↔
      p = j ∨ InFront objects l p j := fun p hp => by
    rw [Nat.le_iff_lt_or_eq, or_comm, List.idxOf_inj (mem_frontToBack.2 hp)]
    rfl
  unfold InFront
  rw [frontToBack_cons, idxOf_lt_idxOf_self_iff hnot hne, mem_takeWhile_iff (mem_frontToBack.2 hj)]
  simp only [mem_frontToBack]
  exact forall₂_congr fun p hp => imp_congr_left (hle p hp)

/-- **Two entries.** The earlier one is behind the later one exactly if it can pass the later one and
every entry after itself that is in front of that one. -/
theorem inFront_iff (hl : l.Pairwise (· < ·)) (hi : i ∈ l) (hj : j ∈ l) (hij : i < j) :
    InFront objects l j i ↔
      ∀ p ∈ l, i < p → p = j ∨ InFront objects l p j → passesEntry objects i p = true := by
  -- The order of two entries is settled when the earlier one is placed, and stays as it is.
  induction l with
  | nil => cases hi
  | cons k l ih =>
    obtain ⟨hk, hrest⟩ := List.pairwise_cons.1 hl
    have hkl : k ∉ l := fun h => lt_irrefl k (hk k h)
    have hskip : ∀ {p q : Fin 40}, k < p → k < q →
        (InFront objects (k :: l) p q ↔ InFront objects l p q) := fun hp hq =>
      inFront_cons_of_ne (ne_of_gt hp) (ne_of_gt hq)
    rcases List.mem_cons.1 hi with rfl | hi'
    · have hj' : j ∈ l := List.mem_of_ne_of_mem (ne_of_gt hij) hj
      rw [inFront_cons_self hkl hj', List.forall_mem_cons]
      refine ⟨fun h => ⟨fun hlt => absurd hlt (lt_irrefl i), fun p hp hlt hfront => ?_⟩,
        fun h p hp hfront => ?_⟩
      · exact h p hp (hfront.imp_right (hskip hlt hij).1)
      · exact h.2 p hp (hk p hp) (hfront.imp_right (hskip (hk p hp) hij).2)
    · have hki := hk i hi'
      have hkj := hki.trans hij
      have hj' : j ∈ l := List.mem_of_ne_of_mem (ne_of_gt hkj) hj
      rw [hskip hkj hki, ih hrest hi' hj', List.forall_mem_cons]
      refine ⟨fun h => ⟨fun hlt => absurd hlt (lt_asymm hki), fun p hp hlt hfront => ?_⟩,
        fun h p hp hlt hfront => ?_⟩
      · exact h p hp hlt (hfront.imp_right (hskip (hk p hp) hkj).1)
      · exact h.2 p hp hlt (hfront.imp_right (hskip (hk p hp) hkj).2)

theorem inFront_asymm (h : InFront objects l i j) : ¬InFront objects l j i := Nat.lt_asymm h

theorem inFront_or (hi : i ∈ l) (hne : i ≠ j) : InFront objects l i j ∨ InFront objects l j i :=
  Nat.lt_or_gt_of_ne fun h => hne ((List.idxOf_inj (mem_frontToBack.2 hi)).1 h)

/-- The first entry with a property is in front of all others that have it. -/
theorem inFront_of_find? {p : Fin 40 → Bool} {t : Fin 40}
    (h : (frontToBack objects l).find? p = some t) (hp : p i = true) (hne : i ≠ t) : InFront objects l t i := by
  obtain ⟨-, front, back, hsplit, hfront⟩ := List.find?_eq_some_iff_append.1 h
  have hnot : ∀ k, p k = true → k ∉ front := fun k hk hmem => by
    have hno := hfront k hmem
    rw [hk] at hno
    cases hno
  have ht : t ∉ front := hnot t (List.find?_some h)
  unfold InFront
  rw [hsplit, List.idxOf_append, List.idxOf_append, if_neg ht, if_neg (hnot i hp),
    List.idxOf_cons_self, List.idxOf_cons_ne _ hne.symm]
  omega

/-- If all entries lie within eight columns of each other, they are sorted by column. -/
theorem le_of_inFront_of_near
    (hnear : ∀ i ∈ l, ∀ j ∈ l, (entry objects i).x.toNat ≤ (entry objects j).x.toNat + 8)
    (hi : i ∈ l) (hj : j ∈ l) (h : InFront objects l i j) :
    (entry objects i).x.toNat ≤ (entry objects j).x.toNat := by
  let key (i : Fin 40) : Nat := (entry objects i).x.toNat
  have hpasses : ∀ i ∈ l, ∀ j ∈ l, passesEntry objects i j = false ↔ key i ≤ key j := by
    intro i hi j hj
    have hle : (entry objects i).x.toNat ≤ (entry objects j).x.toNat + 8 := hnear i hi j hj
    rw [← Bool.not_eq_true, passesEntry, passes_iff, and_iff_left hle, UInt8.lt_iff_toNat_lt]
    exact Nat.not_lt
  have hsort : frontToBack objects l = l.insertionSort fun i j => key i ≤ key j := by
    have hmap := List.map_insertionSort (fun i j => passesEntry objects i j = false)
      (fun i j => key i ≤ key j) id l hpasses
    rwa [List.map_id, List.map_id] at hmap
  have hsorted : (frontToBack objects l).Pairwise fun i j => key i ≤ key j := by
    rw [hsort]
    exact List.pairwise_insertionSort _ l
  have hi' : i ∈ frontToBack objects l := mem_frontToBack.2 hi
  have hj' : j ∈ frontToBack objects l := mem_frontToBack.2 hj
  have hle := List.pairwise_iff_getElem.1 hsorted _ _ (List.idxOf_lt_length_of_mem hi')
    (List.idxOf_lt_length_of_mem hj') h
  rwa [List.getElem_idxOf, List.getElem_idxOf] at hle

end Sprite

end DotMatrix
