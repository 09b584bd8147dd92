/-!
# Association lists

Pairs of keys and values, in the order in which the keys were first put in. `List.lookup` reads such
a list and `put` changes it. The laws `lookup_put_self` and `lookup_put_of_ne` say that putting in
changes the value of one key and of no other; `put_put` says that the last change of a key counts.
-/

namespace DotMatrix.Association

variable {κ α : Type} [BEq κ]

/-- Change the value of a key, or add the key at the end. -/
def put (key : κ) (v : α) : List (κ × α) → List (κ × α)
  | [] => [(key, v)]
  | (k, old) :: rest => if key == k then (k, v) :: rest else (k, old) :: put key v rest

@[simp] theorem lookup_put_self [LawfulBEq κ] (key : κ) (v : α) (pairs : List (κ × α)) :
    (put key v pairs).lookup key = some v := by
  induction pairs with
  | nil => simp [put]
  | cons p rest ih =>
    obtain ⟨k, old⟩ := p
    by_cases h : key == k
    · rw [put, if_pos h, List.lookup_cons, h]
    · rw [put, if_neg h, List.lookup_cons]
      simp only [h, ih]

/-- Of two values for one key the later counts. -/
@[simp] theorem put_put [LawfulBEq κ] (key : κ) (v w : α) (pairs : List (κ × α)) :
    put key w (put key v pairs) = put key w pairs := by
  induction pairs with
  | nil => simp [put]
  | cons p rest ih =>
    obtain ⟨k, old⟩ := p
    by_cases h : key == k
    · rw [put, if_pos h, put, if_pos h, put, if_pos h]
    · rw [put, if_neg h, put, if_neg h, put, if_neg h, ih]

theorem lookup_put_of_ne [LawfulBEq κ] {key other : κ} (v : α) (pairs : List (κ × α))
    (h : other ≠ key) : (put key v pairs).lookup other = pairs.lookup other := by
  induction pairs with
  | nil => simp [put, h]
  | cons p rest ih =>
    obtain ⟨k, old⟩ := p
    by_cases hk : key == k
    · have ho : other ≠ k := fun e => h (e.trans (eq_of_beq hk).symm)
      rw [put, if_pos hk, List.lookup_cons, List.lookup_cons]
      simp only [beq_eq_false_iff_ne.2 ho]
    · rw [put, if_neg hk, List.lookup_cons, List.lookup_cons, ih]

end DotMatrix.Association
