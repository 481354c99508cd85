import Mathlib.Data.List.Basic

/-!
# Stores of slots

A table whose entries keep their place: a list of slots, each of which holds a value or is empty.
Freeing an entry empties its slot, a new entry is put behind the last one, so an index names one
entry for the whole life of the table. `get` reads a slot and `count` counts the entries with a
property that may depend on their place. How `count` changes when one slot is written
(`count_set`, `count_clear`, `count_push`) is what an invariant about a number kept next to such a
table needs.
-/

namespace Slots

open List

variable {α : Type}

/-- The entry in a slot. -/
def get (l : List (Option α)) (i : Nat) : Option α := (l[i]?).join

/-- Number of the entries with a property. -/
def count (p : Nat → α → Bool) (l : List (Option α)) : Nat :=
  (List.range l.length).countP fun i => (get l i).any (p i)

variable {l : List (Option α)} {i j : Nat} {x y : α} {p q : Nat → α → Bool}

theorem lt_length (h : get l i = some x) : i < l.length := by
  unfold get at h
  by_contra hlt
  rw [getElem?_eq_none (by omega)] at h
  cases h

theorem get_set_self (h : get l i = some x) (o : Option α) : get (l.set i o) i = o := by
  unfold get
  rw [getElem?_set_self (lt_length h)]
  rfl

theorem get_set_ne (h : j ≠ i) (o : Option α) : get (l.set i o) j = get l j := by
  unfold get
  rw [getElem?_set_ne (Ne.symm h)]

theorem get_set (h : get l i = some x) (o : Option α) :
    get (l.set i o) j = if j = i then o else get l j := by
  split
  · rename_i hj
    rw [hj, get_set_self h]
  · rename_i hj
    rw [get_set_ne hj]

theorem get_push (o : Option α) : get (l ++ [o]) i = if i = l.length then o else get l i := by
  unfold get
  split
  · rename_i hi
    rw [hi, getElem?_concat_length]
    rfl
  · rename_i hi
    by_cases hlt : i < l.length
    · rw [getElem?_append_left hlt]
    · rw [getElem?_eq_none (by simp; omega), getElem?_eq_none (by omega)]

/-- Two predicates on indices that agree but at one index. -/
theorem countP_range_update {n : Nat} {P Q : Nat → Bool} (hi : i < n)
    (h : ∀ j, j ≠ i → P j = Q j) :
    (List.range n).countP Q + (P i).toNat = (List.range n).countP P + (Q i).toNat := by
  induction n with
  | zero => omega
  | succ n ih =>
    rw [range_succ, countP_append, countP_append, countP_singleton,
      countP_singleton]
    by_cases hin : i = n
    · subst hin
      have hsame : (List.range i).countP Q = (List.range i).countP P := by
        apply countP_congr
        intro j hj
        have hne : j ≠ i := by
          have := mem_range.1 hj
          omega
        rw [h j hne]
      rw [hsame]
      cases P i <;> cases Q i <;> simp
    · have := ih (by omega)
      rw [h n (Ne.symm hin)]
      omega

theorem count_update (h : get l i = some x) (o : Option α) :
    count p (l.set i o) + (p i x).toNat = count p l + (o.any (p i)).toNat := by
  have hupd := countP_range_update (P := fun j => (get l j).any (p j))
    (Q := fun j => (get (l.set i o) j).any (p j)) (lt_length h)
    (fun j hj => by rw [get_set_ne hj])
  simp only [h, get_set_self h, Option.any_some] at hupd
  simpa only [count, length_set] using hupd

theorem count_set (h : get l i = some x) :
    count p (l.set i (some y)) + (p i x).toNat = count p l + (p i y).toNat :=
  count_update h (some y)

theorem count_clear (h : get l i = some x) :
    count p (l.set i none) + (p i x).toNat = count p l :=
  count_update h none

theorem count_push : count p (l ++ [some y]) = count p l + (p l.length y).toNat := by
  have hlast : get (l ++ [some y]) l.length = some y := by rw [get_push, if_pos rfl]
  have hrest : (List.range l.length).countP (fun i => (get (l ++ [some y]) i).any (p i)) =
      count p l := by
    apply countP_congr
    intro j hj
    have hne : j ≠ l.length := by
      have := mem_range.1 hj
      omega
    rw [get_push, if_neg hne]
  unfold count at hrest ⊢
  rw [length_append, length_singleton, range_succ, countP_append, hrest,
    countP_singleton, hlast]
  simp only [Option.any_some, Nat.add_left_cancel_iff]
  split
  · rename_i hp
    rw [hp]
    rfl
  · rename_i hp
    rw [Bool.not_eq_true] at hp
    rw [hp]
    rfl

theorem count_pos (h : get l i = some x) (hp : p i x = true) : 0 < count p l := by
  apply countP_pos_iff.2
  exact ⟨i, mem_range.2 (lt_length h), by rw [h]; exact hp⟩

theorem count_eq_zero (h : ∀ i x, get l i = some x → p i x = false) : count p l = 0 := by
  apply countP_eq_zero.2
  intro i _
  cases hx : get l i with
  | none => simp
  | some x => simp [h i x hx]

end Slots
