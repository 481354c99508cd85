import Mathlib.Data.List.Basic

/-!
# Cursors in a linked list

A loop over a singly linked list holds two pointers, the element it is at and the one before, so that
it can take the element out. The list is a `List α` here, and the pointers are the keys of its
elements. `At key l prev cur` says that the two pointers are where such a loop has them: `prev` is the
last element of a front part of the list, `cur` the first of the rest.

* `At.next` and `At.unlink` are the two ways to go on, and both need the keys to be distinct;
* `At.congr` says that only the keys matter, so that a loop body may write to the elements.
-/

namespace Cursor

open List

variable {α κ : Type} {key : α → κ} {l l' : List α} {prev cur : Option κ} {k : κ}

/-- The pointers of a loop that has come to `cur`. -/
def At (key : α → κ) (l : List α) (prev cur : Option κ) : Prop :=
  ∃ l₁ l₂, l = l₁ ++ l₂ ∧ l₁.getLast?.map key = prev ∧ l₂.head?.map key = cur

theorem At.start (l : List α) : At key l none (l.head?.map key) := ⟨[], l, rfl, rfl, rfl⟩

theorem At.congr (h : At key l prev cur) (hkeys : l'.map key = l.map key) : At key l' prev cur := by
  obtain ⟨l₁, l₂, rfl, hprev, hcur⟩ := h
  rw [map_append] at hkeys
  obtain ⟨m₁, m₂, rfl, h₁, h₂⟩ := map_eq_append_iff.1 hkeys
  refine ⟨m₁, m₂, rfl, ?_, ?_⟩
  · rw [← getLast?_map, h₁, getLast?_map]
    exact hprev
  · rw [← head?_map, h₂, head?_map]
    exact hcur

theorem At.split (h : At key l prev (some k)) :
    ∃ l₁ x l₂, l = l₁ ++ x :: l₂ ∧ key x = k ∧ l₁.getLast?.map key = prev := by
  obtain ⟨l₁, l₂, rfl, hprev, hcur⟩ := h
  cases l₂ with
  | nil => cases hcur
  | cons x l₂ => exact ⟨l₁, x, l₂, rfl, by simpa using hcur, hprev⟩

theorem At.mem (h : At key l prev (some k)) : ∃ x ∈ l, key x = k := by
  obtain ⟨l₁, x, l₂, rfl, hx, _⟩ := h.split
  exact ⟨x, by simp, hx⟩

theorem At.prev_mem (h : At key l (some k) cur) : ∃ x ∈ l, key x = k := by
  obtain ⟨l₁, l₂, rfl, hprev, _⟩ := h
  obtain ⟨x, hx, hk⟩ := Option.map_eq_some_iff.1 hprev
  exact ⟨x, mem_append_left _ (mem_of_getLast? hx), hk⟩

section Operations

variable [DecidableEq κ]

/-- What comes after the element with a given key. -/
def after (key : α → κ) (k : κ) (l : List α) : List α := (l.dropWhile fun x => key x ≠ k).drop 1

/-- The key that comes next. -/
def next (key : α → κ) (k : κ) (l : List α) : Option κ := (after key k l).head?.map key

/-- The element with key `k` is taken out by a write to the one before, or to the head of the list.
There is no result if one of the two is not in the list. -/
def unlink (key : α → κ) (prev : Option κ) (k : κ) (l : List α) : Option (List α) :=
  if l.any fun x => key x = k then
    match prev with
    | none => some (after key k l)
    | some p =>
      match l.find? fun x => key x = p with
      | none => none
      | some x => some ((l.takeWhile fun x => key x ≠ p) ++ x :: after key k l)
  else
    none

end Operations

section Distinct

variable {l₁ l₂ : List α} {x : α} (hnodup : ((l₁ ++ x :: l₂).map key).Nodup)

include hnodup

theorem ne_of_mem_front {y : α} (hy : y ∈ l₁) : key y ≠ key x := by
  rw [map_append, map_cons, nodup_append] at hnodup
  exact hnodup.2.2 _ (mem_map_of_mem hy) _ mem_cons_self

variable [DecidableEq κ]

theorem after_split : after key (key x) (l₁ ++ x :: l₂) = l₂ := by
  unfold after
  rw [dropWhile_append_of_pos, dropWhile_cons_of_neg]
  · rfl
  · simp
  · intro y hy
    exact decide_eq_true (ne_of_mem_front hnodup hy)

theorem find_split : (l₁ ++ x :: l₂).find? (fun y => key y = key x) = some x := by
  rw [find?_append]
  have hnone : l₁.find? (fun y => decide (key y = key x)) = none := by
    rw [find?_eq_none]
    intro y hy
    simpa using ne_of_mem_front hnodup hy
  rw [hnone]
  simp

theorem takeWhile_split : (l₁ ++ x :: l₂).takeWhile (fun y => key y ≠ key x) = l₁ := by
  rw [takeWhile_append_of_pos, takeWhile_cons_of_neg]
  · simp
  · simp
  · intro y hy
    exact decide_eq_true (ne_of_mem_front hnodup hy)

end Distinct

variable [DecidableEq κ]

theorem At.next (hnodup : (l.map key).Nodup) (h : At key l prev (some k)) :
    At key l (some k) (Cursor.next key k l) := by
  obtain ⟨l₁, x, l₂, rfl, rfl, _⟩ := h.split
  refine ⟨l₁ ++ [x], l₂, by simp, by simp, ?_⟩
  rw [Cursor.next, after_split hnodup]

/-- The loop takes its element out and goes on to the next. -/
theorem At.unlink (hnodup : (l.map key).Nodup) (h : At key l prev (some k)) :
    ∃ l₁ x l₂, l = l₁ ++ x :: l₂ ∧ key x = k ∧ Cursor.unlink key prev k l = some (l₁ ++ l₂) ∧
      At key (l₁ ++ l₂) prev (Cursor.next key k l) := by
  obtain ⟨l₁, x, l₂, rfl, rfl, hprev⟩ := h.split
  refine ⟨l₁, x, l₂, rfl, rfl, ?_, l₁, l₂, rfl, hprev, ?_⟩
  · unfold Cursor.unlink
    rw [if_pos (by simp), after_split hnodup]
    cases hl : l₁.getLast? with
    | none =>
      rw [hl] at hprev
      rw [getLast?_eq_none_iff.1 hl, ← hprev]
      rfl
    | some p =>
      obtain ⟨l₀, rfl⟩ := getLast?_eq_some_iff.1 hl
      rw [hl] at hprev
      subst hprev
      have hsplit : l₀ ++ [p] ++ x :: l₂ = l₀ ++ p :: (x :: l₂) := by simp
      rw [hsplit] at hnodup ⊢
      simp only [Option.map_some]
      rw [find_split hnodup, takeWhile_split hnodup]
      simp
  · rw [Cursor.next, after_split hnodup]

end Cursor
