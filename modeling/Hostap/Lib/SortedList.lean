import Mathlib.Data.List.Basic
import Mathlib.Order.Lattice

/-!
# Lists ordered by a key

A list that is kept in order of a key by its insertions: a new element goes behind every element
whose key is not greater (`insert`). Taking elements away keeps the order, because it leaves a
sublist. What the order is for is `lt_of_mem_dropWhile`: to find the elements up to a bound it is
enough to look at the front.

`sorted_replace` says when an element may be given another key where it stands.
-/

namespace SortedList

open List

variable {α β : Type} [LinearOrder β] {key : α → β} {a : α} {l : List α}

/-- The list is in order of the key. -/
def Sorted (key : α → β) (l : List α) : Prop := l.Pairwise fun a b => key a ≤ key b

/-- Inserts an element behind all whose key is not greater. -/
def insert (key : α → β) (a : α) : List α → List α
  | [] => [a]
  | b :: l => if key a < key b then a :: b :: l else b :: insert key a l

theorem perm_insert (a : α) (l : List α) : (insert key a l).Perm (a :: l) := by
  induction l with
  | nil => exact .refl _
  | cons b l ih =>
    unfold insert
    split
    · exact .refl _
    · exact (ih.cons b).trans (.swap a b l)

theorem mem_insert {x : α} : x ∈ insert key a l ↔ x = a ∨ x ∈ l := by
  rw [(perm_insert a l).mem_iff, mem_cons]

theorem length_insert : (insert key a l).length = l.length + 1 := by
  rw [(perm_insert a l).length_eq, length_cons]

theorem insert_split (h : Sorted key l) :
    ∃ l₁ l₂, insert key a l = l₁ ++ a :: l₂ ∧ l = l₁ ++ l₂ ∧
      (∀ x ∈ l₁, key x ≤ key a) ∧ ∀ x ∈ l₂, key a < key x := by
  induction l with
  | nil => exact ⟨[], [], rfl, rfl, by simp, by simp⟩
  | cons b l ih =>
    obtain ⟨hb, hl⟩ := pairwise_cons.1 h
    unfold insert
    split
    · rename_i hlt
      refine ⟨[], b :: l, rfl, rfl, by simp, ?_⟩
      intro x hx
      rcases mem_cons.1 hx with rfl | hx
      · exact hlt
      · exact lt_of_lt_of_le hlt (hb x hx)
    · rename_i hle
      obtain ⟨l₁, l₂, h₁, h₂, hbefore, hbehind⟩ := ih hl
      refine ⟨b :: l₁, l₂, by rw [h₁]; rfl, by rw [h₂]; rfl, ?_, hbehind⟩
      intro x hx
      rcases mem_cons.1 hx with rfl | hx
      · exact not_lt.1 hle
      · exact hbefore x hx

theorem sorted_replace {l₁ l₂ : List α} (h : Sorted key (l₁ ++ l₂)) (hbefore : ∀ x ∈ l₁, key x ≤ key a)
    (hbehind : ∀ x ∈ l₂, key a ≤ key x) : Sorted key (l₁ ++ a :: l₂) := by
  obtain ⟨h₁, h₂, h₁₂⟩ := pairwise_append.1 h
  refine pairwise_append.2 ⟨h₁, pairwise_cons.2 ⟨hbehind, h₂⟩, ?_⟩
  intro x hx y hy
  rcases mem_cons.1 hy with rfl | hy
  · exact hbefore x hx
  · exact h₁₂ x hx y hy

theorem sorted_insert (h : Sorted key l) : Sorted key (insert key a l) := by
  obtain ⟨l₁, l₂, h₁, h₂, hbefore, hbehind⟩ := insert_split (a := a) h
  rw [h₁]
  exact sorted_replace (h₂ ▸ h) hbefore fun x hx => le_of_lt (hbehind x hx)

theorem Sorted.sublist {l' : List α} (h : Sorted key l) (hl : List.Sublist l' l) : Sorted key l' :=
  List.Pairwise.sublist hl h

theorem filter_insert_of_neg {p : α → Bool} (ha : p a = false) (l : List α) :
    (insert key a l).filter p = l.filter p := by
  have hdrop : ∀ l, (a :: l).filter p = l.filter p := fun l => by
    rw [filter_cons, ha]
    rfl
  induction l with
  | nil => exact hdrop []
  | cons b l ih =>
    unfold insert
    split
    · exact hdrop (b :: l)
    · rw [filter_cons, filter_cons, ih]

theorem lt_of_mem_dropWhile {t : β} (h : Sorted key l) {x : α}
    (hx : x ∈ l.dropWhile fun a => key a ≤ t) : t < key x := by
  induction l with
  | nil => cases hx
  | cons b l ih =>
    obtain ⟨hb, hl⟩ := pairwise_cons.1 h
    rw [dropWhile_cons] at hx
    split at hx
    · exact ih hl hx
    · rename_i hlt
      have hlt' : t < key b := by simpa using hlt
      rcases mem_cons.1 hx with rfl | hx
      · exact hlt'
      · exact lt_of_lt_of_le hlt' (hb x hx)

end SortedList
