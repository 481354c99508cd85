import Mathlib.Data.List.Basic

/-!
# The first element that matches

Search and update of a list by a test, as a loop over a linked list does it: the first element that
passes is written (`modifyFirst`). `modifyFirst_split` says where it stands and that nothing else
changes; an attribute the write leaves alone is the same all along the list (`map_modifyFirst`).
-/

namespace FirstMatch

variable {α β : Type} {p : α → Bool} {f : α → α} {a : α} {l : List α}

/-- Writes the first element that passes the test. -/
def modifyFirst (p : α → Bool) (f : α → α) : List α → List α
  | [] => []
  | a :: l => if p a then f a :: l else a :: modifyFirst p f l

theorem modifyFirst_split (h : l.find? p = some a) :
    ∃ l₁ l₂, l = l₁ ++ a :: l₂ ∧ (∀ x ∈ l₁, p x = false) ∧ modifyFirst p f l = l₁ ++ f a :: l₂ := by
  induction l with
  | nil => cases h
  | cons b l ih =>
    unfold modifyFirst
    cases hb : p b with
    | true =>
      rw [List.find?_cons_of_pos hb] at h
      cases h
      exact ⟨[], l, rfl, by simp, rfl⟩
    | false =>
      rw [List.find?_cons_of_neg (by simp [hb])] at h
      obtain ⟨l₁, l₂, h₁, h₂, h₃⟩ := ih h
      refine ⟨b :: l₁, l₂, by rw [h₁]; rfl, ?_, by simp [h₃]⟩
      intro x hx
      rcases List.mem_cons.1 hx with rfl | hx
      · exact hb
      · exact h₂ x hx

theorem map_modifyFirst {g : α → β} (hg : ∀ a, g (f a) = g a) :
    (modifyFirst p f l).map g = l.map g := by
  induction l with
  | nil => rfl
  | cons b l ih =>
    unfold modifyFirst
    split
    · simp [hg]
    · simp [ih]

end FirstMatch
