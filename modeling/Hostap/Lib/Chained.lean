import Mathlib.Data.List.Basic
import Mathlib.Logic.Function.Basic

/-!
# Hash chains next to a list

A table kept twice: as one list of all its elements and as a chain for each hash value. `Indexes` says that
the two agree, each element standing in the chain of its hash as often as in the list. An element is added
to both (`Indexes.push`) or taken out of both (`Indexes.unlink`), or written where it stands
(`Indexes.map`); a search in one chain then finds what a search in the list would (`Indexes.mem_iff`).

Elements are unlinked by a test that at most one element passes, such as a comparison of addresses
(`perm_cons_eraseP`).
-/

namespace Chained

variable {α κ : Type} [DecidableEq κ] {hash : α → κ} {chains : κ → List α} {l l' : List α} {a : α}

/-- The chains hold the elements of the list, each in the chain of its hash. -/
def Indexes (hash : α → κ) (chains : κ → List α) (l : List α) : Prop :=
  ∀ k, (chains k).Perm (l.filter fun a => hash a = k)

theorem Indexes.mem_iff (h : Indexes hash chains l) {k : κ} :
    a ∈ chains k ↔ a ∈ l ∧ hash a = k := by
  rw [(h k).mem_iff, List.mem_filter, decide_eq_true_eq]

theorem Indexes.push (h : Indexes hash chains l) (hl : l'.Perm (a :: l)) :
    Indexes hash (Function.update chains (hash a) (a :: chains (hash a))) l' := by
  intro k
  refine List.Perm.trans ?_ (hl.filter _).symm
  rw [List.filter_cons]
  by_cases hk : k = hash a
  · subst hk
    rw [Function.update_self, if_pos (by simp)]
    exact (h _).cons a
  · rw [Function.update_of_ne hk, if_neg (by simpa using Ne.symm hk)]
    exact h k

theorem Indexes.unlink (h : Indexes hash chains l) (hl : l.Perm (a :: l')) {c : List α}
    (hc : (chains (hash a)).Perm (a :: c)) :
    Indexes hash (Function.update chains (hash a) c) l' := by
  intro k
  have hk := (h k).trans (hl.filter _)
  rw [List.filter_cons] at hk
  by_cases heq : k = hash a
  · subst heq
    rw [Function.update_self]
    rw [if_pos (by simp)] at hk
    exact (hc.symm.trans hk).cons_inv
  · rw [Function.update_of_ne heq]
    rw [if_neg (by simpa using Ne.symm heq)] at hk
    exact hk

/-- The elements are rewritten where they stand, with their hashes unchanged. -/
theorem Indexes.map (h : Indexes hash chains l) {f : α → α} (hf : ∀ a, hash (f a) = hash a) :
    Indexes hash (fun k => (chains k).map f) (l.map f) := by
  intro k
  have hfilter : (l.map f).filter (fun a => decide (hash a = k)) =
      (l.filter fun a => decide (hash a = k)).map f := by
    rw [List.filter_map]
    congr 1
    refine List.filter_congr fun a _ => ?_
    simp only [Function.comp_apply, hf]
  rw [hfilter]
  exact (h k).map f

/-- What a test that only `a` passes takes out of a list. -/
theorem perm_cons_eraseP {p : α → Bool} (ha : a ∈ l) (hp : p a = true)
    (hone : ∀ b ∈ l, p b = true → b = a) : l.Perm (a :: l.eraseP p) := by
  obtain ⟨b, l₁, l₂, _, hb, hl, he⟩ := List.exists_of_eraseP ha hp
  have hba : b = a := hone b (by rw [hl]; simp) hb
  subst hba
  rw [he]
  nth_rewrite 1 [hl]
  exact List.perm_middle

end Chained
