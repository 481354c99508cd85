import Hostap.Lib.Octets

/-!
# Texts that are handed over in several calls

A component takes a text in parts, one in each call, and keeps a state in between. `T s part` is what it
makes of a part and the state after it. Where `T` makes of a text the same in one part and in two, it makes
the same of it in any number of parts (`calls_flatten`).

A call may also be refused. `Along` says that no call of a sequence is.
-/

namespace Calls

open Octets List

variable {σ κ ε : Type}

/-- One call after the other, as long as none is refused. -/
def calls (op : κ → Bytes → Except ε (Bytes × κ)) : κ → List Bytes → Except ε (List Bytes)
  | _, [] => .ok []
  | ctx, part :: parts =>
    match op ctx part with
    | .error e => .error e
    | .ok r => (calls op r.2 parts).map fun outs => r.1 :: outs

/-- Every call meets the condition in the state it is made in. -/
def Along (T : σ → Bytes → Bytes × σ) (P : σ → Bytes → Prop) : σ → List Bytes → Prop
  | _, [] => True
  | s, part :: parts => P s part ∧ Along T P (T s part).2 parts

/-- The parts of a text, by their lengths. -/
def splitLens : List Nat → Bytes → List Bytes
  | [], _ => []
  | len :: lens, data => data.take len :: splitLens lens (data.drop len)

theorem splitLens_flatten {lens : List Nat} {data : Bytes} (h : lens.sum = data.length) :
    (splitLens lens data).flatten = data := by
  induction lens generalizing data with
  | nil => exact (eq_nil_of_length_eq_zero h.symm).symm
  | cons len lens ih =>
    rw [sum_cons] at h
    rw [splitLens, flatten_cons, ih (by rw [length_drop]; omega), take_append_drop]

theorem splitLens_map_length {lens : List Nat} {data : Bytes} (h : lens.sum = data.length) :
    (splitLens lens data).map List.length = lens := by
  induction lens generalizing data with
  | nil => rfl
  | cons len lens ih =>
    rw [sum_cons] at h
    rw [splitLens, map_cons, ih (by rw [length_drop]; omega), length_take_of_le (by omega)]

section Transducer

variable {op : κ → Bytes → Except ε (Bytes × κ)} {mk : σ → κ} {T : σ → Bytes → Bytes × σ}
  {P : σ → Bytes → Prop} (hop : ∀ s part, P s part → op (mk s) part = .ok ((T s part).1, mk (T s part).2))

include hop

/-- **The text is taken as if in one part.** -/
theorem calls_flatten (hnil : ∀ s, T s [] = ([], s))
    (happend : ∀ s a b, P s a →
      T s (a ++ b) = ((T s a).1 ++ (T (T s a).2 b).1, (T (T s a).2 b).2))
    {s : σ} {parts : List Bytes} (halong : Along T P s parts) :
    ∃ outs, calls op (mk s) parts = .ok outs ∧ outs.flatten = (T s parts.flatten).1 := by
  induction parts generalizing s with
  | nil => exact ⟨[], rfl, by rw [flatten_nil, hnil]⟩
  | cons part parts ih =>
    obtain ⟨hp, hrest⟩ := halong
    obtain ⟨outs, hcalls, hflat⟩ := ih hrest
    refine ⟨(T s part).1 :: outs, ?_, ?_⟩
    · rw [calls, hop s part hp]
      simp only []
      rw [hcalls]
      rfl
    · rw [flatten_cons, flatten_cons, happend s part _ hp, hflat]

/-- A sequence of calls with one that is refused has no result. -/
theorem along_of_calls (hrefuse : ∀ s part, ¬ P s part → ∃ e, op (mk s) part = .error e) {s : σ}
    {parts outs : List Bytes} (h : calls op (mk s) parts = .ok outs) : Along T P s parts := by
  induction parts generalizing s outs with
  | nil => trivial
  | cons part parts ih =>
    by_cases hp : P s part
    · rw [calls, hop s part hp] at h
      simp only [] at h
      cases hcalls : calls op (mk (T s part).2) parts with
      | error e =>
        rw [hcalls] at h
        cases h
      | ok outs' => exact ⟨hp, ih hcalls⟩
    · obtain ⟨e, he⟩ := hrefuse s part hp
      rw [calls, he] at h
      cases h

end Transducer

theorem along_length_iff (T : σ → Bytes → Bytes × σ) (p : Nat → Prop) (s : σ) (parts : List Bytes) :
    Along T (fun _ part => p part.length) s parts ↔ ∀ len ∈ parts.map List.length, p len := by
  induction parts generalizing s with
  | nil => exact iff_of_true trivial fun _ h => absurd h not_mem_nil
  | cons part parts ih => rw [Along, ih, map_cons, forall_mem_cons]

end Calls
