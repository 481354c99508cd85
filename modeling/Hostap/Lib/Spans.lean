import Hostap.Lib.Octets
import Mathlib.Data.List.Basic
import Mathlib.Data.List.Induction

/-!
# Parts of a buffer

A parser that hands out pointers into its buffer says where a value is, not only what it is. `Span` is such
a pointer with its length, and `Within` says that one part lies inside another.

A parser may meet several containers of one kind, remember the last one, and remember a value that only some
of them have. `latest_within_iff` says when the value it ends up with lies inside the container it ends up
with: the last container has a value if any of them has.
-/

namespace Spans

open Octets

/-- A part of a buffer. -/
structure Span where
  off : Nat
  len : Nat
  deriving DecidableEq

/-- The octets of the part. -/
def Span.octets (bs : Bytes) (s : Span) : Bytes := slice bs s.off s.len

/-- `s` lies inside `t`. -/
def Span.Within (s t : Span) : Prop := t.off ≤ s.off ∧ s.off + s.len ≤ t.off + t.len

/-- `s` ends before `t` starts, with something in between. -/
def Span.Before (s t : Span) : Prop := s.off + s.len < t.off

theorem Span.Within.not_of_before {s t u : Span} (h : s.Within t) (hbefore : t.Before u) : ¬ s.Within u := by
  rintro ⟨hstart, -⟩
  obtain ⟨-, hend⟩ := h
  unfold Span.Before at hbefore
  omega

/-! ## The last container and the last value -/

/-- A container, and the value it has. -/
abbrev Holder : Type := Span × Option Span

/-- The value after the containers of a list: one without a value leaves the value as it is. -/
def latestValue (start : Option Span) (l : List Holder) : Option Span := l.foldl (fun v h => h.2.or v) start

/-- The container after those of a list. -/
def latestContainer (start : Option Span) (l : List Holder) : Option Span := l.foldl (fun _ h => some h.1) start

/-- Containers one behind the other, each with its value inside. -/
structure Ordered (l : List Holder) : Prop where
  before : l.Pairwise fun a b => a.1.Before b.1
  inside : ∀ h ∈ l, ∀ s, h.2 = some s → s.Within h.1

/-- If a container has a value, so does the last one. -/
def LastHolds (l : List Holder) : Prop :=
  (∃ h ∈ l, h.2.isSome = true) → ∃ h, l.getLast? = some h ∧ h.2.isSome = true

theorem LastHolds.of_length_le_one {l : List Holder} (h : l.length ≤ 1) : LastHolds l := by
  rintro ⟨a, hmem, hsome⟩
  rcases l with _ | ⟨b, _ | ⟨c, l⟩⟩
  · cases hmem
  · rw [List.mem_singleton.1 hmem] at hsome
    exact ⟨b, rfl, hsome⟩
  · simp at h

theorem latestValue_concat (start : Option Span) (l : List Holder) (h : Holder) :
    latestValue start (l ++ [h]) = h.2.or (latestValue start l) := by
  simp [latestValue]

theorem latestContainer_concat (start : Option Span) (l : List Holder) (h : Holder) :
    latestContainer start (l ++ [h]) = some h.1 := by
  simp [latestContainer]

/-- There is a value if and only if a container has one, and it is a container's. -/
theorem latestValue_cases (l : List Holder) :
    (latestValue none l = none ∧ ∀ h ∈ l, h.2 = none) ∨ ∃ h ∈ l, ∃ s, h.2 = some s ∧ latestValue none l =
    some s := by
  induction l using List.reverseRecOn with
  | nil => exact Or.inl ⟨rfl, fun h hmem => absurd hmem (List.not_mem_nil)⟩
  | append_singleton l h ih =>
    rw [latestValue_concat]
    cases hvalue : h.2 with
    | some s => exact Or.inr ⟨h, by simp, s, hvalue, rfl⟩
    | none =>
      rw [Option.none_or]
      rcases ih with ⟨hnone, hall⟩ | ⟨g, hg, s, hs, heq⟩
      · refine Or.inl ⟨hnone, fun g hg => ?_⟩
        rcases List.mem_append.1 hg with hg | hg
        · exact hall g hg
        · rw [List.mem_singleton.1 hg, hvalue]
      · exact Or.inr ⟨g, List.mem_append_left _ hg, s, hs, heq⟩

/-- The value lies inside the container, if there is one, exactly where the last container has a value if any
has. -/
theorem latest_within_iff {l : List Holder} (hl : Ordered l) :
    (∀ s, latestValue none l = some s → ∃ c, latestContainer none l = some c ∧ s.Within c) ↔ LastHolds l := by
  rcases List.eq_nil_or_concat' l with rfl | ⟨l, h, rfl⟩
  · refine iff_of_true (fun s hs => ?_) ?_
    · cases hs
    · rintro ⟨h, hmem, -⟩
      cases hmem
  have hlast : (l ++ [h]).getLast? = some h := List.getLast?_concat
  rw [latestContainer_concat, latestValue_concat]
  cases hvalue : h.2 with
  | some s =>
    refine iff_of_true (fun t ht => ?_) (fun _ => ⟨h, hlast, by rw [hvalue]; rfl⟩)
    cases ht
    exact ⟨h.1, rfl, hl.inside h (by simp) s hvalue⟩
  | none =>
    rw [Option.none_or]
    rcases latestValue_cases l with ⟨hnone, hall⟩ | ⟨g, hg, s, hs, heq⟩
    · refine iff_of_true (fun t ht => ?_) ?_
      · rw [hnone] at ht
        cases ht
      · rintro ⟨g, hg, hsome⟩
        rcases List.mem_append.1 hg with hg | hg
        · rw [hall g hg] at hsome
          cases hsome
        · rw [List.mem_singleton.1 hg, hvalue] at hsome
          cases hsome
    · -- the value is one of an earlier container
      refine iff_of_false (fun hwithin => ?_) (fun hholds => ?_)
      · obtain ⟨c, hc, hin⟩ := hwithin s heq
        cases hc
        have hbefore : g.1.Before h.1 := (List.pairwise_append.1 hl.before).2.2 g hg h
          (List.mem_singleton_self h)
        exact (hl.inside g (List.mem_append_left _ hg) s hs).not_of_before hbefore hin
      · obtain ⟨g', hg', hsome⟩ := hholds ⟨g, List.mem_append_left _ hg, by rw [hs]; rfl⟩
        rw [hlast] at hg'
        cases hg'
        rw [hvalue] at hsome
        cases hsome

end Spans
