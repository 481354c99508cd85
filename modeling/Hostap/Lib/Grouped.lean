import Mathlib.Data.Finset.Card
import Hostap.Lib.FixedArray

/-!
# Sets of pairs, kept in groups

A set of pairs is kept as a list of groups, each of them with a key and the list of the elements that belong
to it. Neither the list of groups nor that of a group may grow over a limit. `HasPair` is membership.

`inter_has`, `union_has` and `remove_has` say that the operations are those on sets where the keys are
distinct and the elements of a group are, and where a union fits the limits. With repetitions an intersection
may end early, but it has nothing else than what is common (`has_of_inter`).
-/

namespace Grouped

open FixedArray List

variable {κ α β : Type} [DecidableEq κ] [DecidableEq α]

/-- A pair is in the set. -/
def HasPair (l : List (κ × List α)) (k : κ) (x : α) : Prop := ∃ g ∈ l, g.1 = k ∧ x ∈ g.2

/-- Nothing is there twice. -/
structure Distinct (l : List (κ × List α)) : Prop where
  keys : (l.map Prod.fst).Nodup
  elems : ∀ g ∈ l, g.2.Nodup

/-- The lists are within the limits. -/
structure Fits (n m : Nat) (l : List (κ × List α)) : Prop where
  length : l.length ≤ n
  elems : ∀ g ∈ l, g.2.length ≤ m

/-- What two lists have in common, one for each pair of places where it stands. -/
def common (a b : List α) : List α := a.flatMap fun x => b.flatMap fun y => if x = y then [x] else []

/-- The group that two groups have in common, if there is anything in it. -/
def commonGroup (m : Nat) (g h : κ × List α) : List (κ × List α) :=
  if g.1 = h.1 then
    if (common g.2 h.2).take m = [] then [] else [(g.1, (common g.2 h.2).take m)]
  else []

/-- The intersection, which ends where the limit is reached. -/
def inter (n m : Nat) (a b : List (κ × List α)) : List (κ × List α) :=
  (a.flatMap fun g => b.flatMap (commonGroup m g)).take n

/-- A group with the elements of the groups of the same key. -/
def mergeGroup (m : Nat) (b : List (κ × List α)) (g : κ × List α) : κ × List α :=
  (g.1, b.foldl (fun acc h => if g.1 = h.1 then addUpTo m id acc h.2 else acc) g.2)

/-- The union, as far as it fits. -/
def union (n m : Nat) (a b : List (κ × List α)) : List (κ × List α) :=
  addUpTo n Prod.fst (a.map (mergeGroup m b)) b

/-- The set without the pairs that pass a test, and without empty groups. -/
def remove (p : κ → α → Bool) (l : List (κ × List α)) : List (κ × List α) :=
  (l.map fun g => (g.1, g.2.filter fun x => ! p g.1 x)).filter fun g => ! g.2.isEmpty

/-- The elements of a key. -/
def elemsOf (l : List (κ × List α)) (k : κ) : Finset α :=
  ((l.filter fun g => g.1 = k).flatMap Prod.snd).toFinset

/-- The union is within the limits. -/
structure UnionFits (n m : Nat) (a b : List (κ × List α)) : Prop where
  keys : ((a.map Prod.fst).toFinset ∪ (b.map Prod.fst).toFinset).card ≤ n
  elems : ∀ k, (elemsOf a k ∪ elemsOf b k).card ≤ m

variable {n m : Nat} {a b l : List (κ × List α)} {k : κ} {x : α}

/-! ## Intersection -/

theorem mem_common {a b : List α} : x ∈ common a b ↔ x ∈ a ∧ x ∈ b := by
  unfold common
  simp only [mem_flatMap]
  constructor
  · rintro ⟨y, hy, z, hz, hx⟩
    by_cases h : y = z
    · rw [if_pos h, mem_singleton] at hx
      subst hx
      subst h
      exact ⟨hy, hz⟩
    · rw [if_neg h] at hx
      cases hx
  · rintro ⟨ha, hb⟩
    exact ⟨x, ha, x, hb, by simp⟩

omit [DecidableEq κ] [DecidableEq α] in
theorem length_flatMap_le {γ : Type} {l : List β} {f : β → List γ} (h : ∀ y ∈ l, (f y).length ≤ 1) :
    (l.flatMap f).length ≤ l.length := by
  induction l with
  | nil => exact Nat.le_refl _
  | cons y l ih =>
    have hy := h y mem_cons_self
    have hl := ih fun z hz => h z (mem_cons_of_mem _ hz)
    rw [flatMap_cons, length_append, length_cons]
    omega

omit [DecidableEq α] in
/-- Among distinct keys at most one is the key that is looked for. -/
theorem length_flatMap_key_le {γ : Type} (key : β → κ) {l : List β} {f : β → List γ} {k : κ}
    (hl : (l.map key).Nodup) (hf : ∀ y ∈ l, (f y).length ≤ 1) (hne : ∀ y ∈ l, k ≠ key y → f y = []) :
    (l.flatMap f).length ≤ 1 := by
  induction l with
  | nil => exact Nat.zero_le 1
  | cons y l ih =>
    obtain ⟨hnot, hl'⟩ := nodup_cons.1 (map_cons ▸ hl)
    rw [flatMap_cons, length_append]
    by_cases hk : k = key y
    · -- nothing behind has this key
      have hrest : l.flatMap f = [] := by
        apply flatMap_eq_nil_iff.2
        intro z hz
        apply hne z (mem_cons_of_mem _ hz)
        rintro rfl
        exact hnot (hk ▸ mem_map_of_mem hz)
      have hy := hf y mem_cons_self
      rw [hrest, length_nil]
      omega
    · rw [hne y mem_cons_self hk, length_nil, Nat.zero_add]
      exact ih hl' (fun z hz => hf z (mem_cons_of_mem _ hz))
        fun z hz => hne z (mem_cons_of_mem _ hz)

theorem common_length_le {a b : List α} (hb : b.Nodup) : (common a b).length ≤ a.length := by
  apply length_flatMap_le
  intro x _
  apply length_flatMap_key_le id (k := x) (by rw [map_id]; exact hb)
  · intro y _
    split <;> simp
  · intro y _ hne
    exact if_neg hne

theorem mem_commonGroup {g h e : κ × List α} :
    e ∈ commonGroup m g h ↔
      g.1 = h.1 ∧ (common g.2 h.2).take m ≠ [] ∧ e = (g.1, (common g.2 h.2).take m) := by
  unfold commonGroup
  by_cases hk : g.1 = h.1
  · by_cases hnil : (common g.2 h.2).take m = []
    · simp [hk, hnil]
    · simp [hk, hnil]
  · simp [hk]

theorem commonGroup_of_ne {g h : κ × List α} (hk : g.1 ≠ h.1) : commonGroup m g h = [] := if_neg hk

theorem commonGroup_of_nil {g h : κ × List α} (hnil : (common g.2 h.2).take m = []) :
    commonGroup m g h = [] := by
  unfold commonGroup
  rw [if_pos hnil, ite_self]

theorem commonGroup_of_ne_nil {g h : κ × List α} (hk : g.1 = h.1) (hne : (common g.2 h.2).take m ≠ []) :
    commonGroup m g h = [(g.1, (common g.2 h.2).take m)] := by
  unfold commonGroup
  rw [if_pos hk, if_neg hne]

theorem commonGroup_length_le {g h : κ × List α} : (commonGroup m g h).length ≤ 1 := by
  unfold commonGroup
  split
  · split <;> simp
  · simp

/-- An intersection has nothing but what is common, also with repetitions. -/
theorem has_of_inter (h : HasPair (inter n m a b) k x) : HasPair a k x ∧ HasPair b k x := by
  obtain ⟨e, he, rfl, hx⟩ := h
  obtain ⟨g, hg, he⟩ := mem_flatMap.1 (mem_of_mem_take he)
  obtain ⟨h, hh, he⟩ := mem_flatMap.1 he
  obtain ⟨hkey, -, rfl⟩ := mem_commonGroup.1 he
  obtain ⟨hxg, hxh⟩ := mem_common.1 (mem_of_mem_take hx)
  exact ⟨⟨g, hg, rfl, hxg⟩, ⟨h, hh, hkey.symm, hxh⟩⟩

theorem inter_has (ha : Fits n m a) (hdb : Distinct b) :
    HasPair (inter n m a b) k x ↔ HasPair a k x ∧ HasPair b k x := by
  refine ⟨has_of_inter, ?_⟩
  rintro ⟨⟨g, hg, rfl, hxg⟩, ⟨h, hh, hkey, hxh⟩⟩
  have hclasses : (a.flatMap fun g => b.flatMap (commonGroup m g)).length ≤ n := by
    refine Nat.le_trans (length_flatMap_le fun g _ => ?_) ha.length
    apply length_flatMap_key_le Prod.fst hdb.keys (k := g.1)
    · exact fun h _ => commonGroup_length_le
    · exact fun h _ hne => if_neg hne
  have hchannels : (common g.2 h.2).take m = common g.2 h.2 :=
    take_of_length_le (Nat.le_trans (common_length_le (hdb.elems h hh)) (ha.elems g hg))
  have hx : x ∈ common g.2 h.2 := mem_common.2 ⟨hxg, hxh⟩
  refine ⟨(g.1, common g.2 h.2), ?_, rfl, hx⟩
  unfold inter
  rw [take_of_length_le hclasses]
  refine mem_flatMap.2 ⟨g, hg, mem_flatMap.2 ⟨h, hh, mem_commonGroup.2 ⟨hkey.symm, ?_, ?_⟩⟩⟩
  · rw [hchannels]
    exact ne_nil_of_mem hx
  · rw [hchannels]

/-! ## Union -/

section
variable {key : β → κ} {acc xs : List β} {y : β}

omit [DecidableEq α] in
/-- What is added, where there is room for every new key. -/
theorem mem_addUpTo (hacc : (acc.map key).Nodup) (hxs : (xs.map key).Nodup)
    (hcard : ((acc.map key).toFinset ∪ (xs.map key).toFinset).card ≤ n) :
    y ∈ addUpTo n key acc xs ↔ y ∈ acc ∨ (y ∈ xs ∧ key y ∉ acc.map key) := by
  induction xs generalizing acc with
  | nil => simp [addUpTo]
  | cons x xs ih =>
    obtain ⟨hx, hxs'⟩ := nodup_cons.1 (map_cons ▸ hxs)
    unfold addUpTo
    by_cases hmem : key x ∈ acc.map key
    · rw [if_pos hmem, ih hacc hxs' (Nat.le_trans (Finset.card_le_card (by
        rw [map_cons, toFinset_cons]
        exact Finset.union_subset_union_right (Finset.subset_insert _ _))) hcard)]
      constructor
      · exact Or.imp_right (And.imp_left (mem_cons_of_mem _))
      · rintro (hy | ⟨hy, hnew⟩)
        · exact .inl hy
        · rcases mem_cons.1 hy with rfl | hy
          · exact absurd hmem hnew
          · exact .inr ⟨hy, hnew⟩
    rw [if_neg hmem]
    -- the keys so far and the new one
    have hroom : acc.length + 1 ≤ n := by
      refine Nat.le_trans ?_ hcard
      have hinsert : (insert (key x) (acc.map key).toFinset).card = acc.length + 1 := by
        rw [Finset.card_insert_of_notMem (by rwa [mem_toFinset]), toFinset_card_of_nodup hacc,
          length_map]
      rw [← hinsert]
      apply Finset.card_le_card
      intro c hc
      rw [map_cons, toFinset_cons, Finset.mem_union, Finset.mem_insert]
      rcases Finset.mem_insert.1 hc with hc | hc
      · exact .inr (.inl hc)
      · exact .inl hc
    have hkeys : ((acc ++ [x]).map key).toFinset ∪ (xs.map key).toFinset =
        (acc.map key).toFinset ∪ ((x :: xs).map key).toFinset := by
      ext c
      simp only [map_append, map_cons, map_nil, Finset.mem_union, mem_toFinset,
        mem_append, mem_cons, not_mem_nil, or_false, or_assoc]
    have hnodup : ((acc ++ [x]).map key).Nodup := by
      rw [map_append, map_singleton]
      exact nodup_append.2 ⟨hacc, nodup_singleton _, fun c hc d hd hcd =>
        hmem (by rw [← mem_singleton.1 hd, ← hcd]; exact hc)⟩
    rw [if_neg (by omega), ih hnodup hxs' (by rw [hkeys]; exact hcard)]
    simp only [map_append, map_singleton, mem_append, mem_singleton, not_or]
    rw [mem_cons]
    constructor
    · rintro ((hy | rfl) | ⟨hy, hnew, -⟩)
      · exact .inl hy
      · exact .inr ⟨.inl rfl, hmem⟩
      · exact .inr ⟨.inr hy, hnew⟩
    · rintro (hy | ⟨rfl | hy, hnew⟩)
      · exact .inl (.inl hy)
      · exact .inl (.inr rfl)
      · refine .inr ⟨hy, hnew, fun heq => hx ?_⟩
        rw [← heq]
        exact mem_map_of_mem hy

end

omit [DecidableEq κ] in
theorem mem_addUpTo_id {acc xs : List α} (hacc : acc.Nodup) (hxs : xs.Nodup)
    (hcard : (acc.toFinset ∪ xs.toFinset).card ≤ n) : x ∈ addUpTo n id acc xs ↔ x ∈ acc ∨ x ∈ xs := by
  rw [mem_addUpTo (by rw [map_id]; exact hacc) (by rw [map_id]; exact hxs)
    (by rw [map_id, map_id]; exact hcard), map_id]
  by_cases hx : x ∈ acc
  · simp [hx]
  · simp [hx]

theorem mem_elemsOf : x ∈ elemsOf l k ↔ HasPair l k x := by
  unfold elemsOf HasPair
  simp only [mem_toFinset, mem_flatMap, mem_filter, decide_eq_true_eq]
  constructor
  · rintro ⟨g, ⟨hg, hk⟩, hx⟩
    exact ⟨g, hg, hk, hx⟩
  · rintro ⟨g, hg, hk, hx⟩
    exact ⟨g, ⟨hg, hk⟩, hx⟩

theorem map_mergeGroup_fst : (a.map (mergeGroup m b)).map Prod.fst = a.map Prod.fst := by
  rw [map_map]
  exact map_congr_left fun g _ => rfl

/-- Where no group of the other set has the key, a group stays as it is. -/
theorem foldl_merge_of_ne {acc : List α} (h : ∀ e ∈ b, k ≠ e.1) :
    b.foldl (fun acc h => if k = h.1 then addUpTo m id acc h.2 else acc) acc = acc := by
  induction b generalizing acc with
  | nil => rfl
  | cons e b ih =>
    rw [foldl_cons, if_neg (h e mem_cons_self)]
    exact ih fun e' he' => h e' (mem_cons_of_mem _ he')

theorem mem_foldl_merge {acc : List α} (hacc : acc.Nodup) (hdb : Distinct b)
    (hcard : (acc.toFinset ∪ elemsOf b k).card ≤ m) :
    x ∈ b.foldl (fun acc h => if k = h.1 then addUpTo m id acc h.2 else acc) acc ↔ x ∈ acc ∨ HasPair b k x := by
  induction b generalizing acc with
  | nil => simp [HasPair]
  | cons e b ih =>
    obtain ⟨he, hb⟩ := nodup_cons.1 (map_cons ▸ hdb.keys)
    rw [foldl_cons]
    by_cases hk : k = e.1
    · -- no other group has this key
      have hne : ∀ e' ∈ b, k ≠ e'.1 := by
        rintro e' he' rfl
        exact he (hk ▸ mem_map_of_mem he')
      have helems : elemsOf (e :: b) k = e.2.toFinset := by
        ext y
        rw [mem_elemsOf, mem_toFinset]
        constructor
        · rintro ⟨g, hg, hgk, hy⟩
          rcases mem_cons.1 hg with rfl | hg
          · exact hy
          · exact absurd hgk.symm (hne g hg)
        · exact fun hy => ⟨e, mem_cons_self, hk.symm, hy⟩
      rw [if_pos hk, foldl_merge_of_ne hne,
        mem_addUpTo_id hacc (hdb.elems e mem_cons_self) (by rw [← helems]; exact hcard)]
      rw [← mem_elemsOf (l := e :: b), helems, mem_toFinset]
    · rw [if_neg hk]
      have helems : elemsOf (e :: b) k = elemsOf b k := by
        unfold elemsOf
        rw [filter_cons_of_neg (by simpa using Ne.symm hk)]
      rw [ih hacc ⟨hb, fun g hg => hdb.elems g (mem_cons_of_mem _ hg)⟩ (by rw [← helems]; exact hcard),
        ← mem_elemsOf, ← mem_elemsOf, helems]

theorem union_has (hda : Distinct a) (hdb : Distinct b) (hfits : UnionFits n m a b) :
    HasPair (union n m a b) k x ↔ HasPair a k x ∨ HasPair b k x := by
  have hgroups : ∀ g, g ∈ union n m a b ↔
      g ∈ a.map (mergeGroup m b) ∨ (g ∈ b ∧ g.1 ∉ a.map Prod.fst) := by
    intro g
    unfold union
    rw [mem_addUpTo (by rw [map_mergeGroup_fst]; exact hda.keys) hdb.keys
      (by rw [map_mergeGroup_fst]; exact hfits.keys), map_mergeGroup_fst]
  have hmerged : ∀ g ∈ a, ∀ y, y ∈ (mergeGroup m b g).2 ↔ y ∈ g.2 ∨ HasPair b g.1 y := by
    intro g hg y
    refine mem_foldl_merge (hda.elems g hg) hdb (Nat.le_trans (Finset.card_le_card ?_) (hfits.elems g.1))
    apply Finset.union_subset_union_left
    intro z hz
    exact mem_elemsOf.2 ⟨g, hg, rfl, mem_toFinset.1 hz⟩
  constructor
  · rintro ⟨g, hg, rfl, hx⟩
    rcases (hgroups g).1 hg with hg | ⟨hg, -⟩
    · obtain ⟨g', hg', rfl⟩ := mem_map.1 hg
      rcases (hmerged g' hg' x).1 hx with hx | hx
      · exact .inl ⟨g', hg', rfl, hx⟩
      · exact .inr hx
    · exact .inr ⟨g, hg, rfl, hx⟩
  · rintro (⟨g, hg, rfl, hx⟩ | hb)
    · exact ⟨_, (hgroups _).2 (.inl (mem_map_of_mem hg)), rfl, (hmerged g hg x).2 (.inl hx)⟩
    · by_cases hk : k ∈ a.map Prod.fst
      · obtain ⟨g, hg, rfl⟩ := mem_map.1 hk
        exact ⟨_, (hgroups _).2 (.inl (mem_map_of_mem hg)), rfl, (hmerged g hg x).2 (.inr hb)⟩
      · obtain ⟨h, hh, rfl, hx⟩ := hb
        exact ⟨h, (hgroups h).2 (.inr ⟨hh, hk⟩), rfl, hx⟩

/-! ## Removal -/

omit [DecidableEq κ] [DecidableEq α] in
theorem remove_has {p : κ → α → Bool} : HasPair (remove p l) k x ↔ HasPair l k x ∧ p k x = false := by
  unfold remove HasPair
  constructor
  · rintro ⟨g, hg, rfl, hx⟩
    obtain ⟨g', hg', rfl⟩ := mem_map.1 (mem_of_mem_filter hg)
    obtain ⟨hx, hp⟩ := mem_filter.1 hx
    exact ⟨⟨g', hg', rfl, hx⟩, by simpa using hp⟩
  · rintro ⟨⟨g, hg, rfl, hx⟩, hp⟩
    have hx' : x ∈ g.2.filter fun x => ! p g.1 x := mem_filter.2 ⟨hx, by rw [hp]; rfl⟩
    refine ⟨_, mem_filter.2 ⟨mem_map_of_mem hg, ?_⟩, rfl, hx'⟩
    simpa using ⟨x, hx, hp⟩

end Grouped
