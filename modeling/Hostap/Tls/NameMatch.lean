import Hostap.Tls.NameOctets
import Mathlib.Data.List.Forall2
import Mathlib.Data.List.TakeWhile

/-!
# Names that compare as equal

`x509_name_compare()` compares what is kept of two Names. Where it returns 0, the same types of attributes were
kept in the same order, with values of the same words (`x509_names_match`): only blanks and the case of letters
differ. It is an order up to its sign but for types that differ, which are less both ways (`TypesDecide`).
-/

namespace Hostap

open Octets Der Bounded Output List

/-! ## Values -/

/-- The words of a text, behind what there is of the first one. -/
def wordsFrom (word : Bytes) : Bytes → List Bytes
  | [] => if word = [] then [] else [word]
  | c :: s =>
    if x509Whitespace c then (if word = [] then [] else [word]) ++ wordsFrom [] s else wordsFrom (word ++ [c]) s

def valueWords (value : Bytes) : List Bytes := wordsFrom [] (value.map tolower)

def SameValue (a b : Bytes) : Prop := valueWords a = valueWords b

instance (a b : Bytes) : Decidable (SameValue a b) := inferInstanceAs (Decidable (_ = _))

section Values

variable {a b word s : Bytes} {c : UInt8}

theorem x509Whitespace_tolower (c : UInt8) : x509Whitespace (tolower c) = x509Whitespace c := by
  have hall : ∀ n : Fin 256, x509Whitespace (tolower (UInt8.ofNat n)) = x509Whitespace (UInt8.ofNat n) := by
    decide +kernel
  have h := hall ⟨c.toNat, c.toNat_lt⟩
  rwa [show UInt8.ofNat c.toNat = c from UInt8.ofNat_toNat] at h

theorem wordsFrom_blank (hc : x509Whitespace c = true) (word s : Bytes) :
    wordsFrom word (c :: s) = (if word = [] then [] else [word]) ++ wordsFrom [] s := if_pos hc

theorem wordsFrom_other (hc : ¬ x509Whitespace c = true) (word s : Bytes) :
    wordsFrom word (c :: s) = wordsFrom (word ++ [c]) s := if_neg hc

theorem wordsFrom_collapse (word s : Bytes) :
    wordsFrom word (x509CollapseWhitespace false s) = wordsFrom word s ∧
      wordsFrom [] (x509CollapseWhitespace true s) = wordsFrom [] s := by
  induction s generalizing word with
  | nil => exact ⟨rfl, rfl⟩
  | cons c s ih =>
    by_cases hc : x509Whitespace c = true
    · have hkeep : x509CollapseWhitespace false (c :: s) = c :: x509CollapseWhitespace true s := by
        rw [x509CollapseWhitespace, if_neg (fun h => by cases h.1), hc]
      have hdrop : x509CollapseWhitespace true (c :: s) = x509CollapseWhitespace true s :=
        if_pos ⟨rfl, hc⟩
      rw [hkeep, hdrop, wordsFrom_blank hc, wordsFrom_blank hc, wordsFrom_blank hc, (ih []).2]
      exact ⟨rfl, rfl⟩
    · have hno := Bool.eq_false_of_not_eq_true hc
      have hkeep : ∀ remove, x509CollapseWhitespace remove (c :: s) = c :: x509CollapseWhitespace false s := by
        intro remove
        rw [x509CollapseWhitespace, if_neg fun h => hc h.2, hno]
      rw [hkeep, hkeep, wordsFrom_other hc, wordsFrom_other hc, wordsFrom_other hc, wordsFrom_other hc,
        (ih (word ++ [c])).1, (ih ([] ++ [c])).1]
      exact ⟨rfl, rfl⟩

theorem wordsFrom_concat (hc : x509Whitespace c = true) (word s : Bytes) :
    wordsFrom word (s ++ [c]) = wordsFrom word s := by
  induction s generalizing word with
  | nil =>
    rw [nil_append, wordsFrom_blank hc]
    exact append_nil _
  | cons d s ih =>
    rw [cons_append]
    unfold wordsFrom
    rw [ih, ih]

theorem wordsFrom_strip (s : Bytes) : wordsFrom [] (x509StrStripWhitespace s) = wordsFrom [] s := by
  unfold x509StrStripWhitespace
  dsimp only
  split_ifs with hlast
  · rw [← (wordsFrom_collapse [] s).2]
    generalize x509CollapseWhitespace true s = t at hlast
    have hne : t ≠ [] := by
      rintro rfl
      exact absurd hlast.1 (by decide)
    have hsplit := dropLast_concat_getLast hne
    conv_rhs => rw [← hsplit]
    refine (wordsFrom_concat ?_ [] t.dropLast).symm
    rw [getLastD_eq_getLast?, getLast?_eq_some_getLast hne] at hlast
    exact hlast.2
  · exact (wordsFrom_collapse [] s).2

theorem collapse_map (remove : Bool) (s : Bytes) :
    x509CollapseWhitespace remove (s.map tolower) = (x509CollapseWhitespace remove s).map tolower := by
  induction s generalizing remove with
  | nil => rfl
  | cons c s ih =>
    rw [map_cons, x509CollapseWhitespace, x509CollapseWhitespace, x509Whitespace_tolower, ih, ih]
    split_ifs <;> rfl

theorem strip_map (s : Bytes) :
    x509StrStripWhitespace (s.map tolower) = (x509StrStripWhitespace s).map tolower := by
  unfold x509StrStripWhitespace
  dsimp only
  rw [collapse_map, length_map]
  generalize x509CollapseWhitespace true s = t
  have hlast : x509Whitespace ((t.map tolower).getLastD 0) = x509Whitespace (t.getLastD 0) := by
    rw [getLastD_eq_getLast?, getLastD_eq_getLast?, getLast?_map]
    cases t.getLast? with
    | none => rfl
    | some c => exact x509Whitespace_tolower c
  rw [hlast]
  split_ifs
  · exact (map_dropLast).symm
  · rfl

theorem strcasecmp_eq (h : strcasecmp a b = .eq) : a.map tolower = b.map tolower := by
  unfold strcasecmp at h
  rw [Ordering.then_eq_eq] at h
  have hlen : (a.map tolower).length = (b.map tolower).length := by
    rw [length_map, length_map]
    exact Nat.compare_eq_eq.mp h.2
  exact eq_of_memcmp_eq hlen h.1

theorem strcasecmp_swap (a b : Bytes) : strcasecmp b a = (strcasecmp a b).swap := by
  unfold strcasecmp
  rw [memcmp_swap, Ordering.swap_then, Nat.compare_swap]

theorem x509StrCompare_eq {alloc : Bool} (h : x509StrCompare alloc (some a) (some b) = .eq) :
    SameValue a b := by
  have hmap : (x509StrStripWhitespace a).map tolower = (x509StrStripWhitespace b).map tolower := by
    unfold x509StrCompare at h
    dsimp only at h
    split_ifs at h
    · exact strcasecmp_eq h
    · rw [← strip_map, ← strip_map, strcasecmp_eq h]
  unfold SameValue valueWords
  rw [← wordsFrom_strip, ← wordsFrom_strip (b.map tolower), strip_map, strip_map, hmap]

theorem x509StrCompare_swap {alloc : Bool} (a b : Option Bytes) :
    x509StrCompare alloc b a = (x509StrCompare alloc a b).swap := by
  cases a with
  | none => cases b <;> rfl
  | some a =>
    cases b with
    | none => rfl
    | some b =>
      unfold x509StrCompare
      dsimp only
      split_ifs <;> exact strcasecmp_swap _ _

end Values

/-! ## Names -/

def TypesDecide (alloc : Bool) (as bs : List (X509NameAttrType × Bytes)) : Prop :=
  ∃ i, x509AttrCompare alloc (as.take i) (bs.take i) = .eq ∧ ∃ a ∈ as[i]?, ∃ b ∈ bs[i]?, a.1 ≠ b.1

def SameAttribute (a b : NameAttribute) : Prop := a.oid = b.oid ∧ SameValue a.value b.value

instance (a b : NameAttribute) : Decidable (SameAttribute a b) := inferInstanceAs (Decidable (_ ∧ _))

section Attributes

variable {alloc : Bool} {a b : X509NameAttrType × Bytes} {as bs : List (X509NameAttrType × Bytes)}

theorem X509NameAttrType.num_injective {s t : X509NameAttrType} (h : s.num = t.num) : s = t := by
  cases s <;> cases t <;> first | rfl | cases h

theorem x509AttrCompare_cons (htype : a.1 = b.1) : x509AttrCompare alloc (a :: as) (b :: bs) =
    (x509StrCompare alloc (some a.2) (some b.2)).then (x509AttrCompare alloc as bs) := by
  rw [x509AttrCompare, htype, if_neg (Nat.lt_irrefl _), if_neg (Nat.lt_irrefl _)]

theorem x509AttrCompare_types (htype : a.1 ≠ b.1) : x509AttrCompare alloc (a :: as) (b :: bs) = .lt := by
  rw [x509AttrCompare]
  split_ifs with hlt hgt
  · rfl
  · rfl
  · exact absurd (X509NameAttrType.num_injective (by omega)) htype

theorem x509AttrCompare_eq (hlen : as.length = bs.length) (h : x509AttrCompare alloc as bs = .eq) :
    List.Forall₂ (fun a b => a.1 = b.1 ∧ SameValue a.2 b.2) as bs := by
  induction as generalizing bs with
  | nil =>
    cases bs with
    | nil => exact .nil
    | cons b bs => cases hlen
  | cons a as ih =>
    cases bs with
    | nil => cases hlen
    | cons b bs =>
      by_cases htype : a.1 = b.1
      · rw [x509AttrCompare_cons htype, Ordering.then_eq_eq] at h
        exact .cons ⟨htype, x509StrCompare_eq h.1⟩ (ih (Nat.succ.inj hlen) h.2)
      · rw [x509AttrCompare_types htype] at h
        cases h

theorem x509AttrCompare_swap (hlen : as.length = bs.length) (hno : ¬ TypesDecide alloc as bs) :
    x509AttrCompare alloc bs as = (x509AttrCompare alloc as bs).swap := by
  induction as generalizing bs with
  | nil =>
    cases bs with
    | nil => rfl
    | cons b bs => cases hlen
  | cons a as ih =>
    cases bs with
    | nil => cases hlen
    | cons b bs =>
      have htype : a.1 = b.1 := by
        by_contra hne
        exact hno ⟨0, rfl, a, rfl, b, rfl, hne⟩
      rw [x509AttrCompare_cons htype, x509AttrCompare_cons htype.symm, Ordering.swap_then,
        x509StrCompare_swap (some a.2)]
      by_cases heq : x509StrCompare alloc (some a.2) (some b.2) = .eq
      · rw [ih (Nat.succ.inj hlen)]
        rintro ⟨i, hbefore, hi⟩
        refine hno ⟨i + 1, ?_, hi⟩
        rw [take_succ_cons, take_succ_cons, x509AttrCompare_cons htype, heq]
        exact hbefore
      · cases hvalue : x509StrCompare alloc (some a.2) (some b.2) with
        | lt => rfl
        | eq => exact absurd hvalue heq
        | gt => rfl

theorem x509NameCompare_eq {n n' : X509Name} (h : x509NameCompare alloc n n' = .eq) :
    List.Forall₂ (fun a b => a.1 = b.1 ∧ SameValue a.2 b.2) n.attr n'.attr ∧
      x509StrCompare alloc n.email n'.email = .eq := by
  unfold x509NameCompare at h
  split_ifs at h with hlt hgt
  rw [Ordering.then_eq_eq] at h
  exact ⟨x509AttrCompare_eq (by omega) h.1, h.2⟩

theorem x509NameCompare_swap {n n' : X509Name} (hno : ¬ TypesDecide alloc n.attr n'.attr) :
    x509NameCompare alloc n' n = (x509NameCompare alloc n n').swap := by
  unfold x509NameCompare
  by_cases hlt : n.attr.length < n'.attr.length
  · rw [if_pos hlt, if_neg (by omega), if_pos hlt]
    rfl
  by_cases hgt : n'.attr.length < n.attr.length
  · rw [if_pos hgt, if_neg hlt, if_pos hgt]
    rfl
  · rw [if_neg hlt, if_neg hgt, if_neg hgt, if_neg hlt, Ordering.swap_then,
      x509AttrCompare_swap (by omega) hno, x509StrCompare_swap n.email]

theorem cut_eq {value : Bytes} (hno : 0 ∉ value) : cut value = value := by
  unfold cut
  rw [takeWhile_eq_self_iff]
  intro c hc
  exact decide_eq_true fun heq => hno (heq ▸ hc)

theorem email_eq {e e' : Option Bytes} (hno : ∀ v ∈ e, 0 ∉ v) (hno' : ∀ v ∈ e', 0 ∉ v)
    (h : x509StrCompare alloc (e.map cut) (e'.map cut) = .eq) : Option.Rel SameValue e e' := by
  cases e with
  | none =>
    cases e' with
    | none => exact .none
    | some v' => cases h
  | some v =>
    cases e' with
    | none => cases h
    | some v' =>
      rw [Option.map_some, Option.map_some, cut_eq (hno v rfl), cut_eq (hno' v' rfl)] at h
      exact .some (x509StrCompare_eq h)

end Attributes

/-- Of two Names that are accepted, what is kept is the same where they compare as equal, and so is the last
e-mail address if there is no zero in it. They compare one way as they do the other unless types decide. -/
theorem x509_names_match (alloc : Bool) (rdns rdns' : List (List NameAttribute)) (w w' r r' : Bytes)
    (n n' : X509Name) (rest rest' : Bytes) (hw : NameOctets rdns w) (hw' : NameOctets rdns' w')
    (hfits : ∀ a ∈ firsts rdns, OidNumbers a.oid) (hfits' : ∀ a ∈ firsts rdns', OidNumbers a.oid)
    (hn : x509ReadName (w ++ r) = .ok (n, rest)) (hn' : x509ReadName (w' ++ r') = .ok (n', rest')) :
    (x509NameCompare alloc n n' = .eq →
      List.Forall₂ SameAttribute (kept rdns) (kept rdns') ∧
      ((∀ e ∈ lastEmail rdns, 0 ∉ e) → (∀ e ∈ lastEmail rdns', 0 ∉ e) →
        Option.Rel SameValue (lastEmail rdns) (lastEmail rdns'))) ∧
    (¬ TypesDecide alloc n.attr n'.attr →
      (x509NameCompare alloc n n' = .lt ↔ x509NameCompare alloc n' n = .gt)) := by
  obtain ⟨hattr, hemail⟩ := x509ReadName_name hw hfits hn
  obtain ⟨hattr', hemail'⟩ := x509ReadName_name hw' hfits' hn'
  constructor
  · intro heq
    obtain ⟨hsame, hmail⟩ := x509NameCompare_eq heq
    rw [hattr, hattr', forall₂_map_left_iff, forall₂_map_right_iff] at hsame
    rw [hemail, hemail'] at hmail
    refine ⟨?_, fun hno hno' => email_eq hno hno' hmail⟩
    have hkept : ∀ a ∈ kept rdns, a.oid ∈ keptOids := fun a ha => of_decide_eq_true (mem_filter.mp ha).2
    refine List.Forall₂.imp ?_ ((forall₂_and_left _ _).mpr ⟨hkept, hsame⟩)
    rintro a b ⟨hmem, htype, hvalue⟩
    have htype : x509NameAttrType a.oid = x509NameAttrType b.oid := htype
    have hmem' : b.oid ∈ keptOids := by
      rw [← x509NameAttrType_kept, ← htype]
      exact (x509NameAttrType_kept a.oid).mpr hmem
    exact ⟨x509NameAttrType_injective hmem hmem' htype, hvalue⟩
  · intro hno
    rw [x509NameCompare_swap hno]
    cases x509NameCompare alloc n n' <;> decide

/-! ## Names that are written -/

def textAttribute (oid : List Nat) (value : String) : NameAttribute := ⟨oid, [0x0c], ascii value⟩

def attributeContent (a : NameAttribute) : Bytes := short 0x06 (Der.oid a.oid) ++ short 0x0c a.value

def rdnContent (rdn : List NameAttribute) : Bytes := rdn.flatMap fun a => short 0x30 (attributeContent a)

def nameContent (rdns : List (List NameAttribute)) : Bytes :=
  rdns.flatMap fun rdn => short 0x31 (rdnContent rdn)

def ShortName (rdns : List (List NameAttribute)) : Prop :=
  (nameContent rdns).length < 128 ∧ ∀ rdn ∈ rdns, (rdnContent rdn).length < 128 ∧ ∀ a ∈ rdn,
    a.identifier = [0x0c] ∧ (Der.oid a.oid).length < 128 ∧ a.value.length < 128 ∧
      (attributeContent a).length < 128

instance (rdns : List (List NameAttribute)) : Decidable (ShortName rdns) := inferInstanceAs (Decidable (_ ∧ _))

theorem nameOctets_short {rdns : List (List NameAttribute)} (h : ShortName rdns) :
    NameOctets rdns (short 0x30 (nameContent rdns)) := by
  refine .mk (concat_flatMap rdns fun rdn hrdn => ?_) (element_short h.1)
  obtain ⟨hlen, hattrs⟩ := h.2 rdn hrdn
  refine .mk (concat_flatMap rdn fun a ha => ?_) (element_short hlen)
  obtain ⟨hid, hoid, hvalue, hcontent⟩ := hattrs a ha
  refine .mk (element_short hoid) ?_ ?_ (element_short hcontent)
  · rw [hid]
    exact .low (by decide)
  · rw [hid]
    exact (element_short hvalue).tlv

def plainName : List (List NameAttribute) := [[textAttribute [2, 5, 4, 3] "a"]]

def titledName : List (List NameAttribute) := plainName ++ [[textAttribute [2, 5, 4, 12] "b"]]

def otherName : List (List NameAttribute) := [[textAttribute [2, 5, 4, 6] "a"]]

def textName (type : X509NameAttrType) : X509Name := { attr := [(type, ascii "a")], email := none }

theorem x509_names_match_plain : x509NameCompare true (textName .cn) (textName .cn) = .eq ∧
    List.Forall₂ SameAttribute (kept plainName) (kept titledName) := by
  have heq : x509NameCompare true (textName .cn) (textName .cn) = .eq := by decide +kernel
  refine ⟨heq, ((x509_names_match true plainName titledName _ _ [] [] (textName .cn) (textName .cn) [] []
    (nameOctets_short ?_) (nameOctets_short ?_) ?_ ?_ ?_ ?_).1 heq).1⟩
  · decide +kernel
  · decide +kernel
  · decide +kernel
  · decide +kernel
  · decide +kernel
  · decide +kernel

/-- Names with and without a title compare as equal, and a common name and a country are less both ways. -/
theorem x509_names_differ :
    (NameOctets plainName (short 0x30 (nameContent plainName)) ∧
      NameOctets titledName (short 0x30 (nameContent titledName)) ∧
      ¬ List.Forall₂ (List.Forall₂ SameAttribute) plainName titledName ∧
      x509ReadName (short 0x30 (nameContent plainName)) = .ok (textName .cn, []) ∧
      x509ReadName (short 0x30 (nameContent titledName)) = .ok (textName .cn, []) ∧
      x509NameCompare true (textName .cn) (textName .cn) = .eq) ∧
    NameOctets otherName (short 0x30 (nameContent otherName)) ∧
    x509ReadName (short 0x30 (nameContent otherName)) = .ok (textName .c, []) ∧
    x509NameCompare true (textName .cn) (textName .c) = .lt ∧
    x509NameCompare true (textName .c) (textName .cn) = .lt := by
  refine ⟨⟨nameOctets_short (by decide +kernel), nameOctets_short (by decide +kernel), fun hall => ?_,
    by decide +kernel, by decide +kernel, by decide +kernel⟩, nameOctets_short (by decide +kernel),
    by decide +kernel, by decide +kernel, by decide +kernel⟩
  exact absurd hall.length_eq (by decide)

end Hostap
