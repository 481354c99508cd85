import Hostap.Dpp.Uri

/-!
# The channel list of a URI

`IsChanList` is a list as it is meant: pairs of decimal numbers with a `/` between them and a `,` between two
pairs. `UriChanList` is what a URI with such a list, or without one, says of the frequencies.

`LooseList` is what the loop of the code asks of the text from the list on to the end of the URI. Both numbers
of a pair are what `atoi()` makes of the text; the second one is behind the next `/`, also when that stands in
another parameter.
-/

namespace Hostap

open Octets Output Common List

/-! ## The list as it is meant -/

/-- A positive number in decimal. -/
structure IsDecimal (digits : Bytes) : Prop where
  all : ∀ c ∈ digits, isDigit c = true
  pos : 0 < digitsValue 0 digits

/-- Pairs with `/` and `,`. -/
def pairsText : List (Bytes × Bytes) → Bytes
  | [] => []
  | [p] => p.1 ++ 0x2f :: p.2
  | p :: ps => p.1 ++ 0x2f :: p.2 ++ 0x2c :: pairsText ps

/-- The text is a list of these pairs. -/
structure IsChanList (text : Bytes) (pairs : List (Bytes × Bytes)) : Prop where
  eq : text = pairsText pairs
  decimal : ∀ p ∈ pairs, IsDecimal p.1 ∧ IsDecimal p.2

def limited (freqs : List Nat) : List Nat := if dppBootstrapMaxFreq < freqs.length then [] else freqs

def knownFreqs (pairs : List (Bytes × Bytes)) : List Nat :=
  pairs.filterMap fun p => ieee80211ChanToFreq (digitsValue 0 p.1) (digitsValue 0 p.2)

/-- The frequencies that the parameter stands for. -/
inductive UriChanList : Option Bytes → List Nat → Prop
  | absent : UriChanList none []
  | given {text : Bytes} {pairs : List (Bytes × Bytes)} (h : IsChanList text pairs) :
      UriChanList (some text) (limited (knownFreqs pairs))

/-! ## The list as it is read -/

/-- A pair of the text: numbers for `atoi()`, the second one behind the next `/`. -/
structure LoosePair (pos : Bytes) (opclass channel : Int) (rest : Bytes) : Prop where
  opclass_pos : 0 < opclass
  channel_pos : 0 < channel
  opclass : atoi pos = opclass
  split : ∃ front back, pos = front ++ 0x2f :: back ∧ 0x2f ∉ front ∧ atoi back = channel ∧
    rest = back.dropWhile isDigit

/-- A text that is read as a list, with the number of known channels in front of it. -/
inductive LooseList : Nat → Bytes → Prop
  /-- Nothing, also behind a `,`. -/
  | nil {n : Nat} : LooseList n []
  | semicolon {n : Nat} {text : Bytes} : LooseList n (0x3b :: text)
  /-- With one channel too many, what follows is not read. -/
  | full {pos rest : Bytes} {opclass channel : Int} (h : LoosePair pos opclass channel rest)
      (hknown : (uriChanToFreq opclass channel).isSome) : LooseList dppBootstrapMaxFreq pos
  | last {n : Nat} {pos rest : Bytes} {opclass channel : Int} (h : LoosePair pos opclass channel rest)
      (hrest : rest = [] ∨ rest.head? = some 0x3b) : LooseList n pos
  | more {n : Nat} {pos rest : Bytes} {opclass channel : Int} (h : LoosePair pos opclass channel (0x2c :: rest))
      (hrest : LooseList (n + (uriChanToFreq opclass channel).toList.length) rest) : LooseList n pos

/-- An `int` with the value of a decimal number, as `atoi()` has it. -/
def asInt (n : Nat) : Int := (max (-2 ^ 63) (min (2 ^ 63 - 1) (n : Int))).bmod (2 ^ 32)

def pairInts (pairs : List (Bytes × Bytes)) : List (Int × Int) :=
  pairs.map fun p => (asInt (digitsValue 0 p.1), asInt (digitsValue 0 p.2))

/-- The pairs up to the one with which the list has more than `n` known channels. -/
def untilFull : Nat → List (Int × Int) → List (Int × Int)
  | _, [] => []
  | n, p :: ps =>
    p :: if (uriChanToFreq p.1 p.2).isSome ∧ n = 0 then []
      else untilFull (n - (uriChanToFreq p.1 p.2).toList.length) ps

/-- The numbers that are read of a list are positive, and stand for the same frequencies as octets. -/
structure FitsInt (pairs : List (Bytes × Bytes)) : Prop where
  pos : ∀ p ∈ untilFull dppBootstrapMaxFreq (pairInts pairs), 0 < p.1 ∧ 0 < p.2
  known : limited ((pairInts pairs).filterMap fun p => uriChanToFreq p.1 p.2) = limited (knownFreqs pairs)

/-- What the code does not ask of a channel list and what is behind it. -/
structure PlainChanList (text rest : Bytes) : Prop where
  fits : ∀ pairs, IsChanList text pairs → FitsInt pairs
  isList : LooseList 0 (uriText (text, rest)) → ∃ pairs, IsChanList text pairs

/-! ## One pair -/

theorem plain_of_isDigit {c : UInt8} (h : isDigit c = true) : isSpace c = false ∧ c ≠ 0x2d ∧ c ≠ 0x2b := by
  have hall : ∀ n : Fin 256, isDigit (UInt8.ofNat n) = true →
      isSpace (UInt8.ofNat n) = false ∧ UInt8.ofNat n ≠ 0x2d ∧ UInt8.ofNat n ≠ 0x2b := by decide +kernel
  have hc := hall ⟨c.toNat, c.toNat_lt⟩
  rw [show UInt8.ofNat c.toNat = c from UInt8.ofNat_toNat] at hc
  exact hc h

theorem ends_of_plain {c : UInt8} {rest : Bytes} (hspace : isSpace c = false)
    (hc : ((hex2num c).isNone && c != 0x2b && c != 0x2d && c != 0x3a && c != 0x58 && c != 0x78) = true) :
    Ends (c :: rest) := by
  intro d hd
  rw [dropWhile_cons, hspace] at hd
  obtain rfl : c = d := Option.some_inj.mp hd
  simpa [and_assoc] using hc

theorem readUriPair_iff {pos rest : Bytes} {a b : Int} :
    readUriPair pos = some (a, b, rest) ↔ LoosePair pos a b rest := by
  unfold readUriPair
  constructor
  · intro h
    by_cases ha : atoi pos ≤ 0
    · rw [if_pos ha] at h
      cases h
    rw [if_neg ha] at h
    cases hslash : strchr 0x2f pos with
    | none =>
      rw [hslash] at h
      cases h
    | some slash =>
      obtain ⟨front, back, hpos, hfront, rfl⟩ := strchr_eq_some hslash
      rw [hslash] at h
      dsimp only at h
      rw [drop_succ_cons, drop_zero] at h
      by_cases hb : atoi back ≤ 0
      · rw [if_pos hb] at h
        cases h
      rw [if_neg hb, Option.some_inj] at h
      obtain ⟨rfl, rfl, rfl⟩ := h
      exact ⟨by omega, by omega, rfl, front, back, hpos, hfront, rfl, rfl⟩
  · rintro ⟨ha, hb, rfl, front, back, rfl, hfront, rfl, rfl⟩
    rw [if_neg (by omega), strchr_cons hfront]
    dsimp only
    rw [drop_succ_cons, drop_zero, if_neg (by omega)]

theorem atoi_decimal {digits rest : Bytes} (h : IsDecimal digits) (hrest : Ends rest) :
    atoi (digits ++ rest) = asInt (digitsValue 0 digits) := by
  rw [atoi_append hrest]
  unfold atoi asInt
  rw [strtol_eq]
  match digits, h with
  | [], h => exact absurd h.pos (by decide)
  | c :: digits, h =>
    have hc := h.all c mem_cons_self
    obtain ⟨hspace, hminus, hplus⟩ := plain_of_isDigit hc
    have hsign : strtolSign (c :: digits) = (false, c :: digits) := by
      unfold strtolSign
      split
      · rename_i heq
        exact absurd (List.cons.inj heq).1 hminus
      · rename_i heq
        exact absurd (List.cons.inj heq).1 hplus
      · rfl
    rw [dropWhile_cons, hspace]
    simp only [Bool.false_eq_true, if_false, hsign]

theorem readUriPair_decimal {digits digits' : Bytes} {c : UInt8} (rest : Bytes) (h : IsDecimal digits)
    (h' : IsDecimal digits') (hc : c = 0x2c ∨ c = 0x3b) :
    readUriPair (digits ++ 0x2f :: (digits' ++ c :: rest)) =
      if 0 < asInt (digitsValue 0 digits) ∧ 0 < asInt (digitsValue 0 digits') then
        some (asInt (digitsValue 0 digits), asInt (digitsValue 0 digits'), c :: rest)
      else none := by
  have hslash : (0x2f : UInt8) ∉ digits := fun hmem => absurd (h.all _ hmem) (by decide)
  have hends : Ends (c :: rest) := by
    rcases hc with rfl | rfl <;> exact ends_of_plain rfl rfl
  have hskip : (digits' ++ c :: rest).dropWhile isDigit = c :: rest := by
    rw [dropWhile_append_of_pos h'.all]
    rcases hc with rfl | rfl <;> rfl
  unfold readUriPair
  rw [atoi_decimal h (ends_of_plain rfl rfl), strchr_cons hslash]
  dsimp only
  rw [drop_succ_cons, drop_zero, atoi_decimal h' hends, hskip]
  by_cases ha : 0 < asInt (digitsValue 0 digits)
  · rw [if_neg (by omega)]
    by_cases hb : 0 < asInt (digitsValue 0 digits')
    · rw [if_neg (by omega), if_pos ⟨ha, hb⟩]
    · rw [if_pos (by omega), if_neg fun h => hb h.2]
  · rw [if_pos (by omega), if_neg fun h => ha h.1]

/-! ## The loop -/

section Loop

variable {freq : List Nat} {pos rest : Bytes}

theorem chanListFrom_stop (h : pos = [] ∨ pos.head? = some 0x3b) :
    dppParseUriChanListFrom freq pos = some freq := by
  rw [dppParseUriChanListFrom, if_pos h]

def behindPair (freq : List Nat) : Bytes → Option (List Nat)
  | [] => some freq
  | c :: rest =>
    if c = 0x3b then some freq else if c ≠ 0x2c then none else dppParseUriChanListFrom freq rest

theorem LoosePair.not_stop {a b : Int} (h : LoosePair pos a b rest) : ¬ (pos = [] ∨ pos.head? = some 0x3b) := by
  rintro (rfl | hhead)
  · have hpos := h.opclass_pos
    rw [← h.opclass] at hpos
    exact absurd hpos (by decide)
  · obtain ⟨tail, rfl⟩ : ∃ tail, pos = 0x3b :: tail := by
      cases pos with
      | nil => cases hhead
      | cons c tail => exact ⟨tail, by rw [Option.some_inj.mp hhead]⟩
    have hpos := h.opclass_pos
    rw [← h.opclass, show atoi (0x3b :: tail) = 0 from atoi_append (f := []) (ends_of_plain rfl rfl)] at hpos
    exact absurd hpos (by decide)

theorem IsDecimal.not_stop {digits : Bytes} (h : IsDecimal digits) :
    ¬ (digits ++ rest = [] ∨ (digits ++ rest).head? = some 0x3b) := by
  cases digits with
  | nil => exact absurd h.pos (by decide)
  | cons c digits =>
    have hc := h.all c mem_cons_self
    rintro (hnil | hhead)
    · cases hnil
    · rw [Option.some_inj.mp hhead] at hc
      cases hc

theorem chanListFrom_none (h : ¬ (pos = [] ∨ pos.head? = some 0x3b)) (hpair : readUriPair pos = none) :
    dppParseUriChanListFrom freq pos = none := by
  rw [dppParseUriChanListFrom, if_neg h]
  split
  · rfl
  · rename_i hsome
    rw [hpair] at hsome
    cases hsome

theorem chanListFrom_pair {a b : Int} (h : LoosePair pos a b rest) : dppParseUriChanListFrom freq pos =
    if (uriChanToFreq a b).isSome ∧ freq.length = dppBootstrapMaxFreq then some []
    else behindPair (freq ++ (uriChanToFreq a b).toList) rest := by
  rw [dppParseUriChanListFrom, if_neg h.not_stop]
  split
  · rename_i hnone
    rw [readUriPair_iff.mpr h] at hnone
    cases hnone
  · rename_i hsome
    obtain ⟨rfl, rfl, rfl⟩ := Option.some_inj.mp (hsome.symm.trans (readUriPair_iff.mpr h))
    dsimp only
    cases rest <;> rfl

theorem length_append_known {known : Option Nat} (hfreq : freq.length ≤ dppBootstrapMaxFreq)
    (hfull : ¬ (known.isSome ∧ freq.length = dppBootstrapMaxFreq)) :
    (freq ++ known.toList).length ≤ dppBootstrapMaxFreq := by
  rw [length_append]
  cases known with
  | none => exact hfreq
  | some f =>
    have hne : freq.length ≠ dppBootstrapMaxFreq := fun h => hfull ⟨rfl, h⟩
    show freq.length + 1 ≤ _
    omega

theorem chanListFrom_isSome_iff (hfreq : freq.length ≤ dppBootstrapMaxFreq) :
    (dppParseUriChanListFrom freq pos).isSome ↔ LooseList freq.length pos := by
  constructor
  · induction hn : pos.length using Nat.strong_induction_on generalizing freq pos with
    | _ n ih =>
      subst hn
      intro hsome
      by_cases hstop : pos = [] ∨ pos.head? = some 0x3b
      · rcases hstop with rfl | hhead
        · exact .nil
        · cases pos with
          | nil => exact .nil
          | cons c tail =>
            obtain rfl := Option.some_inj.mp hhead
            exact .semicolon
      cases hpair : readUriPair pos with
      | none =>
        rw [chanListFrom_none hstop hpair] at hsome
        cases hsome
      | some found =>
        obtain ⟨a, b, rest⟩ := found
        have hloose := readUriPair_iff.mp hpair
        have hshort := readUriPair_length hpair
        rw [chanListFrom_pair hloose] at hsome
        by_cases hfull : (uriChanToFreq a b).isSome ∧ freq.length = dppBootstrapMaxFreq
        · rw [hfull.2]
          exact .full hloose hfull.1
        rw [if_neg hfull] at hsome
        cases rest with
        | nil => exact .last hloose (.inl rfl)
        | cons c rest =>
          rw [behindPair] at hsome
          by_cases hend : c = 0x3b
          · exact .last hloose (.inr (by rw [hend]; rfl))
          rw [if_neg hend] at hsome
          by_cases hcomma : c = 0x2c
          swap
          · rw [if_pos hcomma] at hsome
            cases hsome
          subst hcomma
          rw [if_neg (not_not.mpr rfl)] at hsome
          rw [length_cons] at hshort
          have hrest := ih rest.length (by omega) (length_append_known hfreq hfull) rfl hsome
          rw [length_append] at hrest
          exact .more hloose hrest
  · intro hlist
    generalize hn : freq.length = n at hlist
    induction hlist generalizing freq with
    | nil =>
      rw [chanListFrom_stop (.inl rfl)]
      rfl
    | semicolon =>
      rw [chanListFrom_stop (.inr rfl)]
      rfl
    | full h hknown =>
      rw [chanListFrom_pair h, if_pos ⟨hknown, hn⟩]
      rfl
    | @last n pos rest a b h hrest =>
      rw [chanListFrom_pair h]
      by_cases hfull : (uriChanToFreq a b).isSome ∧ freq.length = dppBootstrapMaxFreq
      · rw [if_pos hfull]
        rfl
      rw [if_neg hfull]
      rcases hrest with rfl | hhead
      · rfl
      · cases rest with
        | nil => rfl
        | cons c rest =>
          rw [behindPair, if_pos (Option.some_inj.mp hhead)]
          rfl
    | @more n pos rest a b h _ ih =>
      rw [chanListFrom_pair h]
      by_cases hfull : (uriChanToFreq a b).isSome ∧ freq.length = dppBootstrapMaxFreq
      · rw [if_pos hfull]
        rfl
      rw [if_neg hfull, behindPair, if_neg (by decide), if_neg (not_not.mpr rfl)]
      refine ih (length_append_known hfreq hfull) ?_
      rw [length_append, hn]

/-! ## Lists as they are meant -/

theorem slash_mem_pairsText (p : Bytes × Bytes) (ps : List (Bytes × Bytes)) : 0x2f ∈ pairsText (p :: ps) := by
  cases ps <;> simp [pairsText]

theorem pairsText_cons (p : Bytes × Bytes) (ps : List (Bytes × Bytes)) (rest : Bytes) :
    ∃ c tail, (c = 0x2c ∨ c = 0x3b) ∧
      pairsText (p :: ps) ++ 0x3b :: rest = p.1 ++ 0x2f :: (p.2 ++ c :: tail) ∧
      ∀ freq, behindPair freq (c :: tail) = dppParseUriChanListFrom freq (pairsText ps ++ 0x3b :: rest) := by
  cases ps with
  | nil =>
    refine ⟨0x3b, rest, .inr rfl, by simp [pairsText], fun freq => ?_⟩
    rw [behindPair, if_pos rfl]
    exact (chanListFrom_stop (.inr rfl)).symm
  | cons q ps =>
    refine ⟨0x2c, pairsText (q :: ps) ++ 0x3b :: rest, .inl rfl, by simp [pairsText], fun freq => ?_⟩
    rw [behindPair, if_neg (by decide), if_neg (not_not.mpr rfl)]

theorem untilFull_zero {x : Int × Int} (xs : List (Int × Int)) (h : (uriChanToFreq x.1 x.2).isSome) :
    untilFull 0 (x :: xs) = [x] := by
  rw [untilFull, if_pos ⟨h, rfl⟩]

theorem untilFull_cons {x : Int × Int} (xs : List (Int × Int)) (hfreq : freq.length ≤ dppBootstrapMaxFreq)
    (hfull : ¬ ((uriChanToFreq x.1 x.2).isSome ∧ freq.length = dppBootstrapMaxFreq)) :
    untilFull (dppBootstrapMaxFreq - freq.length) (x :: xs) =
      x :: untilFull (dppBootstrapMaxFreq - (freq ++ (uriChanToFreq x.1 x.2).toList).length) xs := by
  have hroom : ¬ ((uriChanToFreq x.1 x.2).isSome ∧ dppBootstrapMaxFreq - freq.length = 0) :=
    fun h => hfull ⟨h.1, by omega⟩
  rw [untilFull, if_neg hroom, length_append, Nat.sub_add_eq]

theorem chanListFrom_pairsText {pairs : List (Bytes × Bytes)} (rest : Bytes)
    (hpairs : ∀ p ∈ pairs, IsDecimal p.1 ∧ IsDecimal p.2) (hfreq : freq.length ≤ dppBootstrapMaxFreq) :
    dppParseUriChanListFrom freq (pairsText pairs ++ 0x3b :: rest) =
      if ∀ p ∈ untilFull (dppBootstrapMaxFreq - freq.length) (pairInts pairs), 0 < p.1 ∧ 0 < p.2 then
        some (limited (freq ++ (pairInts pairs).filterMap fun p => uriChanToFreq p.1 p.2))
      else none := by
  induction pairs generalizing freq with
  | nil =>
    rw [if_pos (fun p hp => by cases hp), show pairInts [] = [] from rfl, filterMap_nil, append_nil]
    unfold limited
    rw [if_neg (by omega)]
    exact chanListFrom_stop (.inr rfl)
  | cons p ps ih =>
    obtain ⟨hd, hd'⟩ := hpairs p mem_cons_self
    obtain ⟨c, tail, hc, htext, hbehind⟩ := pairsText_cons p ps rest
    have hread := readUriPair_decimal tail hd hd' hc
    have hints : pairInts (p :: ps) =
        (asInt (digitsValue 0 p.1), asInt (digitsValue 0 p.2)) :: pairInts ps := rfl
    rw [htext, hints]
    generalize asInt (digitsValue 0 p.1) = a at hread ⊢
    generalize asInt (digitsValue 0 p.2) = b at hread ⊢
    by_cases hpos : 0 < a ∧ 0 < b
    swap
    · rw [if_neg hpos] at hread
      rw [chanListFrom_none hd.not_stop hread, if_neg fun hall => hpos (hall (a, b) mem_cons_self)]
    rw [if_pos hpos] at hread
    have hloose := readUriPair_iff.mp hread
    rw [chanListFrom_pair hloose]
    by_cases hfull : (uriChanToFreq a b).isSome ∧ freq.length = dppBootstrapMaxFreq
    · obtain ⟨f, hf⟩ := Option.isSome_iff_exists.mp hfull.1
      rw [if_pos hfull, hfull.2, Nat.sub_self, untilFull_zero (pairInts ps) hfull.1, if_pos]
      · rw [filterMap_cons, hf]
        unfold limited
        rw [if_pos]
        rw [length_append, hfull.2]
        show 30 < 30 + (_ + 1)
        omega
      · intro x hx
        rw [mem_singleton.mp hx]
        exact hpos
    rw [if_neg hfull, hbehind, untilFull_cons (x := (a, b)) (pairInts ps) hfreq hfull,
      ih (fun q hq => hpairs q (mem_cons_of_mem _ hq)) (length_append_known hfreq hfull)]
    have hfreqs : freq ++ (uriChanToFreq a b).toList ++
        (pairInts ps).filterMap (fun p => uriChanToFreq p.1 p.2) =
          freq ++ ((a, b) :: pairInts ps).filterMap fun p => uriChanToFreq p.1 p.2 := by
      rw [append_assoc, filterMap_cons]
      cases uriChanToFreq a b <;> rfl
    rw [hfreqs]
    refine if_congr ?_ rfl rfl
    rw [forall_mem_cons]
    exact ⟨fun h => ⟨hpos, h⟩, fun h => h.2⟩

theorem chanList_eq_iff {text : Bytes} {pairs : List (Bytes × Bytes)} (rest : Bytes)
    (h : IsChanList text pairs) :
    dppParseUriChanListFrom [] (uriText (text, rest)) = some (limited (knownFreqs pairs)) ↔ FitsInt pairs := by
  have hempty : ([] : List Nat).length ≤ dppBootstrapMaxFreq := Nat.zero_le _
  have hrun := chanListFrom_pairsText rest h.decimal hempty
  rw [← h.eq, length_nil, Nat.sub_zero, nil_append] at hrun
  rw [show uriText (text, rest) = text ++ 0x3b :: rest from rfl, hrun]
  constructor
  · intro heq
    obtain ⟨hpos, heq⟩ := Option.ite_none_right_eq_some.mp heq
    exact ⟨hpos, Option.some_inj.mp heq⟩
  · rintro ⟨hpos, heq⟩
    exact (if_pos hpos).trans (congrArg some heq)

theorem chanList_iff (text rest : Bytes) :
    (∀ freq, dppParseUriChanListFrom [] (uriText (text, rest)) = some freq ↔ UriChanList (some text) freq) ↔
      PlainChanList text rest := by
  have hloose : (dppParseUriChanListFrom [] (uriText (text, rest))).isSome ↔
      LooseList 0 (uriText (text, rest)) := chanListFrom_isSome_iff (Nat.zero_le _)
  constructor
  · intro h
    constructor
    · intro pairs hlist
      exact (chanList_eq_iff rest hlist).mp ((h _).mpr (.given hlist))
    · intro hread
      obtain ⟨freq, hfreq⟩ := Option.isSome_iff_exists.mp (hloose.mpr hread)
      cases (h freq).mp hfreq with
      | given hlist => exact ⟨_, hlist⟩
  · intro h freq
    constructor
    · intro hfreq
      obtain ⟨pairs, hlist⟩ := h.isList (hloose.mp (Option.isSome_iff_exists.mpr ⟨freq, hfreq⟩))
      have heq := (chanList_eq_iff rest hlist).mpr (h.fits pairs hlist)
      rw [Option.some_inj.mp (hfreq.symm.trans heq)]
      exact .given hlist
    · intro hlist
      cases hlist with
      | given hlist => exact (chanList_eq_iff rest hlist).mpr (h.fits _ hlist)

end Loop

/-! ## The URI -/

theorem dppParseUri_freq {Pk : Type} {spki : Bytes → Option Pk} {body : Bytes}
    (hpk : ∃ x, firstParamAt .pk body = some x ∧ (dppParseUriPk spki (uriText x)).isSome)
    (hmac : ∀ x, firstParamAt .mac body = some x → (dppParseUriMac (some (uriText x))).isSome)
    (hinfo : ∀ x, firstParamAt .info body = some x → (dppParseUriInfo (some (uriText x))).isSome) :
    (dppParseUri spki (ascii "DPP:" ++ body)).map (·.freq) =
      dppParseUriChanList ((firstParamAt .chanList body).map uriText) := by
  obtain ⟨pk, hpk, hpubkey⟩ := hpk
  obtain ⟨pubkey, hpubkey⟩ := Option.isSome_iff_exists.mp hpubkey
  have hscan (key : UriKey) : (dppUriScan .empty body).get key = (firstParamAt key body).map uriText := by
    rw [dppUriScan_get]
    cases key <;> rfl
  have hp : (dppUriScan .empty body).pk = some (uriText pk) := by
    rw [show (dppUriScan .empty body).pk = _ from hscan .pk, hpk]
    rfl
  obtain ⟨macAddr, hm⟩ : ∃ macAddr, dppParseUriMac (dppUriScan .empty body).mac = some macAddr := by
    rw [show (dppUriScan .empty body).mac = _ from hscan .mac]
    cases hfound : firstParamAt .mac body with
    | none => exact ⟨_, rfl⟩
    | some x => exact Option.isSome_iff_exists.mp (hmac x hfound)
  obtain ⟨info, hi⟩ : ∃ info, dppParseUriInfo (dppUriScan .empty body).info = some info := by
    rw [show (dppUriScan .empty body).info = _ from hscan .info]
    cases hfound : firstParamAt .info body with
    | none => exact ⟨_, rfl⟩
    | some x => exact Option.isSome_iff_exists.mp (hinfo x hfound)
  have hprefix : (ascii "DPP:" ++ body).take 4 = ascii "DPP:" := take_left' (by decide)
  have hdrop : (ascii "DPP:" ++ body).drop 4 = body := drop_left' (by decide)
  unfold dppParseUri
  rw [if_neg (not_not.mpr hprefix), hdrop]
  dsimp only
  rw [hp, ← show (dppUriScan .empty body).chanList = _ from hscan .chanList]
  cases hchan : dppParseUriChanList (dppUriScan .empty body).chanList with
  | none => rfl
  | some freq => simp [hm, hi, hpubkey]

/-- The frequencies are those of the channel list, and a URI with another list is refused, exactly where the
list is one that the code does not read in another way. -/
theorem dppParseUri_chanList_iff {Pk : Type} (spki : Bytes → Option Pk) (body : Bytes)
    (hpk : ∃ x, firstParamAt .pk body = some x ∧ (dppParseUriPk spki (uriText x)).isSome)
    (hmac : ∀ x, firstParamAt .mac body = some x → (dppParseUriMac (some (uriText x))).isSome)
    (hinfo : ∀ x, firstParamAt .info body = some x → (dppParseUriInfo (some (uriText x))).isSome) :
    (∀ freq, (dppParseUri spki (ascii "DPP:" ++ body)).map (·.freq) = some freq ↔
      UriChanList (firstParam .chanList body) freq) ↔
    ∀ x, firstParamAt .chanList body = some x → PlainChanList x.1 x.2 := by
  rw [dppParseUri_freq hpk hmac hinfo]
  unfold firstParam
  cases hfound : firstParamAt .chanList body with
  | none =>
    refine iff_of_true (fun freq => ?_) (fun x hx => by cases hx)
    constructor
    · intro h
      cases h
      exact .absent
    · rintro ⟨⟩
      rfl
  | some x =>
    rw [Option.map_some, Option.map_some, show dppParseUriChanList _ = dppParseUriChanListFrom [] _ from rfl,
      chanList_iff x.1 x.2]
    constructor
    · intro h y hy
      rw [← Option.some_inj.mp hy]
      exact h
    · intro h
      exact h x rfl

theorem dppParseUri_chanList_iff_small :
    (∀ x, firstParamAt .chanList (ascii "C:;M:01-02-03-04-05-06;I:a;K:AAAA;;") = some x →
      PlainChanList x.1 x.2) ∧
    ∀ freq, (dppParseUri (fun _ => some ())
        (ascii "DPP:" ++ ascii "C:;M:01-02-03-04-05-06;I:a;K:AAAA;;")).map (·.freq) = some freq ↔
      UriChanList (some []) freq := by
  have hplain : ∀ x, firstParamAt .chanList (ascii "C:;M:01-02-03-04-05-06;I:a;K:AAAA;;") = some x →
      PlainChanList x.1 x.2 := by
    intro x hx
    obtain rfl := Option.some_inj.mp hx
    refine ⟨?_, fun _ => ⟨[], rfl, fun p hp => by cases hp⟩⟩
    intro pairs hlist
    cases pairs with
    | nil =>
      refine ⟨?_, rfl⟩
      intro p hp
      cases hp
    | cons p ps =>
      have hmem := slash_mem_pairsText p ps
      rw [← hlist.eq] at hmem
      cases hmem
  refine ⟨hplain, (dppParseUri_chanList_iff (fun _ => some ())
    (ascii "C:;M:01-02-03-04-05-06;I:a;K:AAAA;;") ⟨(ascii "AAAA", ascii ";"), by decide, by decide⟩
    ?_ ?_).mpr hplain⟩
  · intro x hx
    obtain rfl := Option.some_inj.mp hx
    decide
  · intro x hx
    obtain rfl := Option.some_inj.mp hx
    decide

/-- A channel is put together from two parameters. -/
theorem dppParseUri_otherParam :
    (dppParseUri (fun _ => some ()) (ascii "DPP:" ++ ascii "C:81;I:a/6;K:AAAA;;")).map (·.freq) = some [2437] ∧
      ∀ freq, ¬ UriChanList (firstParam .chanList (ascii "C:81;I:a/6;K:AAAA;;")) freq := by
  constructor
  · rw [dppParseUri_freq ⟨(ascii "AAAA", ascii ";"), by decide, by decide⟩ ?_ ?_]
    · have hfound : (firstParamAt .chanList (ascii "C:81;I:a/6;K:AAAA;;")).map uriText =
          some (ascii "81;I:a/6;K:AAAA;;") := by decide
      have hpair : readUriPair (ascii "81;I:a/6;K:AAAA;;") = some (81, 6, ascii ";K:AAAA;;") := by decide
      rw [hfound]
      exact (chanListFrom_pair (readUriPair_iff.mp hpair)).trans (by decide)
    · intro x hx
      cases hx
    · intro x hx
      obtain rfl := Option.some_inj.mp hx
      decide
  · intro freq hlist
    rw [show firstParam .chanList (ascii "C:81;I:a/6;K:AAAA;;") = some (ascii "81") by decide] at hlist
    cases hlist with
    | @given _ pairs hlist =>
      have htext := hlist.eq
      cases pairs with
      | nil => exact absurd htext (by decide)
      | cons p ps =>
        have hmem := slash_mem_pairsText p ps
        rw [← htext] at hmem
        exact absurd hmem (by decide)

end Hostap
