import Hostap.Lib.Output

/-!
# Octet strings as text

C strings and the conversions of `utils/common.c` between octets and hexadecimal text.

A C string is the list of its octets before the NUL; `cString` takes it out of a buffer, and the end of the
list is where the NUL is read. `hex2byte_hexDigits` reads back the digits printed for an octet.
-/

namespace Hostap

namespace Common

open Octets Output List

/-! ## C strings -/

def cString (buf : Bytes) : Bytes := buf.takeWhile fun c => c ≠ 0

/-- `os_strchr()`: the string from the first such character on. -/
def strchr (c : UInt8) : Bytes → Option Bytes
  | [] => none
  | b :: s => if b = c then some (b :: s) else strchr c s

/-- `os_strrchr()`: the string from the last such character on. -/
def strrchr (c : UInt8) : Bytes → Option Bytes
  | [] => none
  | b :: s =>
    match strrchr c s with
    | some t => some t
    | none => if b = c then some (b :: s) else none

/-- `os_strstr()`: the string from the first such text on. -/
def strstr (needle : Bytes) : Bytes → Option Bytes
  | [] => if needle = [] then some [] else none
  | b :: s => if needle.isPrefixOf (b :: s) then some (b :: s) else strstr needle s

/-! ## Hexadecimal text -/

def hex2num (c : UInt8) : Option Nat :=
  if 0x30 ≤ c ∧ c ≤ 0x39 then some (c.toNat - 0x30)
  else if 0x61 ≤ c ∧ c ≤ 0x66 then some (c.toNat - 0x61 + 10)
  else if 0x41 ≤ c ∧ c ≤ 0x46 then some (c.toNat - 0x41 + 10)
  else none

def hex2byte : Bytes → Option Nat
  | a :: b :: _ => do
    let a ← hex2num a
    let b ← hex2num b
    some (a * 16 + b)
  | _ => none

/-- The octets that are stored when all of them can be read. -/
def hexstr2bin : Nat → Bytes → Option Bytes
  | 0, _ => some []
  | len + 1, hex => do
    let a ← hex2byte hex
    let buf ← hexstr2bin len (hex.drop 2)
    some (UInt8.ofNat a :: buf)

def hwaddrParse : Nat → Bytes → Option (Bytes × Bytes)
  | 0, txt => some ([], txt)
  | 1, txt => do
    let a ← hex2byte txt
    some ([UInt8.ofNat a], txt.drop 2)
  | n + 2, txt => do
    let a ← hex2byte txt
    match txt.drop 2 with
    | 0x3a :: txt => do
      let (addr, txt) ← hwaddrParse (n + 1) txt
      some (UInt8.ofNat a :: addr, txt)
    | _ => none

def hwaddrAton (txt : Bytes) : Option Bytes := (hwaddrParse 6 txt).map Prod.fst

/-! ## Decimal text -/

/-- `isspace()` of the C locale. -/
def isSpace (c : UInt8) : Bool := c == 0x20 || (9 ≤ c && c ≤ 13)

/-- `isdigit()`. -/
def isDigit (c : UInt8) : Bool := 0x30 ≤ c && c ≤ 0x39

/-- The decimal digits at the front, continued from `acc`. -/
def digitsValue (acc : Nat) : Bytes → Nat
  | [] => acc
  | c :: s => if isDigit c then digitsValue (acc * 10 + (c.toNat - 0x30)) s else acc

/-- `strtol()` to the base of ten: the value within the range of a `long`. -/
def strtol (s : Bytes) : Int :=
  let value : Int :=
    match s.dropWhile isSpace with
    | 0x2d :: t => -digitsValue 0 t
    | 0x2b :: t => digitsValue 0 t
    | t => digitsValue 0 t
  max (-2 ^ 63) (min (2 ^ 63 - 1) value)

/-- `atoi()`: the value of `strtol()` as an `int`. -/
def atoi (s : Bytes) : Int := (strtol s).bmod (2 ^ 32)

/-- The digits to a base at the front, continued from `acc`, and what is behind them. -/
def digitsIn (base acc : Nat) : Bytes → Nat × Bytes
  | [] => (acc, [])
  | c :: s =>
    match hex2num c with
    | some d => if d < base then digitsIn base (acc * base + d) s else (acc, c :: s)
    | none => (acc, c :: s)

/-- `0x` and a digit. -/
def hasHexPrefix : Bytes → Bool
  | z :: x :: h :: _ => z == 0x30 && (x == 0x78 || x == 0x58) && (hex2num h).isSome
  | _ => false

/-- The base that the front of a number tells, and its digits. `none` if there are none. -/
def strtolBase (t : Bytes) : Option (Nat × Bytes) :=
  if hasHexPrefix t then some (16, t.drop 2)
  else
    match t with
    | [] => none
    | c :: _ => if c = 0x30 then some (8, t) else if isDigit c then some (10, t) else none

def strtolSign : Bytes → Bool × Bytes
  | 0x2d :: t => (true, t)
  | 0x2b :: t => (false, t)
  | t => (false, t)

/-- `strtol()` where the text tells the base, with `*endptr`: the whole text where there is no number. -/
def strtolAny (s : Bytes) : Int × Bytes :=
  let (negative, t) := strtolSign (s.dropWhile isSpace)
  match strtolBase t with
  | none => (0, s)
  | some (base, t) =>
    let (value, endptr) := digitsIn base 0 t
    (max (-2 ^ 63) (min (2 ^ 63 - 1) (if negative then -(value : Int) else value)), endptr)

variable {c : UInt8} {s : Bytes}

theorem cString_append (h : 0 ∉ s) (rest : Bytes) : cString (s ++ 0 :: rest) = s := by
  unfold cString
  rw [takeWhile_append_of_pos]
  · simp
  · intro b hb
    apply decide_eq_true
    rintro rfl
    exact h hb

theorem strrchr_last (s : Bytes) (c : UInt8) : strrchr c (s ++ [c]) = some [c] := by
  induction s with
  | nil => simp [strrchr]
  | cons b s ih =>
    rw [cons_append, strrchr, ih]

theorem hex2num_hexDigit {n : Nat} (h : n < 16) : hex2num (hexDigit n) = some n := by
  have hall : ∀ m : Fin 16, hex2num (hexDigit m) = some m.val := by decide
  exact hall ⟨n, h⟩

theorem hex2byte_hexDigits (c : UInt8) (rest : Bytes) :
    hex2byte (hexDigits 2 c.toNat ++ rest) = some c.toNat := by
  have hc := c.toNat_lt
  rw [hexDigits_two]
  simp only [cons_append, hex2byte, hex2num_hexDigit (show c.toNat / 16 < 16 by omega),
    hex2num_hexDigit (show c.toNat % 16 < 16 by omega), Option.bind_eq_bind, Option.bind_some,
    Option.some.injEq]
  omega

/-! ## Text that no conversion goes into -/

/-- Behind spaces, if any, there is neither a digit nor anything else that a number or an address goes on
with. -/
def Ends (x : Bytes) : Prop :=
  ∀ c, (x.dropWhile isSpace).head? = some c →
    hex2num c = none ∧ c ≠ 0x2b ∧ c ≠ 0x2d ∧ c ≠ 0x3a ∧ c ≠ 0x58 ∧ c ≠ 0x78

variable {x f : Bytes}

theorem hex2num_of_isSpace (h : isSpace c = true) : hex2num c = none ∧ c ≠ 0x3a ∧ c ≠ 0x58 ∧ c ≠ 0x78 := by
  simp only [isSpace, Bool.or_eq_true, Bool.and_eq_true, beq_iff_eq, decide_eq_true_eq] at h
  have hle : c.toNat ≤ 32 := by
    rcases h with rfl | ⟨-, h⟩
    · decide
    · exact le_trans (UInt8.le_iff_toNat_le.1 h) (by decide)
  have hall : ∀ n : Fin 33, hex2num (UInt8.ofNat n) = none ∧ UInt8.ofNat n ≠ 0x3a ∧ UInt8.ofNat n ≠ 0x58 ∧
      UInt8.ofNat n ≠ 0x78 := by decide
  have hc := hall ⟨c.toNat, by omega⟩
  rwa [show UInt8.ofNat c.toNat = c from UInt8.ofNat_toNat] at hc

theorem isDigit_of_hex2num (h : hex2num c = none) : isDigit c = false := by
  unfold hex2num at h
  unfold isDigit
  split_ifs at h with hdigit
  rw [Bool.and_eq_false_iff, decide_eq_false_iff_not, decide_eq_false_iff_not]
  exact not_and_or.1 hdigit

theorem Ends.head (h : Ends x) {r : Bytes} (hx : x = c :: r) :
    hex2num c = none ∧ c ≠ 0x3a ∧ c ≠ 0x58 ∧ c ≠ 0x78 := by
  cases hsp : isSpace c with
  | true => exact hex2num_of_isSpace hsp
  | false =>
    obtain ⟨hhex, -, -, hrest⟩ := h c (by rw [hx, dropWhile_cons, hsp]; rfl)
    exact ⟨hhex, hrest⟩

theorem dropWhile_append_cases (f x : Bytes) :
    (f.dropWhile isSpace = [] ∧ (f ++ x).dropWhile isSpace = x.dropWhile isSpace) ∨
    ∃ d r, f.dropWhile isSpace = d :: r ∧ isSpace d = false ∧ (f ++ x).dropWhile isSpace = d :: (r ++ x) := by
  induction f with
  | nil => exact .inl ⟨rfl, rfl⟩
  | cons d r ih =>
    rw [cons_append, dropWhile_cons, dropWhile_cons]
    cases hd : isSpace d with
    | true => exact ih
    | false => exact .inr ⟨d, r, rfl, hd, rfl⟩

theorem hex2byte_append (hx : Ends x) (f : Bytes) : hex2byte (f ++ x) = hex2byte f := by
  match f with
  | [] =>
    cases x with
    | nil => rfl
    | cons c r =>
      have hc := (hx.head rfl).1
      cases r with
      | nil => rfl
      | cons d r => simp [hex2byte, hc]
  | [a] =>
    cases x with
    | nil => rfl
    | cons c r => simp [hex2byte, (hx.head rfl).1]
  | a :: b :: f => rfl

theorem hex2byte_length {n : Nat} (h : hex2byte f = some n) : 2 ≤ f.length := by
  match f with
  | [] => cases h
  | [a] => cases h
  | a :: b :: f => exact Nat.le_add_left _ _

theorem hwaddrParse_append (hx : Ends x) (n : Nat) (f : Bytes) :
    hwaddrParse n (f ++ x) = (hwaddrParse n f).map fun r => (r.1, r.2 ++ x) := by
  induction n generalizing f with
  | zero => rfl
  | succ n ih =>
    cases n with
    | zero =>
      rw [hwaddrParse, hwaddrParse, hex2byte_append hx]
      cases h : hex2byte f with
      | none => rfl
      | some a => simp [drop_append_of_le_length (hex2byte_length h)]
    | succ n =>
      rw [hwaddrParse, hwaddrParse, hex2byte_append hx]
      cases h : hex2byte f with
      | none => rfl
      | some a =>
        rw [drop_append_of_le_length (hex2byte_length h)]
        generalize f.drop 2 = t
        cases t with
        | nil =>
          -- the text ends in front of the colon
          cases x with
          | nil => rfl
          | cons c r =>
            have hc := (hx.head rfl).2.1
            simp [hc]
        | cons c t =>
          by_cases hc : c = 0x3a
          · rw [hc]
            simp only [cons_append, Option.bind_eq_bind, Option.bind_some, ih t]
            cases hwaddrParse (n + 1) t <;> rfl
          · simp [hc]

theorem hwaddrParse_drop {n : Nat} {addr r : Bytes} (h : hwaddrParse (n + 1) f = some (addr, r)) :
    addr.length = n + 1 ∧ 3 * n + 2 ≤ f.length ∧ r = f.drop (3 * n + 2) := by
  induction n generalizing f addr with
  | zero =>
    rw [hwaddrParse] at h
    cases ha : hex2byte f with
    | none =>
      rw [ha] at h
      cases h
    | some a =>
      rw [ha] at h
      cases h
      exact ⟨rfl, hex2byte_length ha, rfl⟩
  | succ n ih =>
    rw [hwaddrParse] at h
    cases ha : hex2byte f with
    | none =>
      rw [ha] at h
      cases h
    | some a =>
      rw [ha] at h
      have hlen := hex2byte_length ha
      cases ht : f.drop 2 with
      | nil =>
        rw [ht] at h
        cases h
      | cons c t =>
        rw [ht] at h
        by_cases hc : c = 0x3a
        · subst hc
          cases hr : hwaddrParse (n + 1) t with
          | none =>
            simp only [Option.bind_eq_bind, Option.bind_some, hr] at h
            cases h
          | some q =>
            obtain ⟨addr', r'⟩ := q
            simp only [Option.bind_eq_bind, Option.bind_some, hr] at h
            cases h
            obtain ⟨haddr, hle, hdrop⟩ := ih hr
            have htail : t = f.drop 3 := by
              rw [show 3 = 2 + 1 from rfl, ← drop_drop, ht]
              rfl
            have hlen' : f.length = t.length + 3 := by
              have := congrArg List.length ht
              rw [length_drop, length_cons] at this
              omega
            refine ⟨by rw [length_cons, haddr], by omega, ?_⟩
            rw [hdrop, htail, drop_drop]
            congr 1
            omega
        · simp [hc] at h

theorem digitsIn_append (hx : Ends x) (base acc : Nat) (f : Bytes) :
    digitsIn base acc (f ++ x) = ((digitsIn base acc f).1, (digitsIn base acc f).2 ++ x) := by
  induction f generalizing acc with
  | nil =>
    cases x with
    | nil => rfl
    | cons c r => simp [digitsIn, (hx.head rfl).1]
  | cons c f ih =>
    rw [cons_append, digitsIn, digitsIn]
    cases hex2num c with
    | none => rfl
    | some d =>
      dsimp only
      split_ifs
      · exact ih _
      · rfl

theorem hasHexPrefix_append (hx : Ends x) {t : Bytes} (ht : t ≠ []) :
    hasHexPrefix (t ++ x) = hasHexPrefix t := by
  match t with
  | [] => exact absurd rfl ht
  | [a] =>
    match x with
    | [] => rfl
    | [c] => rfl
    | c :: d :: r =>
      obtain ⟨-, -, hX, hx'⟩ := hx.head rfl
      simp [hasHexPrefix, hX, hx']
  | [a, b] =>
    match x with
    | [] => rfl
    | c :: r => simp [hasHexPrefix, (hx.head rfl).1]
  | a :: b :: c :: t => rfl

theorem strtolBase_append (hx : Ends x) {t : Bytes} (ht : t ≠ []) :
    strtolBase (t ++ x) = (strtolBase t).map fun r => (r.1, r.2 ++ x) := by
  unfold strtolBase
  rw [hasHexPrefix_append hx ht]
  cases t with
  | nil => exact absurd rfl ht
  | cons c t =>
    by_cases hhex : hasHexPrefix (c :: t) = true
    · have hlen : 2 ≤ (c :: t).length := by
        match t with
        | [] => cases hhex
        | d :: t => exact Nat.le_add_left _ _
      rw [if_pos hhex, if_pos hhex, drop_append_of_le_length hlen]
      rfl
    · rw [if_neg hhex, if_neg hhex]
      dsimp only [cons_append]
      split_ifs <;> rfl

theorem strtolBase_cons (hc : hex2num c = none) (r : Bytes) : strtolBase (c :: r) = none := by
  have hzero : c ≠ 0x30 := by
    rintro rfl
    cases hc
  have hprefix : hasHexPrefix (c :: r) = false := by
    match r with
    | [] => rfl
    | [_] => rfl
    | _ :: _ :: _ => simp [hasHexPrefix, hzero]
  simp [strtolBase, hprefix, hzero, isDigit_of_hex2num hc]

theorem strtolBase_ends (hx : Ends x) :
    strtolBase x = none ∧ strtolBase (strtolSign (x.dropWhile isSpace)).2 = none := by
  constructor
  · cases x with
    | nil => rfl
    | cons c r => exact strtolBase_cons (hx.head rfl).1 r
  · cases h : x.dropWhile isSpace with
    | nil => rfl
    | cons c r =>
      obtain ⟨hhex, hplus, hminus, -⟩ := hx c (by rw [h]; rfl)
      have hsign : strtolSign (c :: r) = (false, c :: r) := by
        unfold strtolSign
        split
        · rename_i heq
          exact absurd (List.cons.inj heq).1 hminus
        · rename_i heq
          exact absurd (List.cons.inj heq).1 hplus
        · rfl
      rw [hsign]
      exact strtolBase_cons hhex r

theorem strtolSign_append (d : UInt8) (r x : Bytes) :
    strtolSign (d :: (r ++ x)) = ((strtolSign (d :: r)).1, (strtolSign (d :: r)).2 ++ x) := by
  unfold strtolSign
  by_cases hminus : d = 0x2d
  · subst hminus
    rfl
  · by_cases hplus : d = 0x2b
    · subst hplus
      rfl
    · simp [hminus, hplus]

theorem strtolAny_append (hx : Ends x) (f : Bytes) :
    strtolAny (f ++ x) = ((strtolAny f).1, (strtolAny f).2 ++ x) := by
  unfold strtolAny
  rcases dropWhile_append_cases f x with ⟨hf, hfx⟩ | ⟨d, r, hf, -, hfx⟩
  · rw [hf, hfx]
    have hnone := (strtolBase_ends hx).2
    generalize strtolSign (x.dropWhile isSpace) = q at hnone
    obtain ⟨negative, t⟩ := q
    dsimp only at hnone ⊢
    rw [hnone]
    rfl
  · rw [hf, hfx, strtolSign_append]
    generalize strtolSign (d :: r) = q
    obtain ⟨negative, t⟩ := q
    dsimp only
    by_cases ht : t = []
    · subst ht
      rw [nil_append, (strtolBase_ends hx).1]
      rfl
    · rw [strtolBase_append hx ht]
      cases strtolBase t with
      | none => rfl
      | some q =>
        obtain ⟨base, t⟩ := q
        simp only [Option.map_some, digitsIn_append hx]

theorem digitsIn_suffix (base acc : Nat) (f : Bytes) : (digitsIn base acc f).2 <:+ f := by
  induction f generalizing acc with
  | nil => exact suffix_refl _
  | cons c f ih =>
    rw [digitsIn]
    cases hex2num c with
    | none => exact suffix_refl _
    | some d =>
      dsimp only
      split_ifs
      · exact (ih _).trans (suffix_cons c f)
      · exact suffix_refl _

theorem strtolAny_suffix (f : Bytes) : (strtolAny f).2 <:+ f := by
  have hsign : ∀ t, (strtolSign t).2 <:+ t := by
    intro t
    unfold strtolSign
    split
    · exact suffix_cons ..
    · exact suffix_cons ..
    · exact suffix_refl _
  have hbase : ∀ {t base t'}, strtolBase t = some (base, t') → t' <:+ t := by
    intro t base t' h
    unfold strtolBase at h
    split_ifs at h
    · cases h
      exact drop_suffix _ _
    · cases t with
      | nil => cases h
      | cons c r =>
        dsimp only at h
        split_ifs at h
        · cases h
          exact suffix_refl _
        · cases h
          exact suffix_refl _
  have hfront := (hsign (f.dropWhile isSpace)).trans (dropWhile_suffix _)
  unfold strtolAny
  generalize strtolSign (f.dropWhile isSpace) = q at hfront
  obtain ⟨negative, t⟩ := q
  dsimp only at hfront ⊢
  cases h : strtolBase t with
  | none => exact suffix_refl _
  | some q =>
    obtain ⟨base, t'⟩ := q
    exact (digitsIn_suffix base 0 t').trans ((hbase h).trans hfront)

theorem digitsValue_append (hx : Ends x) (acc : Nat) (f : Bytes) :
    digitsValue acc (f ++ x) = digitsValue acc f := by
  induction f generalizing acc with
  | nil =>
    cases x with
    | nil => rfl
    | cons c r => simp [digitsValue, isDigit_of_hex2num (hx.head rfl).1]
  | cons c f ih =>
    rw [cons_append, digitsValue, digitsValue, ih]

theorem strtol_eq (s : Bytes) :
    strtol s = max (-2 ^ 63) (min (2 ^ 63 - 1)
      (if (strtolSign (s.dropWhile isSpace)).1 then -(digitsValue 0 (strtolSign (s.dropWhile isSpace)).2 : Int)
       else digitsValue 0 (strtolSign (s.dropWhile isSpace)).2)) := by
  unfold strtol
  cases s.dropWhile isSpace with
  | nil => rfl
  | cons c r =>
    by_cases hminus : c = 0x2d
    · subst hminus
      rfl
    · by_cases hplus : c = 0x2b
      · subst hplus
        rfl
      · simp [strtolSign, hminus, hplus]

theorem strtol_append (hx : Ends x) (f : Bytes) : strtol (f ++ x) = strtol f := by
  rw [strtol_eq, strtol_eq]
  rcases dropWhile_append_cases f x with ⟨hf, hfx⟩ | ⟨d, r, hf, -, hfx⟩
  · rw [hf, hfx]
    cases h : x.dropWhile isSpace with
    | nil => rfl
    | cons c r =>
      obtain ⟨hhex, hplus, hminus, -⟩ := hx c (by rw [h]; rfl)
      simp [strtolSign, hplus, hminus, digitsValue, isDigit_of_hex2num hhex]
  · rw [hf, hfx, strtolSign_append, digitsValue_append hx]

theorem atoi_append (hx : Ends x) (f : Bytes) : atoi (f ++ x) = atoi f := by
  unfold atoi
  rw [strtol_append hx]

theorem strchr_append (c : UInt8) (f x : Bytes) :
    strchr c (f ++ x) = match strchr c f with | some e => some (e ++ x) | none => strchr c x := by
  induction f with
  | nil => rfl
  | cons b f ih =>
    rw [cons_append, strchr, strchr]
    split_ifs
    · rfl
    · exact ih

theorem strchr_eq_some {e : Bytes} (h : strchr c s = some e) : ∃ f r, s = f ++ c :: r ∧ c ∉ f ∧ e = c :: r := by
  induction s with
  | nil => cases h
  | cons b s ih =>
    rw [strchr] at h
    split_ifs at h with hb
    · cases h
      exact ⟨[], s, by rw [hb]; rfl, not_mem_nil, by rw [hb]⟩
    · obtain ⟨f, r, hs, hf, he⟩ := ih h
      refine ⟨b :: f, r, by rw [hs]; rfl, ?_, he⟩
      rw [mem_cons, not_or]
      exact ⟨Ne.symm hb, hf⟩

theorem strchr_eq_none (h : c ∉ s) : strchr c s = none := by
  induction s with
  | nil => rfl
  | cons b s ih =>
    rw [mem_cons, not_or] at h
    rw [strchr, if_neg (Ne.symm h.1)]
    exact ih h.2

theorem strchr_length {e : Bytes} (h : strchr c s = some e) : 0 < e.length ∧ e.length ≤ s.length := by
  obtain ⟨f, r, rfl, -, rfl⟩ := strchr_eq_some h
  rw [length_append]
  exact ⟨Nat.succ_pos _, Nat.le_add_left _ _⟩

theorem strchr_cons (h : c ∉ f) (r : Bytes) : strchr c (f ++ c :: r) = some (c :: r) := by
  rw [strchr_append, strchr_eq_none h]
  exact if_pos rfl

theorem strstr_eq_some {needle q : Bytes} (h : strstr needle s = some q) : q <:+ s ∧ needle <+: q := by
  induction s with
  | nil =>
    rw [strstr] at h
    split_ifs at h with hnil
    cases h
    exact ⟨suffix_refl _, hnil ▸ nil_prefix⟩
  | cons b s ih =>
    rw [strstr] at h
    split_ifs at h with hprefix
    · cases h
      exact ⟨suffix_refl _, isPrefixOf_iff_prefix.1 hprefix⟩
    · exact ⟨(ih h).1.trans (suffix_cons b s), (ih h).2⟩

theorem hexstr2bin_append {n : Nat} (h : 2 * n ≤ f.length) (x : Bytes) :
    hexstr2bin n (f ++ x) = hexstr2bin n f := by
  induction n generalizing f with
  | zero => rfl
  | succ n ih =>
    match f with
    | [] => cases h
    | [a] =>
      rw [length_singleton] at h
      omega
    | a :: b :: f =>
      have hlen : 2 * n ≤ f.length := by
        rw [length_cons, length_cons] at h
        omega
      show (hex2byte (a :: b :: f)).bind _ = (hex2byte (a :: b :: f)).bind _
      rw [show ((a :: b :: f) ++ x).drop 2 = f ++ x from rfl, show (a :: b :: f).drop 2 = f from rfl, ih hlen]

theorem hexstr2bin_length {n : Nat} {r : Bytes} (h : hexstr2bin n f = some r) : r.length = n := by
  induction n generalizing f r with
  | zero =>
    cases h
    rfl
  | succ n ih =>
    rw [hexstr2bin] at h
    cases ha : hex2byte f with
    | none =>
      rw [ha] at h
      cases h
    | some a =>
      cases hr : hexstr2bin n (f.drop 2) with
      | none =>
        simp only [ha, hr] at h
        cases h
      | some r' =>
        simp only [ha, hr] at h
        cases h
        rw [length_cons, ih hr]

end Common

end Hostap
