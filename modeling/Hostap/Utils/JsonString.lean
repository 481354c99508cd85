import Hostap.Utils.JsonText

/-!
# Writing JSON strings

`json_escape_string()` of `utils/json.c`. The loop looks for room for four octets, which the escape `\u00xx`
with its NUL is longer than. What it prints for an octet of 128 and more depends on the type `char`: a
signed one is extended to 32 bits, and the escape has eight digits.

`json_escape_string_iff` says when the text and its NUL stay within the buffer, and when `json_parse_string()`
reads the string back.
-/

namespace Hostap

namespace Json

open Octets Buffer Output Common List

/-- The argument that `data[i]` becomes for `%04x`. -/
def charValue (charSigned : Bool) (c : UInt8) : Nat :=
  if charSigned ∧ 128 ≤ c then 2 ^ 32 - 256 + c.toNat else c.toNat

/-- One octet in the loop, behind the check of the room. An octet of 128 and more is not printable, be it
negative or larger than 126. -/
def jsonEscapeOctet (charSigned : Bool) (maxlen : Nat) (c : UInt8) (txt : Bytes) : Except OutOfBounds Bytes :=
  if c = 0x22 then put maxlen [0x5c, 0x22] txt
  else if c = 0x5c then put maxlen [0x5c, 0x5c] txt
  else if c = 0x0a then put maxlen [0x5c, 0x6e] txt
  else if c = 0x0d then put maxlen [0x5c, 0x72] txt
  else if c = 0x09 then put maxlen [0x5c, 0x74] txt
  else if 32 ≤ c ∧ c ≤ 126 then put maxlen [c] txt
  else print maxlen ([0x5c, 0x75] ++ hex04 (charValue charSigned c)) txt

def jsonEscapeLoop (charSigned : Bool) (maxlen : Nat) : Bytes → Bytes → Except OutOfBounds Bytes
  | [], txt => .ok txt
  | c :: data, txt =>
    if txt.length + 4 ≥ maxlen then .ok txt
    else do
      let txt ← jsonEscapeOctet charSigned maxlen c txt
      jsonEscapeLoop charSigned maxlen data txt

/-- What is written into a buffer of `maxlen` octets. -/
def jsonEscapeString (charSigned : Bool) (maxlen : Nat) (data : Bytes) : Except OutOfBounds Bytes := do
  let txt ← jsonEscapeLoop charSigned maxlen data []
  put maxlen [0] txt

/-! ## What is printed -/

/-- The octet is negative as a `char`. -/
def isHigh (charSigned : Bool) (c : UInt8) : Bool := charSigned && 128 ≤ c

def escapeLength (charSigned : Bool) (c : UInt8) : Nat :=
  if c = 0x22 ∨ c = 0x5c ∨ c = 0x0a ∨ c = 0x0d ∨ c = 0x09 then 2
  else if 32 ≤ c ∧ c ≤ 126 then 1
  else if isHigh charSigned c then 10
  else 6

def escapeText (charSigned : Bool) (c : UInt8) : Bytes :=
  if c = 0x22 then [0x5c, 0x22]
  else if c = 0x5c then [0x5c, 0x5c]
  else if c = 0x0a then [0x5c, 0x6e]
  else if c = 0x0d then [0x5c, 0x72]
  else if c = 0x09 then [0x5c, 0x74]
  else if 32 ≤ c ∧ c ≤ 126 then [c]
  else [0x5c, 0x75] ++ hex04 (charValue charSigned c)

/-- Every octet for which the loop finds four octets of room has a text that fits with the NUL. In front of
it `w` octets are written. -/
def EscapesFit (charSigned : Bool) (maxlen : Nat) : Nat → Bytes → Prop
  | _, [] => True
  | w, c :: data =>
    (w + 4 < maxlen → w + escapeLength charSigned c < maxlen) ∧
      EscapesFit charSigned maxlen (w + escapeLength charSigned c) data

variable {charSigned : Bool} {maxlen w : Nat} {c : UInt8} {data txt : Bytes}

theorem hex04_octet (c : UInt8) : hex04 c.toNat = hexDigits 2 0 ++ hexDigits 2 c.toNat := by
  have hc := c.toNat_lt
  have hlen : max 4 ((numBits c.toNat + 3) / 4) = 4 := by
    have hbits : numBits c.toNat ≤ 8 := by
      unfold numBits
      split
      · omega
      · have hlog : Nat.log2 c.toNat < 8 := (Nat.log2_lt ‹_›).2 hc
        omega
    omega
  unfold hex04
  rw [hlen]
  show [hexDigit (c.toNat / 16 / 16 / 16 % 16), hexDigit (c.toNat / 16 / 16 % 16), hexDigit (c.toNat / 16 % 16),
    hexDigit (c.toNat % 16)] = [hexDigit 0, hexDigit 0, hexDigit (c.toNat / 16 % 16), hexDigit (c.toNat % 16)]
  rw [show c.toNat / 16 / 16 = 0 by omega]

theorem hex04_negative (h : 128 ≤ c.toNat) :
    hex04 (2 ^ 32 - 256 + c.toNat) = [0x66, 0x66, 0x66, 0x66, 0x66, 0x66] ++ hexDigits 2 c.toNat := by
  have hc := c.toNat_lt
  have hlen : max 4 ((numBits (2 ^ 32 - 256 + c.toNat) + 3) / 4) = 8 := by
    have hlog : Nat.log2 (2 ^ 32 - 256 + c.toNat) = 31 := by
      rw [Nat.log2_eq_iff (by omega)]
      omega
    unfold numBits
    rw [if_neg (by omega), hlog]
    decide
  generalize hn : 2 ^ 32 - 256 + c.toNat = n at hlen ⊢
  unfold hex04
  rw [hlen]
  show [hexDigit (n / 16 / 16 / 16 / 16 / 16 / 16 / 16 % 16), hexDigit (n / 16 / 16 / 16 / 16 / 16 / 16 % 16),
    hexDigit (n / 16 / 16 / 16 / 16 / 16 % 16), hexDigit (n / 16 / 16 / 16 / 16 % 16),
    hexDigit (n / 16 / 16 / 16 % 16), hexDigit (n / 16 / 16 % 16), hexDigit (n / 16 % 16), hexDigit (n % 16)] =
    [0x66, 0x66, 0x66, 0x66, 0x66, 0x66, hexDigit (c.toNat / 16 % 16), hexDigit (c.toNat % 16)]
  have hdigit : hexDigit 15 = 0x66 := rfl
  rw [show n / 16 / 16 / 16 / 16 / 16 / 16 / 16 % 16 = 15 by omega,
    show n / 16 / 16 / 16 / 16 / 16 / 16 % 16 = 15 by omega, show n / 16 / 16 / 16 / 16 / 16 % 16 = 15 by omega,
    show n / 16 / 16 / 16 / 16 % 16 = 15 by omega, show n / 16 / 16 / 16 % 16 = 15 by omega,
    show n / 16 / 16 % 16 = 15 by omega, show n / 16 % 16 = c.toNat / 16 % 16 by omega,
    show n % 16 = c.toNat % 16 by omega, hdigit]

theorem hex04_charValue (charSigned : Bool) (c : UInt8) :
    hex04 (charValue charSigned c) =
      if isHigh charSigned c then [0x66, 0x66, 0x66, 0x66, 0x66, 0x66] ++ hexDigits 2 c.toNat
      else hexDigits 2 0 ++ hexDigits 2 c.toNat := by
  have hhigh : isHigh charSigned c = true ↔ charSigned = true ∧ 128 ≤ c := by
    rw [isHigh, Bool.and_eq_true, decide_eq_true_iff]
  by_cases h : charSigned = true ∧ 128 ≤ c
  · rw [charValue, if_pos h, if_pos (hhigh.2 h)]
    exact hex04_negative (UInt8.le_iff_toNat_le.1 h.2)
  · rw [charValue, if_neg h, if_neg (fun hc => h (hhigh.1 hc))]
    exact hex04_octet c

theorem escapeText_length (charSigned : Bool) (c : UInt8) :
    (escapeText charSigned c).length = escapeLength charSigned c := by
  unfold escapeText escapeLength
  rw [hex04_charValue]
  split_ifs <;> simp_all

theorem jsonEscapeOctet_eq (h : txt.length + 4 < maxlen) :
    jsonEscapeOctet charSigned maxlen c txt = .ok (txt ++ escapeText charSigned c) := by
  unfold jsonEscapeOctet escapeText
  split_ifs
  iterate 5 exact put_ok (show txt.length + 2 ≤ maxlen by omega)
  · exact put_ok (show txt.length + 1 ≤ maxlen by omega)
  · exact print_ok (by omega)

def jsonText (charSigned : Bool) (data : Bytes) : Bytes := data.flatMap (escapeText charSigned)

theorem jsonEscapeLoop_eq (charSigned : Bool) (maxlen : Nat) (data txt : Bytes) :
    ∃ k, k ≤ data.length ∧
      jsonEscapeLoop charSigned maxlen data txt = .ok (txt ++ jsonText charSigned (data.take k)) ∧
      (k < data.length → maxlen ≤ (txt ++ jsonText charSigned (data.take k)).length + 4) := by
  induction data generalizing txt with
  | nil => exact ⟨0, Nat.le_refl _, by simp [jsonEscapeLoop, jsonText], fun h => absurd h (by decide)⟩
  | cons c data ih =>
    rcases Nat.lt_or_ge (txt.length + 4) maxlen with hroom | hfull
    · obtain ⟨k, hk, hrun, hcut⟩ := ih (txt ++ escapeText charSigned c)
      rw [append_assoc] at hrun hcut
      refine ⟨k + 1, Nat.succ_le_succ hk, ?_, fun hlt => hcut (Nat.lt_of_succ_lt_succ hlt)⟩
      rw [jsonEscapeLoop, if_neg (by omega), jsonEscapeOctet_eq hroom]
      exact hrun
    · refine ⟨0, Nat.zero_le _, ?_, fun _ => ?_⟩
      · rw [jsonEscapeLoop, if_pos hfull]
        simp [jsonText]
      · rw [length_append]
        omega

theorem escapesFit_of_full (h : maxlen ≤ w + 4) (data : Bytes) : EscapesFit charSigned maxlen w data := by
  induction data generalizing w with
  | nil => trivial
  | cons c data ih => exact ⟨fun hroom => by omega, ih (by omega)⟩

theorem jsonEscapeLoop_put (h : txt.length < maxlen) :
    (∃ r, (jsonEscapeLoop charSigned maxlen data txt >>= put maxlen [0]) = .ok r) ↔
      EscapesFit charSigned maxlen txt.length data := by
  induction data generalizing txt with
  | nil => exact ⟨fun _ => trivial, fun _ => ⟨_, put_ok h⟩⟩
  | cons c data ih =>
    rcases Nat.lt_or_ge (txt.length + 4) maxlen with hroom | hfull
    · have hrun : jsonEscapeLoop charSigned maxlen (c :: data) txt =
          jsonEscapeLoop charSigned maxlen data (txt ++ escapeText charSigned c) := by
        rw [jsonEscapeLoop, if_neg (by omega), jsonEscapeOctet_eq hroom]
        rfl
      have hlen : (txt ++ escapeText charSigned c).length = txt.length + escapeLength charSigned c := by
        rw [length_append, escapeText_length]
      rw [hrun, EscapesFit]
      rcases Nat.lt_or_ge (txt.length + escapeLength charSigned c) maxlen with hfit | hover
      · rw [ih (by omega), hlen]
        exact ⟨fun hrest => ⟨fun _ => hfit, hrest⟩, fun hrest => hrest.2⟩
      · -- the position is behind the buffer, and the NUL goes there
        obtain ⟨k, -, hloop, -⟩ := jsonEscapeLoop_eq charSigned maxlen data (txt ++ escapeText charSigned c)
        constructor
        · rintro ⟨r, hr⟩
          rw [hloop] at hr
          have hinside := (put_eq_ok hr).2
          rw [(put_eq_ok hr).1, length_append, length_append, hlen, length_singleton] at hinside
          omega
        · intro hrest
          have := hrest.1 hroom
          omega
    · have hrun : jsonEscapeLoop charSigned maxlen (c :: data) txt = .ok txt := by
        rw [jsonEscapeLoop, if_pos hfull]
      rw [hrun]
      exact ⟨fun _ => escapesFit_of_full hfull _, fun _ => ⟨_, put_ok h⟩⟩

/-! ## Reading it back -/

def escapeMeaning (charSigned : Bool) (c : UInt8) : Bytes :=
  if isHigh charSigned c then [0xff, 0xff, 0x66, 0x66] ++ hexDigits 2 c.toNat else [c]

theorem not_printable_of_isHigh (h : isHigh charSigned c = true) :
    ¬ (c = 0x22 ∨ c = 0x5c ∨ c = 0x0a ∨ c = 0x0d ∨ c = 0x09) ∧ ¬ (32 ≤ c ∧ c ≤ 126) := by
  rw [isHigh, Bool.and_eq_true, decide_eq_true_iff] at h
  have h128 := UInt8.le_iff_toNat_le.1 h.2
  constructor
  · rintro (rfl | rfl | rfl | rfl | rfl) <;> exact absurd h.2 (by decide)
  · intro hprint
    have hle := UInt8.le_iff_toNat_le.1 hprint.2
    have : (128 : UInt8).toNat = 128 := rfl
    have : (126 : UInt8).toNat = 126 := rfl
    omega

theorem hexstr2bin_two (a b : UInt8) :
    hexstr2bin 2 (hexDigits 2 a.toNat ++ hexDigits 2 b.toNat) = some [a, b] := by
  have ha := hex2byte_hexDigits a (hexDigits 2 b.toNat)
  have hb := hex2byte_hexDigits b []
  rw [append_nil] at hb
  have hdrop : (hexDigits 2 a.toNat ++ hexDigits 2 b.toNat).drop 2 = hexDigits 2 b.toNat := rfl
  simp only [hexstr2bin, ha, hdrop, hb, Option.bind_eq_bind, Option.bind_some, UInt8.ofNat_toNat]

theorem stringText_escape (charSigned : Bool) (hc : c ≠ 0) :
    StringText (escapeText charSigned c) (escapeMeaning charSigned c) := by
  have hsingle : ∀ {text octets : Bytes}, StringElement text octets → StringText text octets := by
    intro text octets h
    rw [← append_nil text, ← append_nil octets]
    exact .cons h .nil
  unfold escapeMeaning
  split
  · rename_i hhigh
    obtain ⟨hself, hprint⟩ := not_printable_of_isHigh hhigh
    simp only [not_or] at hself
    have hdigit : ∀ n, n < 16 → hexDigit n ≠ 0x22 ∧ hexDigit n ≠ 0x5c := by
      have hall : ∀ m : Fin 16, hexDigit m ≠ 0x22 ∧ hexDigit m ≠ 0x5c := by decide
      exact fun n hn => hall ⟨n, hn⟩
    have hplain : ∀ n, n < 16 → StringElement [hexDigit n] [hexDigit n] :=
      fun n hn => .plain _ (hdigit n hn).1 (hdigit n hn).2
    have hlt := c.toNat_lt
    unfold escapeText
    rw [if_neg hself.1, if_neg hself.2.1, if_neg hself.2.2.1, if_neg hself.2.2.2.1, if_neg hself.2.2.2.2,
      if_neg hprint, hex04_charValue, if_pos hhigh, hexDigits_two]
    -- `\uffff`, and four digits that stand for themselves
    have hffff : StringElement [0x5c, 0x75, 0x66, 0x66, 0x66, 0x66] [0xff, 0xff] :=
      .two rfl rfl (by decide) (by decide)
    have hf : StringElement [0x66] [0x66] := .plain 0x66 (by decide) (by decide)
    have hhigher := hplain (c.toNat / 16) (by omega)
    have hlower := hplain (c.toNat % 16) (by omega)
    have htext := StringText.cons hffff (.cons hf (.cons hf (.cons hhigher (.cons hlower .nil))))
    exact htext
  · rename_i hlow
    unfold escapeText
    split_ifs with h₁ h₂ h₃ h₄ h₅ hprint
    · exact hsingle (h₁ ▸ .itself 0x22 (by decide))
    · exact hsingle (h₂ ▸ .itself 0x5c (by decide))
    · exact hsingle (h₃ ▸ .lineFeed)
    · exact hsingle (h₄ ▸ .carriageReturn)
    · exact hsingle (h₅ ▸ .tab)
    · exact hsingle (.plain c h₁ h₂)
    · rw [hex04_charValue, if_neg hlow]
      exact hsingle (.one rfl (hexstr2bin_two 0 c) hc)

theorem stringText_jsonText (charSigned : Bool) (h : 0 ∉ data) :
    StringText (jsonText charSigned data) (data.flatMap (escapeMeaning charSigned)) := by
  induction data with
  | nil => exact .nil
  | cons c data ih =>
    rw [mem_cons, not_or] at h
    exact (stringText_escape charSigned (Ne.symm h.1)).append (ih h.2)

theorem zero_not_mem_escapeText (charSigned : Bool) (c : UInt8) : 0 ∉ escapeText charSigned c := by
  have hdigits : 0 ∉ hexDigits 2 c.toNat := by
    have hc := c.toNat_lt
    have hhigh := hexDigit_mem (show c.toNat / 16 < 16 by omega)
    have hlow := hexDigit_mem (show c.toNat % 16 < 16 by omega)
    rw [hexDigits_two]
    intro hmem
    simp only [mem_cons, not_mem_nil, or_false] at hmem
    rcases hmem with h | h
    · rw [← h] at hhigh
      exact absurd hhigh (by decide)
    · rw [← h] at hlow
      exact absurd hlow (by decide)
  unfold escapeText
  rw [hex04_charValue]
  split_ifs with h₁ h₂ h₃ h₄ h₅ hprint hneg
  iterate 5 decide
  · intro hmem
    rw [mem_singleton] at hmem
    rw [← hmem] at hprint
    exact absurd hprint.1 (by decide)
  · simpa using hdigits
  · simpa [hexDigits_two, show hexDigits 2 0 = [0x30, 0x30] from rfl] using hdigits

theorem zero_not_mem_jsonText (charSigned : Bool) (data : Bytes) : 0 ∉ jsonText charSigned data := by
  intro h
  obtain ⟨c, -, hc⟩ := mem_flatMap.1 h
  exact zero_not_mem_escapeText charSigned c hc

def highCount (charSigned : Bool) (data : Bytes) : Nat := data.countP (isHigh charSigned)

theorem highCount_cons (charSigned : Bool) (c : UInt8) (data : Bytes) :
    highCount charSigned (c :: data) =
      highCount charSigned data + if isHigh charSigned c = true then 1 else 0 := countP_cons ..

theorem jsonText_length_le (charSigned : Bool) (data : Bytes) :
    (jsonText charSigned data).length ≤ 6 * data.length + 4 * highCount charSigned data := by
  induction data with
  | nil => exact Nat.le_refl _
  | cons c data ih =>
    have hcons : jsonText charSigned (c :: data) = escapeText charSigned c ++ jsonText charSigned data := rfl
    rw [hcons, length_append, escapeText_length, length_cons, highCount_cons]
    unfold escapeLength
    split_ifs <;> omega

theorem meaning_length (charSigned : Bool) (data : Bytes) :
    (data.flatMap (escapeMeaning charSigned)).length = data.length + 5 * highCount charSigned data := by
  induction data with
  | nil => rfl
  | cons c data ih =>
    have hlen : (escapeMeaning charSigned c).length = if isHigh charSigned c = true then 6 else 1 := by
      unfold escapeMeaning
      split <;> simp
    rw [flatMap_cons, length_append, ih, hlen, length_cons, highCount_cons]
    split_ifs <;> omega

theorem meaning_eq (h : highCount charSigned data = 0) : data.flatMap (escapeMeaning charSigned) = data := by
  induction data with
  | nil => rfl
  | cons c data ih =>
    rw [highCount_cons] at h
    have hc : ¬ isHigh charSigned c = true := by
      intro hc
      rw [if_pos hc] at h
      omega
    rw [flatMap_cons, ih (by omega), escapeMeaning, if_neg hc]
    rfl

theorem highCount_eq_zero_iff :
    highCount charSigned data = 0 ↔ charSigned = false ∨ ∀ c ∈ data, c < 128 := by
  unfold highCount isHigh
  rw [countP_eq_zero]
  cases charSigned with
  | false => simp
  | true =>
    simp only [Bool.true_and, decide_eq_true_iff, UInt8.not_le, Bool.true_eq_false, false_or]

/-- The text and its NUL stay within the buffer when every octet for which the loop finds room for four
octets has a text that fits. A string without NUL is read back when no octet of it is negative as a `char`.
-/
theorem json_escape_string_iff (charSigned : Bool) (d : Bytes) (maxlen : Nat) (hmax : 1 ≤ maxlen) :
    ((∃ txt, jsonEscapeString charSigned maxlen d = .ok (txt ++ [0]) ∧ (txt ++ [0]).length ≤ maxlen) ↔
      EscapesFit charSigned maxlen 0 d) ∧
    (0 ∉ d → 6 * d.length + 1 ≤ maxlen →
      ((∃ txt, jsonEscapeString charSigned maxlen d = .ok txt ∧
          ∀ behind rest, jsonParseString .all behind ([0x22] ++ Common.cString txt ++ 0x22 :: rest) =
            .ok (some (d, rest))) ↔
        charSigned = false ∨ ∀ c ∈ d, c < 128)) := by
  obtain ⟨k, hk, hloop, hcut⟩ := jsonEscapeLoop_eq charSigned maxlen d []
  rw [nil_append] at hloop hcut
  have hput : jsonEscapeString charSigned maxlen d = put maxlen [0] (jsonText charSigned (d.take k)) := by
    rw [jsonEscapeString, hloop]
    rfl
  constructor
  · have hfit : (∃ r, jsonEscapeString charSigned maxlen d = .ok r) ↔ EscapesFit charSigned maxlen 0 d :=
      jsonEscapeLoop_put (show ([] : Bytes).length < maxlen from hmax)
    rw [← hfit]
    constructor
    · rintro ⟨txt, hrun, -⟩
      exact ⟨_, hrun⟩
    · rintro ⟨r, hrun⟩
      obtain ⟨hr, hle⟩ := put_eq_ok (hput ▸ hrun)
      exact ⟨jsonText charSigned (d.take k), by rw [hrun, hr], hr ▸ hle⟩
  · intro hnul hroom
    rw [← highCount_eq_zero_iff]
    have hsub : 0 ∉ d.take k := fun h => hnul (mem_of_mem_take h)
    have hlen : (d.take k).length = k := length_take_of_le hk
    have htext := jsonText_length_le charSigned (d.take k)
    have hread : ∀ behind rest,
        jsonParseString .all behind ([0x22] ++ jsonText charSigned (d.take k) ++ 0x22 :: rest) =
          .ok (some ((d.take k).flatMap (escapeMeaning charSigned), rest)) := fun behind rest =>
      jsonParseString_text (stringText_jsonText charSigned hsub) behind rest 0x22
    have hstring : Common.cString (jsonText charSigned (d.take k) ++ [0]) = jsonText charSigned (d.take k) :=
      cString_append (zero_not_mem_jsonText charSigned _) []
    constructor
    · rintro ⟨txt, hrun, hback⟩
      rw [hput] at hrun
      rw [(put_eq_ok hrun).1, hstring] at hback
      have hmeaning := (hread [] []).symm.trans (hback [] [])
      simp only [Except.ok.injEq, Option.some.injEq, Prod.mk.injEq, and_true] at hmeaning
      -- a negative octet is read as more octets than a cut can take away
      have hcount := meaning_length charSigned (d.take k)
      rw [hmeaning, hlen] at hcount
      rw [hlen] at htext
      have hall : k = d.length := by
        by_contra hne
        have := hcut (by omega)
        omega
      rw [hall, take_length] at hcount
      omega
    · intro hhigh
      have hzero : highCount charSigned (d.take k) = 0 := by
        have hle : highCount charSigned (d.take k) ≤ highCount charSigned d :=
          (take_sublist k d).countP_le
        omega
      have hall : k = d.length := by
        by_contra hne
        have := hcut (by omega)
        omega
      refine ⟨_, hput.trans (put_ok ?_), fun behind rest => ?_⟩
      · rw [length_singleton]
        omega
      · rw [hstring, hread, meaning_eq hzero, hall, take_length]

/-- A letter and a control character in a buffer of the size that the texts have room in. -/
theorem json_escape_string_iff_two :
    ∃ txt, jsonEscapeString true 13 [0x61, 0x01] = .ok txt ∧ ∀ behind rest,
      jsonParseString .all behind ([0x22] ++ Common.cString txt ++ 0x22 :: rest) =
        .ok (some ([0x61, 0x01], rest)) :=
  ((json_escape_string_iff true [0x61, 0x01] 13 (by decide)).2 (by decide) (by decide)).2
    (.inr fun c hc => by
      simp only [mem_cons, not_mem_nil, or_false] at hc
      rcases hc with rfl | rfl <;> decide)

/-- The escape of a control character does not fit into five octets, and the NUL is stored behind them. -/
theorem json_escape_string_overflow :
    (¬ ∃ txt, jsonEscapeString false 5 [0x01] = .ok txt) ∧
      ¬ ∃ txt, jsonEscapeString true 5 [0x01] = .ok txt := by
  have herror : ∀ charSigned, jsonEscapeString charSigned 5 [0x01] = .error ⟨6, 1⟩ := by
    intro charSigned
    cases charSigned <;> rfl
  constructor <;> rintro ⟨txt, hrun⟩ <;> rw [herror] at hrun <;> cases hrun

end Json

end Hostap
