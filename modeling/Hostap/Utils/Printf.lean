import Hostap.Utils.Common

/-!
# The printf encoding

The text form of `utils/common.c` in which network names are shown and read, and the strings of the
configuration file that use it.

* `printfEncode_eq` says what the encoder writes: the texts of as many octets as there is room for, and
  nothing outside the buffer;
* `printfDecodeLoop_text` reads the texts of octets back, whatever follows each of them.
-/

namespace Hostap

namespace Printf

open Octets Buffer Output Common List

/-- One octet in the loop of `printf_encode()`, behind the check of the room. -/
def printfEncodeOctet (maxlen : Nat) (c : UInt8) (txt : Bytes) : Except OutOfBounds Bytes :=
  if c = 0x22 then put maxlen [0x5c, 0x22] txt
  else if c = 0x5c then put maxlen [0x5c, 0x5c] txt
  else if c = 0x1b then put maxlen [0x5c, 0x65] txt
  else if c = 0x0a then put maxlen [0x5c, 0x6e] txt
  else if c = 0x0d then put maxlen [0x5c, 0x72] txt
  else if c = 0x09 then put maxlen [0x5c, 0x74] txt
  else if 32 ≤ c ∧ c ≤ 126 then put maxlen [c] txt
  else print maxlen ([0x5c, 0x78] ++ hexDigits 2 c.toNat) txt

def printfEncodeLoop (maxlen : Nat) : Bytes → Bytes → Except OutOfBounds Bytes
  | [], txt => .ok txt
  | c :: data, txt =>
    if txt.length + 4 ≥ maxlen then .ok txt
    else do
      let txt ← printfEncodeOctet maxlen c txt
      printfEncodeLoop maxlen data txt

/-- What is written into a buffer of `maxlen` octets. -/
def printfEncode (maxlen : Nat) (data : Bytes) : Except OutOfBounds Bytes := do
  let txt ← printfEncodeLoop maxlen data []
  put maxlen [0] txt

def octalDigit (val : Nat) : Bytes → Nat × Bytes
  | d :: rest => if 0x30 ≤ d ∧ d ≤ 0x37 then (val * 8 + (d.toNat - 0x30), rest) else (val, d :: rest)
  | [] => (val, [])

/-- `\x`: two digits, or one, or none. -/
def printfHex (rest : Bytes) : Bytes × Bytes :=
  match hex2byte rest with
  | some val => ([UInt8.ofNat val], rest.drop 2)
  | none =>
    match rest with
    | d :: rest' =>
      match hex2num d with
      | some val => ([UInt8.ofNat val], rest')
      | none => ([], d :: rest')
    | [] => ([], [])

/-- The text behind a backslash: what it stands for, and the rest. An escape that is not known loses its
backslash and is read as it stands. -/
def printfEscape : Bytes → Bytes × Bytes
  | [] => ([], [])
  | c :: rest =>
    if c = 0x5c then ([0x5c], rest)
    else if c = 0x22 then ([0x22], rest)
    else if c = 0x6e then ([0x0a], rest)
    else if c = 0x72 then ([0x0d], rest)
    else if c = 0x74 then ([0x09], rest)
    else if c = 0x65 then ([0x1b], rest)
    else if c = 0x78 then printfHex rest
    else if 0x30 ≤ c ∧ c ≤ 0x37 then
      let (val, rest) := octalDigit (c.toNat - 0x30) rest
      let (val, rest) := octalDigit val rest
      ([UInt8.ofNat val], rest)
    else ([], c :: rest)

theorem octalDigit_length (val : Nat) (s : Bytes) : (octalDigit val s).2.length ≤ s.length := by
  unfold octalDigit
  split
  · split
    · exact Nat.le_succ _
    · exact Nat.le_refl _
  · exact Nat.le_refl _

theorem printfHex_length (s : Bytes) : (printfHex s).2.length ≤ s.length := by
  unfold printfHex
  split
  · rw [length_drop]
    exact Nat.sub_le _ _
  · split
    · split
      · exact Nat.le_succ _
      · exact Nat.le_refl _
    · exact Nat.le_refl _

theorem printfEscape_length (s : Bytes) : (printfEscape s).2.length ≤ s.length := by
  cases s with
  | nil => exact Nat.le_refl _
  | cons c rest =>
    have hhex := printfHex_length rest
    have hfirst := octalDigit_length (c.toNat - 0x30) rest
    have hsecond := octalDigit_length (octalDigit (c.toNat - 0x30) rest).1 (octalDigit (c.toNat - 0x30) rest).2
    simp only [printfEscape]
    split_ifs <;> simp only [length_cons] <;> omega

def printfDecodeLoop (maxlen : Nat) (pos buf : Bytes) : Except OutOfBounds Bytes :=
  match pos with
  | [] => .ok buf
  | c :: rest =>
    if buf.length + 1 ≥ maxlen then .ok buf
    else if c = 0x5c then do
      let buf ← put maxlen (printfEscape rest).1 buf
      printfDecodeLoop maxlen (printfEscape rest).2 buf
    else do
      let buf ← put maxlen [c] buf
      printfDecodeLoop maxlen rest buf
termination_by pos.length
decreasing_by
  · exact Nat.lt_succ_of_le (printfEscape_length rest)
  · exact Nat.lt_succ_self _

/-- What is written into a buffer of `maxlen` octets, and the length that is returned. -/
def printfDecode (maxlen : Nat) (str : Bytes) : Except OutOfBounds (Bytes × Nat) := do
  let buf ← printfDecodeLoop maxlen str []
  let written ← if buf.length < maxlen then put maxlen [0] buf else .ok buf
  .ok (written, buf.length)

/-! ## Strings of the configuration -/

/-- `dup_binstr()`. The NUL behind the copy is left out. -/
def dupBinstr (ok : Bool) (src : Bytes) (len : Nat) : Option Bytes := if ok then some (src.take len) else none

/-- The `*len` octets of the string that is returned, `none` for NULL. `alloc` says which of the allocations
of the call succeed. -/
def wpaConfigParseString (alloc : Nat → Bool) : Bytes → Except OutOfBounds (Option Bytes)
  | 0x22 :: value =>
    match strrchr 0x22 value with
    | some [_] => .ok (dupBinstr (alloc 0) value (value.length - 1))
    | _ => .ok none
  | 0x50 :: 0x22 :: value =>
    match strrchr 0x22 value with
    | some [_] =>
      match dupBinstr (alloc 0) value (value.length - 1) with
      | none => .ok none
      | some tstr =>
        if alloc 1 then do
          let (str, len) ← printfDecode (value.length - 1 + 1) tstr
          .ok (some (str.take len))
        else
          .ok none
    | _ => .ok none
  | value =>
    if value.length % 2 = 1 then .ok none
    else if alloc 0 then .ok (hexstr2bin (value.length / 2) value)
    else .ok none

/-! ## What the encoder writes -/

def printfOctet (c : UInt8) : Bytes :=
  if c = 0x22 then [0x5c, 0x22]
  else if c = 0x5c then [0x5c, 0x5c]
  else if c = 0x1b then [0x5c, 0x65]
  else if c = 0x0a then [0x5c, 0x6e]
  else if c = 0x0d then [0x5c, 0x72]
  else if c = 0x09 then [0x5c, 0x74]
  else if 32 ≤ c ∧ c ≤ 126 then [c]
  else [0x5c, 0x78] ++ hexDigits 2 c.toNat

def printfText (data : Bytes) : Bytes := data.flatMap printfOctet

variable {maxlen size : Nat} {c : UInt8} {txt buf data : Bytes}

theorem printfText_cons (c : UInt8) (data : Bytes) :
    printfText (c :: data) = printfOctet c ++ printfText data := rfl

theorem printfOctet_length (c : UInt8) :
    1 ≤ (printfOctet c).length ∧ (printfOctet c).length ≤ 4 := by
  unfold printfOctet
  split_ifs <;> simp

theorem zero_not_mem_printfOctet (c : UInt8) : 0 ∉ printfOctet c := by
  have hc := c.toNat_lt
  have hhigh := hexDigit_mem (show c.toNat / 16 < 16 by omega)
  have hlow := hexDigit_mem (show c.toNat % 16 < 16 by omega)
  unfold printfOctet
  rw [hexDigits_two]
  split_ifs with h₁ h₂ h₃ h₄ h₅ h₆ hprint
  -- the escapes of one letter
  iterate 6 decide
  · intro hmem
    rw [mem_singleton] at hmem
    rw [← hmem] at hprint
    exact absurd hprint.1 (by decide)
  · intro hmem
    have hzero : hexDigit (c.toNat / 16) = 0 ∨ hexDigit (c.toNat % 16) = 0 := by
      simpa [eq_comm] using hmem
    rcases hzero with h | h
    · rw [h] at hhigh
      exact absurd hhigh (by decide)
    · rw [h] at hlow
      exact absurd hlow (by decide)

theorem zero_not_mem_printfText (data : Bytes) : 0 ∉ printfText data := by
  intro h
  obtain ⟨c, -, hc⟩ := mem_flatMap.1 h
  exact zero_not_mem_printfOctet c hc

theorem length_le_printfText (data : Bytes) : data.length ≤ (printfText data).length := by
  induction data with
  | nil => exact Nat.le_refl _
  | cons c data ih =>
    have hc := printfOctet_length c
    rw [printfText_cons, length_append, length_cons]
    omega

theorem printfEncodeOctet_eq (h : txt.length + 4 < maxlen) :
    printfEncodeOctet maxlen c txt = .ok (txt ++ printfOctet c) := by
  unfold printfEncodeOctet printfOctet
  split_ifs
  -- two octets of an escape
  iterate 6 exact put_ok (show txt.length + 2 ≤ maxlen by omega)
  · exact put_ok (show txt.length + 1 ≤ maxlen by omega)
  · exact print_ok (by omega)

theorem printfEncodeLoop_eq (data : Bytes) {txt : Bytes} (h : txt.length < maxlen) :
    ∃ k, printfEncodeLoop maxlen data txt = .ok (txt ++ printfText (data.take k)) ∧
      (txt ++ printfText (data.take k)).length < maxlen ∧
      (txt.length + 4 * data.length < maxlen → k = data.length) := by
  induction data generalizing txt with
  | nil => exact ⟨0, by simp [printfEncodeLoop, printfText], by simpa [printfText] using h, fun _ => rfl⟩
  | cons c data ih =>
    rcases Nat.lt_or_ge (txt.length + 4) maxlen with hroom | hfull
    · have hlen := printfOctet_length c
      have htxt : (txt ++ printfOctet c).length < maxlen := by
        rw [length_append]
        omega
      obtain ⟨k, hrun, hlt, hall⟩ := ih htxt
      rw [append_assoc] at hrun hlt
      refine ⟨k + 1, ?_, hlt, fun hmax => ?_⟩
      · rw [printfEncodeLoop, if_neg (by omega), printfEncodeOctet_eq hroom]
        exact hrun
      · have hk := hall (by rw [length_append]; rw [length_cons] at hmax; omega)
        rw [hk, length_cons]
    · refine ⟨0, ?_, by simpa [printfText] using h, fun hmax => ?_⟩
      · rw [printfEncodeLoop, if_pos hfull, take_zero]
        simp [printfText]
      · rw [length_cons] at hmax
        omega

theorem printfEncode_eq (data : Bytes) (h : 1 ≤ maxlen) :
    ∃ k, printfEncode maxlen data = .ok (printfText (data.take k) ++ [0]) ∧
      (printfText (data.take k) ++ [0]).length ≤ maxlen ∧
      (4 * data.length + 1 ≤ maxlen → k = data.length) := by
  obtain ⟨k, hrun, hlt, hall⟩ := printfEncodeLoop_eq data (show ([] : Bytes).length < maxlen from h)
  rw [nil_append] at hrun hlt
  have hend : (printfText (data.take k)).length + [(0 : UInt8)].length ≤ maxlen := hlt
  refine ⟨k, ?_, by rw [length_append]; exact hend, fun hmax => hall (by rw [length_nil]; omega)⟩
  unfold printfEncode
  rw [hrun]
  exact put_ok hend

/-! ## Reading it back -/

theorem printfDecodeLoop_octet (h : buf.length + 1 < size) (rest : Bytes) :
    printfDecodeLoop size (printfOctet c ++ rest) buf = printfDecodeLoop size rest (buf ++ [c]) := by
  have hput : ∀ b : UInt8, put size [b] buf = .ok (buf ++ [b]) := fun b =>
    put_ok (show buf.length + 1 ≤ size by omega)
  have hroom : ¬ buf.length + 1 ≥ size := by omega
  -- one escape, whose letter says which octet it is
  have hescape : ∀ s b, printfEscape s = ([b], rest) →
      printfDecodeLoop size (0x5c :: s) buf = printfDecodeLoop size rest (buf ++ [b]) := by
    intro s b hs
    rw [printfDecodeLoop, if_neg hroom, if_pos rfl, hs, hput]
    rfl
  unfold printfOctet
  split_ifs with h₁ h₂ h₃ h₄ h₅ h₆ hprint
  · rw [h₁]
    exact hescape _ _ rfl
  · rw [h₂]
    exact hescape _ _ rfl
  · rw [h₃]
    exact hescape _ _ rfl
  · rw [h₄]
    exact hescape _ _ rfl
  · rw [h₅]
    exact hescape _ _ rfl
  · rw [h₆]
    exact hescape _ _ rfl
  · rw [singleton_append, printfDecodeLoop, if_neg hroom, if_neg h₂, hput]
    rfl
  · -- two digits are read when two follow, and never a third
    apply hescape
    show printfHex (hexDigits 2 c.toNat ++ rest) = _
    have hdrop : (hexDigits 2 c.toNat ++ rest).drop 2 = rest := rfl
    unfold printfHex
    rw [hex2byte_hexDigits, hdrop]
    show ([UInt8.ofNat c.toNat], rest) = _
    rw [UInt8.ofNat_toNat]

theorem printfDecodeLoop_text (data : Bytes) {buf : Bytes} (h : buf.length < size) :
    printfDecodeLoop size (printfText data) buf = .ok (buf ++ data.take (size - 1 - buf.length)) := by
  induction data generalizing buf with
  | nil => simp [printfText, printfDecodeLoop]
  | cons c data ih =>
    rw [printfText_cons]
    rcases Nat.lt_or_ge (buf.length + 1) size with hroom | hfull
    · have hbuf : (buf ++ [c]).length = buf.length + 1 := by simp
      rw [printfDecodeLoop_octet hroom, ih (by omega), hbuf, append_assoc,
        show size - 1 - buf.length = size - 1 - (buf.length + 1) + 1 by omega]
      rfl
    · obtain ⟨b, s, hs⟩ : ∃ b s, printfOctet c ++ printfText data = b :: s := by
        apply exists_cons_of_ne_nil
        intro hnil
        have hlen := printfOctet_length c
        rw [(append_eq_nil_iff.1 hnil).1, length_nil] at hlen
        omega
      rw [hs, printfDecodeLoop, if_pos hfull, show size - 1 - buf.length = 0 by omega, take_zero,
        append_nil]

theorem printfDecode_text (data : Bytes) (h : data.length < size) :
    printfDecode size (printfText data) = .ok (data ++ [0], data.length) := by
  have hloop : printfDecodeLoop size (printfText data) [] = .ok data := by
    rw [printfDecodeLoop_text data (show ([] : Bytes).length < size by rw [length_nil]; omega),
      nil_append, length_nil, take_of_length_le (by omega)]
  unfold printfDecode
  rw [hloop]
  show (do let written ← if data.length < size then put size [0] data else .ok data
           .ok (written, data.length)) = _
  rw [if_pos h, put_ok (show data.length + 1 ≤ size by omega)]
  rfl

theorem wpaConfigParseString_text (alloc : Nat → Bool) (data : Bytes) :
    wpaConfigParseString alloc (0x50 :: 0x22 :: (printfText data ++ [0x22])) =
      .ok (if alloc 0 && alloc 1 then some data else none) := by
  have hlen : (printfText data ++ [0x22]).length - 1 = (printfText data).length := by
    rw [length_append, length_singleton]
    omega
  have hdecode := printfDecode_text data (Nat.lt_succ_of_le (length_le_printfText data))
  simp only [wpaConfigParseString, strrchr_last, hlen, dupBinstr, take_left]
  cases alloc 0 <;> cases alloc 1 <;> simp [hdecode, Bind.bind, Except.bind]

/-- The printf encoding is read back, and its text stays within the buffer it is given. -/
theorem printf_round_trip (d : Bytes) (maxlen : Nat) (hmax : 1 ≤ maxlen) :
    ∃ txt, printfEncode maxlen d = .ok txt ∧ txt.length ≤ maxlen ∧
      (4 * d.length + 1 ≤ maxlen →
        (∀ size, d.length < size →
          ∃ buf, printfDecode size (Common.cString txt) = .ok (buf, d.length) ∧ buf.take d.length = d) ∧
        ∀ alloc, wpaConfigParseString alloc ([0x50, 0x22] ++ Common.cString txt ++ [0x22]) =
          .ok (if alloc 0 && alloc 1 then some d else none)) := by
  obtain ⟨k, hrun, hlen, hall⟩ := printfEncode_eq d hmax
  refine ⟨_, hrun, hlen, fun hroom => ?_⟩
  rw [hall hroom, take_length, cString_append (zero_not_mem_printfText d)]
  constructor
  · intro size hsize
    exact ⟨d ++ [0], printfDecode_text d hsize, take_left' rfl⟩
  · intro alloc
    exact wpaConfigParseString_text alloc d

/-- A letter, a quote and an octet that is not printable, in the least buffer. -/
theorem printf_round_trip_three :
    ∃ txt, printfEncode 13 [0x61, 0x22, 0xff] = .ok txt ∧ ∀ alloc, alloc 0 = true → alloc 1 = true →
      wpaConfigParseString alloc ([0x50, 0x22] ++ Common.cString txt ++ [0x22]) =
        .ok (some [0x61, 0x22, 0xff]) := by
  obtain ⟨txt, hrun, -, hback⟩ := printf_round_trip [0x61, 0x22, 0xff] 13 (by decide)
  refine ⟨txt, hrun, fun alloc h₀ h₁ => ?_⟩
  rw [(hback (by decide)).2 alloc, h₀, h₁]
  rfl

end Printf

end Hostap
