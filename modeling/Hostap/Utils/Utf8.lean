import Hostap.Lib.Except
import Hostap.Lib.Reads
import Hostap.Utils.Common

/-!
# Escaped UTF-8 text

`utf8_escape()` of `utils/common.c` puts a backslash before a backslash or a single quote, and
`utf8_unescape()` takes it away again, also from text in single quotes.

Both are given a length, or zero for a string that ends at a NUL, and the room of the output; `Readable` is the
memory that goes with such a length.

* `utf8EscapeLoop_eq` and `utf8UnescapeLoop_eq` are the loops on text with enough room;
* `utf8EscapeLoop_inside` and `utf8UnescapeLoop_inside` are the loops on any octets with any room.
-/

namespace Hostap

namespace Utf8

open Octets Buffer Output Common List

/-- `os_strlen()`, which reads on to the NUL. -/
def osStrlen (inp : Bytes) : Except OutOfBounds Nat :=
  if 0 ∈ inp then .ok (Common.cString inp).length else .error ⟨inp.length, 1⟩

def utf8InSize (inp : Bytes) (inSize : Nat) : Except OutOfBounds Nat :=
  if inSize = 0 then osStrlen inp else .ok inSize

def utf8Terminate (outSize : Nat) (outp : Bytes) (resSize : Nat) : Except OutOfBounds (Bytes × Nat) :=
  if resSize < outSize then do
    let outp ← put outSize [0] outp
    .ok (outp, resSize)
  else .ok (outp, resSize)

/-- The loop of `utf8_unescape()` with `in_size` octets left from `pos` on. -/
def utf8UnescapeLoop (inp : Bytes) (outSize : Nat) : Nat → Nat → Bytes → Nat → Except OutOfBounds (Bytes × Nat)
  | 0, _, outp, resSize => utf8Terminate outSize outp resSize
  | inSize + 1, pos, outp, resSize =>
    if resSize ≥ outSize then .ok (outp, 0)
    else do
      let c ← octetAt inp pos
      if c = 0x27 then do
        -- a bare quote ends the text
        let outp ← put outSize [0] outp
        .ok (outp, resSize)
      else if c = 0x5c then
        match inSize with
        | 0 => .ok (outp, 0)
        | inSize + 1 => do
          let c ← octetAt inp (pos + 1)
          let outp ← put outSize [c] outp
          utf8UnescapeLoop inp outSize inSize (pos + 2) outp (resSize + 1)
      else do
        let outp ← put outSize [c] outp
        utf8UnescapeLoop inp outSize inSize (pos + 1) outp (resSize + 1)

/-- What is written at `outp`, and the length that is returned. The test for a leading quote reads an octet
before it looks at the length. -/
def utf8Unescape (inp : Option Bytes) (inSize : Nat) (outp : Bool) (outSize : Nat) :
    Except OutOfBounds (Bytes × Nat) :=
  match inp, outp with
  | some inp, true => do
    let inSize ← utf8InSize inp inSize
    let c ← octetAt inp 0
    if c = 0x27 ∧ inSize ≠ 0 then utf8UnescapeLoop inp outSize (inSize - 1) 1 [] 0
    else utf8UnescapeLoop inp outSize inSize 0 [] 0
  | _, _ => .ok ([], 0)

/-- The loop of `utf8_escape()`. The length counts an octet before it is written. -/
def utf8EscapeLoop (inp : Bytes) (outSize : Nat) : Nat → Nat → Bytes → Nat → Except OutOfBounds (Bytes × Nat)
  | 0, _, outp, resSize => utf8Terminate outSize outp resSize
  | inSize + 1, pos, outp, resSize =>
    if resSize ≥ outSize then .ok (outp, 0)
    else do
      let c ← octetAt inp pos
      if c = 0x5c ∨ c = 0x27 then
        if resSize + 1 ≥ outSize then .ok (outp, 0)
        else do
          let outp ← put outSize [0x5c] outp
          let outp ← put outSize [c] outp
          utf8EscapeLoop inp outSize inSize (pos + 1) outp (resSize + 2)
      else do
        let outp ← put outSize [c] outp
        utf8EscapeLoop inp outSize inSize (pos + 1) outp (resSize + 1)

def utf8Escape (inp : Option Bytes) (inSize : Nat) (outp : Bool) (outSize : Nat) :
    Except OutOfBounds (Bytes × Nat) :=
  match inp, outp with
  | some inp, true => do
    let inSize ← utf8InSize inp inSize
    utf8EscapeLoop inp outSize inSize 0 [] 0
  | _, _ => .ok ([], 0)

/-! ## What a caller hands over -/

/-- The octets that may be read for a length: as many as it says, or for zero a string with its NUL. -/
def Readable (inp : Bytes) (inSize : Nat) : Prop :=
  if inSize = 0 then ∃ s, 0 ∉ s ∧ inp = s ++ [0] else inp.length = inSize

/-- A buffer with a text at its front, given by its length or by a NUL behind it. -/
def TextAt (inp : Bytes) (inSize : Nat) (s : Bytes) : Prop :=
  ∃ rest, (inp = s ++ rest ∧ inSize = s.length) ∨ (inp = s ++ 0 :: rest ∧ inSize = 0)

/-- The call returns, and what it has written lies within `out_size` octets, also what it says it has. -/
def Inside (outSize : Nat) (r : Except OutOfBounds (Bytes × Nat)) : Prop :=
  ∃ outp resSize, r = .ok (outp, resSize) ∧ resSize ≤ outp.length ∧ outp.length ≤ outSize

variable {inp outp s : Bytes} {inSize outSize pos resSize : Nat} {c d : UInt8}

theorem osStrlen_eq (h : 0 ∉ s) (rest : Bytes) : osStrlen (s ++ 0 :: rest) = .ok s.length := by
  unfold osStrlen
  rw [if_pos (by simp), cString_append h]

theorem TextAt.utf8InSize (h : TextAt inp inSize s) (hne : s ≠ []) (hnul : 0 ∉ s) :
    utf8InSize inp inSize = .ok s.length := by
  obtain ⟨rest, ⟨rfl, rfl⟩ | ⟨rfl, rfl⟩⟩ := h
  · exact if_neg (fun hlen => hne (length_eq_zero_iff.1 hlen))
  · exact osStrlen_eq hnul rest

theorem TextAt.front (h : TextAt inp inSize s) : ∃ rest, inp = s ++ rest := by
  obtain ⟨rest, ⟨rfl, -⟩ | ⟨rfl, -⟩⟩ := h
  · exact ⟨rest, rfl⟩
  · exact ⟨0 :: rest, rfl⟩

theorem Readable.utf8InSize (h : Readable inp inSize) :
    ∃ n, utf8InSize inp inSize = .ok n ∧ n ≤ inp.length ∧ 0 < inp.length := by
  unfold Readable at h
  unfold Utf8.utf8InSize
  by_cases h0 : inSize = 0
  · rw [if_pos h0] at h
    obtain ⟨s, hnul, rfl⟩ := h
    rw [if_pos h0]
    refine ⟨s.length, osStrlen_eq hnul [], ?_, ?_⟩
    · rw [length_append]
      omega
    · simp
  · rw [if_neg h0] at h
    rw [if_neg h0]
    exact ⟨inSize, rfl, by omega, by omega⟩

/-! ## One octet in a loop -/

theorem put_octet (h : outp.length < outSize) (c : UInt8) : put outSize [c] outp = .ok (outp ++ [c]) :=
  put_ok (show outp.length + 1 ≤ outSize from h)

theorem utf8UnescapeLoop_full (h : resSize ≥ outSize) :
    utf8UnescapeLoop inp outSize (inSize + 1) pos outp resSize = .ok (outp, 0) := by
  conv_lhs => unfold utf8UnescapeLoop
  exact if_pos h

section Unescape

variable (hlen : resSize = outp.length) (hroom : resSize < outSize)

include hlen hroom

theorem utf8UnescapeLoop_quote (hc : octetAt inp pos = .ok 0x27) :
    utf8UnescapeLoop inp outSize (inSize + 1) pos outp resSize = .ok (outp ++ [0], resSize) := by
  subst hlen
  conv_lhs => unfold utf8UnescapeLoop
  rw [if_neg (by omega), hc]
  show (put outSize [0] outp >>= fun outp' => .ok (outp', outp.length)) = _
  rw [put_octet hroom]
  rfl

theorem utf8UnescapeLoop_truncated (hc : octetAt inp pos = .ok 0x5c) :
    utf8UnescapeLoop inp outSize 1 pos outp resSize = .ok (outp, 0) := by
  conv_lhs => unfold utf8UnescapeLoop
  rw [if_neg (by omega), hc]
  rfl

theorem utf8UnescapeLoop_escape (hc : octetAt inp pos = .ok 0x5c) (hd : octetAt inp (pos + 1) = .ok d) :
    utf8UnescapeLoop inp outSize (inSize + 2) pos outp resSize =
      utf8UnescapeLoop inp outSize inSize (pos + 2) (outp ++ [d]) (resSize + 1) := by
  subst hlen
  conv_lhs => unfold utf8UnescapeLoop
  rw [if_neg (by omega), hc]
  show (octetAt inp (pos + 1) >>= fun c => put outSize [c] outp >>= fun outp' =>
    utf8UnescapeLoop inp outSize inSize (pos + 2) outp' (outp.length + 1)) = _
  rw [hd]
  show (put outSize [d] outp >>= fun outp' => _) = _
  rw [put_octet hroom]
  rfl

theorem utf8UnescapeLoop_octet (hc : octetAt inp pos = .ok c) (hquote : c ≠ 0x27) (hback : c ≠ 0x5c) :
    utf8UnescapeLoop inp outSize (inSize + 1) pos outp resSize =
      utf8UnescapeLoop inp outSize inSize (pos + 1) (outp ++ [c]) (resSize + 1) := by
  subst hlen
  conv_lhs => unfold utf8UnescapeLoop
  rw [if_neg (by omega), hc, bind_of_ok rfl, if_neg hquote, if_neg hback, put_octet hroom]
  rfl

end Unescape

def utf8EscapeOctet (c : UInt8) : Bytes := if c = 0x5c ∨ c = 0x27 then [0x5c, c] else [c]

theorem utf8EscapeLoop_succ (hlen : resSize = outp.length) (hc : octetAt inp pos = .ok c) :
    utf8EscapeLoop inp outSize (inSize + 1) pos outp resSize =
      if resSize + (utf8EscapeOctet c).length ≤ outSize then
        utf8EscapeLoop inp outSize inSize (pos + 1) (outp ++ utf8EscapeOctet c)
          (resSize + (utf8EscapeOctet c).length)
      else .ok (outp, 0) := by
  subst hlen
  have hstep : utf8EscapeLoop inp outSize (inSize + 1) pos outp outp.length =
      if outp.length ≥ outSize then .ok (outp, 0)
      else if c = 0x5c ∨ c = 0x27 then
        if outp.length + 1 ≥ outSize then .ok (outp, 0)
        else put outSize [0x5c] outp >>= fun outp' => put outSize [c] outp' >>= fun outp' =>
          utf8EscapeLoop inp outSize inSize (pos + 1) outp' (outp.length + 2)
      else put outSize [c] outp >>= fun outp' =>
        utf8EscapeLoop inp outSize inSize (pos + 1) outp' (outp.length + 1) := by
    conv_lhs => unfold utf8EscapeLoop
    rw [hc]
    rfl
  rw [hstep]
  unfold utf8EscapeOctet
  by_cases hesc : c = 0x5c ∨ c = 0x27
  · rw [if_pos hesc, if_pos hesc]
    show _ = if outp.length + 2 ≤ outSize then _ else _
    by_cases hroom : outp.length + 2 ≤ outSize
    · have hroom' : (outp ++ [0x5c]).length < outSize := by
        rw [length_append]
        exact hroom
      rw [if_neg (by omega), if_neg (by omega), put_octet (by omega), bind_of_ok rfl, put_octet hroom',
        if_pos hroom, append_assoc]
      rfl
    · rw [if_neg hroom]
      split_ifs with h₁ h₂
      · rfl
      · rfl
      · omega
  · rw [if_neg hesc, if_neg hesc]
    show _ = if outp.length + 1 ≤ outSize then _ else _
    by_cases hroom : outp.length + 1 ≤ outSize
    · rw [if_neg (by omega), if_pos hroom, put_octet hroom]
      rfl
    · rw [if_pos (by omega), if_neg hroom]

/-! ## Any octets and any room -/

theorem utf8Terminate_inside (hlen : resSize = outp.length) (hout : outp.length ≤ outSize) :
    Inside outSize (utf8Terminate outSize outp resSize) := by
  subst hlen
  unfold utf8Terminate
  by_cases h : outp.length < outSize
  · rw [if_pos h, put_octet h]
    refine ⟨outp ++ [0], outp.length, rfl, ?_, ?_⟩
    · simp
    · rw [length_append]
      exact h
  · rw [if_neg h]
    exact ⟨outp, outp.length, rfl, Nat.le_refl _, hout⟩

theorem inside_zero (hout : outp.length ≤ outSize) : Inside outSize (.ok (outp, 0)) :=
  ⟨outp, 0, rfl, Nat.zero_le _, hout⟩

theorem utf8UnescapeLoop_inside (hpos : pos + inSize ≤ inp.length) (hlen : resSize = outp.length)
    (hout : outp.length ≤ outSize) : Inside outSize (utf8UnescapeLoop inp outSize inSize pos outp resSize) := by
  -- an escape takes two octets of the input, so the induction is on all shorter inputs
  induction inSize using Nat.strong_induction_on generalizing pos outp resSize with
  | _ inSize ih =>
    cases inSize with
    | zero => exact utf8Terminate_inside hlen hout
    | succ n =>
      by_cases hroom : resSize < outSize
      · have hgrow (c : UInt8) : (outp ++ [c]).length ≤ outSize := by
          rw [length_append, ← hlen]
          exact hroom
        have hlen' (c : UInt8) : resSize + 1 = (outp ++ [c]).length := by
          rw [length_append, hlen]
          rfl
        have hc := octetAt_ok (show pos < inp.length by omega)
        by_cases hquote : inp[pos] = 0x27
        · rw [hquote] at hc
          rw [utf8UnescapeLoop_quote hlen hroom hc]
          refine ⟨outp ++ [0], resSize, rfl, ?_, hgrow 0⟩
          rw [← hlen' 0]
          omega
        · by_cases hback : inp[pos] = 0x5c
          · rw [hback] at hc
            cases n with
            | zero =>
              rw [utf8UnescapeLoop_truncated hlen hroom hc]
              exact inside_zero hout
            | succ m =>
              have hd := octetAt_ok (show pos + 1 < inp.length by omega)
              rw [utf8UnescapeLoop_escape hlen hroom hc hd]
              exact ih m (by omega) (by omega) (hlen' _) (hgrow _)
          · rw [utf8UnescapeLoop_octet hlen hroom hc hquote hback]
            exact ih n (by omega) (by omega) (hlen' _) (hgrow _)
      · rw [utf8UnescapeLoop_full (by omega)]
        exact inside_zero hout

theorem utf8EscapeLoop_inside (hpos : pos + inSize ≤ inp.length) (hlen : resSize = outp.length)
    (hout : outp.length ≤ outSize) : Inside outSize (utf8EscapeLoop inp outSize inSize pos outp resSize) := by
  induction inSize generalizing pos outp resSize with
  | zero => exact utf8Terminate_inside hlen hout
  | succ n ih =>
    rw [utf8EscapeLoop_succ hlen (octetAt_ok (show pos < inp.length by omega))]
    by_cases hroom : resSize + (utf8EscapeOctet inp[pos]).length ≤ outSize
    · rw [if_pos hroom]
      refine ih (by omega) ?_ ?_
      · rw [length_append, hlen]
      · rw [length_append, ← hlen]
        exact hroom
    · rw [if_neg hroom]
      exact inside_zero hout

/-! ## Text with enough room -/

def utf8Escaped (s : Bytes) : Bytes := s.flatMap utf8EscapeOctet

theorem utf8Escaped_cons (c : UInt8) (s : Bytes) :
    utf8Escaped (c :: s) = utf8EscapeOctet c ++ utf8Escaped s := rfl

theorem utf8EscapeOctet_length (c : UInt8) :
    1 ≤ (utf8EscapeOctet c).length ∧ (utf8EscapeOctet c).length ≤ 2 := by
  unfold utf8EscapeOctet
  split_ifs <;> simp

theorem utf8Escaped_length (s : Bytes) :
    s.length ≤ (utf8Escaped s).length ∧ (utf8Escaped s).length ≤ 2 * s.length := by
  induction s with
  | nil => exact ⟨Nat.le_refl _, Nat.le_refl _⟩
  | cons c s ih =>
    have hc := utf8EscapeOctet_length c
    rw [utf8Escaped_cons, length_append, length_cons]
    omega

theorem utf8Escaped_ne_nil (hne : s ≠ []) : utf8Escaped s ≠ [] := by
  have hpos := length_pos_iff.2 hne
  have hlen := (utf8Escaped_length s).1
  exact length_pos_iff.1 (by omega)

theorem zero_not_mem_utf8Escaped (hnul : 0 ∉ s) : 0 ∉ utf8Escaped s := by
  intro hmem
  obtain ⟨c, hc, h0⟩ := mem_flatMap.1 hmem
  have hzero : c = 0 := by
    unfold utf8EscapeOctet at h0
    split_ifs at h0 <;> simpa [eq_comm] using h0
  exact hnul (hzero ▸ hc)

theorem utf8Escaped_head (s rest : Bytes) (hne : s ≠ []) :
    ∃ c, octetAt (utf8Escaped s ++ rest) 0 = .ok c ∧ c ≠ 0x27 := by
  cases s with
  | nil => exact absurd rfl hne
  | cons c s =>
    rw [utf8Escaped_cons]
    unfold utf8EscapeOctet
    by_cases hesc : c = 0x5c ∨ c = 0x27
    · rw [if_pos hesc]
      exact ⟨0x5c, rfl, by decide⟩
    · rw [if_neg hesc]
      exact ⟨c, rfl, fun h => hesc (.inr h)⟩

theorem utf8Terminate_eq (h : outp.length < outSize) :
    utf8Terminate outSize outp outp.length = .ok (outp ++ [0], outp.length) := by
  unfold utf8Terminate
  rw [if_pos h, put_octet h]
  rfl

theorem utf8EscapeLoop_eq (pre s rest outp : Bytes)
    (hroom : outp.length + (utf8Escaped s).length < outSize) :
    utf8EscapeLoop (pre ++ (s ++ rest)) outSize s.length pre.length outp outp.length =
      .ok (outp ++ utf8Escaped s ++ [0], outp.length + (utf8Escaped s).length) := by
  induction s generalizing pre outp with
  | nil =>
    rw [show utf8Escaped [] = [] from rfl, append_nil]
    exact utf8Terminate_eq hroom
  | cons c s ih =>
    rw [utf8Escaped_cons, length_append] at hroom
    have hc : octetAt (pre ++ (c :: s ++ rest)) pre.length = .ok c := octetAt_middle rfl
    have ih := ih (pre ++ [c]) (outp ++ utf8EscapeOctet c) (by rw [length_append]; omega)
    rw [append_assoc, length_append, length_append] at ih
    rw [length_cons, utf8EscapeLoop_succ rfl hc, if_pos (by omega)]
    refine ih.trans ?_
    rw [utf8Escaped_cons, length_append, append_assoc outp, Nat.add_assoc]

theorem utf8UnescapeLoop_escapeOctet (pre rest outp : Bytes) (c : UInt8) (inSize : Nat)
    (hroom : outp.length < outSize) :
    utf8UnescapeLoop (pre ++ (utf8EscapeOctet c ++ rest)) outSize ((utf8EscapeOctet c).length + inSize)
        pre.length outp outp.length =
      utf8UnescapeLoop (pre ++ (utf8EscapeOctet c ++ rest)) outSize inSize (pre ++ utf8EscapeOctet c).length
        (outp ++ [c]) (outp ++ [c]).length := by
  rw [length_append, length_append]
  unfold utf8EscapeOctet
  by_cases hesc : c = 0x5c ∨ c = 0x27
  · rw [if_pos hesc]
    have hback : octetAt (pre ++ ([0x5c, c] ++ rest)) pre.length = .ok 0x5c := octetAt_middle rfl
    have hd : octetAt (pre ++ ([0x5c, c] ++ rest)) (pre.length + 1) = .ok c := by
      rw [show pre ++ ([0x5c, c] ++ rest) = (pre ++ [0x5c]) ++ c :: rest by simp]
      exact octetAt_middle (by simp)
    rw [show [0x5c, c].length + inSize = inSize + 2 from Nat.add_comm 2 inSize]
    exact utf8UnescapeLoop_escape rfl hroom hback hd
  · rw [if_neg hesc]
    have hc : octetAt (pre ++ ([c] ++ rest)) pre.length = .ok c := octetAt_middle rfl
    rw [show [c].length + inSize = inSize + 1 from Nat.add_comm 1 inSize]
    exact utf8UnescapeLoop_octet rfl hroom hc (fun h => hesc (.inr h)) (fun h => hesc (.inl h))

theorem utf8UnescapeLoop_eq (pre s rest outp : Bytes) (inSize : Nat)
    (hroom : outp.length + s.length ≤ outSize) :
    utf8UnescapeLoop (pre ++ (utf8Escaped s ++ rest)) outSize ((utf8Escaped s).length + inSize) pre.length outp
        outp.length =
      utf8UnescapeLoop (pre ++ (utf8Escaped s ++ rest)) outSize inSize (pre ++ utf8Escaped s).length
        (outp ++ s) (outp ++ s).length := by
  induction s generalizing pre outp with
  | nil => simp [utf8Escaped]
  | cons c s ih =>
    rw [length_cons] at hroom
    have hfirst := utf8UnescapeLoop_escapeOctet pre (utf8Escaped s ++ rest) outp c
      ((utf8Escaped s).length + inSize) (show outp.length < outSize by omega)
    have hrest := ih (pre ++ utf8EscapeOctet c) (outp ++ [c])
      (by rw [length_append, length_singleton]; omega)
    simp only [append_assoc, singleton_append] at hrest
    rw [utf8Escaped_cons, length_append, Nat.add_assoc, append_assoc]
    exact hfirst.trans hrest

/-! ## The functions -/

theorem utf8Escape_eq (hin : TextAt inp inSize s) (hne : s ≠ []) (hnul : 0 ∉ s)
    (hroom : (utf8Escaped s).length < outSize) :
    utf8Escape (some inp) inSize true outSize = .ok (utf8Escaped s ++ [0], (utf8Escaped s).length) := by
  obtain ⟨rest, rfl⟩ := hin.front
  have hfits : ([] : Bytes).length + (utf8Escaped s).length < outSize := by simpa using hroom
  have hloop := utf8EscapeLoop_eq [] s rest [] hfits
  show (utf8InSize (s ++ rest) inSize >>= fun inSize => utf8EscapeLoop (s ++ rest) outSize inSize 0 [] 0) = _
  rw [hin.utf8InSize hne hnul, bind_of_ok rfl]
  simpa using hloop

theorem utf8Unescape_eq (hin : TextAt inp inSize (utf8Escaped s)) (hne : s ≠ []) (hnul : 0 ∉ s)
    (hroom : s.length < outSize) :
    utf8Unescape (some inp) inSize true outSize = .ok (s ++ [0], s.length) := by
  obtain ⟨rest, rfl⟩ := hin.front
  obtain ⟨c, hc, hquote⟩ := utf8Escaped_head s rest hne
  have hfits : ([] : Bytes).length + s.length ≤ outSize := by simpa using hroom.le
  have hloop := utf8UnescapeLoop_eq [] s rest [] 0 hfits
  have hsize := hin.utf8InSize (utf8Escaped_ne_nil hne) (zero_not_mem_utf8Escaped hnul)
  unfold utf8Unescape
  dsimp only
  rw [hsize, bind_of_ok rfl, hc, bind_of_ok rfl, if_neg (fun h => hquote h.1)]
  exact hloop.trans (utf8Terminate_eq hroom)

theorem utf8Unescape_quoted (hin : TextAt inp inSize (0x27 :: utf8Escaped s ++ [0x27])) (hnul : 0 ∉ s)
    (hroom : s.length < outSize) :
    utf8Unescape (some inp) inSize true outSize = .ok (s ++ [0], s.length) := by
  have hnul' : 0 ∉ 0x27 :: utf8Escaped s ++ [0x27] := by
    simpa using zero_not_mem_utf8Escaped hnul
  have hsize := hin.utf8InSize (by simp) hnul'
  obtain ⟨rest, rfl⟩ := hin.front
  have hinp : 0x27 :: utf8Escaped s ++ [0x27] ++ rest = [0x27] ++ (utf8Escaped s ++ 0x27 :: rest) := by simp
  have hfirst : octetAt (0x27 :: utf8Escaped s ++ [0x27] ++ rest) 0 = .ok 0x27 := rfl
  have hlen : (0x27 :: utf8Escaped s ++ [0x27]).length - 1 = (utf8Escaped s).length + 1 := by simp
  have hfits : ([] : Bytes).length + s.length ≤ outSize := by simpa using hroom.le
  have hloop := utf8UnescapeLoop_eq [0x27] s (0x27 :: rest) [] 1 hfits
  have hquote :
      octetAt ([0x27] ++ (utf8Escaped s ++ 0x27 :: rest)) ([0x27] ++ utf8Escaped s).length = .ok 0x27 := by
    rw [← append_assoc]
    exact octetAt_middle rfl
  unfold utf8Unescape
  dsimp only
  rw [hsize, bind_of_ok rfl, hfirst, bind_of_ok rfl, if_pos ⟨rfl, by simp⟩, hlen, hinp]
  refine hloop.trans ?_
  exact utf8UnescapeLoop_quote rfl hroom hquote

/-- `utf8_unescape()` reads back what `utf8_escape()` wrote, by itself or between quotes, with a length or a NUL
behind it; and with any input and any room neither of them reads or writes outside. -/
theorem utf8_escape_round_trip :
    (∀ (s inp : Bytes) (inSize outSize outSize' : Nat), s ≠ [] → 0 ∉ s → TextAt inp inSize s →
      2 * s.length + 1 ≤ outSize → 2 * s.length + 1 ≤ outSize' →
      ∃ esc, utf8Escape (some inp) inSize true outSize = .ok (esc ++ [0], esc.length) ∧
        (∀ inp' inSize', TextAt inp' inSize' esc ∨ TextAt inp' inSize' (0x27 :: esc ++ [0x27]) →
          utf8Unescape (some inp') inSize' true outSize' = .ok (s ++ [0], s.length))) ∧
    ∀ (inp : Option Bytes) (inSize outSize : Nat) (outp : Bool), (∀ buf, inp = some buf → Readable buf inSize) →
      Inside outSize (utf8Escape inp inSize outp outSize) ∧
        Inside outSize (utf8Unescape inp inSize outp outSize) := by
  constructor
  · intro s inp inSize outSize outSize' hne hnul hin hout hout'
    have hlen := (utf8Escaped_length s).2
    refine ⟨utf8Escaped s, utf8Escape_eq hin hne hnul (by omega), ?_⟩
    rintro inp' inSize' (hplain | hquoted)
    · exact utf8Unescape_eq hplain hne hnul (by omega)
    · exact utf8Unescape_quoted hquoted hnul (by omega)
  · intro inp inSize outSize outp hread
    have hnothing : Inside outSize (.ok ([], 0)) := inside_zero (Nat.zero_le _)
    cases inp with
    | none => exact ⟨hnothing, hnothing⟩
    | some buf =>
      cases outp with
      | false => exact ⟨hnothing, hnothing⟩
      | true =>
        obtain ⟨n, hn, hle, hpos⟩ := (hread buf rfl).utf8InSize
        have hc := octetAt_ok hpos
        constructor
        · unfold utf8Escape
          dsimp only
          rw [hn, bind_of_ok rfl]
          exact utf8EscapeLoop_inside (by omega) rfl (Nat.zero_le _)
        · unfold utf8Unescape
          dsimp only
          rw [hn, bind_of_ok rfl, hc, bind_of_ok rfl]
          split_ifs with hquote
          · exact utf8UnescapeLoop_inside (by omega) rfl (Nat.zero_le _)
          · exact utf8UnescapeLoop_inside (by omega) rfl (Nat.zero_le _)

/-- `it's \`, without a NUL and then with one, and a backslash at the end of the input. -/
theorem utf8_escape_round_trip_small :
    utf8Escape (some (ascii "it's \\")) 6 true 13 = .ok (ascii "it\\'s \\\\" ++ [0], 8) ∧
      utf8Unescape (some (ascii "'it\\'s \\\\'" ++ [0])) 0 true 13 = .ok (ascii "it's \\" ++ [0], 6) ∧
      Inside 1 (utf8Unescape (some [0x5c]) 1 true 1) := by
  have hin : TextAt (ascii "it's \\") 6 (ascii "it's \\") := ⟨[], .inl ⟨rfl, rfl⟩⟩
  obtain ⟨esc, hesc, hback⟩ := utf8_escape_round_trip.1 (ascii "it's \\") (ascii "it's \\") 6 13 13 (by decide)
    (by decide) hin (by decide) (by decide)
  have hval : utf8Escape (some (ascii "it's \\")) 6 true 13 = .ok (ascii "it\\'s \\\\" ++ [0], 8) := by
    decide +kernel
  have heq : esc = ascii "it\\'s \\\\" := by
    have h := hesc.symm.trans hval
    exact append_cancel_right (congrArg Prod.fst (Except.ok.inj h))
  refine ⟨hval, hback _ 0 (.inr ⟨[], .inr ⟨?_, rfl⟩⟩), ?_⟩
  · rw [heq]
    decide +kernel
  · refine (utf8_escape_round_trip.2 (some [0x5c]) 1 1 true ?_).2
    intro buf hbuf
    cases hbuf
    exact rfl

end Utf8

end Hostap
