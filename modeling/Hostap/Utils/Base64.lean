import Hostap.Lib.Output
import Mathlib.Tactic.IntervalCases

/-!
# Base64

The encoder and the decoder of `utils/base64.c`, with the table of the 64 characters as an argument, as they
have it. The encoder allocates an estimate of the length of its text. Its decoder allocates three octets for
every four characters it knows, after it has counted them, and skips all other characters.

* `encodeLoop_eq` and `encodeText_length` are about the encoder: it writes `encodeText`, and this text and its
  NUL are no longer than the estimate;
* `decodeLoop_filter` takes the other characters out of what is decoded, and `decodeLoop_padded` decodes the
  rest.
-/

namespace Hostap

namespace Base64

open Octets Buffer Output List

def base64Table : Bytes := ascii "ABCDEFGHIJKLMNOPQRSTUVWXYZabcdefghijklmnopqrstuvwxyz0123456789+/"
def base64UrlTable : Bytes := ascii "ABCDEFGHIJKLMNOPQRSTUVWXYZabcdefghijklmnopqrstuvwxyz0123456789-_"

/-- A value of the type `size_t`. -/
def sizeT (n : Nat) : Nat := n % 2 ^ 64

/-! ## Encoding -/

/-- `table[i & 0x3f]`. -/
def tableAt (table : Bytes) (i : UInt8) : UInt8 := table.getD (i &&& 0x3f).toNat 0

def block (table : Bytes) (a b c : UInt8) : Bytes :=
  [tableAt table (a >>> 2), tableAt table (((a &&& 0x03) <<< 4) ||| (b >>> 4)),
    tableAt table (((b &&& 0x0f) <<< 2) ||| (c >>> 6)), tableAt table c]

/-- The loop over the whole blocks: the octets that are left, the length of the line and what is written. -/
def encodeLoop (olen : Nat) (table : Bytes) (addPad : Bool) :
    Bytes → Nat → Bytes → Except OutOfBounds (Bytes × Nat × Bytes)
  | a :: b :: c :: src, lineLen, out => do
    let out ← put olen (block table a b c) out
    let lineLen := lineLen + 4
    -- without padding the line has no end, and its length is not looked at
    if addPad ∧ lineLen ≥ 72 then do
      let out ← put olen [0x0a] out
      encodeLoop olen table addPad src 0 out
    else
      encodeLoop olen table addPad src lineLen out
  | src, lineLen, out => .ok (src, lineLen, out)

/-- `if (add_pad) *pos++ = '='`. -/
def padding (addPad : Bool) : Bytes := if addPad then [0x3d] else []

/-- The characters of the one or two octets behind the whole blocks. -/
def lastBlock (table : Bytes) (addPad : Bool) : Bytes → Bytes
  | [a] => [tableAt table (a >>> 2), tableAt table ((a &&& 0x03) <<< 4)] ++ padding addPad ++ padding addPad
  | [a, b] =>
    [tableAt table (a >>> 2), tableAt table (((a &&& 0x03) <<< 4) ||| (b >>> 4)),
      tableAt table ((b &&& 0x0f) <<< 2)] ++ padding addPad
  | _ => []

def lastFeed (olen : Nat) (addPad : Bool) (lineLen : Nat) (out : Bytes) : Except OutOfBounds Bytes :=
  if addPad ∧ lineLen ≠ 0 then put olen [0x0a] out else .ok out

def encodeOlen (addPad : Bool) (len : Nat) : Nat :=
  let olen := sizeT (sizeT (len * 4) / 3 + 4)
  let olen := if addPad then sizeT (olen + olen / 72) else olen
  sizeT (olen + 1)

/-- `base64_gen_encode()`: the `*out_len` octets in front of the NUL, `none` for NULL. -/
def base64GenEncode (alloc : Bool) (src table : Bytes) (addPad : Bool) : Except OutOfBounds (Option Bytes) :=
  let olen := encodeOlen addPad src.length
  if olen < src.length then .ok none
  else if !alloc then .ok none
  else do
    let (rest, lineLen, out) ← encodeLoop olen table addPad src 0 []
    let out ← put olen (lastBlock table addPad rest) out
    let out ← lastFeed olen addPad (if rest = [] then lineLen else lineLen + 4) out
    let _ ← put olen [0] out
    .ok (some out)

/-! ## Decoding -/

/-- `dtable[]`; 0x80 stands for the characters that are skipped. -/
def dtable (table : Bytes) (c : UInt8) : UInt8 :=
  if c = 0x3d then 0
  else (table.zipIdx.foldl (fun t (b, i) c => if c = b then UInt8.ofNat i else t c) fun _ => 0x80) c

def octets (b₀ b₁ b₂ b₃ : UInt8) : Bytes :=
  [(b₀ <<< 2) ||| (b₁ >>> 4), (b₁ <<< 4) ||| (b₂ >>> 2), (b₂ <<< 6) ||| b₃]

/-- The second loop: the values of the block so far, the number of `=` and what is written. -/
def decodeLoop (olen : Nat) (table : Bytes) : Bytes → Bytes → Nat → Bytes → Except OutOfBounds (Option Bytes)
  | [], _, _, out => .ok (some out)
  | val :: src, blk, pad, out =>
    if dtable table val = 0x80 then decodeLoop olen table src blk pad out
    else
      let pad := if val = 0x3d then pad + 1 else pad
      match blk with
      | [b₀, b₁, b₂] => do
        let out ← put olen (octets b₀ b₁ b₂ (dtable table val)) out
        match pad with
        | 0 => decodeLoop olen table src [] 0 out
        | 1 => .ok (some (out.take (out.length - 1)))
        | 2 => .ok (some (out.take (out.length - 2)))
        | _ => .ok none
      | _ => decodeLoop olen table src (blk ++ [dtable table val]) pad out

def decodeCount (src table : Bytes) : Nat := src.countP fun c => dtable table c ≠ 0x80

def extraPad (count : Nat) : Nat := (4 - count % 4) % 4

/-- `base64_gen_decode()`: the `*out_len` octets, `none` for NULL. -/
def base64GenDecode (alloc : Bool) (src table : Bytes) : Except OutOfBounds (Option Bytes) :=
  let count := decodeCount src table
  if count = 0 then .ok none
  else
    let olen := (count + extraPad count) / 4 * 3
    if !alloc then .ok none
    else decodeLoop olen table (src ++ List.replicate (extraPad count) 0x3d) [] 0 []

/-! ## The alphabets -/

/-- A character of the alphabet: one of the 64, or `=`. -/
def inAlphabet (table : Bytes) (c : UInt8) : Bool := table.contains c || c == 0x3d

/-- What the proofs need of a table. -/
structure Alphabet (table : Bytes) : Prop where
  length : table.length = 64
  value : ∀ i : Fin 64, dtable table (table.getD i 0) = UInt8.ofNat i ∧ table.getD i 0 ≠ 0x3d
  lineFeed : inAlphabet table 0x0a = false

theorem alphabet_base64 : Alphabet base64Table := ⟨by decide, by decide +kernel, by decide⟩

theorem alphabet_base64Url : Alphabet base64UrlTable := ⟨by decide, by decide +kernel, by decide⟩

variable {table src out blk : Bytes} {olen pad : Nat} {addPad : Bool} {c : UInt8}

theorem fill_of_not_mem (entries : List (UInt8 × Nat)) (t : UInt8 → UInt8) (h : ∀ e ∈ entries, e.1 ≠ c) :
    entries.foldl (fun t (b, i) c => if c = b then UInt8.ofNat i else t c) t c = t c := by
  induction entries generalizing t with
  | nil => rfl
  | cons e entries ih =>
    rw [foldl_cons, ih _ fun e' he' => h e' (mem_cons_of_mem _ he')]
    exact if_neg fun hc => h e (mem_cons_self ..) hc.symm

theorem dtable_ne_iff (h : Alphabet table) (c : UInt8) :
    dtable table c ≠ 0x80 ↔ inAlphabet table c = true := by
  rw [inAlphabet, Bool.or_eq_true, contains_iff_mem, beq_iff_eq]
  constructor
  · intro hne
    by_contra hout
    rw [not_or] at hout
    apply hne
    rw [dtable, if_neg hout.2]
    apply fill_of_not_mem
    intro e he hc
    exact hout.1 (hc ▸ (mem_zipIdx' he).2 ▸ getElem_mem _)
  · rintro (hmem | rfl)
    · obtain ⟨i, hi, rfl⟩ := getElem_of_mem hmem
      have hvalue := (h.value ⟨i, h.length ▸ hi⟩).1
      rw [getD_eq_getElem?_getD, getElem?_eq_getElem hi, Option.getD_some] at hvalue
      rw [hvalue]
      intro heq
      have hnat := congrArg UInt8.toNat heq
      rw [UInt8.toNat_ofNat', show (0x80 : UInt8).toNat = 128 from rfl] at hnat
      rw [h.length] at hi
      omega
    · show (if (0x3d : UInt8) = 0x3d then (0 : UInt8) else _) ≠ 0x80
      rw [if_pos rfl]
      decide

theorem dtable_tableAt (h : Alphabet table) (i : UInt8) :
    dtable table (tableAt table i) = i &&& 0x3f ∧ tableAt table i ≠ 0x3d := by
  have hlt : (i &&& 0x3f).toNat < 64 := by
    rw [UInt8.toNat_and]
    exact Nat.lt_of_le_of_lt Nat.and_le_right (by decide)
  have hvalue := h.value ⟨_, hlt⟩
  rw [UInt8.ofNat_toNat] at hvalue
  exact hvalue

theorem dtable_tableAt_ne (h : Alphabet table) (i : UInt8) : dtable table (tableAt table i) ≠ 0x80 := by
  rw [dtable_ne_iff h, inAlphabet, Bool.or_eq_true, contains_iff_mem]
  left
  have hlt : (i &&& 0x3f).toNat < table.length := by
    rw [h.length, UInt8.toNat_and]
    exact Nat.lt_of_le_of_lt Nat.and_le_right (by decide)
  rw [tableAt, getD_eq_getElem?_getD, getElem?_eq_getElem hlt, Option.getD_some]
  exact getElem_mem hlt

/-! ## Six bits each -/

theorem octets_block (a b c : UInt8) :
    octets ((a >>> 2) &&& 0x3f) ((((a &&& 0x03) <<< 4) ||| (b >>> 4)) &&& 0x3f)
      ((((b &&& 0x0f) <<< 2) ||| (c >>> 6)) &&& 0x3f) (c &&& 0x3f) = [a, b, c] := by
  have bits : ∀ x y : UInt8, (∀ (i : Nat) (hi : i < 8), x.toBitVec[i] = y.toBitVec[i]) → x = y :=
    fun x y h => UInt8.toBitVec_inj.1 (BitVec.eq_of_getElem_eq h)
  unfold octets
  congr 1
  · apply bits
    intro i hi
    interval_cases i <;> simp
  congr 1
  · apply bits
    intro i hi
    interval_cases i <;> simp
  congr 1
  · apply bits
    intro i hi
    interval_cases i <;> simp

/-! ## The encoder -/

/-- The text of an octet string, where a line of so many characters has been begun. -/
def encodeText (table : Bytes) (addPad : Bool) : Bytes → Nat → Bytes
  | a :: b :: c :: src, lineLen =>
    block table a b c ++
      if addPad ∧ lineLen + 4 ≥ 72 then 0x0a :: encodeText table addPad src 0
      else encodeText table addPad src (lineLen + 4)
  | src, lineLen =>
    lastBlock table addPad src ++
      if addPad ∧ (if src = [] then lineLen else lineLen + 4) ≠ 0 then [0x0a] else []

theorem short_length (hshort : ∀ a b c rest, src = a :: b :: c :: rest → False) : src.length < 3 := by
  match src, hshort with
  | [], _ => exact (by decide : 0 < 3)
  | [_], _ => exact (by decide : 1 < 3)
  | [_, _], _ => exact (by decide : 2 < 3)
  | a :: b :: c :: rest, h => exact (h a b c rest rfl).elim

theorem encodeLoop_eq (src : Bytes) (lineLen : Nat) (out : Bytes)
    (h : out.length + (encodeText table addPad src lineLen).length ≤ olen) :
    ∃ text rest lineLen', encodeLoop olen table addPad src lineLen out = .ok (rest, lineLen', out ++ text) ∧
      encodeText table addPad src lineLen = text ++ encodeText table addPad rest lineLen' ∧
      rest.length < 3 := by
  induction src, lineLen using encodeText.induct generalizing out with
  | case1 a b c src lineLen ih₀ ih =>
    rw [encodeText, length_append] at h
    have hput : put olen (block table a b c) out = .ok (out ++ block table a b c) := put_ok (by omega)
    simp only [encodeText, encodeLoop, hput]
    by_cases hline : addPad = true ∧ lineLen + 4 ≥ 72
    · rw [if_pos hline, length_cons] at h
      have hfeed : put olen [0x0a] (out ++ block table a b c) = .ok (out ++ block table a b c ++ [0x0a]) := by
        apply put_ok
        rw [length_append, length_singleton]
        omega
      obtain ⟨text, rest, lineLen', hrun, htext, hrest⟩ :=
        ih₀ (out ++ block table a b c ++ [0x0a])
          (by rw [length_append, length_append, length_singleton]; omega)
      refine ⟨block table a b c ++ 0x0a :: text, rest, lineLen', ?_, ?_, hrest⟩
      · show (if addPad = true ∧ lineLen + 4 ≥ 72 then _ else _) = _
        rw [if_pos hline, hfeed]
        show encodeLoop olen table addPad src 0 (out ++ block table a b c ++ [0x0a]) = _
        rw [hrun]
        simp
      · rw [if_pos hline, htext]
        simp
    · rw [if_neg hline] at h
      obtain ⟨text, rest, lineLen', hrun, htext, hrest⟩ :=
        ih (out ++ block table a b c) (by rw [length_append]; omega)
      refine ⟨block table a b c ++ text, rest, lineLen', ?_, ?_, hrest⟩
      · show (if addPad = true ∧ lineLen + 4 ≥ 72 then _ else _) = _
        rw [if_neg hline, hrun, append_assoc]
      · rw [if_neg hline, htext, append_assoc]
  | case2 src lineLen hshort =>
    refine ⟨[], src, lineLen, ?_, rfl, short_length hshort⟩
    rw [encodeLoop, append_nil]
    exact hshort

theorem encodeText_short (lineLen : Nat) (h : src.length < 3) :
    encodeText table addPad src lineLen = lastBlock table addPad src ++
      if addPad ∧ (if src = [] then lineLen else lineLen + 4) ≠ 0 then [0x0a] else [] := by
  rw [encodeText]
  rintro a b c rest rfl
  simp only [length_cons] at h
  omega

theorem lastBlock_length (table : Bytes) (h : src.length < 3) :
    (lastBlock table true src).length = 4 * ((src.length + 2) / 3) ∧
      (lastBlock table false src).length ≤ 4 * src.length / 3 + 1 := by
  match src, h with
  | [], _ => exact ⟨rfl, Nat.zero_le _⟩
  | [a], _ => simp [lastBlock, padding]
  | [a, b], _ => simp [lastBlock, padding]
  | a :: b :: c :: rest, h =>
    simp only [length_cons] at h
    omega

theorem encodeText_length_pad (src : Bytes) {lineLen : Nat} (h : lineLen < 72) :
    (encodeText table true src lineLen).length ≤
      4 * ((src.length + 2) / 3) + 1 + (lineLen + 4 * (src.length / 3)) / 72 := by
  induction src, lineLen using encodeText.induct with
  | case1 a b c src lineLen ih₀ ih =>
    have hblock : (block table a b c).length = 4 := rfl
    simp only [encodeText, length_append, hblock, length_cons, true_and]
    split
    · have := ih₀ (by omega)
      rw [length_cons]
      omega
    · have := ih (by omega)
      omega
  | case2 src lineLen hshort =>
    have hend : ∀ (p : Prop) [Decidable p], (if p then [0x0a] else ([] : Bytes)).length ≤ 1 := by
      intro p _
      split <;> simp
    rw [encodeText_short _ (short_length hshort), length_append,
      (lastBlock_length table (short_length hshort)).1]
    exact Nat.le_trans (Nat.add_le_add_left (hend _) _) (Nat.le_add_right _ _)

theorem encodeText_length_noPad (src : Bytes) (lineLen : Nat) :
    (encodeText table false src lineLen).length ≤ 4 * src.length / 3 + 1 := by
  induction src, lineLen using encodeText.induct with
  | case1 a b c src lineLen ih₀ ih =>
    have hblock : (block table a b c).length = 4 := rfl
    simp only [encodeText, length_append, hblock, length_cons, Bool.false_eq_true, false_and,
      if_false]
    omega
  | case2 src lineLen hshort =>
    rw [encodeText_short _ (short_length hshort)]
    simpa using (lastBlock_length table (short_length hshort)).2

theorem sizeT_eq {n : Nat} (h : n < 2 ^ 64) : sizeT n = n := Nat.mod_eq_of_lt h

theorem encodeOlen_eq {len : Nat} (addPad : Bool) (h : len < 2 ^ 60) :
    encodeOlen addPad len = len * 4 / 3 + 4 + (if addPad then (len * 4 / 3 + 4) / 72 else 0) + 1 := by
  have hfour : sizeT (len * 4) = len * 4 := sizeT_eq (by omega)
  have hthirds : len * 4 / 3 ≤ 2 ^ 61 := by omega
  have hfeeds : (len * 4 / 3 + 4) / 72 ≤ 2 ^ 60 := by omega
  unfold encodeOlen
  rw [hfour, sizeT_eq (show len * 4 / 3 + 4 < 2 ^ 64 by omega)]
  cases addPad with
  | true =>
    simp only [if_true]
    rw [sizeT_eq (show len * 4 / 3 + 4 + (len * 4 / 3 + 4) / 72 < 2 ^ 64 by omega), sizeT_eq (by omega)]
  | false =>
    simp only [Bool.false_eq_true, if_false]
    exact sizeT_eq (by omega)

theorem encodeText_length_lt (src : Bytes) (addPad : Bool) (h : src.length < 2 ^ 60) :
    (encodeText table addPad src 0).length + 1 ≤ encodeOlen addPad src.length := by
  rw [encodeOlen_eq addPad h]
  cases addPad with
  | true =>
    have hlen : (encodeText table true src 0).length ≤ _ := encodeText_length_pad src (by decide)
    -- the last line feed stands in the room of the estimate's last block
    have hblocks : 4 * ((src.length + 2) / 3) + 1 ≤ src.length * 4 / 3 + 4 := by omega
    have hfeeds : (0 + 4 * (src.length / 3)) / 72 ≤ (src.length * 4 / 3 + 4) / 72 :=
      Nat.div_le_div_right (by omega)
    rw [if_pos rfl]
    omega
  | false =>
    have hlen : (encodeText table false src 0).length ≤ _ := encodeText_length_noPad src 0
    rw [if_neg Bool.false_ne_true, Nat.mul_comm src.length]
    omega

theorem base64GenEncode_eq (src : Bytes) (addPad alloc : Bool) (h : src.length < 2 ^ 60) :
    base64GenEncode alloc src table addPad =
      .ok (if alloc then some (encodeText table addPad src 0) else none) := by
  have hroom : (encodeText table addPad src 0).length + 1 ≤ _ := encodeText_length_lt src addPad h
  have hge : ¬ encodeOlen addPad src.length < src.length := by
    rw [encodeOlen_eq addPad h]
    omega
  unfold base64GenEncode
  simp only [if_neg hge]
  cases alloc with
  | false => rfl
  | true =>
    obtain ⟨text, rest, lineLen, hrun, htext, hrest⟩ :=
      encodeLoop_eq src 0 []
        (show 0 + (encodeText table addPad src 0).length ≤ encodeOlen addPad src.length by omega)
    rw [encodeText_short lineLen hrest] at htext
    rw [htext] at hroom ⊢
    rw [length_append, length_append] at hroom
    have hlast : put (encodeOlen addPad src.length) (lastBlock table addPad rest) text =
        .ok (text ++ lastBlock table addPad rest) := put_ok (by omega)
    have hfeed : lastFeed (encodeOlen addPad src.length) addPad (if rest = [] then lineLen else lineLen + 4)
        (text ++ lastBlock table addPad rest) = .ok (text ++ (lastBlock table addPad rest ++
          if addPad = true ∧ (if rest = [] then lineLen else lineLen + 4) ≠ 0 then [0x0a] else [])) := by
      unfold lastFeed
      by_cases hend : addPad = true ∧ (if rest = [] then lineLen else lineLen + 4) ≠ 0
      · rw [if_pos hend] at hroom
        rw [if_pos hend, if_pos hend, put_ok, append_assoc]
        rw [length_append]
        omega
      · rw [if_neg hend, if_neg hend, append_nil]
    have hnul := @put_ok (encodeOlen addPad src.length) [0] (text ++ (lastBlock table addPad rest ++
      if addPad = true ∧ (if rest = [] then lineLen else lineLen + 4) ≠ 0 then [0x0a] else []))
    simp only [Bind.bind, Except.bind, nil_append, hrun, hlast, hfeed]
    rw [hnul]
    · rfl
    · rw [length_append, length_append]
      exact hroom

/-! ## The decoder -/

def known (table src : Bytes) : Bytes := src.filter fun c => dtable table c ≠ 0x80

theorem decodeCount_eq (src table : Bytes) : decodeCount src table = (known table src).length :=
  countP_eq_length_filter

theorem decodeLoop_filter (src blk : Bytes) (pad : Nat) (out : Bytes) :
    decodeLoop olen table src blk pad out = decodeLoop olen table (known table src) blk pad out := by
  induction src generalizing blk pad out with
  | nil => rfl
  | cons val src ih =>
    by_cases hval : dtable table val = 0x80
    · have hskip : known table (val :: src) = known table src := by
        simp [known, hval]
      rw [decodeLoop, if_pos hval, hskip]
      exact ih blk pad out
    · have hkeep : known table (val :: src) = val :: known table src := by
        simp [known, hval]
      rw [hkeep]
      match blk with
      | [b₀, b₁, b₂] =>
        simp only [decodeLoop, if_neg hval, ← ih]
      | [] | [_] | [_, _] | _ :: _ :: _ :: _ :: _ => simp only [decodeLoop, if_neg hval, ← ih]

theorem decodeLoop_ok (src blk : Bytes) (pad : Nat) (out : Bytes) (hblk : blk.length ≤ 3)
    (h : out.length + (blk.length + decodeCount src table) / 4 * 3 ≤ olen) :
    ∃ r, decodeLoop olen table src blk pad out = .ok r := by
  induction src generalizing blk pad out with
  | nil => exact ⟨some out, rfl⟩
  | cons val src ih =>
    by_cases hval : dtable table val = 0x80
    · have hcount : decodeCount (val :: src) table = decodeCount src table := by
        simp [decodeCount, hval]
      rw [decodeLoop, if_pos hval]
      exact ih blk pad out hblk (hcount ▸ h)
    · have hcount : decodeCount (val :: src) table = decodeCount src table + 1 := by
        simp [decodeCount, hval]
      rw [hcount] at h
      match blk, hblk, h with
      | [b₀, b₁, b₂], _, h =>
        simp only [length_cons, length_nil] at h
        have hput : put olen (octets b₀ b₁ b₂ (dtable table val)) out =
            .ok (out ++ octets b₀ b₁ b₂ (dtable table val)) :=
          put_ok (show out.length + 3 ≤ olen by omega)
        have hout : (out ++ octets b₀ b₁ b₂ (dtable table val)).length = out.length + 3 := by
          rw [length_append]
          rfl
        simp only [decodeLoop, if_neg hval, hput, Bind.bind, Except.bind]
        split
        · apply ih _ _ _ (by decide)
          rw [hout, length_nil]
          omega
        · exact ⟨_, rfl⟩
        · exact ⟨_, rfl⟩
        · exact ⟨_, rfl⟩
      | [], _, h | [_], _, h | [_, _], _, h =>
        simp only [decodeLoop, if_neg hval]
        apply ih
        · simp
        · simp only [length_append, length_cons, length_nil] at h ⊢
          omega

theorem base64GenDecode_ok (alloc : Bool) (src table : Bytes) :
    ∃ r, base64GenDecode alloc src table = .ok r := by
  simp only [base64GenDecode]
  split
  · exact ⟨none, rfl⟩
  · split
    · exact ⟨none, rfl⟩
    · apply decodeLoop_ok _ _ _ _ (by decide)
      have hpad : dtable table 0x3d ≠ 0x80 := by
        rw [dtable, if_pos rfl]
        decide
      have hcount : decodeCount (src ++ List.replicate (extraPad (decodeCount src table)) 0x3d) table =
          decodeCount src table + extraPad (decodeCount src table) := by
        unfold decodeCount
        rw [countP_append, countP_replicate, if_pos (decide_eq_true hpad)]
      rw [hcount, length_nil]
      omega

/-! ## There and back -/

def encodeBlocks (table : Bytes) (addPad : Bool) : Bytes → Bytes
  | a :: b :: c :: src => block table a b c ++ encodeBlocks table addPad src
  | src => lastBlock table addPad src

theorem encodeBlocks_short (h : src.length < 3) :
    encodeBlocks table addPad src = lastBlock table addPad src := by
  rw [encodeBlocks]
  rintro a b c rest rfl
  simp only [length_cons] at h
  omega

theorem known_append (table s t : Bytes) : known table (s ++ t) = known table s ++ known table t :=
  filter_append ..

theorem known_block (h : Alphabet table) (a b c : UInt8) :
    known table (block table a b c) = block table a b c := by
  simp [known, block, dtable_tableAt_ne h]

theorem known_lastBlock (h : Alphabet table) (addPad : Bool) (hsrc : src.length < 3) :
    known table (lastBlock table addPad src) = lastBlock table addPad src := by
  have hpad : dtable table 0x3d ≠ 0x80 := by
    rw [dtable, if_pos rfl]
    decide
  match src, hsrc with
  | [], _ => rfl
  | [a], _ => cases addPad <;> simp [known, lastBlock, padding, dtable_tableAt_ne h, hpad]
  | [a, b], _ => cases addPad <;> simp [known, lastBlock, padding, dtable_tableAt_ne h, hpad]
  | a :: b :: c :: rest, hsrc =>
    simp only [length_cons] at hsrc
    omega

theorem known_encodeText (h : Alphabet table) (src : Bytes) (lineLen : Nat) :
    known table (encodeText table addPad src lineLen) = encodeBlocks table addPad src := by
  have hfeed : ∀ s, known table (0x0a :: s) = known table s := by
    intro s
    have hskip : dtable table 0x0a = 0x80 := by
      by_contra hne
      rw [← ne_eq, dtable_ne_iff h, h.lineFeed] at hne
      cases hne
    simp [known, hskip]
  induction src, lineLen using encodeText.induct with
  | case1 a b c src lineLen ih₀ ih =>
    rw [encodeText, encodeBlocks, known_append, known_block h]
    split
    · rw [hfeed, ih₀]
    · rw [ih]
  | case2 src lineLen hshort =>
    have hsrc := short_length hshort
    have hend : ∀ (p : Prop) [Decidable p], known table (if p then [0x0a] else []) = [] := by
      intro p _
      split
      · exact hfeed []
      · rfl
    rw [encodeText_short lineLen hsrc, encodeBlocks_short hsrc, known_append, known_lastBlock h addPad hsrc,
      hend, append_nil]

theorem encodeBlocks_pad (src : Bytes) :
    encodeBlocks table addPad src ++ List.replicate (extraPad (encodeBlocks table addPad src).length) 0x3d =
      encodeBlocks table true src ∧
    (encodeBlocks table addPad src).length + extraPad (encodeBlocks table addPad src).length =
      4 * ((src.length + 2) / 3) := by
  induction src using encodeBlocks.induct with
  | case1 a b c src ih =>
    have hextra : ∀ n, extraPad (4 + n) = extraPad n := by
      intro n
      unfold extraPad
      omega
    have hblock : (block table a b c).length = 4 := rfl
    simp only [encodeBlocks, length_append, hblock, hextra, length_cons]
    rw [append_assoc, ih.1]
    exact ⟨rfl, by omega⟩
  | case2 src hshort =>
    have hsrc := short_length hshort
    rw [encodeBlocks_short hsrc, encodeBlocks_short hsrc]
    match src, hsrc with
    | [], _ => simp [lastBlock, extraPad]
    | [a], _ => cases addPad <;> simp [lastBlock, padding, extraPad]
    | [a, b], _ => cases addPad <;> simp [lastBlock, padding, extraPad]
    | a :: b :: c :: rest, hsrc =>
      simp only [length_cons] at hsrc
      omega

theorem decodeLoop_value (hval : dtable table c ≠ 0x80) (hblk : blk.length < 3) (src : Bytes) :
    decodeLoop olen table (c :: src) blk pad out =
      decodeLoop olen table src (blk ++ [dtable table c]) (if c = 0x3d then pad + 1 else pad) out := by
  match blk, hblk with
  | [], _ | [_], _ | [_, _], _ => simp only [decodeLoop, if_neg hval]
  | _ :: _ :: _ :: _, hblk =>
    simp only [length_cons] at hblk
    omega

theorem decodeLoop_char (h : Alphabet table) (i : UInt8) (hblk : blk.length < 3) (src : Bytes) :
    decodeLoop olen table (tableAt table i :: src) blk pad out =
      decodeLoop olen table src (blk ++ [i &&& 0x3f]) pad out := by
  rw [decodeLoop_value (dtable_tableAt_ne h i) hblk, (dtable_tableAt h i).1, if_neg (dtable_tableAt h i).2]

theorem decodeLoop_equals (hblk : blk.length < 3) (src : Bytes) :
    decodeLoop olen table (0x3d :: src) blk pad out = decodeLoop olen table src (blk ++ [0]) (pad + 1) out := by
  have hzero : dtable table 0x3d = 0 := if_pos rfl
  rw [decodeLoop_value (by rw [hzero]; decide) hblk, hzero, if_pos rfl]

theorem decodeLoop_fourth (h : Alphabet table) (b₀ b₁ b₂ i : UInt8) (src : Bytes)
    (hroom : out.length + 3 ≤ olen) :
    decodeLoop olen table (tableAt table i :: src) [b₀, b₁, b₂] 0 out =
      decodeLoop olen table src [] 0 (out ++ octets b₀ b₁ b₂ (i &&& 0x3f)) := by
  have hput : put olen (octets b₀ b₁ b₂ (i &&& 0x3f)) out = .ok (out ++ octets b₀ b₁ b₂ (i &&& 0x3f)) :=
    put_ok hroom
  have hvalue := (dtable_tableAt h i).1
  have hne : ¬ i &&& 0x3f = 0x80 := hvalue ▸ dtable_tableAt_ne h i
  simp only [decodeLoop, hvalue, if_neg hne, if_neg (dtable_tableAt h i).2, hput]
  rfl

theorem decodeLoop_end (b₀ b₁ b₂ : UInt8) (src : Bytes) (hpad : pad ≤ 1) (hroom : out.length + 3 ≤ olen) :
    decodeLoop olen table (0x3d :: src) [b₀, b₁, b₂] pad out =
      .ok (some (out ++ (octets b₀ b₁ b₂ 0).take (2 - pad))) := by
  have hzero : dtable table 0x3d = 0 := if_pos rfl
  have hput : put olen (octets b₀ b₁ b₂ 0) out = .ok (out ++ octets b₀ b₁ b₂ 0) := put_ok hroom
  have hlen : (out ++ octets b₀ b₁ b₂ 0).length = out.length + 3 := length_append
  simp only [decodeLoop, hzero, if_neg (show ¬ (0 : UInt8) = 0x80 by decide), if_true, hput, Bind.bind,
    Except.bind]
  match pad, hpad with
  | 0, _ =>
    show Except.ok (some ((out ++ octets b₀ b₁ b₂ 0).take ((out ++ octets b₀ b₁ b₂ 0).length - 1))) = _
    rw [hlen, show out.length + 3 - 1 = out.length + 2 by omega, take_length_add_append]
  | 1, _ =>
    show Except.ok (some ((out ++ octets b₀ b₁ b₂ 0).take ((out ++ octets b₀ b₁ b₂ 0).length - 2))) = _
    rw [hlen, show out.length + 3 - 2 = out.length + 1 by omega, take_length_add_append]

theorem decodeLoop_blocks (h : Alphabet table) (src out : Bytes)
    (hroom : out.length + 3 * ((src.length + 2) / 3) ≤ olen) :
    decodeLoop olen table (encodeBlocks table true src) [] 0 out = .ok (some (out ++ src)) := by
  induction src using encodeBlocks.induct generalizing out with
  | case1 a b c src ih =>
    rw [length_cons, length_cons, length_cons] at hroom
    have hout : (out ++ [a, b, c]).length = out.length + 3 := length_append
    rw [encodeBlocks]
    show decodeLoop olen table (tableAt table _ :: tableAt table _ :: tableAt table _ :: tableAt table _ ::
      encodeBlocks table true src) [] 0 out = _
    rw [decodeLoop_char h _ (by simp), decodeLoop_char h _ (by simp), decodeLoop_char h _ (by simp)]
    show decodeLoop olen table (tableAt table c :: _) [_, _, _] 0 out = _
    rw [decodeLoop_fourth h _ _ _ _ _ (by omega), octets_block, ih _ (by omega), append_assoc]
    rfl
  | case2 src hshort =>
    have hsrc := short_length hshort
    rw [encodeBlocks_short hsrc]
    match src, hsrc, hroom with
    | [], _, _ => simp [lastBlock, decodeLoop]
    | [a], _, hroom =>
      have hfirst : (octets ((a >>> 2) &&& 0x3f) (((a &&& 0x03) <<< 4) &&& 0x3f) 0 0).take 1 = [a] := by
        simpa [octets] using congrArg (List.take 1) (octets_block a 0 0)
      show decodeLoop olen table [tableAt table _, tableAt table _, 0x3d, 0x3d] [] 0 out = _
      rw [decodeLoop_char h _ (by simp), decodeLoop_char h _ (by simp), decodeLoop_equals (by simp)]
      show decodeLoop olen table [0x3d] [_, _, _] 1 out = _
      rw [decodeLoop_end _ _ _ _ (by decide) (by simpa using hroom)]
      exact congrArg (fun s => Except.ok (some (out ++ s))) hfirst
    | [a, b], _, hroom =>
      have htwo : (octets ((a >>> 2) &&& 0x3f) ((((a &&& 0x03) <<< 4) ||| (b >>> 4)) &&& 0x3f)
          (((b &&& 0x0f) <<< 2) &&& 0x3f) 0).take 2 = [a, b] := by
        simpa [octets] using congrArg (List.take 2) (octets_block a b 0)
      show decodeLoop olen table [tableAt table _, tableAt table _, tableAt table _, 0x3d] [] 0 out = _
      rw [decodeLoop_char h _ (by simp), decodeLoop_char h _ (by simp), decodeLoop_char h _ (by simp)]
      show decodeLoop olen table [0x3d] [_, _, _] 0 out = _
      rw [decodeLoop_end _ _ _ _ (by decide) (by simpa using hroom)]
      exact congrArg (fun s => Except.ok (some (out ++ s))) htwo
    | a :: b :: c :: rest, hsrc, _ =>
      simp only [length_cons] at hsrc
      omega

theorem base64GenDecode_eq (h : Alphabet table) (hne : src ≠ []) (alloc : Bool) {text : Bytes}
    (htext : known table text = encodeBlocks table addPad src) :
    base64GenDecode alloc text table = .ok (if alloc then some src else none) := by
  obtain ⟨hpad, hcount⟩ := @encodeBlocks_pad table addPad src
  rw [← htext, ← decodeCount_eq] at hpad hcount
  have hlen := length_pos_iff.2 hne
  have hequals : ∀ n, known table (List.replicate n 0x3d) = List.replicate n 0x3d := by
    intro n
    have hzero : dtable table 0x3d = 0 := if_pos rfl
    apply filter_eq_self.2
    intro x hx
    rw [eq_of_mem_replicate hx, hzero]
    decide
  unfold base64GenDecode
  simp only [if_neg (show ¬ decodeCount text table = 0 by unfold extraPad at hcount; omega)]
  cases alloc with
  | false => rfl
  | true =>
    simp only [Bool.not_true, Bool.false_eq_true, if_false, if_true]
    rw [decodeLoop_filter, known_append, hequals, hpad, hcount]
    exact decodeLoop_blocks h src [] (by rw [length_nil]; omega)

/-- Base64 is read back, with either table, padded or not, and with other characters in between. The text
and its NUL stay within the buffer of the encoder, and the decoder within the one it allocates. -/
theorem base64_round_trip (table : Bytes) (htable : table = base64Table ∨ table = base64UrlTable)
    (addPad : Bool) :
    (∀ src : Bytes, src ≠ [] → src.length < 2 ^ 60 →
      ∃ out, (∀ alloc, base64GenEncode alloc src table addPad = .ok (if alloc then some out else none)) ∧
        out.length + 1 ≤ encodeOlen addPad src.length ∧
        ∀ text, text.filter (inAlphabet table) = out.filter (inAlphabet table) →
          ∀ alloc, base64GenDecode alloc text table = .ok (if alloc then some src else none)) ∧
    ∀ src alloc, ∃ r, base64GenDecode alloc src table = .ok r := by
  have h : Alphabet table := by
    rcases htable with rfl | rfl
    · exact alphabet_base64
    · exact alphabet_base64Url
  have hknown : ∀ s : Bytes, s.filter (inAlphabet table) = known table s := by
    intro s
    apply filter_congr
    intro c _
    rw [Bool.eq_iff_iff, decide_eq_true_iff, ← dtable_ne_iff h]
  constructor
  · intro src hne hlen
    refine ⟨encodeText table addPad src 0, fun alloc => base64GenEncode_eq src addPad alloc hlen,
      encodeText_length_lt src addPad hlen, fun text htext alloc => ?_⟩
    rw [hknown, hknown, known_encodeText h] at htext
    exact base64GenDecode_eq h hne alloc htext
  · intro src alloc
    exact base64GenDecode_ok alloc src table

/-- The test vector of a single octet, and the same text with other characters in between. -/
theorem base64_round_trip_single :
    ∃ out, base64GenEncode true [0x3d] base64Table true = .ok (some out) ∧
      base64GenDecode true (0x2e :: out ++ [0x2d]) base64Table = .ok (some [0x3d]) := by
  obtain ⟨out, hrun, -, hback⟩ :=
    (base64_round_trip base64Table (.inl rfl) true).1 [0x3d] (by decide) (by decide)
  refine ⟨out, hrun true, hback _ ?_ true⟩
  rw [cons_append, filter_cons, filter_append]
  simp [inAlphabet, base64Table, ascii]

end Base64

end Hostap
