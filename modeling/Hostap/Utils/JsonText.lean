import Hostap.Utils.Common

/-!
# Strings and numbers in JSON text

`json_parse_string()` and `json_parse_number()` of `utils/json.c`. The text need not end in a NUL: a parser
is given what is left of the text, and `behind` are the octets that can be read behind the text. A function
that reads more stops with `Fault.read`, and one that stores outside a buffer it allocated with `Fault.write`.

The position is the rest of the text. Where the source leaves it on the last character that was used, for its
caller to move it on, it is moved on here.

`StringText` is the grammar of what stands between the quotes, with the octets it stands for.
`parseStringLoop_text` reads it, and `parseStringLoop_cases` says that nothing else is read: a string that is
not of this form is refused, and one whose last octet is a backslash makes the parser read behind the text.
-/

namespace Hostap

namespace Json

open Octets Buffer Output Common List

/-- Why a run stops. `fuel` says that a loop was not done after the rounds it was given. -/
inductive Fault where
  | read
  | write
  | fuel
  deriving DecidableEq, Repr

/-- Which allocations succeed: that of a token by its number, the others by the number of octets left. -/
structure Alloc where
  token : Nat → Bool
  string : Nat → Bool
  grow : Nat → Bool
  number : Nat → Bool

def Alloc.all : Alloc := ⟨fun _ => true, fun _ => true, fun _ => true, fun _ => true⟩

/-- `*pos`. -/
def readAt (behind : Bytes) : Bytes → Except Fault UInt8
  | c :: _ => .ok c
  | [] =>
    match behind with
    | c :: _ => .ok c
    | [] => .error .read

def store (bufLen : Nat) (data str : Bytes) : Except Fault Bytes :=
  match put bufLen data str with
  | .ok str => .ok str
  | .error _ => .error .write

/-! ## Strings -/

/-- The length of the buffer with room for the next octets, `none` if it cannot grow. -/
def growBuf (alloc : Alloc) (maxLen left bufLen used : Nat) : Option Nat :=
  if bufLen < maxLen ∧ bufLen < used + 3 then
    if alloc.grow left then some (if bufLen * 2 > maxLen then maxLen else bufLen * 2) else none
  else
    some bufLen

/-- `\u`: four digits are one octet or two. -/
def parseUnicode (pos : Bytes) : Option (Bytes × Bytes) :=
  if pos.length < 5 then none
  else
    match hexstr2bin 2 (pos.drop 1) with
    | some [hi, lo] =>
      if lo = 0 then none
      else if hi = 0 then some ([lo], pos.drop 5)
      else some ([hi, lo], pos.drop 5)
    | _ => none

/-- Behind a backslash: the octets it stands for and the rest, `none` if it is not known. -/
def parseEscape (behind pos : Bytes) : Except Fault (Option (Bytes × Bytes)) := do
  let e ← readAt behind pos
  if e = 0x22 ∨ e = 0x5c ∨ e = 0x2f then .ok (some ([e], pos.drop 1))
  else if e = 0x6e then .ok (some ([0x0a], pos.drop 1))
  else if e = 0x72 then .ok (some ([0x0d], pos.drop 1))
  else if e = 0x74 then .ok (some ([0x09], pos.drop 1))
  else if e = 0x75 then .ok (parseUnicode pos)
  else .ok none

/-- The loop of `json_parse_string()`. -/
def parseStringLoop (alloc : Alloc) (behind : Bytes) (maxLen : Nat) :
    Nat → Bytes → Nat → Bytes → Except Fault (Option (Bytes × Bytes))
  | 0, _, _, _ => .error .fuel
  | _ + 1, [], _, _ => .ok none
  | n + 1, c :: rest, bufLen, str =>
    match growBuf alloc maxLen (rest.length + 1) bufLen str.length with
    | none => .ok none
    | some bufLen =>
      if c = 0x22 then do
        let _ ← store bufLen [0] str
        .ok (some (str, rest))
      else if c = 0x5c then do
        match ← parseEscape behind rest with
        | none => .ok none
        | some (octets, rest) => do
          let str ← store bufLen octets str
          parseStringLoop alloc behind maxLen n rest bufLen str
      else do
        let str ← store bufLen [c] str
        parseStringLoop alloc behind maxLen n rest bufLen str

/-- The octets stored in front of the NUL, and the rest behind the closing quote. `none` stands for NULL. -/
def jsonParseString (alloc : Alloc) (behind : Bytes) : Bytes → Except Fault (Option (Bytes × Bytes))
  | [] => .ok none
  | _ :: pos =>
    let maxLen := pos.length + 1
    let bufLen := if maxLen > 10 then 10 else maxLen
    if alloc.string pos.length then parseStringLoop alloc behind maxLen (pos.length + 1) pos bufLen []
    else .ok none

/-! ## Numbers -/

/-- A character that the loop of `json_parse_number()` takes. -/
def isNumberChar (c : UInt8) : Bool := c == 0x2d || isDigit c

/-- The number and the rest behind its last character. A number that runs to the end of the text is copied with
one octet more. -/
def jsonParseNumber (alloc : Alloc) (behind pos : Bytes) : Except Fault (Option (Int × Bytes)) :=
  let digits := pos.takeWhile isNumberChar
  let rest := pos.dropWhile isNumberChar
  if digits = [] ∧ rest ≠ [] then .ok none
  else if !alloc.number pos.length then .ok none
  else if rest = [] then do
    let c ← readAt behind []
    .ok (some (atoi (Common.cString (digits ++ [c])), []))
  else .ok (some (atoi (Common.cString digits), rest))

/-! ## The grammar of strings -/

/-- One character of a string and the octets it stands for. -/
inductive StringElement : Bytes → Bytes → Prop
  | plain (c : UInt8) : c ≠ 0x22 → c ≠ 0x5c → StringElement [c] [c]
  | itself (c : UInt8) : c = 0x22 ∨ c = 0x5c ∨ c = 0x2f → StringElement [0x5c, c] [c]
  | lineFeed : StringElement [0x5c, 0x6e] [0x0a]
  | carriageReturn : StringElement [0x5c, 0x72] [0x0d]
  | tab : StringElement [0x5c, 0x74] [0x09]
  | one {digits : Bytes} {lo : UInt8} : digits.length = 4 → hexstr2bin 2 digits = some [0, lo] → lo ≠ 0 →
      StringElement (0x5c :: 0x75 :: digits) [lo]
  | two {digits : Bytes} {hi lo : UInt8} : digits.length = 4 → hexstr2bin 2 digits = some [hi, lo] → lo ≠ 0 →
      hi ≠ 0 → StringElement (0x5c :: 0x75 :: digits) [hi, lo]

/-- The text of a string and the octets it stands for. -/
inductive StringText : Bytes → Bytes → Prop
  | nil : StringText [] []
  | cons {elem octets text str : Bytes} : StringElement elem octets → StringText text str →
      StringText (elem ++ text) (octets ++ str)

variable {alloc : Alloc} {behind pos rest text str octets elem : Bytes} {maxLen bufLen left used n : Nat}

theorem StringText.append {text' str' : Bytes} (h : StringText text str) (h' : StringText text' str') :
    StringText (text ++ text') (str ++ str') := by
  induction h with
  | nil => exact h'
  | cons he _ ih =>
    rw [append_assoc, append_assoc]
    exact .cons he ih

theorem StringElement.length (h : StringElement elem octets) :
    1 ≤ octets.length ∧ octets.length ≤ 2 ∧ octets.length ≤ elem.length := by
  cases h <;> simp

theorem StringElement.shape (h : StringElement elem octets) :
    (∃ c, c ≠ 0x22 ∧ c ≠ 0x5c ∧ elem = [c] ∧ octets = [c]) ∨ ∃ t, elem = 0x5c :: t := by
  cases h with
  | plain c hquote hback => exact .inl ⟨c, hquote, hback, rfl, rfl⟩
  | itself c _ => exact .inr ⟨[c], rfl⟩
  | lineFeed => exact .inr ⟨_, rfl⟩
  | carriageReturn => exact .inr ⟨_, rfl⟩
  | tab => exact .inr ⟨_, rfl⟩
  | one _ _ _ => exact .inr ⟨_, rfl⟩
  | two _ _ _ _ => exact .inr ⟨_, rfl⟩

theorem hexstr2bin_append {digits : Bytes} (h : digits.length = 4) (rest : Bytes) :
    hexstr2bin 2 (digits ++ rest) = hexstr2bin 2 digits := by
  match digits, h with
  | [a, b, c, d], _ => rfl

/-! ## Escapes -/

theorem parseUnicode_digits {digits : Bytes} (hlen : digits.length = 4) (rest : Bytes) :
    parseUnicode (0x75 :: digits ++ rest) =
      match hexstr2bin 2 digits with
      | some [hi, lo] => if lo = 0 then none else if hi = 0 then some ([lo], rest) else some ([hi, lo], rest)
      | _ => none := by
  have hdrop : (0x75 :: digits ++ rest).drop 5 = rest := by
    rw [cons_append, drop_succ_cons]
    exact drop_left' hlen
  have hroom : ¬ (0x75 :: digits ++ rest).length < 5 := by
    rw [cons_append, length_cons, length_append]
    omega
  have hdigits : hexstr2bin 2 ((0x75 :: digits ++ rest).drop 1) = hexstr2bin 2 digits :=
    hexstr2bin_append hlen rest
  unfold parseUnicode
  rw [if_neg hroom, hdigits, hdrop]

theorem parseEscape_element {t : Bytes} (h : StringElement (0x5c :: t) octets) (rest : Bytes) :
    parseEscape behind (t ++ rest) = .ok (some (octets, rest)) := by
  cases h with
  | plain _ _ h => exact absurd rfl h
  | itself c hc => exact if_pos hc
  | lineFeed => rfl
  | carriageReturn => rfl
  | tab => rfl
  | @one digits lo hlen hdigits hlo =>
    show Except.ok (parseUnicode (0x75 :: digits ++ rest)) = _
    rw [parseUnicode_digits hlen, hdigits]
    show Except.ok (if _ then _ else _) = _
    rw [if_neg hlo, if_pos rfl]
  | @two digits hi lo hlen hdigits hlo hhi =>
    show Except.ok (parseUnicode (0x75 :: digits ++ rest)) = _
    rw [parseUnicode_digits hlen, hdigits]
    show Except.ok (if _ then _ else _) = _
    rw [if_neg hlo, if_neg hhi]

theorem element_of_parseUnicode (h : parseUnicode (0x75 :: pos) = some (octets, rest)) :
    ∃ t, 0x75 :: pos = t ++ rest ∧ StringElement (0x5c :: t) octets := by
  have hlen : ¬ (0x75 :: pos).length < 5 := by
    intro hlen
    rw [parseUnicode, if_pos hlen] at h
    cases h
  rw [length_cons] at hlen
  have hfour : (pos.take 4).length = 4 := length_take_of_le (by omega)
  have hsplit : 0x75 :: pos = 0x75 :: pos.take 4 ++ pos.drop 4 := by
    rw [cons_append, take_append_drop]
  rw [hsplit, parseUnicode_digits hfour] at h
  split at h
  · rename_i hi lo hdigits
    split_ifs at h with hlo hhi
    · cases h
      exact ⟨_, hsplit, .one hfour (hhi ▸ hdigits) hlo⟩
    · cases h
      exact ⟨_, hsplit, .two hfour hdigits hlo hhi⟩
  · cases h

theorem element_of_parseEscape {c : UInt8} (h : parseEscape behind (c :: pos) = .ok (some (octets, rest))) :
    ∃ t, c :: pos = t ++ rest ∧ StringElement (0x5c :: t) octets := by
  simp only [parseEscape, readAt, Bind.bind, Except.bind] at h
  split_ifs at h with hself hn hr ht hu
  · cases h
    exact ⟨[c], rfl, .itself c hself⟩
  · cases h
    exact ⟨[c], rfl, hn ▸ .lineFeed⟩
  · cases h
    exact ⟨[c], rfl, hr ▸ .carriageReturn⟩
  · cases h
    exact ⟨[c], rfl, ht ▸ .tab⟩
  · rw [hu] at h ⊢
    exact element_of_parseUnicode (Except.ok.inj h)
  · cases h

theorem parseEscape_nil (h : parseEscape behind [] = .ok (some (octets, rest))) :
    octets.length = 1 ∧ rest = [] := by
  cases behind with
  | nil => cases h
  | cons c behind =>
    simp only [parseEscape, readAt, Bind.bind, Except.bind] at h
    split_ifs at h
    iterate 4
      · cases h
        exact ⟨rfl, rfl⟩
    iterate 2 cases h

theorem parseEscape_error {f : Fault} (h : parseEscape behind pos = .error f) :
    f = .read ∧ behind = [] ∧ pos = [] := by
  cases pos with
  | cons c pos =>
    simp only [parseEscape, readAt, Bind.bind, Except.bind] at h
    split_ifs at h
  | nil =>
    cases behind with
    | nil =>
      cases h
      exact ⟨rfl, rfl, rfl⟩
    | cons c behind =>
      simp only [parseEscape, readAt, Bind.bind, Except.bind] at h
      split_ifs at h

/-! ## The room in the buffer -/

/-- What the loop keeps: `left` octets of the text and `used` ones in the buffer. -/
structure Room (maxLen left bufLen used : Nat) : Prop where
  text : used + left + 1 ≤ maxLen
  inside : used ≤ bufLen
  most : bufLen ≤ maxLen
  least : bufLen = maxLen ∨ 10 ≤ bufLen

theorem Room.grow (h : Room maxLen left bufLen used) {bufLen' : Nat}
    (hgrow : growBuf alloc maxLen left bufLen used = some bufLen') :
    Room maxLen left bufLen' used ∧ (used + 3 ≤ bufLen' ∨ bufLen' = maxLen) := by
  obtain ⟨htext, hinside, hmost, hleast⟩ := h
  unfold growBuf at hgrow
  split_ifs at hgrow
  · cases hgrow
    exact ⟨⟨by omega, by omega, by omega, by omega⟩, .inr rfl⟩
  · cases hgrow
    exact ⟨⟨by omega, by omega, by omega, by omega⟩, .inl (by omega)⟩
  · cases hgrow
    exact ⟨⟨htext, hinside, hmost, hleast⟩, by omega⟩

theorem growBuf_all (maxLen left bufLen used : Nat) : ∃ b, growBuf .all maxLen left bufLen used = some b := by
  unfold growBuf
  split_ifs
  · exact ⟨_, rfl⟩
  · exact ⟨_, rfl⟩
  · rename_i h
    exact absurd rfl h
  · exact ⟨_, rfl⟩

theorem Room.store (h : Room maxLen left bufLen str.length) (hgrown : str.length + 3 ≤ bufLen ∨ bufLen = maxLen)
    (octets : Bytes) (left' : Nat) (htwo : octets.length ≤ 2) (hleft : octets.length + left' ≤ left) :
    Json.store bufLen octets str = .ok (str ++ octets) ∧ Room maxLen left' bufLen (str ++ octets).length := by
  obtain ⟨htext, hinside, hmost, hleast⟩ := h
  have hroom : str.length + octets.length ≤ bufLen := by omega
  refine ⟨by rw [Json.store, put_ok hroom], ?_⟩
  rw [length_append]
  exact ⟨by omega, hroom, hmost, hleast⟩

/-! ## The loop over a string -/

theorem parseStringLoop_quote {b : Nat} {s : Bytes}
    (hgrow : growBuf alloc maxLen (rest.length + 1) bufLen str.length = some b)
    (hstore : store b [0] str = .ok s) :
    parseStringLoop alloc behind maxLen (n + 1) (0x22 :: rest) bufLen str = .ok (some (str, rest)) := by
  rw [parseStringLoop, hgrow]
  show (do
    let _ ← store b [0] str
    Except.ok (some (str, rest))) = _
  rw [hstore]
  rfl

theorem parseStringLoop_plain {b : Nat} {c : UInt8} {s : Bytes} (hquote : c ≠ 0x22) (hback : c ≠ 0x5c)
    (hgrow : growBuf alloc maxLen (rest.length + 1) bufLen str.length = some b)
    (hstore : store b [c] str = .ok s) :
    parseStringLoop alloc behind maxLen (n + 1) (c :: rest) bufLen str =
      parseStringLoop alloc behind maxLen n rest b s := by
  simp only [parseStringLoop, hgrow, if_neg hquote, if_neg hback, hstore]
  rfl

theorem parseStringLoop_escape {b : Nat} {s rest' : Bytes}
    (hgrow : growBuf alloc maxLen (rest.length + 1) bufLen str.length = some b)
    (hescape : parseEscape behind rest = .ok (some (octets, rest'))) (hstore : store b octets str = .ok s) :
    parseStringLoop alloc behind maxLen (n + 1) (0x5c :: rest) bufLen str =
      parseStringLoop alloc behind maxLen n rest' b s := by
  simp only [parseStringLoop, hgrow, if_neg (show ¬ (0x5c : UInt8) = 0x22 by decide), if_true, hescape,
    Bind.bind, Except.bind, hstore]

theorem parseStringLoop_refused {b : Nat}
    (hgrow : growBuf alloc maxLen (rest.length + 1) bufLen str.length = some b)
    (hescape : parseEscape behind rest = .ok none) :
    parseStringLoop alloc behind maxLen (n + 1) (0x5c :: rest) bufLen str = .ok none := by
  simp only [parseStringLoop, hgrow, if_neg (show ¬ (0x5c : UInt8) = 0x22 by decide), hescape]
  rfl

theorem parseStringLoop_error {b : Nat} {f : Fault}
    (hgrow : growBuf alloc maxLen (rest.length + 1) bufLen str.length = some b)
    (hescape : parseEscape behind rest = .error f) :
    parseStringLoop alloc behind maxLen (n + 1) (0x5c :: rest) bufLen str = .error f := by
  simp only [parseStringLoop, hgrow, if_neg (show ¬ (0x5c : UInt8) = 0x22 by decide), hescape]
  rfl

theorem parseStringLoop_element (behind : Bytes) (n : Nat) (h : StringElement elem octets)
    (hroom : Room maxLen (elem ++ rest).length bufLen str.length) :
    ∃ b, Room maxLen rest.length b (str ++ octets).length ∧
      parseStringLoop .all behind maxLen (n + 1) (elem ++ rest) bufLen str =
        parseStringLoop .all behind maxLen n rest b (str ++ octets) := by
  obtain ⟨-, htwo, hle⟩ := h.length
  obtain ⟨b, hgrow⟩ := growBuf_all maxLen (elem ++ rest).length bufLen str.length
  obtain ⟨hroom', hgrown⟩ := hroom.grow hgrow
  obtain ⟨hstore, hnext⟩ := hroom'.store hgrown octets rest.length htwo (by rw [length_append]; omega)
  refine ⟨b, hnext, ?_⟩
  rcases h.shape with ⟨c, hquote, hback, rfl, rfl⟩ | ⟨t, rfl⟩
  · exact parseStringLoop_plain hquote hback hgrow hstore
  · exact parseStringLoop_escape hgrow (parseEscape_element h rest) hstore

theorem parseStringLoop_text (behind : Bytes) (h : StringText text octets) (hn : (text ++ rest).length < n)
    (hroom : Room maxLen (text ++ rest).length bufLen str.length) :
    ∃ m b, rest.length < m ∧ Room maxLen rest.length b (str ++ octets).length ∧
      parseStringLoop .all behind maxLen n (text ++ rest) bufLen str =
        parseStringLoop .all behind maxLen m rest b (str ++ octets) := by
  induction h generalizing n bufLen str with
  | nil => exact ⟨n, bufLen, hn, by rwa [append_nil], by rw [append_nil, nil_append]⟩
  | @cons elem octets text str' helem _ ih =>
    have hlen := helem.length
    obtain ⟨k, rfl⟩ : ∃ k, n = k + 1 := ⟨n - 1, by omega⟩
    rw [append_assoc] at hn hroom ⊢
    obtain ⟨b, hroom', hrun⟩ := parseStringLoop_element behind k helem hroom
    rw [length_append] at hn
    obtain ⟨m, b', hm, hroom'', hrun'⟩ := ih (show (text ++ rest).length < k by omega) hroom'
    rw [append_assoc] at hroom'' hrun'
    exact ⟨m, b', hm, hroom'', hrun.trans hrun'⟩

theorem room_start (pos : Bytes) :
    Room (pos.length + 1) pos.length (if pos.length + 1 > 10 then 10 else pos.length + 1)
      ([] : Bytes).length := by
  rw [length_nil]
  split_ifs <;> constructor <;> omega

theorem jsonParseString_text (h : StringText text octets) (behind rest : Bytes) (quote : UInt8) :
    jsonParseString .all behind (quote :: (text ++ 0x22 :: rest)) = .ok (some (octets, rest)) := by
  obtain ⟨m, b, hm, hroom, hrun⟩ := parseStringLoop_text behind h (Nat.lt_succ_self _) (room_start _)
  obtain ⟨m, rfl⟩ : ∃ k, m = k + 1 := ⟨m - 1, by omega⟩
  rw [nil_append] at hroom hrun
  obtain ⟨b', hgrow⟩ := growBuf_all ((text ++ 0x22 :: rest).length + 1) (rest.length + 1) b octets.length
  obtain ⟨hroom', hgrown⟩ := hroom.grow hgrow
  obtain ⟨hstore, -⟩ := hroom'.store hgrown [0] rest.length (by decide)
    (show 1 + rest.length ≤ rest.length + 1 by omega)
  exact hrun.trans (parseStringLoop_quote hgrow hstore)

theorem jsonParseString_backslash (h : StringText text octets) (quote : UInt8) :
    jsonParseString .all [] (quote :: (text ++ [0x5c])) = .error .read := by
  obtain ⟨m, b, hm, -, hrun⟩ := parseStringLoop_text [] h (Nat.lt_succ_self _) (room_start _)
  obtain ⟨m, rfl⟩ : ∃ k, m = k + 1 := ⟨m - 1, by omega⟩
  rw [nil_append] at hrun
  obtain ⟨b', hgrow⟩ := growBuf_all ((text ++ [0x5c]).length + 1) (([] : Bytes).length + 1) b octets.length
  exact hrun.trans (parseStringLoop_error hgrow rfl)

/-- What the loop can come to: it refuses the text, or reads a string up to its closing quote, or reads
behind the text when the string ends in a backslash. -/
inductive StringResult (behind pos str : Bytes) : Except Fault (Option (Bytes × Bytes)) → Prop
  | refused : StringResult behind pos str (.ok none)
  | closed {text octets rest : Bytes} : pos = text ++ 0x22 :: rest → StringText text octets →
      StringResult behind pos str (.ok (some (str ++ octets, rest)))
  | cut {text octets : Bytes} : behind = [] → pos = text ++ [0x5c] → StringText text octets →
      StringResult behind pos str (.error .read)

theorem StringResult.cons {r : Except Fault (Option (Bytes × Bytes))} (helem : StringElement elem octets)
    (h : StringResult behind rest (str ++ octets) r) : StringResult behind (elem ++ rest) str r := by
  cases h with
  | refused => exact .refused
  | @closed text octets' rest' hpos htext =>
    rw [append_assoc]
    exact .closed (by rw [hpos, append_assoc]) (.cons helem htext)
  | cut hbehind hpos htext => exact .cut hbehind (by rw [hpos, append_assoc]) (.cons helem htext)

theorem parseStringLoop_cases (hn : pos.length < n) (hroom : Room maxLen pos.length bufLen str.length) :
    StringResult behind pos str (parseStringLoop alloc behind maxLen n pos bufLen str) := by
  induction n generalizing pos bufLen str with
  | zero => omega
  | succ n ih =>
    cases pos with
    | nil => exact .refused
    | cons c rest =>
      rw [length_cons] at hn hroom
      cases hgrow : growBuf alloc maxLen (rest.length + 1) bufLen str.length with
      | none =>
        rw [parseStringLoop, hgrow]
        exact .refused
      | some b =>
        obtain ⟨hroom', hgrown⟩ := hroom.grow hgrow
        by_cases hquote : c = 0x22
        · obtain ⟨hstore, -⟩ := hroom'.store hgrown [0] rest.length (by decide)
            (show 1 + rest.length ≤ rest.length + 1 by omega)
          rw [hquote, parseStringLoop_quote hgrow hstore]
          have hclosed : StringResult behind (0x22 :: rest) str (.ok (some (str ++ [], rest))) :=
            .closed rfl .nil
          rwa [append_nil] at hclosed
        by_cases hback : c = 0x5c
        · rw [hback]
          match hescape : parseEscape behind rest with
          | .error f =>
            obtain ⟨rfl, hbehind, rfl⟩ := parseEscape_error hescape
            rw [parseStringLoop_error hgrow hescape]
            exact .cut hbehind rfl .nil
          | .ok none =>
            rw [parseStringLoop_refused hgrow hescape]
            exact .refused
          | .ok (some (octets, rest')) =>
            cases rest with
            | nil =>
              -- the escape was read behind the text, which is refused in the next round
              obtain ⟨hone, rfl⟩ := parseEscape_nil hescape
              obtain ⟨hstore, hroom''⟩ := hroom'.store hgrown octets 0 (by omega) (by
                rw [length_nil]
                omega)
              rw [parseStringLoop_escape hgrow hescape hstore]
              obtain ⟨k, rfl⟩ : ∃ k, n = k + 1 := ⟨n - 1, by rw [length_nil] at hn; omega⟩
              exact .refused
            | cons d rest =>
              obtain ⟨t, hsplit, helem⟩ := element_of_parseEscape hescape
              have hlen := helem.length
              have hleft : (d :: rest).length = t.length + rest'.length := by rw [hsplit, length_append]
              obtain ⟨hstore, hroom''⟩ := hroom'.store hgrown octets rest'.length hlen.2.1 (by
                rw [length_cons] at hlen
                omega)
              rw [parseStringLoop_escape hgrow hescape hstore, hsplit]
              exact .cons helem (ih (by omega) hroom'')
        · obtain ⟨hstore, hroom''⟩ := hroom'.store hgrown [c] rest.length (show 1 ≤ 2 by decide)
            (show 1 + rest.length ≤ rest.length + 1 by omega)
          rw [parseStringLoop_plain hquote hback hgrow hstore]
          exact .cons (.plain c hquote hback) (ih (by omega) hroom'')

theorem jsonParseString_cases (alloc : Alloc) (behind pos : Bytes) (quote : UInt8) :
    StringResult behind pos [] (jsonParseString alloc behind (quote :: pos)) := by
  show StringResult behind pos [] (if alloc.string pos.length then _ else _)
  split
  · exact parseStringLoop_cases (Nat.lt_succ_self _) (room_start pos)
  · exact .refused

end Json

end Hostap
