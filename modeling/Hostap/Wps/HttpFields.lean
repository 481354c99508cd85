import Hostap.Wps.HttpHdrBounds

/-!
# What a header announces

`framing` says what the fields of a header announce: chunks, a number of octets, or neither. The header analysis
finds the same (`hdrAnalyze_framing`), with the number as a `long` that is stored in an `int`, if there is a
blank behind the names of the fields it looks for (`Spaced`): it compares words.
-/

namespace Hostap

open Octets Output Common Bounded List

namespace Httpread

/-! ## The fields -/

def fieldLines (hdr : Bytes) : List Bytes :=
  ((hdr.splitOn 0x0a).drop 1).takeWhile fun line => decide (line ≠ [] ∧ line ≠ [0x0d])

/-- The value of a field of this name, which is written in any case. -/
def fieldValue (name line : Bytes) : Option Bytes :=
  if (line.map toLower).take name.length = name then some ((line.drop name.length).dropWhile isBlank) else none

def firstWord (t : Bytes) : Bytes := (t.map toLower).takeWhile isGraph

def lengthName : Bytes := ascii "content-length:"

def codingNames : List Bytes := [ascii "transfer-encoding:", ascii "transfer_encoding:"]

/-- The number in a `Content-Length`. -/
def lengthField (line : Bytes) : Option Nat := (fieldValue lengthName line).map (digitsValue 0)

/-- A `Transfer-Encoding` that is `chunked`. -/
def saysChunked (line : Bytes) : Bool :=
  codingNames.any fun name => (fieldValue name line).any fun value => firstWord value == ascii "chunked"

/-- How the end of the body is found. -/
inductive Framing
  | chunks
  | length (n : Nat)
  | untilEof
  deriving DecidableEq

/-- Chunks come before any length, and the last length before others. -/
def framing (hdr : Bytes) : Framing :=
  if (fieldLines hdr).any saysChunked then .chunks
  else
    match ((fieldLines hdr).filterMap lengthField).getLast? with
    | some n => .length n
    | none => .untilEof

def SpacedLine (text : Bytes) : Prop :=
  ∀ name ∈ lengthName :: codingNames, fieldValue name text ≠ none → ∀ c ∈ text[name.length]?, isGraph c = false

def Spaced (hdr : Bytes) : Prop := ∀ line ∈ fieldLines hdr, SpacedLine line

/-! ## Words -/

section Words

variable {h h' : Httpread} {hbp rest line name : Bytes} {p : UInt8 → Bool} {c : UInt8}

theorem isGraph_toLower (c : UInt8) : isGraph (toLower c) = isGraph c := by
  have hall : ∀ n : Fin 256, isGraph (toLower (UInt8.ofNat n)) = isGraph (UInt8.ofNat n) := by decide +kernel
  have h := hall ⟨c.toNat, c.toNat_lt⟩
  rwa [show UInt8.ofNat c.toNat = c from UInt8.ofNat_toNat] at h

theorem skipWhile_ok (h : skipWhile p hbp = .ok rest) : rest = hbp.dropWhile p := by
  induction hbp with
  | nil => cases h
  | cons c hbp ih =>
    unfold skipWhile at h
    by_cases hc : p c = true
    · rw [if_pos hc] at h
      rw [dropWhile_cons_of_pos hc]
      exact ih h
    · rw [if_neg hc] at h
      cases h
      exact (dropWhile_cons_of_neg hc).symm

theorem wordEq_ok {s₁ s₂ : Bytes} {eq : Bool} (h : wordEq s₁ s₂ = .ok eq) :
    eq = true ↔ firstWord s₁ = firstWord s₂ := by
  induction s₁ generalizing s₂ with
  | nil => cases h
  | cons c₁ s₁ ih =>
    cases s₂ with
    | nil => cases h
    | cons c₂ s₂ =>
      unfold wordEq at h
      unfold firstWord
      rw [map_cons, map_cons, takeWhile_cons, takeWhile_cons]
      cases hg₁ : isGraph (toLower c₁) <;> cases hg₂ : isGraph (toLower c₂)
      · simp only [hg₁, hg₂] at h
        cases h
        simp
      · simp only [hg₁, hg₂] at h
        cases h
        simp
      · simp only [hg₁, hg₂] at h
        cases h
        simp
      · by_cases hsame : toLower c₁ = toLower c₂
        · rw [hg₁, hg₂, if_neg (by simp [hsame])] at h
          rw [ih h]
          simp [hsame, firstWord]
        · rw [hg₁, hg₂, if_pos (by simp [hsame])] at h
          cases h
          simp [hsame]

theorem takeWhile_stop (hc : p c = false) (s t : Bytes) : (s ++ c :: t).takeWhile p = s.takeWhile p := by
  induction s with
  | nil => exact takeWhile_cons_of_neg (by simp [hc])
  | cons d s ih =>
    rw [cons_append, takeWhile_cons, takeWhile_cons, ih]

theorem dropWhile_stop (hc : p c = false) (s t : Bytes) :
    (s ++ c :: t).dropWhile p = s.dropWhile p ++ c :: t := by
  induction s with
  | nil => exact dropWhile_cons_of_neg (by simp [hc])
  | cons d s ih =>
    rw [cons_append, dropWhile_cons, dropWhile_cons, ih]
    cases p d <;> rfl

theorem digitsValue_stop (hc : isDigit c = false) (acc : Nat) (s t : Bytes) :
    digitsValue acc (s ++ c :: t) = digitsValue acc s := by
  induction s generalizing acc with
  | nil =>
    show (if isDigit c = true then _ else acc) = acc
    rw [if_neg (by simp [hc])]
  | cons d s ih =>
    rw [cons_append]
    unfold digitsValue
    rw [ih]

theorem firstWord_stop (s t : Bytes) (hc : isGraph c = false) : firstWord (s ++ c :: t) = firstWord s := by
  unfold firstWord
  rw [map_append, map_cons]
  exact takeWhile_stop ((isGraph_toLower c).trans hc) _ _

theorem firstWord_length (t : Bytes) : (firstWord t).length = (t.takeWhile isGraph).length := by
  unfold firstWord
  rw [takeWhile_map, length_map]
  congr 2
  funext c
  exact isGraph_toLower c

theorem firstWord_eq_iff {text : Bytes} (hname : ∀ c ∈ name, isGraph c = true)
    (hspaced : (text.map toLower).take name.length = name → ∀ c ∈ text[name.length]?, isGraph c = false) :
    firstWord text = name ↔ (text.map toLower).take name.length = name := by
  unfold firstWord
  constructor
  · intro heq
    have hprefix : (text.map toLower).takeWhile isGraph <+: text.map toLower := takeWhile_prefix _
    rw [heq] at hprefix
    exact (prefix_iff_eq_take.mp hprefix).symm
  · intro htake
    have hsplit : text.map toLower = name ++ (text.drop name.length).map toLower := by
      conv_lhs => rw [← take_append_drop name.length (text.map toLower), htake, ← map_drop]
    rw [hsplit, takeWhile_append_of_pos hname]
    have hnone : ((text.drop name.length).map toLower).takeWhile isGraph = [] := by
      cases hrest : text.drop name.length with
      | nil => rfl
      | cons c rest =>
        have hc : isGraph c = false := by
          refine hspaced htake c ?_
          rw [← head?_drop, hrest]
          rfl
        exact takeWhile_cons_of_neg (by simp [isGraph_toLower, hc])
    rw [hnone, append_nil]

theorem dropWhile_firstWord (heq : firstWord line = name) : line.dropWhile isGraph = line.drop name.length := by
  rw [← heq, firstWord_length]
  calc line.dropWhile isGraph
      = (line.takeWhile isGraph ++ line.dropWhile isGraph).drop (line.takeWhile isGraph).length :=
        drop_left.symm
    _ = line.drop (line.takeWhile isGraph).length := by rw [takeWhile_append_dropWhile]

end Words

/-! ## Fields -/

section Options

variable {h h' : Httpread} {hbp line rest : Bytes}

theorem isDigit_isSpace {c : UInt8} (hc : isDigit c = true) : isSpace c = false ∧ c ≠ 0x2d ∧ c ≠ 0x2b := by
  have hall : ∀ n : Fin 256, isDigit (UInt8.ofNat n) = true →
      isSpace (UInt8.ofNat n) = false ∧ UInt8.ofNat n ≠ 0x2d ∧ UInt8.ofNat n ≠ 0x2b := by decide +kernel
  have h := hall ⟨c.toNat, c.toNat_lt⟩
  rw [show UInt8.ofNat c.toNat = c from UInt8.ofNat_toNat] at h
  exact h hc

theorem strtol_digits {c : UInt8} (hc : isDigit c = true) (t : Bytes) :
    strtol (c :: t) = (min (2 ^ 63 - 1) (digitsValue 0 (c :: t)) : Nat) := by
  obtain ⟨hspace, hminus, hplus⟩ := isDigit_isSpace hc
  unfold strtol
  rw [dropWhile_cons_of_neg (by simp [hspace])]
  split
  · rename_i heq
    exact absurd (List.cons.inj heq).1 hminus
  · rename_i heq
    exact absurd (List.cons.inj heq).1 hplus
  · dsimp only
    omega

theorem atol_ok {value : Int} (h : atol hbp = .ok value) : value = strtol hbp := by
  unfold atol at h
  split_ifs at h
  cases h
  rfl

def afterWord (t : Bytes) : Bytes := (t.dropWhile isGraph).dropWhile isBlank

def storedLength (n : Nat) : Int := toInt (min (2 ^ 63 - 1) n : Nat)

theorem contentLengthOption_ok (hr : contentLengthOption h hbp = .ok (h', true)) :
    h' = { h with contentLength := storedLength (digitsValue 0 (afterWord hbp)),
                  gotContentLength := true } := by
  obtain ⟨s₁, hs₁, hr⟩ := except_bind_ok hr
  obtain ⟨s₂, hs₂, hr⟩ := except_bind_ok hr
  obtain rfl : s₂ = afterWord hbp := by
    rw [skipWhile_ok hs₂, skipWhile_ok hs₁]
    rfl
  obtain ⟨c, hc, hr⟩ := except_bind_ok hr
  split_ifs at hr with hdigit
  · obtain ⟨value, hvalue, hr⟩ := except_bind_ok hr
    obtain ⟨t, ht⟩ : ∃ t, afterWord hbp = c :: t := by
      cases hword : afterWord hbp with
      | nil =>
        rw [hword] at hc
        cases hc
      | cons d t =>
        rw [hword] at hc
        cases hc
        exact ⟨t, rfl⟩
    rw [atol_ok hvalue, ht, strtol_digits hdigit] at hr
    rw [ht]
    dsimp only at hr
    split_ifs at hr
    · cases hr
    · cases hr
      rfl
  · cases hr

theorem firstWord_chunked : firstWord (cText "CHUNKED") = ascii "chunked" := by decide

theorem transferEncodingOption_ok (hr : transferEncodingOption h hbp = .ok (h', true)) :
    h' = { h with chunked := h.chunked || firstWord (afterWord hbp) == ascii "chunked", inChunkData :=
      if firstWord (afterWord hbp) = ascii "chunked" then false else h.inChunkData } := by
  obtain ⟨s₁, hs₁, hr⟩ := except_bind_ok hr
  obtain ⟨s₂, hs₂, hr⟩ := except_bind_ok hr
  obtain rfl : s₂ = afterWord hbp := by
    rw [skipWhile_ok hs₂, skipWhile_ok hs₁]
    rfl
  obtain ⟨eq, heq, hr⟩ := except_bind_ok hr
  have hword := wordEq_ok heq
  rw [firstWord_chunked] at hword
  split_ifs at hr with hyes
  · cases hr
    rw [hword.mp hyes]
    simp
  · cases hr
    have hno : firstWord (afterWord hbp) ≠ ascii "chunked" := fun h => hyes (hword.mpr h)
    rw [if_neg hno, beq_false_of_ne hno, Bool.or_false]

theorem afterWord_stop (line rest : Bytes) :
    afterWord (line ++ 0x0a :: rest) = afterWord line ++ 0x0a :: rest := by
  unfold afterWord
  rw [dropWhile_stop (by decide), dropWhile_stop (by decide)]

theorem fieldValue_spaced (hspaced : SpacedLine line) {name : Bytes}
    (hname : name ∈ lengthName :: codingNames) :
    fieldValue name line = if firstWord line = name then some (afterWord line) else none := by
  have hgraph : ∀ name ∈ lengthName :: codingNames, ∀ c ∈ name, isGraph c = true := by decide +kernel
  have hword : firstWord line = name ↔ (line.map toLower).take name.length = name := by
    refine firstWord_eq_iff (hgraph name hname) fun htake => hspaced name hname ?_
    unfold fieldValue
    rw [if_pos htake]
    exact Option.some_ne_none _
  unfold fieldValue
  by_cases heq : firstWord line = name
  · rw [if_pos heq, if_pos (hword.mp heq), ← dropWhile_firstWord heq]
    rfl
  · rw [if_neg heq, if_neg fun htake => heq (hword.mpr htake)]

theorem lengthField_spaced (hspaced : SpacedLine line) : lengthField line =
    if firstWord line = lengthName then some (digitsValue 0 (afterWord line)) else none := by
  unfold lengthField
  rw [fieldValue_spaced hspaced mem_cons_self]
  split_ifs <;> rfl

theorem saysChunked_spaced (hspaced : SpacedLine line) : saysChunked line = true ↔
    firstWord line ∈ codingNames ∧ firstWord (afterWord line) = ascii "chunked" := by
  unfold saysChunked
  rw [any_eq_true]
  constructor
  · rintro ⟨name, hname, hany⟩
    rw [fieldValue_spaced hspaced (mem_cons_of_mem _ hname)] at hany
    split_ifs at hany with heq
    · exact ⟨heq ▸ hname, beq_iff_eq.mp hany⟩
    · cases hany
  · rintro ⟨hname, hchunked⟩
    refine ⟨firstWord line, hname, ?_⟩
    rw [fieldValue_spaced hspaced (mem_cons_of_mem _ hname), if_pos rfl]
    exact beq_iff_eq.mpr hchunked

/-- What the analysis has seen in these lines. -/
structure Seen (lines : List Bytes) (h : Httpread) : Prop where
  chunked : h.chunked = lines.any saysChunked
  noLength : (lines.filterMap lengthField).getLast? = none → h.gotContentLength = false
  length : ∀ n ∈ (lines.filterMap lengthField).getLast?,
    h.gotContentLength = true ∧ h.contentLength = storedLength n

theorem Seen.concat {lines : List Bytes} (hseen : Seen lines h)
    (hchunked : h'.chunked = (h.chunked || saysChunked line))
    (hnone : lengthField line = none →
      h'.gotContentLength = h.gotContentLength ∧ h'.contentLength = h.contentLength)
    (hsome : ∀ n ∈ lengthField line, h'.gotContentLength = true ∧ h'.contentLength = storedLength n) :
    Seen (lines ++ [line]) h' := by
  rcases hfield : lengthField line with _ | n
  · have hlines : (lines ++ [line]).filterMap lengthField = lines.filterMap lengthField := by
      rw [filterMap_append]
      simp [hfield]
    obtain ⟨hgot, hlen⟩ := hnone hfield
    refine ⟨?_, fun hno => ?_, fun n hn => ?_⟩
    · rw [hchunked, hseen.chunked]
      simp
    · rw [hlines] at hno
      exact hgot.trans (hseen.noLength hno)
    · rw [hlines] at hn
      obtain ⟨hgot', hlen'⟩ := hseen.length n hn
      exact ⟨hgot.trans hgot', hlen.trans hlen'⟩
  · have hlines : ((lines ++ [line]).filterMap lengthField).getLast? = some n := by
      rw [filterMap_append]
      simp [hfield]
    refine ⟨?_, fun hno => ?_, fun m hm => ?_⟩
    · rw [hchunked, hseen.chunked]
      simp
    · rw [hlines] at hno
      cases hno
    · rw [hlines] at hm
      obtain rfl := Option.mem_some_iff.mp hm
      exact hsome n hfield

theorem hdrOptionAnalyze_seen {lines : List Bytes} (hspaced : SpacedLine line) (hseen : Seen lines h)
    (hr : hdrOptionAnalyze h (line ++ 0x0a :: rest) = .ok (h', true)) : Seen (lines ++ [line]) h' := by
  have hchunked := saysChunked_spaced hspaced
  have hlength := lengthField_spaced hspaced
  have hwords : ∀ name, firstWord (line ++ 0x0a :: rest) = name ↔ firstWord line = name := by
    intro name
    rw [firstWord_stop line rest (by decide)]
  have hvalue : firstWord (afterWord (line ++ 0x0a :: rest)) = firstWord (afterWord line) := by
    rw [afterWord_stop, firstWord_stop _ _ (by decide)]
  have hnumber : digitsValue 0 (afterWord (line ++ 0x0a :: rest)) = digitsValue 0 (afterWord line) := by
    rw [afterWord_stop, digitsValue_stop (by decide)]
  -- a field that tells the encoding
  have hcoding : ∀ name ∈ codingNames, firstWord line = name →
      transferEncodingOption h (line ++ 0x0a :: rest) = .ok (h', true) → Seen (lines ++ [line]) h' := by
    intro name hname heq hr
    have hno : lengthField line = none := by
      rw [hlength, if_neg]
      rintro hlen
      rw [← heq, hlen] at hname
      revert hname
      decide
    have hstate := transferEncodingOption_ok hr
    rw [hvalue] at hstate
    refine hseen.concat ?_ (fun _ => ?_) fun n hn => ?_
    · have hsays : saysChunked line = (firstWord (afterWord line) == ascii "chunked") := by
        rw [Bool.eq_iff_iff, hchunked, beq_iff_eq]
        exact and_iff_right (heq ▸ hname)
      rw [hstate, hsays]
    · rw [hstate]
      exact ⟨rfl, rfl⟩
    · rw [hno] at hn
      cases hn
  obtain ⟨isLength, hword, hr⟩ := except_bind_ok hr
  have hword := (wordEq_ok hword).trans (hwords _)
  split_ifs at hr with hyes
  · have heq : firstWord line = lengthName := (hword.mp hyes).trans (by decide)
    have hstate := contentLengthOption_ok hr
    rw [hnumber] at hstate
    rw [if_pos heq] at hlength
    refine hseen.concat ?_ (fun hno => ?_) fun n hn => ?_
    · have hsays : saysChunked line = false := by
        rw [Bool.eq_false_iff]
        intro hsays
        have hmem := (hchunked.mp hsays).1
        rw [heq] at hmem
        revert hmem
        decide
      rw [hstate, hsays, Bool.or_false]
    · rw [hlength] at hno
      cases hno
    · rw [hlength] at hn
      obtain rfl := Option.mem_some_iff.mp hn
      rw [hstate]
      dsimp only
      exact ⟨rfl, rfl⟩
  obtain ⟨isCoding, hword₁, hr⟩ := except_bind_ok hr
  have hword₁ := (wordEq_ok hword₁).trans (hwords _)
  split_ifs at hr with hyes₁
  · exact hcoding _ (by decide) (hword₁.mp hyes₁) hr
  obtain ⟨isCoding', hword₂, hr⟩ := except_bind_ok hr
  have hword₂ := (wordEq_ok hword₂).trans (hwords _)
  split_ifs at hr with hyes₂
  · exact hcoding _ (by decide) (hword₂.mp hyes₂) hr
  -- any other field
  · cases hr
    have hnone : lengthField line = none := by
      rw [hlength, if_neg fun heq => hyes (hword.mpr (heq.trans (by decide)))]
    have hsays : saysChunked line = false := by
      rw [Bool.eq_false_iff]
      intro hsays
      rcases mem_cons.mp (hchunked.mp hsays).1 with heq | hmem
      · exact hyes₂ (hword₂.mpr (heq.trans (by decide)))
      · exact hyes₁ (hword₁.mpr ((mem_singleton.mp hmem).trans (by decide)))
    refine hseen.concat ?_ (fun _ => ⟨rfl, rfl⟩) fun n hn => ?_
    · rw [ hsays, Bool.or_false]
    · rw [hnone] at hn
      cases hn

end Options

/-! ## Lines -/

section Lines

variable {h h' : Httpread} {hbp hdr rest : Bytes}

def Passes (hbp rest : Bytes) : Prop := ∃ front, hbp = front ++ rest ∧ 0x0a ∉ front

theorem Passes.trans {mid : Bytes} (h₁ : Passes hbp mid) (h₂ : Passes mid rest) : Passes hbp rest := by
  obtain ⟨front₁, rfl, hno₁⟩ := h₁
  obtain ⟨front₂, rfl, hno₂⟩ := h₂
  refine ⟨front₁ ++ front₂, (append_assoc _ _ _).symm, fun hmem => ?_⟩
  rcases mem_append.mp hmem with h | h
  · exact hno₁ h
  · exact hno₂ h

theorem skipWhile_passes {p : UInt8 → Bool} (hp : p 0x0a = false) (hr : skipWhile p hbp = .ok rest) :
    Passes hbp rest := by
  refine ⟨hbp.takeWhile p, ?_, fun hmem => ?_⟩
  · rw [skipWhile_ok hr, takeWhile_append_dropWhile]
  · have hlf := all_eq_true.mp all_takeWhile _ hmem
    rw [hp] at hlf
    cases hlf

theorem strnEq_take {n : Nat} {s₁ s₂ : Bytes} (hr : strnEq id n s₁ s₂ = .ok true) (hno : 0 ∉ s₂.take n) :
    s₁.take n = s₂.take n := by
  induction n generalizing s₁ s₂ with
  | zero => rfl
  | succ n ih =>
    match s₁, s₂ with
    | [], [] => cases hr
    | [], _ :: _ => cases hr
    | _ :: _, [] => cases hr
    | c₁ :: s₁, c₂ :: s₂ =>
      unfold strnEq at hr
      by_cases heq : c₁ = c₂
      · subst heq
        rw [if_neg (not_not.mpr rfl)] at hr
        by_cases hend : c₁ = 0
        · exact absurd (by simp [hend]) hno
        · rw [if_neg hend] at hr
          rw [take_succ_cons, take_succ_cons, ih hr fun hmem => hno (mem_cons_of_mem _ hmem)]
      · rw [if_pos (show id c₁ ≠ id c₂ from heq)] at hr
        cases hr

theorem http_passes (hr : strnEq id 5 hbp (cText "HTTP/") = .ok true) : Passes hbp (hbp.drop 5) := by
  have htake : hbp.take 5 = (cText "HTTP/").take 5 := strnEq_take hr (by decide)
  refine ⟨hbp.take 5, (take_append_drop 5 hbp).symm, ?_⟩
  rw [htake]
  decide

theorem firstLine_passes (hr : firstLine h hbp = .ok (h', some rest)) :
    Passes hbp rest ∧ h'.chunked = h.chunked ∧ h'.gotContentLength = h.gotContentLength := by
  obtain ⟨isHttp, hhttp, hr⟩ := except_bind_ok hr
  split_ifs at hr with hreply
  · subst hreply
    obtain ⟨newVersion, -, hr⟩ := except_bind_ok hr
    obtain ⟨s₁, hs₁, hr⟩ := except_bind_ok hr
    obtain ⟨s₂, hs₂, hr⟩ := except_bind_ok hr
    obtain ⟨c, -, hr⟩ := except_bind_ok hr
    split_ifs at hr
    · obtain ⟨code, -, hr⟩ := except_bind_ok hr
      cases hr
      refine ⟨(http_passes hhttp).trans ?_, rfl, rfl⟩
      exact (skipWhile_passes (by decide) hs₁).trans (skipWhile_passes (by decide) hs₂)
    · cases hr
  · obtain ⟨type, -, hr⟩ := except_bind_ok hr
    obtain ⟨s₁, hs₁, hr⟩ := except_bind_ok hr
    obtain ⟨s₂, hs₂, hr⟩ := except_bind_ok hr
    obtain ⟨s₃, hs₃, hr⟩ := except_bind_ok hr
    obtain ⟨uri, -, hr⟩ := except_bind_ok hr
    obtain ⟨s₄, hs₄, hr⟩ := except_bind_ok hr
    have hpasses : Passes hbp s₄ :=
      ((skipWhile_passes (by decide) hs₁).trans (skipWhile_passes (by decide) hs₂)).trans
        ((skipWhile_passes (by decide) hs₃).trans (skipWhile_passes (by decide) hs₄))
    obtain ⟨isHttp', hhttp', hr⟩ := except_bind_ok hr
    split_ifs at hr with hversion
    · subst hversion
      obtain ⟨newVersion, -, hr⟩ := except_bind_ok hr
      cases hr
      exact ⟨hpasses.trans (http_passes hhttp'), rfl, rfl⟩
    · cases hr
      exact ⟨hpasses, rfl, rfl⟩

theorem skipLine_ok (hr : skipLine hbp = .ok rest) :
    (∃ line, hbp = line ++ 0x0a :: rest ∧ 0x0a ∉ line) ∨ ∃ t, rest = 0 :: t := by
  induction hbp with
  | nil => cases hr
  | cons c hbp ih =>
    unfold skipLine at hr
    split_ifs at hr with hend hlf
    · cases hr
      exact .inr ⟨hbp, by rw [hend]⟩
    · cases hr
      exact .inl ⟨[], by rw [hlf]; rfl, not_mem_nil⟩
    · rcases ih hr with ⟨line, hline, hno⟩ | hnul
      · refine .inl ⟨c :: line, by rw [hline]; rfl, fun hmem => ?_⟩
        rcases mem_cons.mp hmem with heq | hmem
        · exact hlf heq.symm
        · exact hno hmem
      · exact .inr hnul

theorem optionLines_nul {turns : Nat} (t : Bytes) : optionLines turns h (0 :: t) ≠ .ok (h', true) := by
  cases turns with
  | zero => exact nofun
  | succ turns => exact nofun

theorem isEmptyLine_ok (hr : isEmptyLine hbp = .ok true) :
    ∃ e rest, hbp = e ++ 0x0a :: rest ∧ (e = [] ∨ e = [0x0d]) := by
  obtain ⟨a, ha, hr⟩ := except_bind_ok hr
  cases hbp with
  | nil => cases ha
  | cons c hbp =>
    cases ha
    by_cases hlf : a = 0x0a
    · exact ⟨[], hbp, by rw [hlf]; rfl, .inl rfl⟩
    by_cases hcr : a = 0x0d
    · rw [if_neg hlf, if_neg (not_not.mpr hcr)] at hr
      obtain ⟨b, hb, hr⟩ := except_bind_ok hr
      cases hbp with
      | nil => cases hb
      | cons d hbp =>
        cases hb
        obtain rfl : b = 0x0a := beq_iff_eq.mp (Except.ok.inj hr)
        exact ⟨[0x0d], hbp, by rw [hcr]; rfl, .inr rfl⟩
    · rw [if_neg hlf, if_pos hcr] at hr
      cases hr

def joined (lines : List Bytes) : Bytes := lines.flatMap fun line => line ++ [0x0a]

theorem optionLines_ok {turns : Nat} (hr : optionLines turns h hbp = .ok (h', true)) :
    ∃ lines e rest, hbp = joined lines ++ (e ++ 0x0a :: rest) ∧ (e = [] ∨ e = [0x0d]) ∧
      (∀ line ∈ lines, 0x0a ∉ line ∧ line ≠ [] ∧ line ≠ [0x0d]) ∧
      ((∀ line ∈ lines, SpacedLine line) → ∀ before, Seen before h → Seen (before ++ lines) h') := by
  induction turns generalizing h hbp with
  | zero => cases hr
  | succ turns ih =>
    unfold optionLines at hr
    obtain ⟨empty, hempty, hr⟩ := except_bind_ok hr
    split_ifs at hr with hyes
    · subst hyes
      cases hr
      obtain ⟨e, rest, hhbp, he⟩ := isEmptyLine_ok hempty
      refine ⟨[], e, rest, hhbp, he, fun l hl => absurd hl not_mem_nil, fun _ before hseen => ?_⟩
      rw [append_nil]
      exact hseen
    obtain ⟨c, hc, hr⟩ := except_bind_ok hr
    split_ifs at hr with hgraph
    · obtain ⟨⟨h₁, ok⟩, hoption, hr⟩ := except_bind_ok hr
      dsimp only at hr
      split_ifs at hr with hok
      · subst hok
        obtain ⟨rest, hskip, hr⟩ := except_bind_ok hr
        rcases skipLine_ok hskip with ⟨line, hline, hno⟩ | ⟨t, rfl⟩
        · obtain ⟨lines, e, rest', hrest, he, hlines, hseen⟩ := ih hr
          refine ⟨line :: lines, e, rest', ?_, he, fun l hl => ?_, fun hspaced before hbefore => ?_⟩
          · rw [hline, hrest, joined, joined, flatMap_cons]
            simp
          · rcases mem_cons.mp hl with rfl | hl
            · refine ⟨hno, ?_, ?_⟩
              -- it begins with a character that is not an end
              · rintro rfl
                rw [hline] at hc
                cases hc
                revert hgraph
                decide
              · rintro rfl
                rw [hline] at hc
                cases hc
                revert hgraph
                decide
            · exact hlines l hl
          · rw [hline] at hoption
            have hfirst := hdrOptionAnalyze_seen (hspaced line mem_cons_self) hbefore hoption
            have hall := hseen (fun l hl => hspaced l (mem_cons_of_mem _ hl)) _ hfirst
            rw [append_assoc] at hall
            exact hall
        · exact absurd hr (optionLines_nul t)
      · cases hr
    · cases hr

theorem splitOn_joined (lines : List Bytes) (hlines : ∀ line ∈ lines, 0x0a ∉ line) (t : Bytes) :
    (joined lines ++ t).splitOn 0x0a = lines ++ t.splitOn 0x0a := by
  induction lines with
  | nil => rfl
  | cons line lines ih =>
    have hjoined : joined (line :: lines) ++ t = line ++ 0x0a :: (joined lines ++ t) := by
      unfold joined
      rw [flatMap_cons]
      simp
    rw [hjoined, splitOn_append_cons_self, splitOn_eq_singleton (hlines line mem_cons_self),
      ih fun l hl => hlines l (mem_cons_of_mem _ hl)]
    rfl

theorem fieldLines_joined {first e : Bytes} {lines : List Bytes} (hfirst : 0x0a ∉ first)
    (hlines : ∀ line ∈ lines, 0x0a ∉ line ∧ line ≠ [] ∧ line ≠ [0x0d]) (he : e = [] ∨ e = [0x0d]) :
    fieldLines (first ++ 0x0a :: (joined lines ++ (e ++ 0x0a :: rest))) = lines := by
  have hno : 0x0a ∉ e := by
    rcases he with rfl | rfl
    · exact not_mem_nil
    · decide
  unfold fieldLines
  rw [splitOn_append_cons_self, splitOn_eq_singleton hfirst,
    splitOn_joined lines (fun line hline => (hlines line hline).1), splitOn_append_cons_self,
    splitOn_eq_singleton hno]
  show ((lines ++ ([e] ++ rest.splitOn 0x0a)).takeWhile _) = lines
  rw [takeWhile_append_of_pos fun line hline => decide_eq_true (hlines line hline).2]
  rw [singleton_append, takeWhile_cons_of_neg, append_nil]
  rcases he with rfl | rfl <;> decide

theorem append_zeros {hdr front t : Bytes} {n : Nat} (heq : hdr ++ zeros n = front ++ 0x0a :: t) :
    ∃ rest, hdr = front ++ 0x0a :: rest := by
  rcases append_eq_append_iff.mp heq with ⟨u, -, hzeros⟩ | ⟨u, hhdr, hrest⟩
  · have hmem : (0x0a : UInt8) ∈ zeros n := by
      rw [hzeros]
      exact mem_append_right _ mem_cons_self
    exact absurd (eq_of_mem_replicate hmem) (by decide)
  · cases u with
    | nil =>
      have hmem : (0x0a : UInt8) ∈ zeros n := by
        rw [show zeros n = 0x0a :: t from hrest.symm]
        exact mem_cons_self
      exact absurd (eq_of_mem_replicate hmem) (by decide)
    | cons c u =>
      obtain ⟨rfl, -⟩ := List.cons.inj hrest
      exact ⟨u, hhdr⟩

def Frames (h : Httpread) : Framing → Prop
  | .chunks => h.chunked = true
  | .length n => h.chunked = false ∧ h.gotContentLength = true ∧ h.contentLength = storedLength n
  | .untilEof => h.chunked = false ∧ h.gotContentLength = false

theorem Seen.frames (hseen : Seen (fieldLines hdr) h) : Frames h.expectBody (framing hdr) := by
  unfold framing
  by_cases hchunks : (fieldLines hdr).any saysChunked = true
  · rw [if_pos hchunks]
    exact hseen.chunked.trans hchunks
  · have hno : h.chunked = false := hseen.chunked.trans (Bool.eq_false_of_not_eq_true hchunks)
    have hgot : h.expectBody.gotContentLength = h.gotContentLength := by
      show (h.gotContentLength && !h.chunked) = h.gotContentLength
      rw [hno, Bool.not_false, Bool.and_true]
    rw [if_neg hchunks]
    cases hlast : ((fieldLines hdr).filterMap lengthField).getLast? with
    | none => exact ⟨hno, hgot.trans (hseen.noLength hlast)⟩
    | some n =>
      obtain ⟨hyes, hlen⟩ := hseen.length n hlast
      exact ⟨hno, hgot.trans hyes, hlen⟩

theorem hdrAnalyze_framing (hr : hdrAnalyze h = .ok (h', true)) (hchunked : h.chunked = false)
    (hgot : h.gotContentLength = false) (hspaced : Spaced h.hdr) : Frames h' (framing h.hdr) := by
  obtain ⟨c, -, hr⟩ := except_bind_ok hr
  dsimp only at hr
  split_ifs at hr
  · obtain ⟨⟨h₁, next⟩, hfirst, hr⟩ := except_bind_ok hr
    cases next with
    | none => cases hr
    | some s₁ =>
      obtain ⟨s₂, hskip, hr⟩ := except_bind_ok hr
      obtain ⟨⟨h₂, ok⟩, hoptions, hr⟩ := except_bind_ok hr
      dsimp only at hr
      split_ifs at hr with hok
      · subst hok
        cases hr
        obtain ⟨⟨front, hfront, hno⟩, hchunked₁, hgot₁⟩ := firstLine_passes hfirst
        obtain ⟨lines, e, rest, hlines, he, hall, hseen⟩ := optionLines_ok hoptions
        rcases skipLine_ok hskip with ⟨line, hline, hnoLine⟩ | ⟨t, rfl⟩
        · -- the lines of the array are those of the header
          have harray : h.hdr ++ zeros (httpreadHeaderMaxSize + 1 - h.hdr.length) =
              (front ++ line ++ 0x0a :: (joined lines ++ e)) ++ 0x0a :: rest := by
            calc h.hdr ++ zeros (httpreadHeaderMaxSize + 1 - h.hdr.length)
                = front ++ (line ++ 0x0a :: (joined lines ++ (e ++ 0x0a :: rest))) := by
                  rw [← hlines, ← hline, ← hfront]
                  rfl
              _ = (front ++ line ++ 0x0a :: (joined lines ++ e)) ++ 0x0a :: rest := by simp
          obtain ⟨rest', hhdr⟩ := append_zeros harray
          have hfields : fieldLines h.hdr = lines := by
            have hsame : h.hdr = (front ++ line) ++ 0x0a :: (joined lines ++ (e ++ 0x0a :: rest')) := by
              rw [hhdr]
              simp
            rw [hsame]
            refine fieldLines_joined (fun hmem => ?_) hall he
            rcases mem_append.mp hmem with hmem | hmem
            · exact hno hmem
            · exact hnoLine hmem
          have hnothing : Seen [] h₁ := ⟨hchunked₁.trans hchunked, fun _ => hgot₁.trans hgot, nofun⟩
          have hlast := hseen (fun l hl => hspaced l (hfields ▸ hl)) [] hnothing
          rw [nil_append, ← hfields] at hlast
          exact hlast.frames
        · exact absurd hoptions (optionLines_nul t)
      · cases hr
  · cases hr

end Lines

end Httpread

end Hostap
