import Hostap.Wps.HttpHdr

/-!
# The header analysis stays within the header

A text in the header has an end: there is a NUL in the rest of the array. Every function of the header analysis
goes on with such a text (`Returns` and `Text`), and so stays within the array; what is behind the header is
left as it is (`Header`).
-/

namespace Hostap

open Octets Output Common Bounded List

namespace Httpread

/-! ## The header -/

def Text (hbp : Bytes) : Prop := 0 ∈ hbp

section Header

variable {h : Httpread} {hbp : Bytes}

theorem Text.drop_one {c : UInt8} (ht : Text (c :: hbp)) (hc : c ≠ 0) : Text hbp := by
  rcases mem_cons.mp ht with heq | hmem
  · exact absurd heq.symm hc
  · exact hmem

theorem peek_returns (ht : Text hbp) : Returns (peek hbp) fun c => hbp = c :: hbp.drop 1 := by
  cases hbp with
  | nil => cases ht
  | cons c hbp => exact returns_ok rfl

theorem Text.drop {c : UInt8} (ht : Text hbp) (hhead : hbp = c :: hbp.drop 1) (hc : c ≠ 0) :
    Text (hbp.drop 1) := by
  rw [hhead] at ht
  exact ht.drop_one hc

theorem skipWhile_returns {p : UInt8 → Bool} (hp : p 0 = false) (ht : Text hbp) :
    Returns (skipWhile p hbp) fun rest => Text rest ∧ rest.length ≤ hbp.length := by
  induction hbp with
  | nil => cases ht
  | cons c hbp ih =>
    unfold skipWhile
    refine returns_ite (fun hc => ?_) fun _ => returns_ok ⟨ht, le_refl _⟩
    have hne : c ≠ 0 := by
      rintro rfl
      rw [hp] at hc
      cases hc
    refine (ih (ht.drop_one hne)).mono ?_
    rintro rest ⟨htext, hlen⟩
    exact ⟨htext, hlen.trans (Nat.le_succ _)⟩

theorem skipWhile_word {p : UInt8 → Bool} {rest : Bytes} (h : skipWhile p hbp = .ok rest) :
    ∃ word c tail, hbp = word ++ rest ∧ rest = c :: tail ∧ p c = false := by
  induction hbp with
  | nil => cases h
  | cons c hbp ih =>
    unfold skipWhile at h
    by_cases hc : p c = true
    · rw [if_pos hc] at h
      obtain ⟨word, d, tail, hword, hrest, hd⟩ := ih h
      exact ⟨c :: word, d, tail, by rw [hword]; rfl, hrest, hd⟩
    · rw [if_neg hc] at h
      cases h
      exact ⟨[], c, hbp, rfl, rfl, Bool.eq_false_of_not_eq_true hc⟩

theorem skipLine_returns (ht : Text hbp) : Returns (skipLine hbp) fun rest =>
    Text rest ∧ rest.length ≤ hbp.length ∧ (hbp.head? ≠ some 0 → rest.length < hbp.length) := by
  induction hbp with
  | nil => cases ht
  | cons c hbp ih =>
    unfold skipLine
    refine returns_ite (fun hc => ?_) fun hc => ?_
    · exact returns_ok ⟨ht, le_refl _, fun hhead => absurd (by rw [hc]; rfl) hhead⟩
    have htail := ht.drop_one hc
    refine returns_ite (fun _ => returns_ok ⟨htail, Nat.le_succ _, fun _ => Nat.lt_succ_self _⟩) fun _ => ?_
    refine (ih htail).mono ?_
    rintro rest ⟨htext, hlen, _⟩
    exact ⟨htext, hlen.trans (Nat.le_succ _), fun _ => Nat.lt_succ_of_le hlen⟩

theorem wordEq_returns {s₁ s₂ : Bytes} (h₁ : Text s₁) (h₂ : Text s₂) :
    Returns (wordEq s₁ s₂) fun _ => True := by
  induction s₁ generalizing s₂ with
  | nil => cases h₁
  | cons c₁ s₁ ih =>
    cases s₂ with
    | nil => cases h₂
    | cons c₂ s₂ =>
      unfold wordEq
      refine returns_ite (fun _ => returns_ok trivial) fun hgo => ?_
      have hne₁ : c₁ ≠ 0 := by
        rintro rfl
        exact hgo rfl
      have hne₂ : c₂ ≠ 0 := by
        rintro rfl
        exact hgo (by rw [show isGraph (toLower 0) = false from rfl]; simp)
      exact ih (h₁.drop_one hne₁) (h₂.drop_one hne₂)

theorem strnEq_returns {f : UInt8 → UInt8} (hf : ∀ c, f c = f 0 → c = 0) {n : Nat} {s₁ s₂ : Bytes}
    (h₁ : Text s₁) (h₂ : Text s₂) :
    Returns (strnEq f n s₁ s₂) fun eq => eq = true → 0 ∉ s₂.take n → Text (s₁.drop n) := by
  induction n generalizing s₁ s₂ with
  | zero => exact returns_ok fun _ _ => h₁
  | succ n ih =>
    cases s₁ with
    | nil => cases h₁
    | cons c₁ s₁ =>
      cases s₂ with
      | nil => cases h₂
      | cons c₂ s₂ =>
        unfold strnEq
        refine returns_ite (fun _ => returns_ok nofun) fun heq => ?_
        have hend : c₁ = 0 ↔ c₂ = 0 := by
          constructor
          · rintro rfl
            exact hf c₂ (not_not.mp heq).symm
          · rintro rfl
            exact hf c₁ (not_not.mp heq)
        refine returns_ite (fun hc => returns_ok fun _ hno => ?_) fun hc => ?_
        · exact absurd (by simp [hend.mp hc]) hno
        refine (ih (h₁.drop_one hc) (h₂.drop_one (hc ∘ hend.mpr))).mono fun eq hrest htrue hno => ?_
        exact hrest htrue fun hmem => hno (mem_cons_of_mem _ hmem)

theorem text_cText (s : String) : Text (cText s) := mem_append_right _ mem_cons_self

theorem atol_returns (ht : Text hbp) : Returns (atol hbp) fun _ => True := ⟨_, if_pos ht, trivial⟩

theorem isNewVersion_returns (ht : Text hbp) : Returns (isNewVersion hbp) fun _ => True := by
  refine returns_bind (peek_returns ht) fun a ha => returns_ite (fun _ => returns_ok trivial) fun ha1 => ?_
  have ht1 := ht.drop ha (c := a) (by rw [not_not.mp ha1]; decide)
  refine returns_bind (peek_returns ht1) fun b hb => returns_ite (fun _ => returns_ok trivial) fun hb1 => ?_
  have ht2 := ht1.drop hb (c := b) (by rw [not_not.mp hb1]; decide)
  rw [drop_drop] at ht2
  exact returns_bind (peek_returns ht2) fun c _ => returns_ok trivial

theorem isEmptyLine_returns (ht : Text hbp) : Returns (isEmptyLine hbp) fun _ => True := by
  refine returns_bind (peek_returns ht) fun a ha => returns_ite (fun _ => returns_ok trivial) fun _ => ?_
  refine returns_ite (fun _ => returns_ok trivial) fun ha1 => ?_
  have ht1 := ht.drop ha (c := a) (by rw [not_not.mp ha1]; decide)
  exact returns_bind (peek_returns ht1) fun b _ => returns_ok trivial

theorem requestType_returns (ht : Text hbp) (words : List (Bytes × HttpreadHdrType))
    (hwords : ∀ w ∈ words, Text w.1) : Returns (requestType hbp words) fun _ => True := by
  induction words with
  | nil => exact returns_ok trivial
  | cons w words ih =>
    refine returns_bind (wordEq_returns ht (hwords w mem_cons_self)) fun found _ => ?_
    exact returns_ite (fun _ => returns_ok trivial) fun _ => ih fun x hx => hwords x (mem_cons_of_mem _ hx)

/-! ## The URI -/

theorem isXdigit_of_not_isGraph {c : UInt8} (hc : isGraph c = false) : isXdigit c = false := by
  have hall : ∀ n : Fin 256, isGraph (UInt8.ofNat n) = false → isXdigit (UInt8.ofNat n) = false := by
    decide +kernel
  have h := hall ⟨c.toNat, c.toNat_lt⟩
  rw [show UInt8.ofNat c.toNat = c from UInt8.ofNat_toNat] at h
  exact h hc

theorem translateUri_returns {skip left room : Nat} {rawuri : Bytes} (hlen : left < rawuri.length)
    (hend : ∀ c, rawuri[left]? = some c → isXdigit c = false) (hroom : left < room) :
    Returns (translateUri skip left room rawuri) fun _ => True := by
  induction left generalizing skip room rawuri with
  | zero => cases skip <;> exact returns_ite (fun h => absurd h (by omega)) fun _ => returns_ok trivial
  | succ left ih =>
    have hlen' : left < (rawuri.drop 1).length := by
      rw [length_drop]
      omega
    have hend' : ∀ c, (rawuri.drop 1)[left]? = some c → isXdigit c = false := by
      intro c hc
      rw [getElem?_drop, Nat.add_comm] at hc
      exact hend c hc
    cases skip with
    | succ skip => exact ih hlen' hend' (by omega)
    | zero =>
      obtain ⟨c, a, rest, rfl⟩ : ∃ c a rest, rawuri = c :: a :: rest := by
        match rawuri, hlen with
        | [_], h => exact absurd h (by simp)
        | c :: a :: rest, _ => exact ⟨c, a, rest, rfl⟩
      unfold translateUri
      refine returns_bind (returns_ok rfl : Returns (peek (c :: a :: rest)) (· = c)) fun x _ => ?_
      refine returns_ite (fun h => absurd h (by omega)) fun _ => ?_
      have ha : Returns (peekIf (x == 0x25) ((c :: a :: rest).drop 1)) fun y => isXdigit y = true → y = a :=
        returns_ite (fun _ => returns_ok fun _ => rfl) fun _ => returns_ok nofun
      refine returns_bind ha fun y hy => ?_
      have hb : Returns (peekIf (isXdigit y) ((c :: a :: rest).drop 2)) fun _ => True := by
        refine returns_ite (fun hdigit => ?_) fun _ => returns_ok trivial
        -- the first digit is not behind the word, so there is something behind it
        cases rest with
        | cons b rest => exact returns_ok trivial
        | nil =>
          obtain rfl : left = 0 := by
            simp at hlen
            omega
          have hlast := hend a rfl
          rw [hy hdigit, hlast] at hdigit
          cases hdigit
      refine returns_bind hb fun z _ => ?_
      exact returns_bind (ih hlen' hend' (by omega)) fun _ _ => returns_ok trivial

/-! ## The lines of the header -/

def bodyPart (h : Httpread) : (Bool × Bytes × Bool × Bytes) × (Nat × Nat × Int × Bool × TrailerState) :=
  ((h.gotHdr, h.hdr, h.gotBody, h.body), (h.bodyAlloc, h.chunkStart, h.chunkSize, h.inTrailer, h.trailerState))

/-- A content length is one that is allowed, and no chunk has been begun. -/
structure HdrInv (h : Httpread) : Prop where
  contentLength : h.gotContentLength = true → 0 ≤ h.contentLength ∧ h.contentLength ≤ h.maxBytes
  inChunkData : h.inChunkData = false

/-- The result of a function of the header analysis. -/
structure Analyzed (h h' : Httpread) : Prop where
  bodyPart : h'.bodyPart = h.bodyPart
  maxBytes : h'.maxBytes = h.maxBytes
  inv : HdrInv h'

theorem contentLengthOption_returns (ht : Text hbp) (hinv : HdrInv h) :
    Returns (contentLengthOption h hbp) fun r =>
      r.1.bodyPart = h.bodyPart ∧ (r.2 = true → Analyzed h r.1) := by
  refine returns_bind (skipWhile_returns (by decide) ht) fun s₁ hs₁ => ?_
  refine returns_bind (skipWhile_returns (by decide) hs₁.1) fun s₂ hs₂ => ?_
  refine returns_bind (peek_returns hs₂.1) fun c _ => ?_
  refine returns_ite (fun _ => returns_ok ⟨rfl, nofun⟩) fun _ => ?_
  refine returns_bind (atol_returns hs₂.1) fun value _ => ?_
  refine returns_ite (fun _ => returns_ok ⟨rfl, nofun⟩) fun hrange => ?_
  refine returns_ok ⟨rfl, fun _ => ⟨rfl, rfl, fun _ => ?_, hinv.inChunkData⟩⟩
  exact ⟨not_lt.mp fun h => hrange (.inl h), not_lt.mp fun h => hrange (.inr h)⟩

theorem transferEncodingOption_returns (ht : Text hbp) (hinv : HdrInv h) :
    Returns (transferEncodingOption h hbp) fun r =>
      r.1.bodyPart = h.bodyPart ∧ (r.2 = true → Analyzed h r.1) := by
  refine returns_bind (skipWhile_returns (by decide) ht) fun s₁ hs₁ => ?_
  refine returns_bind (skipWhile_returns (by decide) hs₁.1) fun s₂ hs₂ => ?_
  refine returns_bind (wordEq_returns hs₂.1 (text_cText _)) fun found _ => ?_
  refine returns_ite (fun _ => returns_ok ⟨rfl, fun _ => ⟨rfl, rfl, hinv.contentLength, rfl⟩⟩) fun _ => ?_
  exact returns_ok ⟨rfl, fun _ => ⟨rfl, rfl, hinv⟩⟩

theorem hdrOptionAnalyze_returns (ht : Text hbp) (hinv : HdrInv h) :
    Returns (hdrOptionAnalyze h hbp) fun r =>
      r.1.bodyPart = h.bodyPart ∧ (r.2 = true → Analyzed h r.1) := by
  refine returns_bind (wordEq_returns ht (text_cText _)) fun found _ => ?_
  refine returns_ite (fun _ => contentLengthOption_returns ht hinv) fun _ => ?_
  refine returns_bind (wordEq_returns ht (text_cText _)) fun found _ => ?_
  refine returns_ite (fun _ => transferEncodingOption_returns ht hinv) fun _ => ?_
  refine returns_bind (wordEq_returns ht (text_cText _)) fun found _ => ?_
  refine returns_ite (fun _ => transferEncodingOption_returns ht hinv) fun _ => ?_
  exact returns_ok ⟨rfl, fun _ => ⟨rfl, rfl, hinv⟩⟩

theorem Analyzed.trans {h' h'' : Httpread} (h₁ : Analyzed h h') (h₂ : Analyzed h' h'') : Analyzed h h'' :=
  ⟨h₂.bodyPart.trans h₁.bodyPart, h₂.maxBytes.trans h₁.maxBytes, h₂.inv⟩

theorem optionLines_returns {turns : Nat} (ht : Text hbp) (hinv : HdrInv h) (hturns : hbp.length < turns) :
    Returns (optionLines turns h hbp) fun r =>
      r.1.bodyPart = h.bodyPart ∧ (r.2 = true → Analyzed h r.1) := by
  induction turns generalizing h hbp with
  | zero => exact absurd hturns (Nat.not_lt_zero _)
  | succ turns ih =>
    unfold optionLines
    refine returns_bind (isEmptyLine_returns ht) fun empty _ => ?_
    refine returns_ite (fun _ => returns_ok ⟨rfl, fun _ => ⟨rfl, rfl, hinv⟩⟩) fun _ => ?_
    refine returns_bind (peek_returns ht) fun c hc => ?_
    refine returns_ite (fun _ => returns_ok ⟨rfl, nofun⟩) fun hgraph => ?_
    refine returns_bind (hdrOptionAnalyze_returns ht hinv) fun r hr => ?_
    refine returns_ite (fun _ => returns_ok ⟨hr.1, nofun⟩) fun hok => ?_
    have hr := hr.2 (not_not.mp hok)
    refine returns_bind (skipLine_returns ht) fun rest hrest => ?_
    have hshort : rest.length < hbp.length := by
      refine hrest.2.2 fun hhead => hgraph ?_
      rw [hc] at hhead
      rw [Option.some_inj.mp hhead]
      decide
    refine (ih hrest.1 hr.inv (by omega)).mono fun r' hr' => ?_
    exact ⟨hr'.1.trans hr.bodyPart, fun hok' => hr.trans (hr'.2 hok')⟩

theorem replyLine_returns (ht : Text (hbp.drop 5)) (hinv : HdrInv h) : Returns (replyLine h hbp) fun r =>
    r.1.bodyPart = h.bodyPart ∧ ∀ rest, r.2 = some rest → Analyzed h r.1 ∧ Text rest := by
  refine returns_bind (isNewVersion_returns ht) fun newVersion _ => ?_
  refine returns_bind (skipWhile_returns (by decide) ht) fun s₁ hs₁ => ?_
  refine returns_bind (skipWhile_returns (by decide) hs₁.1) fun s₂ hs₂ => ?_
  refine returns_bind (peek_returns hs₂.1) fun c _ => ?_
  refine returns_ite (fun _ => returns_ok ⟨rfl, nofun⟩) fun _ => ?_
  refine returns_bind (atol_returns hs₂.1) fun code _ => ?_
  refine returns_ok ⟨rfl, fun rest hrest => ?_⟩
  cases hrest
  exact ⟨⟨rfl, rfl, hinv.contentLength, hinv.inChunkData⟩, hs₂.1⟩

theorem requestLine_returns (ht : Text hbp) (hinv : HdrInv h) : Returns (requestLine h hbp) fun r =>
    r.1.bodyPart = h.bodyPart ∧ ∀ rest, r.2 = some rest → Analyzed h r.1 ∧ Text rest := by
  refine returns_bind (requestType_returns ht _ (by simp [requestWords, text_cText])) fun type _ => ?_
  refine returns_bind (skipWhile_returns (by decide) ht) fun s₁ hs₁ => ?_
  refine returns_bind (skipWhile_returns (by decide) hs₁.1) fun rawuri hraw => ?_
  obtain ⟨s₃, heq₃, hs₃⟩ := skipWhile_returns (p := isGraph) (by decide) hraw.1
  rw [heq₃]
  refine returns_bind (returns_ok rfl : Returns (.ok s₃) (· = s₃)) fun x hx => ?_
  subst hx
  have huri : Returns (translateUri 0 (rawuri.length - x.length) (rawuri.length - x.length + 1) rawuri)
      fun _ => True := by
    obtain ⟨word, c, tail, hword, hrest, hc⟩ := skipWhile_word heq₃
    have hlen : rawuri.length - x.length = word.length := by
      rw [hword, length_append, Nat.add_sub_cancel]
    rw [hlen]
    refine translateUri_returns ?_ ?_ (Nat.lt_succ_self _)
    · rw [hword, hrest, length_append, length_cons]
      omega
    · intro d hd
      rw [hword, hrest, getElem?_append_right (le_refl _), Nat.sub_self] at hd
      cases hd
      exact isXdigit_of_not_isGraph hc
  refine returns_bind huri fun uri _ => ?_
  refine returns_bind (skipWhile_returns (by decide) hs₃.1) fun s₄ hs₄ => ?_
  have hfive : ∀ c : UInt8, id c = id 0 → c = 0 := fun _ h => h
  refine returns_bind (strnEq_returns hfive hs₄.1 (text_cText _)) fun http hhttp => ?_
  refine returns_ite (fun hyes => ?_) fun _ => ?_
  · have ht5 := hhttp hyes (by decide)
    refine returns_bind (isNewVersion_returns ht5) fun newVersion _ => returns_ok ⟨rfl, fun rest hrest => ?_⟩
    cases hrest
    exact ⟨⟨rfl, rfl, hinv.contentLength, hinv.inChunkData⟩, ht5⟩
  · refine returns_ok ⟨rfl, fun rest hrest => ?_⟩
    cases hrest
    exact ⟨⟨rfl, rfl, hinv.contentLength, hinv.inChunkData⟩, hs₄.1⟩

theorem firstLine_returns (ht : Text hbp) (hinv : HdrInv h) : Returns (firstLine h hbp) fun r =>
    r.1.bodyPart = h.bodyPart ∧ ∀ rest, r.2 = some rest → Analyzed h r.1 ∧ Text rest := by
  refine returns_bind (strnEq_returns (fun _ h => h) ht (text_cText _)) fun http hhttp => ?_
  refine returns_ite (fun hyes => ?_) fun _ => requestLine_returns ht hinv
  exact replyLine_returns (hhttp hyes (by decide)) hinv

/-! ## The whole header -/

/-- What the header analysis leaves when it succeeds. -/
structure Header (h h' : Httpread) : Prop where
  bodyPart : h'.bodyPart = h.bodyPart
  inChunkData : h'.inChunkData = false
  maxBytes : h'.maxBytes = h.maxBytes ∨ h'.maxBytes = 0
  contentLength : h'.gotContentLength = true → 0 ≤ h'.contentLength ∧ h'.contentLength ≤ h.maxBytes
  chunked : h'.chunked = true → h'.gotContentLength = false

theorem bodyLimit_cases (h : Httpread) : h.bodyLimit = h.maxBytes ∨ h.bodyLimit = 0 := by
  unfold bodyLimit
  split
  · exact (ite_eq_or_eq _ _ _).symm
  · exact (ite_eq_or_eq _ _ _).symm
  · exact (ite_eq_or_eq _ _ _).symm
  · exact .inl rfl

theorem Analyzed.expectBody {h' : Httpread} (ha : Analyzed h h') : Header h h'.expectBody where
  bodyPart := ha.bodyPart
  inChunkData := ha.inv.inChunkData
  maxBytes := by
    rw [← ha.maxBytes]
    exact bodyLimit_cases _
  contentLength := fun hgot => by
    rw [← ha.maxBytes]
    exact ha.inv.contentLength (Bool.and_eq_true_iff.mp hgot).1
  chunked := fun hchunked => by
    show (h'.gotContentLength && !h'.chunked) = false
    rw [show h'.chunked = true from hchunked, Bool.not_true, Bool.and_false]

theorem text_hdrArray (hlen : h.hdr.length ≤ httpreadHeaderMaxSize) : Text h.hdrArray := by
  refine mem_append_right _ ?_
  rw [show httpreadHeaderMaxSize + 1 - h.hdr.length = httpreadHeaderMaxSize - h.hdr.length + 1 by omega]
  exact mem_cons_self

theorem hdrAnalyze_returns (hlen : h.hdr.length ≤ httpreadHeaderMaxSize) (hinv : HdrInv h) :
    Returns (hdrAnalyze h) fun r => r.1.bodyPart = h.bodyPart ∧ (r.2 = true → Header h r.1) := by
  have ht := text_hdrArray hlen
  refine returns_bind (peek_returns ht) fun c _ => ?_
  refine returns_ite (fun _ => returns_ok ⟨rfl, nofun⟩) fun _ => ?_
  have hinv' : HdrInv { h with hdrType := .unknown } := ⟨hinv.contentLength, hinv.inChunkData⟩
  refine returns_bind (firstLine_returns ht hinv') fun r hr => ?_
  rcases hline : r.2 with _ | rest
  · exact returns_ok ⟨hr.1, nofun⟩
  obtain ⟨ha, hrest⟩ := hr.2 rest hline
  refine returns_bind (skipLine_returns hrest) fun lines hlines => ?_
  refine returns_bind (optionLines_returns hlines.1 ha.inv (Nat.lt_succ_self _)) fun r' hr' => ?_
  have hpart : r'.1.bodyPart = h.bodyPart := hr'.1.trans ha.bodyPart
  refine returns_ite (fun hok => returns_ok ⟨hpart, fun _ => ?_⟩) fun _ => returns_ok ⟨hpart, nofun⟩
  have hall := (ha.trans (hr'.2 hok)).expectBody
  exact ⟨hall.bodyPart, hall.inChunkData, hall.maxBytes, hall.contentLength, hall.chunked⟩

end Header

end Httpread

end Hostap
