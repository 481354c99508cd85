import Hostap.Utils.JsonTree

/-!
# What the JSON parser reads and writes

The text that `json_parse()` is given need not end in a NUL. In two places the parser uses a character without
a look at the end: `json_parse_number()` steps back from the character behind a number only when there is one,
and copies one octet more otherwise, and `json_parse_string()` takes the character behind a backslash.

`json_parse_reads_iff` says that these are the only places, that the parser never stores outside a buffer, and
that the rounds of its loops are bounded by the length of the text.
-/

namespace Hostap

namespace Json

open Octets Output Common List

def NumberAtEnd (pos : Bytes) : Prop := pos ≠ [] ∧ ∀ c ∈ pos, isNumberChar c = true

/-- A string whose last octet is a backslash, and the last one of the text. -/
def BackslashAtEnd (pos : Bytes) : Prop :=
  ∃ text octets, pos = 0x22 :: (text ++ [0x5c]) ∧ StringText text octets

/-- The rounds of the loop come to this state with this rest of the text. -/
inductive Visited (alloc : Alloc) (data : Bytes) : Parser → Bytes → Prop
  | start : Visited alloc data {} data
  | next {s s' : Parser} {c : UInt8} {rest rest' : Bytes} : Visited alloc data s (c :: rest) →
      jsonStep alloc [] s c rest = .ok (some (s', rest')) → Visited alloc data s' rest'

/-! ## Allocations that fail -/

/-- Where it succeeds it does the same as when every allocation succeeds. -/
def Steady {α : Type} (op : Alloc → Option α) : Prop := ∀ alloc r, op alloc = some r → op .all = some r

theorem steady_const {α : Type} (o : Option α) : Steady fun _ => o := fun _ _ h => h

theorem steady_jsonAllocToken (s : Parser) : Steady fun alloc => jsonAllocToken alloc s := by
  intro alloc r h
  simp only [jsonAllocToken] at h ⊢
  split_ifs at h with hmost
  rw [if_neg hmost, if_pos (show Alloc.all.token (s.tokens + 1) = true from rfl)]
  exact h

theorem steady_putValue (fill : Token → Token) (s : Parser) : Steady fun alloc => putValue alloc fill s := by
  intro alloc r h
  have halloc := steady_jsonAllocToken s alloc
  unfold putValue at h ⊢
  grind

theorem steady_putString (str : Bytes) (s : Parser) : Steady fun alloc => putString alloc str s := by
  intro alloc r h
  have hvalue := fun fill => steady_putValue fill s alloc
  unfold putString at h ⊢
  grind

theorem steady_memberSeparator (s : Parser) : Steady fun alloc => memberSeparator alloc s := by
  intro alloc r h
  have halloc := steady_jsonAllocToken s alloc
  unfold memberSeparator at h ⊢
  grind

theorem steady_beginContainer (type : JsonType) (s : Parser) (t : Nat) :
    Steady fun alloc => beginContainer alloc type s t := by
  intro alloc r h
  have halloc := fun s => steady_jsonAllocToken s alloc
  unfold beginContainer at h ⊢
  grind

theorem steady_startContainer (type : JsonType) (s : Parser) :
    Steady fun alloc => startContainer alloc type s := by
  intro alloc r h
  have halloc := steady_jsonAllocToken s alloc
  have hbegin := fun s t => steady_beginContainer type s t alloc
  unfold startContainer containerToken at h ⊢
  grind

/-! ## The kinds of rounds -/

variable {alloc : Alloc} {behind rest rest' pos data : Bytes} {s s' : Parser} {c : UInt8} {f : Fault}

/-- A round by what it takes from the text, as a function of the allocations. -/
inductive Round (behind : Bytes) (s : Parser) (c : UInt8) (rest : Bytes) :
    (Alloc → Except Fault (Option (Parser × Bytes))) → Prop
  | refused : c ≠ 0x22 → isNumberChar c = false → Round behind s c rest fun _ => .ok none
  | plain {op : Alloc → Option Parser} {r : Bytes} : Steady op → r.length ≤ rest.length → c ≠ 0x22 →
      isNumberChar c = false → Round behind s c rest fun alloc => oneCharacter (op alloc) r
  | string : c = 0x22 → Round behind s c rest fun alloc => stringRound alloc behind s (c :: rest)
  | number : isNumberChar c = true → Round behind s c rest fun alloc => numberRound alloc behind s (c :: rest)

theorem jsonStep_round (behind : Bytes) (s : Parser) (c : UInt8) (rest : Bytes) :
    Round behind s c rest fun alloc => jsonStep alloc behind s c rest := by
  -- one of the characters that are no number, and the round that takes it
  have hone : ∀ {op : Alloc → Option Parser} (d : UInt8), c = d → d ≠ 0x22 → isNumberChar d = false →
      Steady op → Round behind s c rest fun alloc => oneCharacter (op alloc) rest :=
    fun d hc hd hnum hop => .plain hop (Nat.le_refl _) (hc ▸ hd) (hc ▸ hnum)
  unfold jsonStep
  by_cases h₁ : c = 0x5b
  · simp only [if_pos h₁]
    exact hone 0x5b h₁ (by decide) (by decide) (steady_startContainer .array s)
  by_cases h₂ : c = 0x7b
  · simp only [if_neg h₁, if_pos h₂]
    exact hone 0x7b h₂ (by decide) (by decide) (steady_startContainer .object s)
  by_cases h₃ : c = 0x5d
  · simp only [if_neg h₁, if_neg h₂, if_pos h₃]
    exact hone 0x5d h₃ (by decide) (by decide) (steady_const _)
  by_cases h₄ : c = 0x7d
  · simp only [if_neg h₁, if_neg h₂, if_neg h₃, if_pos h₄]
    exact hone 0x7d h₄ (by decide) (by decide) (steady_const _)
  simp only [if_neg h₁, if_neg h₂, if_neg h₃, if_neg h₄]
  by_cases h₅ : c = 0x22
  · simp only [if_pos h₅]
    exact .string h₅
  by_cases h₆ : c = 0x20 ∨ c = 0x09 ∨ c = 0x0d ∨ c = 0x0a
  · simp only [if_neg h₅, if_pos h₆]
    refine .plain (steady_const (some s)) (Nat.le_refl _) h₅ ?_
    rcases h₆ with rfl | rfl | rfl | rfl <;> decide
  by_cases h₇ : c = 0x3a
  · simp only [if_neg h₅, if_neg h₆, if_pos h₇]
    exact hone 0x3a h₇ (by decide) (by decide) (steady_const _)
  by_cases h₈ : c = 0x2c
  · simp only [if_neg h₅, if_neg h₆, if_neg h₇, if_pos h₈]
    exact hone 0x2c h₈ (by decide) (by decide) (steady_memberSeparator s)
  simp only [if_neg h₅, if_neg h₆, if_neg h₇, if_neg h₈]
  by_cases h₉ : c = 0x74 ∨ c = 0x66 ∨ c = 0x6e
  · have hnum : isNumberChar c = false := by
      rcases h₉ with rfl | rfl | rfl <;> decide
    simp only [if_pos h₉]
    cases hlit : literal (c :: rest) with
    | none => exact .refused h₅ hnum
    | some r =>
      obtain ⟨fill, len⟩ := r
      have hlen : 1 ≤ len := by
        unfold literal at hlit
        split_ifs at hlit <;> cases hlit <;> decide
      refine .plain (steady_putValue fill s) ?_ h₅ hnum
      rw [length_drop, length_cons]
      omega
  simp only [if_neg h₉]
  by_cases h₁₀ : isNumberChar c = true
  · simp only [if_pos h₁₀]
    exact .number h₁₀
  · simp only [if_neg h₁₀]
    exact .refused h₅ (Bool.not_eq_true _ ▸ h₁₀)

/-! ## Strings and numbers -/

theorem jsonParseNumber_error (h : jsonParseNumber alloc behind (c :: rest) = .error f) :
    f = .read ∧ behind = [] ∧ NumberAtEnd (c :: rest) := by
  simp only [jsonParseNumber] at h
  split_ifs at h with hnone halloc hend
  cases behind with
  | cons b behind => cases h
  | nil =>
    cases h
    refine ⟨rfl, rfl, cons_ne_nil _ _, fun d hd => ?_⟩
    have hall := takeWhile_append_dropWhile (p := isNumberChar) (l := c :: rest)
    rw [hend, append_nil] at hall
    rw [← hall] at hd
    exact mem_takeWhile_imp hd

theorem jsonParseNumber_ok {num : Int} (h : jsonParseNumber alloc behind (c :: rest) = .ok (some (num, rest')))
    (hc : isNumberChar c = true) : rest'.length ≤ rest.length ∧
      jsonParseNumber .all behind (c :: rest) = .ok (some (num, rest')) := by
  have hall : (!Alloc.all.number (c :: rest).length) = false := rfl
  have hdrop : ((c :: rest).dropWhile isNumberChar).length ≤ rest.length := by
    rw [dropWhile_cons_of_pos hc]
    exact (dropWhile_suffix _).length_le
  simp only [jsonParseNumber] at h ⊢
  split_ifs at h with hnone halloc hend
  · cases h
  · cases h
  · rw [if_neg hnone, if_neg (by rw [hall]; exact Bool.false_ne_true), if_pos hend]
    refine ⟨?_, h⟩
    cases behind with
    | nil => cases h
    | cons b behind =>
      cases h
      exact Nat.zero_le _
  · rw [if_neg hnone, if_neg (by rw [hall]; exact Bool.false_ne_true), if_neg hend]
    refine ⟨?_, h⟩
    cases h
    exact hdrop

theorem jsonParseNumber_atEnd (h : NumberAtEnd pos) : jsonParseNumber .all [] pos = .error .read := by
  have hall : (!Alloc.all.number pos.length) = false := rfl
  have hdrop : pos.dropWhile isNumberChar = [] := dropWhile_eq_nil_iff.2 h.2
  simp only [jsonParseNumber, hdrop, hall]
  rw [if_neg (fun hnone => hnone.2 rfl)]
  rfl

theorem jsonParseString_error (h : jsonParseString alloc behind (c :: rest) = .error f) :
    f = .read ∧ behind = [] ∧ ∃ text octets, rest = text ++ [0x5c] ∧ StringText text octets := by
  have hcases := jsonParseString_cases alloc behind rest c
  rw [h] at hcases
  cases hcases with
  | cut hbehind hpos htext => exact ⟨rfl, hbehind, _, _, hpos, htext⟩

theorem jsonParseString_ok {str : Bytes}
    (h : jsonParseString alloc behind (c :: rest) = .ok (some (str, rest'))) :
    rest'.length ≤ rest.length ∧ jsonParseString .all behind (c :: rest) = .ok (some (str, rest')) := by
  have hcases := jsonParseString_cases alloc behind rest c
  rw [h] at hcases
  cases hcases with
  | closed hpos htext =>
    rw [hpos]
    refine ⟨?_, jsonParseString_text htext behind rest' c⟩
    rw [length_append, length_cons]
    omega

/-! ## One round -/

theorem jsonStep_error (h : jsonStep alloc behind s c rest = .error f) :
    f = .read ∧ behind = [] ∧ (NumberAtEnd (c :: rest) ∨ BackslashAtEnd (c :: rest)) := by
  have hround := jsonStep_round behind s c rest
  generalize hstep : (fun alloc => jsonStep alloc behind s c rest) = step at hround
  have h : step alloc = .error f := by
    rw [← hstep]
    exact h
  cases hround with
  | refused _ _ => cases h
  | plain _ _ _ _ => cases h
  | string hc =>
    simp only [stringRound] at h
    cases hstr : jsonParseString alloc behind (c :: rest) with
    | error e =>
      rw [hstr] at h
      cases h
      obtain ⟨hf, hbehind, text, octets, hpos, htext⟩ := jsonParseString_error hstr
      exact ⟨hf, hbehind, .inr ⟨text, octets, by rw [hc, hpos], htext⟩⟩
    | ok r =>
      rw [hstr] at h
      cases r <;> cases h
  | number hc =>
    simp only [numberRound] at h
    cases hnum : jsonParseNumber alloc behind (c :: rest) with
    | error e =>
      rw [hnum] at h
      cases h
      obtain ⟨hf, hbehind, hend⟩ := jsonParseNumber_error hnum
      exact ⟨hf, hbehind, .inl hend⟩
    | ok r =>
      rw [hnum] at h
      cases r <;> cases h

theorem jsonStep_ok (h : jsonStep alloc behind s c rest = .ok (some (s', rest'))) :
    rest'.length ≤ rest.length ∧ jsonStep .all behind s c rest = .ok (some (s', rest')) := by
  have hround := jsonStep_round behind s c rest
  generalize hstep : (fun alloc => jsonStep alloc behind s c rest) = step at hround
  have hall : jsonStep .all behind s c rest = step .all := by rw [← hstep]
  have h : step alloc = .ok (some (s', rest')) := by
    rw [← hstep]
    exact h
  rw [hall]
  have hone : ∀ {op : Alloc → Option Parser} {r : Bytes}, Steady op →
      oneCharacter (op alloc) r = .ok (some (s', rest')) →
      rest' = r ∧ oneCharacter (op .all) r = .ok (some (s', rest')) := by
    intro op r hop h
    cases ho : op alloc with
    | none =>
      rw [ho] at h
      cases h
    | some s₁ =>
      rw [ho] at h
      rw [hop alloc s₁ ho]
      refine ⟨?_, h⟩
      cases h
      rfl
  cases hround with
  | refused _ _ => cases h
  | plain hop hlen _ _ =>
    obtain ⟨rfl, hok⟩ := hone hop h
    exact ⟨hlen, hok⟩
  | string hc =>
    cases hstr : jsonParseString alloc behind (c :: rest) with
    | error e =>
      simp only [stringRound, hstr] at h
      cases h
    | ok r =>
      cases r with
      | none =>
        simp only [stringRound, hstr] at h
        cases h
      | some r =>
        obtain ⟨str, rest₁⟩ := r
        obtain ⟨hlen, hstr'⟩ := jsonParseString_ok hstr
        simp only [stringRound, hstr] at h
        simp only [stringRound, hstr']
        obtain ⟨rfl, hok⟩ := hone (steady_putString str s) h
        exact ⟨hlen, hok⟩
  | number hc =>
    cases hnum : jsonParseNumber alloc behind (c :: rest) with
    | error e =>
      simp only [numberRound, hnum] at h
      cases h
    | ok r =>
      cases r with
      | none =>
        simp only [numberRound, hnum] at h
        cases h
      | some r =>
        obtain ⟨num, rest₁⟩ := r
        obtain ⟨hlen, hnum'⟩ := jsonParseNumber_ok hnum hc
        simp only [numberRound, hnum] at h
        simp only [numberRound, hnum']
        obtain ⟨rfl, hok⟩ := hone (steady_putValue _ s) h
        exact ⟨hlen, hok⟩

theorem jsonStep_atEnd (h : NumberAtEnd (c :: rest) ∨ BackslashAtEnd (c :: rest)) (s : Parser) :
    jsonStep .all [] s c rest = .error .read := by
  have hround := jsonStep_round [] s c rest
  generalize hstep : (fun alloc => jsonStep alloc [] s c rest) = step at hround
  have hall : jsonStep .all [] s c rest = step .all := by rw [← hstep]
  have hchar : isNumberChar c = true ∨ c = 0x22 := by
    rcases h with h | ⟨text, octets, hpos, -⟩
    · exact .inl (h.2 c (mem_cons_self ..))
    · exact .inr (List.cons.inj hpos).1
  rw [hall]
  cases hround with
  | refused hquote hnum =>
    rw [hnum] at hchar
    exact absurd (hchar.resolve_left Bool.false_ne_true) hquote
  | plain _ _ hquote hnum =>
    rw [hnum] at hchar
    exact absurd (hchar.resolve_left Bool.false_ne_true) hquote
  | string hc =>
    rcases h with h | ⟨text, octets, hpos, htext⟩
    · have hnum := h.2 c (mem_cons_self ..)
      rw [hc] at hnum
      cases hnum
    · simp only [stringRound, hpos, jsonParseString_backslash htext]
  | number hc =>
    rcases h with h | ⟨text, octets, hpos, -⟩
    · simp only [numberRound, jsonParseNumber_atEnd h]
    · rw [(List.cons.inj hpos).1] at hc
      cases hc

/-! ## The loop -/

theorem jsonLoop_cons (alloc : Alloc) (behind : Bytes) (n : Nat) (s : Parser) (c : UInt8) (rest : Bytes) :
    jsonLoop alloc behind (n + 1) s (c :: rest) =
      match jsonStep alloc behind s c rest with
      | .error e => .error e
      | .ok none => .ok none
      | .ok (some (s, rest)) => jsonLoop alloc behind n s rest := rfl

theorem jsonLoop_error (data : Bytes) {n : Nat} (hn : pos.length < n)
    (h : jsonLoop alloc behind n s pos = .error f) :
    f = .read ∧ behind = [] ∧ (Visited .all data s pos →
      ∃ s' pos', Visited .all data s' pos' ∧ (NumberAtEnd pos' ∨ BackslashAtEnd pos')) := by
  induction n generalizing s pos with
  | zero => exact absurd hn (Nat.not_lt_zero _)
  | succ n ih =>
    cases pos with
    | nil => cases h
    | cons c rest =>
      rw [jsonLoop_cons] at h
      cases hstep : jsonStep alloc behind s c rest with
      | error e =>
        rw [hstep] at h
        cases h
        obtain ⟨hf, hbehind, hend⟩ := jsonStep_error hstep
        exact ⟨hf, hbehind, fun hv => ⟨s, c :: rest, hv, hend⟩⟩
      | ok r =>
        cases r with
        | none =>
          rw [hstep] at h
          cases h
        | some r =>
          obtain ⟨s₁, rest₁⟩ := r
          rw [hstep] at h
          obtain ⟨hlen, hall⟩ := jsonStep_ok hstep
          rw [length_cons] at hn
          obtain ⟨hf, hbehind, hlater⟩ := ih (show rest₁.length < n by omega) h
          refine ⟨hf, hbehind, fun hv => hlater ?_⟩
          rw [hbehind] at hall
          exact .next hv hall

theorem Visited.loop (hv : Visited .all data s pos) :
    ∃ n, pos.length < n ∧ jsonLoop .all [] (data.length + 1) {} data = jsonLoop .all [] n s pos := by
  induction hv with
  | start => exact ⟨data.length + 1, Nat.lt_succ_self _, rfl⟩
  | @next s s' c rest rest' _ hstep ih =>
    obtain ⟨n, hn, hrun⟩ := ih
    rw [length_cons] at hn
    obtain ⟨m, rfl⟩ : ∃ m, n = m + 1 := ⟨n - 1, by omega⟩
    have hlen := (jsonStep_ok hstep).1
    refine ⟨m, by omega, ?_⟩
    rw [hrun, jsonLoop_cons, hstep]

theorem jsonParse_error_iff :
    jsonParse alloc behind data = .error f ↔ jsonLoop alloc behind (data.length + 1) {} data = .error f := by
  unfold jsonParse
  cases jsonLoop alloc behind (data.length + 1) {} data with
  | error e =>
    constructor
    · intro h
      cases h
      rfl
    · intro h
      cases h
      rfl
  | ok r =>
    cases r with
    | none =>
      constructor
      · intro h
        cases h
      · intro h
        cases h
    | some s =>
      constructor
      · intro h
        dsimp only at h
        split_ifs at h
      · intro h
        cases h

/-- A run reads behind the text or is done, and the check of the tree needs as many levels as there are tokens.
It does not read behind the text just when no round begins in one of the two places. -/
theorem json_parse_reads_iff (data : Bytes) :
    (∀ alloc behind f, jsonParse alloc behind data = .error f → f = .read ∧ behind = []) ∧
    (∀ alloc behind n s, jsonLoop alloc behind n {} data = .ok (some s) → ∀ m, s.next ≤ m →
      jsonCheckTreeState s.tok m s.root = jsonCheckTreeState s.tok s.next s.root) ∧
    ((∀ alloc, ∃ r, jsonParse alloc [] data = .ok r) ↔
      ∀ s pos, Visited .all data s pos → ¬ NumberAtEnd pos ∧ ¬ BackslashAtEnd pos) := by
  refine ⟨?_, ?_, ?_, ?_⟩
  · intro alloc behind f h
    obtain ⟨hf, hbehind, -⟩ := jsonLoop_error data (Nat.lt_succ_self _) (jsonParse_error_iff.1 h)
    exact ⟨hf, hbehind⟩
  · intro alloc behind n s h m hm
    obtain ⟨hi, -⟩ := jsonLoop_inv inv_start h
    apply jsonCheckTreeState_levels hi.tokens
    · intro i hroot
      cases hcurr : s.curr with
      | none =>
        rw [(hi.start hcurr).2.1] at hroot
        cases hroot
      | some j =>
        obtain ⟨hzero, hlt⟩ := hi.root j hcurr
        rw [hzero] at hroot
        cases hroot
        omega
    · exact fun i _ => le_trans hm (Nat.le_add_right _ _)
    · exact fun i _ => Nat.le_add_right _ _
  · intro hsafe s pos hv
    -- the round that begins there stops, and with it the run
    have hgo : ¬ (NumberAtEnd pos ∨ BackslashAtEnd pos) := by
      intro hend
      obtain ⟨n, hn, hrun⟩ := hv.loop
      obtain ⟨r, hr⟩ := hsafe .all
      have hstop : jsonLoop .all [] n s pos = .error .read := by
        cases pos with
        | nil =>
          rcases hend with h | ⟨text, octets, h, -⟩
          · exact absurd rfl h.1
          · cases h
        | cons c rest =>
          obtain ⟨m, rfl⟩ : ∃ m, n = m + 1 := ⟨n - 1, by omega⟩
          rw [jsonLoop_cons, jsonStep_atEnd hend]
      rw [jsonParse_error_iff.2 (hrun.trans hstop)] at hr
      cases hr
    exact not_or.1 hgo
  · intro hclear alloc
    cases hr : jsonParse alloc [] data with
    | ok r => exact ⟨r, rfl⟩
    | error f =>
      obtain ⟨-, -, hlater⟩ := jsonLoop_error data (Nat.lt_succ_self _) (jsonParse_error_iff.1 hr)
      obtain ⟨s, pos, hv, hend⟩ := hlater .start
      obtain ⟨hnum, hback⟩ := hclear s pos hv
      exact absurd hend (not_or.2 ⟨hnum, hback⟩)

/-- The text of a number and nothing else. -/
theorem json_parse_number_reads_behind : ¬ ∀ alloc, ∃ r, jsonParse alloc [] (ascii "12") = .ok r := by
  intro h
  obtain ⟨r, hr⟩ := h .all
  have hnumber : NumberAtEnd (ascii "12") := by
    refine ⟨by decide, fun d hd => ?_⟩
    have hall : (ascii "12").all isNumberChar = true := by decide
    exact all_eq_true.1 hall d hd
  have hstep : jsonStep .all [] {} 0x31 [0x32] = .error .read := jsonStep_atEnd (.inl hnumber) {}
  have hstop : jsonParse .all [] (ascii "12") = .error .read := by
    rw [jsonParse_error_iff]
    show jsonLoop .all [] 3 {} [0x31, 0x32] = .error .read
    rw [jsonLoop_cons, hstep]
  rw [hstop] at hr
  cases hr

end Json

end Hostap
