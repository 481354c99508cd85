import Hostap.Ft.Ies
import Hostap.Lib.Spans

/-!
# Where the values of FT elements come from

`wpa_ft_parse_ies()` (`src/common/wpa_common.c`) hands out pointers into the frame. The MIC of an FTE covers
the RSNE, the MDE, the FTE and the RIC that are pointed to, so a value is only protected if its pointer is
inside one of them.

`wpaFtParseIesAt` is the same parser with parts of the frame in place of values, and `wpaFtParseIes_eq_read`
says that reading the parts gives the values. Each element that is met takes the place of an earlier one of
its kind, but the PMKID of an RSNE and the subelements of an FTE stay when the later element has none. So
everything handed out is protected if and only if the last RSNE has a PMKID, and the last FTE a subelement,
wherever an earlier one has (`ft_ies_protected_iff`).
-/

namespace Hostap

open Octets Spans List

/-! ## The parser on parts -/

/-- An element of a buffer, and where its body is. -/
structure IeAt where
  id : UInt8
  off : Nat
  body : Bytes

def IeAt.span (e : IeAt) : Span := ⟨e.off, e.body.length⟩

/-- The elements of a buffer from offset `off` on, up to its end or to one that is cut off. -/
def iesAt : Nat → Nat → Bytes → List IeAt
  | fuel + 1, off, id :: len :: rest =>
    if rest.length < len.toNat then []
    else ⟨id, off + 2, rest.take len.toNat⟩ :: iesAt fuel (off + 2 + len.toNat) (rest.drop len.toNat)
  | _, _, _ => []

/-- `struct wpa_ft_ies`, with pointers into the frame. -/
structure FtSpans where
  mdie : Option Span := none
  ftie : Option Span := none
  r1khId : Option Span := none
  gtk : Option Span := none
  r0khId : Option Span := none
  rsn : Option Span := none
  rsnPmkid : Option Span := none
  tie : Option Span := none
  igtk : Option Span := none
  ric : Option Nat := none
  ricLen : Nat := 0
  keyMgmt : List Akm := []
  pairwiseCipher : List Cipher := []

def FtSpans.read (ies : Bytes) (p : FtSpans) : WpaFtIes where
  mdie := p.mdie.map (Span.octets ies)
  ftie := p.ftie.map (Span.octets ies)
  r1khId := p.r1khId.map (Span.octets ies)
  gtk := p.gtk.map (Span.octets ies)
  r0khId := p.r0khId.map (Span.octets ies)
  rsn := p.rsn.map (Span.octets ies)
  rsnPmkid := p.rsnPmkid.map (Span.octets ies)
  tie := p.tie.map (Span.octets ies)
  igtk := p.igtk.map (Span.octets ies)
  ric := p.ric.map ies.drop
  ricLen := p.ricLen
  keyMgmt := p.keyMgmt
  pairwiseCipher := p.pairwiseCipher

def ftieSubelemAt (parse : FtSpans) (e : IeAt) : Option FtSpans :=
  if e.id = 1 then
    if e.body.length ≠ 6 then none else some { parse with r1khId := some e.span }
  else if e.id = 2 then
    some { parse with gtk := some e.span }
  else if e.id = 3 then
    if e.body.length < 1 ∨ 48 < e.body.length then none else some { parse with r0khId := some e.span }
  else if e.id = 4 then
    some { parse with igtk := some e.span }
  else
    some parse

def ftieSubelemsOf (useSha384 : Bool) (e : IeAt) : List IeAt :=
  iesAt e.body.length (e.off + ftieLen useSha384) (e.body.drop (ftieLen useSha384))

/-- `wpa_ft_parse_ftie()`. -/
def wpaFtParseFtieAt (e : IeAt) (useSha384 : Bool) (parse : FtSpans) : Option FtSpans :=
  (ftieSubelemsOf useSha384 e).foldlM ftieSubelemAt { parse with ftie := some e.span }

def pmkidSpan (e : IeAt) : Option Span :=
  match wpaParseWpaIeRsn (element eidRsn e.body) with
  | none => none
  | some data =>
    if data.numPmkid = 1 then data.pmkid.map fun pmkid => ⟨e.off + e.body.length - pmkid.length, pmkidLen⟩
    else none

/-- The local variables of `wpa_ft_parse_ies()`. -/
structure FtParseAt where
  parse : FtSpans := {}
  useSha384 : Bool
  updateUseSha384 : Bool
  protIeCount : Nat := 0

def ftElementAt (st : FtParseAt) (e : IeAt) : Option FtParseAt :=
  if e.id = eidRsn then
    match wpaParseWpaIeRsn (element eidRsn e.body) with
    | none => none
    | some data =>
      let parse := { st.parse with
        rsn := some e.span
        rsnPmkid := (pmkidSpan e).or st.parse.rsnPmkid
        keyMgmt := data.keyMgmt
        pairwiseCipher := data.pairwiseCipher }
      if st.updateUseSha384 then
        some { st with
          parse
          useSha384 := data.keyMgmt.any wpaKeyMgmtSha384
          updateUseSha384 := false }
      else
        some { st with parse }
  else if e.id = eidMobilityDomain then
    if e.body.length < 3 then none
    else some { st with parse := { st.parse with mdie := some e.span } }
  else if e.id = eidFastBssTransition then
    if e.body.length < ftieLen st.useSha384 then
      none
    else
      match wpaFtParseFtieAt e st.useSha384 st.parse with
      | none => none
      | some parse => some { st with parse, protIeCount := (e.body.getD 1 0).toNat }
  else if e.id = eidTimeoutInterval then
    if e.body.length ≠ 5 then some st
    else some { st with parse := { st.parse with tie := some e.span } }
  else if e.id = eidRicData then
    if st.parse.ric = none then some { st with parse := { st.parse with ric := some (e.off - 2) } }
    else some st
  else
    some st

/-- The check of the protected element count, and the end of the RIC. -/
def checkProtIeCount (ies : Bytes) (st : FtParseAt) : Option FtSpans :=
  let parse := st.parse
  if st.protIeCount = 0 then
    some parse
  else
    let present := [parse.rsn, parse.mdie, parse.ftie].countP Option.isSome
    if st.protIeCount < present then
      none
    else
      let count := st.protIeCount - present
      if count = 0 ∧ parse.ric.isSome then
        none
      else
        match parse.ric with
        | none => if count ≠ 0 then none else some parse
        | some ric =>
          let (ricLen, missing) := ricEnd count (ies.drop ric)
          if missing ≠ 0 then none else some { parse with ricLen }

/-- `wpa_ft_parse_ies()`, with pointers into the frame. -/
def wpaFtParseIesAt (ies : Bytes) (useSha384 : Option Bool) : Option FtSpans :=
  ((iesAt ies.length 0 ies).foldlM ftElementAt
    { useSha384 := useSha384.getD false, updateUseSha384 := useSha384.isNone }).bind (checkProtIeCount ies)

/-! ## The PMKID list of an RSNE -/

theorem rsnIeHeader_suffix {ie left : Bytes} {data : WpaIeData} (h : rsnIeHeader ie = some (data, left)) :
    left <:+ ie.drop 4 := by
  unfold rsnIeHeader at h
  split at h
  · cases h
  · split at h
    · cases h
      have hdrop : ie.drop 6 = (ie.drop 4).drop 2 := by rw [drop_drop]
      rw [hdrop]
      exact drop_suffix 2 _
    · split at h
      · cases h
      · cases h
        exact suffix_refl _

theorem rsnIeGroup_suffix {left rest : Bytes} (h : rsnIeGroup left = some rest) : rest <:+ left := by
  unfold rsnIeGroup at h
  split at h
  · split at h
    · cases h
      exact drop_suffix _ _
    · cases h
  · split at h
    · cases h
    · cases h
      exact suffix_refl _

theorem rsnIeSuites_suffix {α : Type} {toBitfield : Bytes → Option α} {left rest : Bytes}
    {suites : Option (List α)} (h : rsnIeSuites toBitfield left = some (suites, rest)) : rest <:+ left := by
  unfold rsnIeSuites at h
  split at h
  · dsimp only at h
    split at h
    · cases h
    · cases h
      exact (drop_suffix _ _).trans (drop_suffix _ _)
  · split at h
    · cases h
    · cases h
      exact suffix_refl _

theorem rsnIePmkids_suffix {left rest pmkid : Bytes} {numPmkid : Nat}
    (h : rsnIePmkids left = some (some pmkid, numPmkid, rest)) :
    pmkid <:+ left ∧ numPmkid ≤ pmkid.length / pmkidLen := by
  -- the capabilities are skipped
  have hcapab : (if 2 ≤ left.length then left.drop 2 else left) <:+ left := by
    split
    · exact drop_suffix _ _
    · exact suffix_refl _
  unfold rsnIePmkids at h
  dsimp only at h
  generalize (if 2 ≤ left.length then left.drop 2 else left) = list at h hcapab
  by_cases hcount : 2 ≤ list.length
  · rw [if_pos hcount] at h
    by_cases hshort : (list.drop 2).length / pmkidLen < getLe16 list
    · rw [if_pos hshort] at h
      cases h
    · rw [if_neg hshort] at h
      cases h
      exact ⟨(drop_suffix _ _).trans hcapab, Nat.le_of_not_lt hshort⟩
  · rw [if_neg hcount] at h
    cases h

theorem wpaParseWpaIeRsn_pmkid {ie pmkid : Bytes} {data : WpaIeData} (h : wpaParseWpaIeRsn ie = some data)
    (hpmkid : data.pmkid = some pmkid) :
    pmkid <:+ ie.drop 4 ∧ data.numPmkid ≤ pmkid.length / pmkidLen := by
  simp only [wpaParseWpaIeRsn, bind, Option.bind_eq_some_iff] at h
  obtain ⟨⟨dflt, left₁⟩, hhdr, left₂, hgroup, ⟨pairwise, left₃⟩, hpairwise, h⟩ := h
  by_cases hcmac : pairwise.any (·.contains .aes128Cmac) = true
  · rw [if_pos hcmac] at h
    cases h
  rw [if_neg hcmac] at h
  simp only [pure, Option.bind_eq_some_iff] at h
  obtain ⟨⟨keyMgmt, left₄⟩, hkeyMgmt, ⟨list, numPmkid, left₅⟩, hpmkids, h⟩ := h
  by_cases hmgmt : 4 ≤ left₅.length ∧ ¬ (rsnSelectorToBitfield left₅).any wpaCipherValidMgmtGroup = true
  · rw [if_pos hmgmt] at h
    cases h
  rw [if_neg hmgmt] at h
  cases h
  obtain rfl : list = some pmkid := hpmkid
  obtain ⟨hsuffix, hcount⟩ := rsnIePmkids_suffix hpmkids
  exact ⟨hsuffix.trans ((rsnIeSuites_suffix hkeyMgmt).trans ((rsnIeSuites_suffix hpairwise).trans
    ((rsnIeGroup_suffix hgroup).trans (rsnIeHeader_suffix hhdr)))), hcount⟩

theorem pmkidSpan_inside {e : IeAt} {s : Span} (h : pmkidSpan e = some s) : s.Within e.span := by
  unfold pmkidSpan at h
  cases hparse : wpaParseWpaIeRsn (element eidRsn e.body) with
  | none =>
    rw [hparse] at h
    cases h
  | some data =>
    rw [hparse] at h
    dsimp only at h
    by_cases hone : data.numPmkid = 1
    · rw [if_pos hone] at h
      obtain ⟨pmkid, hpmkid, rfl⟩ := Option.map_eq_some_iff.1 h
      obtain ⟨hsuffix, hcount⟩ := wpaParseWpaIeRsn_pmkid hparse hpmkid
      have hle := hsuffix.length_le
      have hdrop : (element eidRsn e.body).drop 4 = e.body.drop 2 := rfl
      rw [hdrop, length_drop] at hle
      rw [hone, show pmkidLen = 16 from rfl] at hcount
      have hlen : 16 ≤ pmkid.length := by omega
      constructor
      · show e.off ≤ e.off + e.body.length - pmkid.length
        omega
      · show e.off + e.body.length - pmkid.length + 16 ≤ e.off + e.body.length
        omega
    · rw [if_neg hone] at h
      cases h

/-! ## Reading -/

section Reading

variable {ies : Bytes}

theorem prefix_next {id len : UInt8} {rest : Bytes} {off : Nat} (h : (id :: len :: rest) <+: ies.drop off)
    (hlen : len.toNat ≤ rest.length) :
    slice ies (off + 2) len.toNat = rest.take len.toNat ∧
      rest.drop len.toNat <+: ies.drop (off + 2 + len.toNat) := by
  obtain ⟨t, ht⟩ := h
  have hbody : ies.drop (off + 2) = rest ++ t := by
    rw [← drop_drop, ← ht]
    rfl
  constructor
  · unfold slice
    rw [hbody, take_append_of_le_length hlen]
  · rw [← drop_drop, hbody, drop_append_of_le_length hlen]
    exact prefix_append _ _

def IeAt.In (ies : Bytes) (e : IeAt) : Prop := e.span.octets ies = e.body

theorem iesAt_cons {fuel off : Nat} {id len : UInt8} {rest : Bytes} (hlen : ¬ rest.length < len.toNat) :
    iesAt (fuel + 1) off (id :: len :: rest) =
      ⟨id, off + 2, rest.take len.toNat⟩ :: iesAt fuel (off + 2 + len.toNat) (rest.drop len.toNat) := by
  rw [iesAt, if_neg hlen]

theorem iesAt_cut {fuel off : Nat} {id len : UInt8} {rest : Bytes} (hlen : rest.length < len.toNat) :
    iesAt (fuel + 1) off (id :: len :: rest) = [] := by
  rw [iesAt, if_pos hlen]

theorem IeAt.in_of_prefix {id len : UInt8} {rest : Bytes} {off : Nat} (h : (id :: len :: rest) <+: ies.drop off)
    (hlen : len.toNat ≤ rest.length) : IeAt.In ies ⟨id, off + 2, rest.take len.toNat⟩ := by
  have htake : (rest.take len.toNat).length = len.toNat := by
    rw [length_take]
    omega
  show slice ies (off + 2) (rest.take len.toNat).length = _
  rw [htake]
  exact (prefix_next h hlen).1

theorem IeAt.In.slice_eq {e : IeAt} (h : e.In ies) {k n : Nat} (hlen : k + n ≤ e.body.length) :
    slice ies (e.off + k) n = slice e.body k n := by
  have hbody : slice ies e.off e.body.length = e.body := h
  have hle : n ≤ e.body.length - k := by omega
  unfold slice at *
  rw [← hbody, drop_take, take_take, drop_drop, Nat.min_eq_left hle]

theorem ftieSubelem_read {e : IeAt} (h : e.In ies) (parse : FtSpans) :
    ftieSubelem e.id e.body (parse.read ies) = (ftieSubelemAt parse e).map (FtSpans.read ies) := by
  have hbody : e.span.octets ies = e.body := h
  unfold ftieSubelem ftieSubelemAt
  by_cases h₁ : e.id = 1
  · rw [if_pos h₁, if_pos h₁]
    split
    · rfl
    · simp [FtSpans.read, hbody]
  rw [if_neg h₁, if_neg h₁]
  by_cases h₂ : e.id = 2
  · rw [if_pos h₂, if_pos h₂]
    simp [FtSpans.read, hbody]
  rw [if_neg h₂, if_neg h₂]
  by_cases h₃ : e.id = 3
  · rw [if_pos h₃, if_pos h₃]
    split
    · rfl
    · simp [FtSpans.read, hbody]
  rw [if_neg h₃, if_neg h₃]
  by_cases h₄ : e.id = 4
  · rw [if_pos h₄, if_pos h₄]
    simp [FtSpans.read, hbody]
  · rw [if_neg h₄, if_neg h₄]
    rfl

theorem ftieSubelems_read (fuel : Nat) : ∀ {off : Nat} {rest : Bytes} (parse : FtSpans), rest <+: ies.drop off →
    ftieSubelems fuel rest (parse.read ies) =
      ((iesAt fuel off rest).foldlM ftieSubelemAt parse).map (FtSpans.read ies) := by
  induction fuel with
  | zero =>
    intro off rest parse _
    cases rest <;> rfl
  | succ fuel ih =>
    intro off rest parse h
    rcases rest with _ | ⟨id, _ | ⟨len, rest⟩⟩
    · rfl
    · rfl
    · rw [ftieSubelems]
      by_cases hlen : rest.length < len.toNat
      · rw [if_pos hlen, iesAt_cut hlen]
        rfl
      rw [if_neg hlen, iesAt_cons hlen, foldlM_cons]
      have hin := IeAt.in_of_prefix h (Nat.le_of_not_lt hlen)
      have hstep := ftieSubelem_read hin parse
      dsimp only at hstep
      rw [hstep]
      cases hparse : ftieSubelemAt parse ⟨id, off + 2, rest.take len.toNat⟩ with
      | none => rfl
      | some parse' => exact ih parse' (prefix_next h (Nat.le_of_not_lt hlen)).2

theorem wpaFtParseFtie_read {e : IeAt} (h : e.In ies) (useSha384 : Bool) (parse : FtSpans) :
    wpaFtParseFtie e.body useSha384 (parse.read ies) =
      (wpaFtParseFtieAt e useSha384 parse).map (FtSpans.read ies) := by
  have hbody : slice ies e.off e.body.length = e.body := h
  have hprefix : e.body.drop (ftieLen useSha384) <+: ies.drop (e.off + ftieLen useSha384) := by
    rw [← hbody, slice, drop_take, drop_drop]
    exact take_prefix _ _
  have hftie : ({ parse.read ies with ftie := some e.body } : WpaFtIes) =
      ({ parse with ftie := some e.span } : FtSpans).read ies := by
    show _ = FtSpans.read ies _
    simp only [FtSpans.read, Option.map_some]
    rw [show e.span.octets ies = e.body from h]
  unfold wpaFtParseFtie wpaFtParseFtieAt ftieSubelemsOf
  rw [hftie]
  exact ftieSubelems_read _ _ hprefix

theorem pmkidSpan_read {e : IeAt} (h : e.In ies) {data : WpaIeData}
    (hparse : wpaParseWpaIeRsn (element eidRsn e.body) = some data) :
    (pmkidSpan e).map (Span.octets ies) =
      if data.numPmkid = 1 then data.pmkid.map (List.take pmkidLen) else none := by
  unfold pmkidSpan
  rw [hparse]
  dsimp only
  by_cases hone : data.numPmkid = 1
  · rw [if_pos hone, if_pos hone]
    cases hpmkid : data.pmkid with
    | none => rfl
    | some pmkid =>
      obtain ⟨hsuffix, hcount⟩ := wpaParseWpaIeRsn_pmkid hparse hpmkid
      have hdrop : (element eidRsn e.body).drop 4 = e.body.drop 2 := rfl
      have hbody : pmkid <:+ e.body := (hdrop ▸ hsuffix).trans (drop_suffix _ _)
      have hle := hbody.length_le
      rw [hone, show pmkidLen = 16 from rfl] at hcount
      have hlen : 16 ≤ pmkid.length := by omega
      have hoff : e.off + e.body.length - pmkid.length = e.off + (e.body.length - pmkid.length) := by omega
      simp only [Option.map_some, Span.octets]
      rw [hoff, h.slice_eq (by rw [show pmkidLen = 16 from rfl]; omega), slice,
        ← suffix_iff_eq_drop.1 hbody]
  · rw [if_neg hone, if_neg hone]
    rfl

def FtParseAt.read (ies : Bytes) (st : FtParseAt) : FtParse where
  parse := st.parse.read ies
  useSha384 := st.useSha384
  updateUseSha384 := st.updateUseSha384
  protIeCount := st.protIeCount

theorem ftElement_read {e : IeAt} (h : e.In ies) {buf : Bytes} (hbuf : buf = ies.drop (e.off - 2))
    (st : FtParseAt) :
    ftElement e.id e.body buf (st.read ies) = (ftElementAt st e).map (FtParseAt.read ies) := by
  have hbody : e.span.octets ies = e.body := h
  unfold ftElement ftElementAt
  by_cases hrsn : e.id = eidRsn
  · rw [if_pos hrsn, if_pos hrsn]
    cases hparse : wpaParseWpaIeRsn (element eidRsn e.body) with
    | none => rfl
    | some data =>
      have hpmkid : ((pmkidSpan e).or st.parse.rsnPmkid).map (Span.octets ies) =
          ((if data.numPmkid = 1 then data.pmkid.map (List.take pmkidLen) else none).or
            (st.parse.rsnPmkid.map (Span.octets ies))) := by
        rw [← pmkidSpan_read h hparse]
        cases pmkidSpan e <;> rfl
      dsimp only
      by_cases hupdate : st.updateUseSha384 = true
      · rw [if_pos hupdate, if_pos (show (st.read ies).updateUseSha384 = true from hupdate)]
        simp only [FtParseAt.read, FtSpans.read, Option.map_some, hpmkid, hbody]
        by_cases hone : data.numPmkid = 1
        · rw [if_pos hone, if_pos hone]
          cases data.pmkid <;> rfl
        · rw [if_neg hone, if_neg hone]
          rfl
      · rw [if_neg hupdate, if_neg (show ¬ (st.read ies).updateUseSha384 = true from hupdate)]
        simp only [FtParseAt.read, FtSpans.read, Option.map_some, hpmkid, hbody]
        by_cases hone : data.numPmkid = 1
        · rw [if_pos hone, if_pos hone]
          cases data.pmkid <;> rfl
        · rw [if_neg hone, if_neg hone]
          rfl
  rw [if_neg hrsn, if_neg hrsn]
  by_cases hmdie : e.id = eidMobilityDomain
  · rw [if_pos hmdie, if_pos hmdie]
    split
    · rfl
    · simp [FtParseAt.read, FtSpans.read, hbody]
  rw [if_neg hmdie, if_neg hmdie]
  by_cases hfte : e.id = eidFastBssTransition
  · rw [if_pos hfte, if_pos hfte]
    have hparse : wpaFtParseFtie e.body (st.read ies).useSha384 (st.read ies).parse =
        (wpaFtParseFtieAt e st.useSha384 st.parse).map (FtSpans.read ies) :=
      wpaFtParseFtie_read h st.useSha384 st.parse
    by_cases hshort : e.body.length < ftieLen st.useSha384
    · rw [if_pos hshort, if_pos (show e.body.length < ftieLen (st.read ies).useSha384 from hshort)]
      rfl
    · rw [if_neg hshort, if_neg (show ¬ e.body.length < ftieLen (st.read ies).useSha384 from hshort)]
      rw [hparse]
      cases wpaFtParseFtieAt e st.useSha384 st.parse <;> rfl
  rw [if_neg hfte, if_neg hfte]
  by_cases htie : e.id = eidTimeoutInterval
  · rw [if_pos htie, if_pos htie]
    split
    · rfl
    · simp [FtParseAt.read, FtSpans.read, hbody]
  rw [if_neg htie, if_neg htie]
  by_cases hric : e.id = eidRicData
  · rw [if_pos hric, if_pos hric]
    cases hfirst : st.parse.ric with
    | none =>
      rw [if_pos (show (st.read ies).parse.ric = none by simp [FtParseAt.read, FtSpans.read, hfirst]),
        if_pos rfl]
      simp [FtParseAt.read, FtSpans.read, hbuf]
    | some ric =>
      rw [if_neg (show ¬ (st.read ies).parse.ric = none by simp [FtParseAt.read, FtSpans.read, hfirst]),
        if_neg (Option.some_ne_none ric)]
      rfl
  · rw [if_neg hric, if_neg hric]
    rfl

theorem ftElements_read (fuel : Nat) : ∀ {off : Nat} {rest : Bytes} (st : FtParseAt), rest = ies.drop off →
    ftElements fuel rest (st.read ies) =
      ((iesAt fuel off rest).foldlM ftElementAt st).map (FtParseAt.read ies) := by
  induction fuel with
  | zero =>
    intro off rest st _
    cases rest <;> rfl
  | succ fuel ih =>
    intro off rest st h
    rcases rest with _ | ⟨id, _ | ⟨len, rest⟩⟩
    · rfl
    · rfl
    · rw [ftElements]
      by_cases hlen : rest.length < len.toNat
      · rw [if_pos hlen, iesAt_cut hlen]
        rfl
      rw [if_neg hlen, iesAt_cons hlen, foldlM_cons]
      have hprefix : (id :: len :: rest) <+: ies.drop off := h ▸ prefix_refl _
      have hin := IeAt.in_of_prefix hprefix (Nat.le_of_not_lt hlen)
      have hstep := ftElement_read hin h st
      dsimp only at hstep
      rw [hstep]
      cases hparse : ftElementAt st ⟨id, off + 2, rest.take len.toNat⟩ with
      | none => rfl
      | some st' =>
        have hrest : rest.drop len.toNat = ies.drop (off + 2 + len.toNat) := by
          rw [← drop_drop, ← drop_drop, ← h]
          rfl
        exact ih st' hrest

end Reading

theorem wpaFtParseIes_eq_read (ies : Bytes) (useSha384 : Option Bool) :
    wpaFtParseIes ies useSha384 = (wpaFtParseIesAt ies useSha384).map (FtSpans.read ies) := by
  have hstart : ({ useSha384 := useSha384.getD false, updateUseSha384 := useSha384.isNone } : FtParse) =
      FtParseAt.read ies { useSha384 := useSha384.getD false, updateUseSha384 := useSha384.isNone } := rfl
  unfold wpaFtParseIes wpaFtParseIesAt
  rw [hstart, ftElements_read ies.length _ (show ies = ies.drop 0 from rfl)]
  cases hparse : (iesAt ies.length 0 ies).foldlM ftElementAt
      { useSha384 := useSha384.getD false, updateUseSha384 := useSha384.isNone } with
  | none => rfl
  | some st =>
    have hpresent : [(st.parse.read ies).rsn, (st.parse.read ies).mdie,
      (st.parse.read ies).ftie].countP Option.isSome =
        [st.parse.rsn, st.parse.mdie, st.parse.ftie].countP Option.isSome := by
      simp [FtSpans.read, countP_cons]
    have hric : (st.parse.read ies).ric = st.parse.ric.map ies.drop := rfl
    simp only [Option.map_some, Option.bind_some, checkProtIeCount, FtParseAt.read, hpresent, hric,
      Option.isSome_map]
    by_cases hzero : st.protIeCount = 0
    · simp only [hzero, if_true, Option.map_some]
    simp only [hzero, if_false]
    generalize [st.parse.rsn, st.parse.mdie, st.parse.ftie].countP Option.isSome = present
    by_cases hfew : st.protIeCount < present
    · simp only [hfew, if_true, Option.map_none]
    simp only [hfew, if_false]
    cases hfirst : st.parse.ric with
    | none =>
      by_cases hleft : st.protIeCount - present = 0 <;> simp [hleft]
    | some ric =>
      by_cases hleft : st.protIeCount - present = 0
      · simp [hleft]
      · simp only [hleft, false_and, if_false, Option.map_some]
        by_cases hmissing : (ricEnd (st.protIeCount - present) (ies.drop ric)).2 = 0
        · simp [hmissing, FtSpans.read, hfirst]
        · simp [hmissing]

/-! ## Where elements are -/

theorem iesAt_inside (fuel : Nat) : ∀ {off : Nat} {rest : Bytes}, ∀ e ∈ iesAt fuel off rest,
    off + 2 ≤ e.off ∧ e.off + e.body.length ≤ off + rest.length := by
  induction fuel with
  | zero =>
    intro off rest e he
    cases rest <;> cases he
  | succ fuel ih =>
    intro off rest e he
    rcases rest with _ | ⟨id, _ | ⟨len, rest⟩⟩
    · cases he
    · cases he
    · by_cases hlen : rest.length < len.toNat
      · rw [iesAt_cut hlen] at he
        cases he
      · rw [iesAt_cons hlen] at he
        have htake : (rest.take len.toNat).length = len.toNat := by
          rw [length_take]
          omega
        rw [length_cons, length_cons]
        rcases mem_cons.1 he with rfl | he
        · dsimp only
          omega
        · have hnext := ih e he
          rw [length_drop] at hnext
          omega

theorem iesAt_before (fuel : Nat) : ∀ (off : Nat) (rest : Bytes),
    (iesAt fuel off rest).Pairwise fun a b => a.span.Before b.span := by
  induction fuel with
  | zero =>
    intro off rest
    cases rest <;> exact List.Pairwise.nil
  | succ fuel ih =>
    intro off rest
    rcases rest with _ | ⟨id, _ | ⟨len, rest⟩⟩
    · exact List.Pairwise.nil
    · exact List.Pairwise.nil
    · by_cases hlen : rest.length < len.toNat
      · rw [iesAt_cut hlen]
        exact List.Pairwise.nil
      · rw [iesAt_cons hlen]
        refine List.Pairwise.cons (fun b hb => ?_) (ih _ _)
        have hnext := (iesAt_inside fuel b hb).1
        have htake : (rest.take len.toNat).length = len.toNat := by
          rw [length_take]
          omega
        show off + 2 + (rest.take len.toNat).length < b.off
        omega

theorem iesAt_in {ies : Bytes} (fuel : Nat) : ∀ {off : Nat} {rest : Bytes}, rest <+: ies.drop off →
    ∀ e ∈ iesAt fuel off rest, e.In ies := by
  induction fuel with
  | zero =>
    intro off rest _ e he
    cases rest <;> cases he
  | succ fuel ih =>
    intro off rest h e he
    rcases rest with _ | ⟨id, _ | ⟨len, rest⟩⟩
    · cases he
    · cases he
    · by_cases hlen : rest.length < len.toNat
      · rw [iesAt_cut hlen] at he
        cases he
      · rw [iesAt_cons hlen] at he
        rcases mem_cons.1 he with rfl | he
        · exact IeAt.in_of_prefix h (Nat.le_of_not_lt hlen)
        · exact ih (prefix_next h (Nat.le_of_not_lt hlen)).2 e he

/-! ## Elements that hold values -/

/-- `FTIE_SUBELEM_*`. -/
inductive FtieSubelem
  | r1khId
  | gtk
  | r0khId
  | igtk

def FtieSubelem.id : FtieSubelem → UInt8
  | .r1khId => 1
  | .gtk => 2
  | .r0khId => 3
  | .igtk => 4

def FtSpans.subelem (p : FtSpans) : FtieSubelem → Option Span
  | .r1khId => p.r1khId
  | .gtk => p.gtk
  | .r0khId => p.r0khId
  | .igtk => p.igtk

def lastSubelem (k : FtieSubelem) (els : List IeAt) : Option Span :=
  (els.reverse.find? fun e => e.id = k.id).map IeAt.span

def ftieSpan (k : FtieSubelem) (useSha384 : Bool) (e : IeAt) : Option Span :=
  lastSubelem k (ftieSubelemsOf useSha384 e)

def rsnHolders (els : List IeAt) : List Holder :=
  (els.filter fun e => e.id = eidRsn).map fun e => (e.span, pmkidSpan e)

def rsnSha384 (e : IeAt) : Bool :=
  (wpaParseWpaIeRsn (element eidRsn e.body)).any fun data => data.keyMgmt.any wpaKeyMgmtSha384

/-- The FTEs, each with the mode it is read in. Where that is left open the first RSNE decides for what follows
it. -/
def ftesOf : Bool → Bool → List IeAt → List (Bool × IeAt)
  | _, _, [] => []
  | useSha384, update, e :: els =>
    if e.id = eidRsn then ftesOf (if update then rsnSha384 e else useSha384) false els
    else if e.id = eidFastBssTransition then (useSha384, e) :: ftesOf useSha384 update els
    else ftesOf useSha384 update els

def fteHolders (k : FtieSubelem) (useSha384 update : Bool) (els : List IeAt) : List Holder :=
  (ftesOf useSha384 update els).map fun f => (f.2.span, ftieSpan k f.1 f.2)

theorem ftieSpan_inside {k : FtieSubelem} {useSha384 : Bool} {e : IeAt} {s : Span}
    (h : ftieSpan k useSha384 e = some s) : s.Within e.span := by
  obtain ⟨sub, hsub, rfl⟩ := Option.map_eq_some_iff.1 h
  have hmem : sub ∈ ftieSubelemsOf useSha384 e := mem_reverse.1 (mem_of_find?_eq_some hsub)
  obtain ⟨hstart, hend⟩ := iesAt_inside _ sub hmem
  rw [length_drop] at hend
  constructor
  · show e.off ≤ sub.off
    omega
  · show sub.off + sub.body.length ≤ e.off + e.body.length
    omega

theorem ftesOf_sublist (els : List IeAt) : ∀ useSha384 update,
    List.Sublist ((ftesOf useSha384 update els).map Prod.snd) els := by
  induction els with
  | nil =>
    intro useSha384 update
    exact List.Sublist.refl _
  | cons e els ih =>
    intro useSha384 update
    rw [ftesOf]
    split
    · exact (ih _ _).cons _
    · split
      · exact (ih _ _).cons_cons _
      · exact (ih _ _).cons _

theorem rsnHolders_ordered {els : List IeAt} (h : els.Pairwise fun a b => a.span.Before b.span) :
    Ordered (rsnHolders els) where
  before := pairwise_map.2 (h.sublist filter_sublist)
  inside := by
    intro holder hmem s hs
    obtain ⟨e, -, rfl⟩ := mem_map.1 hmem
    exact pmkidSpan_inside hs

theorem fteHolders_ordered {els : List IeAt} (h : els.Pairwise fun a b => a.span.Before b.span)
    (k : FtieSubelem) (useSha384 update : Bool) : Ordered (fteHolders k useSha384 update els) where
  before := by
    have hsub := h.sublist (ftesOf_sublist els useSha384 update)
    rw [pairwise_map] at hsub
    exact pairwise_map.2 hsub
  inside := by
    intro holder hmem s hs
    obtain ⟨f, -, rfl⟩ := mem_map.1 hmem
    exact ftieSpan_inside hs

/-! ## Runs of the parser -/

theorem FtSpans.subelem_step {p p' : FtSpans} {e : IeAt} (h : ftieSubelemAt p e = some p') (k : FtieSubelem) :
    p'.subelem k = (if e.id = k.id then some e.span else none).or (p.subelem k) ∧ p'.rsn = p.rsn ∧
      p'.rsnPmkid = p.rsnPmkid ∧ p'.ftie = p.ftie := by
  unfold ftieSubelemAt at h
  split at h
  · rename_i hid
    split at h
    · cases h
    · cases h
      cases k <;> simp [FtieSubelem.id, FtSpans.subelem, hid]
  split at h
  · rename_i hid
    cases h
    cases k <;> simp [FtieSubelem.id, FtSpans.subelem, hid]
  split at h
  · rename_i hid
    split at h
    · cases h
    · cases h
      cases k <;> simp [FtieSubelem.id, FtSpans.subelem, hid]
  split at h
  · rename_i hid
    cases h
    cases k <;> simp [FtieSubelem.id, FtSpans.subelem, hid]
  · rename_i h₁ h₂ h₃ h₄
    cases h
    cases k <;> simp [FtieSubelem.id, FtSpans.subelem, h₁, h₂, h₃, h₄]

theorem FtSpans.subelem_run {els : List IeAt} : ∀ {p p' : FtSpans}, els.foldlM ftieSubelemAt p = some p' →
    (∀ k, p'.subelem k = (lastSubelem k els).or (p.subelem k)) ∧ p'.rsn = p.rsn ∧ p'.rsnPmkid = p.rsnPmkid ∧
      p'.ftie = p.ftie := by
  induction els with
  | nil =>
    intro p p' h
    cases h
    exact ⟨fun _ => rfl, rfl, rfl, rfl⟩
  | cons e els ih =>
    intro p p' h
    rw [foldlM_cons] at h
    obtain ⟨p₁, hstep, hrun⟩ := Option.bind_eq_some_iff.1 h
    obtain ⟨hsub, hrsn, hpmkid, hftie⟩ := ih hrun
    obtain ⟨-, hrsn₁, hpmkid₁, hftie₁⟩ := FtSpans.subelem_step hstep .gtk
    refine ⟨fun k => ?_, hrsn.trans hrsn₁, hpmkid.trans hpmkid₁, hftie.trans hftie₁⟩
    have hlast : lastSubelem k (e :: els) = (lastSubelem k els).or
      (if e.id = k.id then some e.span else none) := by
      unfold lastSubelem
      rw [reverse_cons, find?_append]
      cases els.reverse.find? fun e => e.id = k.id with
      | some sub => rfl
      | none => by_cases hid : e.id = k.id <;> simp [hid]
    rw [hsub, (FtSpans.subelem_step hstep k).1, hlast, Option.or_assoc]

theorem ftElementAt_rsn {st st' : FtParseAt} {e : IeAt} (hid : e.id = eidRsn)
    (h : ftElementAt st e = some st') :
    st'.parse.rsn = some e.span ∧ st'.parse.rsnPmkid = (pmkidSpan e).or st.parse.rsnPmkid ∧
      st'.parse.ftie = st.parse.ftie ∧ (∀ k, st'.parse.subelem k = st.parse.subelem k) ∧
      st'.useSha384 = (if st.updateUseSha384 then rsnSha384 e else st.useSha384) ∧ st'.updateUseSha384 = false ∧
      st'.protIeCount = st.protIeCount := by
  unfold ftElementAt at h
  rw [if_pos hid] at h
  cases hparse : wpaParseWpaIeRsn (element eidRsn e.body) with
  | none =>
    rw [hparse] at h
    cases h
  | some data =>
    rw [hparse] at h
    dsimp only at h
    have hsha : rsnSha384 e = data.keyMgmt.any wpaKeyMgmtSha384 := by
      rw [rsnSha384, hparse]
      rfl
    by_cases hupdate : st.updateUseSha384 = true
    · rw [if_pos hupdate] at h
      cases h
      refine ⟨rfl, rfl, rfl, fun k => by cases k <;> rfl, ?_, rfl, rfl⟩
      rw [if_pos hupdate, hsha]
    · rw [if_neg hupdate] at h
      cases h
      refine ⟨rfl, rfl, rfl, fun k => by cases k <;> rfl, ?_, by simpa using hupdate, rfl⟩
      rw [if_neg hupdate]

theorem ftElementAt_fte {st st' : FtParseAt} {e : IeAt} (hid : e.id = eidFastBssTransition)
    (h : ftElementAt st e = some st') :
    st'.parse.ftie = some e.span ∧
      (∀ k, st'.parse.subelem k = (ftieSpan k st.useSha384 e).or (st.parse.subelem k)) ∧
      st'.parse.rsn = st.parse.rsn ∧ st'.parse.rsnPmkid = st.parse.rsnPmkid ∧ st'.useSha384 = st.useSha384 ∧
      st'.updateUseSha384 = st.updateUseSha384 ∧ st'.protIeCount = (e.body.getD 1 0).toNat ∧
      2 ≤ e.body.length := by
  unfold ftElementAt at h
  rw [if_neg (by rw [hid]; decide), if_neg (by rw [hid]; decide), if_pos hid] at h
  by_cases hshort : e.body.length < ftieLen st.useSha384
  · rw [if_pos hshort] at h
    cases h
  rw [if_neg hshort] at h
  have htwo : 2 ≤ ftieLen st.useSha384 := by cases st.useSha384 <;> decide
  cases hparse : wpaFtParseFtieAt e st.useSha384 st.parse with
  | none =>
    rw [hparse] at h
    cases h
  | some parse =>
    rw [hparse] at h
    cases h
    obtain ⟨hsub, hrsn, hpmkid, hftie⟩ := FtSpans.subelem_run hparse
    refine ⟨hftie, fun k => ?_, hrsn, hpmkid, rfl, rfl, rfl, by omega⟩
    rw [hsub k]
    cases k <;> rfl

theorem ftElementAt_other {st st' : FtParseAt} {e : IeAt} (hrsn : e.id ≠ eidRsn)
    (hfte : e.id ≠ eidFastBssTransition) (h : ftElementAt st e = some st') :
    st'.parse.rsn = st.parse.rsn ∧ st'.parse.rsnPmkid = st.parse.rsnPmkid ∧ st'.parse.ftie = st.parse.ftie ∧
      (∀ k, st'.parse.subelem k = st.parse.subelem k) ∧ st'.useSha384 = st.useSha384 ∧
      st'.updateUseSha384 = st.updateUseSha384 ∧ st'.protIeCount = st.protIeCount := by
  unfold ftElementAt at h
  rw [if_neg hrsn] at h
  by_cases hmdie : e.id = eidMobilityDomain
  · rw [if_pos hmdie] at h
    split at h
    · cases h
    · cases h
      exact ⟨rfl, rfl, rfl, fun k => by cases k <;> rfl, rfl, rfl, rfl⟩
  rw [if_neg hmdie, if_neg hfte] at h
  by_cases htie : e.id = eidTimeoutInterval
  · rw [if_pos htie] at h
    split at h <;> cases h <;> exact ⟨rfl, rfl, rfl, fun k => by cases k <;> rfl, rfl, rfl, rfl⟩
  rw [if_neg htie] at h
  by_cases hric : e.id = eidRicData
  · rw [if_pos hric] at h
    split at h <;> cases h <;> exact ⟨rfl, rfl, rfl, fun k => by cases k <;> rfl, rfl, rfl, rfl⟩
  · rw [if_neg hric] at h
    cases h
    exact ⟨rfl, rfl, rfl, fun _ => rfl, rfl, rfl, rfl⟩

/-- The second octet of the MIC control field of the FTE that is pointed to. -/
def FtSpans.protIeCount (ies : Bytes) (p : FtSpans) : Nat :=
    (p.ftie.map fun s => (ies.getD (s.off + 1) 0).toNat).getD 0

theorem IeAt.In.getD_one {ies : Bytes} {e : IeAt} (h : e.In ies) (hlen : 2 ≤ e.body.length) :
    ies.getD (e.off + 1) 0 = e.body.getD 1 0 := by
  have hslice := h.slice_eq (show 1 + 1 ≤ e.body.length by omega)
  have hhead := congrArg (·.headD 0) hslice
  simpa [slice, headD_eq_head?_getD, head?_take, head?_drop,
  getD_eq_getElem?_getD] using hhead

theorem ftElementAt_run {ies : Bytes} {els : List IeAt} : ∀ {st st' : FtParseAt},
    els.foldlM ftElementAt st = some st' → (∀ e ∈ els, e.In ies) → st.protIeCount = st.parse.protIeCount ies →
      st'.parse.rsn = latestContainer st.parse.rsn (rsnHolders els) ∧
      st'.parse.rsnPmkid = latestValue st.parse.rsnPmkid (rsnHolders els) ∧
      (∀ k, st'.parse.ftie =
        latestContainer st.parse.ftie (fteHolders k st.useSha384 st.updateUseSha384 els)) ∧
      (∀ k, st'.parse.subelem k =
        latestValue (st.parse.subelem k) (fteHolders k st.useSha384 st.updateUseSha384 els)) ∧
      st'.protIeCount = st'.parse.protIeCount ies := by
  induction els with
  | nil =>
    intro st st' h _ hcount
    cases h
    exact ⟨rfl, rfl, fun _ => rfl, fun _ => rfl, hcount⟩
  | cons e els ih =>
    intro st st' h hin hcount
    rw [foldlM_cons] at h
    obtain ⟨st₁, hstep, hrun⟩ := Option.bind_eq_some_iff.1 h
    have hin₁ : ∀ e ∈ els, e.In ies := fun x hx => hin x (mem_cons_of_mem _ hx)
    by_cases hrsn : e.id = eidRsn
    · obtain ⟨hrsn₁, hpmkid₁, hftie₁, hsub₁, hsha₁, hupdate₁, hcount₁⟩ := ftElementAt_rsn hrsn hstep
      have hstart : st₁.protIeCount = st₁.parse.protIeCount ies := by
        rw [hcount₁, hcount, FtSpans.protIeCount, FtSpans.protIeCount, hftie₁]
      obtain ⟨h₁, h₂, h₃, h₄, h₅⟩ := ih hrun hin₁ hstart
      have hholders : rsnHolders (e :: els) = (e.span, pmkidSpan e) :: rsnHolders els := by
        simp [rsnHolders, hrsn]
      have hftes : ∀ k, fteHolders k st.useSha384 st.updateUseSha384 (e :: els) =
          fteHolders k st₁.useSha384 st₁.updateUseSha384 els := by
        intro k
        rw [fteHolders, ftesOf, if_pos hrsn, hsha₁, hupdate₁, fteHolders]
      refine ⟨?_, ?_, fun k => ?_, fun k => ?_, h₅⟩
      · rw [h₁, hrsn₁, hholders]
        rfl
      · rw [h₂, hpmkid₁, hholders]
        rfl
      · rw [h₃ k, hftie₁, hftes]
      · rw [h₄ k, hsub₁, hftes]
    have hholders : rsnHolders (e :: els) = rsnHolders els := by simp [rsnHolders, hrsn]
    by_cases hfte : e.id = eidFastBssTransition
    · obtain ⟨hftie₁, hsub₁, hrsn₁, hpmkid₁, hsha₁, hupdate₁, hcount₁, hlen⟩ := ftElementAt_fte hfte hstep
      have hstart : st₁.protIeCount = st₁.parse.protIeCount ies := by
        rw [hcount₁, FtSpans.protIeCount, hftie₁, Option.map_some, Option.getD_some,
          ← (hin e (mem_cons_self ..)).getD_one hlen]
        rfl
      obtain ⟨h₁, h₂, h₃, h₄, h₅⟩ := ih hrun hin₁ hstart
      have hftes : ∀ k, fteHolders k st.useSha384 st.updateUseSha384 (e :: els) =
          (e.span, ftieSpan k st.useSha384 e) :: fteHolders k st₁.useSha384 st₁.updateUseSha384 els := by
        intro k
        rw [fteHolders, ftesOf, if_neg hrsn, if_pos hfte, hsha₁, hupdate₁, map_cons, fteHolders]
      refine ⟨?_, ?_, fun k => ?_, fun k => ?_, h₅⟩
      · rw [h₁, hrsn₁, hholders]
      · rw [h₂, hpmkid₁, hholders]
      · rw [h₃ k, hftie₁, hftes]
        rfl
      · rw [h₄ k, hsub₁, hftes]
        rfl
    · obtain ⟨hrsn₁, hpmkid₁, hftie₁, hsub₁, hsha₁, hupdate₁, hcount₁⟩ := ftElementAt_other hrsn hfte hstep
      have hstart : st₁.protIeCount = st₁.parse.protIeCount ies := by
        rw [hcount₁, hcount, FtSpans.protIeCount, FtSpans.protIeCount, hftie₁]
      obtain ⟨h₁, h₂, h₃, h₄, h₅⟩ := ih hrun hin₁ hstart
      have hftes : ∀ k, fteHolders k st.useSha384 st.updateUseSha384 (e :: els) =
          fteHolders k st₁.useSha384 st₁.updateUseSha384 els := by
        intro k
        rw [fteHolders, ftesOf, if_neg hrsn, if_neg hfte, hsha₁, hupdate₁, fteHolders]
      refine ⟨?_, ?_, fun k => ?_, fun k => ?_, h₅⟩
      · rw [h₁, hrsn₁, hholders]
      · rw [h₂, hpmkid₁, hholders]
      · rw [h₃ k, hftie₁, hftes]
      · rw [h₄ k, hsub₁, hftes]

/-! ## The protected element count -/

theorem ricEnd_count (count : Nat) : ∀ {buf : Bytes} {n : Nat}, ricEnd count buf = (n, 0) →
    2 * count ≤ n ∧ ∀ fuel, count ≤ fuel → ieee80211IeCount fuel (buf.take n) = count := by
  induction count with
  | zero =>
    intro buf n h
    have hn : n = 0 := by
      unfold ricEnd at h
      exact (Prod.mk.inj h).1.symm
    subst hn
    refine ⟨Nat.le_refl _, fun fuel _ => ?_⟩
    rw [take_zero]
    cases fuel <;> rfl
  | succ count ih =>
    intro buf n h
    rcases buf with _ | ⟨id, _ | ⟨len, rest⟩⟩
    · cases h
    · cases h
    · rw [ricEnd] at h
      by_cases hlen : rest.length < len.toNat
      · rw [if_pos hlen] at h
        cases h
      rw [if_neg hlen] at h
      rcases hend : ricEnd count (rest.drop len.toNat) with ⟨m, missing⟩
      rw [hend] at h
      obtain ⟨hn, rfl⟩ := Prod.mk.inj h
      obtain ⟨hle, hcount⟩ := ih hend
      refine ⟨by omega, fun fuel hfuel => ?_⟩
      cases fuel with
      | zero => omega
      | succ fuel =>
        have htake : (id :: len :: rest).take n = id :: len :: rest.take (len.toNat + m) := by
          rw [← hn, show 2 + len.toNat + m = (len.toNat + m) + 1 + 1 by omega]
          rfl
        have hrest : (rest.take (len.toNat + m)).drop len.toNat = (rest.drop len.toNat).take m := by
          rw [drop_take, Nat.add_sub_cancel_left]
        have hfits : ¬ (rest.take (len.toNat + m)).length < len.toNat := by
          rw [length_take]
          omega
        rw [htake, ieee80211IeCount, if_neg hfits, hrest, hcount fuel (by omega)]

def FtSpans.ricCount (ies : Bytes) (p : FtSpans) : Nat :=
  (p.ric.map fun ric => ieee80211IeCount p.ricLen (slice ies ric p.ricLen)).getD 0

def FtSpans.present (p : FtSpans) : Nat := [p.rsn, p.mdie, p.ftie].countP Option.isSome

theorem checkProtIeCount_ok {ies : Bytes} {st : FtParseAt} {p : FtSpans}
    (h : checkProtIeCount ies st = some p) : (∃ ricLen, p = { st.parse with ricLen }) ∧
      (st.protIeCount ≠ 0 → st.protIeCount = p.present + p.ricCount ies) := by
  unfold checkProtIeCount at h
  dsimp only at h
  by_cases hzero : st.protIeCount = 0
  · rw [if_pos hzero] at h
    cases h
    exact ⟨⟨_, rfl⟩, fun hne => absurd hzero hne⟩
  rw [if_neg hzero] at h
  by_cases hfew : st.protIeCount < [st.parse.rsn, st.parse.mdie, st.parse.ftie].countP Option.isSome
  · rw [if_pos hfew] at h
    cases h
  rw [if_neg hfew] at h
  split at h
  · cases h
  cases hric : st.parse.ric with
  | none =>
    simp only [hric] at h
    split at h
    · cases h
    · rename_i hall
      have hall' := Decidable.not_not.1 hall
      have hp : st.parse = p := Option.some.inj h
      refine ⟨⟨st.parse.ricLen, hp.symm⟩, fun _ => ?_⟩
      have hcount : st.parse.ricCount ies = 0 := by
        rw [FtSpans.ricCount, hric]
        rfl
      rw [← hp, hcount, FtSpans.present]
      omega
  | some ric =>
    simp only [hric] at h
    split at h
    · cases h
    · rename_i hall
      rcases hend : ricEnd (st.protIeCount - [st.parse.rsn, st.parse.mdie, st.parse.ftie].countP Option.isSome)
        (ies.drop ric) with ⟨ricLen, missing⟩
      rw [hend] at h hall
      obtain rfl : missing = 0 := Decidable.not_not.1 hall
      have hp : ({ st.parse with ricLen } : FtSpans) = p := by
        rw [← Option.some.inj h, ← hric]
      obtain ⟨hle, hcount⟩ := ricEnd_count _ hend
      refine ⟨⟨ricLen, hp.symm⟩, fun _ => ?_⟩
      have hcount : ({ st.parse with ricLen } : FtSpans).ricCount ies =
          st.protIeCount - [st.parse.rsn, st.parse.mdie, st.parse.ftie].countP Option.isSome := by
        simp only [FtSpans.ricCount, hric, Option.map_some, Option.getD_some, slice]
        exact hcount ricLen (by omega)
      rw [← hp, hcount]
      show _ = [st.parse.rsn, st.parse.mdie, st.parse.ftie].countP Option.isSome + _
      omega

/-! ## What the MIC covers -/

/-- What is handed out lies in the RSNE and the FTE that are handed out, and the protected count is that of
the elements under the MIC. -/
structure FtProtected (ies : Bytes) (p : FtSpans) : Prop where
  rsnPmkid : ∀ s, p.rsnPmkid = some s → ∃ rsn, p.rsn = some rsn ∧ s.Within rsn
  subelem : ∀ k s, p.subelem k = some s → ∃ ftie, p.ftie = some ftie ∧ s.Within ftie
  count : p.protIeCount ies = p.present + p.ricCount ies

/-- The last RSNE has a single PMKID, and the last FTE a subelement of each kind, where one before them has. -/
structure LastComplete (useSha384 : Option Bool) (els : List IeAt) : Prop where
  rsn : LastHolds (rsnHolders els)
  ftie : ∀ k, LastHolds (fteHolders k (useSha384.getD false) useSha384.isNone els)

/-- With a protected element count that is not zero, everything that is handed out is under the MIC if and
only if the last RSNE and the last FTE are complete. -/
theorem ft_ies_protected_iff (ies : Bytes) (useSha384 : Option Bool) (p : FtSpans)
    (h : wpaFtParseIesAt ies useSha384 = some p) (hcount : p.protIeCount ies ≠ 0) :
    FtProtected ies p ↔ LastComplete useSha384 (iesAt ies.length 0 ies) := by
  obtain ⟨st, hrun, hcheck⟩ := Option.bind_eq_some_iff.1 h
  have hin : ∀ e ∈ iesAt ies.length 0 ies, e.In ies := iesAt_in _ (prefix_refl _)
  obtain ⟨hrsn, hpmkid, hftie, hsub, hprot⟩ := ftElementAt_run hrun hin rfl
  obtain ⟨⟨ricLen, rfl⟩, helements⟩ := checkProtIeCount_ok hcheck
  have hbefore := iesAt_before ies.length 0 ies
  have hpresent : st.protIeCount ≠ 0 := by
    rw [hprot]
    exact hcount
  have hrsnIff := latest_within_iff (rsnHolders_ordered hbefore)
  have hftieIff := fun k => latest_within_iff
    (fteHolders_ordered hbefore k (useSha384.getD false) useSha384.isNone)
  have hsub' : ∀ k, ({ st.parse with ricLen } : FtSpans).subelem k =
      latestValue none (fteHolders k (useSha384.getD false) useSha384.isNone (iesAt ies.length 0 ies)) := by
    intro k
    have hk := hsub k
    cases k <;> exact hk
  constructor
  · intro hprotected
    constructor
    · refine hrsnIff.1 fun s hs => ?_
      obtain ⟨rsn, hr, hwithin⟩ := hprotected.rsnPmkid s (hpmkid.trans hs)
      exact ⟨rsn, hrsn.symm.trans hr, hwithin⟩
    · intro k
      refine (hftieIff k).1 fun s hs => ?_
      obtain ⟨ftie, hf, hwithin⟩ := hprotected.subelem k s ((hsub' k).trans hs)
      exact ⟨ftie, (hftie k).symm.trans hf, hwithin⟩
  · intro hcomplete
    refine ⟨fun s hs => ?_, fun k s hs => ?_, hprot.symm.trans (helements hpresent)⟩
    · obtain ⟨rsn, hr, hwithin⟩ := hrsnIff.2 hcomplete.rsn s (hpmkid.symm.trans hs)
      exact ⟨rsn, hrsn.trans hr, hwithin⟩
    · obtain ⟨ftie, hf, hwithin⟩ := (hftieIff k).2 (hcomplete.ftie k) s ((hsub' k).symm.trans hs)
      exact ⟨ftie, (hftie k).trans hf, hwithin⟩

def smallFte (count : UInt8) (subelems : Bytes) : Bytes :=
  element eidFastBssTransition ([0, count] ++ zeros 80 ++ subelems)

/-- One FTE with an R1KH-ID, all of it under the MIC. -/
theorem ft_ies_protected_small :
    ∃ p, wpaFtParseIesAt (smallFte 1 (element 1 (zeros 6))) (some false) = some p ∧
      FtProtected (smallFte 1 (element 1 (zeros 6))) p := by
  have hsome : (wpaFtParseIesAt (smallFte 1 (element 1 (zeros 6))) (some false)).isSome = true :=
    by decide +kernel
  have hcount : (wpaFtParseIesAt (smallFte 1 (element 1 (zeros 6))) (some false)).all
      (fun p => p.protIeCount (smallFte 1 (element 1 (zeros 6))) != 0) = true := by decide +kernel
  obtain ⟨p, hparse⟩ := Option.isSome_iff_exists.1 hsome
  rw [hparse] at hcount
  refine ⟨p, hparse, (ft_ies_protected_iff _ (some false) p hparse (by simpa using hcount)).2 ⟨?_, fun k => ?_⟩⟩
  · exact LastHolds.of_length_le_one (by decide +kernel)
  · refine LastHolds.of_length_le_one ?_
    unfold fteHolders
    rw [length_map]
    decide +kernel

/-- An R0KH-ID in a first FTE stays when the second one, which has the count, has none. -/
theorem ft_ies_not_protected : ¬ ∀ ies useSha384 p, wpaFtParseIesAt ies useSha384 = some p →
    p.protIeCount ies ≠ 0 → FtProtected ies p := by
  intro h
  have hrun : (wpaFtParseIesAt (smallFte 1 (element 3 [0x61]) ++ smallFte 1 []) (some false)).map
      (fun p => (p.r0khId, p.ftie, p.protIeCount (smallFte 1 (element 3 [0x61]) ++ smallFte 1 []))) =
        some (some ⟨86, 1⟩, some ⟨89, 82⟩, 1) := by decide +kernel
  obtain ⟨p, hparse, hp⟩ := Option.map_eq_some_iff.1 hrun
  obtain ⟨hr0kh, hrest⟩ := Prod.mk.inj hp
  obtain ⟨hftie, hcount⟩ := Prod.mk.inj hrest
  obtain ⟨ftie, hf, hwithin⟩ := (h _ _ p hparse (by omega)).subelem .r0khId ⟨86, 1⟩ hr0kh
  obtain rfl : ftie = ⟨89, 82⟩ := Option.some.inj (hf.symm.trans hftie)
  exact absurd hwithin.1 (by decide)

end Hostap
