import Hostap.Ft.Reassoc

/-!
# The PMK-R1 of an FT Authentication request

`wpa_ft_process_auth_req()` has one buffer of `PMK_LEN_MAX` octets for the PMK-R1 and three ways to fill
it: from a PSK, from the PMK-R1 cache, and from a PMK-R0 of the local cache. Here the buffer is kept as it
is when the key is passed on, with the octets nothing has written marked as such, and with the SA its
contents are from. `octets_selectedCall` says that `selectPmkR1` reads this buffer.

Only the PMK-R1 cache says how long its key is. The other two ways are used with the length of the hash of
the request's AKM. For a PSK the PTK is then only derived if that is the length of the key; for a PMK-R0
nothing sees the difference.
-/

namespace Hostap

open Octets List

/-- A call of `wpa_pmk_r1_to_ptk()`: the buffer, with `none` where nothing was written, how much of it is
used, and the name. `sa` is the SA the key was copied from. -/
structure PmkR1Call where
  sa : PmkR1Sa
  buf : List (Option UInt8)
  len : Nat
  name : Bytes

def writtenBuf (key : Bytes) : List (Option UInt8) :=
  key.map some ++ List.replicate (pmkLenMax - key.length) none

/-- What is read of the buffer, if `stack` is what it held before. -/
def PmkR1Call.octets (stack : Bytes) (call : PmkR1Call) : Bytes :=
  (call.buf.mapIdx fun i o => o.getD (stack.getD i 0)).take call.len

def selectedCall (lib : FtLib) (conf : FtConf) (env : FtAuthEnv) (keys : FtKeys) (sm : FtSm)
    (useSha384 : Bool) (r0khId pmkR0Name pmkR1Name : Bytes) : Option PmkR1Call :=
  if conf.ftPskGenerateLocal ∧ sm.wpaKeyMgmt = some .ftPsk then
    (wpaFtPskPmkR1 lib conf env keys sm pmkR1Name).map fun r1 =>
      ⟨r1, writtenBuf r1.pmkR1, ftKeyLen useSha384, pmkR1Name⟩
  else
    match wpaFtFetchPmkR1 keys sm.addr pmkR1Name env.now with
    | some r1 => some ⟨r1, writtenBuf r1.pmkR1, r1.pmkR1.length, pmkR1Name⟩
    | none =>
      -- the length stays that of the request
      (wpaFtLocalDerivePmkR1 lib conf env keys sm r0khId pmkR0Name).map fun r1 =>
        ⟨r1, writtenBuf r1.pmkR1, ftKeyLen useSha384, pmkR1Name⟩

/-- The call `wpa_ft_process_auth_req()` makes, if it gets as far: from where the SNonce has been taken. -/
def authReqTakenCall (lib : FtLib) (conf : FtConf) (env : FtAuthEnv) (parse : WpaFtIes) (useSha384 : Bool)
    (keys : FtKeys) (sm : FtSm) : Option PmkR1Call :=
  match parse.r0khId with
  | none => none
  | some r0khId =>
    match parse.rsnPmkid with
    | none => none
    | some pmkR0Name =>
      match wpaFtSetKeyMgmt conf parse { sm with r0khId } with
      | (_, false) => none
      | (sm, true) =>
        match wpaDerivePmkR1Name lib pmkR0Name conf.r1KeyHolder sm.addr useSha384 with
        | none => none
        | some pmkR1Name => selectedCall lib conf env keys sm useSha384 r0khId pmkR0Name pmkR1Name

def authReqCall (lib : FtLib) (conf : FtConf) (env : FtAuthEnv) (ies : Bytes) (keys : FtKeys)
    (sm : FtSm) : Option PmkR1Call :=
  match wpaFtParseIes ies none with
  | none => none
  | some parse =>
    let useSha384 := parse.keyMgmt.any wpaKeyMgmtSha384
    if ¬ mdieOk conf parse then
      none
    else
      match parse.longFtie useSha384 with
      | none => none
      | some ftie =>
        authReqTakenCall lib conf env parse useSha384 keys
          { sm with pmkR1NameValid := false, sNonce := ftieSNonce useSha384 ftie, unfinished := true }

/-- The key and its length are those of one SA for the station, all of it was written from that SA, and the
name of the SA is the one the state machine has. -/
structure PmkR1Call.OfOneSa (lib : FtLib) (conf : FtConf) (keys : FtKeys) (sm' : FtSm) (call : PmkR1Call) :
    Prop where
  sa : NamedPmkR1 lib conf keys sm'.addr sm'.r0khId call.sa.pmkR1 call.sa.pmkR1Name
  len : call.len = call.sa.pmkR1.length
  written : call.buf.take call.len = call.sa.pmkR1.map some
  name : call.sa.pmkR1Name = sm'.pmkR1Name

/-- If the PMK-R1 is derived from a PMK-R0 of the local cache, then the PMK-R0 is as long as the hash of the
request's AKM wants it. -/
def LocalR0Matches (lib : FtLib) (conf : FtConf) (env : FtAuthEnv) (ies : Bytes) (keys : FtKeys)
    (sm : FtSm) : Prop :=
  ∀ parse ∈ wpaFtParseIes ies none, ∀ r0khId ∈ parse.r0khId, ∀ pmkR0Name ∈ parse.rsnPmkid,
    ∀ pmkR1Name ∈ wpaDerivePmkR1Name lib pmkR0Name conf.r1KeyHolder sm.addr
      (parse.keyMgmt.any wpaKeyMgmtSha384),
    ¬ (conf.ftPskGenerateLocal ∧ (wpaFtSetKeyMgmt conf parse sm).1.wpaKeyMgmt = some .ftPsk) →
    wpaFtFetchPmkR1 keys sm.addr pmkR1Name env.now = none → r0khId = conf.r0KeyHolder →
    ∀ r0 ∈ wpaFtFetchPmkR0 keys sm.addr pmkR0Name,
      r0.pmkR0.length = ftKeyLen (parse.keyMgmt.any wpaKeyMgmtSha384)

/-! ## The buffer -/

theorem octets_writtenBuf {stack key : Bytes} (hstack : stack.length = pmkLenMax) (sa : PmkR1Sa) (len : Nat)
    (name : Bytes) : PmkR1Call.octets stack ⟨sa, writtenBuf key, len, name⟩ = fillPmkR1 stack key len := by
  unfold PmkR1Call.octets fillPmkR1 overwrite writtenBuf
  rw [take_zero, nil_append, Nat.zero_add]
  congr 1
  apply ext_getElem?
  intro i
  rw [getElem?_mapIdx]
  by_cases hi : i < key.length
  · rw [getElem?_append_left (by rw [length_map]; exact hi), getElem?_append_left hi,
      getElem?_map, getElem?_eq_getElem hi]
    rfl
  · rw [getElem?_append_right (by rw [length_map]; omega), length_map,
      getElem?_append_right (by omega), getElem?_drop,
      show key.length + (i - key.length) = i by omega]
    by_cases hbuf : i < pmkLenMax
    · -- behind the key
      rw [getElem?_replicate, if_pos (by omega), getElem?_eq_getElem (by omega)]
      show some (stack.getD i 0) = _
      rw [getD_eq_getElem?_getD, getElem?_eq_getElem (by omega)]
      rfl
    · rw [getElem?_replicate, if_neg (by omega), getElem?_eq_none (by omega)]
      rfl

theorem take_writtenBuf (key : Bytes) : (writtenBuf key).take key.length = key.map some := by
  unfold writtenBuf
  rw [take_append_of_le_length (by rw [length_map]), ← length_map some, take_length]

theorem fillPmkR1_self (stack key : Bytes) : fillPmkR1 stack key key.length = key := by
  unfold fillPmkR1 overwrite
  rw [take_zero, nil_append, take_left]

/-! ## What a request that succeeds has done -/

section Steps

variable {lib : FtLib} {conf : FtConf} {env : FtAuthEnv} {keys keys' : FtKeys} {sm sm' : FtSm}
  {useSha384 : Bool} {r0khId pmkR0Name pmkR1Name ies resp : Bytes} {r1 : PmkR1Sa} {call : PmkR1Call}

theorem selectedCall_psk (hpsk : conf.ftPskGenerateLocal = true ∧ sm.wpaKeyMgmt = some .ftPsk)
    (hsa : wpaFtPskPmkR1 lib conf env keys sm pmkR1Name = some r1) :
    selectedCall lib conf env keys sm useSha384 r0khId pmkR0Name pmkR1Name =
      some ⟨r1, writtenBuf r1.pmkR1, ftKeyLen useSha384, pmkR1Name⟩ := by
  unfold selectedCall
  rw [if_pos hpsk, hsa]
  rfl

theorem selectedCall_cached (hpsk : ¬ (conf.ftPskGenerateLocal = true ∧ sm.wpaKeyMgmt = some .ftPsk))
    (hsa : wpaFtFetchPmkR1 keys sm.addr pmkR1Name env.now = some r1) :
    selectedCall lib conf env keys sm useSha384 r0khId pmkR0Name pmkR1Name =
      some ⟨r1, writtenBuf r1.pmkR1, r1.pmkR1.length, pmkR1Name⟩ := by
  unfold selectedCall
  rw [if_neg hpsk, hsa]

theorem selectedCall_local (hpsk : ¬ (conf.ftPskGenerateLocal = true ∧ sm.wpaKeyMgmt = some .ftPsk))
    (hnone : wpaFtFetchPmkR1 keys sm.addr pmkR1Name env.now = none)
    (hsa : wpaFtLocalDerivePmkR1 lib conf env keys sm r0khId pmkR0Name = some r1) :
    selectedCall lib conf env keys sm useSha384 r0khId pmkR0Name pmkR1Name =
      some ⟨r1, writtenBuf r1.pmkR1, ftKeyLen useSha384, pmkR1Name⟩ := by
  unfold selectedCall
  rw [if_neg hpsk, hnone, hsa]
  rfl

theorem octets_selectedCall (hstack : env.stack.length = pmkLenMax)
    (h : selectPmkR1 lib conf env keys sm useSha384 r0khId pmkR0Name pmkR1Name = (keys', .ok r1)) :
    ∃ call, selectedCall lib conf env keys sm useSha384 r0khId pmkR0Name pmkR1Name = some call ∧
      call.octets env.stack = r1.pmkR1 ∧ call.sa.pairwise = r1.pairwise ∧ call.name = pmkR1Name := by
  unfold selectPmkR1 at h
  split at h
  · rename_i hpsk
    split at h
    · cases h
    · rename_i sa hsa
      cases h
      exact ⟨_, selectedCall_psk hpsk hsa, octets_writtenBuf hstack _ _ _, rfl, rfl⟩
  · rename_i hpsk
    split at h
    · rename_i sa hsa
      cases h
      exact ⟨_, selectedCall_cached hpsk hsa,
        (octets_writtenBuf hstack _ _ _).trans (fillPmkR1_self _ _), rfl, rfl⟩
    · rename_i hnone
      split at h
      · rename_i sa hsa
        cases h
        exact ⟨_, selectedCall_local hpsk hnone hsa, octets_writtenBuf hstack _ _ _, rfl, rfl⟩
      · cases h

theorem selectPmkR1_ne_success (resp : Bytes) :
    selectPmkR1 lib conf env keys sm useSha384 r0khId pmkR0Name pmkR1Name ≠
      (keys', .error (.success resp)) := by
  unfold selectPmkR1
  intro h
  split at h
  · split at h <;> cases h
  · split at h
    · cases h
    · split at h
      · cases h
      · split at h <;> cases h

/-- The PTK is derived from the key that was selected, and the name that was asked for stays in the state
machine. -/
structure PmkR1Used (lib : FtLib) (conf : FtConf) (r1 : PmkR1Sa) (pmkR1Name : Bytes) (sm sm' : FtSm) :
    Prop where
  ptk : wpaPmkR1ToPtk lib r1.pmkR1 sm'.sNonce sm'.aNonce sm'.addr conf.addr pmkR1Name sm'.akmp r1.pairwise
    sm.ptk = (sm'.ptk, true)
  name : sm'.pmkR1Name = pmkR1Name
  addr : sm'.addr = sm.addr
  r0khId : sm'.r0khId = sm.r0khId
  akmp : sm'.akmp = sm.akmp

theorem PmkR1Used.install (h : PmkR1Used lib conf r1 pmkR1Name sm sm') :
    PmkR1Used lib conf r1 pmkR1Name sm (wpaFtInstallPtk env sm') := by
  unfold wpaFtInstallPtk
  split
  · exact ⟨h.ptk, h.name, h.addr, h.r0khId, h.akmp⟩
  · exact h

theorem authReqDerive_success
    (h : authReqDerive lib conf env useSha384 r0khId pmkR0Name pmkR1Name r1 sm = (sm', .success resp)) :
    PmkR1Used lib conf r1 pmkR1Name sm sm' := by
  unfold authReqDerive at h
  simp only at h
  split at h
  · cases h
  · split at h
    · cases h
    · rename_i ptk hptk
      split at h
      · cases h
      · split at h
        · cases h
        · cases h
          exact .install ⟨hptk, rfl, rfl, rfl, rfl⟩

theorem wpaFtSetKeyMgmt_keyMgmt {parse : WpaFtIes} (h : sm.wpaKeyMgmt = sm'.wpaKeyMgmt) :
    (wpaFtSetKeyMgmt conf parse sm).1.wpaKeyMgmt = (wpaFtSetKeyMgmt conf parse sm').1.wpaKeyMgmt := by
  unfold wpaFtSetKeyMgmt
  rw [h]
  split
  · exact h
  · simp only
    split
    · exact h
    · split <;> rfl

/-- What the state machine `sm₁` has when the PMK-R1 is selected. -/
structure AuthReqSelects (lib : FtLib) (conf : FtConf) (parse : WpaFtIes) (useSha384 : Bool) (sm sm₁ : FtSm)
    (r0khId pmkR0Name pmkR1Name : Bytes) : Prop where
  hasR0khId : parse.r0khId = some r0khId
  hasPmkid : parse.rsnPmkid = some pmkR0Name
  name : wpaDerivePmkR1Name lib pmkR0Name conf.r1KeyHolder sm.addr useSha384 = some pmkR1Name
  keyMgmt : sm₁.wpaKeyMgmt = (wpaFtSetKeyMgmt conf parse sm).1.wpaKeyMgmt
  addr : sm₁.addr = sm.addr
  r0khId : sm₁.r0khId = r0khId
  ptk : sm₁.ptk = sm.ptk

theorem authReqTakenCall_eq {parse : WpaFtIes} {sm₁ : FtSm} (hr0kh : parse.r0khId = some r0khId)
    (hpmkid : parse.rsnPmkid = some pmkR0Name)
    (hset : wpaFtSetKeyMgmt conf parse { sm with r0khId } = (sm₁, true))
    (hname : wpaDerivePmkR1Name lib pmkR0Name conf.r1KeyHolder sm₁.addr useSha384 = some pmkR1Name) :
    authReqTakenCall lib conf env parse useSha384 keys sm =
      selectedCall lib conf env keys sm₁ useSha384 r0khId pmkR0Name pmkR1Name := by
  unfold authReqTakenCall
  rw [hr0kh]
  simp only
  rw [hpmkid]
  simp only
  rw [hset]
  simp only
  rw [hname]

theorem authReqCall_eq {parse : WpaFtIes} {ftie : Bytes} (hparse : wpaFtParseIes ies none = some parse)
    (hmdie : ¬ ¬ mdieOk conf parse = true)
    (hftie : parse.longFtie (parse.keyMgmt.any wpaKeyMgmtSha384) = some ftie) :
    authReqCall lib conf env ies keys sm =
      authReqTakenCall lib conf env parse (parse.keyMgmt.any wpaKeyMgmtSha384) keys
        { sm with
          pmkR1NameValid := false
          sNonce := ftieSNonce (parse.keyMgmt.any wpaKeyMgmtSha384) ftie
          unfinished := true } := by
  unfold authReqCall
  rw [hparse]
  simp only
  rw [if_neg hmdie, hftie]

theorem authReqTaken_success {parse : WpaFtIes}
    (h : authReqTaken lib conf env parse useSha384 keys sm = (keys', sm', .success resp)) :
    ∃ sm₁ r0khId pmkR0Name pmkR1Name r1,
      AuthReqSelects lib conf parse useSha384 sm sm₁ r0khId pmkR0Name pmkR1Name ∧
      authReqTakenCall lib conf env parse useSha384 keys sm =
        selectedCall lib conf env keys sm₁ useSha384 r0khId pmkR0Name pmkR1Name ∧
      selectPmkR1 lib conf env keys sm₁ useSha384 r0khId pmkR0Name pmkR1Name = (keys', .ok r1) ∧
      PmkR1Used lib conf r1 pmkR1Name sm₁ sm' := by
  unfold authReqTaken at h
  split at h
  · cases h
  · rename_i r0khId hr0kh
    simp only at h
    split at h
    · cases h
    · rename_i pmkR0Name hpmkid
      obtain ⟨wpaKeyMgmt, pairwise, hset⟩ := wpaFtSetKeyMgmt_eq conf parse { sm with r0khId }
      have hkey : (wpaFtSetKeyMgmt conf parse { sm with r0khId }).1.wpaKeyMgmt =
          (wpaFtSetKeyMgmt conf parse sm).1.wpaKeyMgmt := wpaFtSetKeyMgmt_keyMgmt rfl
      split at h
      · cases h
      · rename_i sm₁ heq
        rw [heq] at hset hkey
        subst hset
        split at h
        · cases h
        · rename_i pmkR1Name hname
          split at h
          · rename_i hselect
            obtain ⟨-, hrest⟩ := Prod.mk.inj h
            obtain ⟨-, hresult⟩ := Prod.mk.inj hrest
            exact absurd (hresult ▸ hselect) (selectPmkR1_ne_success resp)
          · rename_i keys₁ r1 hselect
            obtain ⟨hkeys, hrest⟩ := Prod.mk.inj h
            subst hkeys
            exact ⟨_, r0khId, pmkR0Name, pmkR1Name, r1, ⟨hr0kh, hpmkid, hname, hkey, rfl, rfl, rfl⟩,
              authReqTakenCall_eq hr0kh hpmkid heq hname, hselect, authReqDerive_success hrest⟩

theorem wpaFtProcessAuthReq_success
    (h : wpaFtProcessAuthReq lib conf env ies keys sm = (keys', sm', .success resp)) :
    ∃ parse sm₁ r0khId pmkR0Name pmkR1Name r1, wpaFtParseIes ies none = some parse ∧
      AuthReqSelects lib conf parse (parse.keyMgmt.any wpaKeyMgmtSha384) sm sm₁ r0khId pmkR0Name pmkR1Name ∧
      authReqCall lib conf env ies keys sm =
        selectedCall lib conf env keys sm₁ (parse.keyMgmt.any wpaKeyMgmtSha384) r0khId pmkR0Name pmkR1Name ∧
      selectPmkR1 lib conf env keys sm₁ (parse.keyMgmt.any wpaKeyMgmtSha384) r0khId pmkR0Name pmkR1Name =
        (keys', .ok r1) ∧
      PmkR1Used lib conf r1 pmkR1Name sm₁ sm' := by
  unfold wpaFtProcessAuthReq at h
  simp only at h
  split at h
  · cases h
  · rename_i parse hparse
    split at h
    · cases h
    · rename_i hmdie
      split at h
      · cases h
      · rename_i ftie hftie
        obtain ⟨sm₁, r0khId, pmkR0Name, pmkR1Name, r1, hsel, hcall, hselect, hused⟩ := authReqTaken_success h
        refine ⟨parse, sm₁, r0khId, pmkR0Name, pmkR1Name, r1, hparse, ?_,
          (authReqCall_eq hparse hmdie hftie).trans hcall, hselect, hused⟩
        -- the AKM does not depend on what was taken from the request before
        exact ⟨hsel.hasR0khId, hsel.hasPmkid, hsel.name, hsel.keyMgmt.trans (wpaFtSetKeyMgmt_keyMgmt rfl),
          hsel.addr, hsel.r0khId, hsel.ptk⟩

/-- The PTK is derived from what is read of the buffer. -/
structure PmkR1Call.Derives (lib : FtLib) (conf : FtConf) (stack : Bytes) (call : PmkR1Call) (sm sm' : FtSm) :
    Prop where
  ptk : wpaPmkR1ToPtk lib (call.octets stack) sm'.sNonce sm'.aNonce sm'.addr conf.addr call.name sm'.akmp
    call.sa.pairwise sm.ptk = (sm'.ptk, true)
  name : sm'.pmkR1Name = call.name

/-! ## One SA -/

theorem fillPmkR1_length {stack key : Bytes} {len : Nat} (hstack : stack.length = pmkLenMax)
    (hkey : key.length ≤ pmkLenMax) (hlen : len ≤ pmkLenMax) : (fillPmkR1 stack key len).length = len := by
  unfold fillPmkR1 overwrite
  rw [length_take, length_append, length_append, length_drop, take_zero,
    length_nil]
  omega

theorem ftKeyLen_le (useSha384 : Bool) : ftKeyLen useSha384 ≤ pmkLenMax := by
  cases useSha384 <;> decide

theorem wpaFtPskPmkR1_name (h : wpaFtPskPmkR1 lib conf env keys sm pmkR1Name = some r1) :
    r1.pmkR1Name = pmkR1Name := by
  unfold wpaFtPskPmkR1 at h
  split at h
  · cases h
  · rename_i pmkR1 name hfind
    obtain ⟨_, _, rfl⟩ := Option.map_eq_some_iff.1 h
    have hp := find?_some hfind
    exact of_decide_eq_true hp

theorem wpaFtFetchPmkR1_name {spa name : Bytes} {now : Int}
    (h : wpaFtFetchPmkR1 keys spa name now = some r1) : r1.pmkR1Name = name := by
  obtain ⟨e, hfind, rfl⟩ := Option.map_eq_some_iff.1 h
  have hp := find?_some hfind
  exact (of_decide_eq_true hp).2

theorem wpaFtLocalDerivePmkR1_inv
    (h : wpaFtLocalDerivePmkR1 lib conf env keys sm r0khId pmkR0Name = some r1) :
    ∃ r0, r0khId = conf.r0KeyHolder ∧ wpaFtFetchPmkR0 keys sm.addr pmkR0Name = some r0 ∧
      wpaDerivePmkR1 lib r0.pmkR0 r0.pmkR0Name conf.r1KeyHolder sm.addr = some (r1.pmkR1, r1.pmkR1Name) := by
  unfold wpaFtLocalDerivePmkR1 at h
  split at h
  · cases h
  · rename_i hid
    split at h
    · cases h
    · rename_i r0 hfetch
      obtain ⟨⟨pmkR1, name⟩, hr1, rfl⟩ := Option.map_eq_some_iff.1 h
      exact ⟨r0, (not_not.1 hid).symm, hfetch, hr1⟩

theorem oneSa_of_psk (hstack : env.stack.length = pmkLenMax) (hpsk : sm.wpaKeyMgmt = some .ftPsk)
    (h : wpaFtPskPmkR1 lib conf env keys sm pmkR1Name = some r1)
    (hlen : (fillPmkR1 env.stack r1.pmkR1 (ftKeyLen useSha384)).length = ftKeyLen (wpaKeyMgmtSha384 sm.akmp))
    (hname : sm'.pmkR1Name = pmkR1Name) (haddr : sm'.addr = sm.addr) (hid : sm'.r0khId = sm.r0khId) :
    PmkR1Call.OfOneSa lib conf keys sm' ⟨r1, writtenBuf r1.pmkR1, ftKeyLen useSha384, pmkR1Name⟩ := by
  obtain ⟨hnamed, hkey⟩ := wpaFtPskPmkR1_spec h
  have hsa := wpaFtPskPmkR1_name h
  have hakmp : sm.akmp = .ftPsk := by rw [FtSm.akmp, hpsk]; rfl
  have hfill : (fillPmkR1 env.stack r1.pmkR1 (ftKeyLen useSha384)).length = ftKeyLen useSha384 :=
    fillPmkR1_length hstack (by rw [hkey]; decide) (ftKeyLen_le useSha384)
  rw [hfill, hakmp] at hlen
  have hlen' : ftKeyLen useSha384 = r1.pmkR1.length := by
    rw [hlen, hkey]
    rfl
  refine ⟨?_, hlen', ?_, hsa.trans hname.symm⟩
  · rw [haddr, hid, hsa]
    exact hnamed
  · show (writtenBuf r1.pmkR1).take (ftKeyLen useSha384) = _
    rw [hlen']
    exact take_writtenBuf _

theorem oneSa_of_cached {now : Int} (h : wpaFtFetchPmkR1 keys sm.addr pmkR1Name now = some r1)
    (hname : sm'.pmkR1Name = pmkR1Name) (haddr : sm'.addr = sm.addr) :
    PmkR1Call.OfOneSa lib conf keys sm' ⟨r1, writtenBuf r1.pmkR1, r1.pmkR1.length, pmkR1Name⟩ := by
  have hsa := wpaFtFetchPmkR1_name h
  refine ⟨?_, rfl, take_writtenBuf _, hsa.trans hname.symm⟩
  rw [haddr, hsa]
  exact wpaFtFetchPmkR1_named h

theorem oneSa_of_pmkR0_iff {r0 : PmkR0Sa}
    (hfetch : wpaFtFetchPmkR0 keys sm.addr pmkR0Name = some r0)
    (hr1 : wpaDerivePmkR1 lib r0.pmkR0 r0.pmkR0Name conf.r1KeyHolder sm.addr =
      some (r1.pmkR1, r1.pmkR1Name))
    (hreq : wpaDerivePmkR1Name lib pmkR0Name conf.r1KeyHolder sm.addr useSha384 = some pmkR1Name)
    (hname : sm'.pmkR1Name = pmkR1Name) (haddr : sm'.addr = sm.addr) :
    PmkR1Call.OfOneSa lib conf keys sm' ⟨r1, writtenBuf r1.pmkR1, ftKeyLen useSha384, pmkR1Name⟩ ↔
      r0.pmkR0.length = ftKeyLen useSha384 := by
  obtain ⟨hmem, hspa, hr0name⟩ := wpaFtFetchPmkR0_spec hfetch
  obtain ⟨hlen, hsaName⟩ := wpaDerivePmkR1_spec hr1
  constructor
  · intro hone
    have hused : ftKeyLen useSha384 = r1.pmkR1.length := hone.len
    omega
  · intro hmatch
    have hhash : decide (r0.pmkR0.length = 48) = useSha384 := by
      rw [hmatch]
      cases useSha384 <;> rfl
    have hsa : r1.pmkR1Name = pmkR1Name := by
      rw [hr0name, hhash, hreq] at hsaName
      exact (Option.some.inj hsaName).symm
    have hlen' : ftKeyLen useSha384 = r1.pmkR1.length := by omega
    refine ⟨?_, hlen', ?_, hsa.trans hname.symm⟩
    · rw [haddr]
      exact .pmkR0 r0 hmem hspa hr1
    · show (writtenBuf r1.pmkR1).take (ftKeyLen useSha384) = _
      rw [hlen']
      exact take_writtenBuf _

theorem selectedCall_oneSa_iff {parse : WpaFtIes} {sm₁ : FtSm} (hstack : env.stack.length = pmkLenMax)
    (hparse : wpaFtParseIes ies none = some parse)
    (hsel : AuthReqSelects lib conf parse (parse.keyMgmt.any wpaKeyMgmtSha384) sm sm₁ r0khId pmkR0Name
      pmkR1Name)
    (hcall : selectedCall lib conf env keys sm₁ (parse.keyMgmt.any wpaKeyMgmtSha384) r0khId pmkR0Name
      pmkR1Name = some call)
    (hname : sm'.pmkR1Name = pmkR1Name) (haddr : sm'.addr = sm₁.addr) (hid : sm'.r0khId = sm₁.r0khId)
    (hlen : (call.octets env.stack).length = ftKeyLen (wpaKeyMgmtSha384 sm₁.akmp)) :
    call.OfOneSa lib conf keys sm' ↔ LocalR0Matches lib conf env ies keys sm := by
  have hreq := hsel.name
  have hmatches : LocalR0Matches lib conf env ies keys sm ↔
      (¬ (conf.ftPskGenerateLocal ∧ sm₁.wpaKeyMgmt = some .ftPsk) →
        wpaFtFetchPmkR1 keys sm₁.addr pmkR1Name env.now = none → r0khId = conf.r0KeyHolder →
        ∀ r0 ∈ wpaFtFetchPmkR0 keys sm₁.addr pmkR0Name,
          r0.pmkR0.length = ftKeyLen (parse.keyMgmt.any wpaKeyMgmtSha384)) := by
    unfold LocalR0Matches
    rw [hparse, hsel.keyMgmt, hsel.addr]
    simp only [Option.mem_def, Option.some.injEq, forall_eq', hsel.hasR0khId, hsel.hasPmkid, hreq]
  rw [hmatches]
  rw [← hsel.addr] at hreq
  unfold selectedCall at hcall
  split at hcall
  · rename_i hpsk
    obtain ⟨sa, hsa, rfl⟩ := Option.map_eq_some_iff.1 hcall
    rw [octets_writtenBuf hstack] at hlen
    exact iff_of_true (oneSa_of_psk hstack hpsk.2 hsa hlen hname haddr hid) (fun hnot => absurd hpsk hnot)
  · rename_i hpsk
    split at hcall
    · rename_i sa hsa
      cases hcall
      refine iff_of_true (oneSa_of_cached hsa hname haddr) ?_
      intro _ hnone
      cases hsa.symm.trans hnone
    · rename_i hnone
      obtain ⟨sa, hsa, rfl⟩ := Option.map_eq_some_iff.1 hcall
      obtain ⟨r0, hown, hfetch, hr1⟩ := wpaFtLocalDerivePmkR1_inv hsa
      rw [oneSa_of_pmkR0_iff hfetch hr1 hreq hname haddr]
      constructor
      · intro hmatch _ _ _ r0' hr0'
        cases hfetch.symm.trans hr0'
        exact hmatch
      · intro h
        exact h hpsk hnone hown r0 hfetch

/-- **The PMK-R1 a request that succeeds is served with.** The PTK is derived from the buffer as
`authReqCall` has it, and what is used of the buffer is one SA of the station with the name in the state
machine exactly if a PMK-R0 it comes from is of the hash of the request. -/
theorem ft_auth_req_one_sa_iff (lib : FtLib) (conf : FtConf) (env : FtAuthEnv) (keys : FtKeys) (sm : FtSm)
    (ies : Bytes) {keys' : FtKeys} {sm' : FtSm} {resp : Bytes} (hstack : env.stack.length = pmkLenMax)
    (h : wpaFtProcessAuthReq lib conf env ies keys sm = (keys', sm', .success resp)) :
    ∃ call, authReqCall lib conf env ies keys sm = some call ∧ call.Derives lib conf env.stack sm sm' ∧
      (call.OfOneSa lib conf keys sm' ↔ LocalR0Matches lib conf env ies keys sm) := by
  obtain ⟨parse, sm₁, r0khId, pmkR0Name, pmkR1Name, r1, hparse, hsel, hcall, hselect, hused⟩ :=
    wpaFtProcessAuthReq_success h
  obtain ⟨call, hsome, hoctets, hpairwise, hcallName⟩ := octets_selectedCall hstack hselect
  refine ⟨call, hcall.trans hsome, ⟨?_, hused.name.trans hcallName.symm⟩, ?_⟩
  · rw [hoctets, hpairwise, hcallName, ← hsel.ptk]
    exact hused.ptk
  · have hlen := (wpaPmkR1ToPtk_true hused.ptk).1
    rw [← hoctets, hused.akmp] at hlen
    exact selectedCall_oneSa_iff hstack hparse hsel hsome hused.name hused.addr hused.r0khId hlen

end Steps

/-! ## A station that comes with another AKM -/

def FtAuthResult.isSuccess : FtAuthResult → Bool
  | .success _ => true
  | _ => false

theorem exists_of_isSuccess {r : FtKeys × FtSm × FtAuthResult} (h : r.2.2.isSuccess = true) :
    ∃ keys' sm' resp, r = (keys', sm', .success resp) := by
  rcases r with ⟨keys', sm', result⟩
  cases result with
  | success resp => exact ⟨keys', sm', resp, rfl⟩
  | failure status => cases h
  | pending => cases h

def smallAuthReqIes : Bytes :=
  smallFtIes (List.replicate 16 1) (smallFtie 0 (zeros 16) (zeros 32) (smallNonce 2))

/-- The PMK-R1 is in the cache. -/
theorem ft_auth_req_one_sa_small :
    ∃ keys' sm' resp, wpaFtProcessAuthReq smallFtLib smallFtConf { aNonce := smallNonce 3 } smallAuthReqIes
        smallFtKeys { addr := smallFtSta } = (keys', sm', .success resp) ∧
      ∃ call, authReqCall smallFtLib smallFtConf { aNonce := smallNonce 3 } smallAuthReqIes smallFtKeys
          { addr := smallFtSta } = some call ∧
        call.Derives smallFtLib smallFtConf (zeros 64) { addr := smallFtSta } sm' ∧
        (call.OfOneSa smallFtLib smallFtConf smallFtKeys sm' ↔
          LocalR0Matches smallFtLib smallFtConf { aNonce := smallNonce 3 } smallAuthReqIes smallFtKeys
            { addr := smallFtSta }) := by
  have hok : (wpaFtProcessAuthReq smallFtLib smallFtConf { aNonce := smallNonce 3 } smallAuthReqIes
      smallFtKeys { addr := smallFtSta }).2.2.isSuccess = true := by decide +kernel
  obtain ⟨keys', sm', resp, h⟩ := exists_of_isSuccess hok
  exact ⟨keys', sm', resp, h, ft_auth_req_one_sa_iff smallFtLib smallFtConf { aNonce := smallNonce 3 }
    smallFtKeys { addr := smallFtSta } smallAuthReqIes rfl h⟩

def smallSha384Conf : FtConf := { smallFtConf with wpaKeyMgmt := [.ftIeee8021x, .ftIeee8021xSha384] }

def smallSha384Ies : Bytes :=
  element eidRsn ([1, 0, 0, 0x0f, 0xac, 4, 1, 0, 0, 0x0f, 0xac, 4, 1, 0, 0, 0x0f, 0xac, 13, 0, 0, 1, 0] ++
    List.replicate 16 1) ++ element eidMobilityDomain [1, 1, 0] ++
    element eidFastBssTransition (smallFtie 0 (zeros 24) (zeros 32) (smallNonce 2))

def smallSha256Keys : FtKeys where
  r0 := [{ pmkR0 := List.replicate 32 6, pmkR0Name := List.replicate 16 1, spa := smallFtSta,
           pairwise := some .ccmp }]

/-- The request with SHA384 succeeds from a PMK-R0 of SHA256, with a PMK-R1 a third of which was never
written. -/
theorem ft_auth_req_uses_unwritten :
    ∃ keys' sm' resp call, wpaFtProcessAuthReq smallFtLib smallSha384Conf { aNonce := smallNonce 3 }
        smallSha384Ies smallSha256Keys { addr := smallFtSta } = (keys', sm', .success resp) ∧
      authReqCall smallFtLib smallSha384Conf { aNonce := smallNonce 3 } smallSha384Ies smallSha256Keys
        { addr := smallFtSta } = some call ∧
      none ∈ call.buf.take call.len ∧
      ¬ call.OfOneSa smallFtLib smallSha384Conf smallSha256Keys sm' := by
  have hok : (wpaFtProcessAuthReq smallFtLib smallSha384Conf { aNonce := smallNonce 3 } smallSha384Ies
      smallSha256Keys { addr := smallFtSta }).2.2.isSuccess = true := by decide +kernel
  have hcall : (authReqCall smallFtLib smallSha384Conf { aNonce := smallNonce 3 } smallSha384Ies
      smallSha256Keys { addr := smallFtSta }).any (fun call => decide (none ∈ call.buf.take call.len)) =
      true := by decide +kernel
  obtain ⟨keys', sm', resp, h⟩ := exists_of_isSuccess hok
  obtain ⟨call, hsome, hdec⟩ := (Option.any_eq_true _ _).mp hcall
  have hnone : none ∈ call.buf.take call.len := of_decide_eq_true hdec
  refine ⟨keys', sm', resp, call, h, hsome, hnone, ?_⟩
  intro hone
  rw [hone.written] at hnone
  obtain ⟨octet, -, hoctet⟩ := mem_map.mp hnone
  cases hoctet

end Hostap
