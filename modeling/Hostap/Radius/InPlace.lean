import Hostap.Lib.Buffer
import Hostap.Radius.Message

/-!
# Checking a message in its own buffer

`radius_msg_verify_msg_auth()` and `radius_msg_verify_das_req()` need the message as its sender had it
when it computed the Message-Authenticator: with zeros in that attribute and another authenticator in
the header. They do not copy the message. They save the two parts, write over them, and put them back.

Here both are programs on the buffer. What they save of the attribute is 16 octets, while the parser
only asks for an attribute of two octets or more. So they stay within the buffer exactly where a
single Message-Authenticator is followed by 16 octets (`RadiusMsg.MsgAuthRoom`), and there the message
comes back, unless `hmac_md5()` fails: then the first of them returns before it puts anything back.
-/

namespace Hostap

open Octets Prog Buffer List

/-! ## The two checks -/

/-- The digests, which may fail. -/
structure Md5Calls where
  /-- `md5_vector()`, on the concatenation of its arguments. -/
  md5Vector : Bytes → Option Bytes
  /-- `hmac_md5()`. -/
  hmacMd5 : Bytes → Bytes → Option Bytes

/-- The loop over the attributes that looks for a Message-Authenticator. There is no result where it
comes across a second one. -/
def findMsgAuth : List Nat → Option Nat → BufferM (Option (Option Nat))
  | [], attr => pure (some attr)
  | tmp :: attrPos, attr => do
    let type ← load tmp 1
    if type = [radiusAttrMessageAuthenticator] then
      match attr with
      | some _ => pure none
      | none => findMsgAuth attrPos (some tmp)
    else
      findMsgAuth attrPos attr

/-- `radius_msg_verify_msg_auth()` from where it has found the attribute on. -/
def checkMsgAuth (c : Md5Calls) (secret : Bytes) (reqAuth : Option Authenticator) (attr : Nat) :
    BufferM Bool := do
  let orig ← load (attr + 2) md5MacLen
  store (attr + 2) (zeros md5MacLen)
  match reqAuth with
  | some reqAuth => do
    let origAuthenticator ← load 4 16
    store 4 reqAuth.val
    match c.hmacMd5 secret (← get) with
    -- the message is left as it was digested
    | none => pure false
    | some auth => do
      store (attr + 2) orig
      store 4 origAuthenticator
      pure (orig = auth)
  | none => do
    match c.hmacMd5 secret (← get) with
    | none => pure false
    | some auth => do
      store (attr + 2) orig
      pure (orig = auth)

/-- `radius_msg_verify_msg_auth()` returns zero. -/
def radiusMsgVerifyMsgAuthInPlace (c : Md5Calls) (secret : Bytes) (reqAuth : Option Authenticator)
    (attrPos : List Nat) : BufferM Bool := do
  match ← findMsgAuth attrPos none with
  | some (some attr) => checkMsgAuth c secret reqAuth attr
  | _ => pure false

/-- `radius_msg_verify_das_req()` from where it has found the attribute on. It does not look at what
`hmac_md5()` returns; `auth` has what was on the stack if nothing was written there. -/
def checkDasReq (c : Md5Calls) (secret : Bytes) (auth : Bytes) (attr : Nat) : BufferM Bool := do
  let orig ← load (attr + 2) md5MacLen
  store (attr + 2) (zeros md5MacLen)
  let origAuthenticator ← load 4 16
  store 4 (zeros 16)
  let digest := (c.hmacMd5 secret (← get)).getD auth
  store (attr + 2) orig
  store 4 origAuthenticator
  pure (orig = digest)

/-- `radius_msg_verify_das_req()` from where the authenticator of the header is right on. -/
def checkDasAttrs (c : Md5Calls) (secret : Bytes) (requireMessageAuthenticator : Bool) (auth : Bytes)
    (attrPos : List Nat) : BufferM Bool := do
  match ← findMsgAuth attrPos none with
  | none => pure false
  | some none => pure (!requireMessageAuthenticator)
  | some (some attr) => checkDasReq c secret auth attr

/-- `radius_msg_verify_das_req()` returns zero. Nothing looks at what `md5_vector()` returns either;
`hash` has what was on the stack. -/
def radiusMsgVerifyDasReqInPlace (c : Md5Calls) (secret : Bytes) (requireMessageAuthenticator : Bool)
    (hash auth : Bytes) (attrPos : List Nat) : BufferM Bool := do
  let hdr ← load 0 4
  let attrs ← load radiusHdrLen ((← get).length - radiusHdrLen)
  let authenticator ← load 4 md5MacLen
  if authenticator ≠ (c.md5Vector (hdr ++ zeros md5MacLen ++ attrs ++ secret)).getD hash then
    pure false
  else
    checkDasAttrs c secret requireMessageAuthenticator auth attrPos

/-! ## Parsed messages -/

def RadiusMsg.msgAuthPos (m : RadiusMsg) : List Nat :=
  m.attrPos.filter fun pos => (m.attrAt pos).1 = radiusAttrMessageAuthenticator

/-- A single Message-Authenticator is followed by the 16 octets that are written over. -/
def RadiusMsg.MsgAuthRoom (m : RadiusMsg) : Prop :=
  ∀ pos, m.msgAuthPos = [pos] → pos + 2 + md5MacLen ≤ m.buf.length

/-- The index is behind the header, and there is an attribute header at each position of it. -/
structure RadiusMsg.Indexed (m : RadiusMsg) : Prop where
  header : radiusHdrLen ≤ m.buf.length
  index : ∀ pos ∈ m.attrPos, radiusHdrLen ≤ pos ∧ pos + 2 ≤ m.buf.length

theorem parseAttrsFrom_index {n pos : Nat} {rest : Bytes} {l : List Nat}
    (h : parseAttrsFrom n pos rest = some l) : ∀ p ∈ l, pos ≤ p ∧ p + 2 ≤ pos + rest.length := by
  induction n generalizing pos rest l with
  | zero =>
    unfold parseAttrsFrom at h
    split at h
    · cases h
      exact fun p hp => absurd hp not_mem_nil
    · cases h
  | succ n ih =>
    unfold parseAttrsFrom at h
    split at h
    · cases h
      exact fun p hp => absurd hp not_mem_nil
    split at h
    · cases h
    rename_i value rest' hnext
    have hlen : rest.length = 2 + value.length + rest'.length := Tlv.next_length hnext
    obtain ⟨l', hl', rfl⟩ := Option.map_eq_some_iff.mp h
    intro p hp
    rcases mem_cons.mp hp with rfl | hp
    · omega
    · have hlater := ih hl' p hp
      omega

theorem radiusMsgParse_indexed {data : Bytes} {m : RadiusMsg} (h : radiusMsgParse data = some m) :
    m.Indexed := by
  unfold radiusMsgParse at h
  split at h
  · cases h
  dsimp only at h
  split at h
  · cases h
  rename_i hlen
  obtain ⟨l, hl, rfl⟩ := Option.map_eq_some_iff.mp h
  have htake : (data.take (getBe16 (data.drop 2))).length = getBe16 (data.drop 2) := by
    rw [length_take]
    omega
  have hindex := parseAttrsFrom_index hl
  rw [length_drop, htake] at hindex
  refine ⟨by rw [htake]; omega, fun pos hpos => ?_⟩
  have hp := hindex pos hpos
  show _ ∧ _ ≤ (data.take (getBe16 (data.drop 2))).length
  rw [htake]
  omega

/-! ## What the checks do -/

/-- What the loop over the attributes gives for the Message-Authenticator attributes there are. -/
def uniqueAttr : List Nat → Option (Option Nat)
  | [] => some none
  | [attr] => some (some attr)
  | _ => none

theorem findMsgAuth_run {buf : Bytes} {l : List Nat} (hl : ∀ pos ∈ l, pos + 2 ≤ buf.length)
    (attr : Option Nat) :
    findMsgAuth l attr buf =
      .ok (uniqueAttr (attr.toList ++ l.filter fun pos => buf.getD pos 0 = radiusAttrMessageAuthenticator),
        buf) := by
  induction l generalizing attr with
  | nil => cases attr <;> rfl
  | cons tmp l ih =>
    have htmp : tmp + 2 ≤ buf.length := hl tmp mem_cons_self
    have hl' : ∀ pos ∈ l, pos + 2 ≤ buf.length := fun pos hpos => hl pos (mem_cons_of_mem tmp hpos)
    have htype : slice buf tmp 1 = [buf.getD tmp 0] := by
      unfold slice
      rw [drop_eq_getElem_cons (by omega), take_succ_cons, take_zero,
        getD_eq_getElem?_getD, getElem?_eq_getElem (by omega)]
      rfl
    have hload : load tmp 1 buf = .ok (slice buf tmp 1, buf) := load_ok (by omega)
    unfold findMsgAuth
    rw [bind_ok hload, htype, filter_cons]
    by_cases hma : buf.getD tmp 0 = radiusAttrMessageAuthenticator
    · rw [if_pos (by rw [hma]), if_pos (decide_eq_true hma)]
      cases attr with
      | some attr => rfl
      | none => exact ih hl' (some tmp)
    · rw [if_neg (fun h => hma (List.cons.inj h).1), if_neg (by simpa using hma)]
      exact ih hl' attr

/-- The message as its sender had it when it computed the Message-Authenticator. -/
def maskMsgAuth (authenticator : Option Bytes) (pos : Nat) (buf : Bytes) : Bytes :=
  match authenticator with
  | some a => overwrite 4 a (overwrite (pos + 2) (zeros md5MacLen) buf)
  | none => overwrite (pos + 2) (zeros md5MacLen) buf

section Checks

variable {c : Md5Calls} {secret buf : Bytes} {pos : Nat}

theorem checkMsgAuth_error (reqAuth : Option Authenticator)
    (hroom : ¬ pos + 2 + md5MacLen ≤ buf.length) :
    checkMsgAuth c secret reqAuth pos buf = .error ⟨pos + 2, md5MacLen⟩ :=
  bind_error (load_error hroom)

theorem checkDasReq_error (auth : Bytes) (hroom : ¬ pos + 2 + md5MacLen ≤ buf.length) :
    checkDasReq c secret auth pos buf = .error ⟨pos + 2, md5MacLen⟩ :=
  bind_error (load_error hroom)

theorem zeroed_length (hroom : pos + 2 + md5MacLen ≤ buf.length) :
    (overwrite (pos + 2) (zeros md5MacLen) buf).length = buf.length := overwrite_length hroom

theorem mask_run {α : Type} (hpos : radiusHdrLen ≤ pos) (hroom : pos + 2 + md5MacLen ≤ buf.length)
    (a : Authenticator) (f : Bytes → Bytes → BufferM α) :
    (do
      let orig ← load (pos + 2) md5MacLen
      store (pos + 2) (zeros md5MacLen)
      let origAuthenticator ← load 4 16
      store 4 a.val
      f orig origAuthenticator : BufferM α) buf =
      f (slice buf (pos + 2) md5MacLen) (slice buf 4 md5MacLen) (maskMsgAuth (some a.val) pos buf) := by
  have hpos' : 20 ≤ pos := hpos
  have hroom' : pos + 2 + 16 ≤ buf.length := hroom
  have hzeros : (zeros md5MacLen).length = 16 := rfl
  have ha : a.val.length = 16 := a.property
  have hlen := zeroed_length hroom
  rw [bind_ok (load_ok hroom), bind_ok (store_ok hroom), bind_ok (load_ok (by omega)),
    bind_ok (store_ok (by omega)), slice_overwrite (by omega) (by omega)]
  rfl

theorem restore_run {α : Type} (hpos : radiusHdrLen ≤ pos) (hroom : pos + 2 + md5MacLen ≤ buf.length)
    (a : Authenticator) (b : α) :
    (do
      store (pos + 2) (slice buf (pos + 2) md5MacLen)
      store 4 (slice buf 4 md5MacLen)
      pure b : BufferM α) (maskMsgAuth (some a.val) pos buf) = .ok (b, buf) := by
  have hpos' : 20 ≤ pos := hpos
  have hroom' : pos + 2 + 16 ≤ buf.length := hroom
  have ha : a.val.length = 16 := a.property
  have horig : (slice buf (pos + 2) md5MacLen).length = 16 := slice_length hroom
  have hauth : (slice buf 4 md5MacLen).length = 16 := slice_length (by show 4 + 16 ≤ _; omega)
  have hlen := zeroed_length hroom
  have hmask : (maskMsgAuth (some a.val) pos buf).length = buf.length := by
    show (overwrite 4 a.val _).length = _
    rw [overwrite_length (by omega), hlen]
  have hattr : overwrite (pos + 2) (slice buf (pos + 2) md5MacLen)
      (overwrite (pos + 2) (zeros md5MacLen) buf) = buf := overwrite_slice hroom
  -- the header is in front of the attribute, so it does not matter which one was written over first
  have hswap : overwrite (pos + 2) (slice buf (pos + 2) md5MacLen) (maskMsgAuth (some a.val) pos buf) =
      overwrite 4 a.val buf := by
    have hcomm : overwrite (pos + 2) (slice buf (pos + 2) md5MacLen)
        (overwrite 4 a.val (overwrite (pos + 2) (zeros md5MacLen) buf)) =
        overwrite 4 a.val (overwrite (pos + 2) (slice buf (pos + 2) md5MacLen)
          (overwrite (pos + 2) (zeros md5MacLen) buf)) := overwrite_comm (by omega) (by omega)
    rw [hattr] at hcomm
    exact hcomm
  have hhdr : overwrite 4 (slice buf 4 md5MacLen) (overwrite 4 a.val buf) = buf := by
    have hback : overwrite 4 (slice buf 4 a.val.length) (overwrite 4 a.val buf) = buf :=
      overwrite_slice (by omega)
    rwa [a.property] at hback
  rw [bind_ok (store_ok (by omega)), hswap,
    bind_ok (store_ok (by rw [overwrite_length (by omega)]; omega)), hhdr]
  rfl

theorem checkMsgAuth_ok (reqAuth : Option Authenticator) (hpos : radiusHdrLen ≤ pos)
    (hroom : pos + 2 + md5MacLen ≤ buf.length) :
    checkMsgAuth c secret reqAuth pos buf =
      .ok ((c.hmacMd5 secret (maskMsgAuth (reqAuth.map (·.val)) pos buf)).elim
        (false, maskMsgAuth (reqAuth.map (·.val)) pos buf)
        fun auth => (decide (slice buf (pos + 2) md5MacLen = auth), buf)) := by
  cases reqAuth with
  | none =>
    have horig : (slice buf (pos + 2) md5MacLen).length = md5MacLen := slice_length hroom
    have hget : (get : BufferM Bytes) (overwrite (pos + 2) (zeros md5MacLen) buf) =
        .ok (maskMsgAuth none pos buf, maskMsgAuth none pos buf) := rfl
    unfold checkMsgAuth
    rw [bind_ok (load_ok hroom), bind_ok (store_ok hroom)]
    dsimp only
    rw [bind_ok hget]
    show _ = Except.ok ((c.hmacMd5 secret (maskMsgAuth none pos buf)).elim _ _)
    cases c.hmacMd5 secret (maskMsgAuth none pos buf) with
    | none => rfl
    | some auth =>
      have hback : overwrite (pos + 2) (slice buf (pos + 2) md5MacLen) (maskMsgAuth none pos buf) =
          buf := overwrite_slice hroom
      have hstore : store (pos + 2) (slice buf (pos + 2) md5MacLen) (maskMsgAuth none pos buf) =
          .ok ((), buf) := by
        rw [store_ok (by rw [horig]; exact hroom.trans_eq (zeroed_length hroom).symm), hback]
      dsimp only
      rw [bind_ok hstore]
      rfl
  | some a =>
    unfold checkMsgAuth
    dsimp only
    rw [mask_run hpos hroom a]
    have hget : (get : BufferM Bytes) (maskMsgAuth (some a.val) pos buf) =
        .ok (maskMsgAuth (some a.val) pos buf, maskMsgAuth (some a.val) pos buf) := rfl
    rw [bind_ok hget]
    show _ = Except.ok ((c.hmacMd5 secret (maskMsgAuth (some a.val) pos buf)).elim _ _)
    cases c.hmacMd5 secret (maskMsgAuth (some a.val) pos buf) with
    | none => rfl
    | some auth => exact restore_run hpos hroom a _

theorem checkDasReq_ok (auth : Bytes) (hpos : radiusHdrLen ≤ pos)
    (hroom : pos + 2 + md5MacLen ≤ buf.length) :
    checkDasReq c secret auth pos buf =
      .ok (decide (slice buf (pos + 2) md5MacLen =
        (c.hmacMd5 secret (maskMsgAuth (some (zeros md5MacLen)) pos buf)).getD auth), buf) := by
  unfold checkDasReq
  refine (mask_run hpos hroom ⟨zeros md5MacLen, rfl⟩ _).trans ?_
  have hget : (get : BufferM Bytes) (maskMsgAuth (some (zeros md5MacLen)) pos buf) =
      .ok (maskMsgAuth (some (zeros md5MacLen)) pos buf, maskMsgAuth (some (zeros md5MacLen)) pos buf) :=
    rfl
  rw [bind_ok hget]
  exact restore_run hpos hroom ⟨zeros md5MacLen, rfl⟩ _

end Checks

/-! ## Whole messages -/

section Messages

variable {m : RadiusMsg} (c : Md5Calls) (secret : Bytes)

theorem RadiusMsg.Indexed.findMsgAuth (h : m.Indexed) :
    findMsgAuth m.attrPos none m.buf = .ok (uniqueAttr m.msgAuthPos, m.buf) :=
  findMsgAuth_run (fun pos hpos => (h.index pos hpos).2) none

theorem RadiusMsg.Indexed.behind_header (h : m.Indexed) {pos : Nat} (hpos : m.msgAuthPos = [pos]) :
    radiusHdrLen ≤ pos := by
  have hmem : pos ∈ m.msgAuthPos := by
    rw [hpos]
    exact mem_singleton_self pos
  exact (h.index pos (mem_filter.mp hmem).1).1

/-- The digest of the message with its Message-Authenticator masked can be computed, or the mask
changes nothing. -/
def RadiusMsg.DigestOk (m : RadiusMsg) (c : Md5Calls) (secret : Bytes)
    (reqAuth : Option Authenticator) : Prop :=
  ∀ pos, m.msgAuthPos = [pos] →
    (c.hmacMd5 secret (maskMsgAuth (reqAuth.map (·.val)) pos m.buf)).isSome ∨
      maskMsgAuth (reqAuth.map (·.val)) pos m.buf = m.buf

/-- The authenticator of a request is the digest of the message, as the check has it. -/
def RadiusMsg.DasAuthenticated (m : RadiusMsg) (c : Md5Calls) (secret hash : Bytes) : Prop :=
  m.authenticator = (c.md5Vector (m.buf.take 4 ++ zeros md5MacLen ++ m.buf.drop radiusHdrLen ++
    secret)).getD hash

theorem RadiusMsg.only_iff {pos : Nat} (hpos : m.msgAuthPos = [pos]) {p : Nat → Prop} :
    (∀ pos', m.msgAuthPos = [pos'] → p pos') ↔ p pos := by
  rw [hpos]
  exact ⟨fun h => h pos rfl, fun h pos' heq => singleton_inj.mp heq ▸ h⟩

theorem RadiusMsg.msgAuth_cases (m : RadiusMsg) :
    (∃ pos, m.msgAuthPos = [pos] ∧ uniqueAttr m.msgAuthPos = some (some pos)) ∨
      ((∀ pos, m.msgAuthPos ≠ [pos]) ∧
        (uniqueAttr m.msgAuthPos = none ∨ uniqueAttr m.msgAuthPos = some none)) := by
  match m.msgAuthPos with
  | [] => exact .inr ⟨fun pos => (cons_ne_nil pos []).symm, .inr rfl⟩
  | [pos] => exact .inl ⟨pos, rfl, rfl⟩
  | p :: p' :: l => exact .inr ⟨fun pos h => cons_ne_nil p' l (List.cons.inj h).2, .inl rfl⟩

theorem verifyMsgAuth_inPlace_iff (h : m.Indexed) (reqAuth : Option Authenticator) :
    InPlace (radiusMsgVerifyMsgAuthInPlace c secret reqAuth m.attrPos) m.buf ↔
      m.MsgAuthRoom ∧ m.DigestOk c secret reqAuth := by
  have hrun : radiusMsgVerifyMsgAuthInPlace c secret reqAuth m.attrPos m.buf = _ :=
    bind_ok h.findMsgAuth
  rcases m.msgAuth_cases with ⟨pos, hpos, hunique⟩ | ⟨hnone, hunique⟩
  · rw [hunique] at hrun
    unfold RadiusMsg.MsgAuthRoom RadiusMsg.DigestOk
    rw [RadiusMsg.only_iff hpos, RadiusMsg.only_iff hpos]
    by_cases hroom : pos + 2 + md5MacLen ≤ m.buf.length
    · have hcheck := hrun.trans (checkMsgAuth_ok reqAuth (h.behind_header hpos) hroom)
      cases hdigest : c.hmacMd5 secret (maskMsgAuth (reqAuth.map (·.val)) pos m.buf) with
      | none =>
        rw [hdigest] at hcheck
        rw [inPlace_of_ok hcheck]
        simp [hroom]
      | some auth =>
        rw [hdigest] at hcheck
        rw [inPlace_of_ok hcheck]
        simp [hroom]
    · have hcheck := hrun.trans (checkMsgAuth_error reqAuth hroom)
      exact iff_of_false (not_inPlace_of_error hcheck) fun h => hroom h.1
  · -- nothing is written
    have hreturn : radiusMsgVerifyMsgAuthInPlace c secret reqAuth m.attrPos m.buf =
        .ok (false, m.buf) := by
      rcases hunique with hunique | hunique <;> rw [hunique] at hrun <;> exact hrun
    rw [inPlace_of_ok hreturn]
    exact iff_of_true rfl
      ⟨fun pos hpos => absurd hpos (hnone pos), fun pos hpos => absurd hpos (hnone pos)⟩

def Md5Lib.calls (lib : Md5Lib) : Md5Calls where
  md5Vector data := some (lib.md5 data)
  hmacMd5 key data := some (Hostap.hmacMd5 lib key data)

theorem verifyMsgAuth_value (lib : Md5Lib) (h : m.Indexed) (reqAuth : Option Authenticator) {b : Bool}
    (hb : radiusMsgVerifyMsgAuth lib secret (reqAuth.map (·.val)) m = some b) :
    radiusMsgVerifyMsgAuthInPlace lib.calls secret reqAuth m.attrPos m.buf = .ok (b, m.buf) := by
  have hrun : radiusMsgVerifyMsgAuthInPlace lib.calls secret reqAuth m.attrPos m.buf = _ :=
    bind_ok h.findMsgAuth
  unfold radiusMsgVerifyMsgAuth at hb
  rw [show m.attrPos.filter _ = m.msgAuthPos from rfl] at hb
  rcases m.msgAuth_cases with ⟨pos, hpos, hunique⟩ | ⟨hnone, hunique⟩
  · rw [hpos] at hb
    rw [hunique] at hrun
    dsimp only at hb
    split at hb
    · cases hb
    · rename_i hroom
      have hcheck := hrun.trans (checkMsgAuth_ok reqAuth (h.behind_header hpos) (Nat.not_lt.mp hroom))
      rw [hcheck, ← Option.some.inj hb]
      cases reqAuth <;> rfl
  · have hfalse : b = false := by
      split at hb
      · rename_i pos hpos
        exact absurd hpos (hnone pos)
      · exact (Option.some.inj hb).symm
    rw [hfalse]
    rcases hunique with hunique | hunique <;> rw [hunique] at hrun <;> exact hrun

theorem checkDasAttrs_inPlace_iff (h : m.Indexed) (requireMessageAuthenticator : Bool)
    (auth : Bytes) :
    InPlace (checkDasAttrs c secret requireMessageAuthenticator auth m.attrPos) m.buf ↔
      m.MsgAuthRoom := by
  have hrun : checkDasAttrs c secret requireMessageAuthenticator auth m.attrPos m.buf = _ :=
    bind_ok h.findMsgAuth
  rcases m.msgAuth_cases with ⟨pos, hpos, hunique⟩ | ⟨hnone, hunique⟩
  · rw [hunique] at hrun
    unfold RadiusMsg.MsgAuthRoom
    rw [RadiusMsg.only_iff hpos]
    by_cases hroom : pos + 2 + md5MacLen ≤ m.buf.length
    · have hcheck := hrun.trans (checkDasReq_ok auth (h.behind_header hpos) hroom)
      rw [inPlace_of_ok hcheck]
      exact iff_of_true rfl hroom
    · have hcheck := hrun.trans (checkDasReq_error auth hroom)
      exact iff_of_false (not_inPlace_of_error hcheck) hroom
  · refine iff_of_true ?_ fun pos hpos => absurd hpos (hnone pos)
    rcases hunique with hunique | hunique
    · rw [hunique] at hrun
      exact (inPlace_of_ok hrun).mpr rfl
    · rw [hunique] at hrun
      exact (inPlace_of_ok hrun).mpr rfl

theorem verifyDasReq_inPlace_iff (h : m.Indexed) (requireMessageAuthenticator : Bool)
    (hash auth : Bytes) :
    InPlace (radiusMsgVerifyDasReqInPlace c secret requireMessageAuthenticator hash auth m.attrPos)
      m.buf ↔ (m.DasAuthenticated c secret hash → m.MsgAuthRoom) := by
  have hlen : 20 ≤ m.buf.length := h.header
  have hhdr : load 0 4 m.buf = .ok (m.buf.take 4, m.buf) := load_ok (by omega)
  have hget : (get : BufferM Bytes) m.buf = .ok (m.buf, m.buf) := rfl
  have hattrs : load radiusHdrLen (m.buf.length - radiusHdrLen) m.buf =
      .ok (m.buf.drop radiusHdrLen, m.buf) := by
    rw [load_ok (Nat.add_sub_cancel' hlen).le]
    unfold slice
    rw [take_of_length_le (by rw [length_drop])]
  have hauth : load 4 md5MacLen m.buf = .ok (m.authenticator, m.buf) :=
    load_ok (show 4 + 16 ≤ _ by omega)
  have hrun : radiusMsgVerifyDasReqInPlace c secret requireMessageAuthenticator hash auth m.attrPos
      m.buf = (if m.authenticator ≠ (c.md5Vector (m.buf.take 4 ++ zeros md5MacLen ++
        m.buf.drop radiusHdrLen ++ secret)).getD hash then (pure false : BufferM Bool) else
          checkDasAttrs c secret requireMessageAuthenticator auth m.attrPos) m.buf := by
    unfold radiusMsgVerifyDasReqInPlace
    rw [bind_ok hhdr, bind_ok hget, bind_ok hattrs, bind_ok hauth]
  rw [inPlace_congr hrun]
  split
  · rename_i hno
    exact iff_of_true rfl fun hdas => absurd hdas hno
  · rename_i hdas
    have hiff := checkDasAttrs_inPlace_iff c secret h requireMessageAuthenticator auth
    exact ⟨fun hin _ => hiff.mp hin, fun hroom => hiff.mpr (hroom (not_not.mp hdas))⟩

/-- **The checks stay in place** exactly where they have room for what they save. Of the message of a
request, only what is authenticated matters. -/
theorem radius_verify_in_place_iff {data : Bytes} (hparse : radiusMsgParse data = some m)
    (reqAuth : Option Authenticator) (requireMessageAuthenticator : Bool) (hash auth : Bytes) :
    (InPlace (radiusMsgVerifyMsgAuthInPlace c secret reqAuth m.attrPos) m.buf ↔
      m.MsgAuthRoom ∧ m.DigestOk c secret reqAuth) ∧
    (InPlace (radiusMsgVerifyDasReqInPlace c secret requireMessageAuthenticator hash auth m.attrPos)
      m.buf ↔ (m.DasAuthenticated c secret hash → m.MsgAuthRoom)) :=
  ⟨verifyMsgAuth_inPlace_iff c secret (radiusMsgParse_indexed hparse) reqAuth,
    verifyDasReq_inPlace_iff c secret (radiusMsgParse_indexed hparse) requireMessageAuthenticator hash auth⟩

end Messages

/-- **A finished request passes in place.** Whatever is added to a request, the receiver of the finished buffer
takes its Message-Authenticator, and leaves every octet of the message as it was. -/
theorem radius_request_passes_in_place (lib : Md5Lib) (code identifier : UInt8) (calls : List RadiusCall)
    (random : Authenticator) (secret : Bytes) (hcalls : ∀ call ∈ calls, call.NoMsgAuth)
    (hmax : (radiusMsgMakeAuthenticator random
      (radiusMsgBuild code identifier calls)).buf.length + 18 ≤ 65535) :
    ∃ fin, radiusMsgFinish lib (some secret)
        (radiusMsgMakeAuthenticator random (radiusMsgBuild code identifier calls)) = some (true, fin) ∧
      radiusMsgParse fin.buf = some fin ∧
      radiusMsgVerifyMsgAuthInPlace lib.calls secret none fin.attrPos fin.buf = .ok (true, fin.buf) := by
  have h := (layout_build code identifier calls).setAuthenticator random.property
  have hnone : ∀ x ∈ calls.flatMap RadiusCall.attrs, x.1 ≠ radiusAttrMessageAuthenticator := by
    intro x hx
    obtain ⟨call, hcall, hmem⟩ := mem_flatMap.1 hx
    exact call.attrs_type (hcalls call hcall) x hmem
  obtain ⟨fin, mac, hfin, hreceived, hverify⟩ := h.finish lib secret hnone hmax
  have hindexed := radiusMsgParse_indexed hreceived.parse
  exact ⟨fin, hfin, hreceived.parse, verifyMsgAuth_value secret lib hindexed none hverify⟩

theorem radius_request_passes_in_place_small :
    ∃ fin, radiusMsgFinish md5Internal (some [0x73])
        (radiusMsgMakeAuthenticator ⟨zeros 16, rfl⟩ (radiusMsgBuild 1 7 [.addEap [2, 7, 0, 4]])) =
          some (true, fin) ∧
      radiusMsgParse fin.buf = some fin ∧
      radiusMsgVerifyMsgAuthInPlace md5Internal.calls [0x73] none fin.attrPos fin.buf = .ok (true, fin.buf) :=
  radius_request_passes_in_place md5Internal 1 7 [.addEap [2, 7, 0, 4]] ⟨zeros 16, rfl⟩ [0x73] (by decide)
    (by decide)

/-! ## A message that ends with a short attribute -/

def smallMd5Calls : Md5Calls where
  md5Vector _ := some (zeros md5MacLen)
  hmacMd5 _ _ := some (zeros md5MacLen)

def smallShortMsgAuth : Bytes := [2, 0, 0, 22] ++ zeros 16 ++ [80, 2]

def smallMsgAuth : Bytes := [2, 0, 0, 38] ++ zeros 16 ++ [80, 18] ++ zeros 16

theorem smallMsgAuth_room : (RadiusMsg.mk smallMsgAuth [20]).MsgAuthRoom := by
  have hpos : (RadiusMsg.mk smallMsgAuth [20]).msgAuthPos = [20] := by decide
  intro pos h
  rw [hpos] at h
  rw [← singleton_inj.mp h]
  decide

theorem radius_verify_in_place_small :
    InPlace (radiusMsgVerifyMsgAuthInPlace smallMd5Calls [0x73] none [20]) smallMsgAuth ∧
      InPlace (radiusMsgVerifyDasReqInPlace smallMd5Calls [0x73] true (zeros 16) (zeros 16) [20])
        smallMsgAuth := by
  have hparse : radiusMsgParse smallMsgAuth = some ⟨smallMsgAuth, [20]⟩ := by decide
  have h := radius_verify_in_place_iff smallMd5Calls [0x73] hparse none true (zeros 16) (zeros 16)
  exact ⟨h.1.mpr ⟨smallMsgAuth_room, fun _ _ => .inl rfl⟩, h.2.mpr fun _ => smallMsgAuth_room⟩

/-- The parser takes the message, and both checks leave its buffer. -/
theorem radius_verify_leaves_buffer :
    radiusMsgParse smallShortMsgAuth = some ⟨smallShortMsgAuth, [20]⟩ ∧
      ¬ InPlace (radiusMsgVerifyMsgAuthInPlace smallMd5Calls [0x73] none [20]) smallShortMsgAuth ∧
      ¬ InPlace (radiusMsgVerifyDasReqInPlace smallMd5Calls [0x73] true (zeros 16) (zeros 16) [20])
        smallShortMsgAuth := by
  have hauth : radiusMsgVerifyMsgAuthInPlace smallMd5Calls [0x73] none [20] smallShortMsgAuth =
      .error ⟨22, 16⟩ := by rfl
  have hdas : radiusMsgVerifyDasReqInPlace smallMd5Calls [0x73] true (zeros 16) (zeros 16) [20]
      smallShortMsgAuth = .error ⟨22, 16⟩ := by rfl
  exact ⟨by decide, not_inPlace_of_error hauth, not_inPlace_of_error hdas⟩

end Hostap
