import Hostap.Lib.Tlv
import Hostap.Radius.Md5

/-!
# RADIUS messages

`src/radius/radius.c`: a message is a buffer with an index of where its attributes start. The sender
adds attributes and finishes the message, which sets the length, an authenticator in the header or a
Message-Authenticator attribute, or both; the receiver parses the buffer and checks them.

A message that was built is laid out as a header and its attributes (`Layout`). Each of the four ways
to finish one leaves such a layout with the length in it, so that parsing gives the very same message
back (`Layout.parse`), and each check computes its digest over the octets the sender computed it over.
-/

namespace Hostap

open Octets List

/-! ## Messages -/

/-- `struct radius_msg`: the buffer and the index of its attributes. -/
structure RadiusMsg where
  buf : Bytes
  attrPos : List Nat
  deriving DecidableEq

/-- `sizeof(struct radius_hdr)`. -/
abbrev radiusHdrLen : Nat := 20

/-- `RADIUS_MAX_ATTR_LEN`. -/
abbrev radiusMaxAttrLen : Nat := 253

/-- `RADIUS_ATTR_EAP_MESSAGE`. -/
abbrev radiusAttrEapMessage : UInt8 := 79

/-- `RADIUS_ATTR_MESSAGE_AUTHENTICATOR`. -/
abbrev radiusAttrMessageAuthenticator : UInt8 := 80

abbrev Authenticator := { a : Bytes // a.length = md5MacLen }

/-- `struct radius_attr_hdr`: the length includes the header. -/
def radiusAttrFormat : Tlv.Format UInt8 where
  hdrLen := 2
  header type n := [type, UInt8.ofNat (n + 2)]
  read
    | type :: len :: _ => if len < 2 then none else some (type, len.toNat - 2)
    | _ => none
  fits _ n := n ≤ radiusMaxAttrLen
  hdrLen_pos := Nat.two_pos
  header_length _ _ := rfl
  read_header type n rest h := by
    have hle : n ≤ 253 := h
    have hval : (UInt8.ofNat (n + 2)).toNat = n + 2 := by
      rw [UInt8.toNat_ofNat']
      omega
    have hge : ¬ UInt8.ofNat (n + 2) < 2 := by
      rw [UInt8.lt_iff_toNat_lt, hval]
      exact Nat.not_lt.2 (Nat.le_add_left 2 n)
    show (if UInt8.ofNat (n + 2) < 2 then none else some (type, (UInt8.ofNat (n + 2)).toNat - 2)) = _
    rw [if_neg hge, hval, Nat.add_sub_cancel]

/-- `radius_msg_new()`. -/
def radiusMsgNew (code identifier : UInt8) : RadiusMsg where
  buf := code :: identifier :: zeros 18
  attrPos := []

/-- `hdr->length` is set from the length of the buffer. -/
def RadiusMsg.setLength (m : RadiusMsg) : RadiusMsg :=
  { m with buf := overwrite 2 (natBe 2 m.buf.length) m.buf }

/-- `hdr->authenticator` is set. -/
def RadiusMsg.setAuthenticator (m : RadiusMsg) (a : Bytes) : RadiusMsg :=
  { m with buf := overwrite 4 a m.buf }

/-- `hdr->authenticator`. -/
def RadiusMsg.authenticator (m : RadiusMsg) : Bytes := slice m.buf 4 md5MacLen

/-- `radius_msg_make_authenticator()`, with 16 random octets. -/
def radiusMsgMakeAuthenticator (random : Authenticator) (m : RadiusMsg) : RadiusMsg :=
  m.setAuthenticator random.val

/-- `radius_msg_add_attr()`. -/
def radiusMsgAddAttr (type : UInt8) (data : Bytes) (m : RadiusMsg) : Option RadiusMsg :=
  if radiusMaxAttrLen < data.length then
    none
  else
    some {
      buf := m.buf ++ Tlv.encode radiusAttrFormat (type, data)
      attrPos := m.attrPos ++ [m.buf.length] }

/-- The loop of `radius_msg_add_eap()`; `n` is at least the number of octets left. -/
def addEapFrom : Nat → Bytes → RadiusMsg → Option RadiusMsg
  | 0, _, m => some m
  | n + 1, data, m =>
    if data = [] then
      some m
    else
      match radiusMsgAddAttr radiusAttrEapMessage (data.take radiusMaxAttrLen) m with
      | none => none
      | some m => addEapFrom n (data.drop radiusMaxAttrLen) m

/-- `radius_msg_add_eap()`. -/
def radiusMsgAddEap (data : Bytes) (m : RadiusMsg) : Option RadiusMsg := addEapFrom data.length data m

def RadiusMsg.attrAt (m : RadiusMsg) (pos : Nat) : UInt8 × Bytes :=
  (m.buf.getD pos 0, slice m.buf (pos + 2) ((m.buf.getD (pos + 1) 0).toNat - 2))

def RadiusMsg.attrs (m : RadiusMsg) : List (UInt8 × Bytes) := m.attrPos.map m.attrAt

/-- The attribute loop of `radius_msg_parse()`; `n` is at least the number of octets left. -/
def parseAttrsFrom : Nat → Nat → Bytes → Option (List Nat)
  | 0, _, rest => if rest = [] then some [] else none
  | n + 1, pos, rest =>
    if rest = [] then
      some []
    else
      match Tlv.next radiusAttrFormat rest with
      | none => none
      | some (_, value, rest) => (parseAttrsFrom n (pos + 2 + value.length) rest).map (pos :: ·)

/-- `radius_msg_parse()`. -/
def radiusMsgParse (data : Bytes) : Option RadiusMsg :=
  if data.length < radiusHdrLen then
    none
  else
    let msgLen := getBe16 (data.drop 2)
    if msgLen < radiusHdrLen ∨ data.length < msgLen then
      none
    else
      let buf := data.take msgLen
      (parseAttrsFrom buf.length radiusHdrLen (buf.drop radiusHdrLen)).map (RadiusMsg.mk buf)

/-- `radius_msg_get_eap()`. -/
def radiusMsgGetEap (m : RadiusMsg) : Option Bytes :=
  let eap := (m.attrs.filter fun a => a.1 = radiusAttrEapMessage ∧ a.2 ≠ []).flatMap (·.2)
  if eap = [] then none else some eap

/-! ## Finishing and checking -/

section Digests

variable (lib : Md5Lib)

/-- An empty Message-Authenticator is added; the position of its value is that of the result. -/
def addMessageAuthenticator (m : RadiusMsg) : Option (RadiusMsg × Nat) :=
  (radiusMsgAddAttr radiusAttrMessageAuthenticator (zeros md5MacLen) m).map (·, m.buf.length + 2)

/-- `radius_msg_finish()`. The result says whether the message is not too long. -/
def radiusMsgFinish (secret : Option Bytes) (m : RadiusMsg) : Option (Bool × RadiusMsg) :=
  match secret with
  | none =>
    let m := m.setLength
    some (m.buf.length ≤ 0xffff, m)
  | some secret =>
    match addMessageAuthenticator m with
    | none => none
    | some (m, pos) =>
      let m := m.setLength
      let m := { m with buf := overwrite pos (hmacMd5 lib secret m.buf) m.buf }
      some (m.buf.length ≤ 0xffff, m)

/-- `radius_msg_finish_srv()`. -/
def radiusMsgFinishSrv (secret : Bytes) (reqAuthenticator : Bytes) (m : RadiusMsg) :
    Option (Bool × RadiusMsg) :=
  match addMessageAuthenticator m with
  | none => none
  | some (m, pos) =>
    let m := m.setLength.setAuthenticator reqAuthenticator
    let m := { m with buf := overwrite pos (hmacMd5 lib secret m.buf) m.buf }
    let m := m.setAuthenticator
      (lib.md5 (m.buf.take 4 ++ reqAuthenticator ++ m.buf.drop radiusHdrLen ++ secret))
    some (m.buf.length ≤ 0xffff, m)

/-- `radius_msg_finish_acct()`. -/
def radiusMsgFinishAcct (secret : Bytes) (m : RadiusMsg) : RadiusMsg :=
  let m := m.setLength.setAuthenticator (zeros md5MacLen)
  m.setAuthenticator (lib.md5 (m.buf ++ secret))

/-- `radius_msg_finish_acct_resp()`. -/
def radiusMsgFinishAcctResp (secret : Bytes) (reqAuthenticator : Bytes) (m : RadiusMsg) : RadiusMsg :=
  let m := m.setLength.setAuthenticator reqAuthenticator
  m.setAuthenticator (lib.md5 (m.buf ++ secret))

/-- `radius_msg_verify_acct_req()` returns zero. -/
def radiusMsgVerifyAcctReq (secret : Bytes) (m : RadiusMsg) : Bool :=
  m.authenticator =
    lib.md5 (m.buf.take 4 ++ zeros md5MacLen ++ m.buf.drop radiusHdrLen ++ secret)

/-- `radius_msg_verify_msg_auth()` returns zero. There is no result where it reads and writes past
the end of the buffer, since it does not look at the length of the attribute. -/
def radiusMsgVerifyMsgAuth (secret : Bytes) (reqAuth : Option Bytes) (m : RadiusMsg) : Option Bool :=
  match m.attrPos.filter fun pos => (m.attrAt pos).1 = radiusAttrMessageAuthenticator with
  | [pos] =>
    if m.buf.length < pos + 2 + md5MacLen then
      none
    else
      let orig := slice m.buf (pos + 2) md5MacLen
      let buf := overwrite (pos + 2) (zeros md5MacLen) m.buf
      let buf := match reqAuth with
        | some a => overwrite 4 a buf
        | none => buf
      some (orig = hmacMd5 lib secret buf)
  | _ => some false

/-- `radius_msg_verify()` returns zero, for the authenticator of the request if there is one. -/
def radiusMsgVerify (secret : Bytes) (sentAuthenticator : Option Bytes) (auth : Bool) (m : RadiusMsg) :
    Option Bool :=
  match sentAuthenticator with
  | none => some false
  | some reqAuth =>
    let response : Bool := lib.md5
      (m.buf.take 4 ++ reqAuth ++ m.buf.drop radiusHdrLen ++ secret) = m.authenticator
    if auth then
      (radiusMsgVerifyMsgAuth lib secret (some reqAuth) m).map (· && response)
    else
      some response

end Digests

/-! ## Building a message -/

/-- The calls that add to a message. -/
inductive RadiusCall
  | addAttr (type : UInt8) (data : Bytes)
  | addEap (data : Bytes)

def RadiusCall.apply (m : RadiusMsg) : RadiusCall → RadiusMsg
  | .addAttr type data => (radiusMsgAddAttr type data m).getD m
  | .addEap data => (radiusMsgAddEap data m).getD m

def radiusMsgBuild (code identifier : UInt8) (calls : List RadiusCall) : RadiusMsg :=
  calls.foldl RadiusCall.apply (radiusMsgNew code identifier)

def eapPieces : Nat → Bytes → List Bytes
  | 0, _ => []
  | n + 1, data => if data = [] then [] else
      data.take radiusMaxAttrLen :: eapPieces n (data.drop radiusMaxAttrLen)

/-- The attributes a call adds. An attribute that is too long is not added. -/
def RadiusCall.attrs : RadiusCall → List (UInt8 × Bytes)
  | .addAttr type data => if radiusMaxAttrLen < data.length then [] else [(type, data)]
  | .addEap data => (eapPieces data.length data).map (radiusAttrEapMessage, ·)

def RadiusCall.eap : RadiusCall → Bytes
  | .addAttr type data =>
    if radiusMaxAttrLen < data.length ∨ type ≠ radiusAttrEapMessage then [] else data
  | .addEap data => data

def RadiusCall.NoMsgAuth : RadiusCall → Prop
  | .addAttr type _ => type ≠ radiusAttrMessageAuthenticator
  | .addEap _ => True

instance (call : RadiusCall) : Decidable call.NoMsgAuth := by
  unfold RadiusCall.NoMsgAuth
  split <;> infer_instance

/-! ## The layout of a message -/

/-- Where attributes stand that start at `pos`. -/
def attrPositions : Nat → List (UInt8 × Bytes) → List Nat
  | _, [] => []
  | pos, a :: l => pos :: attrPositions (pos + 2 + a.2.length) l

/-- A message with code and identifier `c`, length field `l`, authenticator `a` and attributes. -/
structure Layout (m : RadiusMsg) (c l a : Bytes) (attrs : List (UInt8 × Bytes)) : Prop where
  buf : m.buf = c ++ (l ++ (a ++ Tlv.encodeAll radiusAttrFormat attrs))
  code : c.length = 2
  len : l.length = 2
  auth : a.length = md5MacLen
  index : m.attrPos = attrPositions radiusHdrLen attrs
  fits : ∀ x ∈ attrs, x.2.length ≤ radiusMaxAttrLen

section Layout

variable {m : RadiusMsg} {c l a : Bytes} {attrs : List (UInt8 × Bytes)}

theorem attrPositions_append (pos : Nat) (l l' : List (UInt8 × Bytes)) :
    attrPositions pos (l ++ l') = attrPositions pos l ++
      attrPositions (pos + (Tlv.encodeAll radiusAttrFormat l).length) l' := by
  induction l generalizing pos with
  | nil => rfl
  | cons x l ih =>
    have hpos : pos + (Tlv.encodeAll radiusAttrFormat (x :: l)).length =
        pos + 2 + x.2.length + (Tlv.encodeAll radiusAttrFormat l).length := by
      rw [Tlv.encodeAll_cons, length_append, Tlv.encode_length]
      show pos + (2 + x.2.length + _) = _
      omega
    rw [cons_append, attrPositions, ih, hpos]
    rfl

theorem Layout.length (h : Layout m c l a attrs) :
    m.buf.length = radiusHdrLen + (Tlv.encodeAll radiusAttrFormat attrs).length := by
  rw [h.buf]
  simp only [length_append, h.code, h.len, h.auth, md5MacLen, radiusHdrLen]
  omega

theorem layout_new (code identifier : UInt8) :
    Layout (radiusMsgNew code identifier) [code, identifier] (zeros 2) (zeros md5MacLen) [] :=
  ⟨rfl, rfl, rfl, rfl, rfl, (fun _ hx => nomatch hx)⟩

theorem Layout.addAttr (h : Layout m c l a attrs) (type : UInt8) {data : Bytes}
    (hlen : data.length ≤ radiusMaxAttrLen) :
    ∃ m', radiusMsgAddAttr type data m = some m' ∧ Layout m' c l a (attrs ++ [(type, data)]) := by
  unfold radiusMsgAddAttr
  rw [if_neg (Nat.not_lt.2 hlen)]
  refine ⟨_, rfl, ?_, h.code, h.len, h.auth, ?_, ?_⟩
  · rw [Tlv.encodeAll_append, h.buf]
    simp
  · rw [attrPositions_append, ← h.length, h.index]
    rfl
  · intro x hx
    rcases mem_append.1 hx with hx | hx
    · exact h.fits x hx
    · rw [mem_singleton.1 hx]
      exact hlen

theorem Layout.addEapFrom (h : Layout m c l a attrs) (n : Nat) (data : Bytes) :
    ∃ m', addEapFrom n data m = some m' ∧
      Layout m' c l a (attrs ++ (eapPieces n data).map (radiusAttrEapMessage, ·)) := by
  induction n generalizing m attrs data with
  | zero => exact ⟨m, rfl, by simpa [eapPieces] using h⟩
  | succ n ih =>
    unfold Hostap.addEapFrom eapPieces
    by_cases hnil : data = []
    · rw [if_pos hnil, if_pos hnil]
      exact ⟨m, rfl, by simpa using h⟩
    · rw [if_neg hnil, if_neg hnil]
      have hpiece : (data.take radiusMaxAttrLen).length ≤ radiusMaxAttrLen := length_take_le _ _
      obtain ⟨m₁, hm₁, h₁⟩ := h.addAttr radiusAttrEapMessage hpiece
      obtain ⟨m', hm', h'⟩ := ih h₁ (data.drop radiusMaxAttrLen)
      rw [hm₁]
      exact ⟨m', hm', by simpa using h'⟩

theorem Layout.apply (h : Layout m c l a attrs) (call : RadiusCall) :
    Layout (call.apply m) c l a (attrs ++ call.attrs) := by
  cases call with
  | addAttr type data =>
    show Layout ((radiusMsgAddAttr type data m).getD m) c l a
      (attrs ++ if radiusMaxAttrLen < data.length then [] else [(type, data)])
    by_cases hlong : radiusMaxAttrLen < data.length
    · rw [radiusMsgAddAttr, if_pos hlong, if_pos hlong]
      simpa using h
    · obtain ⟨m', hm', h'⟩ := h.addAttr type (Nat.not_lt.1 hlong)
      rw [hm', if_neg hlong]
      exact h'
  | addEap data =>
    obtain ⟨m', hm', h'⟩ := h.addEapFrom data.length data
    show Layout ((Hostap.addEapFrom data.length data m).getD m) c l a _
    rw [hm']
    exact h'

theorem layout_build (code identifier : UInt8) (calls : List RadiusCall) :
    Layout (radiusMsgBuild code identifier calls) [code, identifier] (zeros 2) (zeros md5MacLen)
      (calls.flatMap RadiusCall.attrs) := by
  have hfrom : ∀ m attrs, Layout m [code, identifier] (zeros 2) (zeros md5MacLen) attrs →
      Layout (calls.foldl RadiusCall.apply m) [code, identifier] (zeros 2) (zeros md5MacLen)
        (attrs ++ calls.flatMap RadiusCall.attrs) := by
    induction calls with
    | nil =>
      intro m attrs h
      simpa using h
    | cons call calls ih =>
      intro m attrs h
      rw [foldl_cons, flatMap_cons, ← append_assoc]
      exact ih _ _ (h.apply call)
  exact hfrom _ [] (layout_new code identifier)

theorem Layout.setAuthenticator (h : Layout m c l a attrs) {a' : Bytes} (ha : a'.length = md5MacLen) :
    Layout (m.setAuthenticator a') c l a' attrs := by
  refine ⟨?_, h.code, h.len, ha, h.index, h.fits⟩
  show overwrite 4 a' m.buf = _
  rw [h.buf, ← append_assoc, ← append_assoc c l]
  refine overwrite_middle ?_ ?_
  · rw [length_append, h.code, h.len]
  · rw [h.auth, ha]

theorem Layout.setLength (h : Layout m c l a attrs) :
    Layout m.setLength c (natBe 2 m.buf.length) a attrs := by
  refine ⟨?_, h.code, natBe_length _ _, h.auth, h.index, h.fits⟩
  show overwrite 2 (natBe 2 m.buf.length) m.buf = _
  rw [h.buf]
  refine overwrite_middle h.code ?_
  rw [h.len, natBe_length]

theorem last_split (type : UInt8) (v : Bytes) :
    c ++ (l ++ (a ++ Tlv.encodeAll radiusAttrFormat (attrs ++ [(type, v)]))) =
      (c ++ l ++ a ++ Tlv.encodeAll radiusAttrFormat attrs ++ radiusAttrFormat.header type v.length) ++
        (v ++ []) := by
  rw [Tlv.encodeAll_append, Tlv.encodeAll_cons]
  simp [Tlv.encode]

theorem Layout.header_length {attrs' : List (UInt8 × Bytes)} (h : Layout m c l a attrs') (type : UInt8)
    (n : Nat) : (c ++ l ++ a ++ Tlv.encodeAll radiusAttrFormat attrs ++
      radiusAttrFormat.header type n).length =
      radiusHdrLen + (Tlv.encodeAll radiusAttrFormat attrs).length + 2 := by
  simp only [length_append, h.code, h.len, h.auth, radiusAttrFormat.header_length]
  rfl

theorem Layout.setLast {type : UInt8} {v : Bytes} (h : Layout m c l a (attrs ++ [(type, v)]))
    (v' : Bytes) (hv : v.length = v'.length) {pos : Nat}
    (hpos : pos = radiusHdrLen + (Tlv.encodeAll radiusAttrFormat attrs).length + 2) :
    Layout { m with buf := overwrite pos v' m.buf } c l a (attrs ++ [(type, v')]) := by
  refine ⟨?_, h.code, h.len, h.auth, ?_, ?_⟩
  · show overwrite pos v' m.buf = _
    rw [h.buf, last_split, last_split, ← hv]
    refine overwrite_middle ?_ hv
    rw [h.header_length, hpos]
  · show m.attrPos = _
    rw [h.index, attrPositions_append, attrPositions_append]
    rfl
  · intro x hx
    rcases mem_append.1 hx with hx | hx
    · exact h.fits x (mem_append_left _ hx)
    · rw [mem_singleton.1 hx]
      show v'.length ≤ radiusMaxAttrLen
      rw [← hv]
      exact h.fits (type, v) (by simp)

theorem attrAt_of_split {x : UInt8 × Bytes} {before after : Bytes}
    (hbuf : m.buf = before ++ (Tlv.encode radiusAttrFormat x ++ after))
    (hx : x.2.length ≤ radiusMaxAttrLen) : m.attrAt before.length = x := by
  have hcons : m.buf = before ++ (x.1 :: UInt8.ofNat (x.2.length + 2) :: (x.2 ++ after)) := by
    rw [hbuf]
    rfl
  have hle : x.2.length ≤ 253 := hx
  have hlen : (UInt8.ofNat (x.2.length + 2)).toNat - 2 = x.2.length := by
    rw [UInt8.toNat_ofNat']
    omega
  have htype : m.buf.getD before.length 0 = x.1 := by
    rw [hcons]
    simp
  have hlength : m.buf.getD (before.length + 1) 0 = UInt8.ofNat (x.2.length + 2) := by
    rw [hcons]
    simp
  have hval : slice m.buf (before.length + 2) x.2.length = x.2 := by
    have hsplit : m.buf = (before ++ [x.1, UInt8.ofNat (x.2.length + 2)]) ++ (x.2 ++ after) := by
      rw [hcons]
      simp
    rw [hsplit]
    exact slice_middle (by simp) rfl
  unfold RadiusMsg.attrAt
  rw [htype, hlength, hlen, hval]

theorem Layout.attrs_eq (h : Layout m c l a attrs) : m.attrs = attrs := by
  have hfrom : ∀ (before : Bytes) (l : List (UInt8 × Bytes)),
      m.buf = before ++ Tlv.encodeAll radiusAttrFormat l →
      (∀ x ∈ l, x.2.length ≤ radiusMaxAttrLen) → (attrPositions before.length l).map m.attrAt = l := by
    intro before l
    induction l generalizing before with
    | nil => exact fun _ _ => rfl
    | cons x l ih =>
      intro hbuf hfits
      rw [Tlv.encodeAll_cons] at hbuf
      have hx := attrAt_of_split hbuf (hfits x mem_cons_self)
      have hrest := ih (before ++ Tlv.encode radiusAttrFormat x) (by rw [hbuf]; simp)
        fun y hy => hfits y (mem_cons_of_mem _ hy)
      have hpos : (before ++ Tlv.encode radiusAttrFormat x).length = before.length + 2 + x.2.length := by
        rw [length_append, Tlv.encode_length, ← Nat.add_assoc]
        rfl
      rw [hpos] at hrest
      rw [attrPositions, map_cons, hx, hrest]
  have hlen : (c ++ (l ++ a)).length = radiusHdrLen := by
    simp only [length_append, h.code, h.len, h.auth, md5MacLen]
  have := hfrom (c ++ (l ++ a)) attrs (by rw [h.buf]; simp) h.fits
  rw [hlen, ← h.index] at this
  exact this

theorem parseAttrsFrom_encodeAll {n : Nat} (pos : Nat)
    (hfits : ∀ x ∈ attrs, x.2.length ≤ radiusMaxAttrLen)
    (hn : (Tlv.encodeAll radiusAttrFormat attrs).length ≤ n) :
    parseAttrsFrom n pos (Tlv.encodeAll radiusAttrFormat attrs) = some (attrPositions pos attrs) := by
  induction attrs generalizing n pos with
  | nil =>
    cases n with
    | zero => rfl
    | succ n => rfl
  | cons x attrs ih =>
    have hpos : 0 < (Tlv.encodeAll radiusAttrFormat (x :: attrs)).length :=
      length_pos_iff.2 (Tlv.encode_ne_nil x _)
    have hlen : (Tlv.encodeAll radiusAttrFormat (x :: attrs)).length =
        2 + x.2.length + (Tlv.encodeAll radiusAttrFormat attrs).length := by
      rw [Tlv.encodeAll_cons, length_append, Tlv.encode_length]
      rfl
    cases n with
    | zero => omega
    | succ n =>
      rw [Tlv.encodeAll_cons, parseAttrsFrom, if_neg (Tlv.encode_ne_nil x _),
        Tlv.next_encode (hfits x mem_cons_self)]
      simp only
      rw [ih _ (fun y hy => hfits y (mem_cons_of_mem _ hy)) (by omega)]
      rfl

theorem Layout.parse (h : Layout m c l a attrs) (hlen : l = natBe 2 m.buf.length)
    (hmax : m.buf.length ≤ 0xffff) : radiusMsgParse m.buf = some m := by
  have hbuf := h.length
  have hfield : getBe16 (m.buf.drop 2) = m.buf.length := by
    rw [h.buf, ← h.code, drop_left, ← h.buf, hlen]
    exact getBe16_natBe hmax _
  have hdrop : m.buf.drop radiusHdrLen = Tlv.encodeAll radiusAttrFormat attrs := by
    have hsplit : m.buf = (c ++ (l ++ a)) ++ Tlv.encodeAll radiusAttrFormat attrs := by
      rw [h.buf]
      simp
    rw [hsplit]
    refine drop_left' ?_
    simp only [length_append, h.code, h.len, h.auth, md5MacLen]
  unfold radiusMsgParse
  rw [if_neg (by omega)]
  simp only [hfield]
  rw [if_neg (by omega), take_length, hdrop, parseAttrsFrom_encodeAll _ h.fits (by omega),
    ← h.index]
  rfl

theorem Layout.parts (h : Layout m c l a attrs) : m.buf.take 4 = c ++ l ∧
    m.buf.drop radiusHdrLen = Tlv.encodeAll radiusAttrFormat attrs ∧ m.authenticator = a := by
  have hcl : (c ++ l).length = 4 := by rw [length_append, h.code, h.len]
  have hbuf : m.buf = (c ++ l) ++ (a ++ Tlv.encodeAll radiusAttrFormat attrs) := by
    rw [h.buf]
    simp
  have hbuf' : m.buf = (c ++ l ++ a) ++ Tlv.encodeAll radiusAttrFormat attrs := by
    rw [h.buf]
    simp
  refine ⟨?_, ?_, ?_⟩
  · rw [hbuf]
    exact take_left' hcl
  · rw [hbuf']
    refine drop_left' ?_
    rw [length_append, hcl, h.auth]
    rfl
  · rw [RadiusMsg.authenticator, hbuf]
    exact slice_middle hcl h.auth

theorem Layout.response (h : Layout m c l a attrs) (req secret : Bytes) :
    m.buf.take 4 ++ req ++ m.buf.drop radiusHdrLen ++ secret =
      c ++ (l ++ (req ++ Tlv.encodeAll radiusAttrFormat attrs)) ++ secret := by
  obtain ⟨htake, hdrop, _⟩ := h.parts
  rw [htake, hdrop]
  simp

theorem Layout.verifyMsgAuth {mac : Bytes} (lib : Md5Lib)
    (h : Layout m c l a (attrs ++ [(radiusAttrMessageAuthenticator, mac)]))
    (hnone : ∀ x ∈ attrs, x.1 ≠ radiusAttrMessageAuthenticator) (hmac : mac.length = md5MacLen)
    (secret : Bytes) (reqAuth : Option Bytes) (hreq : ∀ r ∈ reqAuth, r.length = md5MacLen) :
    radiusMsgVerifyMsgAuth lib secret reqAuth m = some (decide (mac = hmacMd5 lib secret
      (c ++ (l ++ (reqAuth.getD a ++ Tlv.encodeAll radiusAttrFormat
        (attrs ++ [(radiusAttrMessageAuthenticator, zeros md5MacLen)])))))) := by
  generalize hpos : radiusHdrLen + (Tlv.encodeAll radiusAttrFormat attrs).length = pos
  have hindex : m.attrPos = attrPositions radiusHdrLen attrs ++ [pos] := by
    rw [h.index, attrPositions_append, hpos]
    rfl
  -- the attributes before are of other types
  have hattrs := h.attrs_eq
  rw [RadiusMsg.attrs, hindex, map_append] at hattrs
  have hlen : (attrPositions radiusHdrLen attrs).length = attrs.length := by
    have := congrArg List.length hattrs
    simpa using this
  obtain ⟨hfront, hlast⟩ := append_inj hattrs (by rw [length_map, hlen])
  have hlast' : m.attrAt pos = (radiusAttrMessageAuthenticator, mac) := by simpa using hlast
  have hfilter : (m.attrPos.filter fun p => (m.attrAt p).1 = radiusAttrMessageAuthenticator) = [pos] := by
    rw [hindex, filter_append]
    have hnil : (attrPositions radiusHdrLen attrs).filter
        (fun p => (m.attrAt p).1 = radiusAttrMessageAuthenticator) = [] := by
      rw [filter_eq_nil_iff]
      intro p hp
      have hmem : m.attrAt p ∈ attrs := by
        rw [← hfront]
        exact mem_map_of_mem hp
      simpa using hnone _ hmem
    rw [hnil, nil_append, filter_cons_of_pos (by simp [hlast'])]
    rfl
  have hbuflen : m.buf.length = pos + 2 + md5MacLen := by
    rw [h.length, Tlv.encodeAll_append, length_append, ← Nat.add_assoc, hpos, Tlv.encodeAll_cons,
      length_append, Tlv.encode_length, hmac]
    rfl
  have horig : slice m.buf (pos + 2) md5MacLen = mac := by
    rw [h.buf, last_split]
    refine slice_middle ?_ hmac
    rw [h.header_length, hpos]
  have h₀ := h.setLast (zeros md5MacLen) (by rw [hmac, zeros_length]) (by rw [hpos])
  unfold radiusMsgVerifyMsgAuth
  rw [hfilter]
  simp only
  rw [if_neg (by omega), horig]
  cases reqAuth with
  | none =>
    have hbuf : overwrite (pos + 2) (zeros md5MacLen) m.buf = _ := h₀.buf
    simp only [hbuf]
    rfl
  | some r =>
    have hbuf : overwrite 4 r (overwrite (pos + 2) (zeros md5MacLen) m.buf) = _ :=
      (h₀.setAuthenticator (hreq r rfl)).buf
    simp only [hbuf]
    rfl

end Layout

/-! ## EAP data -/

def eapOf (attrs : List (UInt8 × Bytes)) : Bytes :=
  attrs.flatMap fun x => if x.1 = radiusAttrEapMessage then x.2 else []

theorem eapOf_append (l l' : List (UInt8 × Bytes)) : eapOf (l ++ l') = eapOf l ++ eapOf l' := by
  simp [eapOf]

theorem eapOf_filter (attrs : List (UInt8 × Bytes)) :
    (attrs.filter fun x => x.1 = radiusAttrEapMessage ∧ x.2 ≠ []).flatMap (·.2) = eapOf attrs := by
  induction attrs with
  | nil => rfl
  | cons x attrs ih =>
    rw [filter_cons, eapOf, flatMap_cons, ← eapOf, ← ih]
    by_cases htype : x.1 = radiusAttrEapMessage
    · by_cases hnil : x.2 = []
      · simp [htype, hnil]
      · simp [htype, hnil]
    · simp [htype]

theorem flatten_eapPieces {n : Nat} {data : Bytes} (h : data.length ≤ n) :
    (eapPieces n data).flatten = data := by
  induction n generalizing data with
  | zero => rw [length_eq_zero_iff.1 (Nat.le_zero.1 h)]; rfl
  | succ n ih =>
    unfold eapPieces
    split
    · rename_i hnil
      rw [hnil]
      rfl
    · rename_i hne
      have hpos : 0 < data.length := length_pos_iff.2 hne
      rw [flatten_cons, ih (by simp only [length_drop, radiusMaxAttrLen]; omega),
        take_append_drop]

theorem eapOf_call (call : RadiusCall) : eapOf call.attrs = call.eap := by
  cases call with
  | addAttr type data =>
    unfold RadiusCall.attrs RadiusCall.eap
    by_cases hlong : radiusMaxAttrLen < data.length
    · simp [hlong, eapOf]
    · by_cases htype : type = radiusAttrEapMessage
      · simp [hlong, htype, eapOf]
      · simp [hlong, htype, eapOf]
  | addEap data =>
    show eapOf ((eapPieces data.length data).map (radiusAttrEapMessage, ·)) = data
    have hmap : eapOf ((eapPieces data.length data).map (radiusAttrEapMessage, ·)) =
        (eapPieces data.length data).flatten := by
      simp [eapOf, flatMap_map, flatMap_id']
    rw [hmap, flatten_eapPieces (Nat.le_refl _)]

theorem RadiusCall.attrs_type (call : RadiusCall) (h : call.NoMsgAuth) :
    ∀ x ∈ call.attrs, x.1 ≠ radiusAttrMessageAuthenticator := by
  intro x hx
  cases call with
  | addAttr type data =>
    unfold RadiusCall.attrs at hx
    simp only at hx
    split at hx
    · cases hx
    · rw [mem_singleton.1 hx]
      exact h
  | addEap data =>
    obtain ⟨piece, _, rfl⟩ := mem_map.1 hx
    show radiusAttrEapMessage ≠ radiusAttrMessageAuthenticator
    decide

theorem eapOf_calls (calls : List RadiusCall) :
    eapOf (calls.flatMap RadiusCall.attrs) = calls.flatMap RadiusCall.eap := by
  induction calls with
  | nil => rfl
  | cons call calls ih => rw [flatMap_cons, flatMap_cons, eapOf_append, eapOf_call, ih]

/-! ## Agreement -/

/-- What the sender put in is what the receiver of the buffer sees. -/
structure Received (fin : RadiusMsg) (attrs : List (UInt8 × Bytes)) (eap : Bytes) : Prop where
  parse : radiusMsgParse fin.buf = some fin
  attrs : fin.attrs = attrs
  eap : radiusMsgGetEap fin = if eap = [] then none else some eap

section Agreement

variable {m : RadiusMsg} {c l a : Bytes} {attrs : List (UInt8 × Bytes)}

theorem Layout.received (h : Layout m c l a attrs) (hlen : l = natBe 2 m.buf.length)
    (hmax : m.buf.length ≤ 0xffff) : Received m attrs (eapOf attrs) := by
  refine ⟨h.parse hlen hmax, h.attrs_eq, ?_⟩
  unfold radiusMsgGetEap
  rw [h.attrs_eq, eapOf_filter]

theorem Layout.received_msgAuth {mac : Bytes}
    (h : Layout m c l a (attrs ++ [(radiusAttrMessageAuthenticator, mac)]))
    (hlen : l = natBe 2 m.buf.length) (hmax : m.buf.length ≤ 0xffff) :
    Received m (attrs ++ [(radiusAttrMessageAuthenticator, mac)]) (eapOf attrs) := by
  have heap : eapOf (attrs ++ [(radiusAttrMessageAuthenticator, mac)]) = eapOf attrs := by
    have hne : radiusAttrMessageAuthenticator ≠ radiusAttrEapMessage := by decide
    rw [eapOf_append]
    simp [eapOf, hne]
  have := h.received hlen hmax
  rw [heap] at this
  exact this

theorem Layout.addMessageAuthenticator (h : Layout m c l a attrs) :
    ∃ m', addMessageAuthenticator m = some (m', m.buf.length + 2) ∧
      Layout m' c l a (attrs ++ [(radiusAttrMessageAuthenticator, zeros md5MacLen)]) := by
  obtain ⟨m', hm', h'⟩ := h.addAttr radiusAttrMessageAuthenticator
    (by rw [zeros_length]; decide : (zeros md5MacLen).length ≤ radiusMaxAttrLen)
  refine ⟨m', ?_, h'⟩
  unfold Hostap.addMessageAuthenticator
  rw [hm']
  rfl

theorem Layout.length_msgAuth {m₀ : RadiusMsg} {c₀ l₀ a₀ mac : Bytes} (h₀ : Layout m₀ c₀ l₀ a₀ attrs)
    (h : Layout m c l a (attrs ++ [(radiusAttrMessageAuthenticator, mac)]))
    (hmac : mac.length = md5MacLen) : m.buf.length = m₀.buf.length + 18 := by
  rw [h.length, h₀.length, Tlv.encodeAll_append, length_append, Tlv.encodeAll_cons,
    length_append, Tlv.encode_length, hmac]
  rfl

theorem Layout.finishAcct (h : Layout m c l a attrs) (lib : Md5Lib) (secret : Bytes)
    (hmax : m.buf.length ≤ 0xffff) :
    Received (radiusMsgFinishAcct lib secret m) attrs (eapOf attrs) ∧
      radiusMsgVerifyAcctReq lib secret (radiusMsgFinishAcct lib secret m) = true := by
  have h₁ := h.setLength.setAuthenticator (zeros_length md5MacLen)
  have h₂ := h₁.setAuthenticator (lib.md5_length
    ((m.setLength.setAuthenticator (zeros md5MacLen)).buf ++ secret))
  have hlen := h₂.length.trans h.length.symm
  refine ⟨h₂.received (by rw [hlen]) (by rw [hlen]; exact hmax), ?_⟩
  have hauth := h₂.parts.2.2
  unfold radiusMsgVerifyAcctReq radiusMsgFinishAcct
  simp only
  rw [hauth, h₂.response, h₁.buf]
  simp

theorem Layout.finishAcctResp (h : Layout m c l a attrs) (lib : Md5Lib) (secret : Bytes)
    (req : Authenticator) (hmax : m.buf.length ≤ 0xffff) :
    Received (radiusMsgFinishAcctResp lib secret req.val m) attrs (eapOf attrs) ∧
      radiusMsgVerify lib secret (some req.val) false
        (radiusMsgFinishAcctResp lib secret req.val m) = some true := by
  have h₁ := h.setLength.setAuthenticator req.property
  have h₂ := h₁.setAuthenticator (lib.md5_length
    ((m.setLength.setAuthenticator req.val).buf ++ secret))
  have hlen := h₂.length.trans h.length.symm
  refine ⟨h₂.received (by rw [hlen]) (by rw [hlen]; exact hmax), ?_⟩
  have hauth := h₂.parts.2.2
  unfold radiusMsgVerify radiusMsgFinishAcctResp
  simp only
  rw [hauth, h₂.response, h₁.buf]
  simp

theorem Layout.finish (h : Layout m c l a attrs) (lib : Md5Lib) (secret : Bytes)
    (hnone : ∀ x ∈ attrs, x.1 ≠ radiusAttrMessageAuthenticator) (hmax : m.buf.length + 18 ≤ 0xffff) :
    ∃ fin mac, radiusMsgFinish lib (some secret) m = some (true, fin) ∧
      Received fin (attrs ++ [(radiusAttrMessageAuthenticator, mac)]) (eapOf attrs) ∧
      radiusMsgVerifyMsgAuth lib secret none fin = some true := by
  obtain ⟨m₁, hm₁, h₁⟩ := h.addMessageAuthenticator
  have h₂ := h₁.setLength
  have hpos : m.buf.length + 2 =
      radiusHdrLen + (Tlv.encodeAll radiusAttrFormat attrs).length + 2 := by rw [h.length]
  generalize hmac : hmacMd5 lib secret m₁.setLength.buf = mac
  have hmacLen : mac.length = md5MacLen := by rw [← hmac, hmacMd5_length]
  have h₃ := h₂.setLast mac (by rw [zeros_length, hmacLen]) hpos
  have hlen := h.length_msgAuth h₃ hmacLen
  have hlen₁ := h.length_msgAuth h₁ (zeros_length _)
  refine ⟨_, mac, ?_, h₃.received_msgAuth (by rw [hlen, hlen₁]) (by rw [hlen]; exact hmax), ?_⟩
  · unfold radiusMsgFinish
    rw [hm₁]
    simp only [hmac]
    rw [decide_eq_true (by rw [hlen]; exact hmax)]
  · rw [h₃.verifyMsgAuth lib hnone hmacLen secret none (by simp), ← hmac, h₂.buf]
    simp

theorem Layout.finishSrv (h : Layout m c l a attrs) (lib : Md5Lib) (secret : Bytes)
    (req : Authenticator) (hnone : ∀ x ∈ attrs, x.1 ≠ radiusAttrMessageAuthenticator)
    (hmax : m.buf.length + 18 ≤ 0xffff) :
    ∃ fin mac, radiusMsgFinishSrv lib secret req.val m = some (true, fin) ∧
      Received fin (attrs ++ [(radiusAttrMessageAuthenticator, mac)]) (eapOf attrs) ∧
      radiusMsgVerify lib secret (some req.val) true fin = some true := by
  obtain ⟨m₁, hm₁, h₁⟩ := h.addMessageAuthenticator
  have h₂ := h₁.setLength.setAuthenticator req.property
  have hpos : m.buf.length + 2 =
      radiusHdrLen + (Tlv.encodeAll radiusAttrFormat attrs).length + 2 := by rw [h.length]
  generalize hmac : hmacMd5 lib secret (m₁.setLength.setAuthenticator req.val).buf = mac
  have hmacLen : mac.length = md5MacLen := by rw [← hmac, hmacMd5_length]
  have h₃ := h₂.setLast mac (by rw [zeros_length, hmacLen]) hpos
  generalize hm₃ : RadiusMsg.mk (overwrite (m.buf.length + 2) mac
    (m₁.setLength.setAuthenticator req.val).buf) (m₁.setLength.setAuthenticator req.val).attrPos = m₃
    at h₃
  have h₄ := h₃.setAuthenticator (lib.md5_length
    (m₃.buf.take 4 ++ req.val ++ m₃.buf.drop radiusHdrLen ++ secret))
  have hlen := h.length_msgAuth h₄ hmacLen
  have hlen₁ := h.length_msgAuth h₁ (zeros_length _)
  refine ⟨_, mac, ?_, h₄.received_msgAuth (by rw [hlen, hlen₁]) (by rw [hlen]; exact hmax), ?_⟩
  · unfold radiusMsgFinishSrv
    rw [hm₁]
    have hbuf₃ : overwrite (m.buf.length + 2) mac (m₁.setLength.setAuthenticator req.val).buf =
        m₃.buf := by rw [← hm₃]
    simp only [hmac, hm₃]
    rw [hbuf₃, decide_eq_true (by rw [hlen]; exact hmax)]
  · unfold radiusMsgVerify
    simp only
    rw [h₄.verifyMsgAuth lib hnone hmacLen secret (some req.val) (by
      intro r hr
      cases hr
      exact req.property), h₄.parts.2.2, h₄.response, h₃.response, ← hmac, h₂.buf]
    simp

end Agreement

/-- Sender and receiver of a message agree. Whatever is added to a message, the receiver of the
finished buffer finds the same attributes in the same order and the same EAP data, and its check
accepts the message: a response to an access request, an accounting request, a response to one, and
an access request. -/
theorem radius_message_agreement (lib : Md5Lib) (code identifier : UInt8) (calls : List RadiusCall)
    (random req : Authenticator) (secret : Bytes) (hcalls : ∀ call ∈ calls, call.NoMsgAuth) :
    let m := radiusMsgMakeAuthenticator random (radiusMsgBuild code identifier calls)
    let attrs := calls.flatMap RadiusCall.attrs
    let eap := calls.flatMap RadiusCall.eap
    (m.buf.length + 18 ≤ 65535 → ∃ fin mac, radiusMsgFinishSrv lib secret req.val m = some (true, fin) ∧
      Received fin (attrs ++ [(radiusAttrMessageAuthenticator, mac)]) eap ∧
      radiusMsgVerify lib secret (some req.val) true fin = some true) ∧
    (m.buf.length ≤ 65535 → Received (radiusMsgFinishAcct lib secret m) attrs eap ∧
      radiusMsgVerifyAcctReq lib secret (radiusMsgFinishAcct lib secret m) = true) ∧
    (m.buf.length ≤ 65535 → Received (radiusMsgFinishAcctResp lib secret req.val m) attrs eap ∧
      radiusMsgVerify lib secret (some req.val) false
        (radiusMsgFinishAcctResp lib secret req.val m) = some true) ∧
    (m.buf.length + 18 ≤ 65535 → ∃ fin mac, radiusMsgFinish lib (some secret) m = some (true, fin) ∧
      Received fin (attrs ++ [(radiusAttrMessageAuthenticator, mac)]) eap ∧
      radiusMsgVerifyMsgAuth lib secret none fin = some true) := by
  intro m attrs eap
  have h : Layout m [code, identifier] (zeros 2) random.val attrs :=
    (layout_build code identifier calls).setAuthenticator random.property
  have heap : eap = eapOf attrs := (eapOf_calls calls).symm
  have hnone : ∀ x ∈ attrs, x.1 ≠ radiusAttrMessageAuthenticator := by
    intro x hx
    obtain ⟨call, hcall, hmem⟩ := mem_flatMap.1 hx
    exact call.attrs_type (hcalls call hcall) x hmem
  rw [heap]
  exact ⟨h.finishSrv lib secret req hnone, h.finishAcct lib secret, h.finishAcctResp lib secret req,
    h.finish lib secret hnone⟩

theorem radius_message_agreement_small :
    ∃ fin mac, radiusMsgFinishSrv md5Internal [0x73] (zeros 16)
        (radiusMsgMakeAuthenticator ⟨zeros 16, rfl⟩
          (radiusMsgBuild 2 7 [.addAttr 1 [0x61, 0x62], .addEap [3, 7, 0, 4]])) = some (true, fin) ∧
      Received fin [(1, [0x61, 0x62]), (79, [3, 7, 0, 4]), (80, mac)] [3, 7, 0, 4] ∧
      radiusMsgVerify md5Internal [0x73] (some (zeros 16)) true fin = some true := by
  obtain ⟨hsrv, _⟩ := radius_message_agreement md5Internal 2 7
    [.addAttr 1 [0x61, 0x62], .addEap [3, 7, 0, 4]] ⟨zeros 16, rfl⟩ ⟨zeros 16, rfl⟩ [0x73]
    (by decide)
  exact hsrv (by decide)

end Hostap
