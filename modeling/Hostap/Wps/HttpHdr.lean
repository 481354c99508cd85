import Hostap.Lib.Bounded
import Hostap.Utils.Common

/-!
# The header of an HTTP message

`httpread_hdr_analyze()` (`wps/httpread.c`). A pointer into the header is the rest of the array `hdr` from there
on; to read behind the array is `Stop.outside`, and so is to write behind what was allocated for the URI. A loop
that is still running when its turns are used up is `Stop.running`.

Functions return what is changed in `struct httpread` and whether they succeed. Memory is there.
-/

namespace Hostap

open Octets Output Common Bounded

/-- `HTTPREAD_HEADER_MAX_SIZE`. -/
abbrev httpreadHeaderMaxSize : Nat := 4096

/-- `enum httpread_hdr_type`. -/
inductive HttpreadHdrType
  | unknown
  | reply
  | get
  | head
  | post
  | put
  | delete
  | trace
  | connect
  | notify
  | mSearch
  | mPost
  | subscribe
  | unsubscribe
  deriving DecidableEq

/-- `enum trailer_state`. -/
inductive TrailerState
  | lineBegin
  | emptyCr
  | nonempty
  | nonemptyCr
  deriving DecidableEq

/-- `struct httpread` without the socket, the callback and the timeout. `hdr_nbytes` and `body_nbytes` are the
lengths of `hdr` and `body`; there is a body buffer if `body_alloc_nbytes` is not zero. -/
structure Httpread where
  maxBytes : Int
  gotHdr : Bool
  hdr : Bytes
  hdrType : HttpreadHdrType
  version : Bool
  replyCode : Int
  gotContentLength : Bool
  contentLength : Int
  chunked : Bool
  uri : Option Bytes
  gotBody : Bool
  body : Bytes
  bodyAlloc : Nat
  inChunkData : Bool
  chunkStart : Nat
  chunkSize : Int
  inTrailer : Bool
  trailerState : TrailerState

namespace Httpread

/-- `httpread_create()`. -/
def create (maxBytes : Int) : Httpread where
  maxBytes := maxBytes
  gotHdr := false
  hdr := []
  hdrType := .unknown
  version := false
  replyCode := 0
  gotContentLength := false
  contentLength := 0
  chunked := false
  uri := none
  gotBody := false
  body := []
  bodyAlloc := 0
  inChunkData := false
  chunkStart := 0
  chunkSize := 0
  inTrailer := false
  trailerState := .lineBegin

/-! ## Text -/

def cText (s : String) : Bytes := ascii s ++ [0]

/-- `isgraph()` of the C locale. -/
def isGraph (c : UInt8) : Bool := 0x21 ≤ c && c ≤ 0x7e

/-- `isxdigit()`. -/
def isXdigit (c : UInt8) : Bool := (hex2num c).isSome

def isBlank (c : UInt8) : Bool := c == 0x20 || c == 0x09

def toLower (c : UInt8) : UInt8 := if 0x41 ≤ c && c ≤ 0x5a then c + 0x20 else c

/-- `*hbp`. -/
def peek : Bytes → Except Stop UInt8
  | [] => .error .outside
  | c :: _ => .ok c

/-- An octet that is read only if what is before it in a test holds. -/
def peekIf (c : Bool) (hbp : Bytes) : Except Stop UInt8 := if c then peek hbp else .ok 0

/-- The loops `while (isgraph(*hbp)) hbp++` and their like. -/
def skipWhile (p : UInt8 → Bool) : Bytes → Except Stop Bytes
  | [] => .error .outside
  | c :: hbp => if p c then skipWhile p hbp else .ok (c :: hbp)

def skipLine : Bytes → Except Stop Bytes
  | [] => .error .outside
  | c :: hbp => if c = 0 then .ok (c :: hbp) else if c = 0x0a then .ok hbp else skipLine hbp

/-- `word_eq()`. -/
def wordEq : Bytes → Bytes → Except Stop Bool
  | c₁ :: s₁, c₂ :: s₂ =>
    let end₁ := !isGraph (toLower c₁)
    let end₂ := !isGraph (toLower c₂)
    if end₁ || end₂ || toLower c₁ != toLower c₂ then .ok (end₁ && end₂) else wordEq s₁ s₂
  | _, _ => .error .outside

/-- `strncmp()` finds two strings equal, or `strncasecmp()` where `f` is `toLower`. -/
def strnEq (f : UInt8 → UInt8) : Nat → Bytes → Bytes → Except Stop Bool
  | 0, _, _ => .ok true
  | n + 1, c₁ :: s₁, c₂ :: s₂ =>
    if f c₁ ≠ f c₂ then .ok false else if c₁ = 0 then .ok true else strnEq f n s₁ s₂
  | _, _, _ => .error .outside

/-- `atol()`: the text has an end. -/
def atol (hbp : Bytes) : Except Stop Int := if 0 ∈ hbp then .ok (strtol hbp) else .error .outside

/-- What is stored in an `int`. -/
def toInt (n : Int) : Int := n.bmod (2 ^ 32)

/-! ## Options -/

/-- `Content-Length`. -/
def contentLengthOption (h : Httpread) (hbp : Bytes) : Except Stop (Httpread × Bool) := do
  let hbp ← skipWhile isGraph hbp
  let hbp ← skipWhile isBlank hbp
  let c ← peek hbp
  if ¬ isDigit c then return (h, false)
  else do
    let value ← atol hbp
    let h := { h with contentLength := toInt value }
    if h.contentLength < 0 ∨ h.maxBytes < h.contentLength then return (h, false)
    else return ({ h with gotContentLength := true }, true)

/-- `Transfer-Encoding`. -/
def transferEncodingOption (h : Httpread) (hbp : Bytes) : Except Stop (Httpread × Bool) := do
  let hbp ← skipWhile isGraph hbp
  let hbp ← skipWhile isBlank hbp
  if ← wordEq hbp (cText "CHUNKED") then return ({ h with chunked := true, inChunkData := false }, true)
  else return (h, true)

/-- `httpread_hdr_option_analyze()`. -/
def hdrOptionAnalyze (h : Httpread) (hbp : Bytes) : Except Stop (Httpread × Bool) := do
  if ← wordEq hbp (cText "CONTENT-LENGTH:") then contentLengthOption h hbp
  else if ← wordEq hbp (cText "TRANSFER_ENCODING:") then transferEncodingOption h hbp
  else if ← wordEq hbp (cText "TRANSFER-ENCODING:") then transferEncodingOption h hbp
  else return (h, true)

/-! ## The first line -/

def requestWords : List (Bytes × HttpreadHdrType) :=
  [(cText "GET", .get), (cText "HEAD", .head), (cText "POST", .post), (cText "PUT", .put),
    (cText "DELETE", .delete), (cText "TRACE", .trace), (cText "CONNECT", .connect), (cText "NOTIFY", .notify),
    (cText "M-SEARCH", .mSearch), (cText "M-POST", .mPost), (cText "SUBSCRIBE", .subscribe),
    (cText "UNSUBSCRIBE", .unsubscribe)]

def requestType (hbp : Bytes) : List (Bytes × HttpreadHdrType) → Except Stop HttpreadHdrType
  | [] => .ok .unknown
  | (word, type) :: words => do
    if ← wordEq hbp word then return type else requestType hbp words

/-- Behind `HTTP/`: `1.` and a digit that is not zero. -/
def isNewVersion (hbp : Bytes) : Except Stop Bool := do
  let a ← peek hbp
  if a ≠ 0x31 then return false
  else do
    let b ← peek (hbp.drop 1)
    if b ≠ 0x2e then return false
    else do
      let c ← peek (hbp.drop 2)
      return isDigit c && c != 0x30

/-- The copy of the URI, with `left` octets to come and room for `room`. After `%` and two digits `skip` octets
are behind the pointer already. -/
def translateUri : (skip left room : Nat) → (rawuri : Bytes) → Except Stop Bytes
  | _, 0, room, _ => if room = 0 then .error .outside else .ok []
  | skip + 1, left + 1, room, rawuri => translateUri skip left room (rawuri.drop 1)
  | 0, left + 1, room, rawuri => do
    let c ← peek rawuri
    if room = 0 then .error .outside
    else do
      let a ← peekIf (c == 0x25) (rawuri.drop 1)
      let b ← peekIf (isXdigit a) (rawuri.drop 2)
      let value := if isXdigit a ∧ isXdigit b then UInt8.ofNat ((hex2byte [a, b]).getD 0) else c
      let rest ← translateUri (if isXdigit a ∧ isXdigit b then 2 else 0) left (room - 1) (rawuri.drop 1)
      return value :: rest

/-- A first line that starts with `HTTP/`, and what is behind the last thing that is read of it. -/
def replyLine (h : Httpread) (hbp : Bytes) : Except Stop (Httpread × Option Bytes) := do
  let hbp := hbp.drop 5
  let newVersion ← isNewVersion hbp
  let h := { h with hdrType := .reply, version := h.version || newVersion }
  let hbp ← skipWhile isGraph hbp
  let hbp ← skipWhile isBlank hbp
  let c ← peek hbp
  if ¬ isDigit c then return (h, none)
  else do
    let code ← atol hbp
    return ({ h with replyCode := toInt code }, some hbp)

def requestLine (h : Httpread) (hbp : Bytes) : Except Stop (Httpread × Option Bytes) := do
  let type ← requestType hbp requestWords
  let hbp ← skipWhile isGraph hbp
  let rawuri ← skipWhile isBlank hbp
  let hbp ← skipWhile isGraph rawuri
  let left := rawuri.length - hbp.length
  let uri ← translateUri 0 left (left + 1) rawuri
  let h := { h with hdrType := type, uri := some uri }
  let hbp ← skipWhile isBlank hbp
  if ← strnEq id 5 hbp (cText "HTTP/") then do
    let newVersion ← isNewVersion (hbp.drop 5)
    return ({ h with version := h.version || newVersion }, some (hbp.drop 5))
  else return (h, some hbp)

def firstLine (h : Httpread) (hbp : Bytes) : Except Stop (Httpread × Option Bytes) := do
  if ← strnEq id 5 hbp (cText "HTTP/") then replyLine h hbp else requestLine h hbp

/-! ## The whole header -/

def isEmptyLine (hbp : Bytes) : Except Stop Bool := do
  let a ← peek hbp
  if a = 0x0a then return true
  else if a ≠ 0x0d then return false
  else do
    let b ← peek (hbp.drop 1)
    return b == 0x0a

def optionLines : Nat → Httpread → Bytes → Except Stop (Httpread × Bool)
  | 0, _, _ => .error .running
  | turns + 1, h, hbp => do
    if ← isEmptyLine hbp then return (h, true)
    else do
      let c ← peek hbp
      if ¬ isGraph c then return (h, false)
      else do
        let r ← hdrOptionAnalyze h hbp
        if ¬ r.2 then return (r.1, false)
        else do
          let hbp ← skipLine hbp
          optionLines turns r.1 hbp

def bodyLimit (h : Httpread) : Int :=
  match h.hdrType with
  | .reply => if h.replyCode ≠ 200 then 0 else h.maxBytes
  | .get | .head => if ¬ h.chunked ∧ ¬ h.gotContentLength then 0 else h.maxBytes
  | _ => h.maxBytes

def expectBody (h : Httpread) : Httpread :=
  let h := { h with gotContentLength := h.gotContentLength && !h.chunked }
  { h with maxBytes := bodyLimit h }

/-- `hdr` as an array. -/
def hdrArray (h : Httpread) : Bytes := h.hdr ++ zeros (httpreadHeaderMaxSize + 1 - h.hdr.length)

/-- `httpread_hdr_analyze()`. -/
def hdrAnalyze (h : Httpread) : Except Stop (Httpread × Bool) := do
  let hbp := h.hdrArray
  let c ← peek hbp
  let h := { h with hdrType := .unknown }
  if ¬ isGraph c then return (h, false)
  else do
    let r ← firstLine h hbp
    match r.2 with
    | none => return (r.1, false)
    | some hbp => do
      let hbp ← skipLine hbp
      let r ← optionLines (hbp.length + 1) r.1 hbp
      if r.2 then return (expectBody r.1, true) else return (r.1, false)

end Httpread

end Hostap
