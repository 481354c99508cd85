import Hostap.Lib.Feed
import Hostap.Wps.HttpHdr

/-!
# Reading an HTTP message

`httpread_read_handler()` (`wps/httpread.c`), which is called when there is something to read. What `read()`
gives it is its argument: nothing at the end of the connection. A run is a sequence of such calls up to the
first event.

`bbp` is always `body + body_nbytes`, so that the octets of the body are the list `body`; an octet that is
looked at from `bbp` backwards has to be there, and one that is written has to be within `body_alloc_nbytes`.
-/

namespace Hostap

open Octets Output Common Bounded

/-- `HTTPREAD_READBUF_SIZE`. -/
abbrev httpreadReadbufSize : Nat := 1024

/-- `HTTPREAD_BODYBUF_DELTA`. -/
abbrev httpreadBodybufDelta : Nat := 4096

/-- How `httpread_read_handler()` ends: at `get_more`, with `HTTPREAD_EVENT_ERROR` or with
`HTTPREAD_EVENT_FILE_READY`. -/
inductive HttpreadNext
  | getMore
  | bad
  | gotFile
  deriving DecidableEq

namespace Httpread

/-! ## The header -/

def hdrComplete (hdr : Bytes) : Bool := 4 ≤ hdr.length && hdr.drop (hdr.length - 4) == [0x0d, 0x0a, 0x0d, 0x0a]

/-- How the header is left. -/
inductive HdrNext
  | more
  | tooLong
  | complete (rbp : Bytes)

def readHdr (h : Httpread) : Bytes → Except Stop (Httpread × HdrNext)
  | [] => .ok (h, .more)
  | c :: rbp =>
    if h.hdr.length = httpreadHeaderMaxSize then .ok (h, .tooLong)
    -- the octet, and the NUL behind it when the header is complete
    else if httpreadHeaderMaxSize < h.hdr.length + 1 then .error .outside
    else
      let h := { h with hdr := h.hdr ++ [c] }
      if hdrComplete h.hdr then .ok ({ h with gotHdr := true }, .complete rbp) else readHdr h rbp

def hasNoBody (h : Httpread) : Except Stop Bool := do
  if ← strnEq toLower 9 h.hdrArray (cText "SUBSCRIBE") then return true
  else if ← strnEq toLower 11 h.hdrArray (cText "UNSUBSCRIBE") then return true
  else if ← strnEq toLower 4 h.hdrArray (cText "HEAD") then return true
  else strnEq toLower 3 h.hdrArray (cText "GET")

/-! ## The body -/

/-- `new_alloc_nbytes`: one step more, or the whole body at once where its length is known. -/
def newAlloc (h : Httpread) : Int :=
  let alloc := toInt (h.bodyAlloc + httpreadBodybufDelta)
  if h.gotContentLength ∧ alloc < toInt (h.contentLength + 1) then toInt (h.contentLength + 1) else alloc

/-- Room for `nread` octets of the body and a NUL. -/
def makeRoom (h : Httpread) (nread : Nat) : Option Httpread :=
  if (h.bodyAlloc : Int) < toInt (h.body.length + nread + 1) then
    if h.maxBytes ≤ h.body.length then none
    else if newAlloc h < h.bodyAlloc ∨ toInt (h.maxBytes + httpreadBodybufDelta) < newAlloc h then none
    else some { h with bodyAlloc := (newAlloc h).toNat }
  else some h

/-- `bbp[-2]` and `bbp[-1]` are CR and LF. -/
def endsLine (body : Bytes) : Except Stop Bool :=
  if body.length < 2 then .error .outside else .ok (body.drop (body.length - 2) == [0x0d, 0x0a])

/-- `strtoul()` to the base of 16 on a text that starts with a digit. The text has an end. -/
def strtoulHex (cbp : Bytes) : Except Stop Int :=
  let digits := if hasHexPrefix cbp then cbp.drop 2 else cbp
  if digits.all isXdigit then .error .outside else .ok (min (2 ^ 64 - 1) (digitsIn 16 0 digits).1)

/-- What the copy loop goes on with. -/
inductive BodyNext
  | copy
  | trailer
  | bad
  | gotFile

/-- A chunk of this size. The line of its header is thrown away. -/
def startChunk (h : Httpread) (size : Int) : Httpread × BodyNext :=
  if size < 0 ∨ h.maxBytes < size then ({ h with chunkSize := size }, .bad)
  else if size = 0 then
    ({ h with chunkSize := size, body := h.body.take h.chunkStart, inTrailer := true }, .trailer)
  else ({ h with chunkSize := size, body := h.body.take h.chunkStart, inChunkData := true }, .copy)

def chunkHeader (h : Httpread) : Except Stop (Httpread × BodyNext) := do
  let cbp := h.body.drop h.chunkStart
  let c ← peek cbp
  if ¬ isXdigit c then return (h, .bad)
  else do
    let value ← strtoulHex cbp
    return startChunk h (toInt value)

def chunkEnd (h : Httpread) : Httpread :=
  let body := h.body.take (h.body.length - 2)
  { h with body := body, chunkStart := body.length, inChunkData := false, chunkSize := 0 }

def bodyCheck (h : Httpread) : Except Stop (Httpread × BodyNext) :=
  if h.chunked ∧ ¬ h.inChunkData then
    -- the start of the line is not behind its end
    if h.body.length < h.chunkStart + 2 then .ok (h, .copy)
    else do
      let complete ← endsLine h.body
      if complete then chunkHeader h else return (h, .copy)
  else if h.chunked then
    if (h.body.length : Int) - h.chunkStart ≠ toInt (h.chunkSize + 2) then .ok (h, .copy)
    else do
      let complete ← endsLine h.body
      if complete then return (chunkEnd h, .copy) else return (h, .bad)
  else if h.gotContentLength ∧ h.contentLength ≤ h.body.length then .ok ({ h with gotBody := true }, .gotFile)
  else .ok (h, .copy)

/-- `ncopy`, and one octet of a chunk header. -/
def copyCount (h : Httpread) (nread : Nat) : Int :=
  if h.chunked ∧ h.inChunkData then toInt (h.chunkStart + h.chunkSize + 2 - h.body.length)
  else if h.chunked then 1
  else if h.gotContentLength then toInt (h.contentLength - h.body.length)
  else nread

def copyLoop : Nat → Httpread → Bytes → Except Stop (Httpread × Bytes × BodyNext)
  | turns, h, rbp => do
    let r ← bodyCheck h
    match r.2 with
    | .trailer => return (r.1, rbp, .trailer)
    | .bad => return (r.1, rbp, .bad)
    | .gotFile => return (r.1, rbp, .gotFile)
    | .copy =>
      if rbp = [] then return (r.1, rbp, .copy)
      else
        let ncopy := copyCount r.1 rbp.length
        if ncopy < 0 then return (r.1, rbp, .bad)
        else
          let n := min ncopy.toNat rbp.length
          if r.1.bodyAlloc < r.1.body.length + n then .error .outside
          else match turns with
            | 0 => .error .running
            | turns + 1 => copyLoop turns { r.1 with body := r.1.body ++ rbp.take n } (rbp.drop n)

/-! ## The trailer -/

/-- One octet of the trailer; `none` at the end of the empty line. -/
def trailerNext (s : TrailerState) (c : UInt8) : Option TrailerState :=
  match s with
  | .lineBegin => if c = 0x0d then some .emptyCr else some .nonempty
  | .emptyCr => if c = 0x0a then none else some .nonempty
  | .nonempty => if c = 0x0d then some .nonemptyCr else some .nonempty
  | .nonemptyCr => if c = 0x0a then some .lineBegin else some .nonempty

def trailerLoop (h : Httpread) : Bytes → Httpread × HttpreadNext
  | [] => (h, .getMore)
  | c :: rbp =>
    match trailerNext h.trailerState c with
    | none => ({ h with trailerState := .lineBegin, inTrailer := false, gotBody := true }, .gotFile)
    | some s => trailerLoop { h with trailerState := s } rbp

/-! ## The handler -/

/-- The NUL behind the body at `got_file`. -/
def terminate (r : Httpread × HttpreadNext) : Except Stop (Httpread × HttpreadNext) :=
  if r.2 = .gotFile ∧ r.1.bodyAlloc ≠ 0 ∧ r.1.bodyAlloc ≤ r.1.body.length then .error .outside else .ok r

def readTrailer (h : Httpread) (rbp : Bytes) : Httpread × HttpreadNext :=
  if h.chunked ∧ h.inTrailer then trailerLoop h rbp else (h, .getMore)

def afterCopy (r : Httpread × Bytes × BodyNext) : Httpread × HttpreadNext :=
  match r.2.2 with
  | .bad => (r.1, .bad)
  | .gotFile => (r.1, .gotFile)
  | _ => readTrailer r.1 r.2.1

def addBytes (h : Httpread) (rbp : Bytes) : Except Stop (Httpread × HttpreadNext) :=
  (makeRoom h rbp.length).elim (.ok (h, .bad)) fun h => (copyLoop rbp.length h rbp).map afterCopy

def readBody (h : Httpread) (rbp : Bytes) : Except Stop (Httpread × HttpreadNext) := do
  let noBody ← hasNoBody h
  if noBody then return ({ h with gotBody := true }, .gotFile)
  else if rbp = [] then return (h, .getMore)
  else if h.gotBody then return readTrailer h rbp
  else addBytes h rbp

/-- More of the header, and of the body when it is complete. -/
def readMore (h : Httpread) (rbp : Bytes) : Except Stop (Httpread × HttpreadNext) :=
  if h.gotHdr then readBody h rbp
  else do
    let r ← readHdr h rbp
    match r.2 with
    | .more => return (r.1, .getMore)
    | .tooLong => return (r.1, .bad)
    | .complete rbp => do
      let a ← hdrAnalyze r.1
      if ¬ a.2 then return (a.1, .bad)
      else if a.1.maxBytes = 0 then return (a.1, .gotFile)
      else if a.1.gotContentLength ∧ a.1.contentLength = 0 then return (a.1, .gotFile)
      else readBody a.1 rbp

def readEof (h : Httpread) : Httpread × HttpreadNext :=
  if ¬ h.gotHdr then (h, .bad)
  else if h.chunked ∨ h.gotContentLength then (h, .bad)
  else ({ h with gotBody := true }, .gotFile)

/-- `httpread_read_handler()`, where `read()` fails or gives octets. -/
def readHandler (h : Httpread) : Option Bytes → Except Stop (Httpread × HttpreadNext)
  | none => .ok (h, .bad)
  | some [] => terminate (readEof h)
  | some (c :: rbp) => do
    let r ← readMore h (c :: rbp)
    terminate r

/-- What `read()` puts into `readbuf`. -/
structure ReadBuf where
  octets : Bytes
  le : octets.length ≤ httpreadReadbufSize

def readOne (h : Httpread) (read : Option ReadBuf) : Except Stop (Httpread × HttpreadNext) :=
  readHandler h (read.map ReadBuf.octets)

def run (h : Httpread) (reads : List (Option ReadBuf)) : Except Stop (Httpread × HttpreadNext) :=
  Feed.feed readOne .getMore h reads

end Httpread

end Hostap
