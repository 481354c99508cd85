import Hostap.Wps.HttpBounds

/-!
# The reader, octet by octet

What `httpread_read_handler()` does with what it reads is here said for one octet at a time (`octet`), for
states in which a body has as much room as there is below the limit. This is what the calls do that neither
begin in the trailer nor need more room than there may be (`readSome_refines`): the copy loop begins a call in
the trailer with the tests of a chunk header, and how much room a call asks for depends on how much it has read.
-/

namespace Hostap

open Octets Output Common Bounded Feed List

namespace Httpread

abbrev sized (n : Nat) (h : Httpread) : Httpread := { h with bodyAlloc := n }

/-! ## The machine -/

def Refused (h : Httpread) : Prop := h.maxBytes ≤ 0 ∨ 2 ^ 31 ≤ h.maxBytes + httpreadBodybufDelta

instance (h : Httpread) : Decidable (Refused h) := inferInstanceAs (Decidable (_ ∨ _))

def afterHeader (h : Httpread) : Except Stop (Httpread × HttpreadNext) := do
  let a ← hdrAnalyze h
  if ¬ a.2 then return (a.1, .bad)
  else if a.1.maxBytes = 0 then return (a.1, .gotFile)
  else if a.1.gotContentLength ∧ a.1.contentLength = 0 then return (a.1, .gotFile)
  else do
    let noBody ← hasNoBody a.1
    if noBody then return ({ a.1 with gotBody := true }, .gotFile) else return (a.1, .getMore)

def headerOctet (h : Httpread) (c : UInt8) : Except Stop (Httpread × HttpreadNext) :=
  if h.hdr.length = httpreadHeaderMaxSize then .ok (h, .bad)
  else
    let h := { h with hdr := h.hdr ++ [c] }
    if hdrComplete h.hdr then afterHeader { h with gotHdr := true } else .ok (h, .getMore)

def BodyNext.next : BodyNext → HttpreadNext
  | .copy | .trailer => .getMore
  | .bad => .bad
  | .gotFile => .gotFile

def bodyOctet (h : Httpread) (c : UInt8) : Except Stop (Httpread × HttpreadNext) :=
  if Refused h then .ok (h, .bad)
  else (bodyCheck { h with body := h.body ++ [c] }).map fun r => (r.1, r.2.next)

def trailerOctet (h : Httpread) (c : UInt8) : Httpread × HttpreadNext :=
  match trailerNext h.trailerState c with
  | none => ({ h with trailerState := .lineBegin, inTrailer := false, gotBody := true }, .gotFile)
  | some s => ({ h with trailerState := s }, .getMore)

def octet (h : Httpread) (c : UInt8) : Except Stop (Httpread × HttpreadNext) :=
  if ¬ h.gotHdr then headerOctet h c else if h.inTrailer then .ok (trailerOctet h c) else bodyOctet h c

/-! ## The tests of the copy loop -/

/-- All that the tests of the copy loop can do. -/
inductive Checked (h : Httpread) : Httpread × BodyNext → Prop
  | line (hchunked : h.chunked = true) (hdata : h.inChunkData = false)
      (hopen : h.body.length < h.chunkStart + 2 ∨ h.body.drop (h.body.length - 2) ≠ [0x0d, 0x0a]) :
      Checked h (h, .copy)
  | size (value : Int) (hchunked : h.chunked = true) (hdata : h.inChunkData = false)
      (hlen : h.chunkStart + 2 ≤ h.body.length) (hend : h.body.drop (h.body.length - 2) = [0x0d, 0x0a])
      (hvalue : strtoulHex (h.body.drop h.chunkStart) = .ok value) (hpos : 0 < toInt value)
      (hmax : toInt value ≤ h.maxBytes) :
      Checked h ({ h with chunkSize := toInt value, body := h.body.take h.chunkStart, inChunkData := true },
        .copy)
  | last (value : Int) (hchunked : h.chunked = true) (hdata : h.inChunkData = false)
      (hlen : h.chunkStart + 2 ≤ h.body.length) (hend : h.body.drop (h.body.length - 2) = [0x0d, 0x0a])
      (hvalue : strtoulHex (h.body.drop h.chunkStart) = .ok value) (hzero : toInt value = 0) :
      Checked h ({ h with chunkSize := toInt value, body := h.body.take h.chunkStart, inTrailer := true },
        .trailer)
  | data (hchunked : h.chunked = true) (hdata : h.inChunkData = true)
      (hopen : (h.body.length : Int) - h.chunkStart ≠ toInt (h.chunkSize + 2)) : Checked h (h, .copy)
  | chunk (hchunked : h.chunked = true) (hdata : h.inChunkData = true)
      (hfull : (h.body.length : Int) - h.chunkStart = toInt (h.chunkSize + 2)) (hlen : 2 ≤ h.body.length)
      (hend : h.body.drop (h.body.length - 2) = [0x0d, 0x0a]) : Checked h (chunkEnd h, .copy)
  | rest (hchunked : h.chunked = false) (hopen : h.gotContentLength = true → h.body.length < h.contentLength) :
      Checked h (h, .copy)
  | whole (hchunked : h.chunked = false) (hgot : h.gotContentLength = true)
      (hfull : h.contentLength ≤ h.body.length) : Checked h ({ h with gotBody := true }, .gotFile)
  | bad (size : Int) (hchunked : h.chunked = true) : Checked h ({ h with chunkSize := size }, .bad)

section

variable {h h' : Httpread} {r : Httpread × BodyNext}

theorem endsLine_ok {body : Bytes} {complete : Bool} (h : endsLine body = .ok complete) :
    2 ≤ body.length ∧ complete = (body.drop (body.length - 2) == [0x0d, 0x0a]) := by
  unfold endsLine at h
  split_ifs at h with hlen
  cases h
  exact ⟨not_lt.mp hlen, rfl⟩

theorem chunkHeader_checked (hchunked : h.chunked = true) (hdata : h.inChunkData = false)
    (hlen : h.chunkStart + 2 ≤ h.body.length) (hend : h.body.drop (h.body.length - 2) = [0x0d, 0x0a])
    (hr : chunkHeader h = .ok r) : Checked h r := by
  obtain ⟨c, -, hr⟩ := except_bind_ok hr
  split_ifs at hr with hdigit
  · obtain ⟨value, hvalue, hr⟩ := except_bind_ok hr
    cases hr
    unfold startChunk
    split_ifs with hrange hzero
    · exact .bad _ hchunked
    · exact .last value hchunked hdata hlen hend hvalue hzero
    · rw [not_or, not_lt, not_lt] at hrange
      have hpos : 0 < toInt value := lt_of_le_of_ne hrange.1 (Ne.symm hzero)
      exact .size value hchunked hdata hlen hend hvalue hpos hrange.2
  · cases hr
    exact .bad h.chunkSize hchunked

theorem bodyCheck_checked (hr : bodyCheck h = .ok r) : Checked h r := by
  unfold bodyCheck at hr
  by_cases hchunked : h.chunked = true
  · by_cases hdata : h.inChunkData = true
    · rw [if_neg fun hand => hand.2 hdata, if_pos hchunked] at hr
      by_cases hfull : (h.body.length : Int) - h.chunkStart = toInt (h.chunkSize + 2)
      · rw [if_neg (not_not.mpr hfull)] at hr
        obtain ⟨complete, hcomplete, hr⟩ := except_bind_ok hr
        obtain ⟨hlen, rfl⟩ := endsLine_ok hcomplete
        split_ifs at hr with hend
        · cases hr
          exact .chunk hchunked hdata hfull hlen (beq_iff_eq.mp hend)
        · cases hr
          exact .bad h.chunkSize hchunked
      · rw [if_pos hfull] at hr
        cases hr
        exact .data hchunked hdata hfull
    · have hno := Bool.eq_false_of_not_eq_true hdata
      rw [if_pos ⟨hchunked, hdata⟩] at hr
      by_cases hlen : h.body.length < h.chunkStart + 2
      · rw [if_pos hlen] at hr
        cases hr
        exact .line hchunked hno (.inl hlen)
      · rw [if_neg hlen] at hr
        obtain ⟨complete, hcomplete, hr⟩ := except_bind_ok hr
        obtain ⟨-, rfl⟩ := endsLine_ok hcomplete
        split_ifs at hr with hend
        · exact chunkHeader_checked hchunked hno (not_lt.mp hlen) (beq_iff_eq.mp hend) hr
        · cases hr
          exact .line hchunked hno (.inr fun heq => hend (beq_iff_eq.mpr heq))
  · rw [if_neg fun hand => hchunked hand.1, if_neg hchunked] at hr
    have hno := Bool.eq_false_of_not_eq_true hchunked
    split_ifs at hr with hfull
    · cases hr
      exact .whole hno hfull.1 hfull.2
    · cases hr
      exact .rest hno fun hgot => not_le.mp fun hle => hfull ⟨hgot, hle⟩

theorem Checked.frame (hr : Checked h r) :
    r.1 = { h with body := r.1.body, chunkStart := r.1.chunkStart, chunkSize := r.1.chunkSize,
                   inChunkData := r.1.inChunkData, inTrailer := r.1.inTrailer, gotBody := r.1.gotBody } := by
  cases hr <;> rfl

theorem startChunk_sized (n : Nat) (size : Int) :
    startChunk (sized n h) size = (sized n (startChunk h size).1, (startChunk h size).2) := by
  by_cases hrange : size < 0 ∨ h.maxBytes < size
  · rw [show startChunk h size = _ from if_pos hrange]
    exact if_pos hrange
  · rw [show startChunk h size = _ from if_neg hrange]
    by_cases hzero : size = 0
    · rw [if_pos hzero]
      exact (if_neg hrange).trans (if_pos hzero)
    · rw [if_neg hzero]
      exact (if_neg hrange).trans (if_neg hzero)

theorem chunkHeader_sized (n : Nat) :
    chunkHeader (sized n h) = (chunkHeader h).map fun r => (sized n r.1, r.2) := by
  unfold chunkHeader
  simp only [startChunk_sized]
  rcases peek (h.body.drop h.chunkStart) with e | c
  · rfl
  · simp only [bind, Except.bind]
    split_ifs
    · rcases strtoulHex (h.body.drop h.chunkStart) <;> rfl
    · rfl

theorem bodyCheck_sized (n : Nat) :
    bodyCheck (sized n h) = (bodyCheck h).map fun r => (sized n r.1, r.2) := by
  unfold bodyCheck
  rw [chunkHeader_sized]
  dsimp only [sized]
  split_ifs
  · rfl
  · rcases endsLine h.body with e | complete
    · rfl
    · cases complete <;> rfl
  · rfl
  · rcases endsLine h.body with e | complete
    · rfl
    · cases complete <;> rfl
  · rfl
  · rfl

end

/-! ## Octets that change nothing but the body -/

def Quiet (h : Httpread) : Prop := bodyCheck h = .ok (h, .copy)

section

variable {h h' : Httpread} {rbp : Bytes}

theorem quiet_line (hchunked : h.chunked = true) (hdata : h.inChunkData = false)
    (hlen : h.body.length < h.chunkStart + 2) : Quiet h := by
  unfold Quiet bodyCheck
  rw [if_pos ⟨hchunked, by simp [hdata]⟩, if_pos hlen]

theorem quiet_data (hchunked : h.chunked = true) (hdata : h.inChunkData = true)
    (hopen : (h.body.length : Int) - h.chunkStart ≠ toInt (h.chunkSize + 2)) : Quiet h := by
  unfold Quiet bodyCheck
  rw [if_neg fun hand => hand.2 hdata, if_pos hchunked, if_pos hopen]

theorem quiet_rest (hchunked : h.chunked = false)
    (hopen : h.gotContentLength = true → h.body.length < h.contentLength) : Quiet h := by
  unfold Quiet bodyCheck
  rw [if_neg (by simp [hchunked]), if_neg (by simp [hchunked]), if_neg fun hand => ?_]
  have hless := hopen hand.1
  omega

theorem Quiet.sized (hquiet : Quiet h) (n : Nat) : Quiet (sized n h) := by
  unfold Quiet
  rw [bodyCheck_sized, hquiet]
  rfl

theorem Checked.quiet {r : Httpread × BodyNext} (hlimit : ¬ Refused h) (hr : bodyCheck h = .ok r)
    (hmore : r.2.next = .getMore) : Quiet r.1 := by
  unfold Refused at hlimit
  rw [not_or, not_le, not_le] at hlimit
  simp only [httpreadBodybufDelta] at hlimit
  cases bodyCheck_checked hr with
  | line => exact hr
  | data => exact hr
  | rest => exact hr
  | bad => cases hmore
  | whole => cases hmore
  | size value hchunked hdata hlen hend hvalue hpos hmax =>
    refine quiet_data hchunked rfl ?_
    show ((h.body.take h.chunkStart).length : Int) - h.chunkStart ≠ toInt (toInt value + 2)
    rw [toInt_eq (by omega) (by omega), length_take]
    omega
  | last value hchunked hdata hlen hend hvalue hzero =>
    refine quiet_line hchunked hdata ?_
    show (h.body.take h.chunkStart).length < h.chunkStart + 2
    rw [length_take]
    omega
  | chunk hchunked hdata hfull hlen hend =>
    refine quiet_line hchunked rfl ?_
    show (h.body.take (h.body.length - 2)).length < (h.body.take (h.body.length - 2)).length + 2
    omega

end

/-! ## What holds after the header -/

/-- A body is read. -/
structure Core (h : Httpread) : Prop where
  gotHdr : h.gotHdr = true
  noBody : hasNoBody h = .ok false
  gotBody : h.gotBody = false
  quiet : Quiet h
  trailer : h.inTrailer = true → h.chunked = true ∧ h.inChunkData = false ∧ h.body.length ≤ h.chunkStart

section

variable {h h' : Httpread} {c : UInt8} {s : Bytes}

theorem Core.sized (hcore : Core h) (n : Nat) : Core (sized n h) where
  gotHdr := hcore.gotHdr
  noBody := hcore.noBody
  gotBody := hcore.gotBody
  quiet := hcore.quiet.sized n
  trailer := hcore.trailer

theorem octet_body (hgotHdr : h.gotHdr = true) (htrailer : h.inTrailer = false) (hlimit : ¬ Refused h) :
    octet h c = (bodyCheck { h with body := h.body ++ [c] }).map fun r => (r.1, r.2.next) := by
  unfold octet bodyOctet
  rw [if_neg (not_not.mpr hgotHdr), if_neg (by simp [htrailer]), if_neg hlimit]

theorem octet_refused (hgotHdr : h.gotHdr = true) (htrailer : h.inTrailer = false) (hlimit : Refused h) :
    octet h c = .ok (h, .bad) := by
  unfold octet bodyOctet
  rw [if_neg (not_not.mpr hgotHdr), if_neg (by simp [htrailer]), if_pos hlimit]

theorem octet_trailer (hgotHdr : h.gotHdr = true) (htrailer : h.inTrailer = true) :
    octet h c = .ok (trailerOctet h c) := by
  unfold octet
  rw [if_neg (not_not.mpr hgotHdr), if_pos htrailer]

theorem Checked.core {r : Httpread × BodyNext} (hcore : Core h) (htrailer : h.inTrailer = false)
    (hlimit : ¬ Refused h) (hr : bodyCheck { h with body := s } = .ok r) (hmore : r.2.next = .getMore) :
    Core r.1 := by
  have hchecked := bodyCheck_checked hr
  have hquiet : Quiet r.1 := Checked.quiet (h := { h with body := s }) hlimit hr hmore
  have hframe := hchecked.frame
  have hnoTrailer : ∀ {P : Prop}, h.inTrailer = true → P := fun hyes => by
    rw [htrailer] at hyes
    cases hyes
  refine ⟨?_, ?_, ?_, hquiet, ?_⟩
  · rw [hframe]
    exact hcore.gotHdr
  · rw [hframe]
    exact hcore.noBody
  · cases hchecked with
    | whole => cases hmore
    | _ => exact hcore.gotBody
  · cases hchecked with
    | last value hchunked hdata =>
      refine fun _ => ⟨hchunked, hdata, ?_⟩
      exact (length_take_le _ _)
    | whole => cases hmore
    | _ => exact hnoTrailer

theorem octet_core (hcore : Core h) (hoctet : octet h c = .ok (h', .getMore)) : Core h' := by
  by_cases htrailer : h.inTrailer = true
  · rw [octet_trailer hcore.gotHdr htrailer] at hoctet
    unfold trailerOctet at hoctet
    rcases hnext : trailerNext h.trailerState c with _ | s
    · rw [hnext] at hoctet
      cases hoctet
    · rw [hnext] at hoctet
      cases hoctet
      obtain ⟨hchunked, hdata, hlen⟩ := hcore.trailer htrailer
      have hquiet : Quiet { h with trailerState := s } :=
        quiet_line hchunked hdata (Nat.lt_add_right 1 (Nat.lt_succ_of_le hlen))
      exact { hcore with quiet := hquiet }
  · have hno := Bool.eq_false_of_not_eq_true htrailer
    by_cases hlimit : Refused h
    · rw [octet_refused hcore.gotHdr hno hlimit] at hoctet
      cases hoctet
    · rw [octet_body hcore.gotHdr hno hlimit] at hoctet
      obtain ⟨r, hr, heq⟩ := except_map_ok hoctet
      obtain ⟨rfl, hmore⟩ := Prod.mk.inj heq
      exact Checked.core hcore hno hlimit hr hmore

theorem feed_core (hcore : Core h) (hfeed : feed octet .getMore h s = .ok (h', .getMore)) : Core h' := by
  induction s generalizing h with
  | nil =>
    cases hfeed
    exact hcore
  | cons c s ih =>
    obtain ⟨h₁, hoctet, hrest⟩ := feed_cons_more hfeed
    exact ih (octet_core hcore hoctet) hrest

theorem octet_sized (hgotHdr : h.gotHdr = true) (n : Nat) :
    octet (sized n h) c = (octet h c).map fun r => (sized n r.1, r.2) := by
  by_cases htrailer : h.inTrailer = true
  · rw [octet_trailer (h := sized n h) hgotHdr htrailer, octet_trailer hgotHdr htrailer]
    unfold trailerOctet sized
    dsimp only
    rcases trailerNext h.trailerState c with _ | s
    · rfl
    · rfl
  · have hno := Bool.eq_false_of_not_eq_true htrailer
    by_cases hlimit : Refused h
    · rw [octet_refused (h := sized n h) hgotHdr hno hlimit, octet_refused hgotHdr hno hlimit]
      rfl
    · rw [octet_body (h := sized n h) hgotHdr hno hlimit, octet_body hgotHdr hno hlimit]
      have hcheck := bodyCheck_sized (h := { h with body := h.body ++ [c] }) n
      rcases hr : bodyCheck { h with body := h.body ++ [c] } with e | r
      · rw [hr] at hcheck
        exact congrArg (Except.map fun r => (r.1, r.2.next)) hcheck
      · rw [hr] at hcheck
        exact congrArg (Except.map fun r => (r.1, r.2.next)) hcheck

theorem feed_sized (hcore : Core h) (n : Nat) :
    feed octet .getMore (sized n h) s = (feed octet .getMore h s).map fun r => (sized n r.1, r.2) := by
  induction s generalizing h with
  | nil => rfl
  | cons c s ih =>
    rw [feed_cons, feed_cons, octet_sized hcore.gotHdr]
    rcases hoctet : octet h c with e | ⟨h₁, next⟩
    · rfl
    · by_cases hn : next = .getMore
      · subst hn
        exact ih (octet_core hcore hoctet)
      · show (if next = .getMore then _ else _) = Except.map _ (if next = .getMore then _ else _)
        rw [if_neg hn, if_neg hn]
        rfl

end

/-! ## The copy loop -/

/-- How the machine goes on behind the tests of the copy loop. -/
def goOn (r : Httpread × BodyNext) (rbp : Bytes) : Except Stop (Httpread × HttpreadNext) :=
  if r.2.next = .getMore then feed octet .getMore r.1 rbp else .ok (r.1, r.2.next)

section

variable {h h' : Httpread} {c : UInt8} {s rbp : Bytes}

theorem feed_octet_body (hgotHdr : h.gotHdr = true) (htrailer : h.inTrailer = false) (hlimit : ¬ Refused h) :
    feed octet .getMore h (c :: s) = bodyCheck { h with body := h.body ++ [c] } >>= fun r => goOn r s := by
  rw [feed_cons, octet_body hgotHdr htrailer hlimit]
  rcases bodyCheck { h with body := h.body ++ [c] } <;> rfl

theorem feed_quiet (hgotHdr : h.gotHdr = true) (htrailer : h.inTrailer = false) (hlimit : ¬ Refused h)
    (hquiet : ∀ k, 0 < k → k ≤ s.length → Quiet { h with body := h.body ++ s.take k }) :
    feed octet .getMore h s = .ok ({ h with body := h.body ++ s }, .getMore) := by
  induction s generalizing h with
  | nil =>
    rw [append_nil]
    rfl
  | cons c s ih =>
    have hfirst : bodyCheck { h with body := h.body ++ [c] } = .ok ({ h with body := h.body ++ [c] }, .copy) :=
      hquiet 1 Nat.one_pos (Nat.le_add_left _ _)
    rw [feed_octet_body hgotHdr htrailer hlimit, hfirst]
    show feed octet .getMore { h with body := h.body ++ [c] } s = _
    rw [ih (h := { h with body := h.body ++ [c] }) hgotHdr htrailer hlimit]
    · dsimp only
      rw [append_assoc]
      rfl
    · intro k hk hle
      have hnext := hquiet (k + 1) (Nat.succ_pos _) (Nat.succ_le_succ hle)
      rw [take_succ_cons] at hnext
      dsimp only
      rw [append_assoc]
      exact hnext

theorem feed_trailer (hgotHdr : h.gotHdr = true) (htrailer : h.inTrailer = true) :
    feed octet .getMore h s = .ok (trailerLoop h s) := by
  induction s generalizing h with
  | nil => rfl
  | cons c s ih =>
    rw [feed_cons, octet_trailer hgotHdr htrailer]
    unfold trailerOctet trailerLoop
    rcases trailerNext h.trailerState c with _ | s'
    · rfl
    · exact ih (h := { h with trailerState := s' }) hgotHdr htrailer

theorem Copying.not_refused (hcopy : Copying h rbp) : ¬ Refused h := by
  obtain ⟨hpos, hlimit⟩ := hcopy.limit hcopy.allocated
  unfold Refused
  omega

theorem feed_copy {n : Nat} (hcopy : Copying h rbp) (hsettled : Settled h) (htrailer : h.inTrailer = false)
    (hne : rbp ≠ []) (hn : n = min (copyCount h rbp.length).toNat rbp.length) :
    feed octet .getMore h rbp =
      bodyCheck { h with body := h.body ++ rbp.take n } >>= fun r => goOn r (rbp.drop n) := by
  obtain ⟨hpos, hcontent, hchunk⟩ := copyCount_pos hcopy hsettled hne
  have hlen := length_pos_iff.mpr hne
  have hlimit := hcopy.not_refused
  obtain ⟨m, rfl⟩ : ∃ m, n = m + 1 := ⟨n - 1, by omega⟩
  have hquiet : ∀ k, 0 < k → k ≤ m → Quiet { h with body := h.body ++ rbp.take k } := by
    intro k hk hle
    have htake : (h.body ++ rbp.take k).length = h.body.length + k := by
      rw [length_append, length_take]
      omega
    by_cases hchunked : h.chunked = true
    · by_cases hdata : h.inChunkData = true
      · obtain ⟨hsize, hmax, -⟩ := hcopy.chunkData hchunked hdata
        have hle' := hchunk hchunked hdata
        have hmaxBytes := (hcopy.limit hcopy.allocated).2
        refine quiet_data hchunked hdata ?_
        show ((h.body ++ rbp.take k).length : Int) - h.chunkStart ≠ toInt (h.chunkSize + 2)
        simp only [httpreadBodybufDelta] at hmaxBytes
        rw [htake, toInt_eq (by omega) (by omega)]
        omega
      · -- one octet of a chunk header at a time
        have hone : copyCount h rbp.length = 1 := by
          unfold copyCount
          rw [if_neg fun hand => hdata hand.2, if_pos hchunked]
        rw [hone] at hn
        omega
    · refine quiet_rest (Bool.eq_false_of_not_eq_true hchunked) fun hgot => ?_
      have hle' := hcontent hgot
      show ((h.body ++ rbp.take k).length : Int) < h.contentLength
      rw [htake]
      omega
  have hm : m < rbp.length := by omega
  have hsplit : rbp = rbp.take m ++ rbp.get ⟨m, hm⟩ :: rbp.drop (m + 1) := by
    rw [get_eq_getElem, getElem_cons_drop, take_append_drop]
  have hfront : feed octet .getMore h (rbp.take m) =
      .ok ({ h with body := h.body ++ rbp.take m }, .getMore) := by
    refine feed_quiet hcopy.gotHdr htrailer hlimit fun k hk hle => ?_
    rw [length_take] at hle
    rw [take_take, Nat.min_eq_left (by omega)]
    exact hquiet k hk (by omega)
  have htake : rbp.take (m + 1) = rbp.take m ++ [rbp.get ⟨m, hm⟩] := by
    rw [get_eq_getElem, take_append_getElem]
  conv_lhs => rw [hsplit]
  rw [feed_append_more hfront, htake, ← append_assoc]
  exact feed_octet_body (h := { h with body := h.body ++ rbp.take m }) hcopy.gotHdr htrailer hlimit

theorem Checked.inTrailer (hr : Checked h (h', .copy)) : h'.inTrailer = h.inTrailer := by
  generalize hcopy : (h', BodyNext.copy) = r at hr
  cases hr <;> cases hcopy <;> rfl

theorem Checked.trailer (hr : Checked h (h', .trailer)) :
    h'.gotHdr = h.gotHdr ∧ h'.chunked = true ∧ h'.inTrailer = true := by
  generalize htrailer : (h', BodyNext.trailer) = r at hr
  cases hr with
  | last value hchunked =>
    cases htrailer
    exact ⟨rfl, hchunked, rfl⟩
  | _ => cases htrailer

theorem afterCopy_octets {next : BodyNext} (hgotHdr : h.gotHdr = true)
    (hcheck : bodyCheck h = .ok (h', next)) (hstop : next = .copy → rbp = []) :
    .ok (afterCopy (h', rbp, next)) = goOn (h', next) rbp := by
  have hchecked := bodyCheck_checked hcheck
  cases next with
  | bad => rfl
  | gotFile => rfl
  | copy =>
    obtain rfl := hstop rfl
    show Except.ok (readTrailer h' []) = .ok (h', .getMore)
    unfold readTrailer trailerLoop
    rw [ite_self]
  | trailer =>
    obtain ⟨hgot, hchunked, htrailer'⟩ := hchecked.trailer
    show Except.ok (readTrailer h' rbp) = feed octet .getMore h' rbp
    unfold readTrailer
    rw [feed_trailer (hgot.trans hgotHdr) htrailer', if_pos ⟨hchunked, htrailer'⟩]

theorem copyLoop_octets {turns : Nat} (hcopy : Copying h rbp) (htrailer : h.inTrailer = false)
    (hturns : rbp.length ≤ turns) :
    (copyLoop turns h rbp).map afterCopy = bodyCheck h >>= fun r => goOn r rbp := by
  induction turns generalizing h rbp with
  | zero =>
    obtain ⟨⟨h', next⟩, hcheck, -⟩ := bodyCheck_returns hcopy
    have hnil : rbp = [] := length_eq_zero_iff.mp (Nat.le_zero.mp hturns)
    rw [copyLoop_stop hcheck fun _ => hnil, hcheck]
    exact afterCopy_octets hcopy.gotHdr hcheck fun _ => hnil
  | succ turns ih =>
    obtain ⟨⟨h', next⟩, hcheck, hr⟩ := bodyCheck_returns hcopy
    rw [hcheck]
    by_cases hstop : next = .copy → rbp = []
    · rw [copyLoop_stop hcheck hstop]
      exact afterCopy_octets hcopy.gotHdr hcheck hstop
    · obtain ⟨rfl, hne⟩ : next = .copy ∧ rbp ≠ [] := Classical.not_imp.mp hstop
      have hcopy' : Copying h' rbp := (hr (by simp)).1
      have hsettled : Settled h' := (hr (by simp)).2 (by simp)
      have htrailer' : h'.inTrailer = false := (bodyCheck_checked hcheck).inTrailer.trans htrailer
      obtain ⟨hpos, -, hnext⟩ := hcopy'.turn hsettled hne rfl
      rw [copyLoop_turn hcheck hcopy' hsettled hne rfl, ih hnext htrailer' (by rw [length_drop]; omega)]
      exact (feed_copy hcopy' hsettled htrailer' hne rfl).symm

end

/-! ## Room for the body -/

/-- There is room for what is read, or there may be: the body is below the limit, and so is the buffer. -/
def MayGrow (h : Httpread) (nread : Nat) : Prop :=
  h.body.length + nread < h.bodyAlloc ∨ (h.body.length : Int) < h.maxBytes ∧ (h.bodyAlloc : Int) ≤ h.maxBytes

instance (h : Httpread) (nread : Nat) : Decidable (MayGrow h nread) := inferInstanceAs (Decidable (_ ∨ _))

section

variable {h h' : Httpread} {rbp : Bytes} {nread : Nat}

theorem makeRoom_some (hroom : makeRoom h nread = some h') : h' = sized h'.bodyAlloc h := by
  unfold makeRoom at hroom
  split_ifs at hroom
  · cases hroom
    rfl
  · cases hroom
    rfl

theorem newAlloc_bounds (hinv : BodyInv h) (hpos : 0 < h.maxBytes)
    (hlimit : h.maxBytes + httpreadBodybufDelta < 2 ^ 31) (hle : (h.bodyAlloc : Int) ≤ h.maxBytes) :
    (h.bodyAlloc : Int) ≤ newAlloc h ∧ newAlloc h ≤ toInt (h.maxBytes + httpreadBodybufDelta) := by
  have hstep : toInt (h.bodyAlloc + httpreadBodybufDelta) = h.bodyAlloc + httpreadBodybufDelta :=
    toInt_eq (by omega) (by omega)
  rw [toInt_eq (n := h.maxBytes + httpreadBodybufDelta) (by omega) hlimit]
  unfold newAlloc
  rw [hstep]
  dsimp only
  split_ifs with hmore
  · obtain ⟨hgot, hmore⟩ := hmore
    obtain ⟨hlow, hcl, -⟩ := hinv.content hgot
    simp only [httpreadBodybufDelta] at hlimit hmore ⊢
    rw [toInt_eq (by omega) (by omega)] at hmore ⊢
    omega
  · omega

theorem makeRoom_of_mayGrow (hinv : BodyInv h) (halloc : h.bodyAlloc ≠ 0) (hgrow : MayGrow h nread) :
    makeRoom h nread ≠ none := by
  obtain ⟨hpos, hlimit⟩ := hinv.limit halloc
  have hlt := hinv.bodyAlloc
  unfold makeRoom
  by_cases hneed : (h.bodyAlloc : Int) < toInt (h.body.length + nread + 1)
  · rw [if_pos hneed]
    rcases hgrow with hroom | ⟨hless, hle⟩
    · rw [toInt_eq (by omega) (by omega)] at hneed
      omega
    · obtain ⟨hnew, hnew'⟩ := newAlloc_bounds hinv hpos hlimit hle
      rw [if_neg (not_le.mpr hless), if_neg (by omega)]
      exact Option.some_ne_none _
  · rw [if_neg hneed]
    exact Option.some_ne_none _

theorem makeRoom_first (hinv : BodyInv h) (halloc : h.bodyAlloc = 0) (hread : nread ≤ httpreadReadbufSize)
    (hpos : 0 < nread) : makeRoom h nread = none ↔ Refused h := by
  have hempty : h.body.length = 0 := by
    rcases hinv.fits with hless | ⟨-, hnil⟩
    · omega
    · rw [hnil]
      rfl
  have hmax := hinv.maxBytes
  simp only [httpreadReadbufSize] at hread
  have hneed : (h.bodyAlloc : Int) < toInt (h.body.length + nread + 1) := by
    rw [toInt_eq (by omega) (by omega)]
    omega
  unfold makeRoom Refused
  rw [if_pos hneed]
  by_cases hnone : h.maxBytes ≤ h.body.length
  · rw [if_pos hnone]
    exact ⟨fun _ => .inl (by omega), fun _ => rfl⟩
  rw [if_neg hnone]
  by_cases hlimit : h.maxBytes + httpreadBodybufDelta < 2 ^ 31
  · have hnew := newAlloc_bounds hinv (by omega) hlimit (by omega)
    rw [if_neg (by omega)]
    refine ⟨fun h => (Option.some_ne_none _ h).elim, fun hrefused => ?_⟩
    omega
  · -- the sum wraps, and no length is below it
    have hfirst : toInt (h.bodyAlloc + httpreadBodybufDelta) ≤ newAlloc h := by
      unfold newAlloc
      dsimp only
      split_ifs with hmore
      · exact hmore.2.le
      · exact le_refl _
    simp only [httpreadBodybufDelta] at hlimit hfirst ⊢
    rw [halloc, toInt_eq (by omega) (by omega)] at hfirst
    rw [toInt_wraps (by omega) (by omega), if_pos (.inr (by omega))]
    exact ⟨fun _ => .inr (not_lt.mp hlimit), fun _ => rfl⟩

end

/-! ## The calls -/

/-- A call that begins in this state does not take the trailer for a chunk header, and there may be room for all
that it reads. -/
def Clean (h : Httpread) (nread : Nat) : Prop := h.inTrailer = false ∧ (h.bodyAlloc ≠ 0 → MayGrow h nread)

def Served (h : Httpread) (nread : Nat) : Prop :=
  h.inTrailer = false ∧ (h.bodyAlloc ≠ 0 → makeRoom h nread ≠ none)

section

variable {h h' : Httpread} {rbp : Bytes}

theorem sized_self (halloc : h.bodyAlloc = 0) : sized 0 h = h := by
  rw [← halloc]

theorem addBytes_octets (hinv : BodyInv h) (hcore : Core h) (hread : rbp.length ≤ httpreadReadbufSize)
    (hne : rbp ≠ []) (hserved : Served h rbp.length) :
    (addBytes h rbp).map (fun r => (sized 0 r.1, r.2)) = feed octet .getMore (sized 0 h) rbp := by
  have hgotHdr := hcore.gotHdr
  have hpos := length_pos_iff.mpr hne
  rcases hroom : makeRoom h rbp.length with _ | h'
  · -- only the first buffer can be refused
    have halloc : h.bodyAlloc = 0 := by
      by_contra hsome
      exact hserved.2 hsome hroom
    have hrefused := (makeRoom_first hinv halloc hread hpos).mp hroom
    obtain ⟨c, rest, rfl⟩ := exists_cons_of_ne_nil hne
    have hstop : HttpreadNext.bad ≠ .getMore := by decide
    rw [addBytes_none hroom]
    exact (feed_stop (octet_refused (h := sized 0 h) hgotHdr hserved.1 hrefused) hstop).symm
  · have hcopy := makeRoom_copying hinv hgotHdr hread hroom
    have hsame := makeRoom_some hroom
    have hcore' : Core h' := by
      rw [hsame]
      exact hcore.sized _
    have htrailer : h'.inTrailer = false := by
      rw [hsame]
      exact hserved.1
    rw [addBytes_some hroom, copyLoop_octets hcopy htrailer (le_refl _), hcore'.quiet]
    show (feed octet .getMore h' rbp).map _ = _
    rw [← feed_sized hcore' 0, hsame]

theorem readBody_core (hcore : Core h) :
    readBody h rbp = if rbp = [] then .ok (h, .getMore) else addBytes h rbp := by
  unfold readBody
  rw [hcore.noBody]
  show (if rbp = [] then _ else if h.gotBody = true then _ else addBytes h rbp) = _
  rw [hcore.gotBody]
  rfl

theorem readBody_octets (hinv : BodyInv h) (hcore : Core h) (hread : rbp.length ≤ httpreadReadbufSize)
    (hserved : Served h rbp.length) :
    (readBody h rbp).map (fun r => (sized 0 r.1, r.2)) = feed octet .getMore (sized 0 h) rbp := by
  rw [readBody_core hcore]
  by_cases hnil : rbp = []
  · subst hnil
    rfl
  · rw [if_neg hnil]
    exact addBytes_octets hinv hcore hread hnil hserved

theorem feed_header (hgotHdr : h.gotHdr = false) (hlen : h.hdr.length ≤ httpreadHeaderMaxSize) :
    feed octet .getMore h rbp = readHdr h rbp >>= fun r =>
      match r.2 with
      | .more => .ok (r.1, .getMore)
      | .tooLong => .ok (r.1, .bad)
      | .complete rest => afterHeader r.1 >>= fun a =>
        if a.2 = .getMore then feed octet .getMore a.1 rest else .ok a := by
  induction rbp generalizing h with
  | nil => rfl
  | cons c rbp ih =>
    have hoctet : octet h c = headerOctet h c := if_pos (by simp [hgotHdr])
    rw [feed_cons, hoctet]
    unfold headerOctet readHdr
    by_cases hfull : h.hdr.length = httpreadHeaderMaxSize
    · rw [if_pos hfull, if_pos hfull]
      rfl
    have hfits : ¬ httpreadHeaderMaxSize < h.hdr.length + 1 := by omega
    rw [if_neg hfull, if_neg hfull, if_neg hfits]
    dsimp only
    by_cases hcomplete : hdrComplete (h.hdr ++ [c]) = true
    · rw [if_pos hcomplete, if_pos hcomplete]
      rfl
    · rw [if_neg hcomplete, if_neg hcomplete]
      refine ih (h := { h with hdr := h.hdr ++ [c] }) hgotHdr ?_
      show (h.hdr ++ [c]).length ≤ _
      rw [length_append, length_singleton]
      omega

theorem readMore_header (hgotHdr : h.gotHdr = false) : readMore h rbp = readHdr h rbp >>= fun r =>
    match r.2 with
    | .more => .ok (r.1, .getMore)
    | .tooLong => .ok (r.1, .bad)
    | .complete rest => afterHeader r.1 >>= fun a => if a.2 = .getMore then readBody a.1 rest else .ok a := by
  unfold readMore
  rw [if_neg (by simp [hgotHdr])]
  rcases readHdr h rbp with e | ⟨h', next⟩
  · rfl
  cases next with
  | more => rfl
  | tooLong => rfl
  | complete rest =>
    show (hdrAnalyze h' >>= _) = afterHeader h' >>= _
    unfold afterHeader
    rcases hdrAnalyze h' with e | ⟨a, ok⟩
    · rfl
    cases ok with
    | false => rfl
    | true =>
      by_cases hmax : a.maxBytes = 0
      · simp only [bind, Except.bind, hmax]
        rfl
      by_cases hlen : a.gotContentLength = true ∧ a.contentLength = 0
      · simp only [bind, Except.bind, hmax, hlen]
        rfl
      simp only [bind, Except.bind, hmax, hlen, not_true_eq_false, if_false]
      rcases hnoBody : hasNoBody a with e | noBody
      · unfold readBody
        rw [hnoBody]
        rfl
      cases noBody with
      | false => rfl
      | true =>
        unfold readBody
        rw [hnoBody]
        rfl

theorem afterHeader_unallocated {n : HttpreadNext} (hfresh : Fresh h) (hafter : afterHeader h = .ok (h', n)) :
    h'.bodyAlloc = 0 := by
  obtain ⟨⟨a, ok⟩, hanalyze, hpart, -⟩ := hdrAnalyze_returns hfresh.hdr hfresh.hdrInv
  simp only [bodyPart, Prod.mk.injEq] at hpart
  have halloc : a.bodyAlloc = 0 := hpart.2.1.trans hfresh.unallocated
  unfold afterHeader at hafter
  obtain ⟨r, hr, hafter⟩ := except_bind_ok hafter
  obtain rfl : (a, ok) = r := Except.ok.inj (hanalyze.symm.trans hr)
  split_ifs at hafter
  · cases hafter
    exact halloc
  · cases hafter
    exact halloc
  · obtain ⟨noBody, -, hafter⟩ := except_bind_ok hafter
    split_ifs at hafter <;> cases hafter <;> exact halloc
  · cases hafter
    exact halloc

theorem afterHeader_core (hfresh : Fresh h) (hgotHdr : h.gotHdr = true)
    (hafter : afterHeader h = .ok (h', .getMore)) :
    BodyInv h' ∧ Core h' ∧ h'.bodyAlloc = 0 ∧ h'.inTrailer = false := by
  obtain ⟨⟨a, ok⟩, hanalyze, hheader⟩ := hdrAnalyze_returns hfresh.hdr hfresh.hdrInv
  unfold afterHeader at hafter
  rw [hanalyze] at hafter
  cases ok with
  | false => cases hafter
  | true =>
    have hheader : Header h a := hheader.2 rfl
    have hpart := hheader.bodyPart
    simp only [bodyPart, Prod.mk.injEq] at hpart
    obtain ⟨⟨hgot, hhdr, hbodyGot, hbody⟩, halloc, hstart, -, htr, -⟩ := hpart
    by_cases hmax : a.maxBytes = 0
    · simp only [bind, Except.bind, hmax] at hafter
      cases hafter
    by_cases hlen : a.gotContentLength = true ∧ a.contentLength = 0
    · simp only [bind, Except.bind, hmax, hlen] at hafter
      cases hafter
    simp only [bind, Except.bind, hmax, hlen, not_true_eq_false, if_false] at hafter
    rcases hnoBody : hasNoBody a with e | noBody
    · rw [hnoBody] at hafter
      cases hafter
    cases noBody with
    | true =>
      rw [hnoBody] at hafter
      cases hafter
    | false =>
      rw [hnoBody] at hafter
      cases hafter
      have hbodyInv := hheader.bodyInv hfresh hmax
      refine ⟨hbodyInv, ?_, halloc.trans hfresh.unallocated, htr.trans hfresh.noTrailer⟩
      refine ⟨hgot.trans hgotHdr, hnoBody, hbodyGot.trans hfresh.unread, ?_, fun hyes => ?_⟩
      · have hempty : h'.body.length = 0 := by rw [hbody, hfresh.empty, length_nil]
        by_cases hchunked : h'.chunked = true
        · exact quiet_line hchunked hheader.inChunkData (by omega)
        · refine quiet_rest (Bool.eq_false_of_not_eq_true hchunked) fun hgot => ?_
          have hlow := (hbodyInv.content hgot).1
          have hne : h'.contentLength ≠ 0 := fun hzero => hlen ⟨hgot, hzero⟩
          omega
      · rw [htr, hfresh.noTrailer] at hyes
        cases hyes

/-- What holds between two calls, for the machine too. -/
structure Reading (h : Httpread) : Prop extends Waiting h where
  core : h.gotHdr = true → Core h

theorem readMore_octets (hreading : Reading h) (hread : rbp.length ≤ httpreadReadbufSize)
    (hserved : Served h rbp.length) :
    (readMore h rbp).map (fun r => (sized 0 r.1, r.2)) = feed octet .getMore (sized 0 h) rbp := by
  by_cases hgotHdr : h.gotHdr = true
  · rw [show readMore h rbp = readBody h rbp from if_pos hgotHdr]
    exact readBody_octets hreading.toBodyInv (hreading.core hgotHdr) hread hserved
  have hno := Bool.eq_false_of_not_eq_true hgotHdr
  have hfresh := hreading.fresh hno
  rw [sized_self hfresh.unallocated, readMore_header hno, feed_header hno hfresh.hdr]
  obtain ⟨⟨h₁, next⟩, hhdr, hfresh₁, -, hcomplete⟩ := readHdr_returns rbp hfresh
  rw [hhdr]
  cases next with
  | more => exact congrArg (fun h => Except.ok (h, HttpreadNext.getMore)) (sized_self hfresh₁.unallocated)
  | tooLong => exact congrArg (fun h => Except.ok (h, HttpreadNext.bad)) (sized_self hfresh₁.unallocated)
  | complete rest =>
    obtain ⟨hgot, hlen⟩ := hcomplete rest rfl
    show (afterHeader h₁ >>= _).map _ = afterHeader h₁ >>= _
    rcases hafter : afterHeader h₁ with e | ⟨a, n⟩
    · rfl
    by_cases hn : n = .getMore
    · subst hn
      obtain ⟨hinv, hcore, halloc, htrailer⟩ := afterHeader_core hfresh₁ hgot hafter
      have hbody := readBody_octets hinv hcore (hlen.trans hread) ⟨htrailer, fun hne => absurd halloc hne⟩
      rw [sized_self halloc] at hbody
      exact hbody
    · show Except.map _ (if n = .getMore then _ else _) = if n = .getMore then _ else _
      rw [if_neg hn, if_neg hn]
      exact congrArg (fun h => Except.ok (h, n)) (sized_self (afterHeader_unallocated hfresh₁ hafter))

theorem feed_reading {s : Bytes} (hreading : Reading h) (hwait : Waiting h')
    (hfeed : feed octet .getMore (sized 0 h) s = .ok (sized 0 h', .getMore)) : Reading h' := by
  refine { hwait with core := fun hgotHdr' => ?_ }
  have hback : sized h'.bodyAlloc (sized 0 h') = h' := rfl
  have hcore' : Core (sized 0 h') := by
    by_cases hgotHdr : h.gotHdr = true
    · exact feed_core ((hreading.core hgotHdr).sized 0) hfeed
    have hno := Bool.eq_false_of_not_eq_true hgotHdr
    have hfresh := hreading.fresh hno
    rw [sized_self hfresh.unallocated, feed_header hno hfresh.hdr] at hfeed
    obtain ⟨⟨h₁, next⟩, hhdr, hfresh₁, hmore, hcomplete⟩ := readHdr_returns s hfresh
    rw [hhdr] at hfeed
    cases next with
    | more =>
      cases hfeed
      have hcontra : h'.gotHdr = false := (hmore rfl).trans hno
      rw [hcontra] at hgotHdr'
      cases hgotHdr'
    | tooLong => cases hfeed
    | complete rest =>
      obtain ⟨hgot, hlen⟩ := hcomplete rest rfl
      have hbody : (afterHeader h₁ >>= fun a =>
          if a.2 = .getMore then feed octet .getMore a.1 rest else .ok a) = .ok (sized 0 h', .getMore) := hfeed
      obtain ⟨⟨a, n⟩, hafter, hfeed⟩ := except_bind_ok hbody
      by_cases hn : n = .getMore
      · subst hn
        exact feed_core (afterHeader_core hfresh₁ hgot hafter).2.1 hfeed
      · rw [if_neg hn] at hfeed
        cases hfeed
        exact absurd rfl hn
  rw [← hback]
  exact hcore'.sized _

def readSome (h : Httpread) (read : ReadBuf) : Except Stop (Httpread × HttpreadNext) := readOne h (some read)

theorem readSome_served : Refines readSome octet .getMore (sized 0) ReadBuf.octets Reading
    fun h read => read.octets ≠ [] ∧ Served h read.octets.length := by
  rintro h ⟨octets, hle⟩ hreading ⟨hne, hserved⟩
  obtain ⟨⟨h', n⟩, hmore, hhandled⟩ := readMore_handled hreading.toWaiting hle
  have hfeed := readMore_octets hreading hle hserved
  rw [hmore] at hfeed
  have hread : readSome h ⟨octets, hle⟩ = .ok (h', n) := by
    obtain ⟨c, rest, rfl⟩ := exists_cons_of_ne_nil hne
    show (readMore h (c :: rest) >>= fun r => terminate r) = _
    rw [hmore]
    exact terminate_handled hhandled
  refine ⟨h', n, hread, hfeed.symm, fun hn => ?_⟩
  subst hn
  exact feed_reading hreading (hhandled.getMore rfl) hfeed.symm

theorem readSome_refines : Refines readSome octet .getMore (sized 0) ReadBuf.octets Reading
    fun h read => read.octets ≠ [] ∧ Clean h read.octets.length := by
  rintro h read hreading ⟨hne, hclean⟩
  refine readSome_served h read hreading ⟨hne, hclean.1, fun halloc => ?_⟩
  exact makeRoom_of_mayGrow hreading.toBodyInv halloc (hclean.2 halloc)

end

end Httpread

end Hostap
