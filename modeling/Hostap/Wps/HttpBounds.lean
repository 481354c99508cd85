import Hostap.Wps.HttpHdrBounds
import Hostap.Wps.HttpRead

/-!
# The reader stays within its buffers

`BodyInv` is what holds of the body at any time: it is shorter than its buffer, a chunk is at most as long as
its header says, and a content length fits into the buffer. In the copy loop (`Copying`) there is room for what
is to be copied and the NUL, and after the tests of a turn there is something to copy (`Settled`), so that the
loop ends.

A run goes up to the first event: the application gives the reader up then.
-/

namespace Hostap

open Octets Output Common Bounded List

namespace Httpread

section Integers

variable {n : Int}

theorem toInt_lt (n : Int) : toInt n < 2 ^ 31 := Int.bmod_lt (by decide)

theorem toInt_eq (hlo : -2 ^ 31 ≤ n) (hhi : n < 2 ^ 31) : toInt n = n :=
  (Int.bmod_eq_iff (by decide)).mpr ⟨by omega, by omega, by simp⟩

theorem toInt_wraps (hlo : 2 ^ 31 ≤ n) (hhi : n < 2 ^ 32 + 2 ^ 31) : toInt n = n - 2 ^ 32 :=
  (Int.bmod_eq_iff (by decide)).mpr ⟨by omega, by omega, by simp⟩

theorem toInt_nonneg (hlo : 0 ≤ n) (hhi : n < 2 ^ 32) (h : 0 ≤ toInt n) : n < 2 ^ 31 ∧ toInt n = n := by
  by_cases hbig : n < 2 ^ 31
  · exact ⟨hbig, toInt_eq (by omega) hbig⟩
  · rw [toInt_wraps (not_lt.mp hbig) (by omega)] at h
    omega

end Integers

/-- What holds of the body. A chunk has at most the two octets of its end behind its data, and a content length
fits into the buffer as soon as there is one. -/
structure BodyInv (h : Httpread) : Prop where
  hdr : h.hdr.length ≤ httpreadHeaderMaxSize
  maxBytes : h.maxBytes < 2 ^ 31
  bodyAlloc : h.bodyAlloc < 2 ^ 31
  limit : h.bodyAlloc ≠ 0 → 0 < h.maxBytes ∧ h.maxBytes + httpreadBodybufDelta < 2 ^ 31
  steps : h.gotContentLength = false → httpreadBodybufDelta ∣ h.bodyAlloc
  chunked : h.chunked = true → h.gotContentLength = false
  content : h.gotContentLength = true →
    h.body.length ≤ h.contentLength ∧ h.contentLength ≤ h.maxBytes ∧
      (h.bodyAlloc ≠ 0 → h.contentLength < h.bodyAlloc)
  fits : h.body.length < h.bodyAlloc ∨ h.bodyAlloc = 0 ∧ h.body = []
  chunkStart : h.chunkStart ≤ h.body.length
  chunkData : h.chunked = true → h.inChunkData = true →
    0 < h.chunkSize ∧ h.chunkSize ≤ h.maxBytes ∧ (h.body.length : Int) ≤ h.chunkStart + h.chunkSize + 2

/-- In the copy loop there is room for all that is left of the read buffer, unless it is known that not all of
it is copied. -/
structure Copying (h : Httpread) (rbp : Bytes) : Prop extends BodyInv h where
  gotHdr : h.gotHdr = true
  allocated : h.bodyAlloc ≠ 0
  room : h.gotContentLength = false → h.body.length + rbp.length < h.bodyAlloc

/-- After the tests of the copy loop there is something to copy. -/
structure Settled (h : Httpread) : Prop where
  content : h.gotContentLength = true → h.body.length < h.contentLength
  chunkData : h.chunked = true → h.inChunkData = true → (h.body.length : Int) < h.chunkStart + h.chunkSize + 2

section Body

variable {h h' : Httpread} {rbp : Bytes}

theorem toInt_needed (hinv : BodyInv h) (hgot : h.gotContentLength = false) {nread : Nat}
    (hread : nread ≤ httpreadReadbufSize) : toInt (h.body.length + nread + 1) = h.body.length + nread + 1 := by
  obtain ⟨k, hk⟩ := hinv.steps hgot
  have halloc := hinv.bodyAlloc
  have hlen : h.body.length ≤ h.bodyAlloc := by
    rcases hinv.fits with hlt | ⟨-, hnil⟩
    · exact hlt.le
    · rw [hnil]
      exact Nat.zero_le _
  simp only [httpreadBodybufDelta, httpreadReadbufSize] at hk hread
  exact toInt_eq (by omega) (by omega)

theorem newAlloc_content (hgot : h.gotContentLength = true) : toInt (h.contentLength + 1) ≤ newAlloc h := by
  unfold newAlloc
  dsimp only
  split_ifs with hmore
  · exact le_refl _
  · exact not_lt.mp fun hlt => hmore ⟨hgot, hlt⟩

theorem newAlloc_step (hgot : h.gotContentLength = false) :
    newAlloc h = toInt (h.bodyAlloc + httpreadBodybufDelta) := by
  unfold newAlloc
  rw [if_neg]
  rintro ⟨hyes, -⟩
  rw [hgot] at hyes
  cases hyes

theorem BodyInv.grow (hinv : BodyInv h) (hgotHdr : h.gotHdr = true) (hgrow : (h.bodyAlloc : Int) ≤ newAlloc h)
    (hlimit : newAlloc h ≤ toInt (h.maxBytes + httpreadBodybufDelta)) (hread : rbp.length ≤ httpreadReadbufSize)
    (hmin : 0 < h.maxBytes) : Copying { h with bodyAlloc := (newAlloc h).toNat } rbp := by
  have hmax := hinv.maxBytes
  have halloc := hinv.bodyAlloc
  have hlt := toInt_lt (h.maxBytes + httpreadBodybufDelta)
  have hsum : h.maxBytes + httpreadBodybufDelta < 2 ^ 31 :=
    (toInt_nonneg (by simp only [httpreadBodybufDelta]; omega) (by simp only [httpreadBodybufDelta]; omega)
      (by omega)).1
  have hbody : h.body.length ≤ h.bodyAlloc := by
    rcases hinv.fits with hless | ⟨-, hnil⟩
    · exact hless.le
    · rw [hnil]
      exact Nat.zero_le _
  have hcl : h.gotContentLength = true → (h.contentLength : Int) < newAlloc h := by
    intro hgot
    have hcontent := hinv.content hgot
    have hnew := newAlloc_content hgot
    rw [toInt_eq (by omega) (by simp only [httpreadBodybufDelta] at hsum; omega)] at hnew
    omega
  have hstep : h.gotContentLength = false → newAlloc h = h.bodyAlloc + httpreadBodybufDelta := by
    intro hgot
    have hnew := newAlloc_step hgot
    rw [hnew]
    refine (toInt_nonneg ?_ ?_ (by omega)).2
    · omega
    · simp only [httpreadBodybufDelta]
      omega
  have hnat : ((newAlloc h).toNat : Int) = newAlloc h := Int.toNat_of_nonneg (by omega)
  have hroom : h.gotContentLength = false → h.body.length + rbp.length < (newAlloc h).toNat := by
    intro hgot
    have hnew := hstep hgot
    simp only [httpreadBodybufDelta, httpreadReadbufSize] at hnew hread
    omega
  have hless : h.body.length < (newAlloc h).toNat := by
    by_cases hgot : h.gotContentLength = true
    · have hc := hcl hgot
      have hcontent := (hinv.content hgot).1
      omega
    · have hr := hroom (Bool.eq_false_of_not_eq_true hgot)
      omega
  exact {
    hdr := hinv.hdr
    gotHdr := hgotHdr
    maxBytes := hmax
    bodyAlloc := show (newAlloc h).toNat < 2 ^ 31 by omega
    limit := fun _ => ⟨hmin, hsum⟩
    steps := fun hgot => by
      obtain ⟨k, hk⟩ := hinv.steps hgot
      refine ⟨k + 1, ?_⟩
      show (newAlloc h).toNat = _
      have hnew := hstep hgot
      rw [Nat.mul_add, Nat.mul_one, ← hk]
      omega
    chunked := hinv.chunked
    content := fun hgot => ⟨(hinv.content hgot).1, (hinv.content hgot).2.1, fun _ => by
      show h.contentLength < ((newAlloc h).toNat : Int)
      rw [hnat]
      exact hcl hgot⟩
    fits := .inl hless
    chunkStart := hinv.chunkStart
    chunkData := hinv.chunkData
    allocated := show (newAlloc h).toNat ≠ 0 by omega
    room := hroom }

theorem makeRoom_copying (hinv : BodyInv h) (hgotHdr : h.gotHdr = true)
    (hread : rbp.length ≤ httpreadReadbufSize) (hroom : makeRoom h rbp.length = some h') : Copying h' rbp := by
  unfold makeRoom at hroom
  by_cases hneed : (h.bodyAlloc : Int) < toInt (h.body.length + rbp.length + 1)
  · rw [if_pos hneed] at hroom
    split_ifs at hroom with hfull hrange
    rw [not_or, not_lt, not_lt] at hrange
    cases hroom
    exact hinv.grow hgotHdr hrange.1 hrange.2 hread (by omega)
  · rw [if_neg hneed] at hroom
    cases hroom
    by_cases hgot : h.gotContentLength = true
    · refine { hinv with gotHdr := hgotHdr, allocated := fun hnone => ?_, room := fun hno => ?_ }
      · -- there is something to read, so that nothing is too small a buffer
        have hempty : h.body.length = 0 := by
          rcases hinv.fits with hless | ⟨-, hnil⟩
          · omega
          · rw [hnil]
            rfl
        simp only [httpreadReadbufSize] at hread
        rw [hnone, hempty, toInt_eq (by omega) (by omega)] at hneed
        omega
      · rw [hgot] at hno
        cases hno
    · have hno := Bool.eq_false_of_not_eq_true hgot
      rw [toInt_needed hinv hno hread] at hneed
      exact { hinv with gotHdr := hgotHdr, allocated := by omega, room := fun _ => by omega }

theorem endsLine_returns {body : Bytes} (hlen : 2 ≤ body.length) :
    Returns (endsLine body) fun r => r = (body.drop (body.length - 2) == [0x0d, 0x0a]) := by
  unfold endsLine
  rw [if_neg (not_lt.mpr hlen)]
  exact returns_ok rfl

theorem strtoulHex_returns {cbp : Bytes} (hend : cbp.drop (cbp.length - 2) = [0x0d, 0x0a]) :
    Returns (strtoulHex cbp) fun _ => True := by
  have hline : cbp = cbp.take (cbp.length - 2) ++ [0x0d, 0x0a] := by
    rw [← hend, take_append_drop]
  generalize cbp.take (cbp.length - 2) = front at hline
  have hmem : (0x0a : UInt8) ∈ if hasHexPrefix cbp then cbp.drop 2 else cbp := by
    split_ifs with hprefix
    · -- neither CR nor LF is of the prefix
      match front, hline with
      | [], hline =>
        rw [hline] at hprefix
        cases hprefix
      | [z], hline =>
        rw [hline] at hprefix
        simp [hasHexPrefix] at hprefix
      | z :: x :: rest, hline =>
        rw [hline]
        simp
    · rw [hline]
      simp
  unfold strtoulHex
  dsimp only
  rw [if_neg]
  · exact returns_ok trivial
  · intro hall
    have hlf := all_eq_true.mp hall _ hmem
    revert hlf
    decide

theorem chunkHeader_returns (hcopy : Copying h rbp) (hchunked : h.chunked = true)
    (hdata : h.inChunkData = false) (hlen : h.chunkStart + 2 ≤ h.body.length)
    (hend : h.body.drop (h.body.length - 2) = [0x0d, 0x0a]) :
    Returns (chunkHeader h) fun r => r.2 ≠ .bad → Copying r.1 rbp ∧ Settled r.1 := by
  have hline : (h.body.drop h.chunkStart).drop ((h.body.drop h.chunkStart).length - 2) = [0x0d, 0x0a] := by
    have hsame : h.chunkStart + (h.body.length - h.chunkStart - 2) = h.body.length - 2 := by omega
    rw [drop_drop, length_drop, hsame]
    exact hend
  have hpeek : Returns (peek (h.body.drop h.chunkStart)) fun _ => True := by
    rcases hdrop : h.body.drop h.chunkStart with _ | ⟨c, rest⟩
    · rw [drop_eq_nil_iff] at hdrop
      omega
    · exact returns_ok trivial
  have hno : h.gotContentLength = false := hcopy.chunked hchunked
  have hnogot : ∀ {P : Prop}, h.gotContentLength = true → P := fun hgot => by
    rw [hno] at hgot
    cases hgot
  refine returns_bind hpeek fun c _ => returns_ite (fun _ => returns_ok fun h => absurd rfl h) fun _ => ?_
  refine returns_bind (strtoulHex_returns hline) fun value _ => ?_
  refine returns_ok fun hgood => ?_
  unfold startChunk at hgood ⊢
  by_cases hrange : toInt value < 0 ∨ h.maxBytes < toInt value
  · rw [if_pos hrange] at hgood
    exact absurd rfl hgood
  rw [if_neg hrange]
  rw [not_or, not_lt, not_lt] at hrange
  have htake : (h.body.take h.chunkStart).length = h.chunkStart := by
    rw [length_take]
    omega
  have hroom := hcopy.room hno
  have hcopy' : ∀ inData inTrailer, (inData = true → toInt value ≠ 0) →
      Copying { h with chunkSize := toInt value, body := h.body.take h.chunkStart, inChunkData := inData,
                       inTrailer := inTrailer } rbp := by
    intro inData inTrailer hpos
    exact {
      hdr := hcopy.hdr
      maxBytes := hcopy.maxBytes
      bodyAlloc := hcopy.bodyAlloc
      limit := hcopy.limit
      steps := hcopy.steps
      chunked := hcopy.chunked
      content := hnogot
      fits := .inl (show (h.body.take h.chunkStart).length < h.bodyAlloc by omega)
      chunkStart := htake.ge
      chunkData := fun _ hdata => by
        have hne := hpos hdata
        refine ⟨show 0 < toInt value by omega, hrange.2, ?_⟩
        show ((h.body.take h.chunkStart).length : Int) ≤ h.chunkStart + toInt value + 2
        omega
      gotHdr := hcopy.gotHdr
      allocated := hcopy.allocated
      room := fun _ => show (h.body.take h.chunkStart).length + rbp.length < h.bodyAlloc by omega }
  by_cases hsize : toInt value = 0
  · rw [if_pos hsize]
    refine ⟨hcopy' h.inChunkData true fun hyes => ?_, hnogot, fun _ hyes => ?_⟩
    · rw [hdata] at hyes
      cases hyes
    · exact absurd (hyes.symm.trans hdata) (by decide)
  · rw [if_neg hsize]
    refine ⟨hcopy' true h.inTrailer fun _ => hsize, hnogot, fun _ _ => ?_⟩
    show ((h.body.take h.chunkStart).length : Int) < h.chunkStart + toInt value + 2
    omega

theorem chunkEnd_copying (hcopy : Copying h rbp) (hchunked : h.chunked = true)
    (hlen : h.chunkStart + 2 ≤ h.body.length) : Copying (chunkEnd h) rbp ∧ Settled (chunkEnd h) := by
  have hno : h.gotContentLength = false := hcopy.chunked hchunked
  have hnogot : ∀ {P : Prop}, h.gotContentLength = true → P := fun hgot => by
    rw [hno] at hgot
    cases hgot
  have hroom := hcopy.room hno
  have htake : (h.body.take (h.body.length - 2)).length = h.body.length - 2 := by
    rw [length_take]
    omega
  refine ⟨?_, hnogot, nofun⟩
  exact {
    hdr := hcopy.hdr
    maxBytes := hcopy.maxBytes
    bodyAlloc := hcopy.bodyAlloc
    limit := hcopy.limit
    steps := hcopy.steps
    chunked := hcopy.chunked
    content := hnogot
    fits := .inl (show (h.body.take (h.body.length - 2)).length < h.bodyAlloc by omega)
    chunkStart := le_refl _
    chunkData := nofun
    gotHdr := hcopy.gotHdr
    allocated := hcopy.allocated
    room := fun _ => show (h.body.take (h.body.length - 2)).length + rbp.length < h.bodyAlloc by omega }

theorem bodyCheck_returns (hcopy : Copying h rbp) : Returns (bodyCheck h) fun r =>
    r.2 ≠ .bad → Copying r.1 rbp ∧ (r.2 ≠ .gotFile → Settled r.1) := by
  unfold bodyCheck
  refine returns_ite (fun hmode => ?_) fun hmode => returns_ite (fun hchunked => ?_) fun hchunked => ?_
  · -- in a chunk header
    have hno := hcopy.chunked hmode.1
    have hdata := Bool.eq_false_of_not_eq_true hmode.2
    have hsettled : Settled h := by
      refine ⟨fun hgot => ?_, fun _ hyes => absurd hyes hmode.2⟩
      rw [hno] at hgot
      cases hgot
    refine returns_ite (fun _ => returns_ok fun _ => ⟨hcopy, fun _ => hsettled⟩) fun hlen => ?_
    rw [not_lt] at hlen
    refine returns_bind (endsLine_returns (by omega)) fun complete hcomplete => ?_
    refine returns_ite (fun hyes => ?_) fun _ => returns_ok fun _ => ⟨hcopy, fun _ => hsettled⟩
    rw [hcomplete, beq_iff_eq] at hyes
    refine (chunkHeader_returns hcopy hmode.1 hdata hlen hyes).mono fun r hr hne => ?_
    exact ⟨(hr hne).1, fun _ => (hr hne).2⟩
  · -- in chunk data
    have hno := hcopy.chunked hchunked
    have hdata : h.inChunkData = true :=
      Bool.eq_true_of_not_eq_false fun hfalse => hmode ⟨hchunked, by simp [hfalse]⟩
    have hnogot : ∀ {P : Prop}, h.gotContentLength = true → P := fun hgot => by
      rw [hno] at hgot
      cases hgot
    obtain ⟨hpos, hmax, hlen⟩ := hcopy.chunkData hchunked hdata
    have hlimit := (hcopy.limit hcopy.allocated).2
    have hstart := hcopy.chunkStart
    rw [toInt_eq (by omega) (by simp only [httpreadBodybufDelta] at hlimit; omega)]
    refine returns_ite (fun hmore => ?_) fun hfull => ?_
    · have hless : (h.body.length : Int) < h.chunkStart + h.chunkSize + 2 := by omega
      exact returns_ok fun _ => ⟨hcopy, fun _ => ⟨hnogot, fun _ _ => hless⟩⟩
    refine returns_bind (endsLine_returns (by omega)) fun complete _ => ?_
    refine returns_ite (fun _ => returns_ok fun _ => ?_) fun _ => returns_ok fun hne => absurd rfl hne
    have hend := chunkEnd_copying hcopy hchunked (by omega)
    exact ⟨hend.1, fun _ => hend.2⟩
  · have hnochunk : ∀ {P : Prop}, h.chunked = true → P := fun hyes => absurd hyes hchunked
    refine returns_ite (fun _ => returns_ok fun _ => ⟨?_, fun hne => absurd rfl hne⟩) fun hfull => ?_
    · exact { hcopy with }
    · refine returns_ok fun _ => ⟨hcopy, fun _ => ⟨fun hgot => ?_, hnochunk⟩⟩
      exact not_le.mp fun hle => hfull ⟨hgot, hle⟩

theorem copyCount_pos (hcopy : Copying h rbp) (hsettled : Settled h) (hne : rbp ≠ []) :
    0 < copyCount h rbp.length ∧
      (h.gotContentLength = true → h.body.length + copyCount h rbp.length ≤ h.contentLength) ∧
      (h.chunked = true → h.inChunkData = true →
        h.body.length + copyCount h rbp.length ≤ h.chunkStart + h.chunkSize + 2) := by
  have hmax := hcopy.maxBytes
  have hlimit := (hcopy.limit hcopy.allocated).2
  simp only [httpreadBodybufDelta] at hlimit
  unfold copyCount
  by_cases hchunked : h.chunked = true
  · have hno := hcopy.chunked hchunked
    by_cases hdata : h.inChunkData = true
    · obtain ⟨hpos, hle, -⟩ := hcopy.chunkData hchunked hdata
      have hless := hsettled.chunkData hchunked hdata
      have hstart := hcopy.chunkStart
      rw [if_pos ⟨hchunked, hdata⟩, toInt_eq (by omega) (by omega)]
      refine ⟨by omega, fun hgot => ?_, fun _ _ => by omega⟩
      rw [hno] at hgot
      cases hgot
    · rw [if_neg fun hand => hdata hand.2, if_pos hchunked]
      refine ⟨Int.one_pos, fun hgot => ?_, fun _ hyes => absurd hyes hdata⟩
      rw [hno] at hgot
      cases hgot
  · rw [if_neg fun hand => hchunked hand.1, if_neg hchunked]
    by_cases hgot : h.gotContentLength = true
    · have hless := hsettled.content hgot
      have hle := (hcopy.content hgot).2.1
      rw [if_pos hgot, toInt_eq (by omega) (by omega)]
      exact ⟨by omega, fun _ => by omega, fun hyes => absurd hyes hchunked⟩
    · rw [if_neg hgot]
      refine ⟨?_, fun hyes => absurd hyes hgot, fun hyes => absurd hyes hchunked⟩
      have hpos := length_pos_iff.mpr hne
      omega

theorem Copying.copy {n : Nat} (hcopy : Copying h rbp) (hn : n ≤ rbp.length)
    (hcount : (h.gotContentLength = true → (h.body.length : Int) + n ≤ h.contentLength) ∧
      (h.chunked = true → h.inChunkData = true → (h.body.length : Int) + n ≤ h.chunkStart + h.chunkSize + 2)) :
    h.body.length + n < h.bodyAlloc ∧ Copying { h with body := h.body ++ rbp.take n } (rbp.drop n) := by
  have hlen : (h.body ++ rbp.take n).length = h.body.length + n := by
    rw [length_append, length_take, Nat.min_eq_left hn]
  have hfits : h.body.length + n < h.bodyAlloc := by
    by_cases hgot : h.gotContentLength = true
    · have hcontent := (hcopy.content hgot).2.2 hcopy.allocated
      have hle := hcount.1 hgot
      omega
    · have hroom := hcopy.room (Bool.eq_false_of_not_eq_true hgot)
      omega
  refine ⟨hfits, ?_⟩
  exact {
    hdr := hcopy.hdr
    maxBytes := hcopy.maxBytes
    bodyAlloc := hcopy.bodyAlloc
    limit := hcopy.limit
    steps := hcopy.steps
    chunked := hcopy.chunked
    content := fun hgot => by
      refine ⟨?_, (hcopy.content hgot).2⟩
      show ((h.body ++ rbp.take n).length : Int) ≤ h.contentLength
      rw [hlen, Int.natCast_add]
      exact hcount.1 hgot
    fits := .inl (show (h.body ++ rbp.take n).length < h.bodyAlloc by omega)
    chunkStart := by
      have hstart := hcopy.chunkStart
      show h.chunkStart ≤ (h.body ++ rbp.take n).length
      omega
    chunkData := fun hchunked hdata => by
      obtain ⟨hpos, hle, -⟩ := hcopy.chunkData hchunked hdata
      refine ⟨hpos, hle, ?_⟩
      show ((h.body ++ rbp.take n).length : Int) ≤ h.chunkStart + h.chunkSize + 2
      rw [hlen, Int.natCast_add]
      exact hcount.2 hchunked hdata
    gotHdr := hcopy.gotHdr
    allocated := hcopy.allocated
    room := fun hgot => by
      have hroom := hcopy.room hgot
      show (h.body ++ rbp.take n).length + (rbp.drop n).length < h.bodyAlloc
      rw [hlen, length_drop]
      omega }

theorem Copying.turn {n : Nat} (hcopy : Copying h rbp) (hsettled : Settled h) (hne : rbp ≠ [])
    (hn : n = min (copyCount h rbp.length).toNat rbp.length) :
    0 < n ∧ h.body.length + n < h.bodyAlloc ∧ Copying { h with body := h.body ++ rbp.take n } (rbp.drop n) := by
  obtain ⟨hpos, hcontent, hchunk⟩ := copyCount_pos hcopy hsettled hne
  have hlen := length_pos_iff.mpr hne
  refine ⟨by omega, hcopy.copy (by omega) ⟨fun hgot => ?_, fun hchunked hdata => ?_⟩⟩
  · have hle := hcontent hgot
    omega
  · have hle := hchunk hchunked hdata
    omega

theorem copyLoop_stop {turns : Nat} {next : BodyNext} (hcheck : bodyCheck h = .ok (h', next))
    (hstop : next = .copy → rbp = []) : copyLoop turns h rbp = .ok (h', rbp, next) := by
  unfold copyLoop
  rw [hcheck]
  cases next with
  | copy => exact if_pos (hstop rfl)
  | _ => rfl

theorem copyLoop_turn {turns n : Nat} (hcheck : bodyCheck h = .ok (h', .copy)) (hcopy : Copying h' rbp)
    (hsettled : Settled h') (hne : rbp ≠ []) (hn : n = min (copyCount h' rbp.length).toNat rbp.length) :
    copyLoop (turns + 1) h rbp = copyLoop turns { h' with body := h'.body ++ rbp.take n } (rbp.drop n) := by
  have hcount : 0 < copyCount h' rbp.length := (copyCount_pos hcopy hsettled hne).1
  have hfits : h'.body.length + n < h'.bodyAlloc := (hcopy.turn hsettled hne hn).2.1
  subst hn
  conv_lhs => unfold copyLoop
  rw [hcheck]
  refine (if_neg hne).trans ((if_neg (not_lt.mpr hcount.le)).trans ?_)
  exact if_neg (not_lt.mpr hfits.le)

theorem copyLoop_returns {turns : Nat} (hcopy : Copying h rbp) (hturns : rbp.length ≤ turns) :
    Returns (copyLoop turns h rbp) fun r => r.2.2 ≠ .bad → Copying r.1 r.2.1 := by
  induction turns generalizing h rbp with
  | zero =>
    obtain ⟨⟨h', next⟩, hcheck, hr⟩ := bodyCheck_returns hcopy
    have hnil : rbp = [] := length_eq_zero_iff.mp (Nat.le_zero.mp hturns)
    rw [copyLoop_stop hcheck fun _ => hnil]
    exact returns_ok fun hne => (hr hne).1
  | succ turns ih =>
    obtain ⟨⟨h', next⟩, hcheck, hr⟩ := bodyCheck_returns hcopy
    by_cases hstop : next = .copy → rbp = []
    · rw [copyLoop_stop hcheck hstop]
      exact returns_ok fun hne => (hr hne).1
    · obtain ⟨rfl, hne⟩ : next = .copy ∧ rbp ≠ [] := Classical.not_imp.mp hstop
      have hcopy' : Copying h' rbp := (hr (by simp)).1
      have hsettled : Settled h' := (hr (by simp)).2 (by simp)
      obtain ⟨hpos, -, hnext⟩ := hcopy'.turn hsettled hne rfl
      rw [copyLoop_turn hcheck hcopy' hsettled hne rfl]
      refine ih hnext ?_
      rw [length_drop]
      omega

/-! ## The handler -/

/-- There is nothing of the body yet. -/
structure Fresh (h : Httpread) : Prop extends BodyInv h where
  empty : h.body = []
  unallocated : h.bodyAlloc = 0
  noChunk : h.inChunkData = false
  noTrailer : h.inTrailer = false
  unread : h.gotBody = false

/-- What holds between two calls. -/
structure Waiting (h : Httpread) : Prop extends BodyInv h where
  fresh : h.gotHdr = false → Fresh h

/-- What holds after a call: the NUL goes behind the body. -/
structure Handled (r : Httpread × HttpreadNext) : Prop where
  getMore : r.2 = .getMore → Waiting r.1
  gotFile : r.2 = .gotFile → r.1.bodyAlloc ≠ 0 → r.1.body.length < r.1.bodyAlloc

theorem handled_bad (h : Httpread) : Handled (h, .bad) := ⟨nofun, nofun⟩

theorem BodyInv.waiting (hinv : BodyInv h) (hgotHdr : h.gotHdr = true) : Waiting h :=
  { hinv with fresh := fun hno => absurd (hno.symm.trans hgotHdr) (by decide) }

theorem BodyInv.handled (hinv : BodyInv h) : Handled (h, .gotFile) := by
  refine ⟨nofun, fun _ halloc => ?_⟩
  rcases hinv.fits with hless | ⟨hnone, -⟩
  · exact hless
  · exact absurd hnone halloc

theorem Fresh.waiting (hfresh : Fresh h) : Waiting h := { hfresh with fresh := fun _ => hfresh }

theorem Fresh.hdrInv (hfresh : Fresh h) : HdrInv h := by
  refine ⟨fun hyes => ?_, hfresh.noChunk⟩
  obtain ⟨hle, hmax, -⟩ := hfresh.content hyes
  exact ⟨le_trans (Int.natCast_nonneg _) hle, hmax⟩

theorem readHdr_returns (rbp : Bytes) (hfresh : Fresh h) : Returns (readHdr h rbp) fun r =>
    Fresh r.1 ∧ (r.2 = .more → r.1.gotHdr = h.gotHdr) ∧
      ∀ rest, r.2 = .complete rest → r.1.gotHdr = true ∧ rest.length ≤ rbp.length := by
  induction rbp generalizing h with
  | nil => exact returns_ok ⟨hfresh, fun _ => rfl, nofun⟩
  | cons c rbp ih =>
    have hlen := hfresh.hdr
    unfold readHdr
    refine returns_ite (fun _ => returns_ok ⟨hfresh, nofun, nofun⟩) fun hfull => ?_
    refine returns_ite (fun hout => absurd hout (by omega)) fun hout => ?_
    have hlen' : (h.hdr ++ [c]).length ≤ httpreadHeaderMaxSize := by
      rw [length_append, length_singleton]
      omega
    have hfresh' : Fresh { h with hdr := h.hdr ++ [c] } := { hfresh with hdr := hlen' }
    refine returns_ite (fun _ => returns_ok ⟨{ hfresh' with }, nofun, fun rest hrest => ?_⟩) fun _ => ?_
    · cases hrest
      exact ⟨rfl, Nat.le_succ _⟩
    · refine (ih hfresh').mono ?_
      rintro r ⟨hfresh'', hmore, hrest⟩
      exact ⟨hfresh'', hmore, fun rest heq => ⟨(hrest rest heq).1, (hrest rest heq).2.trans (Nat.le_succ _)⟩⟩

theorem hasNoBody_returns (hlen : h.hdr.length ≤ httpreadHeaderMaxSize) :
    Returns (hasNoBody h) fun _ => True := by
  have ht := text_hdrArray hlen
  have hlower : ∀ c : UInt8, toLower c = toLower 0 → c = 0 := by
    intro c hc
    have hall : ∀ n : Fin 256, toLower (UInt8.ofNat n) = toLower 0 → n = 0 := by decide +kernel
    have hzero := hall ⟨c.toNat, c.toNat_lt⟩ (by rwa [show UInt8.ofNat c.toNat = c from UInt8.ofNat_toNat])
    exact UInt8.toNat_inj.mp (Fin.val_eq_of_eq hzero)
  refine returns_bind (strnEq_returns hlower ht (text_cText _)) fun _ _ => ?_
  refine returns_ite (fun _ => returns_ok trivial) fun _ => ?_
  refine returns_bind (strnEq_returns hlower ht (text_cText _)) fun _ _ => ?_
  refine returns_ite (fun _ => returns_ok trivial) fun _ => ?_
  refine returns_bind (strnEq_returns hlower ht (text_cText _)) fun _ _ => ?_
  refine returns_ite (fun _ => returns_ok trivial) fun _ => ?_
  exact (strnEq_returns hlower ht (text_cText _)).mono fun _ _ => trivial

theorem trailerLoop_handled (hinv : BodyInv h) (hgotHdr : h.gotHdr = true) : Handled (trailerLoop h rbp) := by
  induction rbp generalizing h with
  | nil => exact ⟨fun _ => hinv.waiting hgotHdr, nofun⟩
  | cons c rbp ih =>
    unfold trailerLoop
    cases trailerNext h.trailerState c with
    | none => exact BodyInv.handled { hinv with }
    | some s => exact ih { hinv with } hgotHdr

theorem readTrailer_handled (hinv : BodyInv h) (hgotHdr : h.gotHdr = true) : Handled (readTrailer h rbp) := by
  unfold readTrailer
  split
  · exact trailerLoop_handled hinv hgotHdr
  · exact ⟨fun _ => hinv.waiting hgotHdr, nofun⟩

theorem addBytes_none (hroom : makeRoom h rbp.length = none) : addBytes h rbp = .ok (h, .bad) := by
  unfold addBytes
  rw [hroom, Option.elim_none]

theorem addBytes_some (hroom : makeRoom h rbp.length = some h') :
    addBytes h rbp = (copyLoop rbp.length h' rbp).map afterCopy := by
  unfold addBytes
  rw [hroom, Option.elim_some]

theorem addBytes_handled (hinv : BodyInv h) (hgotHdr : h.gotHdr = true)
    (hread : rbp.length ≤ httpreadReadbufSize) : Returns (addBytes h rbp) Handled := by
  rcases hroom : makeRoom h rbp.length with _ | h'
  · rw [addBytes_none hroom]
    exact returns_ok (handled_bad h)
  have hcopy := makeRoom_copying hinv hgotHdr hread hroom
  obtain ⟨⟨h'', rest, next⟩, hloop, hr⟩ := copyLoop_returns hcopy (le_refl _)
  rw [addBytes_some hroom, hloop]
  refine returns_ok ?_
  cases next with
  | copy => exact readTrailer_handled (hr (by simp)).toBodyInv (hr (by simp)).gotHdr
  | trailer => exact readTrailer_handled (hr (by simp)).toBodyInv (hr (by simp)).gotHdr
  | bad => exact handled_bad h''
  | gotFile => exact (hr (by simp)).toBodyInv.handled

theorem readBody_handled (hinv : BodyInv h) (hgotHdr : h.gotHdr = true)
    (hread : rbp.length ≤ httpreadReadbufSize) : Returns (readBody h rbp) Handled := by
  refine returns_bind (hasNoBody_returns hinv.hdr) fun noBody _ => ?_
  refine returns_ite (fun _ => returns_ok (BodyInv.handled { hinv with })) fun _ => ?_
  refine returns_ite (fun _ => returns_ok ?_) fun _ => ?_
  · exact ⟨fun _ => hinv.waiting hgotHdr, nofun⟩
  refine returns_ite (fun _ => returns_ok (readTrailer_handled hinv hgotHdr)) fun _ => ?_
  exact addBytes_handled hinv hgotHdr hread

theorem Header.bodyInv (hheader : Header h h') (hfresh : Fresh h) (hmax : h'.maxBytes ≠ 0) : BodyInv h' := by
  have hpart := hheader.bodyPart
  simp only [Httpread.bodyPart, Prod.mk.injEq] at hpart
  obtain ⟨⟨-, hhdr, -, hbody⟩, halloc, hstart, -⟩ := hpart
  have hbytes : h'.maxBytes = h.maxBytes := hheader.maxBytes.resolve_right hmax
  have hempty : h'.body.length = 0 := by rw [hbody, hfresh.empty, length_nil]
  have hnone : h'.bodyAlloc = 0 := halloc.trans hfresh.unallocated
  exact {
    hdr := hhdr ▸ hfresh.hdr
    maxBytes := hbytes ▸ hfresh.maxBytes
    bodyAlloc := halloc ▸ hfresh.bodyAlloc
    limit := fun hne => absurd hnone hne
    steps := fun _ => by
      rw [hnone]
      exact Nat.dvd_zero _
    chunked := hheader.chunked
    content := fun hgot => by
      obtain ⟨hnonneg, hle⟩ := hheader.contentLength hgot
      rw [hempty, hbytes]
      exact ⟨hnonneg, hle, fun hne => absurd hnone hne⟩
    fits := .inr ⟨hnone, hbody.trans hfresh.empty⟩
    chunkStart := by
      have hle := hfresh.chunkStart
      rw [hstart, hbody]
      exact hle
    chunkData := fun _ hdata => absurd (hdata.symm.trans hheader.inChunkData) (by decide) }

theorem readHeader_handled (hfresh : Fresh h) (hgotHdr : h.gotHdr = false)
    (hread : rbp.length ≤ httpreadReadbufSize) : Returns (readMore h rbp) Handled := by
  unfold readMore
  rw [if_neg (by simp [hgotHdr])]
  refine returns_bind (readHdr_returns _ hfresh) fun r hr => ?_
  obtain ⟨h', next⟩ := r
  obtain ⟨hfresh', -, hrest⟩ := hr
  cases next with
  | more => exact returns_ok ⟨fun _ => hfresh'.waiting, nofun⟩
  | tooLong => exact returns_ok (handled_bad h')
  | complete rest =>
    obtain ⟨hgot, hlen⟩ := hrest rest rfl
    refine returns_bind (hdrAnalyze_returns hfresh'.hdr hfresh'.hdrInv) fun a ha => ?_
    refine returns_ite (fun _ => returns_ok (handled_bad _)) fun hok => ?_
    have hheader : Header h' a.1 := ha.2 (not_not.mp hok)
    have hpart := hheader.bodyPart
    simp only [bodyPart, Prod.mk.injEq] at hpart
    have hnone : a.1.bodyAlloc = 0 := hpart.2.1.trans hfresh'.unallocated
    have hended : Handled (a.1, .gotFile) := ⟨nofun, fun _ hne => absurd hnone hne⟩
    refine returns_ite (fun _ => returns_ok hended) fun hmax => ?_
    refine returns_ite (fun _ => returns_ok hended) fun _ => ?_
    exact readBody_handled (hheader.bodyInv hfresh' hmax) (hpart.1.1.trans hgot) (hlen.trans hread)

theorem readMore_handled (hwait : Waiting h) (hread : rbp.length ≤ httpreadReadbufSize) :
    Returns (readMore h rbp) Handled := by
  by_cases hgotHdr : h.gotHdr = true
  · unfold readMore
    rw [if_pos hgotHdr]
    exact readBody_handled hwait.toBodyInv hgotHdr hread
  · have hno := Bool.eq_false_of_not_eq_true hgotHdr
    exact readHeader_handled (hwait.fresh hno) hno hread

theorem readEof_handled (hwait : Waiting h) : Handled (readEof h) := by
  unfold readEof
  by_cases hgotHdr : h.gotHdr = true
  · rw [if_neg (not_not.mpr hgotHdr)]
    split_ifs
    · exact handled_bad h
    · exact BodyInv.handled { hwait with }
  · rw [if_pos hgotHdr]
    exact handled_bad h

theorem terminate_handled {r : Httpread × HttpreadNext} (hr : Handled r) : terminate r = .ok r := by
  unfold terminate
  rw [if_neg]
  rintro ⟨hfile, halloc, hle⟩
  exact absurd (hr.gotFile hfile halloc) (not_lt.mpr hle)

theorem readOne_returns (hwait : Waiting h) (read : Option ReadBuf) :
    Returns (readOne h read) fun r => r.2 = .getMore → Waiting r.1 := by
  cases read with
  | none => exact returns_ok nofun
  | some buf =>
    obtain ⟨octets, hle⟩ := buf
    cases octets with
    | nil => exact ⟨_, terminate_handled (readEof_handled hwait), (readEof_handled hwait).getMore⟩
    | cons c rbp =>
      refine returns_bind (readMore_handled hwait hle) fun r hr => ?_
      exact ⟨r, terminate_handled hr, hr.getMore⟩

theorem run_returns (hwait : Waiting h) (reads : List (Option ReadBuf)) :
    Returns (run h reads) fun _ => True := by
  induction reads generalizing h with
  | nil => exact returns_ok trivial
  | cons read reads ih =>
    refine returns_bind (readOne_returns hwait read) fun r hr => ?_
    exact returns_ite (fun hmore => ih (hr hmore)) fun _ => returns_ok trivial

end Body

theorem waiting_create (maxBytes : Int32) : Waiting (create maxBytes.toInt) := by
  have hmax : maxBytes.toInt < 2 ^ 31 := maxBytes.toInt_lt
  have hfresh : Fresh (create maxBytes.toInt) := {
    hdr := Nat.zero_le _
    maxBytes := hmax
    bodyAlloc := show 0 < 2 ^ 31 by decide
    limit := fun hne => absurd rfl hne
    steps := fun _ => Nat.dvd_zero _
    chunked := nofun
    content := nofun
    fits := .inr ⟨rfl, rfl⟩
    chunkStart := le_refl _
    chunkData := nofun
    empty := rfl
    unallocated := rfl
    noChunk := rfl
    noTrailer := rfl
    unread := rfl }
  exact hfresh.waiting

end Httpread

open Httpread in
/-- Whatever is read, in whatever pieces: the reader is not outside of its buffers, and it does not run on. -/
theorem httpread_stays_inside (maxBytes : Int32) (reads : List (Option ReadBuf)) :
    Avoids .outside (run (create maxBytes.toInt) reads) ∧
      Avoids .running (run (create maxBytes.toInt) reads) := by
  have hreturns := run_returns (waiting_create maxBytes) reads
  exact ⟨hreturns.avoids, hreturns.avoids⟩

end Hostap
