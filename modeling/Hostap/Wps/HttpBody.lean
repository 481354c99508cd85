import Hostap.Wps.HttpCuts
import Hostap.Wps.HttpFields

/-!
# The body is what the header announces

`Announced` says which octets behind the header are the body, and `httpread_body` that the reader finds them: if
no read begins in the trailer, the numbers that the message is read by fit into an `int`, and there is a blank
behind the names of its fields. The limit holds of what is announced then (`WithinLimit`): it is enforced by the
size of the buffer only, which may be longer.
-/

namespace Hostap

open Octets Output Common Bounded Feed List

namespace Httpread

/-! ## Chunks -/

def crlf : Bytes := [0x0d, 0x0a]

def Unbroken (line : Bytes) : Prop := ¬ crlf <:+: line

def chunkNumber (line : Bytes) : Nat := (digitsIn 16 0 (if hasHexPrefix line then line.drop 2 else line)).1

/-- A chunk with its header. -/
structure Chunk where
  line : Bytes
  data : Bytes
  unbroken : Unbroken line
  size : chunkNumber line = data.length
  nonempty : data ≠ []

/-- The header of the last chunk. -/
structure IsLast (line : Bytes) : Prop where
  unbroken : Unbroken line
  digit : ∃ c ∈ line.head?, isXdigit c = true
  zero : chunkNumber line = 0

def Chunk.written (c : Chunk) : Bytes := c.line ++ crlf ++ c.data ++ crlf

def written (cs : List Chunk) : Bytes := cs.flatMap Chunk.written

def chunkData (cs : List Chunk) : Bytes := cs.flatMap Chunk.data

/-! ## The body -/

/-- The body of a message with these octets behind its header. -/
def Announced : Framing → (rest body : Bytes) → Prop
  | .chunks, rest, body => ∃ cs line trailer, IsLast line ∧ rest = written cs ++ line ++ crlf ++ trailer ∧
      body = chunkData cs
  | .length n, rest, body => n ≤ rest.length ∧ body = rest.take n
  | .untilEof, rest, body => body = rest

/-- The numbers fit into an `int`. -/
def SizesFit : Framing → Bytes → Prop
  | .chunks, rest => ∀ cs line, Unbroken line → written cs ++ line ++ crlf <+: rest → chunkNumber line < 2 ^ 31
  | .length n, _ => n < 2 ^ 31
  | .untilEof, _ => True

/-- What is announced is within the limit. A length is compared with it. -/
def WithinLimit (maxBytes : Int) : Framing → Bytes → Prop
  | .chunks, rest => ∀ cs, written cs <+: rest → ((chunkData cs).length : Int) ≤ maxBytes
  | .length _, _ => True
  | .untilEof, rest => (rest.length : Int) ≤ maxBytes

/-! ## Numbers -/

section Numbers

variable {line part : Bytes} {c : UInt8}

theorem ends_crlf : Ends crlf := nofun

theorem hasHexPrefix_crlf (line : Bytes) : hasHexPrefix (line ++ crlf) = hasHexPrefix line := by
  match line with
  | [] => rfl
  | [z] => simp [hasHexPrefix, crlf]
  | [z, x] => simp [hasHexPrefix, crlf, hex2num]
  | z :: x :: h :: t => rfl

theorem chunkNumber_crlf (line : Bytes) : chunkNumber (line ++ crlf) = chunkNumber line := by
  unfold chunkNumber
  rw [hasHexPrefix_crlf]
  split_ifs with hprefix
  · have hlen : 2 ≤ line.length := by
      match line with
      | [] => cases hprefix
      | [_] => cases hprefix
      | _ :: _ :: _ => exact Nat.le_add_left _ _
    rw [drop_append_of_le_length hlen, digitsIn_append ends_crlf]
  · rw [digitsIn_append ends_crlf]

theorem strtoulHex_ok {value : Int} (h : strtoulHex line = .ok value) :
    value = (min (2 ^ 64 - 1) (chunkNumber line) : Nat) := by
  unfold strtoulHex at h
  dsimp only at h
  split_ifs at h with hprefix
  · cases h
    unfold chunkNumber
    rw [if_pos hprefix]
    omega
  · cases h
    unfold chunkNumber
    rw [if_neg hprefix]
    omega

theorem toInt_chunkNumber {value : Int} (h : strtoulHex (line ++ crlf) = .ok value)
    (hfits : chunkNumber line < 2 ^ 31) : toInt value = chunkNumber line := by
  rw [strtoulHex_ok h, chunkNumber_crlf]
  exact (toInt_eq (by omega) (by omega)).trans (by omega)

end Numbers

/-! ## There is one way to read chunks -/

section Unique

variable {line line' a b : Bytes}

theorem line_le (hline' : Unbroken line') (heq : line ++ crlf ++ a = line' ++ crlf ++ b) {u : Bytes}
    (hu : line' = line ++ u) : u = [] := by
  rw [hu, append_assoc, append_assoc, append_assoc] at heq
  have hrest := append_cancel_left heq
  match u with
  | [] => rfl
  | [c] =>
    -- the CR would be followed by another
    simp [crlf] at hrest
  | c :: d :: u =>
    simp only [crlf, cons_append, nil_append, List.cons.injEq] at hrest
    obtain ⟨rfl, rfl, -⟩ := hrest
    exact absurd ⟨line, u, by rw [hu]; simp [crlf]⟩ hline'

theorem line_unique (hline : Unbroken line) (hline' : Unbroken line')
    (heq : line ++ crlf ++ a = line' ++ crlf ++ b) : line = line' ∧ a = b := by
  have hsame : line = line' := by
    have hsplit := heq
    rw [append_assoc, append_assoc] at hsplit
    rcases append_eq_append_iff.mp hsplit with ⟨u, hu, -⟩ | ⟨u, hu, -⟩
    · rw [hu, line_le hline' heq hu, append_nil]
    · rw [hu, line_le hline heq.symm hu, append_nil]
  subst hsame
  exact ⟨rfl, append_cancel_left heq⟩

theorem chunk_unique {c c' : Chunk} (heq : c.written ++ a = c'.written ++ b) : c = c' ∧ a = b := by
  obtain ⟨line, data, hline, hsize, hne⟩ := c
  obtain ⟨line', data', hline', hsize', hne'⟩ := c'
  have hlines : line ++ crlf ++ (data ++ (crlf ++ a)) = line' ++ crlf ++ (data' ++ (crlf ++ b)) := by
    simpa [Chunk.written] using heq
  obtain ⟨rfl, hrest⟩ := line_unique hline hline' hlines
  obtain ⟨rfl, hends⟩ := append_inj hrest (hsize.symm.trans hsize')
  exact ⟨rfl, append_cancel_left hends⟩

theorem written_prefix {cs cs' : List Chunk} (hlast : IsLast line)
    (heq : written cs' ++ a = written cs ++ line ++ crlf ++ b) : ∃ ds, cs = cs' ++ ds := by
  induction cs' generalizing cs with
  | nil => exact ⟨cs, rfl⟩
  | cons c' cs' ih =>
    cases cs with
    | nil =>
      have hlines : c'.line ++ crlf ++ (c'.data ++ (crlf ++ (written cs' ++ a))) = line ++ crlf ++ b := by
        simpa [written, Chunk.written] using heq
      have hzero := c'.size
      rw [(line_unique c'.unbroken hlast.unbroken hlines).1, hlast.zero] at hzero
      exact absurd (length_eq_zero_iff.mp hzero.symm) c'.nonempty
    | cons c cs =>
      have hchunks : c'.written ++ (written cs' ++ a) = c.written ++ (written cs ++ line ++ crlf ++ b) := by
        simpa [written] using heq
      obtain ⟨rfl, hrest⟩ := chunk_unique hchunks
      obtain ⟨ds, rfl⟩ := ih hrest
      exact ⟨ds, rfl⟩

theorem announced_unique {f : Framing} {rest body body' : Bytes} (hbody : Announced f rest body)
    (hbody' : Announced f rest body') : body = body' := by
  cases f with
  | length n => exact hbody.2.trans hbody'.2.symm
  | untilEof => exact hbody.trans hbody'.symm
  | chunks =>
    obtain ⟨cs, line, trailer, hlast, hrest, rfl⟩ := hbody
    obtain ⟨cs', line', trailer', hlast', hrest', rfl⟩ := hbody'
    have heq : written cs' ++ (line' ++ crlf ++ trailer') = written cs ++ line ++ crlf ++ trailer := by
      rw [← hrest, hrest']
      simp
    have heq' : written cs ++ (line ++ crlf ++ trailer) = written cs' ++ line' ++ crlf ++ trailer' := by
      rw [← hrest', hrest]
      simp
    obtain ⟨ds, rfl⟩ := written_prefix hlast heq
    obtain ⟨ds', hds'⟩ := written_prefix hlast' heq'
    rw [append_assoc] at hds'
    have hnil : ds ++ ds' = [] := self_eq_append_right.mp hds'
    rw [(append_eq_nil_iff.mp hnil).1, append_nil]

theorem withinLimit_iff {f : Framing} {rest body : Bytes} {maxBytes : Int} (hbody : Announced f rest body)
    (hlength : ∀ n, f = .length n → (n : Int) ≤ maxBytes) :
    (body.length : Int) ≤ maxBytes ↔ WithinLimit maxBytes f rest := by
  cases f with
  | length n =>
    obtain ⟨hle, rfl⟩ := hbody
    have hn := hlength n rfl
    rw [length_take]
    exact ⟨fun _ => trivial, fun _ => by omega⟩
  | untilEof =>
    obtain rfl : body = rest := hbody
    exact Iff.rfl
  | chunks =>
    obtain ⟨cs, line, trailer, hlast, hrest, rfl⟩ := hbody
    constructor
    · rintro hle cs' ⟨t, ht⟩
      obtain ⟨ds, rfl⟩ := written_prefix hlast (ht.trans hrest)
      have hlen : (chunkData (cs' ++ ds)).length = (chunkData cs').length + (chunkData ds).length := by
        unfold chunkData
        rw [flatMap_append, length_append]
      omega
    · intro hwithin
      refine hwithin cs ⟨line ++ crlf ++ trailer, ?_⟩
      rw [hrest]
      simp

end Unique

/-! ## Reading chunks -/

/-- Where the reader is in octets that are sent in chunks. -/
inductive Progress (u : Bytes) (h : Httpread) : Prop
  | line (cs : List Chunk) (part : Bytes) (hread : u = written cs ++ part) (hpart : Unbroken part)
      (htrailer : h.inTrailer = false) (hdata : h.inChunkData = false) (hbody : h.body = chunkData cs ++ part)
      (hstart : h.chunkStart = (chunkData cs).length)
  | data (cs : List Chunk) (line part : Bytes) (hread : u = written cs ++ line ++ crlf ++ part)
      (hline : Unbroken line) (htrailer : h.inTrailer = false) (hdata : h.inChunkData = true)
      (hbody : h.body = chunkData cs ++ part) (hstart : h.chunkStart = (chunkData cs).length)
      (hsize : h.chunkSize = chunkNumber line) (hpos : 0 < chunkNumber line)
      (hless : part.length < chunkNumber line + 2) (hsmall : chunkNumber line + 2 < 2 ^ 31)
  | trailer (cs : List Chunk) (line tail : Bytes) (hread : u = written cs ++ line ++ crlf ++ tail)
      (hlast : IsLast line) (htrailer : h.inTrailer = true) (hbody : h.body = chunkData cs)

section Reading

variable {h h' : Httpread} {u part line : Bytes} {c : UInt8} {n : HttpreadNext}

theorem unbroken_prefix (hpart : Unbroken part) (hfront : line <+: part) : Unbroken line :=
  fun hin => hpart (hin.trans hfront.isInfix)

theorem unbroken_concat (hpart : Unbroken part) (hend : ¬ crlf <:+ part ++ [c]) : Unbroken (part ++ [c]) := by
  rintro ⟨front, rest, heq⟩
  rcases eq_nil_or_concat rest with rfl | ⟨rest, d, rfl⟩
  · rw [append_nil] at heq
    exact hend ⟨front, heq⟩
  · rw [concat_eq_append, ← append_assoc] at heq
    exact hpart ⟨front, rest, append_inj_left' heq rfl⟩

theorem suffix_of_drop {body front part : Bytes} (hbody : body = front ++ part)
    (hlen : front.length + 2 ≤ body.length) (hend : body.drop (body.length - 2) = crlf) : crlf <:+ part := by
  have hpart : 2 ≤ part.length := by
    rw [hbody, length_append] at hlen
    omega
  refine ⟨part.take (part.length - 2), ?_⟩
  have hsame : body.drop (body.length - 2) = part.drop (part.length - 2) := by
    have hlast : front.length + part.length - 2 = front.length + (part.length - 2) := by omega
    rw [hbody, length_append, hlast, ← drop_drop, drop_left]
  rw [← hend, hsame, take_append_drop]

theorem drop_of_suffix {body front part : Bytes} (hbody : body = front ++ part) (hend : crlf <:+ part) :
    front.length + 2 ≤ body.length ∧ body.drop (body.length - 2) = crlf := by
  obtain ⟨t, rfl⟩ := hend
  rw [hbody, ← append_assoc, length_append]
  refine ⟨?_, drop_left' rfl⟩
  rw [length_append]
  exact Nat.add_le_add_right (Nat.le_add_right _ _) 2

theorem bodyCheck_digit {next : BodyNext} (hchunked : h.chunked = true) (hdata : h.inChunkData = false)
    (hend : h.chunkStart + 2 ≤ h.body.length ∧ h.body.drop (h.body.length - 2) = crlf)
    (hr : bodyCheck h = .ok (h', next)) (hnext : next ≠ .bad) :
    ∃ c ∈ (h.body.drop h.chunkStart).head?, isXdigit c = true := by
  unfold bodyCheck at hr
  rw [if_pos ⟨hchunked, by simp [hdata]⟩, if_neg (not_lt.mpr hend.1)] at hr
  obtain ⟨complete, hcomplete, hr⟩ := except_bind_ok hr
  obtain ⟨-, rfl⟩ := endsLine_ok hcomplete
  have hcrlf : h.body.drop (h.body.length - 2) = [0x0d, 0x0a] := hend.2
  rw [if_pos (beq_iff_eq.mpr hcrlf)] at hr
  obtain ⟨c, hpeek, hr⟩ := except_bind_ok hr
  split_ifs at hr with hdigit
  · refine ⟨c, ?_, hdigit⟩
    cases hline : h.body.drop h.chunkStart with
    | nil =>
      rw [hline] at hpeek
      cases hpeek
    | cons d t =>
      rw [hline] at hpeek
      cases hpeek
      rfl
  · cases hr
    exact absurd rfl hnext

def HeadersFit (u : Bytes) : Prop :=
  ∀ cs line, Unbroken line → written cs ++ line ++ crlf <+: u → chunkNumber line < 2 ^ 31

theorem progress_line {cs : List Chunk} {r : Httpread × BodyNext} (hread : u = written cs ++ part)
    (hpart : Unbroken part) (htrailer : h.inTrailer = false) (hdata : h.inChunkData = false)
    (hbody : h.body = chunkData cs ++ part) (hstart : h.chunkStart = (chunkData cs).length)
    (hfits : HeadersFit (u ++ [c])) (hlimit : ¬ Refused h)
    (hr : bodyCheck { h with body := h.body ++ [c] } = .ok r) (hchunked : h.chunked = true)
    (hmore : r.2.next = .getMore) : Progress (u ++ [c]) r.1 := by
  have hbody' : h.body ++ [c] = chunkData cs ++ (part ++ [c]) := by rw [hbody, append_assoc]
  -- a header with its end
  have hheader : crlf <:+ part ++ [c] → ∃ line, part ++ [c] = line ++ crlf ∧ Unbroken line := by
    rintro ⟨line, hline⟩
    refine ⟨line, hline.symm, unbroken_prefix hpart ⟨[0x0d], ?_⟩⟩
    have hsame : (line ++ [0x0d]) ++ [0x0a] = part ++ [c] := by
      rw [← hline]
      simp [crlf]
    exact append_inj_left' hsame rfl
  have hdrop : (h.body ++ [c]).drop h.chunkStart = part ++ [c] := by
    rw [hbody', hstart, drop_left]
  have htake : (h.body ++ [c]).take h.chunkStart = chunkData cs := by
    rw [hbody', hstart, take_left]
  cases bodyCheck_checked hr with
  | line _ _ hopen =>
    refine .line cs (part ++ [c]) ?_ (unbroken_concat hpart fun hend => ?_) htrailer hdata hbody' hstart
    · rw [hread, append_assoc]
    · obtain ⟨hlen, heq⟩ := drop_of_suffix hbody' hend
      rw [← hstart] at hlen
      rcases hopen with hless | hne
      · exact absurd hless (not_lt.mpr hlen)
      · exact hne heq
  | size value _ _ hlen hend hvalue hpos hmax =>
    obtain ⟨line, hline, hunbroken⟩ := hheader (suffix_of_drop hbody' (hstart ▸ hlen) hend)
    have hsent : u ++ [c] = written cs ++ line ++ crlf := by
      rw [hread, append_assoc, hline, append_assoc]
    have hvalue : strtoulHex ((h.body ++ [c]).drop h.chunkStart) = .ok value := hvalue
    rw [hdrop, hline] at hvalue
    have hsize := toInt_chunkNumber hvalue (hfits cs line hunbroken (hsent ▸ prefix_refl _))
    have hmax : toInt value ≤ h.maxBytes := hmax
    unfold Refused at hlimit
    simp only [httpreadBodybufDelta] at hlimit
    refine .data cs line [] ?_ hunbroken htrailer rfl ?_ hstart hsize ?_ ?_ ?_
    · rw [hsent, append_nil]
    · rw [append_nil]
      exact htake
    · omega
    · exact Nat.succ_pos _
    · omega
  | last value _ _ hlen hend hvalue hzero =>
    obtain ⟨line, hline, hunbroken⟩ := hheader (suffix_of_drop hbody' (hstart ▸ hlen) hend)
    have hsent : u ++ [c] = written cs ++ line ++ crlf := by
      rw [hread, append_assoc, hline, append_assoc]
    have hdigit := bodyCheck_digit (h := { h with body := h.body ++ [c] }) hchunked hdata ⟨hlen, hend⟩ hr
      (by simp)
    have hdigit : ∃ d ∈ ((h.body ++ [c]).drop h.chunkStart).head?, isXdigit d = true := hdigit
    have hvalue : strtoulHex ((h.body ++ [c]).drop h.chunkStart) = .ok value := hvalue
    rw [hdrop, hline] at hvalue hdigit
    have hsize := toInt_chunkNumber hvalue (hfits cs line hunbroken (hsent ▸ prefix_refl _))
    refine .trailer cs line [] ?_ ⟨hunbroken, ?_, ?_⟩ rfl htake
    · rw [hsent, append_nil]
    · cases line with
      | nil =>
        -- CR is none
        obtain ⟨d, hd, hyes⟩ := hdigit
        cases hd
        cases hyes
      | cons d line => exact hdigit
    · omega
  | data _ hyes => exact absurd (hyes.symm.trans hdata) (by decide)
  | chunk _ hyes => exact absurd (hyes.symm.trans hdata) (by decide)
  | rest hno => exact absurd (hno.symm.trans hchunked) (by decide)
  | whole hno => exact absurd (hno.symm.trans hchunked) (by decide)
  | bad => cases hmore

theorem progress_data {cs : List Chunk} {r : Httpread × BodyNext}
    (hread : u = written cs ++ line ++ crlf ++ part) (hline : Unbroken line) (htrailer : h.inTrailer = false)
    (hdata : h.inChunkData = true) (hbody : h.body = chunkData cs ++ part)
    (hstart : h.chunkStart = (chunkData cs).length) (hsize : h.chunkSize = chunkNumber line)
    (hpos : 0 < chunkNumber line) (hless : part.length < chunkNumber line + 2)
    (hsmall : chunkNumber line + 2 < 2 ^ 31) (hr : bodyCheck { h with body := h.body ++ [c] } = .ok r)
    (hchunked : h.chunked = true) (hmore : r.2.next = .getMore) : Progress (u ++ [c]) r.1 := by
  have hbody' : h.body ++ [c] = chunkData cs ++ (part ++ [c]) := by rw [hbody, append_assoc]
  have hread' : u ++ [c] = written cs ++ line ++ crlf ++ (part ++ [c]) := by rw [hread, append_assoc]
  have hlen : ((h.body ++ [c]).length : Int) - h.chunkStart = (part ++ [c]).length := by
    rw [hbody', hstart, @length_append _ (chunkData cs)]
    omega
  have hwrap : toInt (h.chunkSize + 2) = chunkNumber line + 2 := by
    rw [hsize]
    exact toInt_eq (by omega) (by omega)
  cases bodyCheck_checked hr with
  | data _ _ hopen =>
    have hopen : ((h.body ++ [c]).length : Int) - h.chunkStart ≠ toInt (h.chunkSize + 2) := hopen
    rw [hlen, hwrap, length_append, length_singleton] at hopen
    refine .data cs line (part ++ [c]) hread' hline htrailer hdata hbody' hstart hsize hpos ?_ hsmall
    rw [length_append, length_singleton]
    omega
  | chunk _ _ hfull hlen2 hend =>
    have hfull : ((h.body ++ [c]).length : Int) - h.chunkStart = toInt (h.chunkSize + 2) := hfull
    rw [hlen, hwrap] at hfull
    have hlong : (chunkData cs).length + 2 ≤ (h.body ++ [c]).length := by
      rw [hbody', @length_append _ (chunkData cs)]
      omega
    obtain ⟨data, hpart⟩ := suffix_of_drop hbody' hlong hend
    have hdataLen : chunkNumber line = data.length := by
      rw [← hpart, length_append, show crlf.length = 2 from rfl] at hfull
      omega
    have hne : data ≠ [] := fun hnil => by
      rw [hnil] at hdataLen
      exact absurd hdataLen (Nat.pos_iff_ne_zero.mp hpos)
    have hcs : chunkData (cs ++ [⟨line, data, hline, hdataLen, hne⟩]) = chunkData cs ++ data := by
      unfold chunkData
      rw [flatMap_append, flatMap_singleton]
    have htake : (h.body ++ [c]).take ((h.body ++ [c]).length - 2) = chunkData cs ++ data := by
      rw [hbody', ← hpart, ← append_assoc]
      exact take_left' (by rw [@length_append _ _ crlf]; rfl)
    refine .line (cs ++ [⟨line, data, hline, hdataLen, hne⟩]) [] ?_ ?_ htrailer rfl ?_ ?_
    · rw [hread', ← hpart, append_nil]
      unfold written
      rw [flatMap_append, flatMap_singleton]
      simp [Chunk.written]
    · intro hin
      exact absurd hin.length_le (by decide)
    · rw [hcs, append_nil]
      exact htake
    · rw [hcs]
      exact congrArg List.length htake
  | line _ hno => exact absurd (hdata.symm.trans hno) (by decide)
  | size _ _ hno => exact absurd (hdata.symm.trans hno) (by decide)
  | last _ _ hno => exact absurd (hdata.symm.trans hno) (by decide)
  | rest hno => exact absurd (hno.symm.trans hchunked) (by decide)
  | whole hno => exact absurd (hno.symm.trans hchunked) (by decide)
  | bad => cases hmore

theorem progress_octet (hcore : Core h) (hchunked : h.chunked = true) (hprogress : Progress u h)
    (hfits : HeadersFit (u ++ [c])) (hoctet : octet h c = .ok (h', .getMore)) : Progress (u ++ [c]) h' := by
  by_cases htrailer : h.inTrailer = true
  · rw [octet_trailer hcore.gotHdr htrailer] at hoctet
    unfold trailerOctet at hoctet
    rcases hnext : trailerNext h.trailerState c with _ | s
    · rw [hnext] at hoctet
      cases hoctet
    · rw [hnext] at hoctet
      cases hoctet
      cases hprogress with
      | line _ _ _ _ hno => exact absurd (htrailer.symm.trans hno) (by decide)
      | data _ _ _ _ _ hno => exact absurd (htrailer.symm.trans hno) (by decide)
      | trailer cs line tail hread hlast _ hbody =>
        exact .trailer cs line (tail ++ [c]) (by rw [hread, append_assoc]) hlast htrailer hbody
  have hno := Bool.eq_false_of_not_eq_true htrailer
  by_cases hlimit : Refused h
  · rw [octet_refused hcore.gotHdr hno hlimit] at hoctet
    cases hoctet
  rw [octet_body hcore.gotHdr hno hlimit] at hoctet
  obtain ⟨r, hr, heq⟩ := except_map_ok hoctet
  obtain ⟨rfl, hmore⟩ := Prod.mk.inj heq
  cases hprogress with
  | line cs part hread hpart _ hdata hbody hstart =>
    exact progress_line hread hpart hno hdata hbody hstart hfits hlimit hr hchunked hmore
  | data cs line part hread hline _ hdata hbody hstart hsize hpos hless hsmall =>
    exact progress_data hread hline hno hdata hbody hstart hsize hpos hless hsmall hr hchunked hmore
  | trailer _ _ _ _ _ hyes => exact absurd hyes htrailer

theorem progress_feed {s : Bytes} (hcore : Core h) (hchunked : h.chunked = true) (hprogress : Progress u h)
    (hfits : HeadersFit (u ++ s)) (hfeed : feed octet .getMore h s = .ok (h', .getMore)) :
    Progress (u ++ s) h' := by
  induction s generalizing h u with
  | nil =>
    cases hfeed
    rw [append_nil]
    exact hprogress
  | cons c s ih =>
    obtain ⟨h₁, hoctet, hrest⟩ := feed_cons_more hfeed
    have hsent : u ++ c :: s = (u ++ [c]) ++ s := by simp
    have hfirst : HeadersFit (u ++ [c]) := fun cs line hline hprefix =>
      hfits cs line hline ( hprefix.trans ⟨s, hsent.symm⟩)
    rw [hsent] at hfits ⊢
    exact ih (octet_core hcore hoctet) ((octet_chunked hcore.gotHdr hoctet).trans hchunked)
      (progress_octet hcore hchunked hprogress hfirst hoctet) hfits hrest

end Reading

/-! ## The header and what is behind it -/

section Stream

variable {s hdr rest : Bytes} {maxBytes : Int32} {h h' h₀ : Httpread} {n : HttpreadNext}

theorem readHdr_complete {front : Bytes} {h₁ : Httpread} (hlen : front.length ≤ httpreadHeaderMaxSize)
    (hopen : ∀ n ≤ front.length, hdrComplete (front.take n) = false)
    (hread : readHdr { create maxBytes.toInt with hdr := front } s = .ok (h₁, .complete rest)) :
    ∃ u, s = u ++ rest ∧ h₁ = withHeader maxBytes (front ++ u) ∧ IsHeader (front ++ u) := by
  induction s generalizing front with
  | nil => cases hread
  | cons c s ih =>
    unfold readHdr at hread
    dsimp only at hread
    by_cases hfull : front.length = httpreadHeaderMaxSize
    · rw [if_pos hfull] at hread
      cases hread
    rw [if_neg hfull, if_neg (by omega)] at hread
    have hlen' : (front ++ [c]).length ≤ httpreadHeaderMaxSize := by
      rw [length_append, length_singleton]
      omega
    by_cases hcomplete : hdrComplete (front ++ [c]) = true
    · rw [if_pos hcomplete] at hread
      cases hread
      refine ⟨[c], rfl, rfl, hlen', hcomplete, fun n hn => ?_⟩
      rw [length_append, length_singleton] at hn
      rw [take_append_of_le_length (by omega)]
      exact hopen n (by omega)
    · rw [if_neg hcomplete] at hread
      have hopen' : ∀ n ≤ (front ++ [c]).length, hdrComplete ((front ++ [c]).take n) = false := by
        intro n hn
        by_cases hall : n ≤ front.length
        · rw [take_append_of_le_length hall]
          exact hopen n hall
        · rw [length_append, length_singleton] at hn
          rw [take_of_length_le (by rw [length_append, length_singleton]; omega)]
          exact Bool.eq_false_of_not_eq_true hcomplete
      obtain ⟨u, rfl, hh₁, hhdr⟩ := ih hlen' hopen' hread
      rw [append_assoc] at hh₁ hhdr
      exact ⟨c :: u, rfl, hh₁, hhdr⟩

theorem feed_split (hn : n = .getMore ∧ h'.gotHdr = true ∨ n = .gotFile)
    (hfeed : feed octet .getMore (create maxBytes.toInt) s = .ok (h', n)) :
    ∃ hdr rest h₀, s = hdr ++ rest ∧ IsHeader hdr ∧ hdrAnalyze (withHeader maxBytes hdr) = .ok (h₀, true) ∧
      (ReadsBody h₀ → feed octet .getMore h₀ rest = .ok (h', n)) := by
  have hfeed' := hfeed
  rw [feed_header rfl (Nat.zero_le _)] at hfeed'
  obtain ⟨⟨h₁, next⟩, hread, hfeed'⟩ := except_bind_ok hfeed'
  have hnotBad : n ≠ .bad := by
    rcases hn with ⟨rfl, -⟩ | rfl <;> decide
  cases next with
  | more =>
    -- there is no header yet
    obtain ⟨rfl, rfl⟩ := Prod.mk.inj (Except.ok.inj hfeed')
    obtain ⟨r, hr, hfresh, hmore, -⟩ := readHdr_returns s ((waiting_create maxBytes).fresh rfl)
    obtain rfl : (h₁, HdrNext.more) = r := Except.ok.inj (hread.symm.trans hr)
    have hno : h₁.gotHdr = false := hmore rfl
    rcases hn with ⟨-, hyes⟩ | hn
    · exact absurd (hyes.symm.trans hno) (by decide)
    · cases hn
  | tooLong =>
    cases hfeed'
    exact absurd rfl hnotBad
  | complete rest =>
    have hnil : ∀ n ≤ ([] : Bytes).length, hdrComplete (([] : Bytes).take n) = false := by
      intro n _
      rw [take_nil]
      rfl
    obtain ⟨hdr, rfl, -, hhdr⟩ := readHdr_complete (Nat.zero_le _) hnil hread
    rw [nil_append] at hhdr
    rw [feed_header_body hhdr] at hfeed
    obtain ⟨⟨a, m⟩, hafter, hfeed⟩ := except_bind_ok hfeed
    have hfresh := fresh_withHeader maxBytes hhdr
    obtain ⟨⟨h₀, ok⟩, hanalyze, -⟩ := hdrAnalyze_returns hfresh.hdr hfresh.hdrInv
    cases ok with
    | false =>
      unfold afterHeader at hafter
      rw [hanalyze] at hafter
      cases hafter
      cases hfeed
      exact absurd rfl hnotBad
    | true =>
      refine ⟨hdr, rest, h₀, rfl, hhdr, hanalyze, fun hbody => ?_⟩
      have hsame := hafter.symm.trans ((afterHeader_more hanalyze).mpr ⟨hbody, rfl⟩)
      obtain ⟨rfl, rfl⟩ := Prod.mk.inj (Except.ok.inj hsame)
      exact hfeed

/-- A body that is read from the beginning. -/
structure Begins (maxBytes : Int32) (h₀ : Httpread) : Prop where
  core : Core h₀
  maxBytes : h₀.maxBytes = maxBytes.toInt
  empty : h₀.body = []
  chunkStart : h₀.chunkStart = 0
  inChunkData : h₀.inChunkData = false
  inTrailer : h₀.inTrailer = false
  length : h₀.gotContentLength = true → 0 ≤ h₀.contentLength ∧ h₀.contentLength ≤ h₀.maxBytes
  chunked : h₀.chunked = true → h₀.gotContentLength = false

theorem begins_of_header (hhdr : IsHeader hdr)
    (hanalyze : hdrAnalyze (withHeader maxBytes hdr) = .ok (h₀, true)) (hbody : ReadsBody h₀) :
    Begins maxBytes h₀ := by
  have hfresh := fresh_withHeader maxBytes hhdr
  obtain ⟨r, hr, -, hheader⟩ := hdrAnalyze_returns hfresh.hdr hfresh.hdrInv
  obtain rfl : (h₀, true) = r := Except.ok.inj (hanalyze.symm.trans hr)
  have hheader : Header (withHeader maxBytes hdr) h₀ := hheader rfl
  have hafter := (afterHeader_more hanalyze).mpr ⟨hbody, rfl⟩
  obtain ⟨-, hcore, -, htrailer⟩ := afterHeader_core hfresh rfl hafter
  have hpart := hheader.bodyPart
  simp only [bodyPart, Prod.mk.injEq] at hpart
  have hmax : h₀.maxBytes = maxBytes.toInt := hheader.maxBytes.resolve_right hbody.1
  exact {
    core := hcore
    maxBytes := hmax
    empty := hpart.1.2.2.2
    chunkStart := hpart.2.2.1
    inChunkData := hheader.inChunkData
    inTrailer := htrailer
    length := fun hgot => hmax ▸ hheader.contentLength hgot
    chunked := hheader.chunked }

theorem announced_chunks (hbegins : Begins maxBytes h₀) (hchunked : h₀.chunked = true)
    (hfits : SizesFit .chunks rest) (hfeed : feed octet .getMore h₀ rest = .ok (h', .gotFile)) :
    Announced .chunks rest h'.body := by
  obtain ⟨u, c, t, g, rfl, hu, hlast⟩ := feed_stops hfeed (by decide)
  have hcore := feed_core hbegins.core hu
  have hchunked' := (feed_chunked hbegins.core hu).trans hchunked
  have htrailer := octet_gotFile hcore hchunked' hlast
  have hbegin : Progress [] h₀ := by
    exact .line [] [] rfl (fun hin => absurd hin.length_le (by decide)) hbegins.inTrailer hbegins.inChunkData
      hbegins.empty hbegins.chunkStart
  have hfits' : HeadersFit ([] ++ u) := fun cs line hline hprefix =>
    hfits cs line hline ( hprefix.trans (prefix_append u _))
  have hprogress := progress_feed hbegins.core hchunked hbegin hfits' hu
  have hbody : h'.body = g.body := by
    rw [octet_trailer hcore.gotHdr htrailer] at hlast
    unfold trailerOctet at hlast
    rcases hnext : trailerNext g.trailerState c with _ | s <;> rw [hnext] at hlast <;> cases hlast
    rfl
  cases hprogress with
  | line _ _ _ _ hno => exact absurd (htrailer.symm.trans hno) (by decide)
  | data _ _ _ _ _ hno => exact absurd (htrailer.symm.trans hno) (by decide)
  | trailer cs line tail hread hline _ hdata =>
    refine ⟨cs, line, tail ++ c :: t, hline, ?_, hbody.trans hdata⟩
    rw [nil_append] at hread
    rw [hread]
    simp

theorem quiet_open (hquiet : Quiet h) (hchunked : h.chunked = false) (hgot : h.gotContentLength = true) :
    (h.body.length : Int) < h.contentLength := by
  by_contra hfull
  unfold Quiet bodyCheck at hquiet
  rw [if_neg (by simp [hchunked]), if_neg (by simp [hchunked]), if_pos ⟨hgot, not_lt.mp hfull⟩] at hquiet
  have hend := (Prod.mk.inj (Except.ok.inj hquiet)).2
  cases hend

theorem announced_length {len : Nat} (hbegins : Begins maxBytes h₀) (hframes : Frames h₀ (.length len))
    (hfits : len < 2 ^ 31) (hfeed : feed octet .getMore h₀ rest = .ok (h', .gotFile)) :
    Announced (.length len) rest h'.body := by
  obtain ⟨u, c, t, g, rfl, hu, hlast⟩ := feed_stops hfeed (by decide)
  obtain ⟨hchunked, hgot, hlen⟩ := hframes
  have hlen : h₀.contentLength = len := by
    rw [hlen]
    unfold storedLength
    exact (toInt_eq (by omega) (by omega)).trans (by omega)
  have hg := feed_plain hbegins.core.gotHdr hchunked hbegins.inTrailer hu
  rw [hbegins.empty, nil_append] at hg
  have hcore := feed_core hbegins.core hu
  subst hg
  -- before its last octet it is too short
  have hless : (u.length : Int) < len := by
    have hopen := quiet_open hcore.quiet hchunked hgot
    rw [hlen] at hopen
    exact hopen
  by_cases hlimit : Refused { h₀ with body := u }
  · rw [octet_refused hcore.gotHdr hbegins.inTrailer hlimit] at hlast
    cases hlast
  rw [octet_body hcore.gotHdr hbegins.inTrailer hlimit] at hlast
  obtain ⟨r, hr, heq⟩ := except_map_ok hlast
  obtain ⟨rfl, hnext⟩ := Prod.mk.inj heq
  cases bodyCheck_checked hr with
  | whole _ _ hfull =>
    have hfull : h₀.contentLength ≤ ((u ++ [c]).length : Int) := hfull
    rw [hlen, length_append, length_singleton] at hfull
    have hsame : len = (u ++ [c]).length := by
      rw [length_append, length_singleton]
      omega
    refine ⟨?_, ?_⟩
    · rw [hsame]
      simp
    · show u ++ [c] = (u ++ c :: t).take len
      have hsplit : u ++ c :: t = (u ++ [c]) ++ t := by simp
      rw [hsame, hsplit, take_left]
  | rest => cases hnext
  | line => cases hnext
  | size => cases hnext
  | last => cases hnext
  | data => cases hnext
  | chunk => cases hnext
  | bad => cases hnext

theorem feed_untilEof (hbegins : Begins maxBytes h₀) (hframes : Frames h₀ .untilEof) :
    feed octet .getMore h₀ rest ≠ .ok (h', .gotFile) := by
  intro hfeed
  obtain ⟨u, c, t, g, rfl, hu, hlast⟩ := feed_stops hfeed (by decide)
  obtain ⟨hchunked, hgot⟩ := hframes
  have hg := feed_plain hbegins.core.gotHdr hchunked hbegins.inTrailer hu
  have hcore := feed_core hbegins.core hu
  subst hg
  by_cases hlimit : Refused { h₀ with body := h₀.body ++ u }
  · rw [octet_refused hcore.gotHdr hbegins.inTrailer hlimit] at hlast
    cases hlast
  rw [octet_body hcore.gotHdr hbegins.inTrailer hlimit] at hlast
  obtain ⟨r, hr, heq⟩ := except_map_ok hlast
  obtain ⟨rfl, hnext⟩ := Prod.mk.inj heq
  cases bodyCheck_checked hr with
  | whole _ hyes => exact absurd (hyes.symm.trans hgot) (by decide)
  | _ => cases hnext

end Stream

/-! ## The calls -/

def eof : ReadBuf := ⟨[], Nat.zero_le _⟩

section Calls

variable {s : Bytes} {maxBytes : Int32} {h h' : Httpread}

/-- The calls, up to the first event, where the connection ends behind the stream. -/
def Cut.runToEof (maxBytes : Int32) (c : Cut s) : Except Stop (Httpread × HttpreadNext) :=
  Httpread.run (create maxBytes.toInt) ((c.reads ++ [eof]).map some)

def Cut.TrailerWhole (maxBytes : Int32) (c : Cut s) : Prop :=
  Throughout (fun h _ => h.inTrailer = false) readSome .getMore (create maxBytes.toInt) c.reads

theorem readSome_ends : Refines readSome octet .getMore (sized 0) ReadBuf.octets Reading fun h read =>
    read.octets ≠ [] ∧ h.inTrailer = false ∧ ∃ h' n, readSome h read = .ok (h', n) ∧ n ≠ .bad := by
  rintro h read hreading ⟨hne, htrailer, h', n, hread, hn⟩
  refine readSome_served h read hreading ⟨hne, htrailer, fun halloc hroom => hn ?_⟩
  have hgotHdr : h.gotHdr = true := by
    by_contra hno
    exact halloc (hreading.fresh (Bool.eq_false_of_not_eq_true hno)).unallocated
  obtain ⟨octets, hle⟩ := read
  obtain ⟨c, rbp, rfl⟩ := exists_cons_of_ne_nil hne
  have hread : (readMore h (c :: rbp) >>= fun r => terminate r) = .ok (h', n) := hread
  rw [show readMore h (c :: rbp) = readBody h (c :: rbp) from if_pos hgotHdr,
    readBody_core (hreading.core hgotHdr), if_neg (cons_ne_nil _ _), addBytes_none hroom] at hread
  have hbad : terminate (h, .bad) = .ok (h, .bad) := terminate_handled (handled_bad h)
  exact (Prod.mk.inj (Except.ok.inj (hread.symm.trans hbad))).2

theorem Cut.runToEof_octets {c : Cut s} (hrun : c.runToEof maxBytes = .ok (h, .gotFile))
    (htrailer : c.TrailerWhole maxBytes) : ∃ h₁ n,
      feed octet .getMore (create maxBytes.toInt) s = .ok (sized 0 h₁, n) ∧
        (n = .gotFile ∧ h = h₁ ∨ n = .getMore ∧ Reading h₁ ∧ readSome h₁ eof = .ok (h, .gotFile)) := by
  have hrun : feed readSome .getMore (create maxBytes.toInt) (c.reads ++ [eof]) = .ok (h, .gotFile) :=
    (feed_map some (c.reads ++ [eof])).symm.trans hrun
  rw [feed_append] at hrun
  obtain ⟨⟨h₁, n⟩, hreads, hlast⟩ := except_bind_ok hrun
  have hends : n ≠ .bad ∧ (n = .getMore ∨ n = .gotFile ∧ h = h₁) := by
    by_cases hn : n = .getMore
    · subst hn
      exact ⟨by decide, .inl rfl⟩
    · rw [if_neg hn] at hlast
      cases hlast
      exact ⟨by decide, .inr ⟨rfl, rfl⟩⟩
  have hclean := throughout_of_feed hreads (throughout_mem c.nonempty htrailer)
  have hclean : Throughout (fun h read => read.octets ≠ [] ∧ h.inTrailer = false ∧
      ∃ h' n, readSome h read = .ok (h', n) ∧ n ≠ .bad) readSome .getMore (create maxBytes.toInt) c.reads := by
    refine hclean.mono ?_
    rintro g read ⟨⟨hne, hno⟩, h', m, hread, hm⟩
    refine ⟨hne, hno, h', m, hread, ?_⟩
    rcases hm with rfl | rfl
    · decide
    · exact hends.1
  obtain ⟨h₂, n₂, hreads₂, hfeed, hreading⟩ := feed_pieces readSome_ends (reading_create maxBytes) hclean
  obtain ⟨rfl, rfl⟩ := Prod.mk.inj (Except.ok.inj (hreads₂.symm.trans hreads))
  rw [c.joined] at hfeed
  refine ⟨h₂, n₂, hfeed, ?_⟩
  rcases hends.2 with rfl | hend
  · rw [if_pos rfl, feed_singleton] at hlast
    exact .inr ⟨rfl, hreading rfl, hlast⟩
  · exact .inl hend

theorem readSome_eof {n : HttpreadNext} (hreading : Reading h) (hread : readSome h eof = .ok (h', n)) :
    readEof h = (h', n) := by
  have hhandled := readEof_handled hreading.toWaiting
  exact Except.ok.inj ((terminate_handled hhandled).symm.trans hread)

theorem readEof_gotFile (hend : readEof h = (h', .gotFile)) :
    h.gotHdr = true ∧ h.chunked = false ∧ h.gotContentLength = false ∧ h'.body = h.body := by
  unfold readEof at hend
  by_cases hgotHdr : h.gotHdr = true
  · rw [if_neg (not_not.mpr hgotHdr)] at hend
    by_cases hmode : h.chunked = true ∨ h.gotContentLength = true
    · rw [if_pos hmode] at hend
      cases hend
    · rw [if_neg hmode] at hend
      cases hend
      rw [not_or] at hmode
      exact ⟨hgotHdr, Bool.eq_false_of_not_eq_true hmode.1, Bool.eq_false_of_not_eq_true hmode.2, rfl⟩
  · rw [if_pos hgotHdr] at hend
    cases hend

end Calls

end Httpread

open Httpread

/-- The header of a request with a number that does not fit. -/
def largeHdr : Bytes := ascii "POST / HTTP/1.1" ++ [0x0d, 0x0a] ++ ascii "Content-Length: 4294967301" ++
  [0x0d, 0x0a, 0x0d, 0x0a]

/-- The header of a request that is read to the end of the connection. -/
def openHdr : Bytes := ascii "POST / HTTP/1.1" ++ [0x0d, 0x0a, 0x0d, 0x0a]

def largeCut : Cut (largeHdr ++ ascii "hello") where
  reads := [⟨largeHdr ++ ascii "hello", by decide⟩]
  nonempty := by decide
  joined := by decide

def openCut : Cut (openHdr ++ ascii "hello") where
  reads := [⟨openHdr ++ ascii "hello", by decide⟩]
  nonempty := by decide
  joined := by decide

end Hostap
