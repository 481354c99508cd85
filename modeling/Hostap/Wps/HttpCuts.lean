import Hostap.Wps.HttpOctets

/-!
# A message that is cut into reads

Two ways of cutting a stream into reads come to the same if no read of either begins in the trailer or asks for
more room than there may be (`Cut.Clean`): both do what the machine does octet by octet. A message with a
content length is clean however it is cut. A message in chunks is not: a read that begins behind the last chunk
takes what it finds for a chunk header.
-/

namespace Hostap

open Octets Output Common Bounded Feed List

namespace Httpread

/-- A stream that is cut into reads. -/
structure Cut (s : Bytes) where
  reads : List ReadBuf
  nonempty : ∀ read ∈ reads, read.octets ≠ []
  joined : reads.flatMap ReadBuf.octets = s

def outcome (r : Except Stop (Httpread × HttpreadNext)) :
    Except Stop (HttpreadNext × Bytes × Option Bytes × Bytes) :=
  r.map fun r => (r.2, r.1.hdr, r.1.uri, r.1.body)

section

variable {s : Bytes} {maxBytes : Int32}

def Cut.run (maxBytes : Int32) (c : Cut s) : Except Stop (Httpread × HttpreadNext) :=
  Httpread.run (create maxBytes.toInt) (c.reads.map some)

/-- No read begins in the trailer, and there may be room for all that is read. -/
def Cut.Clean (maxBytes : Int32) (c : Cut s) : Prop :=
  Throughout (fun h read => Httpread.Clean h read.octets.length) readSome .getMore (create maxBytes.toInt)
    c.reads

theorem Cut.run_eq (c : Cut s) : c.run maxBytes = feed readSome .getMore (create maxBytes.toInt) c.reads :=
  feed_map some c.reads

theorem reading_create (maxBytes : Int32) : Reading (create maxBytes.toInt) :=
  { waiting_create maxBytes with core := nofun }

theorem Cut.Clean.feed {c : Cut s} (hclean : c.Clean maxBytes) : ∃ h n, c.run maxBytes = .ok (h, n) ∧
    feed octet .getMore (create maxBytes.toInt) s = .ok (sized 0 h, n) ∧ (n = .getMore → Reading h) := by
  have hpieces := feed_pieces readSome_refines (reading_create maxBytes) (throughout_mem c.nonempty hclean)
  rw [c.joined] at hpieces
  rw [c.run_eq]
  exact hpieces

theorem Cut.Clean.outcome_eq {c c' : Cut s} (hc : c.Clean maxBytes) (hc' : c'.Clean maxBytes) :
    outcome (c.run maxBytes) = outcome (c'.run maxBytes) := by
  obtain ⟨h, n, hrun, hfeed, -⟩ := hc.feed
  obtain ⟨h', n', hrun', hfeed', -⟩ := hc'.feed
  obtain ⟨hsame, rfl⟩ := Prod.mk.inj (Except.ok.inj (hfeed.symm.trans hfeed'))
  rw [hrun, hrun']
  show Except.ok (n, (sized 0 h).hdr, (sized 0 h).uri, (sized 0 h).body) =
    .ok (n, (sized 0 h').hdr, (sized 0 h').uri, (sized 0 h').body)
  rw [hsame]

/-! ## Messages -/

/-- A header: CR LF CR LF is at its end and nowhere else. -/
structure IsHeader (hdr : Bytes) : Prop where
  length : hdr.length ≤ httpreadHeaderMaxSize
  complete : hdrComplete hdr = true
  least : ∀ n < hdr.length, hdrComplete (hdr.take n) = false

def withHeader (maxBytes : Int32) (hdr : Bytes) : Httpread :=
  { create maxBytes.toInt with hdr := hdr, gotHdr := true }

def ReadsBody (h : Httpread) : Prop :=
  h.maxBytes ≠ 0 ∧ ¬ (h.gotContentLength = true ∧ h.contentLength = 0) ∧ hasNoBody h = .ok false

end

section

variable {s hdr body : Bytes} {maxBytes : Int32} {h h' : Httpread} {n : HttpreadNext}

theorem readHdr_append {u v : Bytes} (hlen : h.hdr.length + u.length ≤ httpreadHeaderMaxSize)
    (hopen : ∀ n, 0 < n → n ≤ u.length → hdrComplete (h.hdr ++ u.take n) = false) :
    readHdr h (u ++ v) = readHdr { h with hdr := h.hdr ++ u } v := by
  induction u generalizing h with
  | nil =>
    rw [append_nil]
    rfl
  | cons c u ih =>
    rw [length_cons] at hlen
    have hfirst : hdrComplete (h.hdr ++ [c]) = false := hopen 1 Nat.one_pos (Nat.le_add_left _ _)
    rw [cons_append]
    conv_lhs => unfold readHdr
    rw [if_neg (by omega), if_neg (by omega)]
    dsimp only
    rw [hfirst]
    show readHdr { h with hdr := h.hdr ++ [c] } (u ++ v) = _
    rw [ih (h := { h with hdr := h.hdr ++ [c] })]
    · dsimp only
      rw [append_assoc]
      rfl
    · show (h.hdr ++ [c]).length + u.length ≤ _
      rw [length_append, length_singleton]
      omega
    · intro n hn hle
      have hnext := hopen (n + 1) (Nat.succ_pos _) (Nat.succ_le_succ hle)
      rw [take_succ_cons] at hnext
      dsimp only
      rw [append_assoc]
      exact hnext

theorem IsHeader.readHdr_before (hhdr : IsHeader hdr) {t u v : Bytes} (hsplit : hdr = t ++ u) (hu : u ≠ []) :
    readHdr (create maxBytes.toInt) (t ++ v) = readHdr { create maxBytes.toInt with hdr := t } v := by
  have hlen := hhdr.length
  have hpos := length_pos_iff.mpr hu
  rw [hsplit, length_append] at hlen
  refine readHdr_append (h := create maxBytes.toInt) ?_ fun n _ hle => ?_
  · show 0 + t.length ≤ _
    omega
  · have hopen := hhdr.least n (by rw [hsplit, length_append]; omega)
    rw [hsplit, take_append_of_le_length hle] at hopen
    exact hopen

theorem feed_before (hhdr : IsHeader hdr) {t u : Bytes} (hsplit : hdr = t ++ u) (hu : u ≠ []) :
    feed octet .getMore (create maxBytes.toInt) t =
      .ok ({ create maxBytes.toInt with hdr := t }, .getMore) := by
  have hread : readHdr (create maxBytes.toInt) (t ++ []) = _ := hhdr.readHdr_before hsplit hu
  rw [append_nil] at hread
  rw [feed_header rfl (Nat.zero_le _), hread]
  rfl

theorem feed_header_body (hhdr : IsHeader hdr) :
    feed octet .getMore (create maxBytes.toInt) (hdr ++ body) =
      afterHeader (withHeader maxBytes hdr) >>= fun a =>
        if a.2 = .getMore then feed octet .getMore a.1 body else .ok a := by
  have hne : hdr ≠ [] := by
    rintro rfl
    exact absurd hhdr.complete (by decide)
  obtain ⟨front, c, hlast⟩ : ∃ front c, hdr = front ++ [c] := ⟨_, _, (dropLast_concat_getLast hne).symm⟩
  have hlen := hhdr.length
  rw [hlast, length_append, length_singleton] at hlen
  have hread : readHdr (create maxBytes.toInt) (hdr ++ body) =
      .ok (withHeader maxBytes hdr, .complete body) := by
    have hbefore : readHdr (create maxBytes.toInt) (front ++ c :: body) = _ :=
      hhdr.readHdr_before hlast (cons_ne_nil c [])
    have hcomplete := hhdr.complete
    rw [hlast] at hcomplete ⊢
    rw [append_assoc]
    refine hbefore.trans ?_
    unfold readHdr
    dsimp only
    rw [if_neg (by omega), if_neg (by omega), hcomplete]
    rfl
  rw [feed_header rfl (Nat.zero_le _), hread]
  rfl

theorem afterHeader_more (hanalyze : hdrAnalyze (withHeader maxBytes hdr) = .ok (h, true)) :
    afterHeader (withHeader maxBytes hdr) = .ok (h', .getMore) ↔ ReadsBody h ∧ h' = h := by
  unfold afterHeader ReadsBody
  rw [hanalyze]
  by_cases hmax : h.maxBytes = 0
  · simp [bind, Except.bind, pure, Except.pure, hmax]
  by_cases hlen : h.gotContentLength = true ∧ h.contentLength = 0
  · simp [bind, Except.bind, pure, Except.pure, hmax, hlen]
  rcases hnoBody : hasNoBody h with e | noBody
  · simp [bind, Except.bind, hmax, hlen, hnoBody]
  cases noBody with
  | true => simp [bind, Except.bind, pure, Except.pure, hmax, hlen, hnoBody]
  | false =>
    simp only [bind, Except.bind, pure, Except.pure, hmax, hlen, hnoBody]
    simp [hmax, eq_comm (a := h)]

/-! ## A content length -/

theorem feed_plain (hgotHdr : h.gotHdr = true) (hchunked : h.chunked = false) (htrailer : h.inTrailer = false)
    (hfeed : feed octet .getMore h body = .ok (h', .getMore)) : h' = { h with body := h.body ++ body } := by
  induction body generalizing h with
  | nil =>
    cases hfeed
    rw [append_nil]
  | cons c body ih =>
    by_cases hlimit : Refused h
    · rw [feed_stop (octet_refused hgotHdr htrailer hlimit) (by decide)] at hfeed
      cases hfeed
    rw [feed_octet_body hgotHdr htrailer hlimit] at hfeed
    obtain ⟨r, hcheck, hgo⟩ := except_bind_ok hfeed
    cases bodyCheck_checked hcheck with
    | rest =>
      have hnext := ih (h := { h with body := h.body ++ [c] }) hgotHdr hchunked htrailer hgo
      rw [hnext]
      dsimp only
      rw [append_assoc]
      rfl
    | whole => cases hgo
    | line hyes => exact absurd (hyes.symm.trans hchunked) (by decide)
    | size _ hyes => exact absurd (hyes.symm.trans hchunked) (by decide)
    | last _ hyes => exact absurd (hyes.symm.trans hchunked) (by decide)
    | data hyes => exact absurd (hyes.symm.trans hchunked) (by decide)
    | chunk hyes => exact absurd (hyes.symm.trans hchunked) (by decide)
    | bad _ hyes => exact absurd (hyes.symm.trans hchunked) (by decide)

theorem fresh_withHeader (maxBytes : Int32) (hhdr : IsHeader hdr) : Fresh (withHeader maxBytes hdr) :=
  { (waiting_create maxBytes).fresh rfl with hdr := hhdr.length }

theorem feed_body_more (hhdr : IsHeader hdr) (hanalyze : hdrAnalyze (withHeader maxBytes hdr) = .ok (h, true))
    (hfeed : feed octet .getMore (create maxBytes.toInt) (hdr ++ body) = .ok (h', .getMore)) :
    ReadsBody h ∧ BodyInv h ∧ Core h ∧ h.bodyAlloc = 0 ∧ h.inTrailer = false ∧
      feed octet .getMore h body = .ok (h', .getMore) := by
  rw [feed_header_body hhdr] at hfeed
  obtain ⟨⟨a, n⟩, hafter, hfeed⟩ := except_bind_ok hfeed
  by_cases hn : n = .getMore
  · subst hn
    obtain ⟨hbody, rfl⟩ := (afterHeader_more hanalyze).mp hafter
    obtain ⟨hinv, hcore, halloc, htrailer⟩ := afterHeader_core (fresh_withHeader maxBytes hhdr) rfl hafter
    exact ⟨hbody, hinv, hcore, halloc, htrailer, hfeed⟩
  · rw [if_neg hn] at hfeed
    cases hfeed
    exact absurd rfl hn

theorem clean_of_length (hhdr : IsHeader hdr) (hanalyze : hdrAnalyze (withHeader maxBytes hdr) = .ok (h, true))
    (hbody : ReadsBody h → h.gotContentLength = true ∧ (body.length : Int) ≤ h.contentLength)
    (c : Cut (hdr ++ body)) : c.Clean maxBytes := by
  refine Throughout.mono (throughout_of_reached readSome_refines (reading_create maxBytes) ?_)
    fun _ _ hp => hp.2
  intro front read rest h₁ hsplit hreading hfeed
  have hread : read.octets ≠ [] := by
    refine c.nonempty read ?_
    rw [hsplit]
    exact mem_append_right _ mem_cons_self
  refine ⟨hread, ?_⟩
  have hbefore : h₁.gotHdr = false → Httpread.Clean h₁ read.octets.length := fun hno => by
    have hfresh := hreading.fresh hno
    exact ⟨hfresh.noTrailer, fun hne => absurd hfresh.unallocated hne⟩
  have hall : hdr ++ body = front.flatMap ReadBuf.octets ++ (read.octets ++ rest.flatMap ReadBuf.octets) := by
    rw [← c.joined, hsplit, flatMap_append, flatMap_cons]
  -- the call begins in the body, or in the header
  have hcases : (∃ u, front.flatMap ReadBuf.octets = hdr ++ u ∧
      body = u ++ (read.octets ++ rest.flatMap ReadBuf.octets)) ∨
      ∃ u, u ≠ [] ∧ hdr = front.flatMap ReadBuf.octets ++ u := by
    rcases append_eq_append_iff.mp hall with ⟨u, hfront, hrest⟩ | ⟨u, hhead, hrest⟩
    · exact .inl ⟨u, hfront, hrest⟩
    · by_cases hu : u = []
      · subst hu
        exact .inl ⟨[], by simpa using hhead.symm, by simpa using hrest.symm⟩
      · exact .inr ⟨u, hu, hhead⟩
  rcases hcases with ⟨u, hfront, hrest⟩ | ⟨u, hu, hhead⟩
  · rw [hfront] at hfeed
    obtain ⟨hreads, hinv, hcore, halloc, htrailer, hfeed⟩ := feed_body_more hhdr hanalyze hfeed
    obtain ⟨hgot, hlen⟩ := hbody hreads
    have hchunked : h.chunked = false := by
      by_contra hyes
      have hno := hinv.chunked (Bool.eq_true_of_not_eq_false hyes)
      rw [hgot] at hno
      cases hno
    have hplain := feed_plain hcore.gotHdr hchunked htrailer hfeed
    have hempty : h.body = [] := by
      rcases hinv.fits with hless | ⟨-, hnil⟩
      · omega
      · exact hnil
    have hbodyLen : h₁.body = u := by
      have hsame : h₁.body = h.body ++ u := congrArg Httpread.body hplain
      rw [hsame, hempty, nil_append]
    have hgot₁ : h₁.gotContentLength = true := (congrArg Httpread.gotContentLength hplain).trans hgot
    have hcl := congrArg Httpread.contentLength hplain
    have htrailer₁ : h₁.inTrailer = false := (congrArg Httpread.inTrailer hplain).trans htrailer
    refine ⟨htrailer₁, fun hne => .inl ?_⟩
    have hfits := (hreading.content hgot₁).2.2 hne
    rw [show h₁.contentLength = h.contentLength from hcl] at hfits
    rw [hrest, length_append, length_append] at hlen
    rw [hbodyLen]
    omega
  · refine hbefore ?_
    have hstate := (feed_before hhdr hhead hu).symm.trans hfeed
    have hsame := (Prod.mk.inj (Except.ok.inj hstate)).1
    exact (congrArg Httpread.gotHdr hsame).symm

/-! ## Chunks -/

theorem octet_chunked {c : UInt8} (hgotHdr : h.gotHdr = true) (hoctet : octet h c = .ok (h', n)) :
    h'.chunked = h.chunked := by
  by_cases htrailer : h.inTrailer = true
  · rw [octet_trailer hgotHdr htrailer] at hoctet
    unfold trailerOctet at hoctet
    rcases hnext : trailerNext h.trailerState c with _ | t <;> rw [hnext] at hoctet <;> cases hoctet <;> rfl
  have hno := Bool.eq_false_of_not_eq_true htrailer
  by_cases hlimit : Refused h
  · rw [octet_refused hgotHdr hno hlimit] at hoctet
    cases hoctet
    rfl
  · rw [octet_body hgotHdr hno hlimit] at hoctet
    obtain ⟨r, hcheck, heq⟩ := except_map_ok hoctet
    cases heq
    rw [(bodyCheck_checked hcheck).frame]

theorem feed_chunked (hcore : Core h) (hfeed : feed octet .getMore h s = .ok (h', .getMore)) :
    h'.chunked = h.chunked := by
  induction s generalizing h with
  | nil =>
    cases hfeed
    rfl
  | cons c s ih =>
    obtain ⟨t, hoctet, hrest⟩ := feed_cons_more hfeed
    exact (ih (octet_core hcore hoctet) hrest).trans (octet_chunked hcore.gotHdr hoctet)

theorem octet_gotFile {c : UInt8} (hcore : Core h) (hchunked : h.chunked = true)
    (hoctet : octet h c = .ok (h', .gotFile)) : h.inTrailer = true := by
  by_contra htrailer
  have hno := Bool.eq_false_of_not_eq_true htrailer
  by_cases hlimit : Refused h
  · rw [octet_refused hcore.gotHdr hno hlimit] at hoctet
    cases hoctet
  · rw [octet_body hcore.gotHdr hno hlimit] at hoctet
    obtain ⟨⟨h₁, next⟩, hcheck, heq⟩ := except_map_ok hoctet
    obtain ⟨-, hnext⟩ := Prod.mk.inj heq
    generalize hr : (h₁, next) = r at hcheck
    cases bodyCheck_checked hcheck with
    | whole hyes => exact absurd (hchunked.symm.trans hyes) (by decide)
    | _ =>
      cases hr
      cases hnext

theorem readSome_trailer (read : ReadBuf) {c : UInt8} (hreading : Reading h) (hgotHdr : h.gotHdr = true)
    (htrailer : h.inTrailer = true) (hread : read.octets = [c]) :
    ∃ h' n, readSome h read = .ok (h', n) ∧ n ≠ .gotFile := by
  have hcore := hreading.core hgotHdr
  obtain ⟨octets, hle⟩ := read
  obtain rfl : octets = [c] := hread
  suffices hadd : ∃ h' n, addBytes h [c] = .ok (h', n) ∧ n ≠ .gotFile by
    obtain ⟨h', n, hadd, hn⟩ := hadd
    have hmore : readMore h [c] = .ok (h', n) :=
      (if_pos hgotHdr : readMore h [c] = readBody h [c]).trans ((readBody_core hcore).trans hadd)
    refine ⟨h', n, ?_, hn⟩
    show (readMore h [c] >>= fun r => terminate r) = _
    rw [hmore]
    exact if_neg fun hand => hn hand.1
  rcases hroom : makeRoom h [c].length with _ | h₁
  · exact ⟨h, .bad, addBytes_none hroom, by decide⟩
  have hcopy := makeRoom_copying hreading.toBodyInv hgotHdr hle hroom
  have hsame := makeRoom_some hroom
  have hcore₁ : Core h₁ := by
    rw [hsame]
    exact hcore.sized _
  have htrailer₁ : h₁.inTrailer = true := by
    rw [hsame]
    exact htrailer
  obtain ⟨hchunked, hdata, hlen⟩ := hcore₁.trailer htrailer₁
  obtain ⟨r, hcheck, hr⟩ := bodyCheck_returns hcopy
  obtain rfl : r = (h₁, .copy) := Except.ok.inj (hcheck.symm.trans hcore₁.quiet)
  have hsettled : Settled h₁ := (hr (by simp)).2 (by simp)
  obtain ⟨hpos, -⟩ := hcopy.turn hsettled (cons_ne_nil c []) rfl
  have hone : min (copyCount h₁ [c].length).toNat [c].length = 1 := by
    have hle : min (copyCount h₁ [c].length).toNat [c].length ≤ 1 := Nat.min_le_right _ _
    omega
  have hstop : ∀ h₂ : Httpread, h₂ = { h₁ with body := h₁.body ++ [c] } →
      copyLoop 0 h₂ [] = .ok (h₂, [], .copy) := by
    rintro h₂ rfl
    refine copyLoop_stop (quiet_line hchunked hdata ?_) fun _ => rfl
    show (h₁.body ++ [c]).length < h₁.chunkStart + 2
    rw [length_append, length_singleton]
    omega
  have hturn : copyLoop (0 + 1) h₁ [c] = _ := copyLoop_turn hcheck hcopy hsettled (cons_ne_nil c []) rfl
  rw [hone] at hturn
  refine ⟨{ h₁ with body := h₁.body ++ [c] }, .getMore, ?_, by decide⟩
  rw [addBytes_some hroom]
  show (copyLoop (0 + 1) h₁ [c]).map afterCopy = _
  rw [hturn]
  show (copyLoop 0 { h₁ with body := h₁.body ++ [c] } []).map afterCopy = _
  rw [hstop _ rfl]
  show Except.ok (readTrailer _ []) = _
  unfold readTrailer trailerLoop
  rw [ite_self]

def IsRead (maxBytes : Int32) (s : Bytes) : Prop :=
  ∃ c : Cut s, c.Clean maxBytes ∧ ∃ h, c.run maxBytes = .ok (h, .gotFile)

/-- A complete message: no less is read to its end. -/
structure IsMessage (maxBytes : Int32) (s : Bytes) : Prop where
  isRead : IsRead maxBytes s
  least : ∀ t, t <+: s → IsRead maxBytes t → t = s

theorem feed_last (body front rest : Bytes) {c : UInt8} (hhdr : IsHeader hdr)
    (hanalyze : hdrAnalyze (withHeader maxBytes hdr) = .ok (h, true)) (hbody : ReadsBody h)
    (hchunked : h.chunked = true) (hsplit : hdr ++ body = front ++ c :: rest) {g : Httpread}
    (hfront : feed octet .getMore (create maxBytes.toInt) front = .ok (g, .getMore))
    (hlast : octet g c = .ok (h', .gotFile)) : g.inTrailer = true := by
  have hbehind : ∃ u, front = hdr ++ u := by
    rcases append_eq_append_iff.mp hsplit with ⟨u, hu, -⟩ | ⟨u, hu, hrest⟩
    · exact ⟨u, hu⟩
    cases u with
    | nil => exact ⟨[], by simpa using hu.symm⟩
    | cons d u =>
      obtain ⟨rfl, -⟩ := List.cons.inj hrest
      have hmore : feed octet .getMore (create maxBytes.toInt) (hdr ++ []) = .ok (h, .getMore) := by
        rw [feed_header_body hhdr, (afterHeader_more hanalyze).mpr ⟨hbody, rfl⟩]
        rfl
      rw [append_nil, hu] at hmore
      rw [feed_append_more hfront] at hmore
      obtain ⟨t, ht, -⟩ := feed_cons_more hmore
      rw [hlast] at ht
      cases ht
  obtain ⟨u, rfl⟩ := hbehind
  obtain ⟨-, -, hcore, -, -, hfeed⟩ := feed_body_more hhdr hanalyze hfront
  exact octet_gotFile (feed_core hcore hfeed) ((feed_chunked hcore hfeed).trans hchunked) hlast

theorem MayGrow.mono {n m : Nat} (hgrow : MayGrow h n) (hle : m ≤ n) : MayGrow h m := by
  rcases hgrow with hroom | hmay
  · exact .inl (by omega)
  · exact .inr hmay

/-- A clean run that is read to its end, up to its last octet: the reads before the last one, and what the last
one has before it. -/
structure Ending (maxBytes : Int32) (s : Bytes) where
  front : List ReadBuf
  h : Httpread
  pre : Bytes
  g : Httpread
  c : UInt8
  h' : Httpread
  nonempty : ∀ read ∈ front, read.octets ≠ []
  clean : Throughout (fun h read => read.octets ≠ [] ∧ Httpread.Clean h read.octets.length) readSome .getMore
    (create maxBytes.toInt) front
  run : feed readSome .getMore (create maxBytes.toInt) front = .ok (h, .getMore)
  reading : Reading h
  cleanLast : Httpread.Clean h (pre.length + 1)
  le : pre.length + 1 ≤ httpreadReadbufSize
  feedFront : feed octet .getMore (create maxBytes.toInt) (front.flatMap ReadBuf.octets ++ pre) =
    .ok (g, .getMore)
  feedPre : feed octet .getMore (sized 0 h) pre = .ok (g, .getMore)
  last : octet g c = .ok (h', .gotFile)
  joined : front.flatMap ReadBuf.octets ++ (pre ++ [c]) = s

theorem ending_of_read (hread : IsRead maxBytes s) : ∃ t, t <+: s ∧ Nonempty (Ending maxBytes t) := by
  obtain ⟨cut, hclean, h₁, hrun⟩ := hread
  rw [cut.run_eq] at hrun
  obtain ⟨front, last, rest, h, hreads, hfront, hlast⟩ := feed_stops hrun (by decide)
  have hthrough := throughout_mem cut.nonempty hclean
  rw [hreads] at hthrough
  obtain ⟨hfrontClean, hlastClean⟩ := throughout_append hthrough
  have hcleanLast := (hlastClean h hfront).1
  -- up to the last read
  obtain ⟨h₂, n₂, hfront', hfeed₂, hreading₂⟩ :=
    feed_pieces readSome_refines (reading_create maxBytes) hfrontClean
  obtain ⟨rfl, rfl⟩ : h₂ = h ∧ n₂ = .getMore := Prod.mk.inj (Except.ok.inj (hfront'.symm.trans hfront))
  have hreading := hreading₂ rfl
  obtain ⟨h₃, n₃, hlast', hfeed₃, -⟩ := readSome_refines h₂ last hreading hcleanLast
  obtain ⟨rfl, rfl⟩ : h₃ = h₁ ∧ n₃ = .gotFile := Prod.mk.inj (Except.ok.inj (hlast'.symm.trans hlast))
  -- and up to its last octet
  obtain ⟨pre, c, post, g, hoctets, hpre, hc⟩ := feed_stops hfeed₃ (by decide)
  have hle : pre.length + 1 ≤ last.octets.length := by
    rw [hoctets, length_append, length_cons]
    omega
  refine ⟨front.flatMap ReadBuf.octets ++ (pre ++ [c]), ⟨post ++ rest.flatMap ReadBuf.octets, ?_⟩, ⟨{
    front := front
    h := h₂
    pre := pre
    g := g
    c := c
    h' := _
    nonempty := fun read hmem => ?_
    clean := hfrontClean
    run := hfront
    reading := hreading
    cleanLast := ⟨hcleanLast.2.1, fun halloc => (hcleanLast.2.2 halloc).mono hle⟩
    le := hle.trans last.le
    feedFront := (feed_append_more hfeed₂).trans hpre
    feedPre := hpre
    last := hc
    joined := rfl }⟩⟩
  · rw [← cut.joined, hreads, flatMap_append, flatMap_cons, hoctets]
    simp
  · refine cut.nonempty read ?_
    rw [hreads]
    exact mem_append_left _ hmem

theorem Ending.isRead (e : Ending maxBytes s) : IsRead maxBytes s := by
  have hle : (e.pre ++ [e.c]).length ≤ httpreadReadbufSize := by
    rw [length_append]
    exact e.le
  have hne : e.pre ++ [e.c] ≠ [] := append_ne_nil_of_right_ne_nil _ (cons_ne_nil e.c [])
  have hclean : Httpread.Clean e.h (e.pre ++ [e.c]).length := by
    rw [length_append]
    exact e.cleanLast
  obtain ⟨h', n, hlast, hfeed, -⟩ := readSome_refines e.h ⟨e.pre ++ [e.c], hle⟩ e.reading ⟨hne, hclean⟩
  have hfeed : feed octet .getMore (sized 0 e.h) (e.pre ++ [e.c]) = .ok (sized 0 h', n) := hfeed
  rw [feed_append_more e.feedPre, feed_stop e.last (by decide)] at hfeed
  obtain rfl : HttpreadNext.gotFile = n := (Prod.mk.inj (Except.ok.inj hfeed)).2
  refine ⟨⟨e.front ++ [⟨e.pre ++ [e.c], hle⟩], fun read hmem => ?_, ?_⟩, ?_, h', ?_⟩
  · rcases mem_append.mp hmem with hfront | hlast
    · exact e.nonempty read hfront
    · rw [mem_singleton.mp hlast]
      exact hne
  · rw [flatMap_append, flatMap_singleton]
    exact e.joined
  · refine Throughout.mono (throughout_concat e.clean fun h₁ hh₁ => ?_) fun _ _ hp => hp.2
    obtain rfl : e.h = h₁ := (Prod.mk.inj (Except.ok.inj (e.run.symm.trans hh₁))).1
    exact ⟨hne, hclean⟩
  · rw [Cut.run_eq, feed_append_more e.run, feed_singleton]
    exact hlast

theorem Ending.alone (e : Ending maxBytes s) (htrailer : e.g.inTrailer = true) :
    ∃ c : Cut s, ∃ h n, c.run maxBytes = .ok (h, n) ∧ n ≠ .gotFile := by
  have hle : e.pre.length ≤ httpreadReadbufSize := (Nat.le_succ _).trans e.le
  have hne : e.pre ≠ [] := by
    intro hnil
    have hpre := e.feedPre
    rw [hnil] at hpre
    have hsame : sized 0 e.h = e.g := (Prod.mk.inj (Except.ok.inj hpre)).1
    rw [← hsame] at htrailer
    exact absurd (htrailer.symm.trans e.cleanLast.1) (by decide)
  have hclean : Httpread.Clean e.h e.pre.length :=
    ⟨e.cleanLast.1, fun halloc => (e.cleanLast.2 halloc).mono (Nat.le_succ _)⟩
  obtain ⟨h₁, n₁, hstep, hfeed, hreading⟩ := readSome_refines e.h ⟨e.pre, hle⟩ e.reading ⟨hne, hclean⟩
  obtain ⟨hsame, rfl⟩ : e.g = sized 0 h₁ ∧ HttpreadNext.getMore = n₁ :=
    Prod.mk.inj (Except.ok.inj (e.feedPre.symm.trans hfeed))
  have hreading := hreading rfl
  have htrailer₁ : h₁.inTrailer = true := by
    rw [hsame] at htrailer
    exact htrailer
  have hgotHdr : h₁.gotHdr = true := by
    by_contra hno
    have hnone := (hreading.fresh (Bool.eq_false_of_not_eq_true hno)).noTrailer
    rw [htrailer₁] at hnone
    cases hnone
  have hone : [e.c].length ≤ httpreadReadbufSize := Nat.succ_le_succ (Nat.zero_le _)
  obtain ⟨h₂, n₂, hlast, hn₂⟩ := readSome_trailer ⟨[e.c], hone⟩ hreading hgotHdr htrailer₁ rfl
  refine ⟨⟨e.front ++ [⟨e.pre, hle⟩, ⟨[e.c], hone⟩], fun read hmem => ?_, ?_⟩, h₂, n₂, ?_, hn₂⟩
  · rcases mem_append.mp hmem with hfront | hlast
    · exact e.nonempty read hfront
    · rcases mem_cons.mp hlast with rfl | hlast
      · exact hne
      · rw [mem_singleton.mp hlast]
        exact cons_ne_nil e.c []
  · rw [flatMap_append]
    exact e.joined
  · rw [Cut.run_eq, feed_append_more e.run, feed_more hstep, feed_singleton]
    exact hlast

theorem chunks_cut (hhdr : IsHeader hdr) (hanalyze : hdrAnalyze (withHeader maxBytes hdr) = .ok (h, true))
    (hbody : ReadsBody h) (hchunked : h.chunked = true) (hmessage : IsMessage maxBytes (hdr ++ body)) :
    ∃ c c' : Cut (hdr ++ body), outcome (c.run maxBytes) ≠ outcome (c'.run maxBytes) := by
  obtain ⟨t, hprefix, ⟨e⟩⟩ := ending_of_read hmessage.isRead
  obtain rfl := hmessage.least t hprefix e.isRead
  have htrailer : e.g.inTrailer = true := by
    refine feed_last body _ [] hhdr hanalyze hbody hchunked ?_ e.feedFront e.last
    rw [append_assoc]
    exact e.joined.symm
  obtain ⟨c, -, h₁, hrun⟩ := e.isRead
  obtain ⟨c', h₂, n, hrun', hn⟩ := e.alone htrailer
  refine ⟨c, c', fun heq => hn ?_⟩
  rw [hrun, hrun'] at heq
  exact (Prod.mk.inj (Except.ok.inj heq)).1.symm

end

end Httpread

open Httpread

/-- Two clean cuts of any stream come to the same. All cuts of a message do of which no body is read, or one
with a content length; of a message in chunks that a clean cut reads to its end they do not. -/
theorem httpread_cuts (maxBytes : Int32) (s : Bytes) :
    (∀ c c' : Cut s, c.Clean maxBytes → c'.Clean maxBytes →
      outcome (c.run maxBytes) = outcome (c'.run maxBytes)) ∧
    ∀ hdr body h, s = hdr ++ body → Httpread.IsHeader hdr →
      hdrAnalyze (withHeader maxBytes hdr) = .ok (h, true) →
      ((ReadsBody h → h.gotContentLength = true ∧ (body.length : Int) ≤ h.contentLength) →
        ∀ c c' : Cut s, outcome (c.run maxBytes) = outcome (c'.run maxBytes)) ∧
      (ReadsBody h → h.chunked = true → IsMessage maxBytes s →
        ¬ ∀ c c' : Cut s, outcome (c.run maxBytes) = outcome (c'.run maxBytes)) := by
  refine ⟨fun c c' hc hc' => hc.outcome_eq hc', ?_⟩
  rintro hdr body h rfl hhdr hanalyze
  constructor
  · intro hbody c c'
    exact (clean_of_length hhdr hanalyze hbody c).outcome_eq (clean_of_length hhdr hanalyze hbody c')
  · intro hbody hchunked hmessage hall
    obtain ⟨c, c', hne⟩ := chunks_cut hhdr hanalyze hbody hchunked hmessage
    exact hne (hall c c')

def chunkedHdr : Bytes := ascii "POST / HTTP/1.1" ++ [0x0d, 0x0a] ++ ascii "Transfer-Encoding: chunked" ++
  [0x0d, 0x0a, 0x0d, 0x0a]

def noChunks : Bytes := ascii "0" ++ [0x0d, 0x0a, 0x0d, 0x0a]

def noChunksWhole : Cut (chunkedHdr ++ noChunks) where
  reads := [⟨chunkedHdr ++ noChunks, by decide⟩]
  nonempty := by decide
  joined := by decide

def noChunksCut : Cut (chunkedHdr ++ noChunks) where
  reads := [⟨chunkedHdr ++ noChunks.take 3, by decide⟩, ⟨noChunks.drop 3, by decide⟩]
  nonempty := by decide
  joined := by decide

def lengthHdr : Bytes := ascii "POST / HTTP/1.1" ++ [0x0d, 0x0a] ++ ascii "Content-Length: 2" ++
  [0x0d, 0x0a, 0x0d, 0x0a]

theorem noChunks_isMessage : IsMessage 100 (chunkedHdr ++ noChunks) := by
  have hclean : noChunksWhole.Clean 100 := ⟨⟨rfl, fun hne => absurd rfl hne⟩, fun _ _ => trivial⟩
  have hevent : (noChunksWhole.run 100).map Prod.snd = .ok .gotFile := by decide +kernel
  refine ⟨⟨noChunksWhole, hclean, ?_⟩, fun t hprefix hread => ?_⟩
  · obtain ⟨⟨h, n⟩, hrun, rfl⟩ := except_map_ok hevent
    exact ⟨h, hrun⟩
  · obtain ⟨c, hc, h, hrun⟩ := hread
    obtain ⟨h', n, hrun', hfeed, -⟩ := hc.feed
    obtain ⟨rfl, rfl⟩ : h' = h ∧ n = .gotFile := Prod.mk.inj (Except.ok.inj (hrun'.symm.trans hrun))
    -- no shorter prefix is read to its end
    have hall : ∀ k : Fin (chunkedHdr ++ noChunks).length,
        (feed octet .getMore (create (100 : Int32).toInt) ((chunkedHdr ++ noChunks).take k)).map Prod.snd ≠
          .ok .gotFile := by decide +kernel
    rw [prefix_iff_eq_take.mp hprefix] at hfeed
    by_contra hne
    have hlen : t.length < (chunkedHdr ++ noChunks).length := by
      refine lt_of_le_of_ne hprefix.length_le fun heq => hne ?_
      exact hprefix.eq_of_length heq
    exact hall ⟨t.length, hlen⟩ (by rw [hfeed]; rfl)

theorem httpread_cuts_small :
    (∀ c c' : Cut (lengthHdr ++ [0x68, 0x69]), outcome (c.run 100) = outcome (c'.run 100)) ∧
    ¬ ∀ c c' : Cut (chunkedHdr ++ noChunks), outcome (c.run 100) = outcome (c'.run 100) := by
  have hlength : (hdrAnalyze (withHeader 100 lengthHdr)).map (fun r => (r.2, r.1.gotContentLength,
      r.1.contentLength)) = .ok (true, true, 2) := by decide +kernel
  have hchunked : (hdrAnalyze (withHeader 100 chunkedHdr)).map (fun r => (r.2, r.1.chunked, r.1.maxBytes,
      r.1.gotContentLength, hasNoBody r.1)) = .ok (true, true, 100, false, .ok false) := by decide +kernel
  obtain ⟨⟨h, ok⟩, hanalyze, heq⟩ := except_map_ok hlength
  obtain ⟨⟨h', ok'⟩, hanalyze', heq'⟩ := except_map_ok hchunked
  simp only [Prod.mk.injEq] at heq heq'
  obtain ⟨rfl, hgot, hlen⟩ := heq
  obtain ⟨rfl, hchunk, hmax, hno, hbody⟩ := heq'
  constructor
  · refine ((httpread_cuts 100 _).2 _ _ h rfl ⟨by decide, by decide, by decide⟩ hanalyze).1 fun _ => ⟨hgot, ?_⟩
    rw [hlen]
    decide
  · refine ((httpread_cuts 100 _).2 _ _ h' rfl ⟨by decide, by decide, by decide⟩ hanalyze').2 ⟨?_, ?_, hbody⟩
      hchunk noChunks_isMessage
    · rw [hmax]
      decide
    · rw [hno]
      exact fun hand => by cases hand.1

theorem httpread_cuts_differ : (noChunksWhole.run 100).map Prod.snd = .ok .gotFile ∧
    (noChunksCut.run 100).map Prod.snd = .ok .bad := by decide +kernel

end Hostap
