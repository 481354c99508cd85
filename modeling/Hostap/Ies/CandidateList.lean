import Hostap.Utils.Common
import Mathlib.Data.List.Count
import Mathlib.Data.List.Forall2
import Mathlib.Data.List.TakeWhile

/-!
# The candidate list of a BSS transition

`ieee802_11_parse_candidate_list()` of `common/ieee802_11_common.c` makes Neighbor Report elements of a
command. Every ` neighbor=` in it begins an entry of five fields with commas between them, and a sixth one,
the optional subelements in hexadecimal.

The text is searched for the next comma wherever it is, also behind the end of the entry. `neighborElement`
is what an entry gives by itself, `entries` are the texts of the entries, and `parse_candidate_list_iff` says
when the octets that are written are the elements of all of them.
-/

namespace Hostap

namespace CandidateList

open Octets Buffer Output Common List

/-- Why the parser stops: `refused` is -1, and `fuel` says that the loop was not done after the rounds it was
given. -/
inductive Stop where
  | refused
  | write
  | fuel
  deriving DecidableEq, Repr

def require {α : Type} : Option α → Except Stop α
  | some a => .ok a
  | none => .error .refused

def store (len : Nat) (data out : Bytes) : Except Stop Bytes :=
  match put len data out with
  | .ok out => .ok out
  | .error _ => .error .write

/-- `WLAN_EID_NEIGHBOR_REPORT` -/
abbrev wlanEidNeighborReport : UInt8 := 52

def neighborText : Bytes := ascii " neighbor="

def u8 (n : Int) : UInt8 := UInt8.ofNat (n % 256).toNat

/-- `WPA_PUT_LE32()` -/
def le32 (n : Int) : Bytes := [u8 n, u8 (n / 2 ^ 8), u8 (n / 2 ^ 16), u8 (n / 2 ^ 24)]

def behindComma : Bytes → Option Bytes
  | 0x2c :: pos => some pos
  | _ => none

/-- The fixed fields of an entry, and the position of the PHY type. -/
def candidateFields (len : Nat) (out pos : Bytes) : Except Stop (Bytes × Bytes) := do
  -- the length is filled in later
  let out ← store len [wlanEidNeighborReport, 0] out
  let addr ← require (hwaddrAton pos)
  let out ← store len addr out
  let pos ← require (behindComma (pos.drop 17))
  let (val, endptr) := strtolAny pos
  let out ← store len (le32 val) out
  let pos ← require (behindComma endptr)
  let out ← store len [u8 (atoi pos)] out
  let pos ← require (strchr 0x2c pos)
  let pos := pos.drop 1
  let out ← store len [u8 (atoi pos)] out
  let pos ← require (strchr 0x2c pos)
  let pos := pos.drop 1
  let out ← store len [u8 (atoi pos)] out
  return (out, pos)

/-- Whether the first comma stands in front of the first space. -/
def before (tmp : Bytes) : Option Bytes → Bool
  | none => true
  | some last => last.length < tmp.length

/-- Where the subelements begin, the length of their text, and what is behind it. -/
def subelements (pos : Bytes) : Option (Bytes × Nat × Option Bytes) :=
  match strchr 0x2c pos with
  | none => none
  | some tmp =>
    if before tmp (strchr 0x20 pos) then
      let pos := tmp.drop 1
      match strchr 0x20 pos with
      | some last => some (pos, pos.length - last.length, some last)
      | none => some (pos, pos.length, none)
    else none

/-- The length of the element from `start` on. -/
def fillLength (start : Nat) (out : Bytes) : Bytes := out.set (start + 1) (u8 (out.length - start - 2 : Nat))

/-- An entry: what is written, and where the search goes on. -/
def candidate (len : Nat) (out pos : Bytes) : Except Stop (Bytes × Option Bytes) := do
  let start := out.length
  let (out, pos) ← candidateFields len out pos
  match subelements pos with
  | none => return (fillLength start out, some pos)
  | some (pos, hexLen, last) =>
    if out.length + hexLen / 2 > len then throw .refused
    else if hexLen % 2 = 1 then throw .refused
    else
      let sub ← require (hexstr2bin (hexLen / 2) pos)
      let out ← store len sub out
      return (fillLength start out, last)

def candidateLoop (len : Nat) : Nat → Option Bytes → Bytes → Except Stop Bytes
  | _, none, out => .ok out
  | 0, some _, _ => .error .fuel
  | n + 1, some pos, out =>
    match strstr neighborText pos with
    | none => .ok out
    | some pos =>
      if out.length + 15 > len then .error .refused
      else do
        let (out, pos) ← candidate len out (pos.drop 10)
        candidateLoop len n pos out

/-- The octets that are written, of which the length is returned. -/
def ieee80211ParseCandidateList (pos : Bytes) (len : Nat) : Except Stop Bytes :=
  candidateLoop len (pos.length + 1) (some pos) []

/-! ## The entries of a command -/

/-- The text in front of the first entry, and the texts of the entries. -/
def splitEntries : Bytes → Bytes × List Bytes
  | [] => ([], [])
  | b :: s =>
    if neighborText.isPrefixOf (b :: s) then ([], (splitEntries s).1.drop 9 :: (splitEntries s).2)
    else (b :: (splitEntries s).1, (splitEntries s).2)

def entries (s : Bytes) : List Bytes := (splitEntries s).2

/-- The fixed part of an element, its length zero, and the text from the PHY type on. -/
def neighborFields (pos : Bytes) : Option (Bytes × Bytes) := do
  let addr ← hwaddrAton pos
  let pos ← behindComma (pos.drop 17)
  let (val, endptr) := strtolAny pos
  let pos ← behindComma endptr
  let channel := (← strchr 0x2c pos).drop 1
  let phyType := (← strchr 0x2c channel).drop 1
  let numbers := [u8 (atoi pos), u8 (atoi channel), u8 (atoi phyType)]
  some (wlanEidNeighborReport :: 0 :: (addr ++ (le32 val ++ numbers)), phyType)

/-- The element of an entry by itself, and where the search goes on. -/
def neighborElement (pos : Bytes) : Option (Bytes × Option Bytes) := do
  let (fields, pos) ← neighborFields pos
  match subelements pos with
  | none => some (fillLength 0 fields, some pos)
  | some (pos, hexLen, last) =>
    if hexLen % 2 = 1 then none
    else do
      let sub ← hexstr2bin (hexLen / 2) pos
      some (fillLength 0 (fields ++ sub), last)

/-- A Neighbor Report element: thirteen octets at least, as many as the length says. -/
def WellFormed (e : Bytes) : Prop :=
  ∃ body, e = wlanEidNeighborReport :: UInt8.ofNat body.length :: body ∧ 13 ≤ body.length ∧ body.length ≤ 255

def IsElement (text e : Bytes) : Prop := (∃ next, neighborElement text = some (e, next)) ∧ WellFormed e

def afterComma (s : Bytes) : Bytes := (s.dropWhile fun c => c ≠ 0x2c).drop 1

/-- The text of the subelements: behind the fifth comma, if it stands in front of the first space that is behind
the fourth one, and up to the next space. -/
def hexText (text : Bytes) : Bytes :=
  afterComma ((afterComma (afterComma (afterComma (afterComma text)))).takeWhile fun c => c ≠ 0x20)

/-! ## An entry in the buffer -/

variable {len hexLen : Nat} {out pos text rest s e f : Bytes} {next : Option Bytes}

theorem store_ok {data : Bytes} (h : out.length + data.length ≤ len) :
    store len data out = .ok (out ++ data) := by
  unfold store
  rw [put_ok h]

theorem hwaddrAton_length {addr : Bytes} (h : hwaddrAton pos = some addr) :
    addr.length = 6 ∧ hwaddrParse 6 pos = some (addr, pos.drop 17) := by
  unfold hwaddrAton at h
  cases hp : hwaddrParse 6 pos with
  | none =>
    rw [hp] at h
    cases h
  | some q =>
    obtain ⟨addr', r⟩ := q
    rw [hp] at h
    cases h
    obtain ⟨hlen, -, hdrop⟩ := hwaddrParse_drop hp
    exact ⟨hlen, by rw [hdrop]⟩

theorem require_bind {α β : Type} (o : Option α) (f : α → Except Stop β) :
    (require o >>= f) = match o with | some a => f a | none => .error .refused := by
  cases o <;> rfl

theorem store_bind {β : Type} {data : Bytes} (h : out.length + data.length ≤ len) (f : Bytes → Except Stop β) :
    (store len data out >>= f) = f (out ++ data) := by
  rw [store_ok h]
  rfl

theorem candidateFields_eq (h : out.length + 15 ≤ len) (pos : Bytes) :
    candidateFields len out pos =
      match neighborFields pos with
      | some (f, pos) => .ok (out ++ f, pos)
      | none => .error .refused := by
  -- what was written before, and a field more
  have hfit : ∀ {written data : Bytes}, written.length + data.length ≤ 15 →
      (out ++ written).length + data.length ≤ len := by
    intro written data hle
    rw [length_append]
    omega
  unfold candidateFields neighborFields
  rw [store_bind (show out.length + 2 ≤ len by omega), require_bind]
  cases haddr : hwaddrAton pos with
  | none => rfl
  | some addr =>
    have hlen := (hwaddrAton_length haddr).1
    dsimp only [Option.bind_eq_bind, Option.bind_some]
    rw [store_bind (hfit (by rw [hlen]; decide)), require_bind]
    cases behindComma (pos.drop 17) with
    | none => rfl
    | some pos =>
      dsimp only [Option.bind_some]
      obtain ⟨val, endptr⟩ := strtolAny pos
      dsimp only
      simp only [append_assoc]
      rw [store_bind (hfit (by rw [length_append, hlen]; exact (by decide : 12 ≤ 15))), require_bind]
      cases behindComma endptr with
      | none => rfl
      | some pos =>
        dsimp only [Option.bind_some]
        simp only [append_assoc]
        rw [store_bind (hfit (by simp only [length_append, hlen]; exact (by decide : 13 ≤ 15))),
          require_bind]
        cases strchr 0x2c pos with
        | none => rfl
        | some channel =>
          dsimp only [Option.bind_some]
          simp only [append_assoc]
          rw [store_bind (hfit (by simp only [length_append, hlen]; exact (by decide : 14 ≤ 15))),
            require_bind]
          cases strchr 0x2c (channel.drop 1) with
          | none => rfl
          | some phyType =>
            dsimp only [Option.bind_some]
            simp only [append_assoc]
            rw [store_bind (hfit (by simp only [length_append, hlen]; exact (by decide : 15 ≤ 15)))]
            show Except.ok _ = Except.ok _
            simp only [append_assoc, cons_append, nil_append]

theorem behindComma_eq (h : behindComma pos = some text) : pos = 0x2c :: text := by
  unfold behindComma at h
  split at h
  · cases h
    rfl
  · cases h

/-! ## The fields of an entry -/

theorem behindComma_append (hf : 0x2c ∉ f) (x : Bytes) :
    behindComma (f ++ 0x2c :: x) = if f = [] then some x else none := by
  cases f with
  | nil => rfl
  | cons b f =>
    have hb : b ≠ 0x2c := fun hb => hf (hb ▸ mem_cons_self ..)
    simp [behindComma, hb]

theorem ends_comma (x : Bytes) : Ends (0x2c :: x) := by
  intro c hc
  cases hc
  decide

theorem strchr_comma (hf : 0x2c ∉ f) (x : Bytes) : strchr 0x2c (f ++ 0x2c :: x) = some (0x2c :: x) := by
  rw [strchr_append, strchr_eq_none hf]
  rfl

theorem afterComma_append (hf : 0x2c ∉ f) (x : Bytes) : afterComma (f ++ 0x2c :: x) = x := by
  unfold afterComma
  rw [dropWhile_append_of_pos]
  · rfl
  · intro b hb
    apply decide_eq_true
    rintro rfl
    exact hf hb

/-- The octets in front of the PHY type, from the texts of the four fields before it. -/
def fieldsHead (bssid info opClass channel : Bytes) : Option Bytes :=
  match hwaddrParse 6 bssid with
  | some (addr, []) =>
    match strtolAny info with
    | (val, []) =>
      some (wlanEidNeighborReport :: 0 :: (addr ++ (le32 val ++ [u8 (atoi opClass), u8 (atoi channel)])))
    | _ => none
  | _ => none

theorem neighborFields_commas {bssid info opClass channel : Bytes} (hbssid : 0x2c ∉ bssid) (hinfo : 0x2c ∉ info)
    (hop : 0x2c ∉ opClass) (hchannel : 0x2c ∉ channel) (x : Bytes) :
    neighborFields (bssid ++ 0x2c :: (info ++ 0x2c :: (opClass ++ 0x2c :: (channel ++ 0x2c :: x)))) =
      (fieldsHead bssid info opClass channel).map fun head => (head ++ [u8 (atoi x)], x) := by
  generalize hy : info ++ 0x2c :: (opClass ++ 0x2c :: (channel ++ 0x2c :: x)) = y
  have haddr := hwaddrParse_append (ends_comma y) 6 bssid
  unfold neighborFields fieldsHead hwaddrAton
  rw [haddr]
  cases hp : hwaddrParse 6 bssid with
  | none => rfl
  | some q =>
    obtain ⟨addr, r⟩ := q
    obtain ⟨-, hlen, hr⟩ := hwaddrParse_drop hp
    have hr' : 0x2c ∉ r := fun hmem => hbssid (mem_of_mem_drop (hr ▸ hmem))
    have hdrop : (bssid ++ 0x2c :: y).drop 17 = r ++ 0x2c :: y := by
      rw [drop_append_of_le_length hlen, ← hr]
    simp only [Option.map_some, Option.bind_eq_bind, Option.bind_some, hdrop, behindComma_append hr']
    cases r with
    | cons b r => rfl
    | nil =>
      rw [if_pos rfl, ← hy]
      simp only [Option.bind_some, strtolAny_append (ends_comma _)]
      have hsuffix := strtolAny_suffix info
      generalize strtolAny info = q at hsuffix
      obtain ⟨val, endptr⟩ := q
      have hend : 0x2c ∉ endptr := fun hmem => hinfo (hsuffix.subset hmem)
      simp only [behindComma_append hend]
      cases endptr with
      | cons b endptr => rfl
      | nil =>
        rw [if_pos rfl]
        simp only [Option.bind_some, strchr_comma hop, strchr_comma hchannel, List.drop_one, tail_cons,
          atoi_append (ends_comma _), Option.map_some, append_assoc, cons_append, nil_append]

theorem exists_comma {n : Nat} (h : n + 1 ≤ text.count 0x2c) :
    ∃ f x, text = f ++ 0x2c :: x ∧ 0x2c ∉ f ∧ n ≤ x.count 0x2c := by
  have hmem : (0x2c : UInt8) ∈ text := count_pos_iff.1 (by omega)
  obtain ⟨f, x, rfl, hf⟩ := eq_append_cons_of_mem hmem
  refine ⟨f, x, rfl, hf, ?_⟩
  rw [count_append, List.count_eq_zero.2 hf, count_cons_self] at h
  omega

theorem exists_commas (h : 4 ≤ text.count 0x2c) :
    ∃ bssid info opClass channel x,
      text = bssid ++ 0x2c :: (info ++ 0x2c :: (opClass ++ 0x2c :: (channel ++ 0x2c :: x))) ∧
        0x2c ∉ bssid ∧ 0x2c ∉ info ∧ 0x2c ∉ opClass ∧ 0x2c ∉ channel := by
  obtain ⟨bssid, x₁, rfl, h₁, hx₁⟩ := exists_comma h
  obtain ⟨info, x₂, rfl, h₂, hx₂⟩ := exists_comma hx₁
  obtain ⟨opClass, x₃, rfl, h₃, hx₃⟩ := exists_comma hx₂
  obtain ⟨channel, x, rfl, h₄, -⟩ := exists_comma hx₃
  exact ⟨bssid, info, opClass, channel, x, rfl, h₁, h₂, h₃, h₄⟩

theorem four_le_count (h : neighborFields pos = some (f, text)) : 4 ≤ pos.count 0x2c := by
  unfold neighborFields at h
  simp only [Option.bind_eq_bind, Option.bind_eq_some_iff] at h
  obtain ⟨addr, -, p₁, h₁, h⟩ := h
  generalize hq : strtolAny p₁ = q at h
  obtain ⟨val, endptr⟩ := q
  obtain ⟨p₂, h₂, e₃, h₃, e₄, h₄, -⟩ := h
  have hend : endptr <:+ p₁ := by
    have := strtolAny_suffix p₁
    rwa [hq] at this
  obtain ⟨g₃, p₃, hp₂, -, rfl⟩ := strchr_eq_some h₃
  obtain ⟨g₄, p₄, hp₃, -, -⟩ := strchr_eq_some h₄
  rw [List.drop_one, tail_cons] at hp₃
  have c₁ : (pos.drop 17).count 0x2c ≤ pos.count 0x2c := (drop_sublist 17 pos).count_le 0x2c
  have c₂ : endptr.count 0x2c ≤ p₁.count 0x2c := hend.sublist.count_le 0x2c
  rw [behindComma_eq h₁, count_cons_self] at c₁
  rw [show endptr = 0x2c :: p₂ from behindComma_eq h₂, count_cons_self, hp₂, count_append,
    count_cons_self, hp₃,
    count_append, count_cons_self] at c₂
  omega

/-! ## The subelements -/

def Apart (w : Bytes) : Prop := w = [] ∨ ∃ r, w = 0x20 :: r

def remaining (w : Bytes) : Option Bytes := if w = [] then none else some w

theorem strchr_space {q w : Bytes} (hq : 0x20 ∉ q) (hw : Apart w) : strchr 0x20 (q ++ w) = remaining w := by
  rw [strchr_append, strchr_eq_none hq]
  rcases hw with rfl | ⟨r, rfl⟩ <;> rfl

theorem subelements_eq {q w : Bytes} (hq : 0x20 ∉ q) (hw : Apart w) :
    subelements (q ++ w) =
      if 0x2c ∈ q then some (afterComma q ++ w, (afterComma q).length, remaining w) else none := by
  unfold subelements
  rw [strchr_space hq hw]
  by_cases hmem : (0x2c : UInt8) ∈ q
  · obtain ⟨a, b, rfl, ha⟩ := eq_append_cons_of_mem hmem
    have hb : 0x20 ∉ b := fun hb => hq (mem_append_right _ (mem_cons_of_mem _ hb))
    have hfront : before (0x2c :: b ++ w) (remaining w) = true := by
      unfold remaining before
      split_ifs with hnil
      · rfl
      · apply decide_eq_true
        rw [length_append, length_cons]
        omega
    rw [if_pos hmem, afterComma_append ha, strchr_append, strchr_comma ha]
    dsimp only
    rw [if_pos hfront, cons_append, List.drop_one, tail_cons, strchr_space hb hw]
    unfold remaining
    split_ifs with hnil
    · rw [hnil, append_nil]
    · dsimp only
      rw [length_append, Nat.add_sub_cancel]
  · rw [if_neg hmem, strchr_append, strchr_eq_none hmem]
    dsimp only
    cases htmp : strchr 0x2c w with
    | none => rfl
    | some tmp =>
      obtain ⟨g, r, hgr, -, rfl⟩ := strchr_eq_some htmp
      have hback : before (0x2c :: r) (remaining w) = false := by
        unfold remaining before
        rw [if_neg (by rw [hgr]; simp)]
        apply decide_eq_false
        rw [hgr, length_append]
        omega
      dsimp only
      rw [hback]
      rfl

theorem exists_apart (text : Bytes) :
    ∃ w, text = text.takeWhile (fun c => c ≠ 0x20) ++ w ∧
      0x20 ∉ text.takeWhile (fun c => c ≠ 0x20) ∧ Apart w := by
  refine ⟨text.dropWhile fun c => c ≠ 0x20, takeWhile_append_dropWhile.symm, ?_, ?_⟩
  · intro hmem
    have := mem_takeWhile_imp hmem
    simp at this
  · cases h : text.dropWhile fun c => c ≠ 0x20 with
    | nil => exact .inl rfl
    | cons c r =>
      have hc := head?_dropWhile_not (fun c : UInt8 => decide (c ≠ 0x20)) text
      rw [h] at hc
      have hc' : c = 0x20 := by simpa using hc
      exact .inr ⟨r, by rw [hc']⟩

/-! ## The element of an entry -/

theorem u8_natCast (n : Nat) : u8 (n : Int) = UInt8.ofNat n := by
  unfold u8
  rw [show ((n : Int) % 256).toNat = n % 256 by omega]
  apply UInt8.toNat_inj.1
  simp

theorem fillLength_append (out body : Bytes) :
    fillLength out.length (out ++ wlanEidNeighborReport :: 0 :: body) =
      out ++ wlanEidNeighborReport :: UInt8.ofNat body.length :: body := by
  unfold fillLength
  have hlen : (out ++ wlanEidNeighborReport :: 0 :: body).length - out.length - 2 = body.length := by
    rw [length_append, length_cons, length_cons]
    omega
  rw [hlen, u8_natCast, set_append_right _ _ (Nat.le_add_right _ _), Nat.add_sub_cancel_left]
  rfl

theorem neighborElement_eq {bssid info opClass channel q w : Bytes} (hbssid : 0x2c ∉ bssid)
    (hinfo : 0x2c ∉ info) (hop : 0x2c ∉ opClass) (hchannel : 0x2c ∉ channel) (hq : 0x20 ∉ q) (hw : Apart w) :
    neighborElement (bssid ++ 0x2c :: (info ++ 0x2c :: (opClass ++ 0x2c :: (channel ++ 0x2c :: (q ++ w))))) =
      (fieldsHead bssid info opClass channel).bind fun head =>
        if 0x2c ∈ q then
          if (afterComma q).length % 2 = 1 then none
          else (hexstr2bin ((afterComma q).length / 2) (afterComma q)).map fun sub =>
            (fillLength 0 (head ++ (u8 (atoi (q ++ w)) :: sub)), remaining w)
        else some (fillLength 0 (head ++ [u8 (atoi (q ++ w))]), some (q ++ w)) := by
  unfold neighborElement
  rw [neighborFields_commas hbssid hinfo hop hchannel]
  cases fieldsHead bssid info opClass channel with
  | none => rfl
  | some head =>
    simp only [Option.map_some, Option.bind_eq_bind, Option.bind_some, subelements_eq hq hw]
    by_cases hmem : (0x2c : UInt8) ∈ q
    · rw [if_pos hmem, if_pos hmem]
      dsimp only
      rw [hexstr2bin_append (by omega)]
      split_ifs
      · rfl
      · cases hexstr2bin ((afterComma q).length / 2) (afterComma q) with
        | none => rfl
        | some sub => simp
    · rw [if_neg hmem, if_neg hmem]

theorem fieldsHead_shape {bssid info opClass channel head : Bytes}
    (h : fieldsHead bssid info opClass channel = some head) :
    ∃ g, head = wlanEidNeighborReport :: 0 :: g ∧ g.length = 12 := by
  unfold fieldsHead at h
  cases hp : hwaddrParse 6 bssid with
  | none =>
    rw [hp] at h
    cases h
  | some q =>
    obtain ⟨addr, r⟩ := q
    rw [hp] at h
    have hlen := (hwaddrParse_drop hp).1
    generalize strtolAny info = q at h
    obtain ⟨val, endptr⟩ := q
    cases r with
    | cons b r => cases h
    | nil =>
      cases endptr with
      | cons b endptr => cases h
      | nil =>
        cases h
        refine ⟨_, rfl, ?_⟩
        rw [length_append, hlen]
        rfl

theorem exists_fields (h : neighborElement text ≠ none) :
    ∃ bssid info opClass channel q w,
      text = bssid ++ 0x2c :: (info ++ 0x2c :: (opClass ++ 0x2c :: (channel ++ 0x2c :: (q ++ w)))) ∧
        (0x2c ∉ bssid ∧ 0x2c ∉ info ∧ 0x2c ∉ opClass ∧ 0x2c ∉ channel) ∧ 0x20 ∉ q ∧ Apart w ∧
          4 ≤ text.count 0x2c ∧ hexText text = afterComma q := by
  have hcount : 4 ≤ text.count 0x2c := by
    unfold neighborElement at h
    cases hf : neighborFields text with
    | none =>
      rw [hf] at h
      exact absurd rfl h
    | some r => exact four_le_count hf
  obtain ⟨bssid, info, opClass, channel, x, htext, h₁, h₂, h₃, h₄⟩ := exists_commas hcount
  obtain ⟨w, hx, hq, hw⟩ := exists_apart x
  refine ⟨bssid, info, opClass, channel, _, w, by rw [← hx]; exact htext, ⟨h₁, h₂, h₃, h₄⟩, hq, hw, hcount, ?_⟩
  unfold hexText
  rw [htext, afterComma_append h₁, afterComma_append h₂, afterComma_append h₃, afterComma_append h₄]

theorem neighborElement_shape (h : neighborElement text = some (e, next)) :
    4 ≤ text.count 0x2c ∧ (hexText text).length % 2 = 0 ∧
      (∃ body, e = wlanEidNeighborReport :: UInt8.ofNat body.length :: body ∧
        body.length = 13 + (hexText text).length / 2) ∧ ∀ y, next = some y → y <:+ text := by
  obtain ⟨bssid, info, opClass, channel, q, w, htext, ⟨h₁, h₂, h₃, h₄⟩, hq, hw, hcount, hhex⟩ :=
    exists_fields (by rw [h]; exact Option.some_ne_none _)
  have heq := neighborElement_eq h₁ h₂ h₃ h₄ hq hw
  rw [← htext, h] at heq
  cases hhead : fieldsHead bssid info opClass channel with
  | none =>
    rw [hhead] at heq
    cases heq
  | some head =>
    obtain ⟨g, rfl, hg⟩ := fieldsHead_shape hhead
    rw [hhead, Option.bind_some] at heq
    have hsuffix : w <:+ text ∧ q ++ w <:+ text := by
      have hback : q ++ w <:+ text := by
        rw [htext]
        refine ⟨bssid ++ 0x2c :: (info ++ 0x2c :: (opClass ++ 0x2c :: (channel ++ [0x2c]))), ?_⟩
        simp only [append_assoc, cons_append, nil_append]
      exact ⟨(suffix_append q w).trans hback, hback⟩
    refine ⟨hcount, ?_⟩
    rw [hhex]
    by_cases hmem : (0x2c : UInt8) ∈ q
    · rw [if_pos hmem] at heq
      by_cases hodd : (afterComma q).length % 2 = 1
      · rw [if_pos hodd] at heq
        cases heq
      rw [if_neg hodd] at heq
      cases hsub : hexstr2bin ((afterComma q).length / 2) (afterComma q) with
      | none =>
        rw [hsub] at heq
        cases heq
      | some sub =>
        have hlen := hexstr2bin_length hsub
        rw [hsub] at heq
        cases heq
        refine ⟨by omega, ⟨g ++ (u8 (atoi (q ++ w)) :: sub), fillLength_append [] _, ?_⟩, ?_⟩
        · rw [length_append, length_cons, hg, hlen]
          omega
        · intro y hy
          unfold remaining at hy
          split_ifs at hy
          cases hy
          exact hsuffix.1
    · rw [if_neg hmem] at heq
      have hnone : afterComma q = [] := by
        unfold afterComma
        rw [dropWhile_eq_nil_iff.2, drop_nil]
        intro b hb
        apply decide_eq_true
        rintro rfl
        exact hmem hb
      cases heq
      rw [hnone]
      refine ⟨rfl, ⟨g ++ [u8 (atoi (q ++ w))], fillLength_append [] _, ?_⟩, ?_⟩
      · rw [length_append, hg]
        rfl
      · intro y hy
        cases hy
        exact hsuffix.2

/-- Where the search goes on when another text stands behind. -/
def goOn (rest : Bytes) : Option Bytes → Option Bytes
  | some y => some (y ++ rest)
  | none => remaining rest

theorem neighborElement_append (hcount : 4 ≤ text.count 0x2c) (hrest : Apart rest) (hends : Ends rest) :
    neighborElement (text ++ rest) = (neighborElement text).map fun r => (r.1, goOn rest r.2) := by
  obtain ⟨bssid, info, opClass, channel, x, htext, h₁, h₂, h₃, h₄⟩ := exists_commas hcount
  obtain ⟨w, hx, hq, hw⟩ := exists_apart x
  generalize x.takeWhile (fun c => c ≠ 0x20) = q at hx hq
  subst hx
  have hw' : Apart (w ++ rest) := by
    rcases hw with rfl | ⟨r, rfl⟩
    · exact hrest
    · exact .inr ⟨r ++ rest, rfl⟩
  have hremaining : remaining (w ++ rest) = goOn rest (remaining w) := by
    unfold remaining
    cases w with
    | nil => rfl
    | cons c w => rfl
  have hwhole : text ++ rest = bssid ++ 0x2c :: (info ++ 0x2c :: (opClass ++ 0x2c :: (channel ++ 0x2c ::
      (q ++ (w ++ rest))))) := by
    rw [htext]
    simp only [append_assoc, cons_append]
  have hatoi : atoi (q ++ (w ++ rest)) = atoi (q ++ w) := by
    rw [← append_assoc]
    exact atoi_append hends _
  rw [hwhole, htext, neighborElement_eq h₁ h₂ h₃ h₄ hq hw', neighborElement_eq h₁ h₂ h₃ h₄ hq hw, hremaining,
    hatoi]
  cases fieldsHead bssid info opClass channel with
  | none => rfl
  | some head =>
    rw [Option.bind_some, Option.bind_some]
    split_ifs
    · rfl
    · cases hexstr2bin ((afterComma q).length / 2) (afterComma q) <;> rfl
    · rw [← append_assoc]
      rfl

theorem neighborFields_shape {f p : Bytes} (hf : neighborFields pos = some (f, p)) :
    ∃ body : Bytes, body.length = 13 ∧ f = wlanEidNeighborReport :: 0 :: body := by
  obtain ⟨bssid, info, opClass, channel, x, htext, h₁, h₂, h₃, h₄⟩ := exists_commas (four_le_count hf)
  have hcommas := neighborFields_commas h₁ h₂ h₃ h₄ x
  rw [← htext, hf] at hcommas
  obtain ⟨head, hhead, hfp⟩ := Option.map_eq_some_iff.1 hcommas.symm
  obtain ⟨g, rfl, hg⟩ := fieldsHead_shape hhead
  cases hfp
  refine ⟨g ++ [u8 (atoi p)], ?_, rfl⟩
  rw [length_append, hg]
  rfl

theorem fillLength_element (out body : Bytes) :
    fillLength out.length (out ++ wlanEidNeighborReport :: 0 :: body) =
      out ++ fillLength 0 (wlanEidNeighborReport :: 0 :: body) ∧
    (fillLength 0 (wlanEidNeighborReport :: 0 :: body)).length = body.length + 2 := by
  have hzero := fillLength_append [] body
  rw [nil_append, nil_append, length_nil] at hzero
  refine ⟨by rw [fillLength_append, hzero], ?_⟩
  rw [hzero]
  rfl

theorem candidate_eq (h : out.length + 15 ≤ len) (pos : Bytes) :
    candidate len out pos =
      match neighborElement pos with
      | some (e, next) => if out.length + e.length ≤ len then .ok (out ++ e, next) else .error .refused
      | none => .error .refused := by
  cases hf : neighborFields pos with
  | none =>
    unfold candidate neighborElement
    rw [candidateFields_eq h, hf]
    rfl
  | some r =>
    obtain ⟨f, p⟩ := r
    obtain ⟨body, hlen, rfl⟩ := neighborFields_shape hf
    have hout : (out ++ wlanEidNeighborReport :: 0 :: body).length = out.length + 15 := by
      rw [length_append, length_cons, length_cons, hlen]
    unfold candidate neighborElement
    rw [candidateFields_eq h, hf]
    simp only [Option.bind_some, bind, Except.bind]
    cases subelements p with
    | none =>
      obtain ⟨hfill, hfilled⟩ := fillLength_element out body
      dsimp only
      rw [hfilled, hlen, if_pos h, hfill]
      rfl
    | some r =>
      obtain ⟨pos', hexLen, last⟩ := r
      dsimp only
      rw [hout]
      by_cases hodd : hexLen % 2 = 1
      · rw [if_pos hodd, if_pos hodd]
        split_ifs <;> rfl
      rw [if_neg hodd, if_neg hodd]
      cases hsub : hexstr2bin (hexLen / 2) pos' with
      | none =>
        dsimp only [Option.bind_none, require]
        split_ifs <;> rfl
      | some sub =>
        have hsublen := hexstr2bin_length hsub
        obtain ⟨hfill, hfilled⟩ := fillLength_element out (body ++ sub)
        have hlen' : (body ++ sub).length + 2 = 15 + hexLen / 2 := by
          rw [length_append, hlen, hsublen]
          omega
        dsimp only [Option.bind_some, require]
        rw [cons_append, cons_append, hfilled, hlen']
        by_cases hroom : out.length + (15 + hexLen / 2) ≤ len
        · rw [if_neg (by omega), if_pos hroom, store_ok (by rw [hout, hsublen]; omega)]
          show Except.ok _ = Except.ok _
          rw [append_assoc, cons_append, cons_append, hfill]
        · rw [if_pos (by omega), if_neg hroom]
          rfl

/-! ## The entries -/

def joined (ts : List Bytes) : Bytes := ts.flatMap fun t => neighborText ++ t

def NoEntry (t : Bytes) : Prop := ¬ neighborText <:+: t

/-- The text of ` neighbor=` behind its space, in which there is no other. -/
abbrev neighborWord : Bytes := ascii "neighbor="

theorem neighborText_eq : neighborText = 0x20 :: neighborWord := by decide

theorem NoEntry.suffix {t : Bytes} (h : NoEntry text) (ht : t <:+ text) : NoEntry t :=
  fun hin => h (hin.trans ht.isInfix)

theorem joined_cons (t : Bytes) (ts : List Bytes) : joined (t :: ts) = neighborText ++ (t ++ joined ts) := by
  unfold joined
  rw [flatMap_cons, append_assoc]

theorem apart_joined (ts : List Bytes) : Apart (joined ts) := by
  cases ts with
  | nil => exact .inl rfl
  | cons t ts =>
    rw [joined_cons, neighborText_eq]
    exact .inr ⟨_, rfl⟩

theorem ends_joined (ts : List Bytes) : Ends (joined ts) := by
  intro c hc
  cases ts with
  | nil => cases hc
  | cons t ts =>
    rw [joined_cons, show neighborText = [0x20, 0x6e] ++ ascii "eighbor=" from by decide] at hc
    have hn : c = 0x6e := (Option.some.inj hc).symm
    rw [hn]
    decide

theorem prefix_of_apart {m y w : Bytes} (hm : 0x20 ∉ m) (hw : Apart w) (h : m <+: y ++ w) : m <+: y := by
  induction m generalizing y with
  | nil => exact nil_prefix
  | cons c m ih =>
    have hc : c ≠ 0x20 := fun hc => hm (hc ▸ mem_cons_self ..)
    cases y with
    | nil =>
      rcases hw with rfl | ⟨r, rfl⟩
      · exact absurd (prefix_nil.1 h) (cons_ne_nil _ _)
      · exact absurd (cons_prefix_cons.1 h).1 hc
    | cons d y =>
      obtain ⟨rfl, htail⟩ := cons_prefix_cons.1 h
      exact cons_prefix_cons.2 ⟨rfl, ih (fun hmem => hm (mem_cons_of_mem _ hmem)) htail⟩

theorem neighborWord_prefix {y w : Bytes} (hw : Apart w) (h : neighborWord <+: y ++ w) : neighborWord <+: y :=
  prefix_of_apart (by decide) hw h

theorem strstr_joined {y : Bytes} (hy : NoEntry y) (ts : List Bytes) :
    strstr neighborText (y ++ joined ts) = if ts = [] then none else some (joined ts) := by
  induction y with
  | nil =>
    cases ts with
    | nil => rfl
    | cons t ts =>
      rw [if_neg (cons_ne_nil t ts), joined_cons, neighborText_eq, nil_append, cons_append,
        strstr, if_pos]
      exact isPrefixOf_iff_prefix.2 (cons_prefix_cons.2 ⟨rfl, prefix_append _ _⟩)
  | cons b y ih =>
    have hnot : ¬ neighborText <+: b :: (y ++ joined ts) := by
      intro h
      rw [neighborText_eq] at h
      obtain ⟨rfl, htail⟩ := cons_prefix_cons.1 h
      apply hy
      rw [neighborText_eq]
      exact (cons_prefix_cons.2 ⟨rfl, neighborWord_prefix (apart_joined ts) htail⟩).isInfix
    rw [cons_append, strstr, if_neg fun h => hnot (List.isPrefixOf_iff_prefix.1 h)]
    exact ih (hy.suffix (suffix_cons b y))

theorem splitEntries_spec (s : Bytes) :
    s = (splitEntries s).1 ++ joined (splitEntries s).2 ∧ NoEntry (splitEntries s).1 ∧
      ∀ t ∈ (splitEntries s).2, NoEntry t := by
  induction s with
  | nil =>
    refine ⟨rfl, ?_, fun t ht => nomatch ht⟩
    intro h
    exact absurd (infix_nil.1 h) (by decide)
  | cons b s ih =>
    obtain ⟨hs, hpre, hts⟩ := ih
    rw [splitEntries]
    generalize splitEntries s = q at hs hpre hts
    obtain ⟨pre, ts⟩ := q
    dsimp only at hs hpre hts ⊢
    by_cases hentry : neighborText.isPrefixOf (b :: s) = true
    · rw [if_pos hentry]
      have h := isPrefixOf_iff_prefix.1 hentry
      rw [neighborText_eq, hs] at h
      obtain ⟨rfl, htail⟩ := cons_prefix_cons.1 h
      obtain ⟨t, rfl⟩ := neighborWord_prefix (apart_joined ts) htail
      rw [drop_left' (show neighborWord.length = 9 from by decide)]
      refine ⟨?_, ?_, ?_⟩
      · rw [nil_append, joined_cons, hs, neighborText_eq, append_assoc]
        rfl
      · intro hnil
        exact absurd (infix_nil.1 hnil) (by decide)
      · intro t' ht'
        rcases mem_cons.1 ht' with rfl | ht'
        · exact hpre.suffix (suffix_append _ _)
        · exact hts t' ht'
    · rw [if_neg hentry]
      refine ⟨by rw [cons_append, ← hs], ?_, hts⟩
      intro h
      rcases infix_cons_iff.1 h with h | h
      · apply hentry
        rw [List.isPrefixOf_iff_prefix, hs, ← cons_append]
        exact h.trans (prefix_append _ _)
      · exact hpre h

/-! ## The loop -/

theorem candidateLoop_sound {n : Nat} {pos : Option Bytes} (hout : out.length ≤ len)
    (hn : ∀ p, pos = some p → p.length < n) :
    (∀ stop, candidateLoop len n pos out = .error stop → stop = .refused) ∧
      ∀ out', candidateLoop len n pos out = .ok out' → out'.length ≤ len := by
  induction n generalizing pos out with
  | zero =>
    cases pos with
    | none =>
      refine ⟨fun stop h => (nomatch h), fun out' h => ?_⟩
      cases h
      exact hout
    | some p => exact absurd (hn p rfl) (Nat.not_lt_zero _)
  | succ n ih =>
    cases pos with
    | none =>
      refine ⟨fun stop h => (nomatch h), fun out' h => ?_⟩
      cases h
      exact hout
    | some p =>
      have hp := hn p rfl
      rw [candidateLoop]
      cases hfind : strstr neighborText p with
      | none =>
        refine ⟨fun stop h => (nomatch h), fun out' h => ?_⟩
        cases h
        exact hout
      | some q =>
        obtain ⟨hq, hneedle⟩ := strstr_eq_some hfind
        have hten : 10 ≤ q.length := hneedle.length_le
        dsimp only
        by_cases hroom : out.length + 15 > len
        · rw [if_pos hroom]
          refine ⟨fun stop h => ?_, fun out' h => nomatch h⟩
          cases h
          rfl
        rw [if_neg hroom, candidate_eq (by omega)]
        cases helem : neighborElement (q.drop 10) with
        | none =>
          refine ⟨fun stop h => ?_, fun out' h => nomatch h⟩
          cases h
          rfl
        | some r =>
          obtain ⟨e, next⟩ := r
          dsimp only
          by_cases hfit : out.length + e.length ≤ len
          · rw [if_pos hfit]
            apply ih
            · rw [length_append]
              exact hfit
            · intro y hy
              have hback := ((neighborElement_shape helem).2.2.2 y hy).length_le
              have hdrop := hq.length_le
              rw [length_drop] at hback
              omega
          · rw [if_neg hfit]
            refine ⟨fun stop h => ?_, fun out' h => nomatch h⟩
            cases h
            rfl

theorem candidateLoop_joined {n : Nat} {ts : List Bytes} {y out' : Bytes}
    (hts : ∀ t ∈ ts, NoEntry t ∧ 4 ≤ t.count 0x2c) (hy : NoEntry y)
    (h : candidateLoop len n (some (y ++ joined ts)) out = .ok out') :
    ∃ es, List.Forall₂ (fun t e => ∃ next, neighborElement t = some (e, next)) ts es ∧
      out' = out ++ es.flatten := by
  induction ts generalizing n y out with
  | nil =>
    cases n with
    | zero => cases h
    | succ n =>
      rw [candidateLoop, strstr_joined hy, if_pos rfl] at h
      cases h
      exact ⟨[], .nil, (append_nil _).symm⟩
  | cons t ts ih =>
    obtain ⟨htext, hcount⟩ := hts t (mem_cons_self ..)
    have hlater := fun t ht => hts t (mem_cons_of_mem _ ht)
    cases n with
    | zero => cases h
    | succ n =>
      rw [candidateLoop, strstr_joined hy, if_neg (cons_ne_nil t ts)] at h
      dsimp only at h
      by_cases hroom : out.length + 15 > len
      · rw [if_pos hroom] at h
        cases h
      rw [if_neg hroom, candidate_eq (by omega), joined_cons,
        drop_left' (show neighborText.length = 10 from by decide),
        neighborElement_append hcount (apart_joined ts) (ends_joined ts)] at h
      cases helem : neighborElement t with
      | none =>
        rw [helem] at h
        cases h
      | some r =>
        obtain ⟨e, next⟩ := r
        rw [helem] at h
        dsimp only [Option.map_some] at h
        by_cases hfit : out.length + e.length ≤ len
        swap
        · rw [if_neg hfit] at h
          cases h
        rw [if_pos hfit] at h
        have h : candidateLoop len n (goOn (joined ts) next) (out ++ e) = .ok out' := h
        -- the search goes on within the entry, or where the next one begins
        have hnext : ∃ es, List.Forall₂ (fun t e => ∃ next, neighborElement t = some (e, next)) ts es ∧
            out' = (out ++ e) ++ es.flatten := by
          cases next with
          | some y' =>
            exact ih hlater (htext.suffix ((neighborElement_shape helem).2.2.2 y' rfl)) h
          | none =>
            cases ts with
            | nil =>
              have hdone : (Except.ok (out ++ e) : Except Stop Bytes) = .ok out' := by
                cases n <;> exact h
              cases hdone
              exact ⟨[], .nil, (append_nil _).symm⟩
            | cons t' ts =>
              have hne : joined (t' :: ts) ≠ [] := by
                rw [joined_cons, neighborText_eq]
                exact cons_ne_nil _ _
              unfold goOn remaining at h
              rw [if_neg hne] at h
              exact ih hlater (y := []) (htext.suffix nil_suffix) h
        obtain ⟨es, hes, hout'⟩ := hnext
        exact ⟨e :: es, .cons ⟨next, helem⟩ hes, by rw [hout', flatten_cons, append_assoc]⟩

/-- The parser stays within the buffer and comes to an end. What it accepts are the elements of the entries just
when every entry has its four commas, and no more subelements than the length octet can count. -/
theorem parse_candidate_list_iff (s : Bytes) (len : Nat) :
    (∀ stop, ieee80211ParseCandidateList s len = .error stop → stop = .refused) ∧
    ∀ out, ieee80211ParseCandidateList s len = .ok out → out.length ≤ len ∧
      ((∃ es, List.Forall₂ IsElement (entries s) es ∧ out = es.flatten) ↔
        ∀ t ∈ entries s, 4 ≤ t.count 0x2c ∧ (hexText t).length ≤ 484) := by
  obtain ⟨hs, hpre, hts⟩ := splitEntries_spec s
  have hsound := @candidateLoop_sound len [] (s.length + 1) (some s)
    (Nat.zero_le _) (fun p hp => by cases hp; exact Nat.lt_succ_self _)
  refine ⟨hsound.1, fun out hout => ⟨hsound.2 out hout, ?_, ?_⟩⟩
  · rintro ⟨es, hes, -⟩
    refine ((forall₂_and_left (R := fun _ _ => True) _ es).1 (hes.imp ?_)).1
    rintro t e ⟨⟨next, helem⟩, body, rfl, -, hbody⟩
    obtain ⟨hcount, heven, ⟨body', he, hlen⟩, -⟩ := neighborElement_shape helem
    cases (List.cons.inj (List.cons.inj he).2).2
    exact ⟨⟨hcount, by omega⟩, trivial⟩
  · intro hall
    have hrun : candidateLoop len (s.length + 1) (some ((splitEntries s).1 ++ joined (splitEntries s).2)) [] =
        .ok out := by
      rw [← hs]
      exact hout
    obtain ⟨es, hes, rfl⟩ := candidateLoop_joined (fun t ht => ⟨hts t ht, (hall t ht).1⟩) hpre hrun
    refine ⟨es, ((forall₂_and_left _ es).2 ⟨hall, hes⟩).imp ?_, nil_append _⟩
    rintro t e ⟨⟨-, hhex⟩, next, helem⟩
    obtain ⟨-, -, ⟨body, rfl, hlen⟩, -⟩ := neighborElement_shape helem
    exact ⟨⟨next, helem⟩, body, rfl, by omega, by omega⟩

/-- Two entries, the first with a subelement. -/
theorem parse_candidate_list_two :
    ∃ es, List.Forall₂ IsElement
      (entries (ascii " neighbor=02:00:00:00:00:01,0x12,81,6,7,0301ff neighbor=02:00:00:00:00:02,1,2,3,4")) es ∧
        [52, 16, 2, 0, 0, 0, 0, 1, 18, 0, 0, 0, 81, 6, 7, 3, 1, 255,
          52, 13, 2, 0, 0, 0, 0, 2, 1, 0, 0, 0, 2, 3, 4] = es.flatten := by
  have hrun := (parse_candidate_list_iff
    (ascii " neighbor=02:00:00:00:00:01,0x12,81,6,7,0301ff neighbor=02:00:00:00:00:02,1,2,3,4") 64).2
  exact (hrun _ (by decide +kernel)).2.2 (by decide +kernel)

theorem WellFormed.length_le (h : WellFormed e) : 15 ≤ e.length := by
  obtain ⟨body, rfl, hbody, -⟩ := h
  exact Nat.add_le_add_right hbody 2

/-- The first entry has no channel and no PHY type, and those of the second are taken for them. One element is
written for the two entries. -/
theorem parse_candidate_list_skips_entry :
    ∃ out, ieee80211ParseCandidateList
        (ascii " neighbor=02:00:00:00:00:01,0,1 neighbor=02:00:00:00:00:02,0,81") 64 = .ok out ∧
      (entries (ascii " neighbor=02:00:00:00:00:01,0,1 neighbor=02:00:00:00:00:02,0,81")).length = 2 ∧
        ¬ ∃ es : List Bytes, es.length = 2 ∧ (∀ e ∈ es, WellFormed e) ∧ out = es.flatten := by
  refine ⟨[52, 13, 2, 0, 0, 0, 0, 1, 0, 0, 0, 0, 1, 0, 81], by decide +kernel, by decide +kernel, ?_⟩
  rintro ⟨es, hlen, hes, hout⟩
  obtain ⟨a, b, rfl⟩ := length_eq_two.1 hlen
  have ha := (hes a (mem_cons_self ..)).length_le
  have hb := (hes b (mem_cons_of_mem _ (mem_cons_self ..))).length_le
  have hfifteen := congrArg List.length hout
  rw [flatten_cons, flatten_cons, length_append, length_append] at hfifteen
  simp only [length_cons, length_nil] at hfifteen
  omega

end CandidateList

end Hostap
