import Hostap.Dpp.Channel
import Hostap.Utils.Base64
import Hostap.Utils.Common

/-!
# Bootstrapping URIs

`dpp_parse_uri()` and the functions for its parameters (`common/dpp.c`). A text is the list of its characters,
as in `Utils.Common`.

The parameters are found first, each as the text from its value to the end of the whole URI. Where a value ends
is seen by the function that reads it. `dpp_parse_uri_chan_list()` sees it only between two pairs: in a pair it
takes the next `/` of the text, wherever that is, and leaves out what is in front of it.
-/

namespace Hostap

open Octets Output Common List

/-! ## The parameters -/

/-- The parameters that are looked for. -/
inductive UriKey
  | chanList
  | mac
  | info
  | pk
  deriving DecidableEq

def UriKey.letter : UriKey → UInt8
  | .chanList => 0x43
  | .mac => 0x4d
  | .info => 0x49
  | .pk => 0x4b

/-- `chan_list`, `mac`, `info` and `pk` of `dpp_parse_uri()`: the URI from the value on. -/
structure UriParams where
  chanList : Option Bytes
  mac : Option Bytes
  info : Option Bytes
  pk : Option Bytes

namespace UriParams

def get (p : UriParams) : UriKey → Option Bytes
  | .chanList => p.chanList
  | .mac => p.mac
  | .info => p.info
  | .pk => p.pk

def empty : UriParams := ⟨none, none, none, none⟩

def isKey (pos : Bytes) (key : UriKey) : Prop := pos.getD 0 0 = key.letter ∧ pos.getD 1 0 = 0x3a

instance (pos : Bytes) (key : UriKey) : Decidable (isKey pos key) := by
  unfold isKey
  infer_instance

def set (p : UriParams) (pos : Bytes) : UriKey → UriParams
  | .chanList => { p with chanList := some pos }
  | .mac => { p with mac := some pos }
  | .info => { p with info := some pos }
  | .pk => { p with pk := some pos }

def note (p : UriParams) (pos : Bytes) : UriParams :=
  if isKey pos .chanList ∧ p.chanList = none then p.set (pos.drop 2) .chanList
  else if isKey pos .mac ∧ p.mac = none then p.set (pos.drop 2) .mac
  else if isKey pos .info ∧ p.info = none then p.set (pos.drop 2) .info
  else if isKey pos .pk ∧ p.pk = none then p.set (pos.drop 2) .pk
  else p

theorem get_set (p : UriParams) (pos : Bytes) (key key' : UriKey) :
    (p.set pos key).get key' = if key = key' then some pos else p.get key' := by
  cases key <;> cases key' <;> rfl

end UriParams

/-- The loop of `dpp_parse_uri()`. -/
def dppUriScan (p : UriParams) (pos : Bytes) : UriParams :=
  match _h : strchr 0x3b pos with
  | none => p
  | some rest =>
    -- the terminating ";;", or an unexpected ";"
    if rest.length = pos.length then dppUriScan p (pos.drop 1)
    else dppUriScan (p.note pos) (rest.drop 1)
termination_by pos.length
decreasing_by
  all_goals
    have := strchr_length _h
    rw [length_drop]
    omega

/-! ## The functions of the parameters -/

/-- What the channel list makes of two numbers of type `int`: `ieee80211_chan_to_freq()` takes octets. -/
def uriChanToFreq (opclass channel : Int) : Option Nat :=
  ieee80211ChanToFreq (UInt8.ofInt opclass).toNat (UInt8.ofInt channel).toNat

/-- A pair of the channel list, and the text behind the digits of its second number. -/
def readUriPair (pos : Bytes) : Option (Int × Int × Bytes) :=
  let opclass := atoi pos
  if opclass ≤ 0 then none
  else match strchr 0x2f pos with
    | none => none
    | some slash =>
      let pos := slash.drop 1
      let channel := atoi pos
      if channel ≤ 0 then none else some (opclass, channel, pos.dropWhile isDigit)

theorem readUriPair_length {pos rest : Bytes} {a b : Int} (h : readUriPair pos = some (a, b, rest)) :
    rest.length < pos.length := by
  unfold readUriPair at h
  by_cases ha : atoi pos ≤ 0
  · rw [if_pos ha] at h
    cases h
  rw [if_neg ha] at h
  cases hslash : strchr 0x2f pos with
  | none =>
    rw [hslash] at h
    cases h
  | some slash =>
    rw [hslash] at h
    dsimp only at h
    by_cases hb : atoi (slash.drop 1) ≤ 0
    · rw [if_pos hb] at h
      cases h
    rw [if_neg hb, Option.some_inj] at h
    obtain ⟨-, -, rfl⟩ := h
    have hlen := strchr_length hslash
    have hdrop := (dropWhile_suffix isDigit (l := slash.drop 1)).length_le
    rw [length_drop] at hdrop
    omega

/-- The loop of `dpp_parse_uri_chan_list()`, with the frequencies so far. -/
def dppParseUriChanListFrom (freq : List Nat) (pos : Bytes) : Option (List Nat) :=
  if pos = [] ∨ pos.head? = some 0x3b then some freq
  else match _h : readUriPair pos with
    | none => none
    | some (opclass, channel, rest) =>
      let known := uriChanToFreq opclass channel
      -- too many channels: the list is ignored
      if known.isSome ∧ freq.length = dppBootstrapMaxFreq then some []
      else match rest with
        | [] => some (freq ++ known.toList)
        | c :: rest' =>
          if c = 0x3b then some (freq ++ known.toList)
          else if c ≠ 0x2c then none
          else dppParseUriChanListFrom (freq ++ known.toList) rest'
termination_by pos.length
decreasing_by
  have := readUriPair_length _h
  rw [length_cons] at this
  omega

/-- `dpp_parse_uri_chan_list()`, where there may be none. -/
def dppParseUriChanList : Option Bytes → Option (List Nat)
  | none => some []
  | some chanList => dppParseUriChanListFrom [] chanList

/-- `hwaddr_aton2()`: the octets. -/
def hwaddrAton2 : Nat → Bytes → Option Bytes
  | 0, _ => some []
  | n + 1, txt => do
    let pos := txt.dropWhile fun c => c = 0x3a ∨ c = 0x2e ∨ c = 0x2d
    let a ← hex2byte pos
    let addr ← hwaddrAton2 n (pos.drop 2)
    some (UInt8.ofNat a :: addr)

/-- `dpp_parse_uri_mac()`. -/
def dppParseUriMac : Option Bytes → Option Bytes
  | none => some (zeros 6)
  | some mac => hwaddrAton2 6 mac

/-- `dpp_uri_valid_info()`. -/
def dppUriValidInfo (info : Bytes) : Bool := info.all fun val => 0x20 ≤ val && val ≤ 0x7e && val != 0x3b

/-- `dpp_parse_uri_info()`. -/
def dppParseUriInfo : Option Bytes → Option (Option Bytes)
  | none => some none
  | some info =>
    let info := info.takeWhile (· ≠ 0x3b)
    if dppUriValidInfo info then some (some info) else none

/-- `dpp_parse_uri_pk()`, with what SHA-256 and OpenSSL make of the SubjectPublicKeyInfo. -/
def dppParseUriPk {Pk : Type} (spki : Bytes → Option Pk) (pk : Bytes) : Option Pk :=
  match strchr 0x3b pk with
  | none => none
  | some _ =>
    match Base64.base64GenDecode true (pk.takeWhile (· ≠ 0x3b)) Base64.base64Table with
    | .ok (some data) => spki data
    | _ => none

/-- `struct dpp_bootstrap_info`, as far as a URI fills it in. -/
structure DppUriInfo (Pk : Type) where
  uri : Bytes
  freq : List Nat
  macAddr : Bytes
  info : Option Bytes
  pubkey : Pk

/-- `dpp_parse_uri()`. -/
def dppParseUri {Pk : Type} (spki : Bytes → Option Pk) (uri : Bytes) : Option (DppUriInfo Pk) :=
  if uri.take 4 ≠ ascii "DPP:" then none
  else
    let params := dppUriScan .empty (uri.drop 4)
    match params.pk with
    | none => none
    | some pk => do
      let freq ← dppParseUriChanList params.chanList
      let macAddr ← dppParseUriMac params.mac
      let info ← dppParseUriInfo params.info
      let pubkey ← dppParseUriPk spki pk
      some { uri, freq, macAddr, info, pubkey }

/-! ## What is found -/

/-- The parts of a text that end with `;`, each with what is behind it. -/
def uriParts (part : Bytes) : Bytes → List (Bytes × Bytes)
  | [] => []
  | c :: text => if c = 0x3b then (part, text) :: uriParts [] text else uriParts (part ++ [c]) text

def uriValue (key : UriKey) : Bytes → Option Bytes
  | a :: b :: value => if a = key.letter ∧ b = 0x3a then some value else none
  | _ => none

/-- The value of the first parameter with this key, and what is behind its `;`. -/
def firstParamAt (key : UriKey) (text : Bytes) : Option (Bytes × Bytes) :=
  (uriParts [] text).findSome? fun x => (uriValue key x.1).map fun value => (value, x.2)

def firstParam (key : UriKey) (text : Bytes) : Option Bytes := (firstParamAt key text).map Prod.fst

/-- The text of a parameter, which goes on to the end of the URI. -/
def uriText (x : Bytes × Bytes) : Bytes := x.1 ++ 0x3b :: x.2

section Scan

variable {part rest text : Bytes} {key : UriKey} {p : UriParams}

theorem uriParts_eq_nil (h : 0x3b ∉ text) (part : Bytes) : uriParts part text = [] := by
  induction text generalizing part with
  | nil => rfl
  | cons c text ih =>
    rw [mem_cons, not_or] at h
    rw [uriParts, if_neg (Ne.symm h.1)]
    exact ih h.2 _

theorem uriParts_cons (h : 0x3b ∉ part) (front rest : Bytes) :
    uriParts front (part ++ 0x3b :: rest) = (front ++ part, rest) :: uriParts [] rest := by
  induction part generalizing front with
  | nil =>
    rw [nil_append, uriParts, if_pos rfl, append_nil]
  | cons c part ih =>
    rw [mem_cons, not_or] at h
    rw [cons_append, uriParts, if_neg (Ne.symm h.1), ih h.2, append_assoc, singleton_append]

theorem UriKey.letter_injective : Function.Injective UriKey.letter := by
  intro k k'
  cases k <;> cases k' <;> decide

theorem UriParams.isKey_part (hne : part ≠ []) :
    (UriParams.isKey (part ++ 0x3b :: rest) key ∧
      ∃ value, uriValue key part = some value ∧ (part ++ 0x3b :: rest).drop 2 = uriText (value, rest)) ∨
    (¬ UriParams.isKey (part ++ 0x3b :: rest) key ∧ uriValue key part = none) := by
  match part, hne with
  | [a], _ =>
    refine .inr ⟨?_, rfl⟩
    rintro ⟨-, hcolon⟩
    exact absurd (show (0x3b : UInt8) = 0x3a from hcolon) (by decide)
  | a :: b :: value, _ =>
    by_cases hkey : a = key.letter ∧ b = 0x3a
    · exact .inl ⟨hkey, value, if_pos hkey, rfl⟩
    · exact .inr ⟨hkey, if_neg hkey⟩

theorem dppUriScan_none (h : 0x3b ∉ text) : dppUriScan p text = p := by
  rw [dppUriScan]
  split
  · rfl
  · rename_i found hfound
    rw [strchr_eq_none h] at hfound
    cases hfound

theorem dppUriScan_part (h : 0x3b ∉ part) : dppUriScan p (part ++ 0x3b :: rest) =
    dppUriScan (if part = [] then p else p.note (part ++ 0x3b :: rest)) rest := by
  rw [dppUriScan]
  split
  · rename_i hnone
    rw [strchr_cons h] at hnone
    cases hnone
  · rename_i found hfound
    rw [strchr_cons h, Option.some_inj] at hfound
    subst hfound
    cases part with
    | nil =>
      rw [nil_append, if_pos rfl, if_pos rfl]
      rfl
    | cons c part =>
      rw [if_neg, if_neg (cons_ne_nil _ _)]
      · rfl
      · rw [cons_append, length_cons, length_cons, length_append, length_cons]
        omega

theorem UriParams.get_note (pos : Bytes) : (p.note pos).get key =
    if UriParams.isKey pos key ∧ p.get key = none then some (pos.drop 2) else p.get key := by
  have hset {k : UriKey} (hk : UriParams.isKey pos k ∧ p.get k = none) : (p.set (pos.drop 2) k).get key =
      if UriParams.isKey pos key ∧ p.get key = none then some (pos.drop 2) else p.get key := by
    rw [UriParams.get_set]
    by_cases heq : k = key
    · subst heq
      rw [if_pos rfl, if_pos hk]
    · rw [if_neg heq, if_neg]
      rintro ⟨hkey, -⟩
      exact heq (UriKey.letter_injective (hk.1.1.symm.trans hkey.1))
  unfold UriParams.note
  by_cases hc : UriParams.isKey pos .chanList ∧ p.chanList = none
  · rw [if_pos hc]
    exact hset hc
  by_cases hm : UriParams.isKey pos .mac ∧ p.mac = none
  · rw [if_neg hc, if_pos hm]
    exact hset hm
  by_cases hi : UriParams.isKey pos .info ∧ p.info = none
  · rw [if_neg hc, if_neg hm, if_pos hi]
    exact hset hi
  by_cases hp : UriParams.isKey pos .pk ∧ p.pk = none
  · rw [if_neg hc, if_neg hm, if_neg hi, if_pos hp]
    exact hset hp
  rw [if_neg hc, if_neg hm, if_neg hi, if_neg hp]
  cases key with
  | chanList => exact (if_neg hc).symm
  | mac => exact (if_neg hm).symm
  | info => exact (if_neg hi).symm
  | pk => exact (if_neg hp).symm

theorem dppUriScan_get (p : UriParams) (text : Bytes) (key : UriKey) :
    (dppUriScan p text).get key = (p.get key).or ((firstParamAt key text).map uriText) := by
  induction hn : text.length using Nat.strong_induction_on generalizing p text with
  | _ n ih =>
    subst hn
    unfold firstParamAt
    by_cases hmem : 0x3b ∈ text
    swap
    · rw [dppUriScan_none hmem, uriParts_eq_nil hmem]
      exact Option.or_none.symm
    obtain ⟨part, rest, rfl, hpart⟩ := eq_append_cons_of_mem hmem
    have hlen : rest.length < (part ++ 0x3b :: rest).length := by
      rw [length_append, length_cons]
      omega
    rw [dppUriScan_part hpart, ih _ hlen _ _ rfl, uriParts_cons hpart, nil_append, findSome?_cons]
    by_cases hnil : part = []
    · rw [if_pos hnil, hnil]
      rfl
    rw [if_neg hnil, UriParams.get_note]
    rcases UriParams.isKey_part hnil with ⟨hkey, value, hvalue, hdrop⟩ | ⟨hkey, hvalue⟩
    · rw [hvalue, hdrop]
      cases hget : p.get key with
      | none =>
        rw [if_pos ⟨hkey, rfl⟩]
        rfl
      | some pos =>
        rw [if_neg fun h => by cases h.2]
        rfl
    · rw [hvalue, if_neg fun h => hkey h.1]
      rfl

end Scan

end Hostap
