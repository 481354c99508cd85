import Hostap.Utils.Json
import Mathlib.Data.List.Perm.Subperm
import Mathlib.Data.List.TakeWhile

/-!
# The trees that the JSON parser returns

`SingleValue` says what the tree of one JSON value looks like. A round of the parser keeps `Inv`: the links
of the tokens lead to and fro, a member of an object that is not empty any more has a name and an item of an
array has none, and the containers around the current token are the ones that are open, as many as `depth`
says. The heap is changed in five ways, and each keeps `Tokens`.

What the rounds do not look at is whether a comma stands within a container. Outside of all containers it
gives the root a sibling (`json_parse_singleValue_iff`).
-/

namespace Hostap

namespace Json

open Octets Output Common List

/-- `[…]` or `{…}`. -/
def Token.IsContainer (t : Token) : Prop := t.type = .array ∨ t.type = .object

/-- A token of a tree, within so many containers. -/
inductive InTree (t : Tree) : Nat → Nat → Prop
  | root : InTree t 0 t.root
  | sibling {d i j : Nat} : InTree t d i → (t.tok i).sibling = some j → InTree t d j
  | child {d i j : Nat} : InTree t d i → (t.tok i).child = some j → InTree t (d + 1) j

/-- The children of a token. -/
inductive ChildOf (t : Tree) (p : Nat) : Nat → Prop
  | first {j : Nat} : (t.tok p).child = some j → ChildOf t p j
  | next {i j : Nat} : ChildOf t p i → (t.tok i).sibling = some j → ChildOf t p j

/-- The tree of a single JSON value. -/
structure SingleValue (t : Tree) : Prop where
  noSibling : (t.tok t.root).sibling = none
  noName : (t.tok t.root).name = none
  completed : ∀ d i, InTree t d i → (t.tok i).state = .completed
  member : ∀ d p j, InTree t d p → (t.tok p).type = .object → ChildOf t p j → (t.tok j).name ≠ none
  item : ∀ d p j, InTree t d p → (t.tok p).type = .array → ChildOf t p j → (t.tok j).name = none
  nesting : ∀ d i, InTree t d i → (t.tok i).IsContainer → d + 1 ≤ 10
  few : ∀ l : List Nat, l.Nodup → (∀ i ∈ l, ∃ d, InTree t d i) → l.length ≤ 500

/-! ## The heap -/

/-- The number of containers around a token. -/
inductive Level (tok : Nat → Token) : Nat → Nat → Prop
  | outermost {i : Nat} : (tok i).parent = none → Level tok i 0
  | within {i p d : Nat} : (tok i).parent = some p → Level tok p d → Level tok i (d + 1)

/-- What holds of the tokens whatever the current one is. -/
structure Tokens (tok : Nat → Token) (next : Nat) : Prop where
  fresh : ∀ i, next ≤ i → tok i = {}
  parent : ∀ i p, (tok i).parent = some p → p < i ∧ (tok p).IsContainer ∧
    ((tok p).state = .started ∨ (tok p).state = .completed)
  item : ∀ i p, (tok i).parent = some p → (tok p).type = .array → (tok i).name = none
  member : ∀ i p, (tok i).parent = some p → (tok p).type = .object →
    (tok i).state = .empty ∨ (tok i).name ≠ none
  outer : ∀ i, 0 < i → (tok i).parent = none → (tok i).state = .empty ∨ (tok i).name ≠ none
  child : ∀ i j, (tok i).child = some j → i < j ∧ j < next ∧ (tok j).parent = some i
  sibling : ∀ i j, (tok i).sibling = some j → i < j ∧ j < next ∧ (tok j).parent = (tok i).parent
  root : 0 < next → (tok 0).name = none ∧ (tok 0).state ≠ .empty
  level : ∀ i d, (tok i).IsContainer → Level tok i d → d < 10

variable {tok tok' : Nat → Token} {next i p d n : Nat} {t : Token}

theorem Tokens.parent_zero (h : Tokens tok next) : (tok 0).parent = none := by
  cases hp : (tok 0).parent with
  | none => rfl
  | some p => exact absurd (h.parent 0 p hp).1 (Nat.not_lt_zero p)

theorem Level.congr (hdown : ∀ i p, (tok i).parent = some p → p < i)
    (hparent : ∀ j, j < n → (tok' j).parent = (tok j).parent) (hi : i < n) (h : Level tok' i d) :
    Level tok i d := by
  induction h with
  | outermost hp => exact .outermost (hparent _ hi ▸ hp)
  | within hp _ ih =>
    rw [hparent _ hi] at hp
    exact .within hp (ih (lt_trans (hdown _ _ hp) hi))

theorem Level.unique {d' : Nat} (h : Level tok i d) (h' : Level tok i d') : d = d' := by
  induction h generalizing d' with
  | outermost hp =>
    cases h' with
    | outermost _ => rfl
    | within hp' _ =>
      rw [hp] at hp'
      cases hp'
  | within hp _ ih =>
    cases h' with
    | outermost hp' =>
      rw [hp] at hp'
      cases hp'
    | within hp' h' =>
      rw [hp] at hp'
      cases hp'
      rw [ih h']

theorem Tokens.level_of (h : Tokens tok next) (tok' : Nat → Token)
    (hparent : ∀ j, j < next → (tok' j).parent = (tok j).parent)
    (hcontainer : ∀ j, (tok' j).IsContainer → j < next ∧ ((tok j).IsContainer ∨ ∀ d, Level tok j d → d < 10))
    (j d : Nat) (hj : (tok' j).IsContainer) (hlevel : Level tok' j d) : d < 10 := by
  obtain ⟨hlt, hj⟩ := hcontainer j hj
  have hlevel' : Level tok j d := hlevel.congr (fun i p hp => (h.parent i p hp).1) hparent hlt
  rcases hj with hj | hdepth
  · exact h.level j d hj hlevel'
  · exact hdepth d hlevel'

theorem Tokens.container_lt (h : Tokens tok next) (hi : (tok i).IsContainer) : i < next := by
  by_contra hge
  rw [h.fresh i (not_lt.1 hge)] at hi
  rcases hi with h | h <;> cases h

/-! ## Changes of the heap -/

def openedAt (tok : Nat → Token) (i next : Nat) (type : JsonType) : Nat → Token :=
  Function.update
    (Function.update tok i { tok i with type := type, state := .started, child := some next }) next
    { parent := some i }

def closedAt (tok : Nat → Token) (i : Nat) (child : Option Nat) : Nat → Token :=
  Function.update tok i { tok i with child := child, state := .completed }

def separatedAt (tok : Nat → Token) (i next : Nat) : Nat → Token :=
  Function.update (Function.update tok i { tok i with sibling := some next }) next { parent := (tok i).parent }

-- In what follows a token is the one that is changed, the new one, or any other, and so are its relatives.

theorem Tokens.first (h : Tokens tok 0) (hname : t.name = none) (hstate : t.state ≠ .empty)
    (htype : ¬ t.IsContainer) (hparent : t.parent = none) (hchild : t.child = none)
    (hsibling : t.sibling = none) : Tokens (Function.update tok 0 t) 1 := by
  have hrest := h.fresh
  constructor <;> simp only [Function.update_apply, Token.IsContainer] at * <;> grind

theorem Tokens.named (h : Tokens tok next) (hi : 0 < i) (hstate : (tok i).state ≠ .empty)
    (hobject : ∀ p, (tok i).parent = some p → (tok p).type = .object) : (tok i).name ≠ none := by
  cases hp : (tok i).parent with
  | none => exact (h.outer i hi hp).resolve_left hstate
  | some p => exact (h.member i p hp (hobject p hp)).resolve_left hstate

theorem Tokens.fill (h : Tokens tok next) (hi : 0 < i) (hkids : ∀ j, (tok j).parent ≠ some i)
    (hlt : i < next) (hparent : t.parent = (tok i).parent)
    (hchild : t.child = (tok i).child) (hsibling : t.sibling = (tok i).sibling)
    (htype : t.IsContainer → (tok i).IsContainer)
    (hname : ∀ p, (tok i).parent = some p → (tok p).type = .array → t.name = none)
    (hnamed : (∀ p, (tok i).parent = some p → (tok p).type = .object) → t.state = .empty ∨ t.name ≠ none) :
    Tokens (Function.update tok i t) next := by
  have hbound := @h.container_lt
  have hlevel := h.level_of (Function.update tok i t) (by simp only [Function.update_apply]; grind)
    (by simp only [Function.update_apply]; grind)
  obtain ⟨hfresh, hpar, hitem, hmember, houter, hch, hsib, hroot, -⟩ := h
  refine ⟨?_, ?_, ?_, ?_, ?_, ?_, ?_, ?_, hlevel⟩ <;> simp only [Function.update_apply] <;> grind

theorem Tokens.open (h : Tokens tok next) (hkids : ∀ j, (tok j).parent ≠ some i) (hlt : i < next)
    (hdepth : ∀ d, Level tok i d → d < 10) {type : JsonType} (htype : type = .array ∨ type = .object)
    (hstate : (tok i).state ≠ .empty ∨ ∃ p, (tok i).parent = some p ∧ (tok p).type = .array) :
    Tokens (openedAt tok i next type) (next + 1) := by
  have hbound := @h.container_lt
  have hlevel := h.level_of (openedAt tok i next type) (by simp only [openedAt, Function.update_apply]; grind)
    (by simp only [openedAt, Function.update_apply, Token.IsContainer] at *; grind)
  obtain ⟨hfresh, hpar, hitem, hmember, houter, hch, hsib, hroot, -⟩ := h
  refine ⟨?_, ?_, ?_, ?_, ?_, ?_, ?_, ?_, hlevel⟩ <;>
    simp only [openedAt, Function.update_apply, Token.IsContainer] at * <;> grind

theorem Tokens.close (h : Tokens tok next) (hlt : i < next) (hstate : (tok i).state = .started)
    {child : Option Nat} (hchild : child = none ∨ child = (tok i).child) :
    Tokens (closedAt tok i child) next := by
  have hbound := @h.container_lt
  have hlevel := h.level_of (closedAt tok i child) (by simp only [closedAt, Function.update_apply]; grind)
    (by simp only [closedAt, Function.update_apply, Token.IsContainer] at *; grind)
  obtain ⟨hfresh, hpar, hitem, hmember, houter, hch, hsib, hroot, -⟩ := h
  refine ⟨?_, ?_, ?_, ?_, ?_, ?_, ?_, ?_, hlevel⟩ <;>
    simp only [closedAt, Function.update_apply, Token.IsContainer] at * <;> grind

theorem Tokens.separate (h : Tokens tok next) (hlt : i < next) :
    Tokens (separatedAt tok i next) (next + 1) := by
  have hbound := @h.container_lt
  have hlevel := h.level_of (separatedAt tok i next) (by simp only [separatedAt, Function.update_apply]; grind)
    (by simp only [separatedAt, Function.update_apply, Token.IsContainer] at *; grind)
  obtain ⟨hfresh, hpar, hitem, hmember, houter, hch, hsib, hroot, -⟩ := h
  refine ⟨?_, ?_, ?_, ?_, ?_, ?_, ?_, ?_, hlevel⟩ <;>
    simp only [separatedAt, Function.update_apply, Token.IsContainer] at * <;> grind

/-! ## The containers that are open -/

/-- From a token to the root so many containers are open, and no other token is met. -/
inductive OpenChain (tok : Nat → Token) : Option Nat → Nat → Prop
  | outside : OpenChain tok none 0
  | inside {p d : Nat} : (tok p).state = .started → OpenChain tok (tok p).parent d →
    OpenChain tok (some p) (d + 1)

theorem OpenChain.level {o : Option Nat} (h : OpenChain tok o d) (hi : (tok i).parent = o) : Level tok i d := by
  induction h generalizing i with
  | outside => exact .outermost hi
  | inside _ _ ih => exact .within hi (ih rfl)

theorem OpenChain.congr {o : Option Nat} (hdown : ∀ i p, (tok i).parent = some p → p < i)
    (hsame : ∀ j, j < n → (tok' j).state = (tok j).state ∧ (tok' j).parent = (tok j).parent)
    (hmem : ∀ p, o = some p → p < n) (h : OpenChain tok o d) : OpenChain tok' o d := by
  induction h with
  | outside => exact .outside
  | @inside p d hstate _ ih =>
    have hp := hmem p rfl
    refine .inside ((hsame p hp).1.trans hstate) ?_
    rw [(hsame p hp).2]
    exact ih fun q hq => lt_trans (hdown p q hq) hp

theorem OpenChain.started (h : OpenChain tok (some p) d) :
    (tok p).state = .started ∧ 0 < d ∧ OpenChain tok (tok p).parent (d - 1) := by
  generalize ho : some p = o at h
  cases h with
  | outside => cases ho
  | inside hstate hrest =>
    cases ho
    exact ⟨hstate, Nat.succ_pos _, hrest⟩

theorem OpenChain.eq_zero_iff {o : Option Nat} (h : OpenChain tok o d) : d = 0 ↔ o = none := by
  cases h with
  | outside => exact ⟨fun _ => rfl, fun _ => rfl⟩
  | inside _ _ => exact ⟨fun h => absurd h (Nat.succ_ne_zero _), fun h => nomatch h⟩

/-! ## The invariant of the loop -/

structure Inv (s : Parser) : Prop where
  tokens : Tokens s.tok s.next
  count : s.next = s.tokens ∧ s.tokens ≤ 500
  start : s.curr = none → s.next = 0 ∧ s.root = none ∧ s.token = none ∧ s.depth = 0
  root : ∀ i, s.curr = some i → s.root = some 0 ∧ i < s.next
  chain : ∀ i, s.curr = some i → OpenChain s.tok (s.tok i).parent s.depth
  childless : ∀ i, s.curr = some i → (s.tok i).state ≠ .completed → ∀ j, (s.tok j).parent ≠ some i
  rootDone : s.curr = some 0 → (s.tok 0).state = .completed
  lone : (s.tok 0).sibling = none → ∀ i, 0 < i → i < s.next → (s.tok i).parent ≠ none

variable {s s' : Parser} {alloc : Alloc}

theorem inv_start : Inv {} := by
  have htokens : Tokens (fun _ => {}) 0 := by
    constructor <;> simp [Token.IsContainer]
  constructor <;> simp [htokens]

theorem endRound_eq (hroot : s.root = some 0) (hcurr : s.curr = some i) : endRound s = s := by
  unfold endRound
  rw [hroot, hcurr]
  cases s
  simp_all

theorem Inv.pos (h : Inv s) (hcurr : s.curr = some i) (hstate : (s.tok i).state ≠ .completed) : 0 < i := by
  rcases Nat.eq_zero_or_pos i with rfl | hi
  · exact absurd (h.rootDone hcurr) hstate
  · exact hi

theorem Inv.fill (h : Inv s) (hcurr : s.curr = some i) (hstate : (s.tok i).state ≠ .completed)
    (hparent : t.parent = (s.tok i).parent) (hchild : t.child = (s.tok i).child)
    (hsibling : t.sibling = (s.tok i).sibling) (htype : t.IsContainer → (s.tok i).IsContainer)
    (hname : ∀ p, (s.tok i).parent = some p → (s.tok p).type = .array → t.name = none)
    (hnamed : (∀ p, (s.tok i).parent = some p → (s.tok p).type = .object) → t.state = .empty ∨ t.name ≠ none) :
    Inv { s with tok := Function.update s.tok i t } ∧
      (Function.update s.tok i t 0).sibling = (s.tok 0).sibling := by
  obtain ⟨hroot, hlt⟩ := h.root i hcurr
  have hkids := h.childless i hcurr hstate
  have hi : 0 < i := h.pos hcurr hstate
  have hdown : ∀ i p, (s.tok i).parent = some p → p < i := fun i p hp => (h.tokens.parent i p hp).1
  have hchain : OpenChain (Function.update s.tok i t) (s.tok i).parent s.depth := by
    apply (h.chain i hcurr).congr hdown (n := i)
    · intro j hj
      rw [Function.update_of_ne (ne_of_lt hj)]
      exact ⟨rfl, rfl⟩
    · exact fun p hp => hdown i p hp
  have htokens := h.tokens.fill hi hkids hlt hparent hchild hsibling htype hname hnamed
  obtain ⟨-, hcount, hstart, hroots, -, -, hdone, hlone⟩ := h
  refine ⟨⟨htokens, hcount, ?_, ?_, ?_, ?_, ?_, ?_⟩, ?_⟩ <;> simp only [Function.update_apply] <;> grind

/-! ## The rounds -/

/-- What an assignment of `json_parse()` to a token leaves. -/
structure Fills (fill : Token → Token) : Prop where
  name : ∀ t, (fill t).name = t.name
  state : ∀ t, (fill t).state = .completed
  type : ∀ t, ¬ (fill t).IsContainer
  parent : ∀ t, (fill t).parent = t.parent
  child : ∀ t, (fill t).child = t.child
  sibling : ∀ t, (fill t).sibling = t.sibling

/-- A token more, which is all zero as every address that was not given out. -/
def Parser.allocated (s : Parser) : Parser := { s with next := s.next + 1, tokens := s.tokens + 1 }

theorem jsonAllocToken_eq {n : Nat} (hfresh : s.tok s.next = {}) (h : jsonAllocToken alloc s = some (s', n)) :
    n = s.next ∧ s' = s.allocated ∧ s.tokens + 1 ≤ 500 := by
  have hupdate : Function.update s.tok s.next {} = s.tok := by
    rw [← hfresh, Function.update_eq_self]
  simp only [jsonAllocToken, hupdate] at h
  split_ifs at h with hmost halloc
  cases h
  exact ⟨rfl, rfl, not_lt.1 hmost⟩

theorem isArrayItem_iff : isArrayItem s i = true ↔
    ∃ p, (s.tok i).parent = some p ∧ (s.tok p).type = .array ∧ (s.tok p).state = .started ∧
      (s.tok i).state = .empty := by
  unfold isArrayItem
  cases (s.tok i).parent with
  | none => simp
  | some p => simp [and_assoc]

def Within (s s' : Parser) : Prop := s'.depth = s.depth ∧ (s'.tok 0).sibling = (s.tok 0).sibling

def afterFirst (s : Parser) (t : Token) : Parser :=
  { tok := Function.update s.tok 0 t, next := 1, root := some 0, curr := some 0, token := some 0, depth := 0,
    tokens := 1 }

theorem Inv.first (h : Inv s) (hcurr : s.curr = none) (hname : t.name = none)
    (hstate : t.state = .completed) (htype : ¬ t.IsContainer) (hparent : t.parent = none)
    (hchild : t.child = none) (hsibling : t.sibling = none) :
    Inv (afterFirst s t) ∧ Within s (afterFirst s t) := by
  obtain ⟨hnext, -, -, hdepth⟩ := h.start hcurr
  have htokens := h.tokens
  rw [hnext] at htokens
  have hfirst := htokens.first hname (by rw [hstate]; decide) htype hparent hchild hsibling
  have hfresh := htokens.fresh
  have hchain : OpenChain (Function.update s.tok 0 t) (Function.update s.tok 0 t 0).parent 0 := by
    rw [Function.update_self, hparent]
    exact .outside
  constructor
  · constructor <;> simp only [afterFirst, Function.update_apply] at * <;> grind
  · refine ⟨hdepth.symm, ?_⟩
    show (Function.update s.tok 0 t 0).sibling = _
    rw [Function.update_self, hsibling, hfresh 0 (Nat.zero_le 0)]

theorem putValue_inv {fill : Token → Token} (hfill : Fills fill) (hi : Inv s)
    (h : putValue alloc fill s = some s') : Inv (endRound s') ∧ Within s (endRound s') := by
  unfold putValue at h
  split at h
  · rename_i hcurr
    obtain ⟨hnext, hroot, htoken, hdepth⟩ := hi.start hcurr
    have hfresh := hi.tokens.fresh 0 (by omega)
    have hcount := hi.count
    split at h
    · cases h
    · rename_i s₁ n halloc
      obtain ⟨rfl, rfl, hmost⟩ := jsonAllocToken_eq (hnext ▸ hfresh) halloc
      cases h
      have hend : endRound ({ s.allocated with token := some s.next }.modify s.next fill) =
          afterFirst s (fill {}) := by
        simp only [endRound, Parser.modify, Parser.allocated, afterFirst, hroot, hcurr, hfresh, hdepth, hnext,
          Option.none_or, show s.tokens = 0 by omega]
      rw [hend]
      exact hi.first hcurr (hfill.name {}) (hfill.state {}) (hfill.type {}) (hfill.parent {}) (hfill.child {})
        (hfill.sibling {})
  · rename_i i hcurr
    split_ifs at h with hstate
    cases h
    obtain ⟨hroot, hlt⟩ := hi.root i hcurr
    rw [isArrayItem_iff] at hstate
    have hnot : (s.tok i).state ≠ .completed := by
      rcases hstate with h | ⟨p, -, -, -, h⟩ <;> rw [h] <;> decide
    obtain ⟨hinv, hsibling⟩ := hi.fill hcurr hnot (hfill.parent _) (hfill.child _) (hfill.sibling _)
      (fun hcontainer => absurd hcontainer (hfill.type _)) (by
        intro p hp harray
        rw [hfill.name]
        exact hi.tokens.item i p hp harray) (by
        intro hobject
        right
        rw [hfill.name]
        rcases hstate with hwaiting | ⟨p, hp, harray, -, -⟩
        · exact hi.tokens.named (hi.pos hcurr hnot) (by rw [hwaiting]; decide) hobject
        · rw [hobject p hp] at harray
          cases harray)
    rw [show endRound (s.modify i fill) = s.modify i fill from endRound_eq hroot hcurr]
    exact ⟨hinv, rfl, hsibling⟩

theorem putString_inv {str : Bytes} (hi : Inv s) (h : putString alloc str s = some s') :
    Inv (endRound s') ∧ Within s (endRound s') := by
  have hfill : Fills fun tok : Token =>
      { tok with type := .string, string := some str, state := .completed } := by
    constructor <;> simp [Token.IsContainer]
  unfold putString at h
  split at h
  · exact putValue_inv hfill hi h
  · rename_i i hcurr
    split_ifs at h with hstate
    · cases h
      obtain ⟨hroot, hlt⟩ := hi.root i hcurr
      obtain ⟨hempty, hnot⟩ := hstate
      rw [isArrayItem_iff] at hnot
      -- the parent of the current token is open
      have hopen : ∀ p, (s.tok i).parent = some p → (s.tok p).state = .started := by
        intro p hp
        have hchain := hi.chain i hcurr
        rw [hp] at hchain
        exact hchain.started.1
      obtain ⟨hinv, hsibling⟩ := hi.fill
        (t := { s.tok i with type := .value, name := some str, state := .started })
        hcurr (by rw [hempty]; decide) rfl rfl rfl
        (by intro hcontainer; rcases hcontainer with h | h <;> cases h)
        (fun p hp harray => absurd ⟨p, hp, harray, hopen p hp, hempty⟩ hnot)
        (fun _ => .inr (Option.some_ne_none str))
      rw [endRound_eq (s := s.modify i _) hroot hcurr]
      exact ⟨hinv, rfl, hsibling⟩
    · exact putValue_inv hfill hi h

theorem nameSeparator_inv (hi : Inv s) (h : nameSeparator s = some s') :
    Inv (endRound s') ∧ Within s (endRound s') := by
  unfold nameSeparator at h
  split at h
  · cases h
  · rename_i i hcurr
    split_ifs at h with hstate
    cases h
    rw [not_not] at hstate
    obtain ⟨hroot, hlt⟩ := hi.root i hcurr
    have hnot : (s.tok i).state ≠ .completed := by
      rw [hstate]
      decide
    obtain ⟨hinv, hsibling⟩ := hi.fill (t := { s.tok i with state := .waitingValue }) hcurr hnot rfl rfl rfl id
      (fun p hp harray => hi.tokens.item i p hp harray)
      (fun hobject => .inr (hi.tokens.named (hi.pos hcurr hnot) (by rw [hstate]; decide) hobject))
    rw [endRound_eq (s := s.modify i _) hroot hcurr]
    exact ⟨hinv, rfl, hsibling⟩

theorem Tokens.childless_last (h : Tokens tok (next + 1)) (j : Nat) : (tok j).parent ≠ some next := by
  intro hp
  have hlt := (h.parent j next hp).1
  rw [h.fresh j hlt] at hp
  cases hp

theorem Tokens.childless_root (h : Tokens tok 1) (j : Nat) : (tok j).parent ≠ some 0 :=
  h.childless_last j

def afterComma (s : Parser) (i : Nat) : Parser :=
  { s.allocated with tok := separatedAt s.tok i s.next, curr := some s.next }

theorem Inv.comma (h : Inv s) (hcurr : s.curr = some i) (hmost : s.tokens + 1 ≤ 500) :
    Inv (afterComma s i) := by
  obtain ⟨hroot, hlt⟩ := h.root i hcurr
  have hdown : ∀ i p, (s.tok i).parent = some p → p < i := fun i p hp => (h.tokens.parent i p hp).1
  have htokens := h.tokens.separate hlt
  have hlast : (separatedAt s.tok i s.next s.next).parent = (s.tok i).parent := by
    rw [separatedAt, Function.update_self]
  have hchain : OpenChain (separatedAt s.tok i s.next) (s.tok i).parent s.depth := by
    apply (h.chain i hcurr).congr hdown (n := i)
    · intro j hj
      rw [separatedAt, Function.update_of_ne (by omega), Function.update_of_ne (by omega)]
      exact ⟨rfl, rfl⟩
    · exact fun p hp => hdown i p hp
  have hcount := h.count
  refine ⟨htokens, ⟨congrArg Nat.succ hcount.1, hmost⟩, fun hnone => absurd hnone (Option.some_ne_none _),
    ?_, ?_, ?_, ?_, ?_⟩
  · intro k hk
    cases hk
    exact ⟨hroot, Nat.lt_succ_self _⟩
  · intro k hk
    cases hk
    show OpenChain (separatedAt s.tok i s.next) (separatedAt s.tok i s.next s.next).parent s.depth
    rw [hlast]
    exact hchain
  · intro k hk _ j
    cases hk
    exact htokens.childless_last j
  · intro hzero
    have hnext : s.next = 0 := Option.some.inj hzero
    omega
  · intro hsib j hj hjn
    have hlone := h.lone
    simp only [afterComma, separatedAt, Parser.allocated, Function.update_apply] at hsib hjn ⊢
    grind

theorem memberSeparator_inv (hi : Inv s) (h : memberSeparator alloc s = some s') :
    Inv (endRound s') ∧ (endRound s').depth = s.depth ∧
      (((endRound s').tok 0).sibling ≠ none ↔ (s.tok 0).sibling ≠ none ∨ s.depth = 0) := by
  unfold memberSeparator at h
  split at h
  · cases h
  · rename_i i hcurr
    obtain ⟨hroot, hlt⟩ := hi.root i hcurr
    have hfresh := hi.tokens.fresh s.next (Nat.le_refl _)
    split at h
    · cases h
    · rename_i s₁ n halloc
      obtain ⟨rfl, rfl, hmost⟩ := jsonAllocToken_eq hfresh halloc
      have hne : s.next ≠ i := (ne_of_lt hlt).symm
      have hs' : s' = afterComma s i := by
        cases h
        simp only [Parser.modify, Parser.allocated, afterComma, separatedAt, Function.update_self,
          Function.update_of_ne hne, hfresh]
      subst hs'
      have hend : endRound (afterComma s i) = afterComma s i := endRound_eq hroot rfl
      rw [hend]
      refine ⟨hi.comma hcurr hmost, rfl, ?_⟩
      have hdepth := (hi.chain i hcurr).eq_zero_iff
      have hparent := hi.tokens.parent_zero
      have hlone := hi.lone
      show (separatedAt s.tok i s.next 0).sibling ≠ none ↔ _
      simp only [separatedAt, Function.update_apply]
      grind

/-- The parser behind `[` or `{`. -/
def afterOpen (s : Parser) (i : Nat) (type : JsonType) (token : Option Nat) : Parser :=
  { s.allocated with tok := openedAt s.tok i s.next type, curr := some s.next, token := token,
                     depth := s.depth + 1 }

theorem Inv.open (h : Inv s) (hcurr : s.curr = some i) (hmost : s.tokens + 1 ≤ 500) (hdepth : s.depth < 10)
    {type : JsonType} (htype : type = .array ∨ type = .object)
    (hkids : ∀ j, (s.tok j).parent ≠ some i)
    (hstate : (s.tok i).state ≠ .empty ∨ ∃ p, (s.tok i).parent = some p ∧ (s.tok p).type = .array)
    (token : Option Nat) : Inv (afterOpen s i type token) ∧
      ((afterOpen s i type token).tok 0).sibling = (s.tok 0).sibling := by
  obtain ⟨hroot, hlt⟩ := h.root i hcurr
  have hdown : ∀ i p, (s.tok i).parent = some p → p < i := fun i p hp => (h.tokens.parent i p hp).1
  have hlevel : ∀ d, Level s.tok i d → d < 10 := by
    intro d hl
    rwa [hl.unique ((h.chain i hcurr).level rfl)]
  have htokens := h.tokens.open hkids hlt hlevel htype hstate
  have hchain : OpenChain (openedAt s.tok i s.next type) (s.tok i).parent s.depth := by
    apply (h.chain i hcurr).congr hdown (n := i)
    · intro j hj
      rw [openedAt, Function.update_of_ne (by omega), Function.update_of_ne (by omega)]
      exact ⟨rfl, rfl⟩
    · exact fun p hp => hdown i p hp
  have hself : openedAt s.tok i s.next type i =
      { s.tok i with type := type, state := .started, child := some s.next } := by
    rw [openedAt, Function.update_of_ne (ne_of_lt hlt), Function.update_self]
  have hlast : openedAt s.tok i s.next type s.next = { parent := some i } := by
    rw [openedAt, Function.update_self]
  have hcount := h.count
  constructor
  · refine ⟨htokens, ⟨congrArg Nat.succ hcount.1, hmost⟩, fun hnone => absurd hnone (Option.some_ne_none _),
    ?_, ?_, ?_, ?_, ?_⟩
    · intro k hk
      cases hk
      exact ⟨hroot, Nat.lt_succ_self _⟩
    · intro k hk
      cases hk
      show OpenChain (openedAt s.tok i s.next type) (openedAt s.tok i s.next type s.next).parent (s.depth + 1)
      rw [hlast]
      refine .inside (by rw [hself]) ?_
      rw [hself]
      exact hchain
    · intro k hk _ j
      cases hk
      exact htokens.childless_last j
    · intro hzero
      have hnext : s.next = 0 := Option.some.inj hzero
      omega
    · intro hsib j hj hjn
      have hlone := h.lone
      simp only [afterOpen, openedAt, Parser.allocated, Function.update_apply] at hsib hjn ⊢
      grind
  · show (openedAt s.tok i s.next type 0).sibling = _
    simp only [openedAt, Function.update_apply]
    grind

theorem beginContainer_eq {type : JsonType} (hlt : i < s.next) (hfresh : s.tok s.next = {})
    (h : beginContainer alloc type s i = some s') :
    s.depth < 10 ∧ s.tokens + 1 ≤ 500 ∧ s' = afterOpen s i type s.token := by
  have hne : s.next ≠ i := (ne_of_lt hlt).symm
  simp only [beginContainer] at h
  split_ifs at h with hdeep
  split at h
  · cases h
  · rename_i s₁ n halloc
    have hfresh' : (Parser.modify { s with depth := s.depth + 1 } i
        fun tok => { tok with type := type, state := .started }).tok s.next = {} := by
      show Function.update s.tok i _ s.next = {}
      rw [Function.update_of_ne hne, hfresh]
    obtain ⟨rfl, rfl, hmost⟩ := jsonAllocToken_eq hfresh' halloc
    cases h
    refine ⟨not_lt.1 hdeep, hmost, ?_⟩
    simp only [Parser.modify, Parser.allocated, afterOpen, openedAt, Function.update_self,
      Function.update_of_ne hne, Function.update_idem, hfresh]

theorem startContainer_inv {type : JsonType} (htype : type = .array ∨ type = .object) (hi : Inv s)
    (h : startContainer alloc type s = some s') :
    Inv (endRound s') ∧ (endRound s').depth = s.depth + 1 ∧
      ((endRound s').tok 0).sibling = (s.tok 0).sibling := by
  unfold startContainer containerToken at h
  split at h
  · cases h
  · rename_i s₁ i hcontainer
    split at hcontainer
    · -- the root is a container, which is made of the token that is given out
      rename_i hcurr
      obtain ⟨hnext, hroot, -, hdepth⟩ := hi.start hcurr
      have hfresh := hi.tokens.fresh
      have hcount := hi.count
      split at hcontainer
      · cases hcontainer
      · rename_i s₂ n halloc
        obtain ⟨rfl, rfl, -⟩ := jsonAllocToken_eq (hfresh s.next (Nat.le_refl _)) halloc
        cases hcontainer
        obtain ⟨-, -, hs'⟩ :=
          beginContainer_eq (Nat.lt_succ_self s.next) (hfresh (s.next + 1) (Nat.le_succ _)) h
        obtain ⟨hfirst, hwithin⟩ := hi.first (t := { state := .completed }) hcurr rfl rfl
          (by intro hc; rcases hc with hc | hc <;> cases hc) rfl rfl rfl
        have hkids : ∀ j, ((afterFirst s { state := .completed }).tok j).parent ≠ some 0 :=
          hfirst.tokens.childless_root
        obtain ⟨hinv, hsib⟩ :=
          hfirst.open (i := 0) rfl (by decide : 1 + 1 ≤ 500) (by decide : 0 < 10) htype hkids
          (.inl (by simp [afterFirst])) (some 0)
        have hs' : s' = afterOpen (afterFirst s { state := .completed }) 0 type (some 0) := by
          rw [hs']
          simp only [afterOpen, afterFirst, Parser.allocated, openedAt, hnext, hroot, hdepth, Option.none_or,
            Function.update_self, Function.update_idem, hfresh 0 (by omega), show s.tokens = 0 by omega]
        have hend : endRound s' = s' := endRound_eq (by rw [hs']; rfl) (by rw [hs']; rfl)
        rw [hend, hs', hdepth]
        exact ⟨hinv, rfl, hsib.trans hwithin.2⟩
    · rename_i k hcurr
      split_ifs at hcontainer with hstate
      cases hcontainer
      obtain ⟨hroot, hlt⟩ := hi.root i hcurr
      obtain ⟨hdeep, hmost, hs'⟩ := beginContainer_eq (s := { s with token := some i }) hlt
        (hi.tokens.fresh s.next (Nat.le_refl _)) h
      rw [isArrayItem_iff] at hstate
      have hnot : (s.tok i).state ≠ .completed := by
        rcases hstate with h | ⟨p, -, -, -, h⟩ <;> rw [h] <;> decide
      have hready : (s.tok i).state ≠ .empty ∨ ∃ p, (s.tok i).parent = some p ∧ (s.tok p).type = .array := by
        rcases hstate with h | ⟨p, hp, harray, -, -⟩
        · left
          rw [h]
          decide
        · exact .inr ⟨p, hp, harray⟩
      obtain ⟨hinv, hsib⟩ := hi.open hcurr hmost hdeep htype (hi.childless i hcurr hnot) hready (some i)
      have hs'' : s' = afterOpen s i type (some i) := hs'
      have hend : endRound s' = s' := endRound_eq (by rw [hs'']; exact hroot) (by rw [hs'']; rfl)
      rw [hend, hs'']
      exact ⟨hinv, rfl, hsib⟩

/-- The parser behind `]` or `}`. -/
def afterClose (s : Parser) (p : Nat) (child : Option Nat) : Parser :=
  { s with tok := closedAt s.tok p child, curr := some p, depth := s.depth - 1 }

theorem Inv.close (h : Inv s) (hcurr : s.curr = some i) (hp : (s.tok i).parent = some p) {child : Option Nat}
    (hchild : child = none ∨ child = (s.tok p).child) :
    Inv (afterClose s p child) ∧ ((afterClose s p child).tok 0).sibling = (s.tok 0).sibling := by
  obtain ⟨hroot, hlt⟩ := h.root i hcurr
  have hdown : ∀ i p, (s.tok i).parent = some p → p < i := fun i p hp => (h.tokens.parent i p hp).1
  have hip := hdown i p hp
  have hopen := h.chain i hcurr
  rw [hp] at hopen
  obtain ⟨hstate, hpos, hrest⟩ := hopen.started
  have hself : closedAt s.tok p child p = { s.tok p with child := child, state := .completed } :=
    Function.update_self ..
  have hchain : OpenChain (closedAt s.tok p child) (s.tok p).parent (s.depth - 1) := by
    apply hrest.congr hdown (n := p)
    · intro j hj
      rw [closedAt, Function.update_of_ne (ne_of_lt hj)]
      exact ⟨rfl, rfl⟩
    · exact fun q hq => hdown p q hq
  constructor
  · refine ⟨h.tokens.close (by omega) hstate hchild, h.count, fun hnone => absurd hnone (Option.some_ne_none _),
      ?_, ?_, ?_, ?_, ?_⟩
    · intro k hk
      cases hk
      exact ⟨hroot, by show p < s.next; omega⟩
    · intro k hk
      cases hk
      show OpenChain (closedAt s.tok p child) (closedAt s.tok p child p).parent (s.depth - 1)
      rw [hself]
      exact hchain
    · intro k hk hnot
      cases hk
      have hdone : (closedAt s.tok p child p).state = .completed := by rw [hself]
      exact absurd hdone hnot
    · intro hzero
      have hp0 : p = 0 := Option.some.inj hzero
      show (closedAt s.tok p child 0).state = _
      rw [← hp0, hself]
    · intro hsib j hj hjn
      have hlone := h.lone
      simp only [afterClose, closedAt, Function.update_apply] at hsib hjn ⊢
      grind
  · show (closedAt s.tok p child 0).sibling = _
    simp only [closedAt, Function.update_apply]
    grind

theorem endContainer_inv {type : JsonType} (hi : Inv s) (h : endContainer type s = some s') :
    Inv (endRound s') ∧ (endRound s').depth = s.depth - 1 ∧
      ((endRound s').tok 0).sibling = (s.tok 0).sibling := by
  unfold endContainer at h
  split at h
  · cases h
  · rename_i i hcurr
    obtain ⟨hroot, hlt⟩ := hi.root i hcurr
    split at h
    · cases h
    · rename_i p hp
      by_cases hstate : (s.tok p).state ≠ .started
      · rw [if_pos hstate] at h
        cases h
      rw [if_neg hstate] at h
      by_cases htype : (s.tok p).type ≠ type
      · simp only [if_pos htype] at h
        cases h
      simp only [if_neg htype] at h
      by_cases hpending : pendingChild { s with depth := s.depth - 1, curr := some p } p = true
      · rw [if_pos hpending] at h
        have hs' : s' = afterClose s p none := by
          cases h
          simp only [Parser.modify, afterClose, closedAt, Function.update_self, Function.update_idem]
        obtain ⟨hinv, hsib⟩ := hi.close hcurr hp (.inl rfl : (none : Option Nat) = none ∨ _)
        rw [hs', show endRound (afterClose s p none) = _ from endRound_eq hroot rfl]
        exact ⟨hinv, rfl, hsib⟩
      · rw [if_neg hpending] at h
        have hs' : s' = afterClose s p (s.tok p).child := by
          cases h
          rfl
        obtain ⟨hinv, hsib⟩ := hi.close hcurr hp (.inr rfl : (s.tok p).child = none ∨ _)
        rw [hs', show endRound (afterClose s p _) = _ from endRound_eq hroot rfl]
        exact ⟨hinv, rfl, hsib⟩

/-! ## Commas outside of all containers -/

/-- Where a scan of the text stands: outside of strings, in one, or behind a backslash in one. -/
inductive ScanMode where
  | text
  | quoted
  | escaped

/-- The text has a comma outside of strings and of all containers, where it begins within `depth` of them. -/
def commaOutside : Nat → ScanMode → Bytes → Bool
  | _, _, [] => false
  | depth, .text, c :: rest =>
    if c = 0x5b ∨ c = 0x7b then commaOutside (depth + 1) .text rest
    else if c = 0x5d ∨ c = 0x7d then commaOutside (depth - 1) .text rest
    else if c = 0x22 then commaOutside depth .quoted rest
    else if c = 0x2c then depth == 0 || commaOutside depth .text rest
    else commaOutside depth .text rest
  | depth, .quoted, c :: rest =>
    if c = 0x22 then commaOutside depth .text rest
    else if c = 0x5c then commaOutside depth .escaped rest
    else commaOutside depth .quoted rest
  | depth, .escaped, _ :: rest => commaOutside depth .quoted rest

variable {behind rest rest' : Bytes} {depth : Nat} {c : UInt8}

def Plain (c : UInt8) : Prop := c ≠ 0x5b ∧ c ≠ 0x7b ∧ c ≠ 0x5d ∧ c ≠ 0x7d ∧ c ≠ 0x22 ∧ c ≠ 0x2c

theorem plain_of_isNumberChar (h : isNumberChar c = true) : Plain c := by
  refine ⟨?_, ?_, ?_, ?_, ?_, ?_⟩ <;> rintro rfl <;> exact absurd h (by decide)

theorem plain_of_letter (h : 0x61 ≤ c ∧ c ≤ 0x75) : Plain c := by
  refine ⟨?_, ?_, ?_, ?_, ?_, ?_⟩ <;> rintro rfl <;> exact absurd h (by decide)

theorem commaOutside_plain {text : Bytes} (depth : Nat) (rest : Bytes) (h : ∀ c ∈ text, Plain c) :
    commaOutside depth .text (text ++ rest) = commaOutside depth .text rest := by
  induction text with
  | nil => rfl
  | cons c text ih =>
    obtain ⟨h₁, h₂, h₃, h₄, h₅, h₆⟩ := h c (mem_cons_self ..)
    rw [cons_append, commaOutside, if_neg (not_or.2 ⟨h₁, h₂⟩), if_neg (not_or.2 ⟨h₃, h₄⟩), if_neg h₅,
      if_neg h₆]
    exact ih fun c hc => h c (mem_cons_of_mem _ hc)

theorem commaOutside_quoted {text : Bytes} (h : ∀ c ∈ text, c ≠ 0x22 ∧ c ≠ 0x5c) :
    commaOutside depth .quoted (text ++ rest) = commaOutside depth .quoted rest := by
  induction text with
  | nil => rfl
  | cons c text ih =>
    obtain ⟨hquote, hback⟩ := h c (mem_cons_self ..)
    rw [cons_append, commaOutside, if_neg hquote, if_neg hback]
    exact ih fun c hc => h c (mem_cons_of_mem _ hc)

theorem hexstr2bin_digits {digits : Bytes} {buf : Bytes} (hlen : digits.length = 4)
    (h : hexstr2bin 2 digits = some buf) : ∀ c ∈ digits, c ≠ 0x22 ∧ c ≠ 0x5c := by
  have hnot : ∀ c : UInt8, ∀ v, hex2num c = some v → c ≠ 0x22 ∧ c ≠ 0x5c := by
    rintro c v hc
    constructor <;> rintro rfl <;> cases hc
  match digits, hlen, h with
  | [a, b, c, d], _, h =>
    simp only [hexstr2bin, hex2byte, Option.bind_eq_bind, Option.bind_eq_some_iff, drop_succ_cons,
      drop_zero] at h
    obtain ⟨-, ⟨va, ha, vb, hb, -⟩, -, ⟨-, ⟨vc, hc, vd, hd, -⟩, -⟩, -⟩ := h
    intro x hx
    simp only [mem_cons, not_mem_nil, or_false] at hx
    rcases hx with rfl | rfl | rfl | rfl
    · exact hnot _ _ ha
    · exact hnot _ _ hb
    · exact hnot _ _ hc
    · exact hnot _ _ hd

theorem commaOutside_element {elem octets : Bytes} (h : StringElement elem octets) :
    commaOutside depth .quoted (elem ++ rest) = commaOutside depth .quoted rest := by
  cases h with
  | plain c hquote hback => exact commaOutside_quoted (by simpa using ⟨hquote, hback⟩)
  | itself c _ => rfl
  | lineFeed => rfl
  | carriageReturn => rfl
  | tab => rfl
  | @one digits _ hlen hdigits _ =>
    show commaOutside depth .quoted (digits ++ rest) = _
    exact commaOutside_quoted (hexstr2bin_digits hlen hdigits)
  | @two digits _ _ hlen hdigits _ _ =>
    show commaOutside depth .quoted (digits ++ rest) = _
    exact commaOutside_quoted (hexstr2bin_digits hlen hdigits)

theorem commaOutside_string {text octets : Bytes} (h : StringText text octets) :
    commaOutside depth .text (0x22 :: (text ++ 0x22 :: rest)) = commaOutside depth .text rest := by
  have hinside : commaOutside depth .quoted (text ++ 0x22 :: rest) = commaOutside depth .text rest := by
    induction h with
    | nil => rfl
    | cons helem _ ih =>
      rw [append_assoc, commaOutside_element helem]
      exact ih
  exact hinside

/-! ## One round -/

theorem Inv.endRound_eq (h : Inv s) : endRound s = s := by
  cases hcurr : s.curr with
  | none =>
    obtain ⟨-, hroot, htoken, -⟩ := h.start hcurr
    unfold endRound
    rw [hroot, htoken, hcurr, Option.none_or]
    cases s
    simp_all
  | some i => exact Json.endRound_eq (h.root i hcurr).1 hcurr

theorem oneCharacter_eq {o : Option Parser} (h : oneCharacter o rest = .ok (some (s', rest'))) :
    ∃ s₁, o = some s₁ ∧ s' = endRound s₁ ∧ rest' = rest := by
  unfold oneCharacter at h
  cases o with
  | none => cases h
  | some s₁ =>
    cases h
    exact ⟨s₁, rfl, rfl, rfl⟩

/-- The root has a sibling, or the rest of the text still has a comma that gives it one. -/
def Separated (s : Parser) (pos : Bytes) : Prop :=
  (s.tok 0).sibling ≠ none ∨ commaOutside s.depth .text pos = true

theorem Within.separated {pos : Bytes} (h : Within s s')
    (hscan : commaOutside s.depth .text pos = commaOutside s.depth .text rest) :
    Separated s' rest ↔ Separated s pos := by
  unfold Separated
  rw [h.1, h.2, hscan]

theorem jsonParseNumber_text {num : Int}
    (h : jsonParseNumber alloc behind (c :: rest) = .ok (some (num, rest'))) :
    ∃ digits, c :: rest = digits ++ rest' ∧ ∀ d ∈ digits, isNumberChar d = true := by
  refine ⟨(c :: rest).takeWhile isNumberChar, ?_, fun d hd => mem_takeWhile_imp hd⟩
  have hrest : rest' = (c :: rest).dropWhile isNumberChar := by
    simp only [jsonParseNumber] at h
    split_ifs at h with hnone halloc hend
    · cases h
    · cases h
    · cases hread : readAt behind [] with
      | error e =>
        rw [hread] at h
        cases h
      | ok b =>
        rw [hread] at h
        cases h
        exact hend.symm
    · cases h
      rfl
  rw [hrest, takeWhile_append_dropWhile]

theorem literal_text {fill : Token → Token} {len : Nat} {pos : Bytes} (h : literal pos = some (fill, len)) :
    Fills fill ∧ ∀ d ∈ pos.take len, 0x61 ≤ d ∧ d ≤ 0x75 := by
  have hletters : ∀ l : Bytes, (l.all fun d => 0x61 ≤ d ∧ d ≤ 0x75) = true → ∀ d ∈ l, 0x61 ≤ d ∧ d ≤ 0x75 :=
    fun l hl d hd => of_decide_eq_true (all_eq_true.1 hl d hd)
  unfold literal at h
  split_ifs at h with htrue hfalse hnull
  · cases h
    refine ⟨by constructor <;> simp [Token.IsContainer], ?_⟩
    exact hletters _ (by rw [htrue]; rfl)
  · cases h
    refine ⟨by constructor <;> simp [Token.IsContainer], ?_⟩
    exact hletters _ (by rw [hfalse]; rfl)
  · cases h
    refine ⟨by constructor <;> simp [Token.IsContainer], ?_⟩
    exact hletters _ (by rw [hnull]; rfl)

theorem bracketRound_inv {o : Option Parser} {d : Nat}
    (hop : ∀ s₁, o = some s₁ → Inv (endRound s₁) ∧ (endRound s₁).depth = d ∧
      ((endRound s₁).tok 0).sibling = (s.tok 0).sibling)
    (hscan : commaOutside s.depth .text (c :: rest) = commaOutside d .text rest)
    (h : oneCharacter o rest = .ok (some (s', rest'))) :
    Inv s' ∧ (Separated s' rest' ↔ Separated s (c :: rest)) := by
  obtain ⟨s₁, ho, rfl, rfl⟩ := oneCharacter_eq h
  obtain ⟨hinv, hdepth, hsib⟩ := hop s₁ ho
  refine ⟨hinv, ?_⟩
  unfold Separated
  rw [hdepth, hsib, hscan]

theorem valueRound_inv {o : Option Parser} {pos r : Bytes}
    (hop : ∀ s₁, o = some s₁ → Inv (endRound s₁) ∧ Within s (endRound s₁))
    (hscan : commaOutside s.depth .text pos = commaOutside s.depth .text r)
    (h : oneCharacter o r = .ok (some (s', rest'))) :
    Inv s' ∧ (Separated s' rest' ↔ Separated s pos) := by
  obtain ⟨s₁, ho, rfl, rfl⟩ := oneCharacter_eq h
  obtain ⟨hinv, hwithin⟩ := hop s₁ ho
  exact ⟨hinv, hwithin.separated hscan⟩

theorem stringRound_inv (hi : Inv s)
    (h : stringRound alloc behind s (0x22 :: rest) = .ok (some (s', rest'))) :
    Inv s' ∧ (Separated s' rest' ↔ Separated s (0x22 :: rest)) := by
  unfold stringRound at h
  cases hstr : jsonParseString alloc behind (0x22 :: rest) with
  | error f =>
    rw [hstr] at h
    cases h
  | ok r =>
    cases r with
    | none =>
      rw [hstr] at h
      cases h
    | some r =>
      obtain ⟨str, rest₁⟩ := r
      rw [hstr] at h
      have hcases := jsonParseString_cases alloc behind rest 0x22
      rw [hstr] at hcases
      cases hcases with
      | closed hpos htext =>
        apply valueRound_inv (fun _ ho => putString_inv hi ho) _ h
        rw [hpos]
        exact commaOutside_string htext

theorem blank_inv (hi : Inv s) (hc : Plain c) (h : oneCharacter (some s) rest = .ok (some (s', rest'))) :
    Inv s' ∧ (Separated s' rest' ↔ Separated s (c :: rest)) := by
  have hplain : ∀ d ∈ [c], Plain d := by
    intro d hd
    rw [mem_singleton.1 hd]
    exact hc
  refine valueRound_inv (fun s₁ ho => ?_) (commaOutside_plain _ _ hplain) h
  cases ho
  rw [hi.endRound_eq]
  exact ⟨hi, rfl, rfl⟩

theorem literalRound_inv {fill : Token → Token} {len : Nat} {pos : Bytes} (hi : Inv s)
    (hlit : literal pos = some (fill, len))
    (h : oneCharacter (putValue alloc fill s) (pos.drop len) = .ok (some (s', rest'))) :
    Inv s' ∧ (Separated s' rest' ↔ Separated s pos) := by
  obtain ⟨hfill, hletters⟩ := literal_text hlit
  have hscan := commaOutside_plain s.depth (pos.drop len) fun d hd => plain_of_letter (hletters d hd)
  rw [take_append_drop] at hscan
  exact valueRound_inv (fun _ ho => putValue_inv hfill hi ho) hscan h

theorem numberRound_inv (hi : Inv s) (h : numberRound alloc behind s (c :: rest) = .ok (some (s', rest'))) :
    Inv s' ∧ (Separated s' rest' ↔ Separated s (c :: rest)) := by
  unfold numberRound at h
  cases hnum : jsonParseNumber alloc behind (c :: rest) with
  | error f =>
    rw [hnum] at h
    cases h
  | ok r =>
    cases r with
    | none =>
      rw [hnum] at h
      cases h
    | some r =>
      obtain ⟨num, rest₁⟩ := r
      rw [hnum] at h
      obtain ⟨digits, hsplit, hdigits⟩ := jsonParseNumber_text hnum
      refine valueRound_inv (fun _ ho => putValue_inv (by constructor <;> simp [Token.IsContainer]) hi ho) ?_ h
      rw [hsplit]
      exact commaOutside_plain _ _ fun d hd => plain_of_isNumberChar (hdigits d hd)

theorem separatorRound_inv (hi : Inv s)
    (h : oneCharacter (memberSeparator alloc s) rest = .ok (some (s', rest'))) :
    Inv s' ∧ (Separated s' rest' ↔ Separated s (0x2c :: rest)) := by
  obtain ⟨s₁, ho, rfl, rfl⟩ := oneCharacter_eq h
  obtain ⟨hinv, hdepth, hsib⟩ := memberSeparator_inv hi ho
  refine ⟨hinv, ?_⟩
  have hscan : commaOutside s.depth .text (0x2c :: rest') =
      (s.depth == 0 || commaOutside s.depth .text rest') := rfl
  unfold Separated
  rw [hdepth, hsib, hscan, Bool.or_eq_true, beq_iff_eq, or_assoc]

theorem jsonStep_inv (hi : Inv s) (h : jsonStep alloc behind s c rest = .ok (some (s', rest'))) :
    Inv s' ∧ (Separated s' rest' ↔ Separated s (c :: rest)) := by
  unfold jsonStep at h
  by_cases h₁ : c = 0x5b
  · rw [if_pos h₁] at h
    exact bracketRound_inv (fun _ ho => startContainer_inv (.inl rfl) hi ho) (by rw [h₁]; rfl) h
  rw [if_neg h₁] at h
  by_cases h₂ : c = 0x7b
  · rw [if_pos h₂] at h
    exact bracketRound_inv (fun _ ho => startContainer_inv (.inr rfl) hi ho) (by rw [h₂]; rfl) h
  rw [if_neg h₂] at h
  by_cases h₃ : c = 0x5d
  · rw [if_pos h₃] at h
    exact bracketRound_inv (fun _ ho => endContainer_inv hi ho) (by rw [h₃]; rfl) h
  rw [if_neg h₃] at h
  by_cases h₄ : c = 0x7d
  · rw [if_pos h₄] at h
    exact bracketRound_inv (fun _ ho => endContainer_inv hi ho) (by rw [h₄]; rfl) h
  rw [if_neg h₄] at h
  by_cases h₅ : c = 0x22
  · rw [if_pos h₅, h₅] at h
    rw [h₅]
    exact stringRound_inv hi h
  rw [if_neg h₅] at h
  by_cases h₆ : c = 0x20 ∨ c = 0x09 ∨ c = 0x0d ∨ c = 0x0a
  · rw [if_pos h₆] at h
    exact blank_inv hi ⟨h₁, h₂, h₃, h₄, h₅, by rcases h₆ with rfl | rfl | rfl | rfl <;> decide⟩ h
  rw [if_neg h₆] at h
  by_cases h₇ : c = 0x3a
  · rw [if_pos h₇] at h
    exact valueRound_inv (fun _ ho => nameSeparator_inv hi ho) (by rw [h₇]; rfl) h
  rw [if_neg h₇] at h
  by_cases h₈ : c = 0x2c
  · rw [if_pos h₈] at h
    rw [h₈]
    exact separatorRound_inv hi h
  rw [if_neg h₈] at h
  by_cases h₉ : c = 0x74 ∨ c = 0x66 ∨ c = 0x6e
  · rw [if_pos h₉] at h
    cases hlit : literal (c :: rest) with
    | none =>
      rw [hlit] at h
      cases h
    | some r =>
      obtain ⟨fill, len⟩ := r
      rw [hlit] at h
      exact literalRound_inv hi hlit h
  rw [if_neg h₉] at h
  by_cases h₁₀ : isNumberChar c = true
  · rw [if_pos h₁₀] at h
    exact numberRound_inv hi h
  rw [if_neg h₁₀] at h
  cases h

theorem jsonLoop_inv {n : Nat} {pos : Bytes} (hi : Inv s) (h : jsonLoop alloc behind n s pos = .ok (some s')) :
    Inv s' ∧ ((s'.tok 0).sibling ≠ none ↔ Separated s pos) := by
  induction n generalizing s pos with
  | zero => cases h
  | succ n ih =>
    cases pos with
    | nil =>
      cases h
      exact ⟨hi, by simp [Separated, commaOutside]⟩
    | cons c rest =>
      rw [jsonLoop] at h
      cases hstep : jsonStep alloc behind s c rest with
      | error f =>
        rw [hstep] at h
        cases h
      | ok r =>
        cases r with
        | none =>
          rw [hstep] at h
          cases h
        | some r =>
          obtain ⟨s₁, rest₁⟩ := r
          rw [hstep] at h
          obtain ⟨hi₁, hsep⟩ := jsonStep_inv hi hstep
          obtain ⟨hi', hsib⟩ := ih hi₁ h
          exact ⟨hi', hsib.trans hsep⟩

/-! ## The tree -/

variable {tree : Tree} {j : Nat}

theorem InTree.level (h : Tokens tree.tok next) (hroot : (tree.tok tree.root).parent = none)
    (hi : InTree tree d i) : Level tree.tok i d := by
  induction hi with
  | root => exact .outermost hroot
  | sibling _ hsib ih =>
    have hparent := (h.sibling _ _ hsib).2.2
    cases ih with
    | outermost hp => exact .outermost (hparent.trans hp)
    | within hp hl => exact .within (hparent.trans hp) hl
  | child _ hchild ih => exact .within (h.child _ _ hchild).2.2 ih

theorem InTree.lt_next (h : Tokens tree.tok next) (hroot : tree.root < next) (hi : InTree tree d i) :
    i < next := by
  induction hi with
  | root => exact hroot
  | sibling _ hsib _ => exact (h.sibling _ _ hsib).2.1
  | child _ hchild _ => exact (h.child _ _ hchild).2.1

theorem ChildOf.parent (h : Tokens tree.tok next) (hj : ChildOf tree p j) : (tree.tok j).parent = some p := by
  induction hj with
  | first hchild => exact (h.child _ _ hchild).2.2
  | next _ hsib ih => exact (h.sibling _ _ hsib).2.2.trans ih

theorem ChildOf.inTree (hp : InTree tree d p) (hj : ChildOf tree p j) : InTree tree (d + 1) j := by
  induction hj with
  | first hchild => exact .child hp hchild
  | next _ hsib ih => exact .sibling ih hsib

theorem completed_of_check (hcheck : jsonCheckTreeState tree.tok n (some tree.root) = true)
    (hi : InTree tree d i) : (tree.tok i).state = .completed := by
  have hparts : ∀ {n i}, jsonCheckTreeState tree.tok n (some i) = true →
      (tree.tok i).state = .completed ∧ (∀ j, (tree.tok i).child = some j →
        ∃ n, jsonCheckTreeState tree.tok n (some j) = true) ∧
      ∀ j, (tree.tok i).sibling = some j → ∃ n, jsonCheckTreeState tree.tok n (some j) = true := by
    intro n i h
    cases n with
    | zero => cases h
    | succ n =>
      rw [jsonCheckTreeState, Bool.and_eq_true, Bool.and_eq_true, beq_iff_eq] at h
      exact ⟨h.2, fun j hj => ⟨n, hj ▸ h.1.1⟩, fun j hj => ⟨n, hj ▸ h.1.2⟩⟩
  have hevery : ∃ n, jsonCheckTreeState tree.tok n (some i) = true := by
    induction hi with
    | root => exact ⟨n, hcheck⟩
    | sibling _ hsib ih =>
      obtain ⟨m, hm⟩ := ih
      exact (hparts hm).2.2 _ hsib
    | child _ hchild ih =>
      obtain ⟨m, hm⟩ := ih
      exact (hparts hm).2.1 _ hchild
  obtain ⟨m, hm⟩ := hevery
  exact (hparts hm).1

theorem jsonCheckTreeState_levels (h : Tokens tok next) (o : Option Nat) (ho : ∀ i, o = some i → i < next)
    {m : Nat} (hn : ∀ i, o = some i → next ≤ n + i) (hm : ∀ i, o = some i → next ≤ m + i) :
    jsonCheckTreeState tok n o = jsonCheckTreeState tok m o := by
  induction n generalizing o m with
  | zero =>
    cases o with
    | none => cases m <;> rfl
    | some i =>
      have := ho i rfl
      have := hn i rfl
      omega
  | succ n ih =>
    cases o with
    | none => cases m <;> rfl
    | some i =>
      have hlt := ho i rfl
      have hm := hm i rfl
      have hn := hn i rfl
      obtain ⟨m, rfl⟩ : ∃ k, m = k + 1 := ⟨m - 1, by omega⟩
      have hchild : jsonCheckTreeState tok n (tok i).child = jsonCheckTreeState tok m (tok i).child := by
        apply ih
        · exact fun j hj => (h.child i j hj).2.1
        · intro j hj
          have := (h.child i j hj).1
          omega
        · intro j hj
          have := (h.child i j hj).1
          omega
      have hsibling : jsonCheckTreeState tok n (tok i).sibling = jsonCheckTreeState tok m (tok i).sibling := by
        apply ih
        · exact fun j hj => (h.sibling i j hj).2.1
        · intro j hj
          have := (h.sibling i j hj).1
          omega
        · intro j hj
          have := (h.sibling i j hj).1
          omega
      rw [jsonCheckTreeState, jsonCheckTreeState, hchild, hsibling]

/-- A tree that is returned is that of a single value when the text has no comma outside of all containers. -/
theorem json_parse_singleValue_iff (alloc : Alloc) (behind data : Bytes) (tree : Tree)
    (h : jsonParse alloc behind data = .ok (some tree)) :
    SingleValue tree ↔ commaOutside 0 .text data = false := by
  unfold jsonParse at h
  cases hloop : jsonLoop alloc behind (data.length + 1) {} data with
  | error f =>
    rw [hloop] at h
    cases h
  | ok r =>
    cases r with
    | none =>
      rw [hloop] at h
      cases h
    | some s =>
      rw [hloop] at h
      dsimp only at h
      by_cases hcheck : jsonCheckTreeState s.tok s.next s.root = true
      swap
      · rw [if_neg hcheck] at h
        cases h
      rw [if_pos hcheck] at h
      obtain ⟨hi, hsib⟩ := jsonLoop_inv inv_start hloop
      cases hcurr : s.curr with
      | none =>
        rw [(hi.start hcurr).2.1] at h
        cases h
      | some i =>
        obtain ⟨hroot, hlt⟩ := hi.root i hcurr
        rw [hroot] at h hcheck
        cases h
        have hpos : 0 < s.next := by omega
        have hcomma : (s.tok 0).sibling = none ↔ commaOutside 0 .text data = false := by
          rw [← not_iff_not, ← ne_eq, hsib, Bool.not_eq_false]
          unfold Separated
          simp
        rw [← hcomma]
        refine ⟨fun hv => hv.noSibling, fun hlone => ⟨hlone, (hi.tokens.root hpos).1, ?_, ?_, ?_, ?_, ?_⟩⟩
        · exact fun d i hin => completed_of_check hcheck hin
        · intro d p j hp hobject hj
          have hdone := completed_of_check hcheck (hj.inTree hp)
          refine (hi.tokens.member j p (hj.parent hi.tokens) hobject).resolve_left ?_
          rw [hdone]
          decide
        · exact fun d p j _ harray hj => hi.tokens.item j p (hj.parent hi.tokens) harray
        · exact fun d i hin hcontainer =>
            hi.tokens.level i d hcontainer (hin.level hi.tokens hi.tokens.parent_zero)
        · intro l hl hin
          have hsub : l ⊆ List.range s.next := by
            intro k hk
            obtain ⟨d, hd⟩ := hin k hk
            exact mem_range.2 (hd.lt_next hi.tokens hpos)
          have hle := (List.Nodup.subperm hl hsub).length_le
          have hcount := hi.count
          rw [length_range] at hle
          omega

/-- An array in an array. -/
theorem json_parse_singleValue_array :
    ∃ tree, jsonParse .all [] (ascii "[true,[null]]") = .ok (some tree) ∧ SingleValue tree := by
  have hrun : (jsonParse .all [] (ascii "[true,[null]]")).toOption.join.isSome = true := by decide +kernel
  obtain ⟨tree, htree⟩ := Option.isSome_iff_exists.1 hrun
  have hok : jsonParse .all [] (ascii "[true,[null]]") = .ok (some tree) := by
    revert htree
    cases jsonParse .all [] (ascii "[true,[null]]") with
    | error f => exact fun htree => nomatch htree
    | ok r => exact fun htree => congrArg Except.ok htree
  exact ⟨tree, hok, (json_parse_singleValue_iff .all [] _ tree hok).2 (by decide)⟩

/-- The comma behind the first value makes the member behind it a sibling of the root. -/
theorem json_parse_two_values :
    ∃ tree, jsonParse .all [] (ascii "1,\"a\":true") = .ok (some tree) ∧ ¬ SingleValue tree := by
  have hrun : (jsonParse .all [] (ascii "1,\"a\":true")).toOption.join.any
      (fun tree => (tree.tok tree.root).sibling.isSome) = true := by decide +kernel
  obtain ⟨tree, htree, hsib⟩ := (Option.any_eq_true _ _).1 hrun
  have hok : jsonParse .all [] (ascii "1,\"a\":true") = .ok (some tree) := by
    revert htree
    cases jsonParse .all [] (ascii "1,\"a\":true") with
    | error f => exact fun htree => nomatch htree
    | ok r => exact fun htree => congrArg Except.ok htree
  refine ⟨tree, hok, fun hsingle => ?_⟩
  rw [hsingle.noSibling] at hsib
  cases hsib

end Json

end Hostap
