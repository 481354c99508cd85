import Hostap.Utils.JsonText
import Mathlib.Logic.Function.Basic

/-!
# The JSON parser

`json_parse()` of `utils/json.c`. The parser has no stack. It keeps a tree of tokens with links to the
parent, the first child and the next sibling, a current token, and in each token how far it has come. A
character is looked at with the current token and its parent, and nothing else.

The tokens stand in a heap, a function of their addresses, and addresses are given out in order. A token that
is freed stays there, with nothing that points to it.
-/

namespace Hostap

namespace Json

open Octets Output Common

/-- `enum json_type`. -/
inductive JsonType where
  | value
  | object
  | array
  | string
  | number
  | boolean
  | null
  deriving DecidableEq, Repr

/-- `enum json_parsing_state`. -/
inductive ParsingState where
  | empty
  | started
  | waitingValue
  | completed
  deriving DecidableEq, Repr

/-- `struct json_token`, as `os_zalloc()` returns it where nothing else is said. -/
structure Token where
  type : JsonType := .value
  state : ParsingState := .empty
  name : Option Bytes := none
  string : Option Bytes := none
  number : Int := 0
  parent : Option Nat := none
  child : Option Nat := none
  sibling : Option Nat := none
  deriving DecidableEq, Repr

/-- The local variables of `json_parse()` and the heap. -/
structure Parser where
  tok : Nat → Token := fun _ => {}
  next : Nat := 0
  root : Option Nat := none
  curr : Option Nat := none
  token : Option Nat := none
  depth : Nat := 0
  tokens : Nat := 0

abbrev jsonMaxDepth : Nat := 10
abbrev jsonMaxTokens : Nat := 500

def Parser.modify (s : Parser) (i : Nat) (f : Token → Token) : Parser :=
  { s with tok := Function.update s.tok i (f (s.tok i)) }

def jsonAllocToken (alloc : Alloc) (s : Parser) : Option (Parser × Nat) :=
  let tokens := s.tokens + 1
  if tokens > jsonMaxTokens then none
  else if alloc.token tokens then
    some ({ s with tok := Function.update s.tok s.next {}, next := s.next + 1, tokens := tokens }, s.next)
  else none

def isArrayItem (s : Parser) (i : Nat) : Bool :=
  match (s.tok i).parent with
  | none => false
  | some p => (s.tok p).type == .array && (s.tok p).state == .started && (s.tok i).state == .empty

/-- The token that `[` or `{` makes a container: a new root, or the current one. -/
def containerToken (alloc : Alloc) (s : Parser) : Option (Parser × Nat) :=
  match s.curr with
  | none =>
    match jsonAllocToken alloc s with
    | none => none
    | some (s, t) => some ({ s with token := some t, root := s.root.or (some t) }, t)
  | some i =>
    if (s.tok i).state = .waitingValue ∨ isArrayItem s i then some ({ s with token := some i }, i) else none

def beginContainer (alloc : Alloc) (type : JsonType) (s : Parser) (t : Nat) : Option Parser :=
  let s := { s with depth := s.depth + 1 }
  if s.depth > jsonMaxDepth then none
  else
    let s := s.modify t fun tok => { tok with type := type, state := .started }
    match jsonAllocToken alloc s with
    | none => none
    | some (s, child) =>
      let s := s.modify t fun tok => { tok with child := some child }
      let s := s.modify child fun tok => { tok with parent := some t, state := .empty }
      some { s with curr := some child }

/-- `[` and `{`. -/
def startContainer (alloc : Alloc) (type : JsonType) (s : Parser) : Option Parser :=
  match containerToken alloc s with
  | none => none
  | some (s, t) => beginContainer alloc type s t

/-- The first child of a container, when nothing was put into it. A container that is started has one. -/
def pendingChild (s : Parser) (p : Nat) : Bool :=
  match (s.tok p).child with
  | none => false
  | some c => (s.tok c).state == .empty && (s.tok c).child == none && (s.tok c).sibling == none

/-- `]` and `}`. -/
def endContainer (type : JsonType) (s : Parser) : Option Parser :=
  match s.curr with
  | none => none
  | some i =>
    match (s.tok i).parent with
    | none => none
    | some p =>
      if (s.tok p).state ≠ .started then none
      else
        let s := { s with depth := s.depth - 1, curr := some p }
        if (s.tok p).type ≠ type then none
        else
          let s := if pendingChild s p then s.modify p fun tok => { tok with child := none } else s
          some (s.modify p fun tok => { tok with state := .completed })

/-- A value is put into a new root, into a member that waits for it, or into an item of an array. -/
def putValue (alloc : Alloc) (fill : Token → Token) (s : Parser) : Option Parser :=
  match s.curr with
  | none =>
    match jsonAllocToken alloc s with
    | none => none
    | some (s, t) => some ({ s with token := some t }.modify t fill)
  | some i =>
    if (s.tok i).state = .waitingValue ∨ isArrayItem s i then some (s.modify i fill) else none

/-- A string that was read is a name where the current token is empty and not an item of an array. -/
def putString (alloc : Alloc) (str : Bytes) (s : Parser) : Option Parser :=
  let fill := fun tok : Token => { tok with type := .string, string := some str, state := .completed }
  match s.curr with
  | none => putValue alloc fill s
  | some i =>
    if (s.tok i).state = .empty ∧ ¬ isArrayItem s i then
      some (s.modify i fun tok => { tok with type := .value, name := some str, state := .started })
    else putValue alloc fill s

/-- `:` -/
def nameSeparator (s : Parser) : Option Parser :=
  match s.curr with
  | none => none
  | some i =>
    if (s.tok i).state ≠ .started then none
    else some (s.modify i fun tok => { tok with state := .waitingValue })

/-- `,` -/
def memberSeparator (alloc : Alloc) (s : Parser) : Option Parser :=
  match s.curr with
  | none => none
  | some i =>
    match jsonAllocToken alloc s with
    | none => none
    | some (s, n) =>
      let s := s.modify i fun tok => { tok with sibling := some n }
      let s := s.modify n fun tok => { tok with parent := (s.tok i).parent, state := .empty }
      some { s with curr := some n }

/-- `true`, `false` and `null`: what is put into the token, and the length of the text. -/
def literal (pos : Bytes) : Option ((Token → Token) × Nat) :=
  if pos.take 4 = ascii "true" then
    some (fun tok => { tok with type := .boolean, number := 1, state := .completed }, 4)
  else if pos.take 5 = ascii "false" then
    some (fun tok => { tok with type := .boolean, number := 0, state := .completed }, 5)
  else if pos.take 4 = ascii "null" then
    some (fun tok => { tok with type := .null, state := .completed }, 4)
  else none

def endRound (s : Parser) : Parser := { s with root := s.root.or s.token, curr := s.curr.or s.token }

def oneCharacter (s : Option Parser) (rest : Bytes) : Except Fault (Option (Parser × Bytes)) :=
  .ok (s.map fun s => (endRound s, rest))

def stringRound (alloc : Alloc) (behind : Bytes) (s : Parser) (pos : Bytes) :
    Except Fault (Option (Parser × Bytes)) :=
  match jsonParseString alloc behind pos with
  | .error e => .error e
  | .ok none => .ok none
  | .ok (some (str, rest)) => oneCharacter (putString alloc str s) rest

def numberRound (alloc : Alloc) (behind : Bytes) (s : Parser) (pos : Bytes) :
    Except Fault (Option (Parser × Bytes)) :=
  match jsonParseNumber alloc behind pos with
  | .error e => .error e
  | .ok none => .ok none
  | .ok (some (num, rest)) =>
    oneCharacter
      (putValue alloc (fun tok => { tok with type := .number, number := num, state := .completed }) s) rest

/-- A round of the loop at a character, and what is left of the text. `none` stands for a failure. -/
def jsonStep (alloc : Alloc) (behind : Bytes) (s : Parser) (c : UInt8) (rest : Bytes) :
    Except Fault (Option (Parser × Bytes)) :=
  if c = 0x5b then oneCharacter (startContainer alloc .array s) rest
  else if c = 0x7b then oneCharacter (startContainer alloc .object s) rest
  else if c = 0x5d then oneCharacter (endContainer .array s) rest
  else if c = 0x7d then oneCharacter (endContainer .object s) rest
  else if c = 0x22 then stringRound alloc behind s (c :: rest)
  else if c = 0x20 ∨ c = 0x09 ∨ c = 0x0d ∨ c = 0x0a then oneCharacter (some s) rest
  else if c = 0x3a then oneCharacter (nameSeparator s) rest
  else if c = 0x2c then oneCharacter (memberSeparator alloc s) rest
  else if c = 0x74 ∨ c = 0x66 ∨ c = 0x6e then
    match literal (c :: rest) with
    | none => .ok none
    | some (fill, len) => oneCharacter (putValue alloc fill s) ((c :: rest).drop len)
  else if isNumberChar c then numberRound alloc behind s (c :: rest)
  else .ok none

def jsonLoop (alloc : Alloc) (behind : Bytes) : Nat → Parser → Bytes → Except Fault (Option Parser)
  | 0, _, _ => .error .fuel
  | _ + 1, s, [] => .ok (some s)
  | n + 1, s, c :: rest =>
    match jsonStep alloc behind s c rest with
    | .error e => .error e
    | .ok none => .ok none
    | .ok (some (s, rest)) => jsonLoop alloc behind n s rest

/-- `json_check_tree_state()`, down to so many levels of recursion. -/
def jsonCheckTreeState (tok : Nat → Token) : Nat → Option Nat → Bool
  | _, none => true
  | 0, some _ => false
  | n + 1, some i =>
    jsonCheckTreeState tok n (tok i).child && jsonCheckTreeState tok n (tok i).sibling &&
      (tok i).state == .completed

/-- A tree that is returned: the heap and the address of the root. -/
structure Tree where
  tok : Nat → Token
  root : Nat

/-- `none` stands for NULL, which is also what an empty text gives. -/
def jsonParse (alloc : Alloc) (behind data : Bytes) : Except Fault (Option Tree) :=
  match jsonLoop alloc behind (data.length + 1) {} data with
  | .error e => .error e
  | .ok none => .ok none
  | .ok (some s) =>
    if jsonCheckTreeState s.tok s.next s.root then .ok (s.root.map fun root => ⟨s.tok, root⟩) else .ok none

end Json

end Hostap
