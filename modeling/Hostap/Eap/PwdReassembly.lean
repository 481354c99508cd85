import Hostap.Eap.PwdFragments
import Hostap.Lib.Except

/-!
# Reassembly of EAP-pwd messages

Whether there is a buffer and whether fragments are in it are two variables, `inbuf` and `in_frag_pos`,
and a frame is free to set the flags as it likes. `PwdReceived` keeps beside them what a side has been sent
of the message that comes in. A side receives safely (`ReceivesSafely`) if it has the buffer it reads and
writes, never more in it than its size, and ends a buffered message with the fragments of this message.

Two kinds of frames break this (`FrameFits`). A fragment that is not the first finds no buffer if there
was no first one, and the size is read through the null pointer nevertheless. And the server keeps a
buffer that has overflowed, so that a fragment after this ends the message without the one that did not
fit. The peer frees the buffer then.
-/

namespace Hostap

open Octets List

variable {P : Type}

/-! ## What has come in -/

/-- The fragments a side has been sent since the first of their message, and whether one of them did not
fit. -/
structure PwdReceived where
  fragments : List Bytes := []
  overflowed : Bool := false

def PwdReceived.add (r : PwdReceived) (lmExch : UInt8) (data : Bytes) : PwdReceived :=
  if lengthBit lmExch then { fragments := [data.drop 2] }
  else { r with fragments := r.fragments ++ [data] }

/-- What has come in when a frame has been looked at: the fragments with its own, if it is one. `frees`
says that the buffer is freed when it overflows. -/
def PwdInput.received (frees : Bool) (before added : PwdReceived) : PwdInput → PwdReceived
  | .dropped | .nullBuffer => before
  | .more _ => added
  | .overflow _ => if frees then {} else { added with overflowed := true }
  | .whole _ _ => {}

def PwdInput.left (frees : Bool) (before : PwdInbuf) : PwdInput → PwdInbuf
  | .dropped | .nullBuffer => before
  | .more inbuf => inbuf
  | .overflow inbuf => if frees then {} else inbuf
  | .whole inbuf _ => inbuf.release

/-- Fragments are in a buffer, and there are no more octets in it than its size. -/
def PwdInbuf.Fits (inbuf : PwdInbuf) : Prop :=
  (inbuf.fragPos ≠ 0 → inbuf.buf.isSome) ∧ ∀ b ∈ inbuf.buf, b.2.length ≤ b.1

/-- A frame does no harm: the buffer is there when it is needed, and what was buffered is processed with
exactly the fragments that came in. -/
def PwdInput.Safe (added : PwdReceived) : PwdInput → Prop
  | .dropped => True
  | .nullBuffer => False
  | .more inbuf => inbuf.Fits
  | .overflow inbuf => inbuf.Fits
  | .whole inbuf payload => inbuf.Fits ∧ (inbuf.fragPos ≠ 0 → payload = added.fragments.flatten)

/-- The frame of a message that reaches the reassembly: its flags and what follows them. A side that is
sending fragments takes it for an acknowledgement. -/
def pwdFrame (outFragPos : Nat) (msg : Bytes) : Option (UInt8 × Bytes) :=
  match eapHdrValidate msg with
  | none => none
  | some [] => none
  | some (lmExch :: data) => if outFragPos ≠ 0 then none else some (lmExch, data)

def ReceivesSafely (outFragPos : Nat) (inbuf : PwdInbuf) (r : PwdReceived) (alloc : Bool) (msg : Bytes) :
    Prop :=
  ∀ f ∈ pwdFrame outFragPos msg, (pwdReassemble alloc inbuf f.1 f.2).Safe (r.add f.1 f.2)

/-- A fragment that more are to follow has a buffer, or brings the length of one. -/
def FragmentHasBuffer (outFragPos : Nat) (inbuf : PwdInbuf) (msg : Bytes) : Prop :=
  ∀ f ∈ pwdFrame outFragPos msg, moreBit f.1 = true → lengthBit f.1 = true ∨ inbuf.buf.isSome = true

/-- The frame is the last fragment of what is in the buffer. -/
def EndsBuffered (inbuf : PwdInbuf) (lmExch : UInt8) (data : Bytes) : Prop :=
  lengthBit lmExch = false ∧ moreBit lmExch = false ∧ inbuf.fragPos ≠ 0 ∧
    ∀ b ∈ inbuf.buf, inbuf.fragPos + data.length ≤ b.1

def FrameFits (outFragPos : Nat) (inbuf : PwdInbuf) (r : PwdReceived) (msg : Bytes) : Prop :=
  FragmentHasBuffer outFragPos inbuf msg ∧
    ∀ f ∈ pwdFrame outFragPos msg, r.overflowed = true → ¬ EndsBuffered inbuf f.1 f.2

/-! ## One frame -/

/-- The octets in the buffer are those of the fragments that came in, or less of them once it has
overflowed. -/
structure Holds (size : Nat) (octets : Bytes) (r : PwdReceived) : Prop where
  fits : octets.length ≤ size
  all : r.overflowed = false → octets = r.fragments.flatten
  less : r.overflowed = true → octets.length < r.fragments.flatten.length

/-- There is no buffer, or one that holds what came in. -/
inductive Holding : PwdInbuf → PwdReceived → Prop
  | empty (r : PwdReceived) : Holding {} r
  | filled {size : Nat} {octets : Bytes} {r : PwdReceived} (h : Holds size octets r) :
    Holding (.holds size octets) r

/-- The second half of `pwdReassemble`, with the total length taken off. -/
def pwdBuffer (inbuf : PwdInbuf) (lmExch : UInt8) (data : Bytes) : PwdInput :=
  if moreBit lmExch ∨ inbuf.fragPos ≠ 0 then
    match inbuf.buf with
    | none => .nullBuffer
    | some (size, buffered) =>
      if size < inbuf.fragPos + data.length then
        .overflow inbuf
      else
        let inbuf : PwdInbuf :=
          { buf := some (size, buffered ++ data), fragPos := inbuf.fragPos + data.length }
        if moreBit lmExch then .more inbuf
        else if inbuf.fragPos ≠ 0 then .whole inbuf ((buffered ++ data).take inbuf.fragPos)
        else .whole inbuf data
  else
    .whole inbuf data

section Frame

variable {alloc : Bool} {inbuf : PwdInbuf} {lmExch : UInt8} {data octets : Bytes} {size : Nat}

theorem pwdReassemble_eq : pwdReassemble alloc inbuf lmExch data =
    if lengthBit lmExch then
      if data.length < 2 ∨ 15000 < getBe16 data ∨ inbuf.buf.isSome ∨ ¬ alloc then .dropped
      else pwdBuffer (.holds (getBe16 data) []) lmExch (data.drop 2)
    else pwdBuffer inbuf lmExch data := by
  unfold pwdReassemble
  cases lengthBit lmExch with
  | true =>
    rw [if_pos rfl, if_pos rfl]
    by_cases hbad : data.length < 2 ∨ 15000 < getBe16 data ∨ inbuf.buf.isSome ∨ ¬ alloc
    · rw [if_pos ⟨rfl, hbad⟩, if_pos hbad]
    · rw [if_neg (fun h => hbad h.2), if_neg hbad]
      rfl
  | false =>
    rw [if_neg (fun h => Bool.false_ne_true h.1), if_neg Bool.false_ne_true, if_neg Bool.false_ne_true]
    rfl

theorem pwdBuffer_empty :
    pwdBuffer {} lmExch data = if moreBit lmExch then .nullBuffer else .whole {} data := by
  unfold pwdBuffer
  by_cases hmore : moreBit lmExch
  · rw [if_pos (.inl hmore), if_pos hmore]
  · rw [if_neg, if_neg hmore]
    rintro (h | h)
    · exact hmore h
    · exact h rfl

theorem pwdBuffer_holds (hput : moreBit lmExch = true ∨ octets.length ≠ 0) :
    pwdBuffer (.holds size octets) lmExch data =
      if size < octets.length + data.length then .overflow (.holds size octets)
      else if moreBit lmExch then .more (.holds size (octets ++ data))
      else .whole (.holds size (octets ++ data)) (octets ++ data) := by
  have hput' : moreBit lmExch = true ∨ (PwdInbuf.holds size octets).fragPos ≠ 0 := hput
  have hlen : octets.length + data.length = (octets ++ data).length := length_append.symm
  unfold pwdBuffer
  rw [if_pos hput']
  show (if size < octets.length + data.length then _ else if moreBit lmExch then
    PwdInput.more { buf := _, fragPos := octets.length + data.length } else
    if octets.length + data.length ≠ 0 then
      PwdInput.whole { buf := _, fragPos := octets.length + data.length }
        (List.take (octets.length + data.length) _) else PwdInput.whole _ _) = _
  rw [hlen, take_length]
  by_cases hover : size < (octets ++ data).length
  · rw [if_pos hover, if_pos hover]
  · rw [if_neg hover, if_neg hover]
    by_cases hmore : moreBit lmExch
    · rw [if_pos hmore, if_pos hmore]
      rfl
    · rw [if_neg hmore, if_neg hmore, if_pos]
      · rfl
      · have hne := hput.resolve_left hmore
        omega

theorem pwdBuffer_direct (hmore : moreBit lmExch = false) (hempty : inbuf.fragPos = 0) :
    pwdBuffer inbuf lmExch data = .whole inbuf data := by
  unfold pwdBuffer
  rw [if_neg]
  rintro (h | h)
  · exact Bool.false_ne_true (hmore.symm.trans h)
  · exact h hempty

theorem PwdInbuf.fits_holds (h : octets.length ≤ size) : (PwdInbuf.holds size octets).Fits := by
  refine ⟨fun _ => rfl, fun b hb => ?_⟩
  cases hb
  exact h

theorem flatten_snoc (fragments : List Bytes) (data : Bytes) :
    (fragments ++ [data]).flatten = fragments.flatten ++ data := by
  rw [flatten_append, flatten_singleton]

theorem Holds.safe_iff {r : PwdReceived} (h : Holds size octets r) :
    (pwdBuffer (.holds size octets) lmExch data).Safe { r with fragments := r.fragments ++ [data] } ↔
      (r.overflowed = true →
        ¬ (moreBit lmExch = false ∧ octets.length ≠ 0 ∧ octets.length + data.length ≤ size)) := by
  by_cases hput : moreBit lmExch = true ∨ octets.length ≠ 0
  · rw [pwdBuffer_holds hput]
    by_cases hover : size < octets.length + data.length
    · rw [if_pos hover]
      exact ⟨fun _ _ hends => absurd hends.2.2 (Nat.not_le.2 hover), fun _ => PwdInbuf.fits_holds h.fits⟩
    have hfits : (octets ++ data).length ≤ size := by
      rw [length_append]
      omega
    rw [if_neg hover]
    by_cases hmore : moreBit lmExch
    · rw [if_pos hmore]
      refine ⟨fun _ _ hends => ?_, fun _ => PwdInbuf.fits_holds hfits⟩
      rw [hmore] at hends
      cases hends.1
    rw [if_neg hmore]
    have hne := hput.resolve_left hmore
    show (PwdInbuf.holds size (octets ++ data)).Fits ∧
      ((octets ++ data).length ≠ 0 → octets ++ data = (r.fragments ++ [data]).flatten) ↔ _
    rw [flatten_snoc]
    cases hoverflowed : r.overflowed with
    | false =>
      refine ⟨fun _ hno => absurd hno Bool.false_ne_true, fun _ => ⟨PwdInbuf.fits_holds hfits, fun _ => ?_⟩⟩
      rw [h.all hoverflowed]
    | true =>
      constructor
      · intro hsafe _ _
        -- what is in the buffer is less than what came in
        have heq := congrArg List.length (hsafe.2 (by rw [length_append]; omega))
        have hless := h.less hoverflowed
        rw [length_append, length_append] at heq
        omega
      · intro hnot
        rw [length_append] at hfits
        exact absurd ⟨Bool.eq_false_iff.2 hmore, hne, hfits⟩ (hnot rfl)
  · have hmore : moreBit lmExch = false := Bool.eq_false_iff.2 fun h => hput (.inl h)
    have hempty : octets.length = 0 := not_not.1 fun h => hput (.inr h)
    have hpos : (PwdInbuf.holds size octets).fragPos = 0 := hempty
    rw [pwdBuffer_direct hmore hpos]
    exact ⟨fun _ _ hends => hends.2.1 hempty,
      fun _ => ⟨PwdInbuf.fits_holds h.fits, fun hne => absurd hpos hne⟩⟩

theorem Holds.keep {r before : PwdReceived} {old : PwdInbuf} (frees : Bool) (h : Holds size octets r) :
    Holding ((pwdBuffer (.holds size octets) lmExch data).left frees old)
      ((pwdBuffer (.holds size octets) lmExch data).received frees before
        { r with fragments := r.fragments ++ [data] }) := by
  by_cases hput : moreBit lmExch = true ∨ octets.length ≠ 0
  · rw [pwdBuffer_holds hput]
    by_cases hover : size < octets.length + data.length
    · rw [if_pos hover]
      cases frees with
      | true => exact .empty _
      | false =>
        refine .filled ⟨h.fits, fun hno => Bool.noConfusion hno, fun _ => ?_⟩
        -- the octets that did not fit are missing
        show octets.length < (r.fragments ++ [data]).flatten.length
        have hle : octets.length ≤ r.fragments.flatten.length := by
          cases hoverflowed : r.overflowed with
          | false => rw [h.all hoverflowed]
          | true => exact (h.less hoverflowed).le
        have hsize := h.fits
        rw [flatten_snoc, length_append]
        omega
    rw [if_neg hover]
    by_cases hmore : moreBit lmExch
    · rw [if_pos hmore]
      refine .filled ⟨?_, fun hno => ?_, fun hyes => ?_⟩
      · rw [length_append]
        omega
      · show octets ++ data = (r.fragments ++ [data]).flatten
        rw [flatten_snoc, h.all hno]
      · show (octets ++ data).length < (r.fragments ++ [data]).flatten.length
        have hless := h.less hyes
        rw [flatten_snoc, length_append, length_append]
        omega
    · rw [if_neg hmore]
      have hne : (PwdInbuf.holds size (octets ++ data)).fragPos ≠ 0 := by
        have hne := hput.resolve_left hmore
        show (octets ++ data).length ≠ 0
        rw [length_append]
        omega
      show Holding (PwdInbuf.holds size (octets ++ data)).release {}
      unfold PwdInbuf.release
      rw [if_pos hne]
      exact .empty _
  · have hmore : moreBit lmExch = false := Bool.eq_false_iff.2 fun h => hput (.inl h)
    have hempty : octets.length = 0 := not_not.1 fun h => hput (.inr h)
    have hpos : (PwdInbuf.holds size octets).fragPos = 0 := hempty
    rw [pwdBuffer_direct hmore hpos]
    show Holding (PwdInbuf.holds size octets).release {}
    unfold PwdInbuf.release
    rw [if_neg (not_not_intro hpos)]
    exact .filled ⟨h.fits, fun _ => length_eq_zero_iff.1 hempty, fun hno => Bool.noConfusion hno⟩

variable {r : PwdReceived}

theorem Holding.safe_iff (h : Holding inbuf r) :
    (pwdReassemble alloc inbuf lmExch data).Safe (r.add lmExch data) ↔
      (moreBit lmExch = true → lengthBit lmExch = true ∨ inbuf.buf.isSome = true) ∧
        (r.overflowed = true → ¬ EndsBuffered inbuf lmExch data) := by
  rw [pwdReassemble_eq]
  unfold PwdReceived.add
  cases hlength : lengthBit lmExch with
  | true =>
    rw [if_pos rfl, if_pos rfl]
    have hfits : (moreBit lmExch = true → true = true ∨ inbuf.buf.isSome = true) ∧
        (r.overflowed = true → ¬ EndsBuffered inbuf lmExch data) :=
      ⟨fun _ => .inl rfl, fun _ hends => Bool.false_ne_true (hends.1.symm.trans hlength)⟩
    split
    · exact ⟨fun _ => hfits, fun _ => trivial⟩
    · -- a buffer that has just been allocated cannot have overflowed
      have hstart : Holds (getBe16 data) [] {} := ⟨Nat.zero_le _, fun _ => rfl, fun h => Bool.noConfusion h⟩
      exact ⟨fun _ => hfits, fun _ => hstart.safe_iff.2 fun h => Bool.noConfusion h⟩
  | false =>
    rw [if_neg Bool.false_ne_true, if_neg Bool.false_ne_true]
    cases h with
    | empty =>
      rw [pwdBuffer_empty]
      split
      · rename_i hmore
        refine ⟨fun hno => hno.elim, fun hfits => ?_⟩
        rcases hfits.1 hmore with h | h
        · cases h
        · cases h
      · rename_i hmore
        refine ⟨fun _ => ⟨fun h => absurd h hmore, fun _ hends => hends.2.2.1 rfl⟩, fun _ => ?_⟩
        exact ⟨⟨fun hne => absurd rfl hne, fun b hb => by cases hb⟩, fun hne => absurd rfl hne⟩
    | filled h =>
      rw [h.safe_iff]
      constructor
      · intro hsafe
        refine ⟨fun _ => .inr rfl, fun hover hends => hsafe hover ⟨hends.2.1, hends.2.2.1, ?_⟩⟩
        exact hends.2.2.2 _ rfl
      · intro hfits hover hends
        refine hfits.2 hover ⟨hlength, hends.1, hends.2.1, fun b hb => ?_⟩
        cases hb
        exact hends.2.2

theorem Holding.keep (frees : Bool) (h : Holding inbuf r) :
    Holding ((pwdReassemble alloc inbuf lmExch data).left frees inbuf)
      ((pwdReassemble alloc inbuf lmExch data).received frees r (r.add lmExch data)) := by
  rw [pwdReassemble_eq]
  unfold PwdReceived.add
  cases hlength : lengthBit lmExch with
  | true =>
    rw [if_pos rfl, if_pos rfl]
    split
    · exact h
    · have hstart : Holds (getBe16 data) [] {} := ⟨Nat.zero_le _, fun _ => rfl, fun h => Bool.noConfusion h⟩
      exact hstart.keep frees
  | false =>
    rw [if_neg Bool.false_ne_true, if_neg Bool.false_ne_true]
    cases h with
    | empty =>
      rw [pwdBuffer_empty]
      split
      · exact .empty _
      · exact .empty _
    | filled h => exact h.keep frees

theorem received_overflowed (input : PwdInput) (h : r.overflowed = false) :
    (input.received true r (r.add lmExch data)).overflowed = false := by
  have hadd : (r.add lmExch data).overflowed = false := by
    unfold PwdReceived.add
    split
    · rfl
    · exact h
  cases input with
  | dropped => exact h
  | nullBuffer => exact h
  | more inbuf => exact hadd
  | overflow inbuf => rfl
  | whole inbuf payload => rfl

end Frame

/-! ## One message -/

def PwdReceived.next (frees : Bool) (outFragPos : Nat) (inbuf : PwdInbuf) (alloc : Bool) (msg : Bytes)
    (r : PwdReceived) : PwdReceived :=
  (pwdFrame outFragPos msg).elim r fun f =>
    (pwdReassemble alloc inbuf f.1 f.2).received frees r (r.add f.1 f.2)

def PwdInbuf.next (frees : Bool) (outFragPos : Nat) (alloc : Bool) (msg : Bytes) (inbuf : PwdInbuf) :
    PwdInbuf :=
  (pwdFrame outFragPos msg).elim inbuf fun f => (pwdReassemble alloc inbuf f.1 f.2).left frees inbuf

section Message

variable {outFragPos : Nat} {inbuf : PwdInbuf} {r : PwdReceived} {alloc : Bool} {msg : Bytes}

theorem pwdFrame_sending (h : outFragPos ≠ 0) : pwdFrame outFragPos msg = none := by
  unfold pwdFrame
  split
  · rfl
  · rfl
  · exact if_pos h

theorem receivesSafely_iff (h : Holding inbuf r) :
    ReceivesSafely outFragPos inbuf r alloc msg ↔ FrameFits outFragPos inbuf r msg := by
  unfold ReceivesSafely FrameFits FragmentHasBuffer
  constructor
  · intro hsafe
    exact ⟨fun f hf => (h.safe_iff.1 (hsafe f hf)).1, fun f hf => (h.safe_iff.1 (hsafe f hf)).2⟩
  · intro hfits f hf
    exact h.safe_iff.2 ⟨hfits.1 f hf, hfits.2 f hf⟩

theorem Holding.next (frees : Bool) (h : Holding inbuf r) :
    Holding (inbuf.next frees outFragPos alloc msg) (r.next frees outFragPos inbuf alloc msg) := by
  unfold PwdInbuf.next PwdReceived.next
  cases pwdFrame outFragPos msg with
  | none => exact h
  | some f => exact h.keep frees

theorem next_overflowed (h : r.overflowed = false) :
    (r.next true outFragPos inbuf alloc msg).overflowed = false := by
  unfold PwdReceived.next
  cases pwdFrame outFragPos msg with
  | none => exact h
  | some f => exact received_overflowed _ h

end Message

/-! ## The server -/

section Server

variable {lib : PwdLib P} {conf : PwdServerConf} {env : PwdEnv} {msg : Bytes} {d d' : PwdServer P}

theorem eapPwdProcessIdResp_inbuf (payload : Bytes) :
    (eapPwdProcessIdResp lib conf env payload d).inbuf = d.inbuf := by
  unfold eapPwdProcessIdResp
  dsimp only
  split
  · rfl
  · split
    · rfl
    · split
      · rfl
      · split
        · rfl
        · split
          · rfl
          · split
            · rfl
            · split
              · rfl
              · rfl

theorem eapPwdProcessCommitResp_inbuf {payload : Bytes}
    (h : eapPwdProcessCommitResp lib env payload d = .ok d') : d'.inbuf = d.inbuf := by
  obtain ⟨grp, -, h⟩ := except_bind_ok h
  dsimp only at h
  split at h
  · cases h
    rfl
  · split at h
    · cases h
      rfl
    · split at h
      · cases h
        rfl
      · obtain ⟨pwe, -, h⟩ := except_bind_ok h
        obtain ⟨privateValue, -, h⟩ := except_bind_ok h
        split at h
        · cases h
          rfl
        · cases h
          rfl

theorem eapPwdProcessConfirmResp_inbuf {payload : Bytes}
    (h : eapPwdProcessConfirmResp lib conf env payload d = .ok d') : d'.inbuf = d.inbuf := by
  obtain ⟨grp, -, h⟩ := except_bind_ok h
  split at h
  · cases h
    rfl
  · obtain ⟨k, -, h⟩ := except_bind_ok h
    obtain ⟨peerElement, -, h⟩ := except_bind_ok h
    obtain ⟨peerScalar, -, h⟩ := except_bind_ok h
    obtain ⟨myElement, -, h⟩ := except_bind_ok h
    obtain ⟨myScalar, -, h⟩ := except_bind_ok h
    split at h
    · cases h
      rfl
    · split at h
      · cases h
        rfl
      · cases h
        rfl

theorem serverExchange_inbuf {exch : PwdExchange} {payload : Bytes}
    (h : serverExchange lib conf env exch payload d = .ok d') : d'.inbuf = d.inbuf := by
  cases exch with
  | id =>
    cases h
    exact eapPwdProcessIdResp_inbuf payload
  | commit => exact eapPwdProcessCommitResp_inbuf h
  | confirm => exact eapPwdProcessConfirmResp_inbuf h
  | unknown =>
    cases h
    rfl

theorem serverInput_eq : serverInput env msg d = (pwdFrame d.outFragPos msg).map fun f =>
    (getExchange f.1, pwdReassemble env.alloc d.inbuf f.1 f.2) := by
  unfold serverInput pwdFrame
  cases eapHdrValidate msg with
  | none => rfl
  | some frame =>
    cases frame with
    | nil => rfl
    | cons lmExch data =>
      dsimp only
      split
      · rfl
      · rfl

theorem eapPwdProcess_inbuf (h : eapPwdProcess lib conf env msg d = .ok d') :
    d'.inbuf = d.inbuf.next false d.outFragPos env.alloc msg := by
  unfold eapPwdProcess at h
  rw [serverInput_eq] at h
  unfold PwdInbuf.next
  cases hframe : pwdFrame d.outFragPos msg with
  | none =>
    rw [hframe] at h
    cases h
    rfl
  | some f =>
    rw [hframe] at h
    dsimp only [Option.map_some] at h
    show d'.inbuf = (pwdReassemble env.alloc d.inbuf f.1 f.2).left false d.inbuf
    cases hinput : pwdReassemble env.alloc d.inbuf f.1 f.2 with
    | dropped =>
      rw [hinput] at h
      cases h
      rfl
    | nullBuffer =>
      rw [hinput] at h
      cases h
    | more inbuf =>
      rw [hinput] at h
      cases h
      rfl
    | overflow inbuf =>
      rw [hinput] at h
      cases h
      rfl
    | whole inbuf payload =>
      rw [hinput] at h
      obtain ⟨d₁, hexchange, h⟩ := except_bind_ok h
      cases h
      show d₁.inbuf.release = inbuf.release
      rw [serverExchange_inbuf hexchange]

theorem sendRequest_inbuf {exch : PwdExchange} {req : Option Bytes}
    (h : sendRequest conf env exch d = .ok (d', req)) : d'.inbuf = d.inbuf := by
  obtain ⟨outbuf, -, h⟩ := except_bind_ok h
  dsimp only at h
  generalize (if d.outFragPos = 0 then 3 else 1) = hdrLen at h
  split at h
  · cases h
  · split at h
    · cases h
      rfl
    · generalize (if conf.mtu < outbuf.length - d.outFragPos + 1 then _ else _ : Nat) = len at h
      split at h
      · cases h
        rfl
      · cases h
        rfl

theorem eapPwdBuildReq_inbuf {req : Option Bytes} (h : eapPwdBuildReq lib conf env d = .ok (d', req)) :
    d'.inbuf = d.inbuf := by
  unfold eapPwdBuildReq at h
  split at h
  · split at h
    · cases h
      rfl
    · split at h
      · cases h
        rfl
      · cases h
        rfl
      · cases h
        rfl
      · cases h
        rfl
  · obtain ⟨d₁, hbuild, h⟩ := except_bind_ok h
    have hbuilt := (buildExchangeReq_frame hbuild).1
    split at h
    · cases h
      exact hbuilt
    · exact (sendRequest_inbuf h).trans hbuilt

/-- A step of the server, and what it has been sent. Messages come to `eap_pwd_process()` unchecked. -/
def serverReceive (lib : PwdLib P) (conf : PwdServerConf) (s : PwdServer P × PwdReceived) :
    PwdServerEvent → Except PwdFault (PwdServer P × PwdReceived)
  | .buildReq env => (eapPwdBuildReq lib conf env s.1).map fun sent => (sent.1, s.2)
  | .resp msg env => (eapPwdProcess lib conf env msg s.1).map fun d =>
      (d, s.2.next false s.1.outFragPos s.1.inbuf env.alloc msg)

def ServerSafe (s : PwdServer P × PwdReceived) : PwdServerEvent → Prop
  | .buildReq _ => True
  | .resp msg env => ReceivesSafely s.1.outFragPos s.1.inbuf s.2 env.alloc msg

def ServerFits (s : PwdServer P × PwdReceived) : PwdServerEvent → Prop
  | .buildReq _ => True
  | .resp msg _ => FrameFits s.1.outFragPos s.1.inbuf s.2 msg

theorem serverSafe_iff {s : PwdServer P × PwdReceived} (h : Holding s.1.inbuf s.2) (ev : PwdServerEvent) :
    ServerSafe s ev ↔ ServerFits s ev := by
  cases ev with
  | buildReq env => exact Iff.rfl
  | resp msg env => exact receivesSafely_iff h

theorem serverReceive_holding {s s' : PwdServer P × PwdReceived} {ev : PwdServerEvent}
    (h : Holding s.1.inbuf s.2) (hstep : serverReceive lib conf s ev = .ok s') :
    Holding s'.1.inbuf s'.2 := by
  cases ev with
  | buildReq env =>
    obtain ⟨⟨d₁, req⟩, hbuild, rfl⟩ := except_map_ok hstep
    show Holding d₁.inbuf s.2
    rw [eapPwdBuildReq_inbuf hbuild]
    exact h
  | resp msg env =>
    obtain ⟨d₁, hprocess, rfl⟩ := except_map_ok hstep
    show Holding d₁.inbuf _
    rw [eapPwdProcess_inbuf hprocess]
    exact h.next false

end Server

/-! ## The peer -/

section Peer

variable {lib : PwdLib P} {conf : PwdPeerConf} {env : PwdEnv} {msg : Bytes} {d d' : PwdPeer P}

theorem peerCommitWith_inbuf (ec : CryptoEc P) (pwe : P) (rand : PwdRand) (commit : Bytes) :
    (peerCommitWith lib env ec pwe rand commit d).inbuf = d.inbuf := by
  unfold peerCommitWith
  dsimp only
  split
  · rfl
  · split
    · rfl
    · split
      · rfl
      · split
        · rfl
        · split
          · rfl
          · split
            · rfl
            · rfl

theorem eapPwdPerformIdExchange_inbuf (payload : Bytes) :
    (eapPwdPerformIdExchange lib conf env payload d).inbuf = d.inbuf := by
  unfold eapPwdPerformIdExchange
  dsimp only
  split
  · rfl
  · split
    · rfl
    · split
      · rfl
      · split
        · rfl
        · split
          · rfl
          · split
            · rfl
            · rfl

theorem eapPwdPerformCommitExchange_inbuf (payload : Bytes) :
    (eapPwdPerformCommitExchange lib conf env payload d).inbuf = d.inbuf := by
  unfold eapPwdPerformCommitExchange
  split
  · rfl
  · split
    · rfl
    · split
      · rfl
      · split
        · rfl
        · split
          · split
            · rfl
            · rfl
          · split
            · rfl
            · split
              · rfl
              · exact peerCommitWith_inbuf _ _ _ _

theorem eapPwdPerformConfirmExchange_inbuf {payload : Bytes}
    (h : eapPwdPerformConfirmExchange lib env payload d = .ok d') : d'.inbuf = d.inbuf := by
  simp only [eapPwdPerformConfirmExchange] at h
  split at h
  · cases h
    rfl
  · split at h
    · cases h
      rfl
    · obtain ⟨grp, -, h⟩ := except_bind_ok h
      obtain ⟨k, -, h⟩ := except_bind_ok h
      obtain ⟨serverElement, -, h⟩ := except_bind_ok h
      obtain ⟨serverScalar, -, h⟩ := except_bind_ok h
      obtain ⟨myElement, -, h⟩ := except_bind_ok h
      obtain ⟨myScalar, -, h⟩ := except_bind_ok h
      split at h
      · cases h
        rfl
      · split at h
        · cases h
          rfl
        · split at h
          · cases h
            rfl
          · cases h
            rfl

theorem peerExchange_inbuf {exch : PwdExchange} {payload : Bytes}
    (h : peerExchange lib conf env exch payload d = .ok d') : d'.inbuf = d.inbuf := by
  cases exch with
  | id =>
    cases h
    exact eapPwdPerformIdExchange_inbuf payload
  | commit =>
    cases h
    exact eapPwdPerformCommitExchange_inbuf payload
  | confirm => exact eapPwdPerformConfirmExchange_inbuf h
  | unknown =>
    cases h
    rfl

theorem PwdPeer.complete_inbuf (d : PwdPeer P) : d.complete.inbuf = d.inbuf := by
  unfold PwdPeer.complete
  split
  · rfl
  · rfl

theorem sendFragment_inbuf {lmExch : UInt8} {resp : Option Bytes}
    (h : sendFragment conf env lmExch d = .ok (d', resp)) : d'.inbuf = d.inbuf := by
  obtain ⟨outbuf, -, h⟩ := except_bind_ok h
  dsimp only at h
  split at h
  · cases h
  · split at h
    · cases h
      rfl
    · generalize (if conf.mtu < outbuf.length - d.outFragPos + 1 then _ else _ : Nat) = len at h
      cases h
      rw [PwdPeer.complete_inbuf]
      split
      · rfl
      · rfl

theorem sendResponse_inbuf {lmExch : UInt8} {resp : Option Bytes}
    (h : sendResponse conf env lmExch d = .ok (d', resp)) : d'.inbuf = d.inbuf := by
  unfold sendResponse at h
  split at h
  · cases h
    rfl
  · dsimp only at h
    split at h
    · cases h
      rfl
    · split at h
      · split at h
        · cases h
        · split at h
          · cases h
            exact PwdPeer.complete_inbuf _
          · cases h
            rfl
      · cases h
        exact PwdPeer.complete_inbuf _

theorem peerInput_eq (hpos : d.outFragPos = 0) : peerInput env msg d = (pwdFrame d.outFragPos msg).map fun f =>
    (f.1, pwdReassemble env.alloc d.inbuf f.1 f.2) := by
  unfold peerInput pwdFrame
  cases eapHdrValidate msg with
  | none => rfl
  | some frame =>
    cases frame with
    | nil => rfl
    | cons lmExch data =>
      dsimp only
      rw [if_neg (not_not_intro hpos)]
      rfl

theorem eapPwdPeerProcess_inbuf {resp : Option Bytes}
    (h : eapPwdPeerProcess lib conf env msg d = .ok (d', resp)) :
    d'.inbuf = d.inbuf.next true d.outFragPos env.alloc msg := by
  unfold eapPwdPeerProcess at h
  unfold PwdInbuf.next
  by_cases hpos : d.outFragPos = 0
  · rw [peerInput_eq hpos] at h
    cases hframe : pwdFrame d.outFragPos msg with
    | none =>
      rw [hframe] at h
      cases h
      rfl
    | some f =>
      rw [hframe] at h
      dsimp only [Option.map_some] at h
      rw [if_neg (not_not_intro hpos)] at h
      show d'.inbuf = (pwdReassemble env.alloc d.inbuf f.1 f.2).left true d.inbuf
      cases hinput : pwdReassemble env.alloc d.inbuf f.1 f.2 with
      | dropped =>
        rw [hinput] at h
        cases h
        rfl
      | nullBuffer =>
        rw [hinput] at h
        cases h
      | more inbuf =>
        rw [hinput] at h
        cases h
        rfl
      | overflow inbuf =>
        rw [hinput] at h
        cases h
        rfl
      | whole inbuf payload =>
        rw [hinput] at h
        obtain ⟨d₁, hexchange, h⟩ := except_bind_ok h
        rw [sendResponse_inbuf h]
        show d₁.inbuf.release = inbuf.release
        rw [peerExchange_inbuf hexchange]
  · -- the message acknowledges a fragment
    rw [pwdFrame_sending hpos]
    cases hinput : peerInput env msg d with
    | none =>
      rw [hinput] at h
      cases h
      rfl
    | some input =>
      rw [hinput] at h
      dsimp only at h
      rw [if_pos hpos] at h
      exact sendFragment_inbuf h

def peerReceive (lib : PwdLib P) (conf : PwdPeerConf) (s : PwdPeer P × PwdReceived) (ev : PwdPeerEvent) :
    Except PwdFault (PwdPeer P × PwdReceived) :=
  (eapPwdPeerProcess lib conf ev.env ev.msg s.1).map fun sent =>
    (sent.1, s.2.next true s.1.outFragPos s.1.inbuf ev.env.alloc ev.msg)

def PeerSafe (s : PwdPeer P × PwdReceived) (ev : PwdPeerEvent) : Prop :=
  ReceivesSafely s.1.outFragPos s.1.inbuf s.2 ev.env.alloc ev.msg

def PeerFits (s : PwdPeer P × PwdReceived) (ev : PwdPeerEvent) : Prop :=
  FragmentHasBuffer s.1.outFragPos s.1.inbuf ev.msg

theorem peerSafe_iff {s : PwdPeer P × PwdReceived} (h : Holding s.1.inbuf s.2) (hover : s.2.overflowed = false)
    (ev : PwdPeerEvent) : PeerSafe s ev ↔ PeerFits s ev := by
  unfold PeerSafe PeerFits
  rw [receivesSafely_iff h]
  refine ⟨fun hfits => hfits.1, fun hfits => ⟨hfits, fun f _ hyes => ?_⟩⟩
  rw [hover] at hyes
  cases hyes

theorem peerReceive_holding {s s' : PwdPeer P × PwdReceived} {ev : PwdPeerEvent} (h : Holding s.1.inbuf s.2)
    (hover : s.2.overflowed = false) (hstep : peerReceive lib conf s ev = .ok s') :
    Holding s'.1.inbuf s'.2 ∧ s'.2.overflowed = false := by
  obtain ⟨⟨d₁, resp⟩, hprocess, rfl⟩ := except_map_ok hstep
  refine ⟨?_, next_overflowed hover⟩
  show Holding d₁.inbuf _
  rw [eapPwdPeerProcess_inbuf hprocess]
  exact h.next true

end Peer

/-! ## Runs -/

end Hostap
