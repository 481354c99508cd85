import Hostap.Eap.PwdAuth

/-!
# Fragments of EAP-pwd messages

A message that does not fit is sent in fragments, the first with the total length, and each of them but
the last is acknowledged. `deliverRequest` is the server sending what it builds to the peer, with the
peer's acknowledgements going back; `deliverResponse` is the peer sending what it has to the server. The
EAP state machine of the peer does not hand a request to a method that is done, so the second stops
there.

What has come through so far is all of the invariant: the receiver holds the first `a` octets, and the
sender stands at the octet it has to go on with. In the direction of the server there is one more thing
to it. A peer that has verified a Confirm is done as soon as it hands out a further fragment of its own,
whether or not it is the last one.
-/

namespace Hostap

open Octets List

variable {P : Type}

/-! ## Messages -/

def eapPwdMsg (code id : UInt8) (fragment : Bytes) : Bytes :=
  [code, id] ++ be16 (5 + fragment.length) ++ [52] ++ fragment

theorem eapHdrValidate_msg (code id : UInt8) (fragment : Bytes) (h : fragment.length ≤ 65530) :
    eapHdrValidate (eapPwdMsg code id fragment) = some fragment := by
  have hlen : getBe16 ((eapPwdMsg code id fragment).drop 2) = 5 + fragment.length := by
    simp only [eapPwdMsg, be16, getBe16, cons_append, nil_append, drop_succ_cons, drop_zero,
      getD_cons_zero, getD_cons_succ, UInt8.toNat_ofNat']
    omega
  have htotal : (eapPwdMsg code id fragment).length = 5 + fragment.length := by
    simp only [eapPwdMsg, be16, length_append, length_cons, length_nil]
  have htype : (eapPwdMsg code id fragment).getD 4 0 = 52 := rfl
  have hrest : slice (eapPwdMsg code id fragment) 5 fragment.length = fragment := take_length
  unfold eapHdrValidate
  dsimp only
  rw [hlen, htotal, if_neg (by omega), if_neg (by omega), htype, if_neg (by decide), if_neg (by simp),
    Nat.add_sub_cancel_left, hrest]

section Flags

variable {exch : PwdExchange}

theorem code_last (h : exch ≠ .unknown) : getExchange exch.code = exch ∧ lengthBit exch.code = false ∧
    moreBit exch.code = false ∧ exch.code &&& 0x3f = exch.code := by
  cases exch with
  | id => decide
  | commit => decide
  | confirm => decide
  | unknown => exact absurd rfl h

theorem code_first (h : exch ≠ .unknown) : getExchange (exch.code ||| 0xc0) = exch ∧
    lengthBit (exch.code ||| 0xc0) = true ∧ moreBit (exch.code ||| 0xc0) = true ∧
    (exch.code ||| 0xc0) &&& 0x3f = exch.code := by
  cases exch with
  | id => decide
  | commit => decide
  | confirm => decide
  | unknown => exact absurd rfl h

theorem code_more (h : exch ≠ .unknown) : getExchange (exch.code ||| 0x40) = exch ∧
    lengthBit (exch.code ||| 0x40) = false ∧ moreBit (exch.code ||| 0x40) = true ∧
    (exch.code ||| 0x40) &&& 0x3f = exch.code := by
  cases exch with
  | id => decide
  | commit => decide
  | confirm => decide
  | unknown => exact absurd rfl h

end Flags

/-! ## Reassembly -/

/-- The first `n` octets of a message are in a buffer of the announced size. -/
def PwdInbuf.holds (size : Nat) (octets : Bytes) : PwdInbuf where
  buf := some (size, octets)
  fragPos := octets.length

section Reassemble

variable {lmExch : UInt8} {size : Nat} {chunk : Bytes}

theorem pwdReassemble_first (hlength : lengthBit lmExch = true) (hmore : moreBit lmExch = true)
    (hsize : size ≤ 15000) (hchunk : chunk.length ≤ size) :
    pwdReassemble true {} lmExch (be16 size ++ chunk) = .more (.holds size chunk) := by
  have hfield : getBe16 (be16 size ++ chunk) = size := by
    simp only [be16, getBe16, cons_append, getD_cons_zero, getD_cons_succ,
      UInt8.toNat_ofNat']
    omega
  have hdrop : (be16 size ++ chunk).drop 2 = chunk := rfl
  have hlen : ¬ (be16 size ++ chunk).length < 2 := by simp [be16]
  unfold pwdReassemble
  rw [if_neg (by simp only [hfield, Option.isSome_none, Bool.false_eq_true, not_true_eq_false, or_false,
    not_and, not_or]; exact fun _ => ⟨hlen, by omega⟩), hfield, hdrop]
  simp only [hlength, hmore, if_true, true_or, nil_append, Nat.zero_add, PwdInbuf.holds]
  rw [if_neg (by omega)]

theorem pwdReassemble_next {octets : Bytes} (hlength : lengthBit lmExch = false) (hmore : moreBit lmExch = true)
    (hfits : octets.length + chunk.length ≤ size) :
    pwdReassemble true (.holds size octets) lmExch chunk = .more (.holds size (octets ++ chunk)) := by
  unfold pwdReassemble
  simp only [hlength, hmore, Bool.false_eq_true, false_and, if_false, if_true, true_or, PwdInbuf.holds,
    length_append]
  rw [if_neg (by omega)]

theorem pwdReassemble_last {octets : Bytes} (hlength : lengthBit lmExch = false)
    (hmore : moreBit lmExch = false) (hne : octets.length ≠ 0) (hfits : octets.length + chunk.length ≤ size) :
    pwdReassemble true (.holds size octets) lmExch chunk =
      .whole (.holds size (octets ++ chunk)) (octets ++ chunk) := by
  unfold pwdReassemble
  simp only [hlength, hmore, Bool.false_eq_true, false_and, if_false, false_or, PwdInbuf.holds,
    length_append]
  rw [if_pos hne, if_neg (by omega), if_pos (by omega), ← length_append, take_length]

theorem pwdReassemble_only (hlength : lengthBit lmExch = false) (hmore : moreBit lmExch = false) :
    pwdReassemble true {} lmExch chunk = .whole {} chunk := by
  unfold pwdReassemble
  simp [hlength, hmore]

end Reassemble

/-! ## Requests -/

/-- Memory can be allocated. -/
structure PwdEnv.Works (env : PwdEnv) : Prop where
  alloc : env.alloc = true
  msgAlloc : env.msgAlloc = true

/-- The server sends what it builds, and the peer acknowledges every fragment but the last. The response
is the one to the last fragment. -/
def deliverRequest (lib : PwdLib P) (sconf : PwdServerConf) (pconf : PwdPeerConf) (senv penv : PwdEnv)
    (id : UInt8) : Nat → PwdServer P → PwdPeer P → Except PwdFault (PwdServer P × PwdPeer P × Option Bytes)
  | 0, s, p => .ok (s, p, none)
  | n + 1, s, p => do
    let (s, req) ← eapPwdBuildReq lib sconf senv s
    match req with
    | none => return (s, p, none)
    | some req =>
      let (p, resp) ← eapPwdPeerProcess lib pconf penv (eapPwdMsg 1 id req) p
      if s.outFragPos = 0 then
        return (s, p, resp)
      match resp with
      | none => return (s, p, none)
      | some resp =>
        let s ← pwdServerStep lib sconf s (.resp (eapPwdMsg 2 id resp) senv)
        deliverRequest lib sconf pconf senv penv id n s p

/-- The peer performs an exchange with a whole message and starts to send its response. -/
def peerPerform (lib : PwdLib P) (pconf : PwdPeerConf) (penv : PwdEnv) (exch : PwdExchange) (m : Bytes)
    (p : PwdPeer P) : Except PwdFault (PwdPeer P × Option Bytes) := do
  let d ← peerExchange lib pconf penv exch m p
  sendResponse pconf penv exch.code { d with inbuf := d.inbuf.release }

section Request

variable {lib : PwdLib P} {sconf : PwdServerConf} {pconf : PwdPeerConf} {senv penv : PwdEnv} {id : UInt8}
variable {exch : PwdExchange} {m : Bytes} {s : PwdServer P} {p : PwdPeer P}

theorem sendRequest_only (henv : senv.Works) (houtbuf : s.outbuf = some m) (hpos : s.outFragPos = 0)
    (hfits : m.length + 1 ≤ sconf.mtu) :
    sendRequest sconf senv exch s =
      .ok ({ s with outbuf := none, outFragPos := 0 }, some (exch.code :: m)) := by
  have hslice : slice m 0 m.length = m := take_length
  simp only [sendRequest, houtbuf, hpos, pwdDeref, henv.msgAlloc, bind, Except.bind, pure, Except.pure,
    Nat.sub_zero, Nat.not_lt.2 hfits, false_and, if_false, not_true_eq_false, Nat.zero_add, Nat.sub_self,
    hslice, Nat.le_refl, if_true, cons_append, nil_append]

theorem sendRequest_first (henv : senv.Works) (houtbuf : s.outbuf = some m) (hpos : s.outFragPos = 0)
    (hmtu : 4 ≤ sconf.mtu) (hlong : sconf.mtu < m.length + 1) :
    sendRequest sconf senv exch s = .ok ({ s with outFragPos := sconf.mtu - 3 },
      some ((exch.code ||| 0xc0) :: (be16 (m.length + 3) ++ m.take (sconf.mtu - 3)))) := by
  have hslice : slice m 0 (sconf.mtu - 3) = m.take (sconf.mtu - 3) := rfl
  have hnot : ¬ m.length ≤ sconf.mtu - 3 := by omega
  have hwrap : ¬ sconf.mtu < 3 := by omega
  simp only [sendRequest, houtbuf, hpos, pwdDeref, henv.msgAlloc, bind, Except.bind, pure, Except.pure,
    Nat.sub_zero, hlong, true_and, if_true, hwrap, if_false, not_true_eq_false, Nat.zero_add, Nat.sub_self,
    hslice, hnot, cons_append, nil_append]

theorem sendRequest_more (henv : senv.Works) (houtbuf : s.outbuf = some m) (hpos : s.outFragPos ≠ 0)
    (hmtu : 4 ≤ sconf.mtu) (hlong : sconf.mtu < m.length - s.outFragPos + 1) :
    sendRequest sconf senv exch s = .ok ({ s with outFragPos := s.outFragPos + (sconf.mtu - 1) },
      some ((exch.code ||| 0x40) :: slice m s.outFragPos (sconf.mtu - 1))) := by
  have hnot : ¬ m.length ≤ s.outFragPos + (sconf.mtu - 1) := by omega
  have hwrap : ¬ sconf.mtu < 1 := by omega
  simp only [sendRequest, houtbuf, hpos, pwdDeref, henv.msgAlloc, bind, Except.bind, pure, Except.pure,
    hlong, true_and, if_true, hwrap, if_false, not_true_eq_false, Nat.add_sub_cancel, hnot, cons_append,
    nil_append]

theorem sendRequest_last (henv : senv.Works) (houtbuf : s.outbuf = some m)
    (hle : s.outFragPos ≤ m.length) (hfits : m.length - s.outFragPos + 1 ≤ sconf.mtu) :
    sendRequest sconf senv exch s = .ok ({ s with outbuf := none, outFragPos := 0 },
      some (exch.code :: slice m s.outFragPos (m.length - s.outFragPos))) := by
  have hend : m.length ≤ s.outFragPos + (m.length - s.outFragPos) := by omega
  simp only [sendRequest, houtbuf, pwdDeref, henv.msgAlloc, bind, Except.bind, pure, Except.pure,
    Nat.not_lt.2 hfits, false_and, if_false, not_true_eq_false, Nat.add_sub_cancel, hend, if_true,
    cons_append, nil_append]

theorem peerProcess_more (lib : PwdLib P) (pconf : PwdPeerConf) (id : UInt8) {lmExch : UInt8} {data : Bytes}
    {inbuf : PwdInbuf} (henv : penv.Works) (hpos : p.outFragPos = 0) (hlen : data.length ≤ 65529)
    (hinput : pwdReassemble true p.inbuf lmExch data = .more inbuf) :
    eapPwdPeerProcess lib pconf penv (eapPwdMsg 1 id (lmExch :: data)) p =
      .ok ({ p with inbuf }, some [lmExch &&& 0x3f]) := by
  have hmsg := eapHdrValidate_msg 1 id (lmExch :: data) (by simp only [length_cons]; omega)
  simp only [eapPwdPeerProcess, peerInput, hmsg, henv.alloc, hinput, hpos, ne_eq, not_true_eq_false, if_false,
    henv.msgAlloc, if_true]

theorem peerProcess_whole (lib : PwdLib P) (pconf : PwdPeerConf) (id : UInt8) {data : Bytes}
    {inbuf : PwdInbuf} (hexch : exch ≠ .unknown) (henv : penv.Works)
    (hpos : p.outFragPos = 0) (hlen : data.length ≤ 65529)
    (hinput : pwdReassemble true p.inbuf exch.code data = .whole inbuf m) :
    eapPwdPeerProcess lib pconf penv (eapPwdMsg 1 id (exch.code :: data)) p =
      peerPerform lib pconf penv exch m { p with inbuf } := by
  have hmsg := eapHdrValidate_msg 1 id (exch.code :: data) (by simp only [length_cons]; omega)
  simp only [eapPwdPeerProcess, peerInput, hmsg, henv.alloc, hinput, hpos, ne_eq, not_true_eq_false, if_false,
    (code_last hexch).1, peerPerform]

theorem exchange_ne_unknown (h : s.state = .idReq ∨ s.state = .commitReq ∨ s.state = .confirmReq) :
    s.state.exchange ≠ .unknown := by
  rcases h with h | h | h
  · rw [h]
    decide
  · rw [h]
    decide
  · rw [h]
    decide

theorem serverStep_ack (lib : PwdLib P) (sconf : PwdServerConf) (senv : PwdEnv) (id : UInt8)
    (hpos : s.outFragPos ≠ 0) :
    pwdServerStep lib sconf s (.resp (eapPwdMsg 2 id [s.state.exchange.code]) senv) = .ok s := by
  have hmsg := eapHdrValidate_msg 2 id [s.state.exchange.code] (by simp)
  simp only [pwdServerStep, eapPwdProcess, serverInput, hmsg, if_pos hpos]
  split
  · rfl
  · rfl

theorem buildReq_further (lib : PwdLib P) (sconf : PwdServerConf) (senv : PwdEnv)
    (h : s.state = .idReq ∨ s.state = .commitReq ∨ s.state = .confirmReq)
    (hpos : s.outFragPos ≠ 0) (hin : s.inbuf.fragPos = 0) :
    eapPwdBuildReq lib sconf senv s = sendRequest sconf senv s.state.exchange s := by
  have hsame : buildExchangeReq lib sconf senv s = .ok s := by
    unfold buildExchangeReq
    rcases h with h | h | h
    · simp only [h, eapPwdBuildIdReq, if_pos hpos]
    · simp only [h, eapPwdBuildCommitReq, if_pos hpos]
    · simp only [h, eapPwdBuildConfirmReq, if_pos hpos]
  have hok : s.state ≠ .failure := by
    rcases h with h | h | h
    · rw [h]
      decide
    · rw [h]
      decide
    · rw [h]
      decide
  simp only [eapPwdBuildReq, hin, ne_eq, not_true_eq_false, if_false, hsame, bind, Except.bind, hok]

theorem deliverRequest_rest (hsenv : senv.Works) (hpenv : penv.Works) (hmtu : 4 ≤ sconf.mtu)
    (hlen : m.length ≤ 14997) {n a : Nat} (hn : m.length - a < n)
    (hstate : s.state = .idReq ∨ s.state = .commitReq ∨ s.state = .confirmReq) (houtbuf : s.outbuf = some m)
    (hin : s.inbuf.fragPos = 0) (ha : s.outFragPos = a) (ha0 : a ≠ 0) (hle : a < m.length)
    (hpos : p.outFragPos = 0) (hinbuf : p.inbuf = .holds (m.length + 3) (m.take a)) :
    deliverRequest lib sconf pconf senv penv id n s p = (do
      let (p', resp) ← peerPerform lib pconf penv s.state.exchange m
        { p with inbuf := .holds (m.length + 3) m }
      return ({ s with outbuf := none, outFragPos := 0 }, p', resp)) := by
  have hexch := exchange_ne_unknown hstate
  induction n generalizing s p a with
  | zero => omega
  | succ n ih =>
    subst ha
    have htake : (m.take s.outFragPos).length = s.outFragPos := by
      rw [length_take]
      omega
    have hbuild := buildReq_further lib sconf senv hstate ha0 hin
    by_cases hlong : sconf.mtu < m.length - s.outFragPos + 1
    · -- one more fragment, acknowledged
      rw [sendRequest_more hsenv houtbuf ha0 hmtu hlong] at hbuild
      have hslice : (slice m s.outFragPos (sconf.mtu - 1)).length = sconf.mtu - 1 :=
        slice_length (by omega)
      have happend : m.take s.outFragPos ++ slice m s.outFragPos (sconf.mtu - 1) =
          m.take (s.outFragPos + (sconf.mtu - 1)) := take_add.symm
      have hinput : pwdReassemble true p.inbuf (s.state.exchange.code ||| 0x40)
          (slice m s.outFragPos (sconf.mtu - 1)) =
          .more (.holds (m.length + 3) (m.take (s.outFragPos + (sconf.mtu - 1)))) := by
        rw [hinbuf, pwdReassemble_next (code_more hexch).2.1 (code_more hexch).2.2.1 (by omega), happend]
      have hprocess := peerProcess_more lib pconf id hpenv hpos (by omega) hinput
      rw [(code_more hexch).2.2.2] at hprocess
      have hposNe : s.outFragPos + (sconf.mtu - 1) ≠ 0 := by omega
      have hack := serverStep_ack lib sconf senv id
        (s := { s with outFragPos := s.outFragPos + (sconf.mtu - 1) }) hposNe
      simp only [deliverRequest, hbuild, hprocess, bind, Except.bind, hposNe, if_false]
      rw [show (pwdServerStep lib sconf { s with outFragPos := s.outFragPos + (sconf.mtu - 1) }
        (.resp (eapPwdMsg 2 id [s.state.exchange.code]) senv)) = _ from hack]
      exact ih (a := s.outFragPos + (sconf.mtu - 1)) (by omega) hstate houtbuf hin rfl hposNe (by omega) hpos
        rfl hexch
    · rw [sendRequest_last hsenv houtbuf (by omega) (by omega)] at hbuild
      have hslice : (slice m s.outFragPos (m.length - s.outFragPos)).length = m.length - s.outFragPos :=
        slice_length (by omega)
      have happend : m.take s.outFragPos ++ slice m s.outFragPos (m.length - s.outFragPos) = m := by
        rw [slice, ← take_add, Nat.add_sub_cancel' hle.le, take_length]
      have hinput : pwdReassemble true p.inbuf s.state.exchange.code
          (slice m s.outFragPos (m.length - s.outFragPos)) = .whole (.holds (m.length + 3) m) m := by
        rw [hinbuf, pwdReassemble_last (code_last hexch).2.1 (code_last hexch).2.2.1 (by omega) (by omega),
          happend]
      have hprocess := peerProcess_whole lib pconf id hexch hpenv hpos (by omega) hinput
      simp only [deliverRequest, hbuild, bind, Except.bind]
      rw [hprocess]
      rfl

/-- **A request comes through.** The peer performs the exchange with the message that was built, once. -/
theorem deliverRequest_spec {s₁ : PwdServer P} (hsenv : senv.Works) (hpenv : penv.Works)
    (hmtu : 4 ≤ sconf.mtu) (hlen : m.length ≤ 14997)
    (hstate : s.state = .idReq ∨ s.state = .commitReq ∨ s.state = .confirmReq) (hin : s.inbuf.fragPos = 0)
    (hbuild : buildExchangeReq lib sconf senv s = .ok s₁) (hstate₁ : s₁.state = s.state)
    (houtbuf : s₁.outbuf = some m) (hpos₁ : s₁.outFragPos = 0) (hin₁ : s₁.inbuf.fragPos = 0)
    (hpos : p.outFragPos = 0) (hinbuf : p.inbuf = {}) :
    ∃ inbuf, ∀ n, m.length < n → deliverRequest lib sconf pconf senv penv id n s p = (do
      let (p', resp) ← peerPerform lib pconf penv s.state.exchange m { p with inbuf }
      return ({ s₁ with outbuf := none, outFragPos := 0 }, p', resp)) := by
  have hexch := exchange_ne_unknown hstate
  have hok : s₁.state ≠ .failure := by
    rw [hstate₁]
    rcases hstate with h | h | h
    · rw [h]
      decide
    · rw [h]
      decide
    · rw [h]
      decide
  have hreq : eapPwdBuildReq lib sconf senv s = sendRequest sconf senv s.state.exchange s₁ := by
    simp only [eapPwdBuildReq, hin, ne_eq, not_true_eq_false, if_false, hbuild, bind, Except.bind, hok]
  by_cases hlong : sconf.mtu < m.length + 1
  · refine ⟨.holds (m.length + 3) m, fun n hn => ?_⟩
    obtain ⟨n, rfl⟩ : ∃ n', n = n' + 1 := ⟨n - 1, by omega⟩
    rw [sendRequest_first hsenv houtbuf hpos₁ hmtu hlong] at hreq
    have htake : (m.take (sconf.mtu - 3)).length = sconf.mtu - 3 := by
      rw [length_take]
      omega
    have hinput : pwdReassemble true p.inbuf (s.state.exchange.code ||| 0xc0)
        (be16 (m.length + 3) ++ m.take (sconf.mtu - 3)) =
        .more (.holds (m.length + 3) (m.take (sconf.mtu - 3))) := by
      rw [hinbuf]
      exact pwdReassemble_first (code_first hexch).2.1 (code_first hexch).2.2.1 (by omega) (by omega)
    have hsize : (be16 (m.length + 3) ++ m.take (sconf.mtu - 3)).length ≤ 65529 := by
      rw [length_append, htake, be16]
      simp only [length_cons, length_nil]
      omega
    have hprocess := peerProcess_more lib pconf id hpenv hpos hsize hinput
    rw [(code_first hexch).2.2.2] at hprocess
    have hposNe : sconf.mtu - 3 ≠ 0 := by omega
    have hack := serverStep_ack lib sconf senv id (s := { s₁ with outFragPos := sconf.mtu - 3 }) hposNe
    simp only [deliverRequest, hreq, hprocess, bind, Except.bind, hposNe, if_false]
    rw [← hstate₁] at hstate ⊢
    rw [show (pwdServerStep lib sconf { s₁ with outFragPos := sconf.mtu - 3 }
      (.resp (eapPwdMsg 2 id [s₁.state.exchange.code]) senv)) = _ from hack]
    exact deliverRequest_rest (a := sconf.mtu - 3) hsenv hpenv hmtu hlen (by omega) hstate houtbuf hin₁ rfl
      hposNe (by omega) hpos rfl
  · refine ⟨{}, fun n hn => ?_⟩
    obtain ⟨n, rfl⟩ : ∃ n', n = n' + 1 := ⟨n - 1, by omega⟩
    rw [sendRequest_only hsenv houtbuf hpos₁ (by omega)] at hreq
    have hinput : pwdReassemble true p.inbuf s.state.exchange.code m = .whole {} m := by
      rw [hinbuf]
      exact pwdReassemble_only (code_last hexch).2.1 (code_last hexch).2.2.1
    have hprocess := peerProcess_whole lib pconf id hexch hpenv hpos (by omega) hinput
    simp only [deliverRequest, hreq, bind, Except.bind]
    rw [hprocess]
    rfl

end Request

/-! ## Responses -/

/-- The peer sends on what it has begun to send, for the acknowledgements of the server. A peer whose
method is done gets none of them. -/
def deliverRest (lib : PwdLib P) (sconf : PwdServerConf) (pconf : PwdPeerConf) (senv penv : PwdEnv)
    (id : UInt8) : Nat → PwdServer P → PwdPeer P → Except PwdFault (PwdServer P × PwdPeer P)
  | 0, s, p => .ok (s, p)
  | n + 1, s, p =>
    if p.outFragPos = 0 ∨ p.state = .success then
      .ok (s, p)
    else do
      let (s, ack) ← eapPwdBuildReq lib sconf senv s
      match ack with
      | none => return (s, p)
      | some ack =>
        let (p, resp) ← eapPwdPeerProcess lib pconf penv (eapPwdMsg 1 id ack) p
        match resp with
        | none => return (s, p)
        | some resp =>
          let s ← pwdServerStep lib sconf s (.resp (eapPwdMsg 2 id resp) senv)
          deliverRest lib sconf pconf senv penv id n s p

def deliverResponse (lib : PwdLib P) (sconf : PwdServerConf) (pconf : PwdPeerConf) (senv penv : PwdEnv)
    (id : UInt8) (exch : PwdExchange) (n : Nat) (s : PwdServer P) (p : PwdPeer P) :
    Except PwdFault (PwdServer P × PwdPeer P) := do
  let (p, resp) ← sendResponse pconf penv exch.code p
  match resp with
  | none => return (s, p)
  | some resp =>
    let s ← pwdServerStep lib sconf s (.resp (eapPwdMsg 2 id resp) senv)
    deliverRest lib sconf pconf senv penv id n s p

def serverPerform (lib : PwdLib P) (sconf : PwdServerConf) (senv : PwdEnv) (exch : PwdExchange) (m : Bytes)
    (s : PwdServer P) : Except PwdFault (PwdServer P) := do
  let d ← serverExchange lib sconf senv exch m s
  return { d with inbuf := d.inbuf.release }

section Response

variable {lib : PwdLib P} {sconf : PwdServerConf} {pconf : PwdPeerConf} {senv penv : PwdEnv} {id : UInt8}
variable {exch : PwdExchange} {m : Bytes} {s : PwdServer P} {p : PwdPeer P}

theorem sendResponse_only (henv : penv.Works) (hexch : exch ≠ .unknown) (houtbuf : p.outbuf = some m)
    (hfits : m.length + 1 ≤ pconf.mtu) :
    sendResponse pconf penv exch.code p =
      .ok (PwdPeer.complete { p with outbuf := none }, some (exch.code :: m)) := by
  simp only [sendResponse, houtbuf, henv.msgAlloc, not_true_eq_false, if_false, Nat.not_lt.2 hfits,
    (code_last hexch).2.2.2]

theorem sendResponse_first (henv : penv.Works) (hexch : exch ≠ .unknown) (houtbuf : p.outbuf = some m)
    (hmtu : 4 ≤ pconf.mtu) (hlong : pconf.mtu < m.length + 1) :
    sendResponse pconf penv exch.code p = .ok ({ p with outFragPos := pconf.mtu - 3 },
      some ((exch.code ||| 0xc0) :: (be16 m.length ++ m.take (pconf.mtu - 3)))) := by
  have hwrap : ¬ pconf.mtu < 3 := by omega
  have hposNe : pconf.mtu - 3 ≠ 0 := by omega
  simp only [sendResponse, houtbuf, henv.msgAlloc, not_true_eq_false, if_false, hlong, if_true, hwrap, hposNe,
    (code_last hexch).2.2.2, cons_append, nil_append]

theorem peerProcess_ack (lib : PwdLib P) (pconf : PwdPeerConf) (penv : PwdEnv) (id : UInt8)
    (exch : PwdExchange) (hpos : p.outFragPos ≠ 0) :
    eapPwdPeerProcess lib pconf penv (eapPwdMsg 1 id [exch.code]) p = sendFragment pconf penv exch.code p := by
  have hmsg := eapHdrValidate_msg 1 id [exch.code] (by simp)
  simp only [eapPwdPeerProcess, peerInput, hmsg, ne_eq, hpos, not_false_eq_true, if_true]

theorem sendFragment_more (henv : penv.Works) (houtbuf : p.outbuf = some m) (hmtu : 4 ≤ pconf.mtu)
    (hlong : pconf.mtu < m.length - p.outFragPos + 1) :
    sendFragment pconf penv exch.code p =
      .ok (PwdPeer.complete { p with outFragPos := p.outFragPos + (pconf.mtu - 1) },
        some ((exch.code ||| 0x40) :: slice m p.outFragPos (pconf.mtu - 1))) := by
  have hwrap : ¬ pconf.mtu < 1 := by omega
  have hnot : ¬ m.length ≤ p.outFragPos + (pconf.mtu - 1) := by omega
  simp only [sendFragment, houtbuf, pwdDeref, bind, Except.bind, pure, Except.pure, hlong, hwrap, and_false,
    if_false, henv.msgAlloc, not_true_eq_false, if_true, hnot]

theorem sendFragment_last (henv : penv.Works) (houtbuf : p.outbuf = some m) (hle : p.outFragPos ≤ m.length)
    (hfits : m.length - p.outFragPos + 1 ≤ pconf.mtu) :
    sendFragment pconf penv exch.code p =
      .ok (PwdPeer.complete { p with outbuf := none, outFragPos := 0 },
        some (exch.code :: slice m p.outFragPos (m.length - p.outFragPos))) := by
  have hend : m.length ≤ p.outFragPos + (m.length - p.outFragPos) := by omega
  simp only [sendFragment, houtbuf, pwdDeref, bind, Except.bind, pure, Except.pure, Nat.not_lt.2 hfits,
    false_and, if_false, henv.msgAlloc, not_true_eq_false, hend, if_true]

theorem eapPwdCheck_msg (hstate : s.state = .idReq ∨ s.state = .commitReq ∨ s.state = .confirmReq)
    {lmExch : UInt8} {data : Bytes} (hlen : data.length ≤ 65529)
    (hexch : getExchange lmExch = s.state.exchange) :
    eapPwdCheck s (eapPwdMsg 2 id (lmExch :: data)) = false := by
  have hmsg := eapHdrValidate_msg 2 id (lmExch :: data) (by simp only [length_cons]; omega)
  simp only [eapPwdCheck, hmsg, hexch]
  rcases hstate with h | h | h
  · rw [h]
    rfl
  · rw [h]
    rfl
  · rw [h]
    rfl

theorem serverStep_more (lib : PwdLib P) (sconf : PwdServerConf) (id : UInt8)
    (hstate : s.state = .idReq ∨ s.state = .commitReq ∨ s.state = .confirmReq) (henv : senv.Works)
    (hpos : s.outFragPos = 0) {lmExch : UInt8} {data : Bytes} {inbuf : PwdInbuf} (hlen : data.length ≤ 65529)
    (hexch : getExchange lmExch = s.state.exchange)
    (hinput : pwdReassemble true s.inbuf lmExch data = .more inbuf) :
    pwdServerStep lib sconf s (.resp (eapPwdMsg 2 id (lmExch :: data)) senv) = .ok { s with inbuf } := by
  have hmsg := eapHdrValidate_msg 2 id (lmExch :: data) (by simp only [length_cons]; omega)
  simp only [pwdServerStep, eapPwdCheck_msg hstate hlen hexch, eapPwdProcess, serverInput, hmsg, hpos,
    henv.alloc, hinput, ne_eq, not_true_eq_false, if_false, Bool.false_eq_true]

theorem serverStep_whole (lib : PwdLib P) (sconf : PwdServerConf) (id : UInt8)
    (hstate : s.state = .idReq ∨ s.state = .commitReq ∨ s.state = .confirmReq) (henv : senv.Works)
    (hpos : s.outFragPos = 0) {data : Bytes} {inbuf : PwdInbuf} (hlen : data.length ≤ 65529)
    (hinput : pwdReassemble true s.inbuf s.state.exchange.code data = .whole inbuf m) :
    pwdServerStep lib sconf s (.resp (eapPwdMsg 2 id (s.state.exchange.code :: data)) senv) =
      serverPerform lib sconf senv s.state.exchange m { s with inbuf } := by
  have hmsg := eapHdrValidate_msg 2 id (s.state.exchange.code :: data) (by simp only [length_cons]; omega)
  have hcode := (code_last (exchange_ne_unknown hstate)).1
  simp only [pwdServerStep, eapPwdCheck_msg hstate hlen hcode, eapPwdProcess, serverInput, hmsg, hpos,
    henv.alloc, hinput, hcode, ne_eq, not_true_eq_false, if_false, Bool.false_eq_true, serverPerform]

theorem buildReq_ack (lib : PwdLib P) (sconf : PwdServerConf)
    (hstate : s.state = .idReq ∨ s.state = .commitReq ∨ s.state = .confirmReq) (henv : senv.Works)
    (hin : s.inbuf.fragPos ≠ 0) :
    eapPwdBuildReq lib sconf senv s = .ok (s, some [s.state.exchange.code]) := by
  simp only [eapPwdBuildReq, ne_eq, hin, not_false_eq_true, if_true, henv.msgAlloc, not_true_eq_false, if_false]
  rcases hstate with h | h | h
  · simp only [h]
  · simp only [h]
  · simp only [h]

theorem PwdPeer.complete_of_ne {d : PwdPeer P} (h : d.state ≠ .successOnFragCompletion) : d.complete = d := by
  unfold PwdPeer.complete
  rw [if_neg h]

@[simp] theorem PwdPeer.complete_outbuf (d : PwdPeer P) : d.complete.outbuf = d.outbuf := by
  unfold PwdPeer.complete
  split
  · rfl
  · rfl

@[simp] theorem PwdPeer.complete_outFragPos (d : PwdPeer P) : d.complete.outFragPos = d.outFragPos := by
  unfold PwdPeer.complete
  split
  · rfl
  · rfl

theorem deliverRest_nothing (hpos : p.outFragPos = 0 ∨ p.state = .success) (n : Nat) :
    deliverRest lib sconf pconf senv penv id n s p = .ok (s, p) := by
  cases n with
  | zero => rfl
  | succ n => simp only [deliverRest, hpos, if_true]

/-- The first octets have come through and there are more to send. -/
structure SendsRest (m : Bytes) (s : PwdServer P) (p : PwdPeer P) : Prop where
  state : s.state = .idReq ∨ s.state = .commitReq ∨ s.state = .confirmReq
  pos : s.outFragPos = 0
  inbuf : s.inbuf = .holds m.length (m.take p.outFragPos)
  outbuf : p.outbuf = some m
  begun : p.outFragPos ≠ 0
  left : p.outFragPos < m.length
  notDone : p.state ≠ .success

theorem SendsRest.fragPos_ne (h : SendsRest m s p) : s.inbuf.fragPos ≠ 0 := by
  have hleft := h.left
  have hbegun := h.begun
  rw [h.inbuf]
  show (m.take p.outFragPos).length ≠ 0
  rw [length_take]
  omega

theorem deliverRest_more (hsenv : senv.Works) (hpenv : penv.Works) (hmtu : 4 ≤ pconf.mtu)
    (hlen : m.length ≤ 14997) (h : SendsRest m s p) (hlong : pconf.mtu < m.length - p.outFragPos + 1)
    (n : Nat) :
    deliverRest lib sconf pconf senv penv id (n + 1) s p =
      deliverRest lib sconf pconf senv penv id n
        { s with inbuf := .holds m.length (m.take (p.outFragPos + (pconf.mtu - 1))) }
        (PwdPeer.complete { p with outFragPos := p.outFragPos + (pconf.mtu - 1) }) := by
  have hexch := exchange_ne_unknown h.state
  have hgo : ¬ (p.outFragPos = 0 ∨ p.state = .success) := not_or.2 ⟨h.begun, h.notDone⟩
  have hack := peerProcess_ack lib pconf penv id s.state.exchange h.begun
  rw [sendFragment_more hpenv h.outbuf hmtu hlong] at hack
  have htake : (m.take p.outFragPos).length = p.outFragPos := by
    have hleft := h.left
    rw [length_take]
    omega
  have hslice : (slice m p.outFragPos (pconf.mtu - 1)).length = pconf.mtu - 1 :=
    slice_length (by omega)
  have happend : m.take p.outFragPos ++ slice m p.outFragPos (pconf.mtu - 1) =
      m.take (p.outFragPos + (pconf.mtu - 1)) := take_add.symm
  have hinput : pwdReassemble true s.inbuf (s.state.exchange.code ||| 0x40)
      (slice m p.outFragPos (pconf.mtu - 1)) =
      .more (.holds m.length (m.take (p.outFragPos + (pconf.mtu - 1)))) := by
    rw [h.inbuf, pwdReassemble_next (code_more hexch).2.1 (code_more hexch).2.2.1 (by omega), happend]
  have hstep := serverStep_more lib sconf id h.state hsenv h.pos (by omega) (code_more hexch).1 hinput
  simp only [deliverRest, hgo, if_false, buildReq_ack lib sconf h.state hsenv h.fragPos_ne, hack, hstep, bind,
    Except.bind]

theorem deliverRest_last (hsenv : senv.Works) (hpenv : penv.Works) (hlen : m.length ≤ 14997)
    (h : SendsRest m s p) (hfits : m.length - p.outFragPos + 1 ≤ pconf.mtu) (n : Nat) :
    deliverRest lib sconf pconf senv penv id (n + 1) s p = (do
      let s' ← serverPerform lib sconf senv s.state.exchange m { s with inbuf := .holds m.length m }
      return (s', PwdPeer.complete { p with outbuf := none, outFragPos := 0 })) := by
  have hexch := exchange_ne_unknown h.state
  have hleft := h.left
  have hbegun := h.begun
  have hgo : ¬ (p.outFragPos = 0 ∨ p.state = .success) := not_or.2 ⟨h.begun, h.notDone⟩
  have hack := peerProcess_ack lib pconf penv id s.state.exchange h.begun
  rw [sendFragment_last hpenv h.outbuf hleft.le hfits] at hack
  have htake : (m.take p.outFragPos).length = p.outFragPos := by
    rw [length_take]
    omega
  have hslice : (slice m p.outFragPos (m.length - p.outFragPos)).length = m.length - p.outFragPos :=
    slice_length (by omega)
  have happend : m.take p.outFragPos ++ slice m p.outFragPos (m.length - p.outFragPos) = m := by
    rw [slice, ← take_add, Nat.add_sub_cancel' hleft.le, take_length]
  have hinput : pwdReassemble true s.inbuf s.state.exchange.code
      (slice m p.outFragPos (m.length - p.outFragPos)) = .whole (.holds m.length m) m := by
    rw [h.inbuf, pwdReassemble_last (code_last hexch).2.1 (code_last hexch).2.2.1 (by omega) (by omega),
      happend]
  have hstep := serverStep_whole lib sconf id h.state hsenv h.pos (by omega) hinput
  simp only [deliverRest, hgo, if_false, buildReq_ack lib sconf h.state hsenv h.fragPos_ne, hack, hstep, bind,
    Except.bind]
  cases serverPerform lib sconf senv s.state.exchange m { s with inbuf := .holds m.length m } with
  | error e => rfl
  | ok s' => exact deliverRest_nothing (.inl (PwdPeer.complete_outFragPos _)) n

theorem SendsRest.next (hmtu : 4 ≤ pconf.mtu) (h : SendsRest m s p)
    (hlong : pconf.mtu < m.length - p.outFragPos + 1) :
    SendsRest m { s with inbuf := .holds m.length (m.take (p.outFragPos + (pconf.mtu - 1))) }
      { p with outFragPos := p.outFragPos + (pconf.mtu - 1) } where
  state := h.state
  pos := h.pos
  inbuf := rfl
  outbuf := h.outbuf
  begun := Nat.ne_of_gt (Nat.lt_of_lt_of_le (Nat.pos_of_ne_zero h.begun) (Nat.le_add_right _ _))
  left := by
    show p.outFragPos + (pconf.mtu - 1) < m.length
    omega
  notDone := h.notDone

theorem deliverRest_spec (hsenv : senv.Works) (hpenv : penv.Works) (hmtu : 4 ≤ pconf.mtu)
    (hlen : m.length ≤ 14997) {n : Nat} (hn : m.length - p.outFragPos < n) (h : SendsRest m s p)
    (hfits : p.state = .successOnFragCompletion → m.length - p.outFragPos + 1 ≤ pconf.mtu) :
    deliverRest lib sconf pconf senv penv id n s p = (do
      let s' ← serverPerform lib sconf senv s.state.exchange m { s with inbuf := .holds m.length m }
      return (s', PwdPeer.complete { p with outbuf := none, outFragPos := 0 })) := by
  induction n generalizing s p with
  | zero => omega
  | succ n ih =>
    by_cases hlong : pconf.mtu < m.length - p.outFragPos + 1
    · have hother : p.state ≠ .successOnFragCompletion := fun h => absurd (hfits h) (by omega)
      have hkeep : PwdPeer.complete { p with outFragPos := p.outFragPos + (pconf.mtu - 1) } =
          { p with outFragPos := p.outFragPos + (pconf.mtu - 1) } := PwdPeer.complete_of_ne hother
      rw [deliverRest_more hsenv hpenv hmtu hlen h hlong n, hkeep]
      refine ih ?_ (h.next hmtu hlong) fun hfrag => absurd hfrag hother
      show m.length - (p.outFragPos + (pconf.mtu - 1)) < n
      omega
    · exact deliverRest_last hsenv hpenv hlen h (by omega) n

theorem deliverRest_done (hsenv : senv.Works) (hpenv : penv.Works) (hmtu : 4 ≤ pconf.mtu)
    (hlen : m.length ≤ 14997) {n : Nat} {s' : PwdServer P} {p' : PwdPeer P} (h : SendsRest m s p)
    (hfits : p.state = .successOnFragCompletion → m.length - p.outFragPos + 1 ≤ pconf.mtu)
    (hrun : deliverRest lib sconf pconf senv penv id n s p = .ok (s', p')) (hdone : p'.state = .success) :
    p'.outbuf = none := by
  induction n generalizing s p with
  | zero =>
    cases hrun
    exact absurd hdone h.notDone
  | succ n ih =>
    by_cases hlong : pconf.mtu < m.length - p.outFragPos + 1
    · have hother : p.state ≠ .successOnFragCompletion := fun h => absurd (hfits h) (by omega)
      have hkeep : PwdPeer.complete { p with outFragPos := p.outFragPos + (pconf.mtu - 1) } =
          { p with outFragPos := p.outFragPos + (pconf.mtu - 1) } := PwdPeer.complete_of_ne hother
      rw [deliverRest_more hsenv hpenv hmtu hlen h hlong n, hkeep] at hrun
      exact ih (h.next hmtu hlong) (fun hfrag => absurd hfrag hother) hrun
    · rw [deliverRest_last hsenv hpenv hlen h (by omega) n] at hrun
      obtain ⟨s'', -, hrun⟩ := except_bind_ok hrun
      cases hrun
      exact PwdPeer.complete_outbuf _

theorem deliverRest_stops (lib : PwdLib P) (sconf : PwdServerConf) (id : UInt8)
    (hsenv : senv.Works) (hpenv : penv.Works) (hmtu : 4 ≤ pconf.mtu)
    (hlen : m.length ≤ 14997) (h : SendsRest m s p) (hfrag : p.state = .successOnFragCompletion)
    (hlong : pconf.mtu < m.length - p.outFragPos + 1) (n : Nat) :
    deliverRest lib sconf pconf senv penv id (n + 1) s p =
      .ok ({ s with inbuf := .holds m.length (m.take (p.outFragPos + (pconf.mtu - 1))) },
        { p with outFragPos := p.outFragPos + (pconf.mtu - 1), state := .success }) := by
  have hdone : PwdPeer.complete { p with outFragPos := p.outFragPos + (pconf.mtu - 1) } =
      { p with outFragPos := p.outFragPos + (pconf.mtu - 1), state := .success } := if_pos hfrag
  rw [deliverRest_more hsenv hpenv hmtu hlen h hlong n, hdone, deliverRest_nothing (.inr rfl)]

theorem deliverResponse_first (lib : PwdLib P) (sconf : PwdServerConf) (id : UInt8)
    (hsenv : senv.Works) (hpenv : penv.Works) (hmtu : 4 ≤ pconf.mtu)
    (hlen : m.length ≤ 14997) (hstate : s.state = .idReq ∨ s.state = .commitReq ∨ s.state = .confirmReq)
    (hpos : s.outFragPos = 0) (hinbuf : s.inbuf = {}) (houtbuf : p.outbuf = some m)
    (hlong : pconf.mtu < m.length + 1) (n : Nat) :
    deliverResponse lib sconf pconf senv penv id s.state.exchange n s p =
      deliverRest lib sconf pconf senv penv id n
        { s with inbuf := .holds m.length (m.take (pconf.mtu - 3)) }
        { p with outFragPos := pconf.mtu - 3 } := by
  have hexch := exchange_ne_unknown hstate
  have htake : (m.take (pconf.mtu - 3)).length = pconf.mtu - 3 := by
    rw [length_take]
    omega
  have hinput : pwdReassemble true s.inbuf (s.state.exchange.code ||| 0xc0)
      (be16 m.length ++ m.take (pconf.mtu - 3)) = .more (.holds m.length (m.take (pconf.mtu - 3))) := by
    rw [hinbuf]
    exact pwdReassemble_first (code_first hexch).2.1 (code_first hexch).2.2.1 (by omega) (by omega)
  have hsize : (be16 m.length ++ m.take (pconf.mtu - 3)).length ≤ 65529 := by
    rw [length_append, htake, be16]
    simp only [length_cons, length_nil]
    omega
  have hstep := serverStep_more lib sconf id hstate hsenv hpos hsize (code_first hexch).1 hinput
  simp only [deliverResponse, sendResponse_first hpenv hexch houtbuf hmtu hlong, hstep, bind, Except.bind]

theorem deliverResponse_only (lib : PwdLib P) (sconf : PwdServerConf) (id : UInt8)
    (hsenv : senv.Works) (hpenv : penv.Works) (hlen : m.length ≤ 14997)
    (hstate : s.state = .idReq ∨ s.state = .commitReq ∨ s.state = .confirmReq)
    (hpos : s.outFragPos = 0) (hinbuf : s.inbuf = {}) (houtbuf : p.outbuf = some m)
    (hppos : p.outFragPos = 0) (hfits : m.length + 1 ≤ pconf.mtu) (n : Nat) :
    deliverResponse lib sconf pconf senv penv id s.state.exchange n s p = (do
      let s' ← serverPerform lib sconf senv s.state.exchange m { s with inbuf := {} }
      return (s', PwdPeer.complete { p with outbuf := none, outFragPos := 0 })) := by
  have hexch := exchange_ne_unknown hstate
  have hinput : pwdReassemble true s.inbuf s.state.exchange.code m = .whole {} m := by
    rw [hinbuf]
    exact pwdReassemble_only (code_last hexch).2.1 (code_last hexch).2.2.1
  have hstep := serverStep_whole lib sconf id hstate hsenv hpos (by omega) hinput
  simp only [deliverResponse, sendResponse_only hpenv hexch houtbuf hfits, hstep, bind, Except.bind]
  have hsame : { p with outbuf := none } = { p with outbuf := none, outFragPos := 0 } := by rw [← hppos]
  rw [hsame]
  cases serverPerform lib sconf senv s.state.exchange m { s with inbuf := {} } with
  | error e => rfl
  | ok s' => exact deliverRest_nothing (.inl (PwdPeer.complete_outFragPos _)) n

theorem deliverResponse_spec (hsenv : senv.Works) (hpenv : penv.Works) (hmtu : 4 ≤ pconf.mtu)
    (hlen : m.length ≤ 14997) (hstate : s.state = .idReq ∨ s.state = .commitReq ∨ s.state = .confirmReq)
    (hpos : s.outFragPos = 0) (hinbuf : s.inbuf = {}) (houtbuf : p.outbuf = some m) (hppos : p.outFragPos = 0)
    (hnot : p.state ≠ .success) (hfits : p.state = .successOnFragCompletion → m.length ≤ 2 * pconf.mtu - 4) :
    (∃ inbuf, ∀ n, m.length < n → deliverResponse lib sconf pconf senv penv id s.state.exchange n s p = (do
      let s' ← serverPerform lib sconf senv s.state.exchange m { s with inbuf }
      return (s', PwdPeer.complete { p with outbuf := none, outFragPos := 0 }))) ∧
    ∀ n s' p', deliverResponse lib sconf pconf senv penv id s.state.exchange n s p = .ok (s', p') →
      p'.state = .success → p'.outbuf = none := by
  by_cases hlong : pconf.mtu < m.length + 1
  · have hfirst := deliverResponse_first lib sconf id hsenv hpenv hmtu hlen hstate
      hpos hinbuf houtbuf hlong
    have hrest : SendsRest m { s with inbuf := .holds m.length (m.take (pconf.mtu - 3)) }
        { p with outFragPos := pconf.mtu - 3 } :=
      { state := hstate
        pos := hpos
        inbuf := rfl
        outbuf := houtbuf
        begun := Nat.sub_ne_zero_of_lt (by omega)
        left := by
          show pconf.mtu - 3 < m.length
          omega
        notDone := hnot }
    have hsecond : p.state = .successOnFragCompletion → m.length - (pconf.mtu - 3) + 1 ≤ pconf.mtu := by
      intro hfrag
      have := hfits hfrag
      omega
    refine ⟨⟨.holds m.length m, fun n hn => ?_⟩, fun n s' p' hrun hdone => ?_⟩
    · rw [hfirst]
      exact deliverRest_spec hsenv hpenv hmtu hlen (by show m.length - (pconf.mtu - 3) < n; omega) hrest hsecond
    · rw [hfirst] at hrun
      exact deliverRest_done hsenv hpenv hmtu hlen hrest hsecond hrun hdone
  · have honly := deliverResponse_only lib sconf id hsenv hpenv hlen hstate hpos
      hinbuf houtbuf hppos (Nat.le_of_not_lt hlong)
    refine ⟨⟨{}, fun n _ => honly n⟩, fun n s' p' hrun _ => ?_⟩
    rw [honly] at hrun
    obtain ⟨s'', -, hrun⟩ := except_bind_ok hrun
    cases hrun
    exact PwdPeer.complete_outbuf _

theorem deliverResponse_stops (lib : PwdLib P) (sconf : PwdServerConf) (pconf : PwdPeerConf)
    (senv penv : PwdEnv) (id : UInt8) (hsenv : senv.Works) (hpenv : penv.Works) (hmtu : 4 ≤ pconf.mtu)
    (hlen : m.length ≤ 14997) (hstate : s.state = .idReq ∨ s.state = .commitReq ∨ s.state = .confirmReq)
    (hpos : s.outFragPos = 0) (hinbuf : s.inbuf = {}) (houtbuf : p.outbuf = some m)
    (hfrag : p.state = .successOnFragCompletion) (hlong : 2 * pconf.mtu - 4 < m.length) (n : Nat) :
    deliverResponse lib sconf pconf senv penv id s.state.exchange (n + 1) s p =
      .ok ({ s with inbuf := .holds m.length (m.take (2 * pconf.mtu - 4)) },
        { p with outFragPos := 2 * pconf.mtu - 4, state := .success }) := by
  have hrest : SendsRest m { s with inbuf := .holds m.length (m.take (pconf.mtu - 3)) }
      { p with outFragPos := pconf.mtu - 3 } :=
    { state := hstate
      pos := hpos
      inbuf := rfl
      outbuf := houtbuf
      begun := Nat.sub_ne_zero_of_lt (by omega)
      left := by
        show pconf.mtu - 3 < m.length
        omega
      notDone := by
        show p.state ≠ .success
        rw [hfrag]
        decide }
  have htwo : pconf.mtu - 3 + (pconf.mtu - 1) = 2 * pconf.mtu - 4 := by omega
  rw [deliverResponse_first lib sconf id hsenv hpenv hmtu hlen hstate hpos hinbuf houtbuf (by omega)]
  have hstop := deliverRest_stops lib sconf id hsenv hpenv hmtu hlen hrest hfrag
    (by show pconf.mtu < m.length - (pconf.mtu - 3) + 1; omega) n
  rw [hstop]
  simp only [htwo]

end Response

/-! ## Both directions -/

/-- The peer performs the exchange of the server with the message that was built, once. -/
def RequestComesThrough (lib : PwdLib P) (sconf : PwdServerConf) (pconf : PwdPeerConf) (senv penv : PwdEnv)
    (id : UInt8) (m : Bytes) (s s₁ : PwdServer P) (p : PwdPeer P) : Prop :=
  ∃ inbuf, ∀ n, m.length < n → deliverRequest lib sconf pconf senv penv id n s p = (do
    let (p', resp) ← peerPerform lib pconf penv s.state.exchange m { p with inbuf }
    return ({ s₁ with outbuf := none, outFragPos := 0 }, p', resp))

/-- The server processes the response once, and the peer is done only when it has handed out all of it. -/
def ResponseComesThrough (lib : PwdLib P) (sconf : PwdServerConf) (pconf : PwdPeerConf) (senv penv : PwdEnv)
    (id : UInt8) (m : Bytes) (s : PwdServer P) (p : PwdPeer P) : Prop :=
  (∃ inbuf, ∀ n, m.length < n → deliverResponse lib sconf pconf senv penv id s.state.exchange n s p = (do
    let s' ← serverPerform lib sconf senv s.state.exchange m { s with inbuf }
    return (s', PwdPeer.complete { p with outbuf := none, outFragPos := 0 }))) ∧
  ∀ n s' p', deliverResponse lib sconf pconf senv penv id s.state.exchange n s p = .ok (s', p') →
    p'.state = .success → p'.outbuf = none

theorem PwdServer.buildFailed_frame (d : PwdServer P) : d.buildFailed.inbuf = d.inbuf ∧
    d.buildFailed.outFragPos = d.outFragPos ∧
    (d.buildFailed.state ≠ .failure → d.buildFailed.state = d.state) := by
  unfold PwdServer.buildFailed
  split
  · exact ⟨rfl, rfl, fun h => absurd rfl h⟩
  · exact ⟨rfl, rfl, fun _ => rfl⟩

theorem buildExchangeReq_frame {lib : PwdLib P} {conf : PwdServerConf} {env : PwdEnv} {d d' : PwdServer P}
    (h : buildExchangeReq lib conf env d = .ok d') :
    d'.inbuf = d.inbuf ∧ d'.outFragPos = d.outFragPos ∧ (d'.state ≠ .failure → d'.state = d.state) := by
  unfold buildExchangeReq at h
  split at h
  · cases h
    unfold eapPwdBuildIdReq
    split
    · exact ⟨rfl, rfl, fun _ => rfl⟩
    · split
      · exact ⟨rfl, rfl, fun h => absurd rfl h⟩
      · split
        · exact ⟨rfl, rfl, fun h => absurd rfl h⟩
        · split
          · exact ⟨rfl, rfl, fun h => absurd rfl h⟩
          · exact ⟨rfl, rfl, fun _ => rfl⟩
  · unfold eapPwdBuildCommitReq at h
    split at h
    · cases h
      exact ⟨rfl, rfl, fun _ => rfl⟩
    · obtain ⟨grp, -, h⟩ := except_bind_ok h
      obtain ⟨pwe, -, h⟩ := except_bind_ok h
      split at h
      · cases h
        exact d.buildFailed_frame
      · split at h
        · cases h
          exact ⟨rfl, rfl, fun h => absurd rfl h⟩
        · dsimp only at h
          split at h
          · cases h
            exact PwdServer.buildFailed_frame _
          · cases h
            exact ⟨rfl, rfl, fun _ => rfl⟩
  · unfold eapPwdBuildConfirmReq at h
    split at h
    · cases h
      exact ⟨rfl, rfl, fun _ => rfl⟩
    · obtain ⟨grp, -, h⟩ := except_bind_ok h
      split at h
      · cases h
        exact d.buildFailed_frame
      · obtain ⟨k, -, h⟩ := except_bind_ok h
        obtain ⟨myElement, -, h⟩ := except_bind_ok h
        obtain ⟨myScalar, -, h⟩ := except_bind_ok h
        obtain ⟨peerElement, -, h⟩ := except_bind_ok h
        obtain ⟨peerScalar, -, h⟩ := except_bind_ok h
        split at h
        · cases h
          exact d.buildFailed_frame
        · cases h
          exact ⟨rfl, rfl, fun _ => rfl⟩
  · cases h
    exact ⟨rfl, rfl, fun h => absurd rfl h⟩

/-- **Fragmentation.** A request of any length is performed by the peer once and whole. So is a response at
the server, and the peer is done with its last fragment only, exactly when a peer that has verified the
Confirm of the server needs no more than two fragments for its own. -/
theorem eap_pwd_fragmentation (lib : PwdLib P) (sconf : PwdServerConf) (pconf : PwdPeerConf)
    (senv penv : PwdEnv) (id : UInt8) (m : Bytes) (s : PwdServer P) (p : PwdPeer P) (hsenv : senv.Works)
    (hpenv : penv.Works) (hsmtu : 4 ≤ sconf.mtu) (hpmtu : 4 ≤ pconf.mtu) (hlen : m.length ≤ 14997)
    (hstate : s.state = .idReq ∨ s.state = .commitReq ∨ s.state = .confirmReq) (hspos : s.outFragPos = 0)
    (hsin : s.inbuf = {}) (hppos : p.outFragPos = 0) (hpin : p.inbuf = {}) (hnot : p.state ≠ .success) :
    (∀ s₁, buildExchangeReq lib sconf senv s = .ok s₁ → s₁.state ≠ .failure → s₁.outbuf = some m →
      RequestComesThrough lib sconf pconf senv penv id m s s₁ p) ∧
    (p.outbuf = some m → (ResponseComesThrough lib sconf pconf senv penv id m s p ↔
      (p.state = .successOnFragCompletion → m.length ≤ 2 * pconf.mtu - 4))) := by
  refine ⟨fun s₁ hbuild hok houtbuf => ?_, fun houtbuf => ⟨fun hcomes hfrag => ?_, fun hfits => ?_⟩⟩
  · obtain ⟨hin₁, hpos₁, hstate₁⟩ := buildExchangeReq_frame hbuild
    have hin : s.inbuf.fragPos = 0 := by rw [hsin]
    exact deliverRequest_spec hsenv hpenv hsmtu hlen hstate hin hbuild (hstate₁ hok) houtbuf
      (hpos₁.trans hspos) (by rw [hin₁, hin]) hppos hpin
  · by_contra hlong
    have hstop := deliverResponse_stops lib sconf pconf senv penv id hsenv hpenv hpmtu hlen hstate
      hspos hsin houtbuf hfrag (Nat.lt_of_not_le hlong) 0
    have hnone := hcomes.2 1 _ _ hstop rfl
    rw [show PwdPeer.outbuf _ = some m from houtbuf] at hnone
    cases hnone
  · exact deliverResponse_spec hsenv hpenv hpmtu hlen hstate hspos hsin houtbuf hppos hnot hfits

/-- The ID request in fragments of four octets, and a Confirm in two. -/
theorem eap_pwd_fragmentation_small :
    RequestComesThrough smallPwdLib { smallPwdServerConf with mtu := 4 } smallPwdPeerConf
      { token := some [1, 2, 3, 4] } {} 1 [0, 19, 1, 1, 1, 2, 3, 4, 0, 0x73] {}
      (eapPwdBuildIdReq { smallPwdServerConf with mtu := 4 } { token := some [1, 2, 3, 4] } {}) {} ∧
    ResponseComesThrough smallPwdLib smallPwdServerConf { smallPwdPeerConf with mtu := 18 } {} {} 1 (zeros 32)
      { state := .confirmReq } { state := .successOnFragCompletion, outbuf := some (zeros 32) } := by
  refine ⟨?_, ?_⟩
  · exact (eap_pwd_fragmentation smallPwdLib { smallPwdServerConf with mtu := 4 } smallPwdPeerConf
      { token := some [1, 2, 3, 4] } {} 1 _ {} {} ⟨rfl, rfl⟩ ⟨rfl, rfl⟩ (by decide) (by decide) (by decide)
      (.inl rfl) rfl rfl rfl rfl (by decide)).1 _ rfl (by decide) rfl
  · exact ((eap_pwd_fragmentation smallPwdLib smallPwdServerConf { smallPwdPeerConf with mtu := 18 } {} {} 1
      (zeros 32) { state := .confirmReq } { state := .successOnFragCompletion, outbuf := some (zeros 32) }
      ⟨rfl, rfl⟩ ⟨rfl, rfl⟩ (by decide) (by decide) (by decide) (.inr (.inr rfl)) rfl rfl rfl rfl
      (by decide)).2 rfl).2 (fun _ => by decide)

/-- With an MTU of 17 the peer needs three fragments for its Confirm and is done with the second. The
server is left with the first 30 octets. -/
theorem eap_pwd_confirm_cut_short :
    ∃ s d p, Run.Reach (pwdServerStep smallPwdLib smallPwdServerConf) Run.always {}
        ((smallServerRun [2, 5, 4] []).take 5) s ∧
      Run.Reach (pwdPeerStep smallPwdLib { smallPwdPeerConf with mtu := 17 }) Run.always {}
        ((smallPeerRun [2, 5, 4] []).take 2) d ∧
      peerExchange smallPwdLib { smallPwdPeerConf with mtu := 17 } {} .confirm
        ([2, 2, 5, 4, 0, 1, 2, 0, 19, 1, 1] ++ zeros 21) d = .ok p ∧
      ∃ m, p.outbuf = some m ∧ m.length = 32 ∧
        ¬ ResponseComesThrough smallPwdLib smallPwdServerConf { smallPwdPeerConf with mtu := 17 } {} {} 1 m
          s p := by
  obtain ⟨s, hs, hserver⟩ := Run.reach_of_runWhile_any
    (pwdServerStep smallPwdLib smallPwdServerConf) Run.always {} ((smallServerRun [2, 5, 4] []).take 5)
    (fun s => s.state = .confirmReq ∧ s.outFragPos = 0 ∧ s.inbuf.buf = none ∧ s.inbuf.fragPos = 0)
    (by decide +kernel)
  obtain ⟨d, hd, hpeer⟩ := Run.reach_of_runWhile_any
    (pwdPeerStep smallPwdLib { smallPwdPeerConf with mtu := 17 }) Run.always {}
    ((smallPeerRun [2, 5, 4] []).take 2)
    (fun d => (peerExchange smallPwdLib { smallPwdPeerConf with mtu := 17 } {} .confirm
      ([2, 2, 5, 4, 0, 1, 2, 0, 19, 1, 1] ++ zeros 21) d).toOption.any fun p =>
        p.state = .successOnFragCompletion ∧ p.outbuf.any fun m => m.length = 32)
    (by decide +kernel)
  obtain ⟨hstate, hpos, hbuf, hfragPos⟩ := of_decide_eq_true hserver
  have hinbuf : s.inbuf = {} := by
    cases hin : s.inbuf with
    | mk buf fragPos =>
      rw [hin] at hbuf hfragPos
      subst hbuf
      subst hfragPos
      rfl
  obtain ⟨p, hp, hfrag⟩ := (Option.any_eq_true _ _).1 hpeer
  obtain ⟨hfrag, hlen⟩ := of_decide_eq_true hfrag
  obtain ⟨m, houtbuf, hlen⟩ := (Option.any_eq_true _ _).1 hlen
  have hlen : m.length = 32 := of_decide_eq_true hlen
  refine ⟨s, d, p, hs, hd, ?_, m, houtbuf, hlen, fun hcomes => ?_⟩
  · cases hexchange : peerExchange smallPwdLib { smallPwdPeerConf with mtu := 17 } {} .confirm
        ([2, 2, 5, 4, 0, 1, 2, 0, 19, 1, 1] ++ zeros 21) d with
    | error e =>
      rw [hexchange] at hp
      cases hp
    | ok p' =>
      rw [hexchange] at hp
      cases hp
      rfl
  · have hstop := deliverResponse_stops smallPwdLib smallPwdServerConf
      { smallPwdPeerConf with mtu := 17 } {} {} 1 ⟨rfl, rfl⟩ ⟨rfl, rfl⟩ (by decide) (by omega)
      (.inr (.inr hstate)) hpos hinbuf houtbuf hfrag (by rw [hlen]; decide) 0
    have hnone := hcomes.2 1 _ _ hstop rfl
    rw [show PwdPeer.outbuf _ = some m from houtbuf] at hnone
    cases hnone

end Hostap
