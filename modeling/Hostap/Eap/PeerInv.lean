import Hostap.Eap.PeerSm

/-!
# What the EAP peer knows of its session

Decision, key data and SEQ are variables that outlive the states that set them, and a method may outlive a
session. Two invariants say what they mean:

* `View.Inv` is about what was learnt since `INITIALIZE`: a decision other than `FAIL` is the one that the
  selected method returned last, and the key is the last one that the method or an EAP-Finish/Re-auth
  brought;
* `Flow.Ok` is about the packet at hand: an EAP-Initiate/Re-auth that was built is the response that is sent
  next, so that in the states that a packet can be received in, the SEQ is that of the last one sent.

A machine that kept a method for re-authentication has not selected it. The method is `parked` then, and the
one packet that still reaches it, a Request of `EAP_TYPE_NONE`, is ignored; the log has nothing of it.
-/

namespace Hostap

namespace EapPeer

open Octets Erp

/-! ## The log -/

def Obs.method : Obs → Option MethodId
  | .processed method _ => some method
  | .keyed method _ => some method
  | _ => none

def Obs.decision : Obs → Option (MethodId × Decision)
  | .processed method decision => some (method, decision)
  | _ => none

def Obs.initiation : Obs → Option Bytes
  | .initiated msg => some msg
  | _ => none

def Obs.key (lib : ErpLib) : Obs → Option (Option Bytes)
  | .keyed _ key => some key
  | .finished _ erp frame => some (some (Erp.rMSK lib erp.rRK (reauthSeq frame)))
  | _ => none

def lastProcessed (log : List Obs) : Option (MethodId × Decision) := log.findSome? Obs.decision

def lastInitiated (log : List Obs) : Option Bytes := log.findSome? Obs.initiation

def lastKey (lib : ErpLib) (log : List Obs) : Option Bytes := (log.findSome? (Obs.key lib)).getD none

/-- An EAP-Finish/Re-auth without the R flag, with the SEQ of the last EAP-Initiate/Re-auth sent and with an
authentication tag that is valid under the rIK of a stored key. -/
structure FinishVerified (lib : ErpLib) (stored : List ErpKey) (erp : ErpKey) (frame : Bytes)
    (older : List Obs) :
    Prop where
  code : frame.getD 0 0 = codeFinish ∧ frame.getD 4 0 = typeReauth
  stored : erp ∈ stored
  rFlag : Sm.rFlag frame = false
  seq : ∃ msg, lastInitiated older = some msg ∧ reauthSeq frame = reauthSeq msg
  tagged : Tagged lib erp.rIK csHmacSha256128 16 frame

/-! ## What was learnt -/

structure View (π : Type) where
  m : Option (Selected π)
  selectedMethod : Nat
  decision : Decision
  eapKeyData : Option Bytes
  eapKeyAvailable : Bool
  log : List Obs

variable {π : Type}

def Sm.view (sm : Sm π) : View π where
  m := sm.m
  selectedMethod := sm.selectedMethod
  decision := sm.decision
  eapKeyData := sm.eapKeyData
  eapKeyAvailable := sm.eapKeyAvailable
  log := sm.log

namespace View

structure Inv (lib : ErpLib) (v : View π) : Prop where
  decided : v.decision ≠ .fail → ∃ method, lastProcessed v.log = some (method, v.decision)
  one : ∃ id, (∀ o ∈ v.log, ∀ method, o.method = some method → method = id) ∧
    (v.selectedMethod ≠ typeNone → ∀ s, v.m = some s → s.method.id = id)
  unselected : v.selectedMethod = typeNone → ∀ o ∈ v.log, o.method = none
  parked : v.selectedMethod = typeNone → ∀ s, v.m = some s → s.method.parked s.priv = true
  key : v.eapKeyData = lastKey lib v.log
  available : v.eapKeyAvailable = true → v.eapKeyData.isSome = true
  finished : ∀ newer stored erp frame older, v.log = newer ++ .finished stored erp frame :: older →
    FinishVerified lib stored erp frame older

variable {lib : ErpLib} {v : View π}

theorem finished_cons {log : List Obs}
    (h : ∀ newer stored erp frame older, log = newer ++ .finished stored erp frame :: older →
      FinishVerified lib stored erp frame older) {o : Obs}
    (ho : ∀ stored erp frame, o = .finished stored erp frame → FinishVerified lib stored erp frame log)
    {newer : List Obs} {stored : List ErpKey} {erp : ErpKey} {frame : Bytes} {older : List Obs}
    (hlog : o :: log = newer ++ .finished stored erp frame :: older) : FinishVerified lib stored erp frame older := by
  cases newer with
  | nil =>
    injection hlog with hhead htail
    rw [← htail]
    exact ho _ _ _ hhead
  | cons p newer =>
    injection hlog with _ htail
    exact h _ _ _ _ _ htail

theorem Inv.select (h : v.Inv lib) (hnone : v.selectedMethod = typeNone) (s : Selected π) {type : Nat}
    (htype : type ≠ typeNone) : ({ v with m := some s, selectedMethod := type } : View π).Inv lib where
  decided := h.decided
  one := by
    refine ⟨s.method.id, fun o ho method hmethod => ?_, fun _ t ht => by cases ht; rfl⟩
    rw [h.unselected hnone o ho] at hmethod
    cases hmethod
  unselected := fun hsel => absurd hsel htype
  parked := fun hsel => absurd hsel htype
  key := h.key
  available := h.available
  finished := h.finished

theorem Inv.deselect (h : v.Inv lib) (hnone : v.selectedMethod = typeNone) :
    ({ v with m := none, selectedMethod := typeNone } : View π).Inv lib where
  decided := h.decided
  one := by
    obtain ⟨id, hlog, _⟩ := h.one
    exact ⟨id, hlog, fun hsel => absurd rfl hsel⟩
  unselected := fun _ => h.unselected hnone
  parked := fun _ s hs => by cases hs
  key := h.key
  available := h.available
  finished := h.finished

theorem Inv.invalidate (h : v.Inv lib) : ({ v with m := none } : View π).Inv lib where
  decided := h.decided
  one := by
    obtain ⟨id, hlog, _⟩ := h.one
    exact ⟨id, hlog, fun _ s hs => by cases hs⟩
  unselected := h.unselected
  parked := fun _ s hs => by cases hs
  key := h.key
  available := h.available
  finished := h.finished

theorem Inv.ignore (h : v.Inv lib) {s : Selected π} (hs : v.m = some s) {priv : π}
    (hparked : v.selectedMethod = typeNone → s.method.parked priv = true) :
    ({ v with m := some ⟨s.method, priv⟩ } : View π).Inv lib where
  decided := h.decided
  one := by
    obtain ⟨id, hlog, hm⟩ := h.one
    exact ⟨id, hlog, fun hsel t ht => by cases ht; exact hm hsel s hs⟩
  unselected := h.unselected
  parked := fun hsel t ht => by
    cases ht
    exact hparked hsel
  key := h.key
  available := h.available
  finished := h.finished

theorem Inv.process (h : v.Inv lib) (hsel : v.selectedMethod ≠ typeNone) {s : Selected π} (hs : v.m = some s)
    (priv : π) (decision : Decision) :
    ({ v with m := some ⟨s.method, priv⟩, decision, log := .processed s.method.id decision :: v.log } : View π).Inv lib where
  decided := fun _ => ⟨s.method.id, rfl⟩
  one := by
    obtain ⟨id, hlog, hm⟩ := h.one
    refine ⟨id, fun o ho method hmethod => ?_, fun _ t ht => by cases ht; exact hm hsel s hs⟩
    rcases List.mem_cons.mp ho with rfl | ho
    · cases hmethod
      exact hm hsel s hs
    · exact hlog o ho method hmethod
  unselected := fun hnone => absurd hnone hsel
  parked := fun hnone => absurd hnone hsel
  key := h.key
  available := h.available
  finished := fun _ _ _ _ _ hlog => finished_cons h.finished (fun _ _ _ ho => by cases ho) hlog

theorem Inv.takeKey (h : v.Inv lib) (hsel : v.selectedMethod ≠ typeNone) {s : Selected π} (hs : v.m = some s)
    {key : Option Bytes} (hkey : key.isSome = true) :
    ({ v with eapKeyData := key, log := .keyed s.method.id key :: v.log } : View π).Inv lib where
  decided := h.decided
  one := by
    obtain ⟨id, hlog, hm⟩ := h.one
    refine ⟨id, fun o ho method hmethod => ?_, hm⟩
    rcases List.mem_cons.mp ho with rfl | ho
    · cases hmethod
      exact hm hsel s hs
    · exact hlog o ho method hmethod
  unselected := fun hnone => absurd hnone hsel
  parked := fun hnone => absurd hnone hsel
  key := rfl
  available := fun _ => hkey
  finished := fun _ _ _ _ _ hlog => finished_cons h.finished (fun _ _ _ ho => by cases ho) hlog

theorem Inv.initiate (h : v.Inv lib) (msg : Bytes) :
    ({ v with log := .initiated msg :: v.log } : View π).Inv lib where
  decided := h.decided
  one := by
    obtain ⟨id, hlog, hm⟩ := h.one
    refine ⟨id, fun o ho method hmethod => ?_, hm⟩
    rcases List.mem_cons.mp ho with rfl | ho
    · cases hmethod
    · exact hlog o ho method hmethod
  unselected := fun hnone o ho => by
    rcases List.mem_cons.mp ho with rfl | ho
    · rfl
    · exact h.unselected hnone o ho
  parked := h.parked
  key := h.key
  available := h.available
  finished := fun _ _ _ _ _ hlog => finished_cons h.finished (fun _ _ _ ho => by cases ho) hlog

theorem Inv.finish (h : v.Inv lib) {stored : List ErpKey} {erp : ErpKey} {frame : Bytes}
    (hverified : FinishVerified lib stored erp frame v.log) :
    ({ v with
      eapKeyData := some (Erp.rMSK lib erp.rRK (reauthSeq frame)), eapKeyAvailable := true
      log := .finished stored erp frame :: v.log } : View π).Inv lib where
  decided := h.decided
  one := by
    obtain ⟨id, hlog, hm⟩ := h.one
    refine ⟨id, fun o ho method hmethod => ?_, hm⟩
    rcases List.mem_cons.mp ho with rfl | ho
    · cases hmethod
    · exact hlog o ho method hmethod
  unselected := fun hnone o ho => by
    rcases List.mem_cons.mp ho with rfl | ho
    · rfl
    · exact h.unselected hnone o ho
  parked := h.parked
  key := rfl
  available := fun _ => rfl
  finished := fun _ _ _ _ _ hlog =>
    finished_cons h.finished (fun _ _ _ ho => by cases ho; exact hverified) hlog

theorem Inv.publish (h : v.Inv lib) :
    ({ v with eapKeyAvailable := v.eapKeyAvailable || v.eapKeyData.isSome } : View π).Inv lib where
  decided := h.decided
  one := h.one
  unselected := h.unselected
  parked := h.parked
  key := h.key
  available := fun ha => by
    rcases Bool.or_eq_true_iff.mp ha with ha | ha
    · exact h.available ha
    · exact ha
  finished := h.finished

theorem Inv.fresh {m : Option (Selected π)} (hm : ∀ s, m = some s → s.method.parked s.priv = true) :
    (⟨m, typeNone, .fail, none, false, []⟩ : View π).Inv lib where
  decided := fun hd => absurd rfl hd
  one := ⟨(0, 0), fun o ho => (by cases ho), fun hsel => absurd rfl hsel⟩
  unselected := fun _ o ho => by cases ho
  parked := fun _ => hm
  key := rfl
  available := fun ha => by cases ha
  finished := fun newer stored erp frame older hlog => by
    cases newer <;> cases hlog

end View

/-! ## The packet at hand -/

/-- The states in which an EAP-Initiate/Re-auth may have been built that was not sent; the last two are not
left for a state that a packet is received in. -/
def EapState.unsent : EapState → Bool
  | .received | .disabled | .failure => true
  | _ => false

/-- The states in which the SEQ is that of the last EAP-Initiate/Re-auth. -/
def EapState.sends : EapState → Bool
  | .received | .disabled | .failure | .success => false
  | _ => true

def EapState.parsing : EapState → Bool
  | .received | .getMethod => true
  | _ => false

structure Flow where
  state : EapState
  reauthInit : Bool
  erpSeq : Nat
  noKeys : Bool
  initiated : Option Bytes
  eapRespData : Option Bytes
  eapReqData : Option Bytes
  selectedMethod : Nat
  rxReq : Bool
  rxResp : Bool
  rxSuccess : Bool
  rxFailure : Bool
  reqMethod : Nat
  reqVendor : Nat

def Sm.flow (sm : Sm π) : Flow where
  state := sm.state
  reauthInit := sm.reauthInit
  erpSeq := sm.erpSeq
  noKeys := sm.erpKeys.isEmpty
  initiated := lastInitiated sm.log
  eapRespData := sm.eapRespData
  eapReqData := sm.eapReqData
  selectedMethod := sm.selectedMethod
  rxReq := sm.rxReq
  rxResp := sm.rxResp
  rxSuccess := sm.rxSuccess
  rxFailure := sm.rxFailure
  reqMethod := sm.reqMethod
  reqVendor := sm.reqVendor

namespace Flow

/-- An EAP-Finish/Re-auth that is accepted carries the SEQ of the last EAP-Initiate/Re-auth sent. -/
def SeqSent (f : Flow) : Prop :=
  f.noKeys = true ∨ f.erpSeq = noErpSeq ∨ ∃ msg, f.initiated = some msg ∧ reauthSeq msg = f.erpSeq

/-- The type of the packet is `EAP_TYPE_NONE`. -/
def ReqTypeNone (f : Flow) : Prop := (f.eapReqData.getD []).getD 4 0 = 0

/-- An EAP-Initiate/Re-auth is there to be sent, and there is no other use of the packet that asked for it. -/
structure Pending (f : Flow) : Prop where
  rxReq : f.rxReq = false
  rxResp : f.rxResp = false
  rxSuccess : f.rxSuccess = false
  rxFailure : f.rxFailure = false
  resp : ∃ msg, f.eapRespData = some msg ∧ reauthSeq msg = f.erpSeq

/-- What the parser establishes. -/
structure Parsed (f : Flow) : Prop where
  sent : f.reauthInit = false → f.SeqSent
  pending : f.reauthInit = true → f.Pending
  vendor : f.reqMethod = typeNone → f.reqVendor = vendorIetf
  typeNone : f.rxReq = true → f.reqMethod = Erp.typeNone → f.ReqTypeNone

structure Ok (f : Flow) : Prop where
  sent : f.state.sends = true → f.SeqSent
  reauthInit : f.reauthInit = true → f.state.unsent = true
  received : f.state = .received → f.Parsed
  got : f.state = .getMethod → f.selectedMethod = f.reqMethod → f.reqMethod = typeNone → f.ReqTypeNone

variable {f g : Flow}

theorem Ok.of_sent (hparsing : f.state.parsing = false) (hsent : f.state.sends = true → f.SeqSent)
    (hreauth : f.reauthInit = true → f.state.unsent = true) : f.Ok where
  sent := hsent
  reauthInit := hreauth
  received := fun hst => by
    rw [hst] at hparsing
    cases hparsing
  got := fun hst => by
    rw [hst] at hparsing
    cases hparsing

theorem SeqSent.congr (h : f.SeqSent) (hkeys : g.noKeys = f.noKeys) (hseq : g.erpSeq = f.erpSeq)
    (hinitiated : g.initiated = f.initiated) : g.SeqSent := by
  unfold SeqSent
  rw [hkeys, hseq, hinitiated]
  exact h

theorem sends_unsent {state : EapState} (h : state.sends = true) : state.unsent = false := by
  cases state <;> first | rfl | cases h

theorem Ok.not_reauthInit (h : f.Ok) (hsends : f.state.sends = true) : f.reauthInit = false := by
  by_contra hr
  have hu := h.reauthInit (Bool.eq_true_of_not_eq_false hr)
  rw [sends_unsent hsends] at hu
  cases hu

theorem Parsed.used (h : f.Parsed)
    (hused : f.rxReq = true ∨ f.rxResp = true ∨ f.rxSuccess = true ∨ f.rxFailure = true) :
    f.reauthInit = false := by
  by_contra hr
  have hp := h.pending (Bool.eq_true_of_not_eq_false hr)
  rw [hp.rxReq, hp.rxResp, hp.rxSuccess, hp.rxFailure] at hused
  rcases hused with hu | hu | hu | hu <;> cases hu

end Flow

end EapPeer

end Hostap
