import Hostap.Auth.Sm

/-!
# The PTK a frame was made with

The loop of `SM_STATE(WPA_PTK, PTKCALCNEGOTIATING)` and `wpa_try_alt_snonce()` tries the PMKs of a station until
the PTK that is derived from one of them verifies the frame. Of the station the loop only changes the XXKey
(`findPtk_frame`).
-/

namespace Hostap

open Octets

/-! ## Requests -/

/-- `wpa_request_new_ptk()`. -/
def wpaRequestNewPtk (sm : WpaStateMachine) : WpaStateMachine :=
  { sm with ptkRequest := true, ptkValid := false }

/-- `wpa_remove_ptk()`. -/
def wpaRemovePtk (sm : WpaStateMachine) : WpaStateMachine :=
  { sm with ptkValid := false, ptk := {}, pairwiseSet := false }

/-! ## Looking for a PTK -/

def tryPsk (psk : Pmk) (sm : WpaStateMachine) : WpaStateMachine :=
  { sm with
    xxkey := if sm.wpaKeyMgmt = .ftPsk then psk.octets else sm.xxkey
    secrets := sm.secrets ++ [psk.octets] }

/-- A PTK that verifies a frame, with the PMK it came from and the frame, its Key Data in the
clear where it was protected with AES-SIV. -/
structure FoundPtk where
  ptk : WpaPtk
  pmk : Pmk
  frame : Bytes

/-- One PMK tried: `none` when no PTK can be derived, `some none` when it does not verify. -/
def tryPmk (lib : RsnLib) (conf : WpaAuthConfig) (env : AuthEnv) (micLen : Nat) (snonce : Bytes)
    (frame : Bytes) (pmk : Pmk) (sm : WpaStateMachine) : Option (Option FoundPtk) :=
  (wpaDerivePtkAuth lib conf env snonce pmk.octets sm).map fun ptk =>
    if micLen ≠ 0 then
      if wpaVerifyKeyMic lib sm.wpaKeyMgmt pmk.octets.length ptk frame then some ⟨ptk, pmk, frame⟩
      else none
    else
      (wpaAeadDecrypt lib env ptk frame).map fun frame => ⟨ptk, pmk, frame⟩

/-- The loop over the PSKs, shared by `SM_STATE(WPA_PTK, PTKCALCNEGOTIATING)` and
`wpa_try_alt_snonce()`. -/
def tryPsks (lib : RsnLib) (conf : WpaAuthConfig) (env : AuthEnv) (micLen : Nat) (snonce : Bytes)
    (frame : Bytes) : List Pmk → WpaStateMachine → Option FoundPtk × WpaStateMachine
  | [], sm => (none, sm)
  | psk :: psks, sm =>
    let sm := tryPsk psk sm
    match tryPmk lib conf env micLen snonce frame psk sm with
    | none => (none, sm)
    | some (some found) => (some found, sm)
    | some none => tryPsks lib conf env micLen snonce frame psks sm

/-- The loop `for (;;)` that looks for a PTK. -/
def findPtk (lib : RsnLib) (conf : WpaAuthConfig) (env : AuthEnv) (micLen : Nat) (snonce : Bytes)
    (frame : Bytes) (sm : WpaStateMachine) : Option FoundPtk × WpaStateMachine :=
  if sm.usesPsks then
    tryPsks lib conf env micLen snonce frame env.psks sm
  else
    ((tryPmk lib conf env micLen snonce frame sm.pmk sm).join, sm)

variable {lib : RsnLib} {conf : WpaAuthConfig} {env : AuthEnv}

theorem tryPsks_frame (micLen : Nat) (snonce frame : Bytes) (psks : List Pmk)
    (sm : WpaStateMachine) :
    ∃ xxkey secrets, (tryPsks lib conf env micLen snonce frame psks sm).2 =
      { sm with xxkey := xxkey, secrets := secrets } := by
  induction psks generalizing sm with
  | nil => exact ⟨_, _, rfl⟩
  | cons psk psks ih =>
    unfold tryPsks
    simp only
    split
    · exact ⟨_, _, rfl⟩
    · exact ⟨_, _, rfl⟩
    · obtain ⟨x, s, h⟩ := ih (tryPsk psk sm)
      exact ⟨x, s, h⟩

theorem findPtk_frame (lib : RsnLib) (conf : WpaAuthConfig) (env : AuthEnv) (micLen : Nat)
    (snonce frame : Bytes) (sm : WpaStateMachine) :
    ∃ xxkey secrets, (findPtk lib conf env micLen snonce frame sm).2 =
      { sm with xxkey := xxkey, secrets := secrets } := by
  unfold findPtk
  split
  · exact tryPsks_frame micLen snonce frame env.psks sm
  · exact ⟨_, _, rfl⟩

end Hostap
