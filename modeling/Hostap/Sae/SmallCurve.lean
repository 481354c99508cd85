import Hostap.Sae.Ap
import Mathlib.Data.ZMod.Basic

/-!
# A small curve to run the code on

The curve `y^2 = x^3 + x + 1` over the field with seven elements has five points, a group of
prime order generated by `(0, 1)`. A point is its discrete logarithm in `ZMod 5`, and the curve
handle computes with the coordinates the multiples of the generator really have. Together with
a fixed tag in place of HMAC-SHA256 this makes a library on which whole exchanges can be evaluated.
-/

namespace Hostap

open Octets

def smallCurveCoordinates (p : ZMod 5) : Option (Nat × Nat) :=
  match p with
  | 0 => none
  | 1 => some (0, 1)
  | 2 => some (2, 5)
  | 3 => some (2, 2)
  | 4 => some (0, 6)

def smallCurvePoint (x y : Nat) : Option (ZMod 5) :=
  [1, 2, 3, 4].find? fun p => smallCurveCoordinates p = some (x, y)

def smallCurve : CryptoEc (ZMod 5) where
  prime := 7
  order := 5
  a := 1
  b := 1
  pointInit := 0
  pointMul p n := some (n * p)
  pointAdd p q := some (p + q)
  pointInvert p := some (-p)
  pointIsAtInfinity p := p = 0
  affineCoordinates := smallCurveCoordinates
  pointFromCoordinates := smallCurvePoint
  pointIsOnCurve _ := true
  pointSolveYCoord x odd :=
    ([1, 2, 3, 4] : List (ZMod 5)).find? fun p =>
      (smallCurveCoordinates p).any fun (x', y') => x' = x ∧ (y' % 2 = 1) = odd
  pointCmpEq p q := p = q

def smallLib : CryptoLib (ZMod 5) where
  hmacSha256 _ _ := List.replicate 32 0x41
  hmacSha256_length _ _ := rfl
  ecInit group := if group = 19 ∨ group = 20 then some smallCurve else none
  dhGroupsGet _ := none

def smallConf : HostapdConf where
  mesh := false
  wpaPassphrase := some [0x70]
  ownAddr := [2, 0, 0, 0, 0, 0]

def smallSta : SaeAp (ZMod 5) where
  sta := { addr := [2, 0, 0, 0, 0, 1] }

/-- A source whose draws have the value `v` in three bits. -/
def draw3 (v : Nat) : Option (Nat → UInt8) := some fun _ => UInt8.ofNat (32 * v)

/-- Draws for one own commit: dummy password, a residue and a non-residue, forty blinding values,
`rand` and `mask`. -/
def commitDraws (rand mask : Nat) : Rand :=
  [draw3 0, draw3 1, draw3 3] ++ List.replicate 40 (draw3 1) ++ [draw3 rand, draw3 mask]

def smallEnv (rand mask : Nat) : SaeEnv where
  rand := commitDraws rand mask
  sendMlme := [true, true, true]

def smallCommit (scalar : UInt8) : SaeEvent :=
  .auth ⟨1, wlanStatusSuccess, [19, 0, scalar, 0, 1]⟩ (smallEnv 2 2)

def smallConfirm : SaeEvent :=
  .auth ⟨2, wlanStatusSuccess, [1, 0] ++ List.replicate 32 0x41⟩ (smallEnv 2 2)

def smallTag : Bytes := List.replicate 32 0x41

def smallInstance (scalar : Nat) (kck pmk pmkid : Bytes) : SaeData (ZMod 5) where
  state := .committed
  pmk := pmk
  pmkid := pmkid
  peerCommitScalar := some scalar
  group := 19
  tmp := some
    { kck
      ownCommitScalar := some 4
      ownCommitElementEcc := some 1
      peerCommitElementEcc := some 1
      pweEcc := some 2
      saeRand := some 2
      group := .ecc smallCurve }

def smallCommitted : SaeAp (ZMod 5) :=
  { smallSta with
    sae := some (smallInstance 3 smallTag smallTag [2])
    log := [.tx 1 0 [19, 0, 4, 0, 1],
      .processCommit (some ⟨4, .point 1, 3, .point 1⟩) smallTag smallTag] }

def smallUnkeyed : SaeAp (ZMod 5) :=
  { smallSta with
    sae := some (smallInstance 2 (zeros 32) (zeros 32) (zeros 16))
    log := [.tx 1 0 [19, 0, 4, 0, 1], .processCommitFailed, .tx 1 1 []] }

def smallAccepted (scalar : Nat) (kck pmk pmkid : Bytes) (log : List (SaeObs (ZMod 5))) :
    SaeAp (ZMod 5) :=
  { smallSta with
    sta := { smallSta.sta with auth := true, authAlg := wlanAuthSae }
    sae := some { smallInstance scalar kck pmk pmkid with
      state := .accepted, sendConfirm := 0xffff, rc := 1 }
    log := log ++ [
      .confirmVerified (some ⟨4, .point 1, scalar, .point 1⟩) kck,
      .tx 2 0 ([0, 0] ++ smallTag),
      .acceptSta pmk pmkid] }

def smallOtherGroup : SaeEvent := .auth ⟨1, wlanStatusSuccess, [20, 0]⟩ {}

def smallCleared : SaeAp (ZMod 5) :=
  { smallAccepted 3 smallTag smallTag [2] smallCommitted.log with
    sae := some { group := 20, tmp := some { group := .ecc smallCurve } }
    log := (smallAccepted 3 smallTag smallTag [2] smallCommitted.log).log ++ [.tx 1 1 []] }

theorem step_smallCommit :
    saeApStep smallLib smallConf smallSta (smallCommit 3) = .ok smallCommitted := by rfl

theorem step_smallCommit_identity :
    saeApStep smallLib smallConf smallSta (smallCommit 2) = .ok smallUnkeyed := by rfl

theorem step_smallConfirm :
    saeApStep smallLib smallConf smallCommitted smallConfirm =
      .ok (smallAccepted 3 smallTag smallTag [2] smallCommitted.log) := by rfl

theorem step_smallConfirm_unkeyed :
    saeApStep smallLib smallConf smallUnkeyed smallConfirm =
      .ok (smallAccepted 2 (zeros 32) (zeros 32) (zeros 16) smallUnkeyed.log) := by rfl

theorem step_smallOtherGroup :
    saeApStep smallLib smallConf (smallAccepted 3 smallTag smallTag [2] smallCommitted.log)
      smallOtherGroup = .ok smallCleared := by rfl

end Hostap
