import Hostap.Rsn.Common

/-!
# A small library to run the handshakes on

A checksum in place of the keyed hashes, and ciphers that only carry it as a tag. What the code
relies on holds of it: a MIC depends on the key and on every octet of the frame, two nonces that
differ in one octet give different keys, and what one side encrypts the other decrypts.
-/

namespace Hostap

open Octets

def smallSum (buf : Bytes) : UInt8 := buf.foldl (· + ·) 0

def smallMac (len : Nat) (key buf : Bytes) : Bytes :=
  (List.range len).map fun i => smallSum key + smallSum buf + UInt8.ofNat i

def smallPrf (key : Bytes) (_label : String) (data : Bytes) (len : Nat) : Bytes :=
  smallMac len key data

def smallRsnLib : RsnLib where
  hmacMd5 := smallMac 16
  hmacSha1 := smallMac 20
  hmacSha256 := smallMac 32
  hmacSha384 := smallMac 48
  hmacSha512 := smallMac 64
  omac1Aes128 := smallMac 16
  sha1Prf := smallPrf
  sha256Prf := smallPrf
  sha384Prf := smallPrf
  sha512Prf := smallPrf
  aesWrap key data := smallMac 8 key data ++ data
  aesUnwrap key data :=
    if data.take 8 = smallMac 8 key (data.drop 8) then some (data.drop 8) else none
  rc4Skip _ _ data := data
  aesSivEncrypt key aad data := smallMac 16 key (aad ++ data) ++ data
  aesSivDecrypt key aad data :=
    if data.take 16 = smallMac 16 key (aad ++ data.drop 16) then some (data.drop 16) else none
  ftKdf _ xxkey snonce anonce sta bssid len :=
    some (smallMac len xxkey (snonce ++ anonce ++ sta ++ bssid))

def smallPmk : Pmk := ⟨List.replicate 32 7, by decide⟩

end Hostap
