import Hiya.Fido2.Process

/-! Primitives, contexts and requests simple enough to compute with. The cipher
leaves the text as it is and tags it with its key, which is all the proofs ask of a
real one: a text opens under the key it was sealed with and under no other. -/

namespace Hiya.Fido2
open Library

def fitTo (size : Nat) (data : Bytes) : Buf size :=
  .ofBytes ((data ++ List.replicate size 0).take size) (by simp)

def keyTag (key : Buf 32) : Buf 16 := fitTo 16 key.bytes

def tagCipher : Crypto where
  hash data := some (fitTo 32 data)
  leftover _ := .zero 32
  mac key data := some (fitTo 32 (key.bytes.take 16 ++ data))
  hkdfSha256 _ secret _ := some (fitTo 32 secret)
  gcmSeal key _ _ plain := some (plain, keyTag key)
  gcmOpen key _ _ text tag := if tag = keyTag key then some text else none
  cbcEncrypt _ plain := some plain
  cbcDecrypt _ text := some text
  ecdhShared own _ := some own
  ecdsaSign key hash _ := some (.ofBytes (hash.bytes ++ key.bytes) (by simp))

theorem tagCipher_exact : tagCipher.GcmExact := by
  intro size key nonce aad plain text tag
  simp only [tagCipher, Option.ite_none_right_eq_some, Option.some.injEq, Prod.mk.injEq]
  constructor
  · rintro ⟨sealed, same⟩
    exact ⟨same.symm, sealed.symm⟩
  · rintro ⟨same, sealed⟩
    exact ⟨sealed.symm, same.symm⟩

/-- Draws that depend on one byte, so that two commands can draw different ids. -/
def plainEnv (seed : UInt8) : Env where
  now := 0
  time := 0
  userVerified := true
  ecdsaKeypair := some { privateKey := fitTo 32 [seed], publicKey := fitTo 65 [4] }
  ecdhKeypair := none
  credNonce := some (fitTo 12 [seed])
  hmacSecret := some (fitTo 32 [seed])
  pinToken := none
  templateId := none
  saveNonce := some (.zero 12)
  signEntropy := []

def plainKeypair : Keypair := { privateKey := .zero 32, publicKey := .zero 65 }

/-- A context after start-up on an empty disk. -/
def plainCtx (verifyUser : Bool) : Ctx :=
  (Ctx.fresh (plainEnv 0) { privateKey := .zero 32, publicKey := .zero 65 } (.zero 32) none).setUvCallback verifyUser

def plainRequest (cmd seed : UInt8) (body : Bytes) : Request where
  cmd
  body
  capacity := 1024
  env := plainEnv seed

def makeParams : Bytes :=
  [0x01, 0x58, 0x20] ++ List.replicate 32 0 ++ [0x02, 0xA1, 0x62, 0x69, 0x64, 0x61, 0x61] ++
    [0x03, 0xA1, 0x62, 0x69, 0x64, 0x41, 0x01] ++ [0x04, 0x81, 0xA2, 0x63] ++ ascii "alg" ++ [0x26, 0x64] ++
    ascii "type" ++ [0x6A] ++ ascii "public-key"

/-- A registration that keeps nothing in the table. -/
def makeRequest (seed : UInt8) : Request := plainRequest 0x01 seed ([0xA4] ++ makeParams)

/-- A registration of a resident credential with a protection level. -/
def residentRequest (seed level : UInt8) : Request :=
  plainRequest 0x01 seed ([0xA6] ++ makeParams ++ [0x06, 0xA1, 0x6B] ++ ascii "credProtect" ++ [level] ++
    [0x07, 0xA1, 0x62] ++ ascii "rk" ++ [0xF5])

def hmacRequest (seed : UInt8) : Request :=
  plainRequest 0x01 seed ([0xA6] ++ makeParams ++ [0x06, 0xA1, 0x6B] ++ ascii "hmac-secret" ++ [0xF5] ++
    [0x07, 0xA1, 0x62] ++ ascii "rk" ++ [0xF5])

/-- The id such a registration makes. -/
def plainId (seed : UInt8) : CredentialId :=
  .ofSlice _ ((fitTo 12 [seed]).bytes ++ (fitTo 32 [seed]).bytes ++ (fitTo 32 (ascii "a")).bytes ++ (keyTag (.zero 32)).bytes)

/-- An assertion for the party `a` without an allow list. -/
def discoverRequest : Request := plainRequest 0x02 0 ([0xA2, 0x01, 0x61, 0x61, 0x02, 0x58, 0x20] ++ List.replicate 32 0)

/-- An assertion for the party `a` that allows one id. -/
def allowRequest (id : CredentialId) : Request :=
  plainRequest 0x02 0 ([0xA3, 0x01, 0x61, 0x61, 0x02, 0x58, 0x20] ++ List.replicate 32 0 ++
    [0x03, 0x81, 0xA1, 0x62, 0x69, 0x64, 0x58, UInt8.ofNat id.bytes.length] ++ id.bytes)

/-- The deletion of one id, authorised by the callback. -/
def deleteRequest (id : CredentialId) : Request :=
  plainRequest 0x0A 0 ([0xA2, 0x01, 0x06, 0x02, 0xA1, 0x02, 0xA1, 0x62] ++ ascii "id" ++
    [0x58, UInt8.ofNat id.bytes.length] ++ id.bytes)

def pinEnv (seed : UInt8) : Env :=
  { plainEnv seed with
    ecdhKeypair := some { privateKey := .zero 32, publicKey := .zero 65 }, pinToken := some (fitTo 32 [seed]) }

def pinRequest (seed fields subCommand : UInt8) (rest : Bytes) : Request :=
  { plainRequest 0x06 seed ([fields, 0x01, 0x01, 0x02, subCommand, 0x03, 0xA2, 0x21, 0x58, 0x20] ++ List.replicate 32 0 ++
      [0x22, 0x58, 0x20] ++ List.replicate 32 0 ++ rest) with env := pinEnv seed }

def setPinRequest : Request :=
  pinRequest 1 0xA5 0x03 ([0x04, 0x50] ++ List.replicate 16 0 ++ [0x05, 0x58, 0x40] ++ ascii "1234" ++ List.replicate 60 0)

def pinTokenRequest (pin : String) : Request :=
  pinRequest 1 0xA4 0x05 ([0x06, 0x50] ++ (fitTo 16 (ascii pin)).bytes)

def firstSlot : CredSlot := ⟨0, by decide⟩

def resetRequest : Request := plainRequest 0x07 0 []

end Hiya.Fido2
