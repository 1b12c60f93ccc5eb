import Hiya.Ssh.SecurityKey

/-! `sk_sign` of `bio_ssh_sk.c`: the assertion for a challenge, and the two numbers of
the signature taken out of its response. -/

namespace Hiya.Ssh
open Library Cbor Fido2

def cmdGetAssertion : UInt8 := 0x02

/-- The arguments of `sk_sign` that are looked at. -/
structure Signing where
  alg : UInt32
  data : Option Bytes
  application : Option Bytes
  keyHandle : Option Bytes

structure SignMemory where
  response : Bool
  r : Bool
  s : Bool

/-- `sk_sign_response`; an absent number is a null pointer. -/
structure SignResponse where
  flags : UInt8
  counter : UInt32
  sigR : Option Bytes
  sigS : Option Bytes
  deriving DecidableEq, Repr

def SignResponse.zero : SignResponse where
  flags := 0
  counter := 0
  sigR := none
  sigS := none

def allowListItems : Bytes → List (Encode Unit)
  | [] => []
  | keyHandle => [encodeUint 0x03, encodeArray 1, encodeMap 2, encodeText "id", encodeBstr keyHandle, encodeText "type",
      encodeText "public-key"]

def signItems (data application keyHandle : Bytes) : List (Encode Unit) :=
  [encodeMap (if keyHandle = [] then 2 else 3), encodeUint 0x01, encodeTstr application,
    encodeUint 0x02, encodeBstr (clientDataHash data)] ++ allowListItems keyHandle

/-- The number in front: a tag, a length and the bytes, without one zero in front of them.
One whose length is nothing or too much stays unread, behind its tag and its length. -/
def derNumber (bytes : Bytes) : Option Bytes × Bytes :=
  match bytes with
  | 0x02 :: length :: rest =>
    if 0 < length.toNat ∧ length.toNat ≤ rest.length then
      let number := rest.take length.toNat
      (some (if number.headD 1 = 0 then number.drop 1 else number), rest.drop length.toNat)
    else (none, rest)
  | [0x02] => (none, [])
  | _ => (none, bytes)

theorem derNumber_tagged (length : UInt8) (rest : Bytes) :
    derNumber (0x02 :: length :: rest) =
      if 0 < length.toNat ∧ length.toNat ≤ rest.length then
        let number := rest.take length.toNat
        (some (if number.headD 1 = 0 then number.drop 1 else number), rest.drop length.toNat)
      else (none, rest) := rfl

/-- The two numbers of a signature. A sequence is cut off where the signature ends. -/
def derNumbers (signature : Bytes) : Option Bytes × Option Bytes :=
  match signature with
  | 0x30 :: length :: rest =>
    if signature.length < 6 then (none, none)
    else
      let (r, rest) := derNumber (rest.take length.toNat)
      (r, (derNumber rest).1)
  | _ => (none, none)

theorem derNumbers_sequence (length : UInt8) {rest : Bytes} (long : 4 ≤ rest.length) :
    derNumbers (0x30 :: length :: rest) =
      ((derNumber (rest.take length.toNat)).1, (derNumber (derNumber (rest.take length.toNat)).2).1) :=
  if_neg (by simp only [List.length_cons]; omega)

/-- A signature of another algorithm is cut in half. -/
def signatureNumbers (alg : UInt32) (signature : Bytes) : Option Bytes × Option Bytes :=
  if alg = skEcdsa then derNumbers signature
  else (some (signature.take (signature.length / 2)), some (signature.drop (signature.length / 2)))

def SignResponse.readAuthData (authData : Bytes) (response : SignResponse) : SignResponse :=
  if authData.length ≥ 37 then
    { response with flags := authData.getD 32 0, counter := UInt32.ofNat (beNat ((authData.drop 33).take 4)) }
  else response

def SignResponse.readSignature (memory : SignMemory) (alg : UInt32) (signature : Bytes) (response : SignResponse) :
    SignResponse :=
  if signature = [] then response
  else
    let (r, s) := signatureNumbers alg signature
    { response with sigR := r.bind (dupBytes memory.r), sigS := s.bind (dupBytes memory.s) }

/-- The authenticator data and the signature of a map; a value that is no byte string
leaves what was there. -/
def assertionPair (found : Bytes × Bytes) : Decode (Bytes × Bytes) := do
  let key ← decodeNext
  if key = .uint 0x02 then do pure (← decodeBstr.withDefault found.1, found.2)
  else if key = .uint 0x03 then do pure (found.1, ← decodeBstr.withDefault found.2)
  else passOver found

def findAssertion : Decode (Bytes × Bytes) := do
  let count ← decodeMap
  if count = 0 then Proc.fail .invalid else Proc.repeatTill count assertionPair ([], [])

/-- What is no map, or an empty one, is authenticator data with the signature behind it. -/
def parseAssertion (memory : SignMemory) (alg : UInt32) (rsp : Bytes) : SignResponse :=
  match findAssertion (Decoder.init rsp) with
  | (.ok (authData, signature), _) => (SignResponse.zero.readAuthData authData).readSignature memory alg signature
  | (.error _, _) =>
    if rsp.length ≥ 37 then (SignResponse.zero.readAuthData rsp).readSignature memory alg (rsp.drop 37) else .zero

def skSign (crypto : Crypto) (link : Link) (memory : SignMemory) (args : Signing) : Proc Ctx Unit SignResponse := do
  let data ← given args.data
  let application ← given args.application
  let request ← given (encodeItems maxMsg (signItems data application (args.keyHandle.getD [])))
  let rsp ← fido2SendRecv crypto link cmdGetAssertion request
  let response := parseAssertion memory args.alg rsp
  if memory.response ∧ response.sigR.isSome ∧ response.sigS.isSome then pure response else Proc.fail ()

end Hiya.Ssh
