import Hiya.Proofs.CredentialStore
import Hiya.Tpm.Specification

/-! The packets the code marshals are the commands it means, and what it reads from a
response is what a conforming TPM put there. -/

namespace Hiya.Tpm
open Library
open Fido2 (Take Takes takes_bytes takes_buf takeBytes)

theorem takes_be (width value : Nat) : Takes (takeBe width) (beBytes width value) (value % 256 ^ width) := by
  intro rest
  rw [takeBe, Proc.bind_of_ok (takes_bytes (beBytes width value) (by simp) rest)]
  rw [Buf.bytes_ofBytes, beNat_beBytes]
  rfl

theorem takes_small {width value : Nat} (fits : value < 256 ^ width) : Takes (takeBe width) (beBytes width value) value := by
  have read := takes_be width value
  rwa [Nat.mod_eq_of_lt fits] at read

theorem takes_handle (handle : Handle) : Takes takeHandle (beBytes 4 handle.toNat) handle := by
  intro rest
  rw [takeHandle, Proc.bind_of_ok (takes_small handle.toNat_lt rest), UInt32.ofNat_toNat]
  rfl

theorem takes_tpm2b {data : Bytes} {room : Nat} (fits : data.length ≤ room) (short : data.length < 256 ^ 2) :
    Takes (takeTpm2b room) (tpm2b data) data := by
  refine .bind (takes_small short) ?_
  rw [if_neg (Nat.not_lt.mpr fits)]
  intro rest
  change (takeBytes data.length >>= fun taken => pure taken.bytes) (data ++ rest) = (.ok data, rest)
  rw [Proc.bind_of_ok (takes_bytes data rfl rest)]
  rfl

theorem takes_sized {data : Bytes} (short : data.length < 256 ^ 2) : Takes takeSized (tpm2b data) data :=
  takes_tpm2b (Nat.le_of_lt_succ short) short

theorem takes_demand {holds : Prop} [Decidable holds] (yes : holds) : Takes (demand holds) [] () := by
  unfold demand
  rw [if_pos yes]
  exact .pure ()

theorem foldl_put (parts : List Bytes) : ∀ held : Bytes, held.length + parts.flatten.length ≤ maxPacketSize →
    (parts.map some).foldl put (some held) = some (held ++ parts.flatten) := by
  induction parts with
  | nil =>
    intro held _
    simp
  | cons part rest ih =>
    intro held fits
    rw [List.flatten_cons, List.length_append] at fits
    have room : ¬ maxPacketSize < held.length + part.length := by omega
    rw [List.map_cons, List.foldl_cons]
    change (rest.map some).foldl put (if maxPacketSize < held.length + part.length then none else some (held ++ part)) = _
    rw [if_neg room, ih (held ++ part) (by rw [List.length_append]; omega), List.append_assoc, List.flatten_cons]

theorem foldl_put_none (fields : List Field) : fields.foldl put none = none := by
  induction fields with
  | nil => rfl
  | cons field rest ih => exact ih

theorem foldl_put_some {parts : List Bytes} {held bytes : Bytes} (short : held.length ≤ maxPacketSize)
    (done : (parts.map some).foldl put (some held) = some bytes) : held.length + parts.flatten.length ≤ maxPacketSize := by
  induction parts generalizing held with
  | nil => simpa using short
  | cons part rest ih =>
    rw [List.map_cons, List.foldl_cons] at done
    change (rest.map some).foldl put (if maxPacketSize < held.length + part.length then none
      else some (held ++ part)) = _ at done
    split at done
    · rw [foldl_put_none] at done
      cases done
    next room =>
      have later := ih (by rw [List.length_append]; omega) done
      rw [List.length_append] at later
      rw [List.flatten_cons, List.length_append]
      omega

def headerParts (tag code : Nat) : List Bytes := [beBytes 2 tag, beBytes 4 0, beBytes 4 code]

theorem headerParts_length (tag code : Nat) : (headerParts tag code).flatten.length = 10 := by simp [headerParts]

theorem finalize_header (tag code : Nat) (body : Bytes) :
    finalize ((headerParts tag code).flatten ++ body) = framed tag code body := by
  have length : ((headerParts tag code).flatten ++ body).length = 10 + body.length := by
    rw [List.length_append, headerParts_length]
  have front : ((headerParts tag code).flatten ++ body).take 2 = beBytes 2 tag := by
    have shape : (headerParts tag code).flatten ++ body = beBytes 2 tag ++ (beBytes 4 0 ++ (beBytes 4 code ++ body)) := by
      simp [headerParts]
    rw [shape]
    exact List.take_left' (beBytes_length 2 tag)
  have back : ((headerParts tag code).flatten ++ body).drop 6 = beBytes 4 code ++ body := by
    have shape : (headerParts tag code).flatten ++ body = (beBytes 2 tag ++ beBytes 4 0) ++ (beBytes 4 code ++ body) := by
      simp [headerParts]
    rw [shape]
    exact List.drop_left' (by simp)
  unfold finalize framed
  rw [length, front, back, List.append_assoc]

/-- What fits is sent as a packet that says its own size. -/
theorem marshal_fits {tag code : Nat} {parts : List Bytes} (fits : 10 + parts.flatten.length ≤ maxPacketSize) :
    marshal (commandHeader tag code ++ parts.map some) = some (framed tag code parts.flatten) := by
  have shape : commandHeader tag code ++ parts.map some = (headerParts tag code ++ parts).map some := by
    rw [List.map_append]
    rfl
  unfold marshal
  have total : ([] : Bytes).length + (headerParts tag code ++ parts).flatten.length ≤ maxPacketSize := by
    rw [List.flatten_append, List.length_append, headerParts_length, List.length_nil, Nat.zero_add]
    exact fits
  rw [shape, foldl_put _ [] total, List.nil_append, List.flatten_append]
  exact congrArg some (finalize_header tag code parts.flatten)

theorem marshal_some {tag code : Nat} {parts : List Bytes} {command : Bytes}
    (done : marshal (commandHeader tag code ++ parts.map some) = some command) :
    10 + parts.flatten.length ≤ maxPacketSize ∧ command = framed tag code parts.flatten := by
  have shape : commandHeader tag code ++ parts.map some = (headerParts tag code ++ parts).map some := by
    rw [List.map_append]
    rfl
  have fits : 10 + parts.flatten.length ≤ maxPacketSize := by
    unfold marshal at done
    rw [shape] at done
    obtain ⟨bytes, written, -⟩ := Option.map_eq_some_iff.mp done
    have total := foldl_put_some (Nat.zero_le _) written
    rwa [List.flatten_append, List.length_append, headerParts_length, List.length_nil, Nat.zero_add] at total
  rw [marshal_fits fits] at done
  exact ⟨fits, (Option.some.inj done).symm⟩

theorem parse_whole {tag code : Nat} {body : Bytes} {command : Command} (tagFits : tag < 256 ^ 2) (codeFits : code < 256 ^ 4)
    (short : 10 + body.length ≤ maxPacketSize) (read : takeBody tag code body = (.ok command, [])) :
    parseCommand (framed tag code body) = some command := by
  have length : (framed tag code body).length = 10 + body.length := by
    simp [framed]
    omega
  have sizeFits : 10 + body.length < 256 ^ 4 := lt_of_le_of_lt short (by decide)
  have whole : takeCommand (10 + body.length) (framed tag code body) = (.ok command, []) := by
    unfold takeCommand framed
    rw [Proc.bind_of_ok (takes_small tagFits _), Proc.bind_of_ok (takes_small sizeFits _),
      Proc.bind_of_ok (takes_small codeFits _)]
    have sized : demand (10 + body.length = 10 + body.length) body = (.ok (), body) := takes_demand rfl body
    rw [Proc.bind_of_ok sized]
    exact read
  unfold parseCommand
  rw [length, whole]

theorem parse_framed {tag code : Nat} {body : Bytes} {command : Command} (tagFits : tag < 256 ^ 2) (codeFits : code < 256 ^ 4)
    (short : 10 + body.length ≤ maxPacketSize) (takes : Takes (takeBody tag code) body command) :
    parseCommand (framed tag code body) = some command := by
  have read := takes []
  rw [List.append_nil] at read
  exact parse_whole tagFits codeFits short read

def passwordParts (auth : Bytes) : List Bytes :=
  [beBytes 4 (4 + 2 + 1 + 2 + auth.length), beBytes 4 rsPw.toNat, beBytes 2 0, beBytes 1 0x01, tpm2b auth]

theorem passwordAuth_parts {auth : Bytes} (short : auth.length ≤ 0xFFFF) :
    passwordAuth auth = (passwordParts auth).map some :=
  if_neg (Nat.not_lt.mpr short)

def byPassword (auth : Bytes) : Authorization := { session := rsPw, nonce := [], attributes := 1, hmac := auth }

theorem takes_password {auth : Bytes} (short : auth.length ≤ 0xFFFF) :
    Takes takeAuthorization (passwordParts auth).flatten (byPassword auth) := by
  have shape : (passwordParts auth).flatten = beBytes 4 (4 + 2 + 1 + 2 + auth.length) ++ (beBytes 4 rsPw.toNat ++
      (tpm2b [] ++ (beBytes 1 0x01 ++ (tpm2b auth ++ ([] ++ []))))) := by
    simp [passwordParts, tpm2b]
  rw [shape]
  exact .bind (takes_small (show _ < 256 ^ 4 by omega)) <| .bind (takes_handle rsPw) <| .bind (takes_sized (by decide)) <|
    .bind (takes_small (by decide)) <| .bind (takes_sized (Nat.lt_succ_of_le short)) <|
    .bind (takes_demand (by simp)) (.pure _)

theorem takes_readPublic (handle : Handle) :
    Takes (takeBody stNoSessions ccReadPublic) (beBytes 4 handle.toNat) (.readPublic handle) := by
  have shape : beBytes 4 handle.toNat = beBytes 4 handle.toNat ++ [] := (List.append_nil _).symm
  rw [shape]
  exact .bind (takes_handle handle) (.pure _)

theorem takes_flushContext (handle : Handle) :
    Takes (takeBody stNoSessions ccFlushContext) (beBytes 4 handle.toNat) (.flushContext handle) := by
  have shape : beBytes 4 handle.toNat = beBytes 4 handle.toNat ++ [] := (List.append_nil _).symm
  rw [shape]
  exact .bind (takes_handle handle) (.pure _)

theorem takes_load {parent : Handle} {priv pub : Bytes} (privShort : priv.length < 256 ^ 2)
    (pubShort : pub.length < 256 ^ 2) :
    Takes (takeBody stSessions ccLoad) (beBytes 4 parent.toNat ++ ((passwordParts []).flatten ++ (tpm2b priv ++ tpm2b pub)))
      (.load parent (byPassword []) priv pub) := by
  have shape : tpm2b pub = tpm2b pub ++ [] := (List.append_nil _).symm
  rw [shape]
  exact .bind (takes_handle parent) <| .bind (takes_password (Nat.zero_le _)) <| .bind (takes_sized privShort) <|
    .bind (takes_sized pubShort) (.pure _)

theorem takes_unseal {item : Handle} {auth : Bytes} (short : auth.length ≤ 0xFFFF) :
    Takes (takeBody stSessions ccUnseal) (beBytes 4 item.toNat ++ (passwordParts auth).flatten)
      (.unsealItem item (byPassword auth)) := by
  have shape : (passwordParts auth).flatten = (passwordParts auth).flatten ++ [] := (List.append_nil _).symm
  rw [shape]
  exact .bind (takes_handle item) <| .bind (takes_password short) (.pure _)

def sealingArea (attributes : Nat) (policy : Bytes) : PublicArea where
  nameAlg := algSha256
  attributes
  policy
  unique := []

def createParts (data auth : Bytes) (attributes : Nat) (policy : Bytes) : List Bytes :=
  [beBytes 2 (2 + auth.length + 2 + data.length), tpm2b auth, tpm2b data, beBytes 2 (2 + 2 + 4 + 2 + policy.length + 2 + 2),
    beBytes 2 algKeyedHash, beBytes 2 algSha256, beBytes 4 attributes, tpm2b policy, beBytes 2 algNull, beBytes 2 0,
      beBytes 2 0,
    beBytes 4 0]

theorem takes_create {parent : Handle} {data auth policy : Bytes} {attributes : Nat}
    (fits : 2 + auth.length + 2 + data.length ≤ 0xFFFF)
    (attributesFit : attributes < 256 ^ 4) (policyShort : policy.length ≤ 32) :
    Takes (takeBody stSessions ccCreate)
      (beBytes 4 parent.toNat ++ ((passwordParts []).flatten ++ (createParts data auth attributes policy).flatten))
      (.create parent (byPassword []) auth data (sealingArea attributes policy) [] []) := by
  have shape : (createParts data auth attributes policy).flatten =
      (beBytes 2 (2 + auth.length + 2 + data.length) ++ (tpm2b auth ++ (tpm2b data ++ ([] ++ [])))) ++
      ((beBytes 2 (2 + 2 + 4 + 2 + policy.length + 2 + 2) ++ (beBytes 2 algKeyedHash ++ (beBytes 2 algSha256 ++
        (beBytes 4 attributes ++ (tpm2b policy ++ (beBytes 2 algNull ++ (tpm2b [] ++ ([] ++ [])))))))) ++
      (tpm2b [] ++ ((beBytes 4 0 ++ []) ++ []))) := by
    simp [createParts, tpm2b]
  have sensitive : Takes takeSensitive (beBytes 2 (2 + auth.length + 2 + data.length) ++
    (tpm2b auth ++ (tpm2b data ++ ([] ++ []))))
      (auth, data) :=
    .bind (takes_small (Nat.lt_succ_of_le fits)) <| .bind (takes_sized (show _ < 256 ^ 2 by omega)) <|
      .bind (takes_sized (show _ < 256 ^ 2 by omega)) <| .bind (takes_demand (by omega)) (.pure _)
  have area : Takes takePublicArea (beBytes 2 (2 + 2 + 4 + 2 + policy.length + 2 + 2) ++ (beBytes 2 algKeyedHash ++
      (beBytes 2 algSha256 ++ (beBytes 4 attributes ++ (tpm2b policy ++ (beBytes 2 algNull ++ (tpm2b [] ++ ([] ++ []))))))))
      (sealingArea attributes policy) :=
    .bind (takes_small (show _ < 256 ^ 2 by omega)) <| .bind (takes_small (by decide)) <| .bind (takes_small (by decide)) <|
      .bind (takes_small attributesFit) <| .bind (takes_sized (show _ < 256 ^ 2 by omega)) <|
        .bind (takes_small (by decide)) <|
      .bind (takes_sized (by decide)) <| .bind (takes_demand ⟨rfl, rfl, by simp; omega⟩) (.pure _)
  have selections : Takes takeSelections (beBytes 4 0 ++ []) [] := .bind (takes_small (by decide)) (.pure _)
  rw [shape]
  exact .bind (takes_handle parent) <| .bind (takes_password (Nat.zero_le _)) <| .bind sensitive <| .bind area <|
    .bind (takes_sized (by decide)) <| .bind selections (.pure _)

end Hiya.Tpm
