import Hiya.Proofs.TpmPackets

/-! What was sealed without a register comes back from every TPM that keeps to its
specification. What was sealed to a register never does: its response is gone by the time
it is read. -/

namespace Hiya.Tpm
open Library
open Proc (bind_of_ok bind_eq_ok)
open Fido2 (Take Takes)

theorem framed_length (tag code : Nat) (body : Bytes) : (framed tag code body).length = 10 + body.length := by
  simp [framed]
  omega

theorem framed_code {tag code : Nat} {body : Bytes} (fits : code < 256 ^ 4) :
    beNat (((framed tag code body).drop 6).take 4) = code := by
  have shape : framed tag code body = (beBytes 2 tag ++ beBytes 4 (10 + body.length)) ++ (beBytes 4 code ++ body) := by
    simp [framed]
  rw [shape, List.drop_left' (by simp), List.take_left' (beBytes_length 4 code), beNat_beBytes, Nat.mod_eq_of_lt fits]

theorem framed_body (tag code : Nat) (body : Bytes) : (framed tag code body).drop 10 = body := by
  have shape : framed tag code body = (beBytes 2 tag ++ (beBytes 4 (10 + body.length) ++ beBytes 4 code)) ++ body := by
    simp [framed]
  rw [shape]
  exact List.drop_left' (by simp)

section
variable {σ : Type} {device : Device σ} {view : σ → TpmState}

theorem execute_framed {packet body : Bytes} {tag code : Nat} {ctx : Ctx σ} {tpm : σ}
    (sent : device.transfer packet ctx.tpm = (.reply (framed tag code body), tpm)) (short : 10 + body.length ≤ maxPacketSize)
    (fits : code < 256 ^ 4) : execute device packet ctx = (.ok code, { ctx with tpm, rsp := framed tag code body }) := by
  have whole : (framed tag code body).take maxPacketSize = framed tag code body :=
    List.take_of_length_le (by rwa [framed_length])
  have long : ¬ (framed tag code body).length < 10 := by
    rw [framed_length]
    omega
  unfold execute
  rw [sent]
  dsimp only
  rw [whole, if_neg long, framed_code fits]

theorem readResponse_framed {α : Type} {read : Take α} {tag code : Nat} {front rest : Bytes} {value : α} {ctx : Ctx σ}
    (held : ctx.rsp = framed tag code (front ++ rest)) (takes : Takes read front value) :
    readResponse read ctx = (.ok value, ctx) := by
  unfold readResponse
  rw [held, framed_body, takes rest]

/-- A command that is sent is answered as the specification says, and the answer decides
what comes of it. -/
theorem perform_sent (conforms : Conforms device view) {tag code : Nat} {parts : List Bytes} {command : Command}
    (tagFits : tag < 256 ^ 2) (codeFits : code < 256 ^ 4) (fits : 10 + parts.flatten.length ≤ maxPacketSize)
    (takes : Takes (takeBody tag code) parts.flatten command) (refusal : Nat → TpmCode) (ctx : Ctx σ) :
    ∃ reply tpm, Allowed command (view ctx.tpm) reply (view tpm) ∧
      (∀ kind body, Succeeds kind body reply →
        perform device (commandHeader tag code ++ parts.map some) refusal ctx = (.ok (), { ctx with tpm, rsp := reply })) ∧
      (Fails reply → ∃ problem,
        perform device (commandHeader tag code ++ parts.map some) refusal ctx =
          (.error problem, { ctx with tpm, rsp := reply })) := by
  obtain ⟨reply, sent, allowed⟩ :=
    conforms (framed tag code parts.flatten) command ctx.tpm (parse_framed tagFits codeFits fits takes)
  have whole : device.transfer (framed tag code parts.flatten) ctx.tpm =
      (.reply reply, (device.transfer (framed tag code parts.flatten) ctx.tpm).2) := Prod.ext sent rfl
  refine ⟨reply, _, allowed, ?_, ?_⟩
  · rintro kind body ⟨short, rfl⟩
    unfold perform
    rw [marshal_fits fits]
    dsimp only
    rw [bind_of_ok (execute_framed whole short (by decide)), if_neg (fun different => different rfl)]
    rfl
  · rintro ⟨rc, nonzero, small, rfl⟩
    refine ⟨refusal rc, ?_⟩
    unfold perform
    rw [marshal_fits fits]
    dsimp only
    rw [bind_of_ok (execute_framed whole (by decide) small), if_pos nonzero]
    rfl

theorem readPublic_present (conforms : Conforms device view) {handle : Handle} {key : Key} {ctx : Ctx σ}
    (present : (view ctx.tpm).keys handle = some key) :
    ∃ area tpm rsp, readPublic device handle 256 ctx = (.ok area, { ctx with tpm, rsp }) ∧ view tpm = view ctx.tpm := by
  have shape : commandHeader stNoSessions ccReadPublic ++ [u32 handle.toNat] =
      commandHeader stNoSessions ccReadPublic ++ [beBytes 4 handle.toNat].map some := rfl
  have takes : Takes (takeBody stNoSessions ccReadPublic) [beBytes 4 handle.toNat].flatten (.readPublic handle) := by
    rw [List.flatten_singleton]
    exact takes_readPublic handle
  have fits : 10 + [beBytes 4 handle.toNat].flatten.length ≤ maxPacketSize := by
    rw [List.flatten_singleton, beBytes_length]
    decide
  obtain ⟨reply, tpm, ⟨same, answers, -⟩, done, -⟩ :=
    perform_sent conforms (by decide) (by decide) fits takes (fun _ => .handle) ctx
  obtain ⟨area, names, small, succeeds⟩ := answers (by rw [present]; exact nofun)
  have performed := done _ _ succeeds
  refine ⟨area, tpm, reply, ?_, same⟩
  unfold readPublic
  rw [shape, bind_of_ok performed]
  exact readResponse_framed succeeds.2 (takes_tpm2b small (lt_of_le_of_lt small (by decide)))

theorem ensurePrimaryKey_present (conforms : Conforms device view) {key : Key} {ctx : Ctx σ}
    (present : (view ctx.tpm).keys ctx.parent = some key) :
    ∃ tpm rsp, ensurePrimaryKey device ctx = (.ok ctx.parent, { ctx with tpm, rsp }) ∧ view tpm = view ctx.tpm := by
  obtain ⟨area, tpm, rsp, done, same⟩ := readPublic_present conforms present
  refine ⟨tpm, rsp, ?_, same⟩
  unfold ensurePrimaryKey
  rw [done]

/-- A pair the parent holds something under is loaded as that. -/
theorem load_held (conforms : Conforms device view) {parent : Handle} {key : Key} {priv pub : Bytes} {item : SealedObject}
    {ctx : Ctx σ} (present : (view ctx.tpm).keys parent = some key) (open? : key.auth = [])
    (held : (view ctx.tpm).holds key priv pub = some item) (privShort : priv.length ≤ 512) (pubShort : pub.length ≤ 512) :
    ∃ handle reached, load device parent priv pub ctx = (.ok handle, reached) ∧
    (view reached.tpm).objects handle = some item := by
  have shape : commandHeader stSessions ccLoad ++ [u32 parent.toNat] ++ passwordAuth [] ++ [sized priv, sized pub] =
      commandHeader stSessions ccLoad ++ ([beBytes 4 parent.toNat] ++ passwordParts [] ++
        [tpm2b priv, tpm2b pub]).map some := rfl
  have flat : ([beBytes 4 parent.toNat] ++ passwordParts [] ++ [tpm2b priv, tpm2b pub]).flatten =
      beBytes 4 parent.toNat ++ ((passwordParts []).flatten ++ (tpm2b priv ++ tpm2b pub)) := by simp
  have fits : 10 + ([beBytes 4 parent.toNat] ++ passwordParts [] ++ [tpm2b priv, tpm2b pub]).flatten.length ≤
    maxPacketSize := by
    rw [flat]
    simp [passwordParts, tpm2b, maxPacketSize]
    omega
  have takes : Takes (takeBody stSessions ccLoad)
    ([beBytes 4 parent.toNat] ++ passwordParts [] ++ [tpm2b priv, tpm2b pub]).flatten
      (.load parent (byPassword []) priv pub) := by
    rw [flat]
    exact takes_load (lt_of_le_of_lt privShort (by decide)) (lt_of_le_of_lt pubShort (by decide))
  obtain ⟨reply, tpm, allowed, done, -⟩ := perform_sent conforms (by decide) (by decide) fits takes (fun _ => .handle) ctx
  obtain ⟨handle, rest, succeeds, same⟩ := (allowed key present).2 ⟨rfl, open?.symm⟩ item held
  have performed := done _ _ succeeds
  refine ⟨handle, { ctx with tpm, rsp := reply }, ?_, ?_⟩
  · unfold load
    rw [if_neg (by omega), shape, bind_of_ok performed]
    exact readResponse_framed succeeds.2 (takes_handle handle)
  · dsimp only
    rw [same]
    exact Function.update_self ..

theorem takes_unsealed {data : Bytes} {room : Nat} (fits : data.length ≤ room) (short : data.length < 256 ^ 2) (size : Nat) :
    Takes (takeUnsealed room) (beBytes 4 size ++ tpm2b data) data := .bind (takes_be 4 size) (takes_tpm2b fits short)

/-- The password an object was made with opens it. -/
theorem unseal_held (conforms : Conforms device view) {handle : Handle} {item : SealedObject} {room : Nat} {ctx : Ctx σ}
    (loaded : (view ctx.tpm).objects handle = some item) (admits : item.attributes.testBit 6 = true)
    (authShort : item.userAuth.length ≤ 4050) (dataShort : item.data.length ≤ 128) (fits : item.data.length ≤ room) :
    (tpmUnseal device handle item.userAuth room ctx).1 = .ok item.data := by
  have small : item.userAuth.length ≤ 0xFFFF := by omega
  have shape : commandHeader stSessions ccUnseal ++ [u32 handle.toNat] ++ passwordAuth item.userAuth =
      commandHeader stSessions ccUnseal ++ ([beBytes 4 handle.toNat] ++ passwordParts item.userAuth).map some := by
    rw [passwordAuth_parts small]
    rfl
  have flat : ([beBytes 4 handle.toNat] ++ passwordParts item.userAuth).flatten =
      beBytes 4 handle.toNat ++ (passwordParts item.userAuth).flatten := by simp
  have room? : 10 + ([beBytes 4 handle.toNat] ++ passwordParts item.userAuth).flatten.length ≤ maxPacketSize := by
    rw [flat]
    simp [passwordParts, tpm2b, maxPacketSize]
    omega
  have takes : Takes (takeBody stSessions ccUnseal) ([beBytes 4 handle.toNat] ++ passwordParts item.userAuth).flatten
      (.unsealItem handle (byPassword item.userAuth)) := by
    rw [flat]
    exact takes_unseal small
  obtain ⟨reply, tpm, ⟨-, -, allowed⟩, done, -⟩ := perform_sent conforms (by decide) (by decide) room? takes unsealRefusal ctx
  obtain ⟨sessions, succeeds⟩ := (allowed item loaded).2 (.inl ⟨admits, rfl, rfl⟩)
  have performed := done _ _ succeeds
  have body : reply = framed stSessions 0 ((beBytes 4 (tpm2b item.data).length ++ tpm2b item.data) ++ sessions) := by
    rw [succeeds.2, withSessions, List.append_assoc]
  unfold tpmUnseal
  rw [shape, bind_of_ok performed,
    readResponse_framed body (takes_unsealed fits (lt_of_le_of_lt dataShort (by decide)) _)]

theorem takeTpm2b_inv {data rest left value : Bytes} {room : Nat} (short : data.length < 256 ^ 2)
    (read : takeTpm2b room (tpm2b data ++ rest) = (.ok value, left)) : data.length ≤ room ∧ value = data ∧ left = rest := by
  by_cases fits : data.length ≤ room
  · rw [takes_tpm2b fits short rest] at read
    cases read
    exact ⟨fits, rfl, rfl⟩
  · have front : (takeBe 2) (beBytes 2 data.length ++ (data ++ rest)) = (.ok data.length, data ++ rest) := takes_small short _
    unfold takeTpm2b at read
    rw [tpm2b, List.append_assoc, bind_of_ok front, if_pos (Nat.lt_of_not_le fits)] at read
    cases read

theorem takeCreated_inv {priv pub more left : Bytes} {value : Bytes × Bytes} {size : Nat}
    (privShort : priv.length < 256 ^ 2) (pubShort : pub.length < 256 ^ 2)
    (read : takeCreated (beBytes 4 size ++ (tpm2b priv ++ (tpm2b pub ++ more))) = (.ok value, left)) :
    value = (priv, pub) ∧ priv.length ≤ 512 ∧ pub.length ≤ 512 := by
  unfold takeCreated at read
  rw [bind_of_ok (takes_be 4 size _)] at read
  obtain ⟨first, middle, tookPriv, later⟩ := bind_eq_ok.mp read
  obtain ⟨privFits, rfl, rfl⟩ := takeTpm2b_inv privShort tookPriv
  split at later
  · cases later
  obtain ⟨second, last, tookPub, final⟩ := bind_eq_ok.mp later
  obtain ⟨pubFits, rfl, rfl⟩ := takeTpm2b_inv pubShort tookPub
  split at final
  · cases final
  cases final
  exact ⟨rfl, privFits, pubFits⟩

theorem perform_fits {tag code : Nat} {parts : List Bytes} {refusal : Nat → TpmCode} {ctx reached : Ctx σ}
    (done : perform device (commandHeader tag code ++ parts.map some) refusal ctx = (.ok (), reached)) :
    10 + parts.flatten.length ≤ maxPacketSize := by
  unfold perform at done
  cases sent : marshal (commandHeader tag code ++ parts.map some) with
  | none =>
    rw [sent] at done
    cases done
  | some packet => exact (marshal_some sent).1

structure Holds (state : TpmState) (parent : Handle) (priv pub : Bytes) (item : SealedObject) : Prop where
  held : ∃ key, state.keys parent = some key ∧ key.auth = [] ∧ state.holds key priv pub = some item
  privShort : priv.length ≤ 512
  pubShort : pub.length ≤ 512
  authShort : item.userAuth.length ≤ 4050
  dataShort : item.data.length ≤ 128

/-- Parts that came in one response have lengths of 16 bits. -/
theorem created_short {priv pub more sessions : Bytes}
    (short : 10 + (withSessions (tpm2b priv ++ (tpm2b pub ++ more)) sessions).length ≤ maxPacketSize) :
    priv.length < 256 ^ 2 ∧ pub.length < 256 ^ 2 := by
  simp only [withSessions, tpm2b, List.length_append, beBytes_length, maxPacketSize] at short
  omega

/-- A command that was sent had room for its password. -/
theorem create_authShort {parent : Handle} {data auth policy : Bytes} {attributes : Nat}
    (fits : 10 + (beBytes 4 parent.toNat ++
    ((passwordParts []).flatten ++ (createParts data auth attributes policy).flatten)).length ≤
      maxPacketSize) : auth.length ≤ 4050 := by
  have inside : auth.length + 40 ≤
      (beBytes 4 parent.toNat ++ ((passwordParts []).flatten ++
        (createParts data auth attributes policy).flatten)).length := by
    simp [passwordParts, createParts, tpm2b]
    omega
  unfold maxPacketSize at fits
  omega

theorem createObject_holds (conforms : Conforms device view) {parent : Handle} {data auth policy priv pub : Bytes}
    {attributes : Nat}
    {ctx reached : Ctx σ} (attributesFit : attributes < 256 ^ 4) (policyShort : policy.length ≤ 32)
    (made : createObject device parent data auth attributes policy ctx = (.ok (priv, pub), reached)) :
    Holds (view reached.tpm) parent priv pub { userAuth := auth, data, attributes, policy } := by
  have shape : commandHeader stSessions ccCreate ++ [u32 parent.toNat] ++ passwordAuth [] ++
      [u16 (2 + auth.length + 2 + data.length), sized auth, sized data] ++
      [u16 (2 + 2 + 4 + 2 + policy.length + 2 + 2), u16 algKeyedHash, u16 algSha256, u32 attributes, sized policy,
        u16 algNull, u16 0] ++
      [u16 0, u32 0] =
      commandHeader stSessions ccCreate ++
        ([beBytes 4 parent.toNat] ++ passwordParts [] ++ createParts data auth attributes policy).map some :=
    rfl
  have flat : ([beBytes 4 parent.toNat] ++ passwordParts [] ++ createParts data auth attributes policy).flatten =
      beBytes 4 parent.toNat ++ ((passwordParts []).flatten ++ (createParts data auth attributes policy).flatten) := by simp
  unfold createObject at made
  split at made
  · cases made
  next small =>
  split at made
  · cases made
  next sensitiveFits =>
  rw [shape] at made
  obtain ⟨_, answered, performed, read⟩ := bind_eq_ok.mp made
  have fits := perform_fits performed
  have takes : Takes (takeBody stSessions ccCreate)
      ([beBytes 4 parent.toNat] ++ passwordParts [] ++ createParts data auth attributes policy).flatten
      (.create parent (byPassword []) auth data (sealingArea attributes policy) [] []) := by
    rw [flat]
    exact takes_create (Nat.le_of_not_lt sensitiveFits) attributesFit policyShort
  obtain ⟨reply, tpm, allowed, done, failed⟩ :=
    perform_sent conforms (by decide) (by decide) fits takes (fun _ => .sealing) ctx
  rcases allowed with ⟨fails, -⟩ | ⟨key, priv', pub', more, sessions, present, password, succeeds, same, held, -⟩
  · obtain ⟨problem, error⟩ := failed fails
    rw [error] at performed
    cases performed
  · rw [done _ _ succeeds] at performed
    cases performed
    have body : framed stSessions 0 (withSessions (tpm2b priv' ++ (tpm2b pub' ++ more)) sessions) =
        framed stSessions 0 (beBytes 4 (tpm2b priv' ++ (tpm2b pub' ++ more)).length ++
          (tpm2b priv' ++ (tpm2b pub' ++ (more ++ sessions)))) := by
      unfold withSessions
      rw [List.append_assoc, List.append_assoc]
    obtain ⟨privShort, pubShort⟩ := created_short succeeds.1
    unfold readResponse at read
    dsimp only at read
    rw [succeeds.2, body, framed_body] at read
    split at read
    next value left took =>
      obtain ⟨rfl, privFits, pubFits⟩ := takeCreated_inv privShort pubShort took
      cases read
      refine ⟨⟨key, ?_, password.2.symm, held⟩, privFits, pubFits, ?_, ?_⟩
      · dsimp only
        rw [same]
        exact present
      · rw [flat] at fits
        exact create_authShort fits
      · exact Nat.le_of_not_lt fun long => small (.inr long)
    · cases read

theorem ensurePrimaryKey_parent {ctx reached : Ctx σ} {handle : Handle}
    (done : ensurePrimaryKey device ctx = (.ok handle, reached)) :
    handle = ctx.parent := by
  unfold ensurePrimaryKey at done
  split at done
  · cases done
    rfl
  · obtain ⟨transient, made, -, stored⟩ := bind_eq_ok.mp done
    obtain ⟨_, persisted, -, last⟩ := bind_eq_ok.mp stored
    cases last
    rfl

theorem parent_persistent (ctx : Ctx σ) : isPersistent ctx.parent = true := by
  unfold Ctx.parent
  split
  next inRange => exact inRange
  next => decide

/-- What sealing leaves behind: a blob of two parts that the parent opens. -/
theorem sealForUser_holds (conforms : Conforms device view) {data auth blob : Bytes} {room : Nat} {ctx reached : Ctx σ}
    (done : sealForUser device data auth room ctx = (.ok blob, reached)) :
    ∃ priv pub, blob = packObject priv pub ∧
      Holds (view reached.tpm) ctx.parent priv pub { userAuth := auth, data, attributes := 0x52, policy := [] } := by
  unfold sealForUser at done
  obtain ⟨primary, ready, ensured, sealed⟩ := bind_eq_ok.mp done
  obtain ⟨⟨priv, pub⟩, made, created, packed⟩ := bind_eq_ok.mp sealed
  have parent := ensurePrimaryKey_parent ensured
  subst parent
  dsimp only at packed
  split at packed
  · cases packed
  · cases packed
    refine ⟨priv, pub, rfl, ?_⟩
    unfold createSealed at created
    split at created
    · cases created
    · exact createObject_holds conforms (by decide) (Nat.zero_le _) created

theorem unpack_pack {priv pub : Bytes} (privShort : priv.length < 256 ^ 2) (pubShort : pub.length < 256 ^ 2) :
    unpackObject (packObject priv pub) = some (priv, pub) := by
  have shape : packObject priv pub = beBytes 2 priv.length ++ (priv ++ (beBytes 2 pub.length ++ pub)) := by
    simp [packObject, tpm2b]
  have whole : (packObject priv pub).length = 2 + priv.length + 2 + pub.length := by
    simp [packObject, tpm2b]
    omega
  have first : beNat ((packObject priv pub).take 2) = priv.length := by
    rw [shape, List.take_left' (beBytes_length 2 _), beNat_beBytes, Nat.mod_eq_of_lt privShort]
  have atPriv : (packObject priv pub).drop 2 = priv ++ (beBytes 2 pub.length ++ pub) := by
    rw [shape, List.drop_left' (beBytes_length 2 _)]
  have behind : (packObject priv pub).drop (2 + priv.length) = beBytes 2 pub.length ++ pub := by
    rw [← List.drop_drop, atPriv, List.drop_left]
  have second : beNat (((packObject priv pub).drop (2 + priv.length)).take 2) = pub.length := by
    rw [behind, List.take_left' (beBytes_length 2 _), beNat_beBytes, Nat.mod_eq_of_lt pubShort]
  have atPub : (packObject priv pub).drop (2 + priv.length + 2) = pub := by
    rw [← List.drop_drop, behind, List.drop_left' (beBytes_length 2 _)]
  unfold unpackObject
  dsimp only
  rw [first, if_neg (by omega), second, if_neg (by omega), atPriv, atPub, List.take_left, List.take_length]

/-- The same TPM at a later time: its persistent keys are there, what they hold too, and
the registers have their old values. -/
structure Later (before after : TpmState) : Prop where
  keys : ∀ handle key, isPersistent handle = true → before.keys handle = some key → after.keys handle = some key
  holds : ∀ key priv pub item, before.holds key priv pub = some item → after.holds key priv pub = some item
  extended : after.extended = before.extended

theorem Holds.later {before after : TpmState} {parent : Handle} {priv pub : Bytes} {item : SealedObject}
    (holds : Holds before parent priv pub item) (persistent : isPersistent parent = true) (kept : Later before after) :
    Holds after parent priv pub item := by
  obtain ⟨key, present, open?, held⟩ := holds.held
  exact { holds with held := ⟨key, kept.keys parent key persistent present, open?, kept.holds key priv pub item held⟩ }

/-- A blob the parent opens gives its data back. -/
theorem unsealForUser_holds (conforms : Conforms device view) {priv pub : Bytes} {item : SealedObject} {room : Nat}
    {ctx : Ctx σ}
    (holds : Holds (view ctx.tpm) ctx.parent priv pub item) (admits : item.attributes.testBit 6 = true)
    (fits : item.data.length ≤ room) : (unsealForUser device (packObject priv pub) item.userAuth room ctx).1 =
    .ok item.data := by
  obtain ⟨key, present, open?, held⟩ := holds.held
  have privShort := holds.privShort
  have pubShort := holds.pubShort
  have long : ¬ (packObject priv pub).length < 4 := by
    simp [packObject, tpm2b]
    omega
  obtain ⟨tpm, rsp, ensured, same⟩ := ensurePrimaryKey_present conforms present
  rw [← same] at present held
  obtain ⟨handle, loaded, done, there⟩ : ∃ handle reached, load device ctx.parent priv pub { ctx with tpm, rsp } =
    (.ok handle, reached) ∧
      (view reached.tpm).objects handle = some item := load_held conforms present open? held privShort pubShort
  unfold unsealForUser
  rw [if_neg long, bind_of_ok ensured, unpack_pack (lt_of_le_of_lt privShort (by decide))
    (lt_of_le_of_lt pubShort (by decide))]
  dsimp only
  rw [bind_of_ok done]
  exact unseal_held conforms there admits holds.authShort holds.dataShort fits

/-- After a flush the response in the context is a bare header. -/
theorem flushContext_rsp (conforms : Conforms device view) (handle : Handle) (ctx : Ctx σ) :
    (flushContext device handle ctx).2.rsp.length = 10 := by
  have shape : commandHeader stNoSessions ccFlushContext ++ [u32 handle.toNat] =
      commandHeader stNoSessions ccFlushContext ++ [beBytes 4 handle.toNat].map some := rfl
  have takes : Takes (takeBody stNoSessions ccFlushContext) [beBytes 4 handle.toNat].flatten (.flushContext handle) := by
    rw [List.flatten_singleton]
    exact takes_flushContext handle
  have fits : 10 + [beBytes 4 handle.toNat].flatten.length ≤ maxPacketSize := by
    rw [List.flatten_singleton, beBytes_length]
    decide
  obtain ⟨reply, tpm, ⟨flushed, absent⟩, done, failed⟩ :=
    perform_sent conforms (by decide) (by decide) fits takes (fun _ => .handle) ctx
  unfold flushContext
  rw [shape]
  by_cases there : (view ctx.tpm).Transient handle
  · obtain ⟨succeeds, -⟩ := flushed there
    rw [done _ _ succeeds]
    dsimp only
    rw [succeeds.2, framed_length]
    rfl
  · obtain ⟨fails, -⟩ := absent there
    obtain ⟨problem, error⟩ := failed fails
    obtain ⟨rc, -, -, same⟩ := fails
    rw [error]
    dsimp only
    rw [same, framed_length]
    rfl

/-- The data of an Unseal under a policy has been overwritten when it is read. -/
theorem unsealPolicy_lost (conforms : Conforms device view) {item session : Handle} {room : Nat} {ctx last : Ctx σ}
    {data : Bytes} :
    unsealPolicy device item session room ctx ≠ (.ok data, last) := by
  intro done
  unfold unsealPolicy at done
  cases sent : marshal (commandHeader stSessions ccUnseal ++
      [u32 item.toNat, u32 (4 + 2 + 1 + 2), u32 session.toNat, u16 0, u8 0x01, u16 0]) with
  | none =>
    rw [sent] at done
    cases done
  | some command =>
    rw [sent] at done
    obtain ⟨rc, flushed, executed, read⟩ := bind_eq_ok.mp done
    split at read
    · cases read
    have bare : flushed.rsp.length = 10 := by
      obtain ⟨-, rfl⟩ := Prod.mk.inj executed
      exact flushContext_rsp conforms item _
    have nothing : flushed.rsp.drop 10 = [] := List.drop_eq_nil_of_le (le_of_eq bare)
    change readResponse (takeUnsealed room) flushed = _ at read
    unfold readResponse at read
    rw [nothing] at read
    cases read

theorem unsealForUserPcr_lost (conforms : Conforms device view) {nonce : Option (Buf 32)} {blob auth data : Bytes}
    {index : UInt32}
    {room : Nat} {ctx last : Ctx σ} : unsealForUserPcr device nonce blob auth index room ctx ≠ (.ok data, last) := by
  intro done
  unfold unsealForUserPcr at done
  split at done
  · cases done
  split at done
  · cases done
  obtain ⟨primary, ready, -, started⟩ := bind_eq_ok.mp done
  split at started
  · cases started
  split at started
  · cases started
  · obtain ⟨item, loaded, -, loading⟩ := bind_eq_ok.mp started
    obtain ⟨session, opened, -, opening⟩ := bind_eq_ok.mp loading
    obtain ⟨_, bound, -, last⟩ := bind_eq_ok.mp opening
    exact unsealPolicy_lost conforms last

end

section
variable {σ : Type} (device : Device σ)

/-- Seal to a register, or to none. -/
def sealWith (binding : Option UInt32) (nonce : Option (Buf 32)) (data auth : Bytes) (room : Nat) :
    Proc (Ctx σ) TpmCode Bytes :=
  match binding with
  | none => sealForUser device data auth room
  | some index => sealForUserPcr device nonce data auth index room

def unsealWith (binding : Option UInt32) (nonce : Option (Buf 32)) (blob auth : Bytes) (room : Nat) :
    Proc (Ctx σ) TpmCode Bytes :=
  match binding with
  | none => unsealForUser device blob auth room
  | some index => unsealForUserPcr device nonce blob auth index room

end

/-- Whatever a conforming TPM has sealed, it gives back later exactly when it was sealed
to no register. -/
theorem sealed_data_returns {σ : Type} (device : Device σ) (view : σ → TpmState) (conforms : Conforms device view)
    (binding : Option UInt32) (nonce nonceLater : Option (Buf 32)) (data auth blob : Bytes) (blobRoom room : Nat)
    (ctx sealedCtx later : Ctx σ) (done : sealWith device binding nonce data auth blobRoom ctx = (.ok blob, sealedCtx))
    (kept : Later (view sealedCtx.tpm) (view later.tpm)) (sameParent : later.primaryHandle = ctx.primaryHandle)
    (fits : data.length ≤ room) :
    (unsealWith device binding nonceLater blob auth room later).1 = .ok data ↔ binding = none := by
  cases binding with
  | none =>
    refine iff_of_true ?_ rfl
    change sealForUser device data auth blobRoom ctx = (.ok blob, sealedCtx) at done
    obtain ⟨priv, pub, rfl, holds⟩ := sealForUser_holds conforms done
    have parent : later.parent = ctx.parent := by
      unfold Ctx.parent
      rw [sameParent]
    have there : Holds (view later.tpm) later.parent priv pub
      { userAuth := auth, data, attributes := 0x52, policy := [] } := by
      rw [parent]
      exact holds.later (parent_persistent ctx) kept
    have admits : (0x52 : Nat).testBit 6 = true := by decide
    change (unsealForUser device (packObject priv pub) auth room later).1 = .ok data
    have returned := unsealForUser_holds conforms there admits fits
    dsimp only at returned
    exact returned
  | some index =>
    refine iff_of_false ?_ nofun
    change ¬ (unsealForUserPcr device nonceLater blob auth index room later).1 = .ok data
    intro returned
    have whole : unsealForUserPcr device nonceLater blob auth index room later =
        (.ok data, (unsealForUserPcr device nonceLater blob auth index room later).2) := Prod.ext returned rfl
    exact unsealForUserPcr_lost conforms whole

end Hiya.Tpm
