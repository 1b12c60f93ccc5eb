import Hiya.Library.Ends
import Hiya.Proofs.SoftTpm

/-! What is loaded in the TPM when an operation is over. Every transient object and every session
of which an operation is told it flushes again, wherever it stops. A command may have loaded
something although its answer is lost; that stays. -/

namespace Hiya.Tpm
open Library
open Proc (Keeps)
open Fido2 (Take Takes)

/-- What can be told of a command from its answer: that it was refused, which handle it has
made, or neither. -/
inductive Announcement
  | refused
  | loaded (handle : Handle)
  | lost

/-- The handle in front of the parameters, if the answer goes that far. -/
def announced (body : Bytes) : Announcement := (takeHandle body).1.toOption.elim .lost .loaded

/-- A command that could not be written, and one whose answer could not be read, may have
reached the TPM. -/
def Transfer.announces : Transfer → Announcement
  | .writeError => .lost
  | .readError => .lost
  | .reply bytes =>
    let bytes := bytes.take maxPacketSize
    if bytes.length < 10 then .lost
    else if beNat ((bytes.drop 6).take 4) ≠ 0 then .refused
    else announced (bytes.drop 10)

def Loads (heard : Announcement) (before after : Set Handle) : Prop :=
  match heard with
  | .refused => after = before
  | .loaded handle => handle ∉ before ∧ after = insert handle before
  | .lost => after = before ∨ ∃ handle, handle ∉ before ∧ after = insert handle before

/-- The transient objects and the sessions before and after a command. A flush succeeds;
unsealing keeps a session that is to go on. -/
def Effect (command : Command) (heard : Announcement) (before after : Set Handle) : Prop :=
  match command with
  | .createPrimary .. | .load .. | .startAuthSession .. => Loads heard before after
  | .flushContext handle => handle ∈ before → after = before \ {handle}
  | .unsealItem _ auth => auth.attributes.testBit 0 = true → after = before
  | _ => after = before

/-- A TPM behind a device, of which is known what it has loaded. -/
def Tracks {σ : Type} (device : Device σ) (loaded : σ → Set Handle) : Prop :=
  ∀ packet command state, parseCommand packet = some command →
    Effect command (device.transfer packet state).1.announces (loaded state) (loaded (device.transfer packet state).2)

def Announcement.told : Announcement → Announcement
  | .lost => .refused
  | heard => heard

def Tells {σ : Type} (device : Device σ) (known : σ → Set Handle) : Prop :=
  ∀ packet command state, parseCommand packet = some command →
    Effect command (device.transfer packet state).1.announces.told (known state) (known (device.transfer packet state).2)

section
variable {σ : Type} {device : Device σ} {known : σ → Set Handle}

def heldBy (known : σ → Set Handle) (ctx : Ctx σ) : Set Handle := known ctx.tpm

theorem keeps_readResponse {α : Type} (read : Take α) : Keeps (heldBy known)
    (readResponse read : Proc (Ctx σ) TpmCode α) := by
  intro ctx
  unfold readResponse
  split <;> rfl

theorem execute_ends (device : Device σ) (packet : Bytes) (ctx : Ctx σ) :
    (∀ rc reached, execute device packet ctx = (.ok rc, reached) →
      reached.tpm = (device.transfer packet ctx.tpm).2 ∧
        (device.transfer packet ctx.tpm).1.announces = if rc = 0 then announced (reached.rsp.drop 10) else .refused) ∧
    (∀ problem reached, execute device packet ctx = (.error problem, reached) →
      reached.tpm = (device.transfer packet ctx.tpm).2 ∧ (device.transfer packet ctx.tpm).1.announces = .lost) := by
  unfold execute
  rcases device.transfer packet ctx.tpm with ⟨_ | _ | bytes, tpm⟩
  · refine ⟨nofun, fun problem reached done => ?_⟩
    cases done
    exact ⟨rfl, rfl⟩
  · refine ⟨nofun, fun problem reached done => ?_⟩
    cases done
    exact ⟨rfl, rfl⟩
  · dsimp only
    split
    next short =>
      refine ⟨nofun, fun problem reached done => ?_⟩
      cases done
      exact ⟨rfl, if_pos short⟩
    next long =>
      refine ⟨fun rc reached done => ?_, nofun⟩
      cases done
      refine ⟨rfl, ?_⟩
      unfold Transfer.announces
      dsimp only
      rw [if_neg long, ite_not]

/-- What a command has done when it is over, whether it was sent, granted or neither. -/
theorem perform_ends (tells : Tells device known) {tag code : Nat} {parts : List Bytes} {command : Command}
    (tagFits : tag < 256 ^ 2) (codeFits : code < 256 ^ 4)
    (read : 10 + parts.flatten.length ≤ maxPacketSize → takeBody tag code parts.flatten = (.ok command, []))
    (refusal : Nat → TpmCode) (ctx : Ctx σ) :
    (∀ value reached, perform device (commandHeader tag code ++ parts.map some) refusal ctx = (.ok value, reached) →
      Effect command (announced (reached.rsp.drop 10)).told (heldBy known ctx) (heldBy known reached)) ∧
    (∀ problem reached, perform device (commandHeader tag code ++ parts.map some) refusal ctx = (.error problem, reached) →
      (maxPacketSize < 10 + parts.flatten.length ∧ reached = ctx) ∨
      Effect command .refused (heldBy known ctx) (heldBy known reached)) := by
  by_cases fits : 10 + parts.flatten.length ≤ maxPacketSize
  · have told := tells _ command ctx.tpm (parse_whole tagFits codeFits fits (read fits))
    obtain ⟨answered, lost⟩ := execute_ends device (framed tag code parts.flatten) ctx
    unfold perform
    rw [marshal_fits fits]
    dsimp only
    rcases done : execute device (framed tag code parts.flatten) ctx with ⟨problem | rc, reached⟩
    · obtain ⟨same, heard⟩ := lost problem reached done
      rw [Proc.bind_of_error done]
      refine ⟨nofun, fun _ _ ended => .inr ?_⟩
      obtain ⟨_, rfl⟩ := Prod.mk.inj ended
      rw [heard, ← same] at told
      exact told
    · obtain ⟨same, heard⟩ := answered rc reached done
      rw [Proc.bind_of_ok done]
      rw [heard, ← same] at told
      by_cases zero : rc = 0
      · rw [if_neg (not_not_intro zero)]
        rw [if_pos zero] at told
        refine ⟨fun _ _ ended => ?_, nofun⟩
        obtain ⟨_, rfl⟩ := Prod.mk.inj ended
        exact told
      · rw [if_pos zero]
        rw [if_neg zero] at told
        refine ⟨nofun, fun _ _ ended => .inr ?_⟩
        obtain ⟨_, rfl⟩ := Prod.mk.inj ended
        exact told
  · have unsent : marshal (commandHeader tag code ++ parts.map some) = none := by
      cases sent : marshal (commandHeader tag code ++ parts.map some) with
      | none => rfl
      | some packet => exact absurd (marshal_some sent).1 fits
    unfold perform
    rw [unsent]
    refine ⟨nofun, fun _ _ ended => .inl ⟨Nat.lt_of_not_le fits, ?_⟩⟩
    obtain ⟨_, rfl⟩ := Prod.mk.inj ended
    rfl

def Still (command : Command) : Prop := ∀ heard before after, Effect command heard before after → after = before

theorem keeps_perform (tells : Tells device known) {tag code : Nat} {parts : List Bytes} {command : Command}
    (tagFits : tag < 256 ^ 2) (codeFits : code < 256 ^ 4)
    (read : 10 + parts.flatten.length ≤ maxPacketSize → takeBody tag code parts.flatten = (.ok command, []))
    (still : Still command) (refusal : Nat → TpmCode) :
    Keeps (heldBy known) (perform device (commandHeader tag code ++ parts.map some) refusal) := by
  intro ctx
  obtain ⟨succeeds, fails⟩ := perform_ends tells tagFits codeFits read refusal ctx
  rcases done : perform device (commandHeader tag code ++ parts.map some) refusal ctx with ⟨problem | value, reached⟩
  · obtain ⟨_, rfl⟩ | effect := fails problem reached done
    · rfl
    · exact still _ _ _ effect
  · exact still _ _ _ (succeeds value reached done)

theorem keeps_execute (tells : Tells device known) {packet : Bytes} {command : Command}
    (parsed : parseCommand packet = some command)
    (still : Still command) : Keeps (heldBy known) (execute device packet) := by
  intro ctx
  have same := still _ _ _ (tells packet command ctx.tpm parsed)
  obtain ⟨answered, lost⟩ := execute_ends device packet ctx
  rcases done : execute device packet ctx with ⟨problem | rc, reached⟩
  · exact (congrArg known (lost problem reached done).1).trans same
  · exact (congrArg known (answered rc reached done).1).trans same

def Loading (command : Command) : Prop := ∀ heard before after, Effect command heard before after → Loads heard before after

theorem gains_handle (tells : Tells device known) {tag code : Nat} {parts : List Bytes} {command : Command}
    (tagFits : tag < 256 ^ 2) (codeFits : code < 256 ^ 4)
    (read : 10 + parts.flatten.length ≤ maxPacketSize → takeBody tag code parts.flatten = (.ok command, []))
    (loading : Loading command) (refusal : Nat → TpmCode) :
    Proc.Gains (heldBy known) ∅ (fun handle => {handle}) (do
      perform device (commandHeader tag code ++ parts.map some) refusal
      readResponse takeHandle) := by
  intro ctx _
  obtain ⟨succeeds, fails⟩ := perform_ends tells tagFits codeFits read refusal ctx
  rcases done : perform device (commandHeader tag code ++ parts.map some) refusal ctx with ⟨problem | ⟨⟩, answered⟩
  · rw [Proc.bind_of_error done]
    refine ⟨nofun, fun _ _ ended => ?_⟩
    obtain ⟨_, rfl⟩ := Prod.mk.inj ended
    rw [Set.sdiff_empty]
    obtain ⟨_, same⟩ | effect := fails problem answered done
    · rw [same]
    · exact loading _ _ _ effect
  · have loads := loading _ _ _ (succeeds () answered done)
    rw [Proc.bind_of_ok done]
    unfold readResponse
    unfold announced at loads
    rcases taken : takeHandle (answered.rsp.drop 10) with ⟨problem | handle, rest⟩ <;> rw [taken] at loads
    · refine ⟨nofun, fun _ _ ended => ?_⟩
      obtain ⟨_, rfl⟩ := Prod.mk.inj ended
      rw [Set.sdiff_empty]
      exact loads
    · obtain ⟨fresh, more⟩ := loads
      refine ⟨fun value reached ended => ?_, nofun⟩
      cases ended
      exact ⟨Set.disjoint_singleton_left.mpr fresh, by rw [more, Set.union_singleton]⟩

theorem still_readPublic (handle : Handle) : Still (.readPublic handle) :=
  fun _ _ _ effect => effect

theorem still_evictControl (hierarchy object : Handle) (auth : Authorization) (persistent : Handle) :
    Still (.evictControl hierarchy object auth persistent) :=
  fun _ _ _ effect => effect

theorem still_create (parent : Handle) (auth : Authorization) (userAuth data : Bytes) (area : PublicArea) (outside : Bytes)
    (pcrs : List PcrSelection) : Still (.create parent auth userAuth data area outside pcrs) :=
  fun _ _ _ effect => effect

theorem still_unseal (item : Handle) {auth : Authorization} (continues : auth.attributes.testBit 0 = true) :
    Still (.unsealItem item auth) := by
  intro heard before after effect
  exact effect continues

theorem still_policyPcr (session : Handle) (digest : Bytes) (pcrs : List PcrSelection) :
    Still (.policyPcr session digest pcrs) :=
  fun _ _ _ effect => effect

theorem still_policyGetDigest (session : Handle) : Still (.policyGetDigest session) :=
  fun _ _ _ effect => effect

theorem loading_createPrimary (hierarchy : Handle) (auth : Authorization) (parameters : Bytes) :
    Loading (.createPrimary hierarchy auth parameters) :=
  fun _ _ _ effect => effect

theorem loading_load (parent : Handle) (auth : Authorization) (priv pub : Bytes) : Loading (.load parent auth priv pub) :=
  fun _ _ _ effect => effect

theorem loading_startAuthSession (key bound : Handle) (nonce salt : Bytes) (kind symmetric hash : Nat) :
    Loading (.startAuthSession key bound nonce salt kind symmetric hash) :=
  fun _ _ _ effect => effect

theorem Takes.whole {α : Type} {body : Take α} {bytes : Bytes} {value : α} (takes : Takes body bytes value) :
    body bytes = (.ok value, []) := by
  have read := takes []
  rwa [List.append_nil] at read

theorem keeps_readPublic (tells : Tells device known) (handle : Handle) (room : Nat) :
    Keeps (heldBy known) (readPublic device handle room) := by
  have takes : Takes (takeBody stNoSessions ccReadPublic) [beBytes 4 handle.toNat].flatten (.readPublic handle) := by
    rw [List.flatten_singleton]
    exact takes_readPublic handle
  exact .bind (keeps_perform tells (by decide) (by decide) (fun _ => Takes.whole takes) (still_readPublic handle) _)
    fun _ => keeps_readResponse _

def primaryParts : List Bytes :=
  [beBytes 2 4, beBytes 2 0, beBytes 2 0, beBytes 2 (2 + 2 + 4 + 2 + (2 + 2 + 2) + 2 + 2 + 2 + (2 + 2)),
    beBytes 2 algEcc, beBytes 2 algSha256,
    beBytes 4 0x00030072, beBytes 2 0, beBytes 2 algAes, beBytes 2 128, beBytes 2 algCfb, beBytes 2 algNull,
      beBytes 2 eccNistP256,
    beBytes 2 algNull, beBytes 2 0, beBytes 2 0, beBytes 2 0, beBytes 4 0]

theorem takes_createPrimary : takeBody stSessions ccCreatePrimary ([beBytes 4 rhOwner.toNat] ++ passwordParts [] ++
    primaryParts).flatten =
    (.ok (.createPrimary rhOwner (byPassword []) primaryParts.flatten), []) := by
  have flat : ([beBytes 4 rhOwner.toNat] ++ passwordParts [] ++ primaryParts).flatten =
      beBytes 4 rhOwner.toNat ++ ((passwordParts []).flatten ++ primaryParts.flatten) := by simp
  rw [flat]
  change (takeHandle >>= fun hierarchy => takeAuthorization >>= fun auth => takeRest >>=
    fun rest => pure (Command.createPrimary hierarchy auth rest)) _ = _
  rw [Proc.bind_of_ok (takes_handle rhOwner _), Proc.bind_of_ok (takes_password (Nat.zero_le _) _)]
  rfl

theorem gains_createPrimary (tells : Tells device known) : Proc.Gains (heldBy known) ∅ (fun handle => {handle})
    (createPrimary device) :=
  gains_handle tells (by decide) (by decide) (fun _ => takes_createPrimary) (loading_createPrimary _ _ _) _

theorem takes_evictControl (object persistent : Handle) :
    Takes (takeBody stSessions ccEvictControl)
      ([beBytes 4 rhOwner.toNat, beBytes 4 object.toNat] ++ passwordParts [] ++ [beBytes 4 persistent.toNat]).flatten
      (.evictControl rhOwner object (byPassword []) persistent) := by
  have flat : ([beBytes 4 rhOwner.toNat, beBytes 4 object.toNat] ++ passwordParts [] ++
    [beBytes 4 persistent.toNat]).flatten =
      beBytes 4 rhOwner.toNat ++ (beBytes 4 object.toNat ++
        ((passwordParts []).flatten ++ (beBytes 4 persistent.toNat ++ []))) := by simp
  rw [flat]
  exact .bind (takes_handle rhOwner) <| .bind (takes_handle object) <| .bind (takes_password (Nat.zero_le _)) <|
    .bind (takes_handle persistent) (.pure _)

theorem keeps_evictControl (tells : Tells device known) (object persistent : Handle) :
    Keeps (heldBy known) (evictControl device object persistent) :=
  keeps_perform tells (by decide) (by decide) (fun _ => Takes.whole (takes_evictControl object persistent))
    (still_evictControl _ _ _ _) _

theorem releases_flushContext (tells : Tells device known) (handle : Handle) :
    Proc.Releases (heldBy known) {handle} (flushContext device handle) := by
  have takes : Takes (takeBody stNoSessions ccFlushContext) [beBytes 4 handle.toNat].flatten (.flushContext handle) := by
    rw [List.flatten_singleton]
    exact takes_flushContext handle
  have fits : 10 + [beBytes 4 handle.toNat].flatten.length ≤ maxPacketSize := by
    rw [List.flatten_singleton, beBytes_length]
    decide
  intro ctx there
  have inside := Set.singleton_subset_iff.mp there
  obtain ⟨succeeds, fails⟩ := perform_ends tells (by decide) (by decide) (fun _ => Takes.whole takes) (fun _ => .handle) ctx
  rcases done : flushContext device handle ctx with ⟨problem | value, reached⟩
  · obtain ⟨long, _⟩ | effect := fails problem reached done
    · exact absurd fits (Nat.not_le.mpr long)
    · exact effect inside
  · exact succeeds value reached done inside

theorem keeps_createObject (tells : Tells device known) (parent : Handle) (data auth : Bytes) {attributes : Nat}
    {policy : Bytes}
    (attributesFit : attributes < 256 ^ 4) (policyShort : policy.length ≤ 32) :
    Keeps (heldBy known) (createObject device parent data auth attributes policy) := by
  unfold createObject
  refine .ite (.fail _) ?_
  by_cases long : 0xFFFF < 2 + auth.length + 2 + data.length
  · rw [if_pos long]
    exact .fail _
  · rw [if_neg long]
    have flat : ([beBytes 4 parent.toNat] ++ passwordParts [] ++ createParts data auth attributes policy).flatten =
        beBytes 4 parent.toNat ++ ((passwordParts []).flatten ++ (createParts data auth attributes policy).flatten) := by simp
    have takes : Takes (takeBody stSessions ccCreate)
        ([beBytes 4 parent.toNat] ++ passwordParts [] ++ createParts data auth attributes policy).flatten
        (.create parent (byPassword []) auth data (sealingArea attributes policy) [] []) := by
      rw [flat]
      exact takes_create (Nat.le_of_not_lt long) attributesFit policyShort
    exact .bind (keeps_perform tells (by decide) (by decide) (fun _ => Takes.whole takes) (still_create _ _ _ _ _ _ _) _)
      fun _ => keeps_readResponse _

/-- A pair of parts too long for a packet is not sent, and one too long for its length refused. -/
theorem gains_load (tells : Tells device known) (parent : Handle) (priv pub : Bytes) :
    Proc.Gains (heldBy known) ∅ (fun handle => {handle}) (load device parent priv pub) := by
  unfold load
  by_cases long : 0xFFFF < priv.length ∨ 0xFFFF < pub.length
  · rw [if_pos long]
    intro ctx _
    refine ⟨nofun, fun _ _ ended => ?_⟩
    obtain ⟨_, rfl⟩ := Prod.mk.inj ended
    exact Set.sdiff_empty.symm
  · rw [if_neg long]
    have flat : ([beBytes 4 parent.toNat] ++ passwordParts [] ++ [tpm2b priv, tpm2b pub]).flatten =
        beBytes 4 parent.toNat ++ ((passwordParts []).flatten ++ (tpm2b priv ++ tpm2b pub)) := by simp
    have takes : Takes (takeBody stSessions ccLoad)
      ([beBytes 4 parent.toNat] ++ passwordParts [] ++ [tpm2b priv, tpm2b pub]).flatten
        (.load parent (byPassword []) priv pub) := by
      rw [flat]
      exact takes_load (by omega) (by omega)
    exact gains_handle tells (by decide) (by decide) (fun _ => Takes.whole takes) (loading_load _ _ _ _) _

theorem keeps_tpmUnseal (tells : Tells device known) (item : Handle) (auth : Bytes) (room : Nat) :
    Keeps (heldBy known) (tpmUnseal device item auth room) := by
  unfold tpmUnseal
  refine .bind ?_ fun _ => keeps_readResponse _
  by_cases short : auth.length ≤ 0xFFFF
  · have flat : ([beBytes 4 item.toNat] ++ passwordParts auth).flatten = beBytes 4 item.toNat ++
      (passwordParts auth).flatten := by simp
    have takes : Takes (takeBody stSessions ccUnseal) ([beBytes 4 item.toNat] ++ passwordParts auth).flatten
      (.unsealItem item (byPassword auth)) := by
      rw [flat]
      exact takes_unseal short
    rw [passwordAuth_parts short]
    exact keeps_perform tells (by decide) (by decide) (fun _ => Takes.whole takes)
      (still_unseal item (rfl : Nat.testBit 1 0 = true)) _
  · have unsent : marshal (commandHeader stSessions ccUnseal ++ [u32 item.toNat] ++ passwordAuth auth) = none := by
      have area : passwordAuth auth = [none] := if_pos (Nat.lt_of_not_le short)
      rw [area, marshal, List.foldl_append]
      rfl
    unfold perform
    rw [unsent]
    exact .fail _

theorem takes_startAuthSession (nonce : Buf 32) {kind : Nat} (small : kind < 256) :
    Takes (takeBody stNoSessions ccStartAuthSession)
      [beBytes 4 rhNull.toNat, beBytes 4 rhNull.toNat, tpm2b nonce.bytes, beBytes 2 0, beBytes 1 kind,
      beBytes 2 algNull, beBytes 2 algSha256].flatten
      (.startAuthSession rhNull rhNull nonce.bytes [] kind algNull algSha256) := by
  have flat : [beBytes 4 rhNull.toNat, beBytes 4 rhNull.toNat, tpm2b nonce.bytes, beBytes 2 0, beBytes 1 kind,
    beBytes 2 algNull,
      beBytes 2 algSha256].flatten = beBytes 4 rhNull.toNat ++ (beBytes 4 rhNull.toNat ++ (tpm2b nonce.bytes ++ (tpm2b [] ++
        (beBytes 1 kind ++ (beBytes 2 algNull ++ (beBytes 2 algSha256 ++ [])))))) := by simp [tpm2b]
  rw [flat]
  exact .bind (takes_handle rhNull) <| .bind (takes_handle rhNull) <|
    .bind (takes_sized (by rw [Buf.length_bytes]; decide)) <|
    .bind (takes_sized (by decide)) <| .bind (takes_small small) <| .bind (takes_small (by decide)) <|
      .bind (takes_small (by decide)) (.pure _)

theorem gains_startAuthSession (tells : Tells device known) (nonce : Option (Buf 32)) {kind : Nat} (small : kind < 256) :
    Proc.Gains (heldBy known) ∅ (fun handle => {handle}) (startAuthSession device nonce kind) := by
  cases nonce with
  | none =>
    intro ctx _
    refine ⟨nofun, fun _ _ ended => ?_⟩
    obtain ⟨_, rfl⟩ := Prod.mk.inj ended
    exact Set.sdiff_empty.symm
  | some nonce =>
    exact gains_handle tells (by decide) (by decide) (fun _ => Takes.whole (takes_startAuthSession nonce small))
      (loading_startAuthSession _ _ _ _ _ _ _) _

theorem pcrSelect_length (index : Nat) : (pcrSelect index).length = 3 := by simp [pcrSelect]

theorem takes_policyPcr (session : Handle) (index : Nat) :
    Takes (takeBody stNoSessions ccPolicyPcr)
      [beBytes 4 session.toNat, beBytes 2 0, beBytes 4 1, beBytes 2 algSha256, beBytes 1 3, pcrSelect index].flatten
      (.policyPcr session [] [{ hash := algSha256, select := pcrSelect index }]) := by
  have flat : [beBytes 4 session.toNat, beBytes 2 0, beBytes 4 1, beBytes 2 algSha256, beBytes 1 3, pcrSelect index].flatten =
      beBytes 4 session.toNat ++ (tpm2b [] ++
        ((beBytes 4 1 ++ ((beBytes 2 algSha256 ++ (beBytes 1 3 ++ (pcrSelect index ++ []))) ++ ([] ++ []))) ++
        [])) := by simp [tpm2b]
  have selection : Takes takeSelection (beBytes 2 algSha256 ++ (beBytes 1 3 ++ (pcrSelect index ++ [])))
      { hash := algSha256, select := pcrSelect index } := by
    refine .bind (takes_small (by decide)) <| .bind (takes_small (by decide)) <|
      .bind (Fido2.takes_bytes _ (pcrSelect_length index)) ?_
    intro rest
    change (Except.ok _, _) = _
    rw [Buf.bytes_ofBytes]
    rfl
  have selections : Takes takeSelections (beBytes 4 1 ++
    ((beBytes 2 algSha256 ++ (beBytes 1 3 ++ (pcrSelect index ++ []))) ++ ([] ++ [])))
      [{ hash := algSha256, select := pcrSelect index }] :=
        .bind (takes_small (by decide)) <| .bind selection <| .bind (.pure _) (.pure _)
  rw [flat]
  exact .bind (takes_handle session) <| .bind (takes_sized (by decide)) <| .bind selections (.pure _)

theorem keeps_policyPcr (tells : Tells device known) (session : Handle) (index : UInt32) :
    Keeps (heldBy known) (policyPcr device session index) := by
  unfold policyPcr
  exact .ite (.fail _) (keeps_perform tells (by decide) (by decide)
    (fun _ => Takes.whole (takes_policyPcr session index.toNat))
    (still_policyPcr _ _ _) _)

theorem takes_policyGetDigest (session : Handle) :
    Takes (takeBody stNoSessions ccPolicyGetDigest) [beBytes 4 session.toNat].flatten (.policyGetDigest session) :=
  .bind (takes_handle session) (.pure _)

theorem keeps_policyGetDigest (tells : Tells device known) (session : Handle) : Keeps (heldBy known)
    (policyGetDigest device session) :=
  .bind (keeps_perform tells (by decide) (by decide) (fun _ => Takes.whole (takes_policyGetDigest session))
    (still_policyGetDigest session) _)
    fun _ => keeps_readResponse _

theorem keeps_ensurePrimaryKey (tells : Tells device known) : Keeps (heldBy known) (ensurePrimaryKey device) := by
  intro ctx
  have first := keeps_readPublic tells ctx.parent 256 ctx
  have made : Keeps (heldBy known) (do
      let transient ← createPrimary device
      (evictControl device transient ctx.parent).closing (flushContext device transient)
      pure ctx.parent) := by
    refine ((gains_createPrimary tells).bind fun transient _ => ?_).keeps
    refine Proc.Releases.bind ?_ fun _ => .pure _
    exact (keeps_evictControl tells transient ctx.parent).releases.closing (releases_flushContext tells transient)
      (Set.empty_disjoint _)
  unfold ensurePrimaryKey
  split
  next found =>
    rw [found] at first
    exact first
  next missing =>
    rw [missing] at first
    exact (made _).trans first

theorem keeps_trialDigest (tells : Tells device known) (nonce : Option (Buf 32)) (index : UInt32) :
    Keeps (heldBy known) (trialDigest device nonce index) := by
  refine ((gains_startAuthSession tells nonce (by decide)).bind fun session _ => ?_).keeps
  have lets := releases_flushContext tells session
  refine ((keeps_policyPcr tells session index).gains.undoing lets (Set.empty_disjoint _)).bind fun _ _ => ?_
  rw [Set.union_empty]
  exact (keeps_policyGetDigest tells session).releases.closing lets (Set.empty_disjoint _)

theorem trialDigest_length (nonce : Option (Buf 32)) (index : UInt32) {ctx reached : Ctx σ} {digest : Bytes}
    (done : trialDigest device nonce index ctx = (.ok digest, reached)) : digest.length = 32 := by
  obtain ⟨session, started, _, rest⟩ := Proc.bind_eq_ok.mp done
  obtain ⟨_, bound, _, last⟩ := Proc.bind_eq_ok.mp rest
  have outcome : (policyGetDigest device session bound).1 = .ok digest := by
    have same := congrArg Prod.fst last
    exact same
  obtain ⟨_, answered, _, read⟩ := Proc.bind_eq_ok.mp (Prod.ext outcome rfl)
  unfold readResponse at read
  split at read
  next value left took =>
    obtain ⟨taken, middle, _, checked⟩ := Proc.bind_eq_ok.mp took
    split at checked
    · cases checked
    next whole =>
      cases checked
      cases read
      exact not_not.mp whole
  next => cases read

theorem keeps_createSealedPcr (tells : Tells device known) (nonce : Option (Buf 32)) (parent : Handle)
    (data auth : Bytes) (index : UInt32) :
    Keeps (heldBy known) (createSealedPcr device nonce parent data auth index) := by
  unfold createSealedPcr
  refine .ite (.fail _) ?_
  intro ctx
  have half := keeps_trialDigest tells nonce index ctx
  rcases done : trialDigest device nonce index ctx with ⟨problem | digest, reached⟩
  · rw [done] at half
    rwa [Proc.bind_of_error done]
  · rw [done] at half
    rw [Proc.bind_of_ok done, keeps_createObject tells parent data auth (by decide)
      (Nat.le_of_eq (trialDigest_length nonce index done)) reached]
    exact half

theorem keeps_createSealed (tells : Tells device known) (parent : Handle) (data auth : Bytes) :
    Keeps (heldBy known) (createSealed device parent data auth) := by
  unfold createSealed
  exact .ite (.fail _) (keeps_createObject tells parent data auth (by decide) (Nat.zero_le _))

theorem keeps_sealForUser (tells : Tells device known) (data auth : Bytes) (room : Nat) :
    Keeps (heldBy known) (sealForUser device data auth room) :=
  .bind (keeps_ensurePrimaryKey tells) fun primary => .bind (keeps_createSealed tells primary data auth) fun ⟨_, _⟩ =>
    .ite (.fail _) (.pure _)

theorem keeps_sealForUserPcr (tells : Tells device known) (nonce : Option (Buf 32)) (data auth : Bytes)
    (index : UInt32) (room : Nat) :
    Keeps (heldBy known) (sealForUserPcr device nonce data auth index room) := by
  unfold sealForUserPcr
  exact .ite (.fail _) (.bind (keeps_ensurePrimaryKey tells) fun primary => .bind
    (keeps_createSealedPcr tells nonce primary data auth index)
    fun ⟨_, _⟩ => .ite (.fail _) (.pure _))

theorem keeps_unsealForUser (tells : Tells device known) (blob auth : Bytes) (room : Nat) :
    Keeps (heldBy known) (unsealForUser device blob auth room) := by
  unfold unsealForUser
  refine .ite (.fail _) (.bind (keeps_ensurePrimaryKey tells) fun primary => ?_)
  cases unpackObject blob with
  | none => exact .fail _
  | some parts =>
    obtain ⟨priv, pub⟩ := parts
    refine ((gains_load tells primary priv pub).bind fun item _ => ?_).keeps
    exact (keeps_tpmUnseal tells item auth room).releases.closing (releases_flushContext tells item) (Set.empty_disjoint _)

theorem takes_unsealPolicy (item session : Handle) : Takes (takeBody stSessions ccUnseal)
    [beBytes 4 item.toNat, beBytes 4 (4 + 2 + 1 + 2), beBytes 4 session.toNat, beBytes 2 0, beBytes 1 0x01,
    beBytes 2 0].flatten
    (.unsealItem item { session, nonce := [], attributes := 1, hmac := [] }) := by
  have flat : [beBytes 4 item.toNat, beBytes 4 (4 + 2 + 1 + 2), beBytes 4 session.toNat, beBytes 2 0, beBytes 1 0x01,
    beBytes 2 0].flatten =
      beBytes 4 item.toNat ++ ((beBytes 4 (4 + 2 + 1 + 2) ++
        (beBytes 4 session.toNat ++ (tpm2b [] ++ (beBytes 1 0x01 ++ (tpm2b [] ++
        ([] ++ [])))))) ++ []) := by simp [tpm2b]
  have auth : Takes takeAuthorization (beBytes 4 (4 + 2 + 1 + 2) ++
    (beBytes 4 session.toNat ++ (tpm2b [] ++ (beBytes 1 0x01 ++ (tpm2b [] ++
      ([] ++ [])))))) { session, nonce := [], attributes := 1, hmac := [] } :=
    .bind (takes_small (by decide)) <| .bind (takes_handle session) <| .bind (takes_sized (by decide)) <|
      .bind (takes_small (by decide)) <|
      .bind (takes_sized (by decide)) <| .bind (takes_demand rfl) (.pure _)
  rw [flat]
  exact .bind (takes_handle item) <| .bind auth (.pure _)

/-- The session is flushed first, and the object after it. -/
theorem releases_unsealPolicy (tells : Tells device known) {item session : Handle}
    (apart : Disjoint ({session} : Set Handle) {item}) (room : Nat) :
    Proc.Releases (heldBy known) ((∅ ∪ {session}) ∪ {item}) (unsealPolicy device item session room) := by
  have second : Disjoint (∅ ∪ ({session} : Set Handle)) {item} := by rwa [Set.empty_union]
  unfold unsealPolicy
  split
  · exact ((Keeps.fail _).releases.closing (releases_flushContext tells session) (Set.empty_disjoint _)).closing
      (releases_flushContext tells item) second
  next command sent =>
    have shape : marshal (commandHeader stSessions ccUnseal ++ [beBytes 4 item.toNat, beBytes 4 (4 + 2 + 1 + 2),
      beBytes 4 session.toNat, beBytes 2 0,
      beBytes 1 0x01, beBytes 2 0].map some) = some command := sent
    obtain ⟨fits, rfl⟩ := marshal_some shape
    have still := (still_unseal item (rfl : Nat.testBit 1 0 = true) :
      Still (.unsealItem item { session, nonce := [], attributes := 1, hmac := [] }))
    have executed := keeps_execute tells (parse_whole (by decide)
      (by decide) fits (Takes.whole (takes_unsealPolicy item session))) still
    refine .bind ((executed.releases.closing (releases_flushContext tells session) (Set.empty_disjoint _)).closing
      (releases_flushContext tells item) second) fun rc => ?_
    exact .ite (fun _ => rfl) (keeps_readResponse _)

theorem keeps_unsealForUserPcr (tells : Tells device known) (nonce : Option (Buf 32)) (blob auth : Bytes)
    (index : UInt32) (room : Nat) :
    Keeps (heldBy known) (unsealForUserPcr device nonce blob auth index room) := by
  unfold unsealForUserPcr
  refine .ite (.fail _) (.ite (.fail _) (.bind (keeps_ensurePrimaryKey tells) fun primary => .ite (fun _ => rfl) ?_))
  cases unpackObject blob.tail with
  | none => exact .fail _
  | some parts =>
    obtain ⟨priv, pub⟩ := parts
    refine ((gains_load tells primary priv pub).bind fun item _ => ?_).keeps
    have item_lets := releases_flushContext tells item
    refine ((gains_startAuthSession tells nonce (by decide)).undoing item_lets
      (Set.empty_disjoint _)).bind fun session fresh => ?_
    have session_lets := releases_flushContext tells session
    have apart : Disjoint ({session} : Set Handle) {item} := by rwa [Set.empty_union] at fresh
    have order : ∅ ∪ {item} ∪ ({session} : Set Handle) = ∅ ∪ {session} ∪ {item} := by
      rw [Set.empty_union, Set.empty_union, Set.union_comm]
    rw [order]
    refine (((keeps_policyPcr tells session index).gains.undoing session_lets (Set.empty_disjoint _)).undoing item_lets
      (by rwa [Set.empty_union])).bind fun _ _ => ?_
    rw [Set.union_empty]
    exact releases_unsealPolicy tells apart room

/-- The operations that load something, and the data they are called with. -/
inductive Operation
  | ensurePrimaryKey
  | createSealed (parent : Handle) (data auth : Bytes)
  | createSealedPcr (nonce : Option (Buf 32)) (parent : Handle) (data auth : Bytes) (index : UInt32)
  | sealForUser (data auth : Bytes) (room : Nat)
  | unsealForUser (blob auth : Bytes) (room : Nat)
  | sealForUserPcr (nonce : Option (Buf 32)) (data auth : Bytes) (index : UInt32) (room : Nat)
  | unsealForUserPcr (nonce : Option (Buf 32)) (blob auth : Bytes) (index : UInt32) (room : Nat)

/-- What an operation makes of the context, whether it succeeds or not. -/
def Operation.leaves (device : Device σ) (ctx : Ctx σ) : Operation → Ctx σ
  | .ensurePrimaryKey => (Tpm.ensurePrimaryKey device ctx).2
  | .createSealed parent data auth => (Tpm.createSealed device parent data auth ctx).2
  | .createSealedPcr nonce parent data auth index => (Tpm.createSealedPcr device nonce parent data auth index ctx).2
  | .sealForUser data auth room => (Tpm.sealForUser device data auth room ctx).2
  | .unsealForUser blob auth room => (Tpm.unsealForUser device blob auth room ctx).2
  | .sealForUserPcr nonce data auth index room => (Tpm.sealForUserPcr device nonce data auth index room ctx).2
  | .unsealForUserPcr nonce blob auth index room => (Tpm.unsealForUserPcr device nonce blob auth index room ctx).2

theorem Operation.keeps (tells : Tells device known) (operation : Operation) (ctx : Ctx σ) :
    known (operation.leaves device ctx).tpm = known ctx.tpm := by
  cases operation with
  | ensurePrimaryKey => exact keeps_ensurePrimaryKey tells ctx
  | createSealed parent data auth => exact keeps_createSealed tells parent data auth ctx
  | createSealedPcr nonce parent data auth index => exact keeps_createSealedPcr tells nonce parent data auth index ctx
  | sealForUser data auth room => exact keeps_sealForUser tells data auth room ctx
  | unsealForUser blob auth room => exact keeps_unsealForUser tells blob auth room ctx
  | sealForUserPcr nonce data auth index room => exact keeps_sealForUserPcr tells nonce data auth index room ctx
  | unsealForUserPcr nonce blob auth index room => exact keeps_unsealForUserPcr tells nonce blob auth index room ctx

structure Transaction (σ : Type) where
  packet : Bytes
  answer : Transfer
  before : σ
  after : σ

def Device.recorded (device : Device σ) : Device (σ × List (Transaction σ)) where
  transfer packet state :=
    let (answer, after) := device.transfer packet state.1
    (answer, after, state.2 ++ [{ packet, answer, before := state.1, after }])

def Ctx.recorded (ctx : Ctx σ) : Ctx (σ × List (Transaction σ)) := { ctx with tpm := (ctx.tpm, []) }

/-- What passes between an operation and the device. -/
def Operation.exchanges (device : Device σ) (operation : Operation) (ctx : Ctx σ) : List (Transaction σ) :=
  (operation.leaves device.recorded ctx.recorded).tpm.2

/-- A handle that a command has loaded of which nothing was heard. -/
def Transaction.Strays (loaded : σ → Set Handle) (exchange : Transaction σ) (handle : Handle) : Prop :=
  exchange.answer.announces = .lost ∧ handle ∉ loaded exchange.before ∧ handle ∈ loaded exchange.after

def strayed (loaded : σ → Set Handle) (log : List (Transaction σ)) : Set Handle :=
  log.foldl (fun held exchange => (held ∩ loaded exchange.before) ∪ {handle | exchange.Strays loaded handle}) ∅

variable {loaded : σ → Set Handle}

theorem mem_strayed {log : List (Transaction σ)} {handle : Handle} (inside : handle ∈ strayed loaded log) :
    ∃ exchange ∈ log, exchange.Strays loaded handle := by
  induction log using List.reverseRecOn with
  | nil => cases inside
  | append_singleton log last ih =>
    rw [strayed, List.foldl_append] at inside
    rcases inside with ⟨earlier, -⟩ | strays
    · obtain ⟨exchange, there, strays⟩ := ih earlier
      exact ⟨exchange, List.mem_append_left _ there, strays⟩
    · exact ⟨last, List.mem_append_right _ (List.mem_singleton_self _), strays⟩

/-- Beside what has strayed a command does what is told of it. -/
theorem Effect.beside {command : Command} {heard : Announcement} {before after : Set Handle}
    (effect : Effect command heard before after)
    (stray : Set Handle) : Effect command heard.told (before \ stray)
      (after \ ((stray ∩ before) ∪ {handle | heard = .lost ∧ handle ∉ before ∧ handle ∈ after})) := by
  have same (equal : after = before) :
      after \ ((stray ∩ before) ∪ {handle | heard = .lost ∧ handle ∉ before ∧ handle ∈ after}) = before \ stray := by
    subst equal
    ext handle
    simp only [Set.mem_sdiff, Set.mem_union, Set.mem_inter_iff, Set.mem_ofPred_eq]
    tauto
  have loads (made : Loads heard before after) : Loads heard.told (before \ stray)
      (after \ ((stray ∩ before) ∪ {handle | heard = .lost ∧ handle ∉ before ∧ handle ∈ after})) := by
    cases heard with
    | refused => exact same made
    | loaded handle =>
      obtain ⟨fresh, rfl⟩ := made
      refine ⟨fun inside => fresh inside.1, ?_⟩
      ext other
      simp only [Set.mem_sdiff, Set.mem_union, Set.mem_inter_iff, Set.mem_ofPred_eq, Set.mem_insert_iff, reduceCtorEq,
        false_and, or_false]
      by_cases equal : other = handle
      · subst equal
        simp [fresh]
      · simp only [equal, false_or]
        tauto
    | lost =>
      rcases made with equal | ⟨handle, fresh, rfl⟩
      · exact same equal
      · change _ = before \ stray
        ext other
        simp only [Set.mem_sdiff, Set.mem_union, Set.mem_inter_iff, Set.mem_ofPred_eq, Set.mem_insert_iff, true_and]
        by_cases equal : other = handle
        · subst equal
          simp [fresh]
        · simp only [equal, false_or]
          tauto
  cases command with
  | createPrimary | load | startAuthSession => exact loads effect
  | flushContext handle =>
    intro inside
    have rest := effect inside.1
    subst rest
    ext other
    simp only [Set.mem_sdiff, Set.mem_union, Set.mem_inter_iff, Set.mem_ofPred_eq, Set.mem_singleton_iff]
    tauto
  | unsealItem item auth => exact fun continues => same (effect continues)
  | readPublic | evictControl | create | policyPcr | policyGetDigest => exact same effect

def toldBy (loaded : σ → Set Handle) (state : σ × List (Transaction σ)) : Set Handle :=
    loaded state.1 \ strayed loaded state.2

theorem tells_recorded (tracks : Tracks device loaded) : Tells device.recorded (toldBy loaded) := by
  intro packet command state parsed
  have effect := (tracks packet command state.1 parsed).beside (strayed loaded state.2)
  have longer : strayed loaded (device.recorded.transfer packet state).2.2 = (strayed loaded state.2 ∩ loaded state.1) ∪
      {handle | (device.transfer packet state.1).1.announces = .lost ∧ handle ∉ loaded state.1 ∧
        handle ∈ loaded (device.transfer packet state.1).2} := List.foldl_append
  unfold toldBy
  rw [longer]
  exact effect

/-! The log changes nothing. -/

def Ctx.forget (ctx : Ctx (σ × List (Transaction σ))) : Ctx σ := { ctx with tpm := ctx.tpm.1 }

def Records {ε α : Type} (first : Proc (Ctx σ) ε α) (second : Proc (Ctx (σ × List (Transaction σ))) ε α) : Prop :=
  ∀ ctx, first ctx.forget = ((second ctx).1, (second ctx).2.forget)

namespace Records
variable {ε ε' α β : Type}

protected theorem pure (value : α) : Records (σ := σ) (ε := ε) (pure value) (pure value) := fun _ => rfl

protected theorem fail (problem : ε) : Records (σ := σ) (α := α) (Proc.fail problem) (Proc.fail problem) := fun _ => rfl

protected theorem bind {first : Proc (Ctx σ) ε α} {second : Proc (Ctx (σ × List (Transaction σ))) ε α} {next : α →
    Proc (Ctx σ) ε β}
    {other : α → Proc (Ctx (σ × List (Transaction σ))) ε β} (head : Records first second)
    (tail : ∀ value, Records (next value) (other value)) :
    Records (first >>= next) (second >>= other) := by
  intro ctx
  have half := head ctx
  rcases done : second ctx with ⟨problem | value, reached⟩ <;> rw [done] at half
  · rw [Proc.bind_of_error half, Proc.bind_of_error done]
  · rw [Proc.bind_of_ok half, Proc.bind_of_ok done]
    exact tail value reached

protected theorem closing {first : Proc (Ctx σ) ε α} {second : Proc (Ctx (σ × List (Transaction σ))) ε α}
    {last : Proc (Ctx σ) ε' β}
    {other : Proc (Ctx (σ × List (Transaction σ))) ε' β} (head : Records first second) (tail : Records last other) :
    Records (first.closing last) (second.closing other) := by
  intro ctx
  unfold Proc.closing
  rw [head ctx]
  dsimp only
  rw [tail]

protected theorem undoing {first : Proc (Ctx σ) ε α} {second : Proc (Ctx (σ × List (Transaction σ))) ε α}
    {last : Proc (Ctx σ) ε' β}
    {other : Proc (Ctx (σ × List (Transaction σ))) ε' β} (head : Records first second) (tail : Records last other) :
    Records (first.undoing last) (second.undoing other) := by
  intro ctx
  unfold Proc.undoing
  rw [head ctx]
  rcases second ctx with ⟨problem | value, reached⟩
  · dsimp only
    rw [tail]
  · rfl

protected theorem ite {holds : Prop} [Decidable holds] {first other : Proc (Ctx σ) ε α}
    {second another : Proc (Ctx (σ × List (Transaction σ))) ε α} (yes : Records first second) (no : Records other another) :
    Records (if holds then first else other) (if holds then second else another) := by
  split
  · exact yes
  · exact no

protected theorem execute (packet : Bytes) : Records (execute device packet) (execute device.recorded packet) := by
  intro ctx
  have sent : device.recorded.transfer packet ctx.tpm = ((device.transfer packet ctx.tpm.1).1,
    (device.transfer packet ctx.tpm.1).2,
      ctx.tpm.2 ++ [⟨packet, (device.transfer packet ctx.tpm.1).1, ctx.tpm.1, (device.transfer packet ctx.tpm.1).2⟩]) := rfl
  unfold execute
  rw [sent]
  rcases there : device.transfer packet ctx.tpm.1 with ⟨_ | _ | bytes, tpm⟩
  · simp [Ctx.forget, there]
  · simp [Ctx.forget, there]
  · simp only [Ctx.forget, there]
    split
    · rfl
    · rfl

protected theorem readResponse (read : Take α) : Records (σ := σ) (readResponse read) (readResponse read) := by
  intro ctx
  unfold readResponse
  rw [show ctx.forget.rsp = ctx.rsp from rfl]
  rcases read (ctx.rsp.drop 10) with ⟨problem | value, rest⟩
  · rfl
  · rfl

protected theorem perform (fields : List Field) (refusal : Nat → TpmCode) :
    Records (perform device fields refusal) (perform device.recorded fields refusal) := by
  unfold perform
  split
  · exact .fail _
  · exact .bind (.execute _) fun rc => .ite (.fail _) (.pure _)

/-! The commands, and the operations made of them. -/

protected theorem flushContext (handle : Handle) : Records (flushContext device handle)
    (flushContext device.recorded handle) := .perform _ _

protected theorem createPrimary : Records (createPrimary device) (createPrimary device.recorded) :=
  .bind (.perform _ _) fun _ => .readResponse _

protected theorem createObject (parent : Handle) (data auth : Bytes) (attributes : Nat) (policy : Bytes) :
    Records (createObject device parent data auth attributes policy)
    (createObject device.recorded parent data auth attributes policy) :=
  .ite (.fail _) (.ite (.fail _) (.bind (.perform _ _) fun _ => .readResponse _))

protected theorem createSealed (parent : Handle) (data auth : Bytes) :
    Records (createSealed device parent data auth) (createSealed device.recorded parent data auth) :=
  .ite (.fail _) (.createObject _ _ _ _ _)

protected theorem load (parent : Handle) (priv pub : Bytes) : Records (load device parent priv pub)
    (load device.recorded parent priv pub) :=
  .ite (.fail _) (.bind (.perform _ _) fun _ => .readResponse _)

protected theorem startAuthSession (nonce : Option (Buf 32)) (kind : Nat) :
    Records (startAuthSession device nonce kind) (startAuthSession device.recorded nonce kind) := by
  cases nonce with
  | none => exact .fail _
  | some nonce => exact .bind (.perform _ _) fun _ => .readResponse _

protected theorem policyPcr (session : Handle) (index : UInt32) :
    Records (policyPcr device session index) (policyPcr device.recorded session index) := .ite (.fail _) (.perform _ _)

protected theorem trialDigest (nonce : Option (Buf 32)) (index : UInt32) :
    Records (trialDigest device nonce index) (trialDigest device.recorded nonce index) :=
  .bind (.startAuthSession _ _) fun _ => .bind (.undoing (.policyPcr _ _) (.flushContext _)) fun _ =>
    .closing (.bind (.perform _ _) fun _ => .readResponse _) (.flushContext _)

protected theorem createSealedPcr (nonce : Option (Buf 32)) (parent : Handle) (data auth : Bytes) (index : UInt32) :
    Records (createSealedPcr device nonce parent data auth index)
    (createSealedPcr device.recorded nonce parent data auth index) :=
  .ite (.fail _) (.bind (.trialDigest _ _) fun _ => .createObject _ _ _ _ _)

protected theorem ensurePrimaryKey : Records (ensurePrimaryKey device) (ensurePrimaryKey device.recorded) := by
  intro ctx
  have read : Records (readPublic device ctx.parent 256) (readPublic device.recorded ctx.parent 256) :=
    .bind (.perform _ _) fun _ => .readResponse _
  have made : Records (do
      let transient ← createPrimary device
      (evictControl device transient ctx.parent).closing (flushContext device transient)
      pure ctx.parent) (do
      let transient ← createPrimary device.recorded
      (evictControl device.recorded transient ctx.parent).closing (flushContext device.recorded transient)
      pure ctx.parent) :=
    .bind .createPrimary fun transient => .bind (.closing (.perform _ _) (.flushContext _)) fun _ => .pure _
  unfold ensurePrimaryKey
  rw [show ctx.forget.parent = ctx.parent from rfl, read ctx]
  rcases readPublic device.recorded ctx.parent 256 ctx with ⟨problem | found, reached⟩
  · exact made reached
  · rfl

protected theorem unsealForUser (blob auth : Bytes) (room : Nat) :
    Records (unsealForUser device blob auth room) (unsealForUser device.recorded blob auth room) := by
  refine .ite (.fail _) (.bind .ensurePrimaryKey fun primary => ?_)
  cases unpackObject blob with
  | none => exact .fail _
  | some parts =>
    exact .bind (.load _ _ _) fun item => .closing (.bind (.perform _ _) fun _ => .readResponse _) (.flushContext _)

protected theorem unsealPolicy (item session : Handle) (room : Nat) :
    Records (unsealPolicy device item session room) (unsealPolicy device.recorded item session room) := by
  unfold unsealPolicy
  split
  · exact .closing (.closing (.fail _) (.flushContext _)) (.flushContext _)
  · exact .bind (.closing (.closing (.execute _) (.flushContext _)) (.flushContext _)) fun rc =>
      .ite (fun _ => rfl) (.readResponse _)

protected theorem unsealForUserPcr (nonce : Option (Buf 32)) (blob auth : Bytes) (index : UInt32) (room : Nat) :
    Records (unsealForUserPcr device nonce blob auth index room)
    (unsealForUserPcr device.recorded nonce blob auth index room) := by
  refine .ite (.fail _) (.ite (.fail _) (.bind .ensurePrimaryKey fun primary => .ite (fun _ => rfl) ?_))
  cases unpackObject blob.tail with
  | none => exact .fail _
  | some parts =>
    exact .bind (.load _ _ _) fun item => .bind (.undoing (.startAuthSession _ _) (.flushContext _)) fun session =>
      .bind (.undoing (.undoing (.policyPcr _ _) (.flushContext _)) (.flushContext _)) fun _ => .unsealPolicy _ _ _

end Records

theorem Operation.leaves_recorded (device : Device σ) (operation : Operation) (ctx : Ctx σ) :
    (operation.leaves device.recorded ctx.recorded).forget = operation.leaves device ctx := by
  have same {α : Type} {first : Proc (Ctx σ) TpmCode α} {second : Proc (Ctx (σ × List (Transaction σ))) TpmCode α}
      (records : Records first second) : (second ctx.recorded).2.forget = (first ctx).2 :=
        (congrArg Prod.snd (records ctx.recorded)).symm
  cases operation with
  | ensurePrimaryKey => exact same .ensurePrimaryKey
  | createSealed parent data auth => exact same (.createSealed _ _ _)
  | createSealedPcr nonce parent data auth index => exact same (.createSealedPcr _ _ _ _ _)
  | sealForUser data auth room =>
    exact same (.bind .ensurePrimaryKey fun _ => .bind (.createSealed _ _ _) fun _ => .ite (.fail _) (.pure _))
  | unsealForUser blob auth room => exact same (.unsealForUser _ _ _)
  | sealForUserPcr nonce data auth index room =>
    exact same (.ite (.fail _) (.bind .ensurePrimaryKey fun _ => .bind (.createSealedPcr _ _ _ _ _) fun _ => .ite
      (.fail _) (.pure _)))
  | unsealForUserPcr nonce blob auth index room => exact same (.unsealForUserPcr _ _ _ _ _)

/-- Whatever fails on the way, what was loaded in the TPM before an operation is loaded behind it,
and nothing else but what one of its commands has loaded of which nothing was heard. -/
theorem only_unheard_stays_loaded (tracks : Tracks device loaded) (operation : Operation) (ctx : Ctx σ) :
    loaded ctx.tpm ⊆ loaded (operation.leaves device ctx).tpm ∧
      ∀ handle ∈ loaded (operation.leaves device ctx).tpm, handle ∉ loaded ctx.tpm →
        ∃ exchange ∈ operation.exchanges device ctx, exchange.Strays loaded handle := by
  have kept := operation.keeps (tells_recorded tracks) ctx.recorded
  have start : toldBy loaded ctx.recorded.tpm = loaded ctx.tpm := Set.sdiff_empty
  have reached : toldBy loaded (operation.leaves device.recorded ctx.recorded).tpm =
      loaded (operation.leaves device ctx).tpm \ strayed loaded (operation.exchanges device ctx) := by
    rw [← operation.leaves_recorded device ctx]
    rfl
  rw [start, reached] at kept
  refine ⟨fun handle inside => ((Set.ext_iff.mp kept handle).mpr inside).1, fun handle inside missing => ?_⟩
  by_contra heard
  exact missing ((Set.ext_iff.mp kept handle).mp ⟨inside, fun strays => heard (mem_strayed strays)⟩)

end

namespace SoftTpm

def full (tpm : SoftTpm) : Command → Bool
  | .load .. => tpm.object.isSome
  | .startAuthSession .. => tpm.session.isSome
  | _ => false

def loaded (tpm : SoftTpm) : Set Handle :=
  {handle | (handle = objectHandle ∧ tpm.object.isSome) ∨ (handle = sessionHandle ∧ tpm.session.isSome)}

end SoftTpm

def crampedDevice : Device SoftTpm where
  transfer packet tpm :=
    match parseCommand packet with
    | some command =>
      if tpm.full command then (.reply SoftTpm.refusal, tpm) else (.reply (SoftTpm.act command tpm).1,
        (SoftTpm.act command tpm).2)
    | none => (.reply SoftTpm.refusal, tpm)

theorem announces_framed {tag code : Nat} {body : Bytes} (short : 10 + body.length ≤ maxPacketSize) (fits : code < 256 ^ 4) :
    (Transfer.reply (framed tag code body)).announces = if code ≠ 0 then .refused else announced body := by
  have whole : (framed tag code body).take maxPacketSize = framed tag code body :=
    List.take_of_length_le (by rwa [framed_length])
  have long : ¬ (framed tag code body).length < 10 := by
    rw [framed_length]
    omega
  unfold Transfer.announces
  dsimp only
  rw [whole, framed_code fits, framed_body, if_neg long]

theorem announces_handle (tag : Nat) (handle : Handle) (rest : Bytes)
    (short : 10 + (beBytes 4 handle.toNat ++ rest).length ≤ maxPacketSize) :
    (Transfer.reply (framed tag 0 (beBytes 4 handle.toNat ++ rest))).announces = .loaded handle := by
  rw [announces_framed short (by decide), if_neg (not_not_intro rfl), announced, takes_handle handle rest]
  rfl

theorem announces_refusal : (Transfer.reply SoftTpm.refusal).announces = .refused := announces_framed (by decide) (by decide)

namespace SoftTpm

theorem apart : objectHandle ≠ sessionHandle := by decide

/-- What is loaded depends on which slots are taken. -/
theorem loaded_congr {first second : SoftTpm} (object : first.object.isSome = second.object.isSome)
    (session : first.session.isSome = second.session.isSome) : first.loaded = second.loaded := by
  unfold loaded
  rw [object, session]

theorem loaded_object {tpm : SoftTpm} (item : SmallObject) : ({ tpm with object := some item } : SoftTpm).loaded =
    insert objectHandle tpm.loaded := by
  ext handle
  simp only [loaded, Set.mem_ofPred_eq, Set.mem_insert_iff, Option.isSome_some, and_true]
  tauto

theorem loaded_session {tpm : SoftTpm} (session : SoftSession) :
    ({ tpm with session := some session } : SoftTpm).loaded = insert sessionHandle tpm.loaded := by
  ext handle
  simp only [loaded, Set.mem_ofPred_eq, Set.mem_insert_iff, Option.isSome_some, and_true]
  tauto

theorem flushed_object (tpm : SoftTpm) : ({ tpm with object := none } : SoftTpm).loaded = tpm.loaded \ {objectHandle} := by
  ext handle
  have different := apart
  simp only [loaded, Set.mem_ofPred_eq, Set.mem_sdiff, Set.mem_singleton_iff, Option.isSome_none, Bool.false_eq_true,
    and_false, false_or]
  constructor
  · rintro ⟨rfl, session⟩
    exact ⟨.inr ⟨rfl, session⟩, different.symm⟩
  · rintro ⟨⟨here, _⟩ | there, other⟩
    · exact absurd here other
    · exact there

theorem flushed_session (tpm : SoftTpm) : ({ tpm with session := none } : SoftTpm).loaded = tpm.loaded \ {sessionHandle} := by
  ext handle
  have different := apart
  simp only [loaded, Set.mem_ofPred_eq, Set.mem_sdiff, Set.mem_singleton_iff, Option.isSome_none, Bool.false_eq_true,
    and_false, or_false]
  constructor
  · rintro ⟨rfl, object⟩
    exact ⟨.inl ⟨rfl, object⟩, different⟩
  · rintro ⟨there | ⟨here, _⟩, other⟩
    · exact there
    · exact absurd here other

end SoftTpm

open SoftTpm

theorem effect_flush (handle : Handle) (tpm : SoftTpm) :
    handle ∈ tpm.loaded → (act (.flushContext handle) tpm).2.loaded = tpm.loaded \ {handle} := by
  intro there
  unfold act
  dsimp only
  split
  next object =>
    rw [object.1]
    exact flushed_object tpm
  next other =>
    split
    next session =>
      rw [session.1]
      exact flushed_session tpm
    next neither => exact absurd there fun inside => inside.elim other neither

theorem effect_load {parent : Handle} {auth : Authorization} {priv pub : Bytes} {tpm : SoftTpm}
    (free : tpm.object.isSome = false) :
    Effect (.load parent auth priv pub) (Transfer.reply (act (.load parent auth priv pub) tpm).1).announces tpm.loaded
      (act (.load parent auth priv pub) tpm).2.loaded := by
  have absent : objectHandle ∉ tpm.loaded := by
    rintro (⟨_, taken⟩ | ⟨same, _⟩)
    · rw [free] at taken
      cases taken
    · exact apart same
  unfold act
  dsimp only
  split
  next item _ =>
    split
    · exact announces_handle stSessions objectHandle [] (by decide) ▸ ⟨absent, loaded_object item⟩
    · exact announces_refusal ▸ rfl
  · exact announces_refusal ▸ rfl

theorem effect_startAuthSession {key bound : Handle} {nonce salt : Bytes} {kind symmetric hash : Nat} {tpm : SoftTpm}
    (free : tpm.session.isSome = false) :
    Effect (.startAuthSession key bound nonce salt kind symmetric hash)
      (Transfer.reply (act (.startAuthSession key bound nonce salt kind symmetric hash) tpm).1).announces tpm.loaded
      (act (.startAuthSession key bound nonce salt kind symmetric hash) tpm).2.loaded := by
  have absent : sessionHandle ∉ tpm.loaded := by
    rintro (⟨same, _⟩ | ⟨_, taken⟩)
    · exact apart same.symm
    · rw [free] at taken
      cases taken
  have heard := announces_handle stNoSessions sessionHandle (tpm2b []) (by decide)
  exact heard ▸ ⟨absent, loaded_session _⟩

theorem create_keeps {parent : Handle} {auth : Authorization} {userAuth data outside : Bytes} {area : PublicArea}
    {pcrs : List PcrSelection}
    (tpm : SoftTpm) : (act (.create parent auth userAuth data area outside pcrs) tpm).2.loaded = tpm.loaded := by
  unfold act
  dsimp only
  split
  · split <;> rfl
  · rfl

theorem unseal_keeps {item : Handle} {auth : Authorization} (tpm : SoftTpm) :
    (act (.unsealItem item auth) tpm).2.loaded = tpm.loaded := by
  unfold act
  dsimp only
  split
  · split <;> rfl
  · rfl

theorem policyPcr_keeps {session : Handle} {digest : Bytes} {pcrs : List PcrSelection} (tpm : SoftTpm) :
    (act (.policyPcr session digest pcrs) tpm).2.loaded = tpm.loaded := by
  unfold act
  dsimp only
  split
  next held there =>
    split
    · exact loaded_congr rfl (congrArg Option.isSome there).symm
    · rfl
  · rfl

theorem policyGetDigest_keeps {session : Handle} (tpm : SoftTpm) : (act (.policyGetDigest session) tpm).2.loaded =
    tpm.loaded := by
  unfold act
  dsimp only
  split
  · split <;> rfl
  · rfl

/-- A command that may leave everything as it is, and does. -/
theorem effect_same {command : Command} {tpm after : SoftTpm} (quiet : ∀ heard, Effect command heard tpm.loaded tpm.loaded)
    (same : after.loaded = tpm.loaded) (heard : Announcement) : Effect command heard tpm.loaded after.loaded := by
  rw [same]
  exact quiet heard

theorem crampedDevice_tracks : Tracks crampedDevice SoftTpm.loaded := by
  intro packet command tpm parsed
  have answer : crampedDevice.transfer packet tpm =
      if tpm.full command then (.reply refusal, tpm) else (.reply (act command tpm).1, (act command tpm).2) := by
    unfold crampedDevice
    dsimp only
    rw [parsed]
  rw [answer]
  cases command with
  | readPublic handle | evictControl hierarchy object auth persistent => exact effect_same (fun _ => by rfl) rfl _
  | createPrimary hierarchy auth parameters =>
    have refused : (Transfer.reply (act (.createPrimary hierarchy auth parameters) tpm).1).announces = .refused :=
      announces_refusal
    exact refused ▸ rfl
  | create parent auth userAuth data area outside pcrs => exact effect_same (fun _ => by rfl) (create_keeps tpm) _
  | load parent auth priv pub =>
    cases free : tpm.object.isSome with
    | false =>
      have roomy : tpm.full (.load parent auth priv pub) = false := free
      rw [roomy]
      exact effect_load free
    | true =>
      have filled : tpm.full (.load parent auth priv pub) = true := free
      rw [filled]
      exact announces_refusal ▸ rfl
  | unsealItem item auth => exact effect_same (fun _ => by exact fun _ => rfl) (unseal_keeps tpm) _
  | flushContext handle => exact effect_flush handle tpm
  | startAuthSession key bound nonce salt kind symmetric hash =>
    cases free : tpm.session.isSome with
    | false =>
      have roomy : tpm.full (.startAuthSession key bound nonce salt kind symmetric hash) = false := free
      rw [roomy]
      exact effect_startAuthSession free
    | true =>
      have filled : tpm.full (.startAuthSession key bound nonce salt kind symmetric hash) = true := free
      rw [filled]
      exact announces_refusal ▸ rfl
  | policyPcr session digest pcrs => exact effect_same (fun _ => by rfl) (policyPcr_keeps tpm) _
  | policyGetDigest session => exact effect_same (fun _ => by rfl) (policyGetDigest_keeps tpm) _

/-- The same device, but some of its answers are lost. -/
def Device.losing {σ : Type} (device : Device σ) (loses : Bytes → Bool) : Device σ where
  transfer packet state :=
    (if loses packet then .readError else (device.transfer packet state).1, (device.transfer packet state).2)

/-- Whatever a command has done, it may have done unheard. -/
theorem Effect.unheard {command : Command} {heard : Announcement} {before after : Set Handle}
    (effect : Effect command heard before after) :
    Effect command .lost before after := by
  cases command with
  | createPrimary | load | startAuthSession =>
    cases heard with
    | refused => exact .inl effect
    | loaded handle => exact .inr ⟨handle, effect⟩
    | lost => exact effect
  | flushContext | unsealItem => exact effect
  | readPublic | evictControl | create | policyPcr | policyGetDigest => exact effect

theorem Tracks.losing {σ : Type} {device : Device σ} {loaded : σ → Set Handle} (tracks : Tracks device loaded)
    (loses : Bytes → Bool) :
    Tracks (device.losing loses) loaded := by
  intro packet command state parsed
  have effect := tracks packet command state parsed
  unfold Device.losing
  dsimp only
  split
  · exact effect.unheard
  · exact effect

def isLoad (packet : Bytes) : Bool :=
  match parseCommand packet with
  | some (.load ..) => true
  | _ => false

/-- A TPM that has made one object. -/
def madeCtx : Ctx SoftTpm where
  primaryHandle := hiyaPrimaryHandle
  rsp := []
  tpm := { made := [⟨{ userAuth := [], data := [1], attributes := 0x52, policy := [] }, by decide⟩], object := none, session := none }

def unsealMade : Operation := .unsealForUser (packObject (beBytes 4 0) [1]) [] 128

/-- The answer to Load is lost: the object stays. -/
theorem unsealMade_strays : objectHandle ∈ SoftTpm.loaded (unsealMade.leaves (crampedDevice.losing isLoad) madeCtx).tpm := by
  have left : (unsealMade.leaves (crampedDevice.losing isLoad) madeCtx).tpm.object.isSome = true := by decide +kernel
  exact .inl ⟨rfl, left⟩

theorem madeCtx_empty : objectHandle ∉ SoftTpm.loaded madeCtx.tpm := by
  rintro (⟨-, taken⟩ | ⟨same, -⟩)
  · cases taken
  · exact apart same

theorem only_unheard_stays_loaded_unseal :
    ∃ exchange ∈ unsealMade.exchanges (crampedDevice.losing isLoad) madeCtx, exchange.Strays SoftTpm.loaded objectHandle :=
  (only_unheard_stays_loaded (crampedDevice_tracks.losing isLoad)
    unsealMade madeCtx).2 objectHandle unsealMade_strays madeCtx_empty

theorem lost_answer_leaves_an_object :
    ¬ ∀ (σ : Type) (device : Device σ) (loaded : σ → Set Handle), Tracks device loaded →
    ∀ (operation : Operation) (ctx : Ctx σ),
      loaded (operation.leaves device ctx).tpm = loaded ctx.tpm := by
  intro claimed
  have same := claimed SoftTpm (crampedDevice.losing isLoad) SoftTpm.loaded (crampedDevice_tracks.losing isLoad)
    unsealMade madeCtx
  exact madeCtx_empty (same ▸ unsealMade_strays)

end Hiya.Tpm
