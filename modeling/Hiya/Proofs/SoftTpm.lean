import Hiya.Proofs.TpmSealing

/-! A small TPM that keeps to the specification: one parent key, room for one loaded
object and one session, and objects that are numbered in the order they are made. -/

namespace Hiya.Tpm
open Library

structure SmallObject where
  item : SealedObject
  small : item.data.length ≤ maxSealedData

structure SoftSession where
  kind : Nat
  digest : Buf 32

structure SoftTpm where
  made : List SmallObject
  object : Option SmallObject
  session : Option SoftSession

def objectHandle : Handle := 0x80000000
def sessionHandle : Handle := 0x03000000

def softKey : Key := { secret := 0, auth := [] }

private theorem extend_length (digest : Buf 32) : (digest.bytes.tail ++ [1]).length = 32 := by simp

def softExtend (digest : Buf 32) : Buf 32 := .ofBytes (digest.bytes.tail ++ [1]) (extend_length digest)

namespace SoftTpm

def only {α : Type} (place : Handle) (value : Option α) (handle : Handle) : Option α := if handle = place then value else none

def view (tpm : SoftTpm) : TpmState where
  keys := only hiyaPrimaryHandle (some softKey)
  objects := only objectHandle (tpm.object.map SmallObject.item)
  sessions := only sessionHandle (tpm.session.map fun session => { kind := session.kind, digest := session.digest.bytes })
  holds _ priv _ := (tpm.made[beNat priv]?).map SmallObject.item
  extended digest _ := digest.tail ++ [1]

def refusal : Bytes := framed stNoSessions 0x101 []

/-- Whether a loaded object may be read. -/
def opens (tpm : SoftTpm) (item : SealedObject) (auth : Authorization) : Bool :=
  (item.attributes.testBit 6 ∧ auth.session = rsPw ∧ auth.hmac = item.userAuth) ∨
    (auth.session = sessionHandle ∧ item.policy ≠ [] ∧
      tpm.session.any fun session => session.kind = sePolicy ∧ session.digest.bytes = item.policy)

def act (command : Command) (tpm : SoftTpm) : Bytes × SoftTpm :=
  match command with
  | .readPublic handle => (if handle = hiyaPrimaryHandle then framed stNoSessions 0 (tpm2b [1]) else refusal, tpm)
  | .createPrimary .. => (refusal, tpm)
  | .evictControl .. => (refusal, tpm)
  | .create parent auth userAuth data area .. =>
    if fits : data.length ≤ maxSealedData then
      if parent = hiyaPrimaryHandle ∧ auth.session = rsPw ∧ auth.hmac = [] ∧ tpm.made.length < 256 ^ 4 then
        (framed stSessions 0 (withSessions (tpm2b (beBytes 4 tpm.made.length) ++ (tpm2b [1] ++ [])) []),
          { tpm with made := tpm.made ++ [⟨{ userAuth, data, attributes := area.attributes, policy := area.policy }, fits⟩] })
      else (refusal, tpm)
    else (refusal, tpm)
  | .load parent auth priv _ =>
    match tpm.made[beNat priv]? with
    | some item =>
      if parent = hiyaPrimaryHandle ∧ auth.session = rsPw ∧ auth.hmac = [] then
        (framed stSessions 0 (beBytes 4 objectHandle.toNat ++ []), { tpm with object := some item })
      else (refusal, tpm)
    | none => (refusal, tpm)
  | .unsealItem handle auth =>
    match tpm.object with
    | some item =>
      if handle = objectHandle ∧ tpm.opens item.item auth then
        (framed stSessions 0 (withSessions (tpm2b item.item.data) []), tpm)
      else (refusal, tpm)
    | none => (refusal, tpm)
  | .flushContext handle =>
    if handle = objectHandle ∧ tpm.object.isSome then (framed stNoSessions 0 [], { tpm with object := none })
    else if handle = sessionHandle ∧ tpm.session.isSome then (framed stNoSessions 0 [], { tpm with session := none })
    else (refusal, tpm)
  | .startAuthSession _ _ _ _ kind _ _ =>
    (framed stNoSessions 0 (beBytes 4 sessionHandle.toNat ++ tpm2b []),
      { tpm with session := some { kind, digest := .zero 32 } })
  | .policyPcr handle _ _ =>
    match tpm.session with
    | some session =>
      if handle = sessionHandle then
        (framed stNoSessions 0 [], { tpm with session := some { session with digest := softExtend session.digest } })
      else (refusal, tpm)
    | none => (refusal, tpm)
  | .policyGetDigest handle =>
    match tpm.session with
    | some session =>
      if handle = sessionHandle then (framed stNoSessions 0 (tpm2b session.digest.bytes), tpm) else (refusal, tpm)
    | none => (refusal, tpm)

end SoftTpm

def softDevice : Device SoftTpm where
  transfer packet tpm :=
    match parseCommand packet with
    | some command => (.reply (SoftTpm.act command tpm).1, (SoftTpm.act command tpm).2)
    | none => (.reply SoftTpm.refusal, tpm)

def softCtx : Ctx SoftTpm where
  primaryHandle := hiyaPrimaryHandle
  rsp := []
  tpm := { made := [], object := none, session := none }

namespace SoftTpm

private theorem refusal_fails : Fails refusal := ⟨0x101, by decide, by decide, rfl⟩

private theorem update_only {α : Type} (place : Handle) (before after : Option α) :
    Function.update (only place before) place after = only place after := by
  funext handle
  unfold only
  by_cases here : handle = place
  · subst here
    rw [Function.update_self, if_pos rfl]
  · rw [Function.update_of_ne here, if_neg here, if_neg here]

private theorem only_here {α : Type} (place : Handle) (value : Option α) : only place value place = value := if_pos rfl

private theorem only_absent {α : Type} {place handle : Handle} {value : Option α} {found : α} (known : value = some found)
    (absent : only place value handle = none) : handle ≠ place := by
  intro here
  rw [here, only_here, known] at absent
  cases absent

private theorem only_some {α : Type} {place handle : Handle} {value : Option α} {found : α}
    (known : only place value handle = some found) :
    handle = place ∧ value = some found := by
  unfold only at known
  split at known
  next here => exact ⟨here, known⟩
  next => cases known

private theorem without_only {α : Type} {place handle : Handle} (value : Option α) (gone : handle = place → value = none) :
    Function.update (only place value) handle none = only place value := by
  apply Function.update_eq_self_iff.mpr
  unfold only
  split
  next here => exact (gone here).symm
  next => rfl

private theorem opens_iff (tpm : SoftTpm) (item : SealedObject) (auth : Authorization) :
    tpm.opens item auth = true ↔ MayUnseal tpm.view item auth := by
  unfold opens MayUnseal Authorization.IsPassword
  rw [decide_eq_true_iff]
  apply or_congr Iff.rfl
  constructor
  · rintro ⟨here, bound, fitting⟩
    obtain ⟨session, known, kind, digest⟩ : ∃ session, tpm.session = some session ∧ session.kind = sePolicy ∧
        session.digest.bytes = item.policy := by simpa [Option.any_eq_true] using fitting
    refine ⟨{ kind := session.kind, digest := session.digest.bytes }, ?_, kind, bound, digest⟩
    unfold view
    dsimp only
    rw [here, only_here, known]
    rfl
  · rintro ⟨session, known, kind, bound, digest⟩
    obtain ⟨here, known⟩ := only_some known
    obtain ⟨soft, there, rfl⟩ := Option.map_eq_some_iff.mp known
    refine ⟨here, bound, ?_⟩
    rw [there]
    simpa using ⟨kind, digest⟩

private theorem allowed_create {tpm : SoftTpm} {parent : Handle} {auth : Authorization} {userAuth data outside : Bytes}
    {area : PublicArea}
    {pcrs : List PcrSelection} : Allowed (.create parent auth userAuth data area outside pcrs) tpm.view
      (act (.create parent auth userAuth data area outside pcrs) tpm).1
      (act (.create parent auth userAuth data area outside pcrs) tpm).2.view := by
  unfold act
  dsimp only
  split
  next fits =>
    split
    next may =>
      obtain ⟨here, session, hmac, room⟩ := may
      refine .inr ⟨softKey, beBytes 4 tpm.made.length, [1], [], [], ?_, ⟨session, hmac⟩, ⟨?_, rfl⟩, rfl, ?_, ?_⟩
      · subst here
        exact only_here hiyaPrimaryHandle (some softKey)
      · simp [withSessions, tpm2b, maxPacketSize]
      · unfold view
        dsimp only
        rw [beNat_beBytes, Nat.mod_eq_of_lt room, List.getElem?_append_right (Nat.le_refl _), Nat.sub_self]
        rfl
      · intro key priv pub item held
        obtain ⟨small, found, same⟩ := Option.map_eq_some_iff.mp held
        have inside : beNat priv < tpm.made.length := (List.getElem?_eq_some_iff.mp found).1
        unfold view
        dsimp only
        rw [List.getElem?_append_left inside, found]
        exact congrArg some same
    next => exact .inl ⟨refusal_fails, rfl⟩
  next => exact .inl ⟨refusal_fails, rfl⟩

private theorem allowed_load {tpm : SoftTpm} {parent : Handle} {auth : Authorization} {priv pub : Bytes} :
    Allowed (.load parent auth priv pub) tpm.view (act (.load parent auth priv pub) tpm).1
      (act (.load parent auth priv pub) tpm).2.view := by
  intro key present
  obtain ⟨here, same⟩ := only_some present
  cases same
  unfold act
  dsimp only
  constructor
  · intro wrong
    split
    · rw [if_neg fun may => wrong may.2]
      exact ⟨refusal_fails, rfl⟩
    · exact ⟨refusal_fails, rfl⟩
  · intro password item held
    obtain ⟨small, found, rfl⟩ := Option.map_eq_some_iff.mp held
    rw [found]
    dsimp only
    rw [if_pos ⟨here, password⟩]
    refine ⟨objectHandle, [], ⟨by decide, rfl⟩, ?_⟩
    unfold view
    dsimp only
    rw [update_only, Option.map_some]

private theorem allowed_unseal {tpm : SoftTpm} {handle : Handle} {auth : Authorization} :
    Allowed (.unsealItem handle auth) tpm.view (act (.unsealItem handle auth) tpm).1
    (act (.unsealItem handle auth) tpm).2.view := by
  have unchanged : (act (.unsealItem handle auth) tpm).2 = tpm := by
    unfold act
    dsimp only
    split
    · split
      · rfl
      · rfl
    · rfl
  refine ⟨by rw [unchanged], fun absent => ?_, fun item loaded => ⟨fun refused => ?_, fun may => ?_⟩⟩
  · unfold act
    dsimp only
    split
    next item known =>
      have elsewhere : handle ≠ objectHandle := only_absent (congrArg (Option.map _) known) absent
      rw [if_neg fun both => elsewhere both.1]
      exact refusal_fails
    next => exact refusal_fails
  · obtain ⟨here, loaded⟩ := only_some loaded
    obtain ⟨small, known, rfl⟩ := Option.map_eq_some_iff.mp loaded
    unfold act
    dsimp only
    rw [known]
    dsimp only
    rw [if_neg fun both => refused ((opens_iff tpm small.item auth).mp both.2)]
    exact refusal_fails
  · obtain ⟨here, loaded⟩ := only_some loaded
    obtain ⟨small, known, rfl⟩ := Option.map_eq_some_iff.mp loaded
    unfold act
    dsimp only
    rw [known]
    dsimp only
    rw [if_pos ⟨here, (opens_iff tpm small.item auth).mpr may⟩]
    refine ⟨[], ?_, rfl⟩
    have fits : small.item.data.length ≤ 128 := small.small
    simp [withSessions, tpm2b, maxPacketSize]
    omega

private theorem transient_iff (tpm : SoftTpm) (handle : Handle) : tpm.view.Transient handle ↔
    (handle = objectHandle ∧ tpm.object.isSome = true) ∨ (handle = sessionHandle ∧ tpm.session.isSome = true) := by
  have noKey : ¬ (tpm.view.keys handle ≠ none ∧ isPersistent handle = false) := by
    rintro ⟨present, transient⟩
    obtain ⟨key, known⟩ := Option.ne_none_iff_exists'.mp present
    obtain ⟨rfl, -⟩ := only_some known
    exact absurd transient (by decide)
  have filled {α β : Type} (place : Handle) (value : Option α) (change : α → β) :
      only place (value.map change) handle ≠ none ↔ handle = place ∧ value.isSome = true := by
    unfold only
    by_cases here : handle = place
    · cases value with
      | none => simp
      | some found => simp [here]
    · simp [here]
  unfold TpmState.Transient
  rw [or_iff_left noKey]
  exact or_congr (filled objectHandle tpm.object SmallObject.item) (filled sessionHandle tpm.session _)

private theorem keys_without {handle : Handle} (tpm : SoftTpm) (other : handle ≠ hiyaPrimaryHandle) :
    Function.update tpm.view.keys handle none = tpm.view.keys := without_only _ fun same => absurd same other

private theorem allowed_flush {tpm : SoftTpm} {handle : Handle} :
    Allowed (.flushContext handle) tpm.view (act (.flushContext handle) tpm).1 (act (.flushContext handle) tpm).2.view := by
  have success : Succeeds stNoSessions [] (framed stNoSessions 0 []) := ⟨by decide, rfl⟩
  unfold Allowed
  dsimp only
  rw [transient_iff]
  unfold act
  dsimp only
  constructor
  · intro there
    by_cases object : handle = objectHandle ∧ tpm.object.isSome = true
    · rw [if_pos object]
      obtain ⟨rfl, -⟩ := object
      refine ⟨success, ?_⟩
      unfold TpmState.without
      rw [keys_without tpm (by decide)]
      unfold view
      dsimp only
      rw [update_only, without_only _ fun same => absurd same (by decide)]
      rfl
    · have session := there.resolve_left object
      rw [if_neg object, if_pos session]
      obtain ⟨rfl, -⟩ := session
      refine ⟨success, ?_⟩
      unfold TpmState.without
      rw [keys_without tpm (by decide)]
      unfold view
      dsimp only
      rw [update_only, without_only _ fun same => absurd same (by decide)]
      rfl
  · intro absent
    obtain ⟨object, session⟩ := not_or.mp absent
    rw [if_neg object, if_neg session]
    exact ⟨refusal_fails, rfl⟩

private theorem allowed_policyPcr {tpm : SoftTpm} {handle : Handle} {digest : Bytes} {pcrs : List PcrSelection} :
    Allowed (.policyPcr handle digest pcrs) tpm.view (act (.policyPcr handle digest pcrs) tpm).1
      (act (.policyPcr handle digest pcrs) tpm).2.view := by
  unfold act
  dsimp only
  constructor
  · intro absent
    split
    next session known =>
      rw [if_neg (only_absent (congrArg (Option.map _) known) absent)]
      exact ⟨refusal_fails, rfl⟩
    next => exact ⟨refusal_fails, rfl⟩
  · intro held present _
    obtain ⟨rfl, present⟩ := only_some present
    obtain ⟨session, known, rfl⟩ := Option.map_eq_some_iff.mp present
    rw [known]
    dsimp only
    rw [if_pos rfl]
    refine ⟨⟨by decide, rfl⟩, ?_⟩
    unfold view
    dsimp only
    rw [update_only]
    rfl

private theorem allowed_policyGetDigest {tpm : SoftTpm} {handle : Handle} :
    Allowed (.policyGetDigest handle) tpm.view (act (.policyGetDigest handle) tpm).1
    (act (.policyGetDigest handle) tpm).2.view := by
  have unchanged : (act (.policyGetDigest handle) tpm).2 = tpm := by
    unfold act
    dsimp only
    split
    · split
      · rfl
      · rfl
    · rfl
  refine ⟨by rw [unchanged], fun absent => ?_, fun held present => ?_⟩
  · unfold act
    dsimp only
    split
    next session known =>
      rw [if_neg (only_absent (congrArg (Option.map _) known) absent)]
      exact refusal_fails
    next => exact refusal_fails
  · obtain ⟨rfl, present⟩ := only_some present
    obtain ⟨session, known, rfl⟩ := Option.map_eq_some_iff.mp present
    unfold act
    dsimp only
    rw [known]
    dsimp only
    rw [if_pos rfl]
    refine ⟨?_, rfl⟩
    simp [tpm2b, maxPacketSize]

private theorem allowed_act (command : Command) (tpm : SoftTpm) :
    Allowed command tpm.view (act command tpm).1 (act command tpm).2.view := by
  cases command with
  | readPublic handle =>
    refine ⟨rfl, fun present => ⟨[1], [], by decide, ?_⟩, fun absent _ => ?_⟩
    · obtain ⟨key, known⟩ := Option.ne_none_iff_exists'.mp present
      obtain ⟨rfl, -⟩ := only_some known
      exact ⟨by decide, rfl⟩
    · have elsewhere : handle ≠ hiyaPrimaryHandle := by
        rintro rfl
        cases absent
      unfold act
      dsimp only
      rw [if_neg elsewhere]
      exact refusal_fails
  | createPrimary hierarchy auth parameters => exact .inl ⟨refusal_fails, rfl⟩
  | evictControl hierarchy object auth persistent => exact .inl ⟨refusal_fails, rfl⟩
  | create parent auth userAuth data area outside pcrs => exact allowed_create
  | load parent auth priv pub => exact allowed_load
  | unsealItem handle auth => exact allowed_unseal
  | flushContext handle => exact allowed_flush
  | startAuthSession key bound nonce salt kind symmetric hash =>
    intro _ _ _ _ _
    refine ⟨sessionHandle, [], ⟨by decide, rfl⟩, ?_⟩
    unfold act view
    dsimp only
    rw [update_only]
    rfl
  | policyPcr handle digest pcrs => exact allowed_policyPcr
  | policyGetDigest handle => exact allowed_policyGetDigest

end SoftTpm

theorem softDevice_conforms : Conforms softDevice SoftTpm.view := by
  intro packet command tpm parsed
  refine ⟨(SoftTpm.act command tpm).1, ?_, ?_⟩
  · unfold softDevice
    dsimp only
    rw [parsed]
  · have reached : (softDevice.transfer packet tpm).2 = (SoftTpm.act command tpm).2 := by
      unfold softDevice
      dsimp only
      rw [parsed]
    rw [reached]
    exact SoftTpm.allowed_act command tpm

theorem Later.refl (tpm : TpmState) : Later tpm tpm := ⟨fun _ _ _ present => present, fun _ _ _ _ held => held, rfl⟩

/-- What the context is after a byte has been sealed with a password. -/
def softSealed : Ctx SoftTpm := (sealWith softDevice none none [42] [1, 2] 1024 softCtx).2

private theorem softSealed_eq : sealWith softDevice none none [42] [1, 2] 1024 softCtx =
    (.ok [0, 4, 0, 0, 0, 0, 0, 1, 1], softSealed) := by
  have blob : (sealWith softDevice none none [42] [1, 2] 1024 softCtx).1 = .ok [0, 4, 0, 0, 0, 0, 0, 1, 1] :=
    by decide +kernel
  unfold softSealed
  rw [← blob]

theorem sealed_data_returns_unbound :
    (unsealWith softDevice none none [0, 4, 0, 0, 0, 0, 0, 1, 1] [1, 2] 32 softSealed).1 = .ok [42] := by
  have parent : softSealed.primaryHandle = softCtx.primaryHandle := by decide +kernel
  have returns := sealed_data_returns softDevice SoftTpm.view softDevice_conforms none none none [42] [1, 2]
    [0, 4, 0, 0, 0, 0, 0, 1, 1] 1024 32 softCtx softSealed softSealed softSealed_eq (.refl _) parent (by decide)
  exact returns.mpr rfl

def softBound : Ctx SoftTpm := (sealWith softDevice (some 7) (some (.zero 32)) [42] [] 1024 softCtx).2

private theorem softBound_eq :
    sealWith softDevice (some 7) (some (.zero 32)) [42] [] 1024 softCtx = (.ok [7, 0, 4, 0, 0, 0, 0, 0, 1, 1],
    softBound) := by
  have blob : (sealWith softDevice (some 7) (some (.zero 32)) [42] [] 1024 softCtx).1 = .ok [7, 0, 4, 0, 0, 0, 0, 0, 1,
    1] := by
    decide +kernel
  unfold softBound
  rw [← blob]

/-- Data sealed to a register does not come back: the session and the object are flushed
before the response with the data is read, and each flush overwrites it. -/
theorem bound_data_is_lost :
    ¬ ∀ (σ : Type) (device : Device σ) (view : σ → TpmState), Conforms device view →
      ∀ (binding : Option UInt32) (nonce nonceLater : Option (Buf 32)) (data auth blob : Bytes) (blobRoom room : Nat)
        (ctx sealedCtx later : Ctx σ), sealWith device binding nonce data auth blobRoom ctx = (.ok blob, sealedCtx) →
        Later (view sealedCtx.tpm) (view later.tpm) → later.primaryHandle = ctx.primaryHandle → data.length ≤ room →
        (unsealWith device binding nonceLater blob auth room later).1 = .ok data := by
  intro returns
  have parent : softBound.primaryHandle = softCtx.primaryHandle := by decide +kernel
  have back := returns SoftTpm softDevice SoftTpm.view softDevice_conforms (some 7) (some (.zero 32))
    (some (.zero 32)) [42] []
    [7, 0, 4, 0, 0, 0, 0, 0, 1, 1] 1024 32 softCtx softBound softBound softBound_eq (.refl _) parent (by decide)
  have lost : (unsealWith softDevice (some 7) (some (.zero 32)) [7, 0, 4, 0, 0, 0, 0, 0, 1, 1] [] 32 softBound).1 =
    .error .response := by
    decide +kernel
  rw [lost] at back
  cases back

end Hiya.Tpm
