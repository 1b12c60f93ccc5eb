import Hiya.Pm.WrappingKeys
import Hiya.Proofs.SoftTpm
import Hiya.Proofs.VaultLifecycles

/-! What is written beside a vault for the TPM, and what comes back of it: the sidecar is always
that of the last key that was sealed, and no key is ever given back. -/

namespace Hiya.Pm.Wrapping
open Library
open Format (ensure_eq_ok)

private theorem high_bits_iff (flags : UInt32) : flags &&& ~~~1 = 0 ↔ flags.toNat ≤ 1 := by
  have rest : (flags &&& ~~~1).toNat / 2 = flags.toNat / 2 := by
    have mask : (~~~(1 : UInt32)).toNat / 2 = 2 ^ 31 - 1 := by decide
    have small : flags.toNat / 2 < 2 ^ 31 := by
      have bound := flags.toNat_lt
      omega
    rw [UInt32.toNat_and, Nat.and_div_two, mask, Nat.and_two_pow_sub_one_eq_mod, Nat.mod_eq_of_lt small]
  have even : (flags &&& ~~~1).toNat % 2 = 0 := by
    have apart : (~~~(1 : UInt32)).toNat &&& 1 = 0 := by decide
    rw [UInt32.toNat_and, ← Nat.and_one_is_mod, Nat.and_assoc, apart, Nat.and_zero]
  rw [← UInt32.toNat_inj]
  change (flags &&& ~~~1).toNat = 0 ↔ _
  omega

def flagsOf (requireTpm : Bool) : Nat := if requireTpm then 1 else 0

private theorem flags_iff (flags : Buf 2) (requireTpm : Bool) :
    (UInt32.ofNat flags.leValue &&& ~~~1 = 0 ∧ (decide (UInt32.ofNat flags.leValue &&& 1 ≠ 0)) = requireTpm) ↔
      flags = .le 2 (flagsOf requireTpm) := by
  have small : flags.leValue < 2 ^ 32 := Nat.lt_trans flags.leValue_lt (by decide)
  have value : (UInt32.ofNat flags.leValue).toNat = flags.leValue := UInt32.toNat_ofNat_of_lt' small
  rw [high_bits_iff, value]
  constructor
  · rintro ⟨bit, rfl⟩
    rw [← flags.le_leValue]
    obtain zero | one : flags.leValue = 0 ∨ flags.leValue = 1 := by omega
    · rw [zero]
      rfl
    · rw [one]
      rfl
  · rintro rfl
    cases requireTpm with
    | false => decide
    | true => decide

/-- A header as it is written, with anything in the bytes that are not read. -/
def headerWith (params : Params) (sealedLen : Nat) (unread : Buf 12) : Header :=
  (sidecarHeader params sealedLen).store 20 unread (by decide)

private theorem readHeader_headerWith (params : Params) {sealedLen : Nat} (short : sealedLen < 2 ^ 32) (unread : Buf 12) :
    readHeader (headerWith params sealedLen unread) = .ok (params, sealedLen) := by
  have begins : (headerWith params sealedLen unread).field 0 8 (by decide) = magic := by
    simp (disch := decide) only [headerWith, sidecarHeader, Buf.field_store_same, Buf.field_store_apart]
  have major : (headerWith params sealedLen unread).field 8 1 (by decide) = .single 1 := by
    simp (disch := decide) only [headerWith, sidecarHeader, Buf.field_store_same, Buf.field_store_apart]
  have minor : (headerWith params sealedLen unread).field 9 1 (by decide) = .single 0 := by
    simp (disch := decide) only [headerWith, sidecarHeader, Buf.field_store_same, Buf.field_store_apart]
  have flags : (headerWith params sealedLen unread).field 10 2 (by decide) = .le 2 (flagsOf params.requireTpm) := by
    simp (disch := decide) only [headerWith, sidecarHeader, Buf.field_store_same, Buf.field_store_apart, flagsOf]
  have register : (headerWith params sealedLen unread).field 12 4 (by decide) = .le 4 params.pcrIndex.toNat := by
    simp (disch := decide) only [headerWith, sidecarHeader, Buf.field_store_same, Buf.field_store_apart]
  have length : (headerWith params sealedLen unread).field 16 4 (by decide) = .le 4 sealedLen := by
    simp (disch := decide) only [headerWith, sidecarHeader, Buf.field_store_same, Buf.field_store_apart]
  obtain ⟨clear, bit⟩ := (flags_iff _ params.requireTpm).mpr flags
  refine bind_eq_ok.mpr ⟨(), Format.ensure_ok begins, bind_eq_ok.mpr ⟨(), Format.ensure_ok ⟨major, minor⟩, ?_⟩⟩
  refine bind_eq_ok.mpr ⟨(), Format.ensure_ok clear, ?_⟩
  rw [bit, register, length, Buf.leValue_le params.pcrIndex.toNat_lt, Buf.leValue_le short, UInt32.ofNat_toNat]
  rfl

private theorem readHeader_eq_ok {header : Header} {params : Params} {sealedLen : Nat}
    (read : readHeader header = .ok (params, sealedLen)) :
    (∃ unread, header = headerWith params sealedLen unread) ∧ sealedLen < 2 ^ 32 := by
  obtain ⟨_, magical, read⟩ := bind_eq_ok.mp read
  obtain ⟨_, version, read⟩ := bind_eq_ok.mp read
  obtain ⟨_, clear, read⟩ := bind_eq_ok.mp read
  have begins := ensure_eq_ok.mp magical
  obtain ⟨major, minor⟩ := ensure_eq_ok.mp version
  have bits := ensure_eq_ok.mp clear
  cases read
  have flags := (flags_iff (header.field 10 2 (by decide)) _).mp ⟨bits, rfl⟩
  have register : header.field 12 4 (by decide) = .le 4 (UInt32.ofNat (header.field 12 4 (by decide)).leValue).toNat := by
    have small : (header.field 12 4 (by decide)).leValue < 2 ^ 32 := (header.field 12 4 (by decide)).leValue_lt
    rw [UInt32.toNat_ofNat_of_lt' small, Buf.le_leValue]
  have agree := (((((((Buf.AgreeTo.start (.zero headerSize) header).store begins).store major).store minor).store flags).store
    register).store (Buf.le_leValue (header.field 16 4 (by decide))).symm).store (rfl : header.field 20 12 (by decide) = _)
  exact ⟨⟨_, agree.eq.symm⟩, (header.field 16 4 (by decide)).leValue_lt⟩

/-- What stands in a sidecar can be written into one. -/
structure Storable (params : Params) (sealedBlob : Bytes) : Prop where
  register : params.pcrIndex ≤ 23
  content : sealedBlob ≠ []
  short : sealedBlob.length < 2 ^ 32

private theorem parseSidecar_eq_ok {copied : Bool} {blob : Bytes} {params : Params} {sealedBlob : Bytes}
    (read : parseSidecar copied blob = .ok (params, sealedBlob)) :
    Storable params sealedBlob ∧ ∃ unread : Buf 12, blob = (headerWith params sealedBlob.length unread).bytes ++
    sealedBlob := by
  unfold parseSidecar at read
  split at read
  next long =>
    obtain ⟨⟨found, sealedLen⟩, header, read⟩ := bind_eq_ok.mp read
    obtain ⟨_, sized, read⟩ := bind_eq_ok.mp read
    obtain ⟨_, -, read⟩ := bind_eq_ok.mp read
    cases read
    obtain ⟨⟨unread, shape⟩, short⟩ := readHeader_eq_ok header
    obtain ⟨register, content, exact⟩ : ¬ 23 < params.pcrIndex ∧ sealedLen ≠ 0 ∧ blob.length = headerSize + sealedLen := by
      simpa only [not_or, not_not, ne_eq] using ensure_eq_ok.mp sized
    have length : (blob.drop headerSize).length = sealedLen := by
      rw [List.length_drop]
      omega
    have whole : (blob.drop headerSize).take sealedLen = blob.drop headerSize := List.take_of_length_le (by omega)
    rw [whole]
    refine ⟨⟨UInt32.not_lt.mp register, List.ne_nil_of_length_pos (by omega), by omega⟩, unread, ?_⟩
    rw [length, ← shape]
    exact (List.take_append_drop headerSize blob).symm
  next => cases read

theorem Storable.parseSidecar {params : Params} {sealedBlob : Bytes} (storable : Storable params sealedBlob)
    (unread : Buf 12) :
    parseSidecar true ((headerWith params sealedBlob.length unread).bytes ++ sealedBlob) = .ok (params, sealedBlob) := by
  have front : ((headerWith params sealedBlob.length unread).bytes ++ sealedBlob).take headerSize =
      (headerWith params sealedBlob.length unread).bytes := List.take_left' (Buf.length_bytes _)
  have back : ((headerWith params sealedBlob.length unread).bytes ++ sealedBlob).drop headerSize = sealedBlob :=
    List.drop_left' (Buf.length_bytes _)
  have length : ((headerWith params sealedBlob.length unread).bytes ++ sealedBlob).length = headerSize +
    sealedBlob.length := by
    rw [List.length_append, Buf.length_bytes]
  have header : Buf.ofBytes (((headerWith params sealedBlob.length unread).bytes ++ sealedBlob).take headerSize)
      (List.length_take_of_le (by omega)) = headerWith params sealedBlob.length unread := Buf.ext front
  have filled : sealedBlob.length ≠ 0 := fun none => storable.content (List.eq_nil_of_length_eq_zero none)
  have sized : ¬ (23 < params.pcrIndex ∨ sealedBlob.length = 0 ∨
      ((headerWith params sealedBlob.length unread).bytes ++ sealedBlob).length ≠ headerSize + sealedBlob.length) := by
    simp only [not_or, not_not, ne_eq]
    exact ⟨UInt32.not_lt.mpr storable.register, filled, length⟩
  unfold Wrapping.parseSidecar
  rw [dif_pos (by omega), header, back]
  refine bind_eq_ok.mpr ⟨_, readHeader_headerWith params storable.short unread, ?_⟩
  refine bind_eq_ok.mpr ⟨(), Format.ensure_ok sized, bind_eq_ok.mpr ⟨(), Format.ensure_ok rfl, ?_⟩⟩
  rw [List.take_length]
  rfl

/-- The bytes that nobody reads are written as zeros. -/
theorem sidecar_eq (params : Params) (sealedBlob : Bytes) :
    sidecar params sealedBlob = (headerWith params sealedBlob.length (.zero 12)).bytes ++ sealedBlob := by
  have zeros : (sidecarHeader params sealedBlob.length).field 20 12 (by decide) = .zero 12 := by
    unfold sidecarHeader
    simp (disch := decide) only [Buf.field_store_apart]
    rfl
  rw [headerWith, ← zeros, Buf.store_field]
  rfl

/-- A file is read as a sidecar exactly if it is one as it would be written for what is read,
but for the twelve bytes that nobody looks at. -/
theorem sidecar_is_read (blob : Bytes) (params : Params) (sealedBlob : Bytes) :
    parseSidecar true blob = .ok (params, sealedBlob) ↔
      Storable params sealedBlob ∧ ∃ unread : Buf 12, blob = (headerWith params sealedBlob.length unread).bytes ++
      sealedBlob := by
  constructor
  · exact parseSidecar_eq_ok
  · rintro ⟨storable, unread, rfl⟩
    exact storable.parseSidecar unread

section
variable {σ γ : Type} {view : World σ → γ} {device : Tpm.Device σ} {env : Env}

structure OfFiles (view : World σ → γ) : Prop where
  ctx : ∀ world ctx, view { world with ctx } = view world
  key : ∀ world key, view { world with key } = view world

private theorem ofFiles_wrapped : OfFiles (World.wrapped (σ := σ)) := ⟨fun _ _ => rfl, fun _ _ => rfl⟩

private theorem keeps_liftPm {α : Type} (outcome : Except PmError α) : Proc.Keeps view (liftPm outcome) := by
  cases outcome with
  | ok value => exact .pure value
  | error problem => exact .fail _

private theorem keeps_openTpm (blind : ∀ world ctx, view { world with ctx } = view world) : Proc.Keeps view (openTpm env) :=
  .ite (.fail _) (.modify fun world => blind world _)

private theorem keeps_onTpm {α : Type} (blind : ∀ world ctx, view { world with ctx } = view world)
    (failure : Tpm.TpmCode → Failure)
    (body : Proc (Tpm.Ctx σ) Tpm.TpmCode α) : Proc.Keeps view (onTpm failure body) := by
  intro world
  unfold onTpm
  rcases body world.ctx with ⟨problem | value, ctx⟩
  · exact blind world ctx
  · exact blind world ctx

private theorem keeps_setKey (files : OfFiles view) (key : Bytes) : Proc.Keeps view (setKey key) :=
    .modify fun world => files.key world key

private theorem keeps_unsealKey (files : OfFiles view) (failure : Tpm.TpmCode → Failure) (short : PmError)
    (sealedBlob : Bytes)
    (pcrIndex : UInt32) : Proc.Keeps view (unsealKey device env failure short sealedBlob pcrIndex) := by
  refine .bind ((keeps_onTpm files.ctx _ _).undoing (keeps_setKey files _)) fun data => .bind (keeps_setKey files _)
    fun _ => ?_
  exact .ite (.undoing (.fail _) (keeps_setKey files _)) (.pure _)

private theorem keeps_readSidecar : Proc.Keeps view (readSidecar env) :=
  .bind (keeps_liftPm _) fun _ => .bind .get fun _ => .bind (keeps_liftPm _) fun _ => keeps_liftPm _

private theorem keeps_unsealVaultKey (files : OfFiles view) : Proc.Keeps view (unsealVaultKey device env) := by
  refine .bind (.bind (keeps_setKey files _) fun _ => .bind keeps_readSidecar fun _ => ?_) fun _ => .pure _
  exact .bind (keeps_openTpm files.ctx) fun _ => .bind (keeps_unsealKey files _ _ _ _) fun _ => .pure _

private theorem keeps_unsealWrappingKey (files : OfFiles view) (sealedBlob : Bytes) (pcrIndex : UInt32) :
    Proc.Keeps view (unsealWrappingKey device env sealedBlob pcrIndex) := .ite (.fail _) (keeps_unsealKey files _ _ _ _)

private theorem keeps_vaultTpmUnseal (files : OfFiles view) (pcrIndex : UInt32) :
    Proc.Keeps view (vaultTpmUnsealWrappingKey device env pcrIndex) :=
  .bind (keeps_liftPm _) fun _ => .bind .get fun _ => .bind (keeps_liftPm _) fun _ => .bind (keeps_openTpm files.ctx) fun _ =>
    keeps_unsealWrappingKey files _ _

private theorem keeps_generateAndSeal (blind : ∀ world ctx, view { world with ctx } = view world) (pcrIndex : UInt32) :
    Proc.Keeps view (generateAndSealWrappingKey device env pcrIndex) := by
  unfold generateAndSealWrappingKey
  cases env.random with
  | none => exact .fail _
  | some wrappingKey => exact keeps_onTpm blind _ _

/-- The other sidecar is written, this one is not. -/
theorem keeps_vaultTpmSeal (pcrIndex : UInt32) : Proc.Keeps World.wrapped (vaultTpmSealWrappingKey device env pcrIndex) := by
  refine .bind (keeps_liftPm _) fun _ => .bind (keeps_openTpm ofFiles_wrapped.ctx) fun _ =>
    .bind (keeps_generateAndSeal ofFiles_wrapped.ctx _) fun sealedBlob => .bind ?_ fun _ => ?_
  · exact (keeps_unsealWrappingKey ofFiles_wrapped _ _).undoing (keeps_setKey ofFiles_wrapped _)
  · exact .undoing (.ite (.fail _) (.bind (.modify fun _ => rfl) fun _ => keeps_liftPm _)) (keeps_setKey ofFiles_wrapped _)

end

section
variable {σ : Type} {device : Tpm.Device σ} {env : Env} {world : World σ}

private theorem liftPm_ends {α : Type} {outcome : Except PmError α} {post : Except Failure α → World σ → Prop}
    (ok : ∀ value, outcome = .ok value → post (.ok value) world) (error : ∀ problem, post (.error (.pm problem)) world) :
    (liftPm outcome).Ends world post := by
  cases outcome with
  | ok value => exact ok value rfl
  | error problem => exact error problem

private theorem openTpm_ends {post : Except Failure Unit → World σ → Prop}
    (ok : post (.ok ()) { world with ctx := newCtx world.ctx.tpm })
    (error : post (.error .tpm) world) : (openTpm env).Ends world post := .ite (fun _ => .fail error) fun _ => .modify ok

private theorem onTpm_ends {α : Type} {failure : Tpm.TpmCode → Failure} {body : Proc (Tpm.Ctx σ) Tpm.TpmCode α}
    {post : Except Failure α → World σ → Prop}
    (ok : ∀ value ctx, body world.ctx = (.ok value, ctx) → post (.ok value) { world with ctx })
    (error : ∀ problem ctx, body world.ctx = (.error problem, ctx) → post (.error (failure problem)) { world with ctx }) :
    (onTpm failure body).Ends world post := by
  unfold Proc.Ends onTpm
  rcases came : body world.ctx with ⟨problem | value, ctx⟩
  · exact error problem ctx came
  · exact ok value ctx came

/-- How the sidecar is written: as a whole, or it stays as it was. -/
structure Writes (params : Params) (sealedBlob : Bytes) (world : World σ) (outcome : Except Failure Unit)
    (reached : World σ) : Prop where
  key : reached.key = world.key
  plain : reached.plain = world.plain
  done : outcome = .ok () → Storable params sealedBlob ∧ reached.wrapped.vault = some (sidecar params sealedBlob)
  undone : outcome ≠ .ok () → reached.wrapped.vault = world.wrapped.vault

theorem Writes.refused {params : Params} {sealedBlob : Bytes} (failure : Failure) :
    Writes params sealedBlob world (.error failure) world :=
  ⟨rfl, rfl, nofun, fun _ => rfl⟩

private theorem writeSidecar_ends (params : Params) (sealedBlob : Bytes) :
    (writeSidecar env params sealedBlob).Ends world (Writes params sealedBlob world) := by
  refine .bind (liftPm_ends (fun _ sized => ?_) fun problem => .refused _)
  refine .bind (liftPm_ends (fun _ valid => ?_) fun problem => .refused _)
  refine .bind (liftPm_ends (fun _ _ => ?_) fun problem => .refused _)
  refine .bind (liftPm_ends (fun _ _ => ?_) fun problem => .refused _)
  have storable : Storable params sealedBlob := ⟨ensure_eq_ok.mp valid, (ensure_eq_ok.mp sized).1, (ensure_eq_ok.mp sized).2⟩
  have replaces := Lifecycle.writeFileAtomic_replaces env.disk (sidecar params sealedBlob) world.wrapped
  unfold Proc.Ends at replaces ⊢
  unfold writeFileAtomic
  rcases written : Lifecycle.writeFileAtomic env.disk (sidecar params sealedBlob)
    world.wrapped with ⟨problem | nothing, wrapped⟩ <;>
    rw [written] at replaces
  · exact ⟨rfl, rfl, nofun, fun _ => replaces.undone nofun⟩
  · exact ⟨rfl, rfl, fun _ => ⟨storable, replaces.done rfl⟩, fun wrong => absurd rfl wrong⟩

def sealsInto (device : Tpm.Device σ) (env : Env) (params : Params) (wrappingKey : Buf keySize) (tpm : σ) :
    Except Tpm.TpmCode Bytes :=
  (Tpm.sealForUserPcr device env.sealNonce wrappingKey.bytes [] params.pcrIndex sealedBlobMax (newCtx tpm)).1

private theorem sealToTpm_ends (device : Tpm.Device σ) (env : Env) (world : World σ) (params : Params)
    (wrappingKey : Buf keySize) :
    (sealToTpm device env params wrappingKey).Ends world fun outcome reached => ∃ sealedBlob,
    Writes params sealedBlob world outcome reached ∧
      (outcome = .ok () → sealsInto device env params wrappingKey world.ctx.tpm = .ok sealedBlob) := by
  refine .bind (liftPm_ends (fun _ _ => ?_) fun problem => ⟨[], .refused _, nofun⟩)
  refine .bind (openTpm_ends ?_ ⟨[], .refused _, nofun⟩)
  refine .bind (onTpm_ends (fun sealedBlob ctx sealing => ?_) fun problem ctx failed => ?_)
  · refine (writeSidecar_ends params sealedBlob).mono fun outcome reached written => ?_
    exact ⟨sealedBlob, ⟨written.key, written.plain, written.done, written.undone⟩, fun _ => congrArg Prod.fst sealing⟩
  · exact ⟨[], ⟨rfl, rfl, nofun, fun _ => rfl⟩, nofun⟩

abbrev Step (σ : Type) := Event (World σ) (Input σ) (Except Failure Unit)

def Seals (event : Step σ) : Prop := (∃ params wrappingKey, event.input.request = .sealToTpm params wrappingKey) ∧
    event.outcome = .ok ()

def SealsAs (device : Tpm.Device σ) (params : Params) (sealedBlob : Bytes) (event : Step σ) : Prop :=
  ∃ wrappingKey, event.input.request = .sealToTpm params wrappingKey ∧ event.outcome = .ok () ∧
    sealsInto device event.input.env params wrappingKey event.before.ctx.tpm = .ok sealedBlob

theorem SealsAs.unique {params others : Params} {sealedBlob other : Bytes} {event : Step σ}
    (here : SealsAs device params sealedBlob event) (there : SealsAs device others other event) : params = others ∧
    sealedBlob = other := by
  obtain ⟨wrappingKey, asked, -, made⟩ := here
  obtain ⟨_, again, -, same⟩ := there
  cases asked.symm.trans again
  exact ⟨rfl, Except.ok.inj (made.symm.trans same)⟩

private theorem keeps_others {request : Request σ} (other : ¬ ∃ params wrappingKey, request = .sealToTpm params wrappingKey) :
    Proc.Keeps World.wrapped (answer device env request) := by
  cases request with
  | sealToTpm params wrappingKey => exact absurd ⟨params, wrappingKey, rfl⟩ other
  | unsealVaultKey => exact keeps_unsealVaultKey ofFiles_wrapped
  | vaultSeal pcrIndex => exact keeps_vaultTpmSeal pcrIndex
  | vaultUnseal pcrIndex => exact keeps_vaultTpmUnseal ofFiles_wrapped pcrIndex
  | others change => exact .modify fun _ => rfl

private theorem step_wrapped (device : Tpm.Device σ) (state : World σ) (input : Input σ) :
    (Seals ((keeper device).event state input) →
    ∃ params sealedBlob, SealsAs device params sealedBlob ((keeper device).event state input) ∧
      Storable params sealedBlob ∧ ((keeper device).event state input).after.wrapped.vault =
      some (sidecar params sealedBlob)) ∧
    (¬ Seals ((keeper device).event state input) →
    ((keeper device).event state input).after.wrapped.vault = state.wrapped.vault) := by
  obtain ⟨request, env, key⟩ := input
  by_cases asked : ∃ params wrappingKey, request = .sealToTpm params wrappingKey
  · obtain ⟨params, wrappingKey, rfl⟩ := asked
    obtain ⟨sealedBlob, written, made⟩ := sealToTpm_ends device env { state with key } params wrappingKey
    constructor
    · rintro ⟨-, done⟩
      obtain ⟨storable, there⟩ := written.done done
      exact ⟨params, sealedBlob, ⟨wrappingKey, rfl, done, made done⟩, storable, there⟩
    · intro refused
      exact written.undone fun done => refused ⟨⟨params, wrappingKey, rfl⟩, done⟩
  · refine ⟨fun seals => absurd seals.1 asked, fun _ => ?_⟩
    have kept : Proc.Keeps World.wrapped (answer device env request) := keeps_others asked
    exact congrArg Lifecycle.Files.vault (kept { state with key })

structure Recorded (device : Tpm.Device σ) (start : World σ) (past : List (Step σ)) (world : World σ) : Prop where
  never : (∀ event ∈ past, ¬ Seals event) → world.wrapped.vault = start.wrapped.vault
  last : ∀ params sealedBlob, Since (SealsAs device params sealedBlob) Seals past →
    Storable params sealedBlob ∧ world.wrapped.vault = some (sidecar params sealedBlob)

theorem Recorded.step {start state : World σ} {past : List (Step σ)} (recorded : Recorded device start past state)
    (input : Input σ) :
    Recorded device start (past ++ [(keeper device).event state input]) ((keeper device).event state input).after := by
  obtain ⟨sealed, kept⟩ := step_wrapped device state input
  constructor
  · intro none
    have silent : ¬ Seals ((keeper device).event state input) := none _ (List.mem_append_right _ (List.mem_singleton_self _))
    rw [kept silent]
    exact recorded.never fun event inside => none event (List.mem_append_left _ inside)
  · intro params sealedBlob since
    rcases since_snoc.mp since with marked | ⟨before, silent⟩
    · have seals : Seals ((keeper device).event state input) := by
        obtain ⟨wrappingKey, asked, done, -⟩ := marked
        exact ⟨⟨params, wrappingKey, asked⟩, done⟩
      obtain ⟨others, other, made, storable, there⟩ := sealed seals
      obtain ⟨rfl, rfl⟩ := marked.unique made
      exact ⟨storable, there⟩
    · rw [kept silent]
      exact recorded.last params sealedBlob before

structure Env.Fine (env : Env) : Prop where
  pathFits : env.pathFits = true
  looked : env.looked = true
  readable : env.readable = true
  memory : env.memory = true
  copied : env.copied = true
  tpmOpens : env.tpmOpens = true

def handed (failure : Tpm.TpmCode → Failure) (short : PmError) : Except Tpm.TpmCode Bytes → Except Failure Unit × Bytes
  | .ok data => if data.length = keySize then (.ok (), data) else (.error (.pm short), noKey)
  | .error problem => (.error (failure problem), noKey)

private theorem unsealKey_ends (device : Tpm.Device σ) (env : Env) (world : World σ) (failure : Tpm.TpmCode → Failure)
    (short : PmError) (sealedBlob : Bytes) (pcrIndex : UInt32) :
    (unsealKey device env failure short sealedBlob pcrIndex).Ends world fun outcome reached => (outcome, reached.key) =
      handed failure short (Tpm.unsealForUserPcr device env.unsealNonce sealedBlob [] pcrIndex keySize world.ctx).1 := by
  refine .bind (.undoing (onTpm_ends (fun data ctx came => ?_) fun problem ctx failed => ?_))
  · rw [came]
    refine Proc.Ends.andThen (.ite (fun wrong => ?_) fun right => ?_)
    · exact (if_neg wrong).symm
    · exact (if_pos (not_not.mp right)).symm
  · rw [failed]
    rfl

private theorem readSidecar_fine (fine : env.Fine) {params : Params} {sealedBlob : Bytes}
    (storable : Storable params sealedBlob)
    (there : world.wrapped.vault = some (sidecar params sealedBlob)) :
    readSidecar env world = (.ok (params, sealedBlob), world) := by
  have filled : sidecar params sealedBlob ≠ [] := fun none => storable.content (List.append_eq_nil_iff.mp none).2
  have whole : readFileAll env .notFound world.wrapped.vault = .ok (sidecar params sealedBlob) := by
    rw [there]
    refine bind_eq_ok.mpr ⟨(), Format.ensure_ok fine.looked, bind_eq_ok.mpr ⟨_, rfl, ?_⟩⟩
    refine bind_eq_ok.mpr ⟨(), Format.ensure_ok filled, bind_eq_ok.mpr ⟨(), Format.ensure_ok fine.memory, ?_⟩⟩
    exact bind_eq_ok.mpr ⟨(), Format.ensure_ok fine.readable, rfl⟩
  have parsed : parseSidecar env.copied (sidecar params sealedBlob) = .ok (params, sealedBlob) := by
    rw [fine.copied, sidecar_eq]
    exact storable.parseSidecar _
  have path : liftPm (Format.ensure (env.pathFits = true) .io) world = (.ok (), world) := by
    rw [Format.ensure_ok fine.pathFits]
    rfl
  unfold readSidecar
  rw [Proc.bind_of_ok path]
  change (do
    let blob ← liftPm (readFileAll env .notFound world.wrapped.vault)
    liftPm (parseSidecar env.copied blob) : Call σ (Params × Bytes)) world = _
  rw [whole]
  change liftPm (parseSidecar env.copied (sidecar params sealedBlob)) world = _
  rw [parsed]
  rfl

private theorem unsealVaultKey_fine (world : World σ) (fine : env.Fine) {params : Params} {sealedBlob : Bytes}
    (storable : Storable params sealedBlob)
    (there : world.wrapped.vault = some (sidecar params sealedBlob)) :
    (unsealVaultKey device env).Ends world fun outcome reached => (outcome, reached.key) =
      handed mapBioError .format
        (Tpm.unsealForUserPcr device env.unsealNonce sealedBlob [] params.pcrIndex keySize (newCtx world.ctx.tpm)).1 := by
  have read : readSidecar env { world with key := noKey } = (.ok (params, sealedBlob), { world with key := noKey }) :=
    readSidecar_fine fine storable there
  have opened : openTpm env { world with key := noKey } =
    (.ok (), { world with key := noKey, ctx := newCtx world.ctx.tpm }) := by
    unfold openTpm
    rw [fine.tpmOpens]
    rfl
  have back := unsealKey_ends device env { world with key := noKey, ctx := newCtx world.ctx.tpm }
    mapBioError .format sealedBlob params.pcrIndex
  refine .bind (.andThen (.bind (.of_eq read ?_)))
  refine Proc.Ends.bind (.of_eq opened ?_)
  refine Proc.Ends.bind (back.mono fun outcome reached same => ?_)
  cases outcome with
  | error problem => exact same
  | ok nothing => exact same

/-- The sidecar is what the last key that was sealed has left, and the TPM is asked for this key. -/
structure Remembers (device : Tpm.Device σ) (start : World σ) (past : List (Step σ)) (event : Step σ) : Prop where
  recorded : Recorded device start past event.before
  asked : ∀ params sealedBlob, Since (SealsAs device params sealedBlob) Seals past → event.input.request = .unsealVaultKey →
    event.input.env.Fine → (event.outcome, event.after.key) = handed mapBioError .format
      (Tpm.unsealForUserPcr device event.input.env.unsealNonce sealedBlob [] params.pcrIndex keySize
        (newCtx event.before.ctx.tpm)).1

theorem sidecar_is_last_sealed (device : Tpm.Device σ) (start : World σ) (inputs : List (Input σ)) :
    Throughout ((keeper device).run start inputs) (Remembers device start) := by
  have holds : Recorded device start [] start := by
    refine ⟨fun _ => rfl, fun _ _ since => ?_⟩
    obtain ⟨event, inside, -⟩ := since.mem
    exact absurd inside List.not_mem_nil
  refine Machine.run_every (Recorded device start) (fun past state input recorded => recorded.step input)
    (fun past state input recorded => ⟨recorded, ?_⟩) holds inputs
  obtain ⟨request, env, key⟩ := input
  rintro params sealedBlob since rfl fine
  obtain ⟨storable, there⟩ := recorded.last params sealedBlob since
  exact unsealVaultKey_fine { state with key } fine storable there

def Request.wantsKey : Request σ → Bool
  | .unsealVaultKey => true
  | .vaultSeal _ => true
  | .vaultUnseal _ => true
  | _ => false

structure Refuses {α : Type} (before : World σ) (outcome : Except Failure α) (after : World σ) : Prop where
  failure : ∃ failure, outcome = .error failure
  key : after.key = before.key ∨ after.key = noKey
  plain : after.plain = before.plain

theorem Refuses.here {α : Type} (failure : Failure) : Refuses (α := α) world (.error failure) world :=
    ⟨⟨failure, rfl⟩, .inl rfl, rfl⟩

section
variable {view : σ → Tpm.TpmState} (conforms : Tpm.Conforms device view)
include conforms

private theorem unsealKey_refuses (failure : Tpm.TpmCode → Failure) (short : PmError) (sealedBlob : Bytes)
    (pcrIndex : UInt32) :
    (unsealKey device env failure short sealedBlob pcrIndex).Ends world (Refuses world) := by
  refine .bind (.undoing (onTpm_ends (fun data ctx came => ?_) fun problem ctx _ => ?_))
  · exact absurd came (Tpm.unsealForUserPcr_lost conforms)
  · exact ⟨⟨failure problem, rfl⟩, .inr rfl, rfl⟩

private theorem unsealVaultKey_refuses (env : Env) (world : World σ) :
    (unsealVaultKey device env).Ends world (Refuses { world with key := noKey }) := by
  have untouched : Proc.Keeps id (readSidecar env : Call σ (Params × Bytes)) := keeps_readSidecar
  refine .bind (.andThen (untouched.ends (fun problem reached same => ?_) fun read reached same => ?_))
  · rw [show reached = { world with key := noKey } from same]
    exact .here problem
  · rw [show reached = { world with key := noKey } from same]
    refine .bind (openTpm_ends ?_ (.here _))
    refine .bind ((unsealKey_refuses conforms _ _ _ _).mono fun outcome after refuses => ?_)
    obtain ⟨failure, rfl⟩ := refuses.failure
    exact ⟨⟨failure, rfl⟩, refuses.key, refuses.plain⟩

private theorem unsealWrappingKey_refuses (sealedBlob : Bytes) (pcrIndex : UInt32) :
    (unsealWrappingKey device env sealedBlob pcrIndex).Ends world (Refuses world) :=
  .ite (fun _ => .fail (.here _)) fun _ => unsealKey_refuses conforms _ _ _ _

private theorem vaultTpmUnseal_refuses (env : Env) (world : World σ) (pcrIndex : UInt32) :
    (vaultTpmUnsealWrappingKey device env pcrIndex).Ends world (Refuses world) := by
  refine .bind (liftPm_ends (fun _ _ => ?_) fun problem => .here _)
  refine .get (.bind (liftPm_ends (fun sealedBlob _ => ?_) fun problem => .here _))
  refine .bind (openTpm_ends ?_ (.here _))
  exact (unsealWrappingKey_refuses conforms sealedBlob pcrIndex).mono fun outcome after refuses => ⟨refuses.failure,
    refuses.key, refuses.plain⟩

/-- The key has to come back before anything is written, and it does not. -/
theorem vaultTpmSeal_refuses (env : Env) (world : World σ) (pcrIndex : UInt32) :
    (vaultTpmSealWrappingKey device env pcrIndex).Ends world (Refuses world) := by
  refine .bind (liftPm_ends (fun _ _ => ?_) fun problem => .here _)
  refine .bind (openTpm_ends ?_ (.here _))
  have kept : Proc.Keeps (fun world : World σ => (world.key, world.plain)) (generateAndSealWrappingKey device env pcrIndex) :=
    keeps_generateAndSeal (fun _ _ => rfl) pcrIndex
  refine kept.ends (fun problem reached same => ?_) fun sealedBlob reached same => ?_
  · exact ⟨⟨problem, rfl⟩, .inl (congrArg Prod.fst same), congrArg Prod.snd same⟩
  · refine .bind (.undoing ((unsealWrappingKey_refuses conforms sealedBlob pcrIndex).mono fun outcome after refuses => ?_))
    obtain ⟨failure, rfl⟩ := refuses.failure
    exact ⟨⟨failure, rfl⟩, .inr rfl, refuses.plain.trans (congrArg Prod.snd same)⟩

/-- What holds of a step with a TPM that keeps to its specification. -/
structure Lost (start : World σ) (event : Step σ) : Prop where
  refused : event.input.request.wantsKey = true → ∃ failure, event.outcome = .error failure
  key : event.after.key = event.input.key ∨ event.after.key = noKey
  wiped : event.input.request = .unsealVaultKey → event.after.key = noKey
  plain : event.after.plain = start.plain

private theorem step_lost {start : World σ} (state : World σ) (input : Input σ) (same : state.plain = start.plain) :
    Lost start ((keeper device).event state input) := by
  obtain ⟨request, env, key⟩ := input
  cases request with
  | sealToTpm params wrappingKey =>
    obtain ⟨_, written, -⟩ := sealToTpm_ends device env { state with key } params wrappingKey
    exact ⟨nofun, .inl written.key, nofun, written.plain.trans same⟩
  | unsealVaultKey =>
    have refuses := unsealVaultKey_refuses conforms env { state with key }
    have wiped := or_self_iff.mp refuses.key
    exact ⟨fun _ => refuses.failure, .inr wiped, fun _ => wiped, refuses.plain.trans same⟩
  | vaultSeal pcrIndex =>
    have refuses := vaultTpmSeal_refuses conforms env { state with key } pcrIndex
    exact ⟨fun _ => refuses.failure, refuses.key, nofun, refuses.plain.trans same⟩
  | vaultUnseal pcrIndex =>
    have refuses := vaultTpmUnseal_refuses conforms env { state with key } pcrIndex
    exact ⟨fun _ => refuses.failure, refuses.key, nofun, refuses.plain.trans same⟩
  | others change => exact ⟨nofun, .inl rfl, nofun, same⟩

end

end

/-- Whatever is sealed, and however often it is asked for: a TPM that keeps to its specification
never gives a key back, and the plain file is never written. -/
theorem no_key_comes_back {σ : Type} (device : Tpm.Device σ) (view : σ → Tpm.TpmState) (conforms : Tpm.Conforms device view)
    (start : World σ) (inputs : List (Input σ)) :
    Throughout ((keeper device).run start inputs) fun _ event => Lost start event :=
  Machine.run_every (fun _ state => state.plain = start.plain)
    (fun _ state input same => (step_lost conforms state input same).plain)
    (fun _ state input same => step_lost conforms state input same) rfl inputs

def smoothly : Env where
  pathFits := true
  looked := true
  readable := true
  memory := true
  copied := true
  disk := { tmpPathFits := true, opens := true, writes := [], syncs := true, renames := true }
  tpmOpens := true
  sealNonce := some (.zero 32)
  unsealNonce := some (.zero 32)
  random := some (.zero keySize)
  plainOpens := true
  reported := 0
  landed := 0

def softWorld : World Tpm.SoftTpm := { wrapped := { vault := none, tmp := none }, plain := none, ctx := Tpm.softCtx, key := [] }

/-- A key is sealed, and then asked for in both ways. -/
def sealedThenAsked : List (Input Tpm.SoftTpm) := [
  { request := .sealToTpm .defaults (.zero keySize), env := smoothly, key := [] },
  { request := .unsealVaultKey, env := smoothly, key := [1] },
  { request := .vaultSeal 7, env := smoothly, key := [2] }]

theorem no_key_comes_back_soft :
    ((keeper Tpm.softDevice).run softWorld sealedThenAsked).map (fun event => event.outcome.toOption) =
    [some (), none, none] ∧
      Throughout ((keeper Tpm.softDevice).run softWorld sealedThenAsked) fun _ event => Lost softWorld event :=
  ⟨by decide +kernel, no_key_comes_back Tpm.softDevice Tpm.SoftTpm.view Tpm.softDevice_conforms softWorld sealedThenAsked⟩

end Hiya.Pm.Wrapping
