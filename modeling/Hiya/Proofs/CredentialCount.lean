import Hiya.Library.Table
import Hiya.Proofs.StoreLoading
import Hiya.Proofs.TableSteps

/-! The number of stored credentials beside the table that holds them. Slots and
counter are edited separately; they stay in step as long as no credential is lost while
it is being replaced. -/

namespace Hiya.Fido2
open Library Cbor
open Proc (Ends)

def Ctx.slotsTaken (ctx : Ctx) (slot : CredSlot) : Bool := (ctx.credentials slot).inUse

def Tallied (ctx : Ctx) : Prop := ctx.credentialCount = (taken ctx.slotsTaken).card

def Ctx.tally (ctx : Ctx) : (CredSlot → Bool) × Nat := (ctx.slotsTaken, ctx.credentialCount)

theorem Tallied.congr {ctx reached : Ctx} (tallied : Tallied ctx) (same : reached.tally = ctx.tally) : Tallied reached := by
  obtain ⟨slots, count⟩ : reached.slotsTaken = ctx.slotsTaken ∧ reached.credentialCount = ctx.credentialCount := by
    simpa only [Ctx.tally, Prod.mk.injEq] using same
  unfold Tallied
  rw [slots, count]
  exact tallied

theorem slotsTaken_putCredential (slot : CredSlot) (cred : Credential) (ctx : Ctx) :
    (ctx.putCredential slot cred).slotsTaken = Function.update ctx.slotsTaken slot cred.inUse := by
  funext other
  change (Function.update ctx.credentials slot cred other).inUse = _
  by_cases here : other = slot
  · subst here
    rw [Function.update_self, Function.update_self]
  · rw [Function.update_of_ne here, Function.update_of_ne here]
    rfl

/-- A MakeCredential replaces the stored credential of the same party and user, and the
new table cannot be saved. -/
def LosesCredential (crypto : Crypto) (request : Request) (ctx : Ctx) : Prop :=
  ∃ cred slot, residentOf crypto request ctx = some cred ∧ ctx.slotFor cred.rp.idHash cred.user.id = some slot ∧
    (ctx.credentials slot).inUse = true ∧ (saveCredentials crypto request.env (ctx.storing slot cred)).1 ≠ .ok ()

section
variable {crypto : Crypto} {request : Request} {ctx : Ctx}

/-- What a command leaves of the tally, by whether it loses a credential. -/
def Accounts (crypto : Crypto) (request : Request) (ctx reached : Ctx) : Prop :=
  Tallied reached ↔ ¬ LosesCredential crypto request ctx

theorem not_loses_of_none (none : residentOf crypto request ctx = none) : ¬ LosesCredential crypto request ctx := by
  rintro ⟨cred, slot, some?, -⟩
  rw [none] at some?
  cases some?

/-- A credential is lost in the slot it was to be stored in, or not at all. -/
theorem loses_iff {cred : Credential} {slot : CredSlot} (resident : residentOf crypto request ctx = some cred)
    (place : ctx.slotFor cred.rp.idHash cred.user.id = some slot) :
    LosesCredential crypto request ctx ↔
      (ctx.credentials slot).inUse = true ∧ (saveCredentials crypto request.env (ctx.storing slot cred)).1 ≠ .ok () := by
  constructor
  · rintro ⟨found, other, same, there, lost⟩
    rw [resident] at same
    cases same
    rw [place] at there
    cases there
    exact lost
  · exact fun lost => ⟨cred, slot, resident, place, lost⟩

/-- The slots of a table with one credential replaced. -/
theorem slotsTaken_update {reached : Ctx} {slot : CredSlot} {cred : Credential}
    (credentials : reached.credentials = Function.update ctx.credentials slot cred) :
    reached.slotsTaken = Function.update ctx.slotsTaken slot cred.inUse := by
  rw [← slotsTaken_putCredential]
  funext other
  exact congrArg Credential.inUse (congrFun credentials other)

theorem stores_tallied (tallied : Tallied ctx) {reached : Ctx} {slot : CredSlot} {cred : Credential}
    (used : cred.inUse = true)
    (credentials : reached.credentials = Function.update ctx.credentials slot cred)
    (count : reached.credentialCount = ctx.credentialCount + if (ctx.credentials slot).inUse then 0 else 1) :
    Tallied reached := by
  have more := card_taken_take ctx.slotsTaken slot
  unfold Tallied at tallied ⊢
  rw [count, slotsTaken_update credentials, used, more, tallied]
  rfl

/-- Freeing the slot after a failed save is right only if it was free before. -/
theorem frees_tallied (tallied : Tallied ctx) {reached : Ctx} {slot : CredSlot} {cred : Credential}
    (credentials : reached.credentials = Function.update ctx.credentials slot { cred with inUse := false })
    (count : reached.credentialCount = ctx.credentialCount) : Tallied reached ↔ (ctx.credentials slot).inUse = false := by
  unfold Tallied at tallied ⊢
  rw [count, slotsTaken_update credentials, tallied]
  cases held : (ctx.credentials slot).inUse with
  | true =>
    have fewer := card_taken_free (show ctx.slotsTaken slot = true from held)
    simp only [Bool.true_eq_false, iff_false]
    omega
  | false =>
    rw [show Function.update ctx.slotsTaken slot false = ctx.slotsTaken from
      (congrArg (Function.update ctx.slotsTaken slot) (show false = ctx.slotsTaken slot from held.symm)).trans
        (Function.update_eq_self slot _)]
    simp

theorem deletes_tallied (tallied : Tallied ctx) {reached : Ctx} {slot : CredSlot}
    (inUse : (ctx.credentials slot).inUse = true)
    (credentials : reached.credentials = Function.update ctx.credentials slot .zero)
    (count : reached.credentialCount = ctx.credentialCount - 1) : Tallied reached := by
  have fewer := card_taken_free (show ctx.slotsTaken slot = true from inUse)
  unfold Tallied at tallied ⊢
  rw [count, slotsTaken_update credentials]
  change _ = (taken (Function.update ctx.slotsTaken slot false)).card
  omega

theorem process_accounts (tallied : Tallied ctx) :
    Ends (process crypto request) ctx fun _ reached => Accounts crypto request ctx reached := by
  have same {reached : Ctx} (slots : reached.slotsTaken = ctx.slotsTaken)
    (count : reached.credentialCount = ctx.credentialCount) :
      Tallied reached := by
    unfold Tallied
    rw [slots, count]
    exact tallied
  have kept (other : request.command ≠ .makeCredential) : ¬ LosesCredential crypto request ctx :=
    not_loses_of_none (residentOf_other other)
  refine (process_table crypto request ctx).mono fun _ reached step => ?_
  unfold Accounts
  cases step with
  | counts unstored same? =>
    refine iff_of_true (same ?_ same?.count) ?_
    · funext slot
      change (reached.credentials slot).inUse = (ctx.credentials slot).inUse
      rw [same?.credentials slot]
    · rintro ⟨cred, slot, resident, place, -⟩
      rw [unstored cred resident] at place
      cases place
  | stores resident place saved credentials count =>
    rw [loses_iff resident place]
    exact iff_of_true (stores_tallied tallied (residentOf_inUse resident) credentials count) fun lost => lost.2 saved
  | frees resident place failed credentials count =>
    rw [loses_iff resident place, frees_tallied tallied credentials count]
    simp [failed]
  | deletes other inUse credentials count => exact iff_of_true (deletes_tallied tallied inUse credentials count) (kept other)
  | renames other credentials count =>
    refine iff_of_true (same ?_ count) (kept other)
    rw [slotsTaken_update credentials]
    exact Function.update_eq_self _ ctx.slotsTaken
  | lists other credentials count =>
    refine iff_of_true (same ?_ count) (kept other)
    funext slot
    exact congrArg Credential.inUse (congrFun credentials slot)
  | clears other unused count =>
    refine iff_of_true ?_ (kept other)
    unfold Tallied
    rw [count, show reached.slotsTaken = fun _ => false from funext unused, card_taken_none]

end

section
variable {protect : Nat → UInt8}

/-- Read from the front of the records, knowing what was read. -/
theorem ends_read {α β : Type} {body : Take α} {next : α → Proc Loader Unit β} {loader : Loader}
    {post : Except Unit β → Loader → Prop} (failed : ∀ left, post (.error ()) { loader with rest := left })
    (rest : ∀ value left, body loader.rest = (.ok value, left) → Ends (next value) { loader with rest := left } post) :
    Ends (onRest body >>= next) loader post := by
  apply Ends.bind
  unfold Ends onRest Proc.zoom
  rcases outcome : body loader.rest with ⟨problem | value, left⟩
  · exact failed left
  · exact rest value left outcome

/-- Each record that is read takes a free slot. -/
theorem loadEntry_tallied : Proc.Preserves (fun loader => Tallied loader.ctx) (loadEntry protect) := by
  intro loader tallied
  change Ends (loadEntry protect) loader fun _ reached => Tallied reached.ctx
  refine ends_read (fun _ => tallied) fun flag left _ => ?_
  apply Ends.ite
  · exact fun _ => tallied
  intro _
  apply Ends.get
  cases free : loader.ctx.freeSlot with
  | none =>
    simp only [free]
    exact tallied
  | some slot =>
    have unused : loader.ctx.slotsTaken slot = false := by simpa [Ctx.slotsTaken] using List.find?_some free
    simp only [free]
    refine ends_read (fun _ => tallied) fun cred last done => ?_
    have used : cred.inUse = true := readCredential_inUse _ _ cred last done
    apply Ends.modify
    have more := card_taken_take loader.ctx.slotsTaken slot
    rw [unused] at more
    unfold Tallied at tallied ⊢
    change loader.ctx.credentialCount + 1 = (taken (loader.ctx.putCredential slot cred).slotsTaken).card
    rw [slotsTaken_putCredential, used, more, tallied]
    rfl

theorem loadEntries_tallied {ctx : Ctx} (empty : ctx.slotsTaken = fun _ => false) (count : Nat) (bytes : Bytes) :
    Tallied (loadEntries protect count bytes ctx) := by
  have none : Tallied { ctx with credentialCount := 0 } := by
    change 0 = (taken ctx.slotsTaken).card
    rw [empty, card_taken_none]
  exact Proc.Preserves.repeatWith (fun _ => loadEntry_tallied) (min count maxCredentialsStored) ()
    { rest := bytes, ctx := { ctx with credentialCount := 0 } } none

end

theorem loadFile_tallied {crypto : Crypto} {env : Env} {ctx : Ctx} (tallied : Tallied ctx)
    (empty : ctx.slotsTaken = fun _ => false) (file : Bytes) :
    Ends (loadFile crypto env file) ctx fun _ reached => Tallied reached := by
  unfold loadFile
  apply Ends.ite
  · exact fun _ => tallied
  intro _
  apply Ends.ite
  · exact fun _ => tallied
  intro _
  apply Ends.andThen
  apply Ends.get
  apply Ends.ite
  · intro _
    split
    next key _ =>
      rcases loadEncrypted_cases crypto key (storeHeader (leNat (sliceAt file 4 4).bytes) (leNat (sliceAt file 8 4).bytes)
        (uint32At file 12).toNat) (leNat (sliceAt file 8 4).bytes) (file.drop 16)
          { ctx with globalSignCount := uint32At file 12 }
        with ⟨problem, failed⟩ | ⟨size, nonce, text, plain, tag, -, -, done⟩
      · unfold Ends
        rw [failed]
        exact tallied
      · unfold Ends
        rw [done]
        apply loadEntries_tallied
        exact empty
    · exact tallied
  · intro _
    apply Ends.andThen
    apply Ends.ite
    · exact fun _ => tallied
    intro _
    apply Ends.andThen
    apply Ends.get
    apply Ends.ite
    · intro _
      have kept : Proc.Keeps Ctx.tally (saveCredentials crypto env) := keeps_saveCredentials fun _ _ => rfl
      refine Tallied.congr ?_ (kept _)
      apply loadEntries_tallied
      exact empty
    · intro _
      apply loadEntries_tallied
      exact empty

/-- Whatever the file, the authenticator starts with a count that is right. -/
theorem fido2Init_tallied (crypto : Crypto) (env : Env) (keypair : Keypair) (key : Buf 32) (disk : Option Bytes) :
    Tallied (fido2Init crypto env keypair key disk) := by
  have empty : Tallied (.fresh env keypair key disk) := (card_taken_none : (taken fun _ : CredSlot => false).card = 0).symm
  cases disk with
  | none => exact empty
  | some file => exact loadFile_tallied empty rfl file

/-- The counter is the number of slots in use, no more than there are, and GetInfo
reports the rest, as credentialManagement does. -/
structure SlotsCounted (ctx : Ctx) : Prop where
  count : ctx.credentialCount = (Finset.univ.filter fun slot : CredSlot => (ctx.credentials slot).inUse = true).card
  fits : ctx.credentialCount ≤ maxCredentialsStored
  remaining : (getInfoItems ctx).getLast? = some (encodeUint (UInt64.ofNat (maxCredentialsStored - ctx.credentialCount)))

theorem slotsCounted_iff {ctx : Ctx} : SlotsCounted ctx ↔ Tallied ctx := by
  constructor
  · exact fun counted => counted.count
  · intro tallied
    have fits : ctx.credentialCount ≤ maxCredentialsStored := by
      have all := card_taken_le ctx.slotsTaken
      rw [Fintype.card_fin] at all
      exact le_of_eq_of_le tallied all
    refine ⟨tallied, fits, ?_⟩
    change some (encodeUint (UInt64.ofNat maxCredentialsStored - UInt64.ofNat ctx.credentialCount)) = _
    rw [UInt64.ofNat_sub fits]

/-- From start-up on, the count is right after every step exactly if no step loses a
credential while replacing it. -/
theorem slots_counted_unless_lost (crypto : Crypto) (env : Env) (keypair : Keypair) (key : Buf 32) (disk : Option Bytes)
    (installed : Bool) (requests : List Request) :
    SlotsCounted ((fido2Init crypto env keypair key disk).setUvCallback installed) ∧
      (Throughout ((authenticator crypto).run ((fido2Init crypto env keypair key disk).setUvCallback installed) requests)
          (fun _ event => SlotsCounted event.after) ↔
        Throughout ((authenticator crypto).run ((fido2Init crypto env keypair key disk).setUvCallback installed) requests)
          (fun _ event => ¬ LosesCredential crypto event.input event.before)) := by
  have start : Tallied ((fido2Init crypto env keypair key disk).setUvCallback installed) :=
    (fido2Init_tallied crypto env keypair key disk).congr rfl
  have step (ctx : Ctx) (request : Request) (tallied : Tallied ctx) :
      Tallied ((authenticator crypto).event ctx request).after ↔ ¬ LosesCredential crypto request ctx :=
    process_accounts tallied
  refine ⟨slotsCounted_iff.mpr start, ?_⟩
  simp only [throughout_iff, slotsCounted_iff]
  have any : ∀ event ∈ (authenticator crypto).run ((fido2Init crypto env keypair key disk).setUvCallback installed)
    requests, True :=
    fun _ _ => trivial
  exact Machine.run_forall_iff Tallied (fun ctx request tallied _ => step ctx request tallied) start any

def losingRun : List Request :=
  [residentRequest 1 2, { residentRequest 1 2 with env := { plainEnv 1 with saveNonce := none } }]

theorem failed_replacement_miscounts :
    ¬ ∀ (crypto : Crypto) (env : Env) (keypair : Keypair) (key : Buf 32) (disk : Option Bytes) (installed : Bool)
      (requests : List Request),
      Throughout ((authenticator crypto).run ((fido2Init crypto env keypair key disk).setUvCallback installed) requests)
        fun _ event => SlotsCounted event.after := by
  intro claimed
  have all := claimed tagCipher (plainEnv 0) plainKeypair (.zero 32) none false losingRun
  have counted : ((authenticator tagCipher).run
    ((fido2Init tagCipher (plainEnv 0) plainKeypair (.zero 32) none).setUvCallback false)
      losingRun).any (fun event => event.after.credentialCount = 1 && event.after.inUse.length = 0) =
        true := by decide +kernel
  obtain ⟨event, inside, shape⟩ := List.any_eq_true.mp counted
  simp only [Bool.and_eq_true, decide_eq_true_eq] at shape
  obtain ⟨one, unused⟩ := shape
  have count := (all.of_mem inside).count
  have nothing : ∀ slot : CredSlot, (event.after.credentials slot).inUse = false := by
    intro slot
    have empty := List.eq_nil_of_length_eq_zero unused
    by_contra used
    have held : event.after.credentials slot ∈ event.after.inUse := by
      apply List.mem_filter.mpr
      exact ⟨List.mem_map_of_mem (List.mem_finRange slot), by simpa using used⟩
    rw [empty] at held
    cases held
  simp only [nothing, one, Bool.false_eq_true, Finset.filter_false, Finset.card_empty, one_ne_zero] at count

end Hiya.Fido2
