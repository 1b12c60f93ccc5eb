import Hiya.Library.Grouping
import Hiya.Proofs.Specimens
import Hiya.Proofs.TableSteps

/-! The enumerations of authenticatorCredentialManagement. That of the parties keeps what it
has to say; that of the credentials of a party keeps slots, and says what they hold when
their turn comes. A registration that cannot be saved may have emptied one of them. -/

namespace Hiya.Fido2
open Library Cbor
open Proc (Ends)

def Request.subCommand (request : Request) : Option UInt32 := request.management.map CredMgmtParams.subCommand

def Request.BeginsFor (request : Request) (rpIdHash : Buf 32) : Prop :=
  ∃ params, request.management = some params ∧ params.subCommand = 0x04 ∧ params.rpIdHash = some rpIdHash

def rpResponse (total : Option Nat) (rp : Buf 32 × CText maxRpIdLen) : List (Encode Unit) :=
  match total with
  | some total => [encodeMap 3] ++ rpItems rp ++ [encodeUint 0x05, encodeUint (UInt64.ofNat total)]
  | none => [encodeMap 2] ++ rpItems rp

def credentialResponse (total : Option Nat) (cred : Credential) : List (Encode Unit) :=
  match total with
  | some total => [encodeMap 5] ++ credentialItems cred ++
      [encodeUint 0x09, encodeUint (UInt64.ofNat total), encodeUint 0x0A, encodeUint cred.credProtect.toUInt64]
  | none => [encodeMap 4] ++ credentialItems cred ++ [encodeUint 0x0A, encodeUint cred.credProtect.toUInt64]

def Delivers (request : Request) (items : List (Encode Unit)) (outcome : Except Status Reply) : Prop :=
  ∃ bytes, encodeItems request.capacity items = some bytes ∧ outcome = .ok (.data bytes)

def AnswersParty (event : Exchange) (rp : Buf 32 × CText maxRpIdLen) : Prop :=
  ∃ total, (total = none ↔ event.input.subCommand = some 0x03) ∧ Delivers event.input (rpResponse total rp) event.outcome

def AnswersCredential (event : Exchange) (cred : Credential) : Prop :=
  ∃ total, (total = none ↔ event.input.subCommand = some 0x05) ∧
    Delivers event.input (credentialResponse total cred) event.outcome

def Ctx.waiting (ctx : Ctx) : List CredSlot := ctx.credEnum.credSlots.drop ctx.credEnum.credIndex

def BegunFor (rpIdHash : Buf 32) (past : List Exchange) : Prop :=
  Since (fun event => event.input.BeginsFor rpIdHash) (fun event => event.input.subCommand = some 0x04 ∧
    succeeds event.outcome = true) past

/-- A response describes a credential that is in use and belongs to the party the enumeration
was begun for. -/
def DescribesStored (past : List Exchange) (event : Exchange) : Prop :=
  (event.input.subCommand = some 0x04 ∨ event.input.subCommand = some 0x05) → succeeds event.outcome = true →
    ∃ slot, (event.before.credentials slot).inUse = true ∧
      BegunFor (event.before.credentials slot).rp.idHash (past ++ [event]) ∧
      AnswersCredential event (event.before.credentials slot)

/-- A MakeCredential replaces a credential whose turn in the enumeration is still to come, and
the new table cannot be saved. -/
def LosesListed (crypto : Crypto) (request : Request) (ctx : Ctx) : Prop :=
  ∃ cred slot, residentOf crypto request ctx = some cred ∧ ctx.slotFor cred.rp.idHash cred.user.id = some slot ∧
    (ctx.credentials slot).inUse = true ∧ (saveCredentials crypto request.env (ctx.storing slot cred)).1 ≠ .ok () ∧
      slot ∈ ctx.waiting

section
variable {crypto : Crypto} {request : Request} {ctx : Ctx}

theorem management_of_sub {code : UInt32} (sub : request.subCommand = some code) :
    ∃ params, request.management = some params ∧ params.subCommand = code ∧ request.command = .credentialManagement ∧
      parseCredMgmtParams request.body = .ok params := by
  obtain ⟨params, asked, same⟩ := Option.map_eq_some_iff.mp sub
  refine ⟨params, asked, same, ?_⟩
  unfold Request.management at asked
  split at asked
  · cases asked
  next command =>
    refine ⟨not_not.mp command, ?_⟩
    cases parsed : parseCredMgmtParams request.body with
    | error problem =>
      rw [parsed] at asked
      cases asked
    | ok found =>
      rw [parsed] at asked
      cases asked
      rfl

/-- Follow a credentialManagement request whose parameters are known. -/
theorem ends_management {params : CredMgmtParams} {post : Except Status Reply → Ctx → Prop}
    (command : request.command = .credentialManagement) (parsed : parseCredMgmtParams request.body = .ok params)
    (rest : Ends (if isGetNext params.subCommand then credMgmtCommand crypto request.env params request.capacity else do
      authorize crypto request.env permCredentialMgmt params.pinUvAuthParam params.pinProtocol
        (List.replicate 32 0xFF ++ [params.subCommand.toUInt8]) 16
      Proc.modify fun ctx => { ctx with credEnum := { ctx.credEnum with rps := [], credSlots := [] } }
      credMgmtCommand crypto request.env params request.capacity) ctx.dropAssertion post) :
    Ends (process crypto request) ctx post := by
  have other : request.command ≠ .getNextAssertion := by
    rw [command]
    decide
  have same : Cmd.ofByte request.cmd = .credentialManagement := command
  apply ends_process other
  unfold dispatch
  rw [same]
  change Ends (credentialManagement crypto request.env request.body request.capacity) _ _
  unfold credentialManagement
  rw [parsed]
  change Ends (if isGetNext params.subCommand then _ else _) _ _
  split at rest
  next yes =>
    rw [if_pos yes]
    exact rest
  next no =>
    rw [if_neg no]
    exact rest

/-- A denied request has changed nothing, and says so with a status of its own. -/
theorem authorize_ends {env : Env} (permission : UInt32) (param : Option (Blob 32)) (protocol : UInt32) (message : Bytes)
    (short : Nat) (ctx : Ctx) :
    Ends (authorize crypto env permission param protocol message short) ctx fun outcome reached =>
      reached = ctx ∧ ∀ problem, outcome = .error problem → problem ≠ .noCredentials := by
  have denied {problem : Status} (other : problem ≠ .noCredentials) :
      ctx = ctx ∧ ∀ status, (Except.error problem : Except Status Unit) = .error status → status ≠ .noCredentials :=
    ⟨rfl, fun status same => Except.error.inj same ▸ other⟩
  have granted : ctx = ctx ∧ ∀ status, (Except.ok () : Except Status Unit) = .error status → status ≠ .noCredentials :=
    ⟨rfl, fun _ same => nomatch same⟩
  apply Ends.get
  cases param with
  | some param =>
    refine ends_check (denied (by decide)) fun _ => ends_check (denied (by decide)) fun _ => ends_check
      (denied (by decide)) fun _ => ?_
    refine ends_check (denied (by decide)) fun _ => ?_
    unfold Command.check
    exact .ite (fun _ => granted) fun _ => denied (by decide)
  | none =>
    apply Ends.ite
    · intro _
      unfold Command.check
      exact .ite (fun _ => granted) fun _ => denied (by decide)
    · exact fun _ => denied (by decide)

theorem credsBegin_ends (sub : request.subCommand = some 0x04) :
    Ends (process crypto request) ctx fun outcome reached => succeeds outcome = true →
      ∃ rpIdHash first rest, request.BeginsFor rpIdHash ∧ ctx.slotsOf rpIdHash = first :: rest ∧
      reached.credentials = ctx.credentials ∧
        reached.credEnum.credSlots = first :: rest ∧ reached.credEnum.credIndex = 1 ∧
        Delivers request (credentialResponse (some (rest.length + 1)) (ctx.credentials first)) outcome := by
  obtain ⟨params, asked, code, command, parsed⟩ := management_of_sub sub
  apply ends_management command parsed
  rw [code, if_neg (by decide)]
  have kept : Proc.Keeps Ctx.credentials (authorize crypto request.env permCredentialMgmt params.pinUvAuthParam params.pinProtocol
    (List.replicate 32 0xFF ++ [(0x04 : UInt32).toUInt8]) 16) := keeps_authorize _ _ _ _ _
  refine kept.ends (fun _ _ _ failed => nomatch failed) fun _ start same => ?_
  have same : start.credentials = ctx.credentials := same
  apply Ends.andThen
  apply Ends.get
  rw [code]
  refine ends_need (fun failed => nomatch failed) fun rpIdHash given => ?_
  apply Ends.get
  have slots : (credSlots.filter fun slot => (start.credentials slot).inUse && (start.credentials slot).rp.idHash =
    rpIdHash) =
      ctx.slotsOf rpIdHash := by
    rw [same]
    rfl
  rw [slots]
  apply Ends.andThen
  cases found : ctx.slotsOf rpIdHash with
  | nil => exact fun failed => nomatch failed
  | cons first rest =>
    apply Ends.andThen
    refine ends_sendItems (fun _ failed => nomatch failed) fun bytes encoded _ => ?_
    rw [← same]
    exact ⟨rpIdHash, first, rest, ⟨params, asked, code, given⟩, found, rfl, rfl, rfl, bytes, encoded, rfl⟩

theorem credsNext_ends (sub : request.subCommand = some 0x05) :
    Ends (process crypto request) ctx fun outcome _ => succeeds outcome = true →
      ∃ slot, ctx.credEnum.credSlots[ctx.credEnum.credIndex]? = some slot ∧
        Delivers request (credentialResponse none (ctx.credentials slot)) outcome := by
  obtain ⟨params, asked, code, command, parsed⟩ := management_of_sub sub
  apply ends_management command parsed
  rw [code, if_pos (by decide)]
  apply Ends.get
  rw [code]
  apply Ends.get
  refine ends_need (fun failed => nomatch failed) fun slot found => ?_
  apply Ends.andThen
  refine ends_sendItems (fun _ failed => nomatch failed) fun bytes encoded _ => ?_
  exact ⟨slot, found, bytes, encoded, rfl⟩

theorem rpsBegin_ends (sub : request.subCommand = some 0x02) :
    Ends (process crypto request) ctx fun outcome reached =>
      (outcome = .error .noCredentials → ctx.parties = []) ∧
      (succeeds outcome = true → ∃ first rest, ctx.parties = first :: rest ∧ reached.credEnum.rps = first :: rest ∧
        reached.credEnum.rpIndex = 1 ∧ Delivers request (rpResponse (some (rest.length + 1)) first) outcome) := by
  obtain ⟨params, asked, code, command, parsed⟩ := management_of_sub sub
  apply ends_management command parsed
  rw [code, if_neg (by decide)]
  have failed {problem : Status} {reached : Ctx} (other : problem ≠ .noCredentials) :
      (Except.error problem = (.error .noCredentials : Except Status Reply) → ctx.parties = []) ∧
      (succeeds (.error problem) = true → ∃ first rest, ctx.parties = first :: rest ∧ reached.credEnum.rps = first :: rest ∧
        reached.credEnum.rpIndex = 1 ∧ Delivers request (rpResponse (some (rest.length + 1)) first) (.error problem)) :=
    ⟨fun same => absurd (Except.error.inj same) other, fun failed => nomatch failed⟩
  apply Ends.bind
  refine (authorize_ends _ _ _ _ _ _).mono fun outcome start denied => ?_
  obtain ⟨same, denied⟩ := denied
  cases outcome with
  | error problem => exact failed (denied problem rfl)
  | ok _ =>
    apply Ends.andThen
    apply Ends.get
    rw [code]
    apply Ends.get
    apply Ends.andThen
    have parties : ({ start with credEnum := { start.credEnum with rps := [], credSlots := [] } } : Ctx).parties =
      ctx.parties := by
      rw [same]
      rfl
    rw [parties]
    cases found : ctx.parties with
    | nil => exact ⟨fun _ => rfl, fun failed => nomatch failed⟩
    | cons first rest =>
      apply Ends.andThen
      refine ends_sendItems (fun _ => ?_) fun bytes encoded => ?_
      · rw [← found]
        exact failed (by decide)
      · exact ⟨(fun same => nomatch same), fun _ => ⟨first, rest, rfl, rfl, rfl, bytes, encoded, rfl⟩⟩

theorem rpsNext_ends (sub : request.subCommand = some 0x03) :
    Ends (process crypto request) ctx fun outcome reached =>
      match ctx.credEnum.rps[ctx.credEnum.rpIndex]? with
      | none => outcome = .error .noCredentials
      | some rp => reached.credEnum.rps = ctx.credEnum.rps ∧ reached.credEnum.rpIndex = ctx.credEnum.rpIndex + 1 ∧
          (outcome = .error .other ∨ Delivers request (rpResponse none rp) outcome) := by
  obtain ⟨params, asked, code, command, parsed⟩ := management_of_sub sub
  apply ends_management command parsed
  rw [code, if_pos (by decide)]
  apply Ends.get
  rw [code]
  apply Ends.get
  refine ends_value (fun missing => ?_) fun rp found => ?_
  · have missing : ctx.credEnum.rps[ctx.credEnum.rpIndex]? = none := missing
    rw [missing]
  · have found : ctx.credEnum.rps[ctx.credEnum.rpIndex]? = some rp := found
    rw [found]
    apply Ends.andThen
    exact ends_sendItems (fun _ => ⟨rfl, rfl, .inl rfl⟩) fun bytes encoded => ⟨rfl, rfl, .inr ⟨bytes, encoded, rfl⟩⟩

end

def Listed (past : List Exchange) (ctx : Ctx) : Prop :=
  ∀ slot ∈ ctx.waiting, (ctx.credentials slot).inUse = true ∧ BegunFor (ctx.credentials slot).rp.idHash past

section
variable {crypto : Crypto} {request : Request} {ctx : Ctx} {past : List Exchange}

theorem Listed.nothing (none : ctx.credEnum.credSlots = []) : Listed past ctx := by
  intro slot inside
  unfold Ctx.waiting at inside
  rw [none, List.drop_nil] at inside
  cases inside

theorem slotFor_some {rpIdHash : Buf 32} {user : Blob maxUserIdLen} {slot : CredSlot}
    (place : ctx.slotFor rpIdHash user = some slot) :
    (ctx.credentials slot).rp.idHash = rpIdHash ∨ (ctx.credentials slot).inUse = false := by
  unfold Ctx.slotFor at place
  cases same : credSlots.find? fun slot => (ctx.credentials slot).inUse && (ctx.credentials slot).rp.idHash = rpIdHash &&
      (ctx.credentials slot).user.id = user with
  | some found =>
    rw [same] at place
    cases place
    have held := List.find?_some same
    simp only [Bool.and_eq_true, decide_eq_true_eq] at held
    exact .inl held.1.2
  | none =>
    rw [same] at place
    have held := List.find?_some (show ctx.freeSlot = some slot from place)
    exact .inr (by simpa using held)

theorem mem_slotsOf {rpIdHash : Buf 32} {slot : CredSlot} :
    slot ∈ ctx.slotsOf rpIdHash ↔ (ctx.credentials slot).inUse = true ∧ (ctx.credentials slot).rp.idHash = rpIdHash := by
  unfold Ctx.slotsOf
  rw [List.mem_filter]
  simp [credSlots]

/-- A slot that was in turn before stays good while its credential is of the same party. -/
theorem Listed.keep {event : Exchange} (listed : Listed past event.before)
    (quiet : ¬ (event.input.subCommand = some 0x04 ∧ succeeds event.outcome = true))
    (each : ∀ slot ∈ event.after.waiting, slot ∈ event.before.waiting ∧ ((event.before.credentials slot).inUse = true →
      (event.after.credentials slot).inUse = true ∧
      (event.after.credentials slot).rp.idHash = (event.before.credentials slot).rp.idHash)) :
    Listed (past ++ [event]) event.after := by
  intro slot inside
  obtain ⟨waited, kept⟩ := each slot inside
  obtain ⟨used, begun⟩ := listed slot waited
  obtain ⟨stays, party⟩ := kept used
  rw [party]
  exact ⟨stays, since_snoc.mpr (.inr ⟨begun, quiet⟩)⟩

theorem waiting_eq {before after : Ctx} (same : after.credEnum = before.credEnum) : after.waiting = before.waiting := by
  unfold Ctx.waiting
  rw [same]

/-- Every command but one that loses a slot in turn leaves the enumeration in order. -/
theorem listed_step (listed : Listed past ctx) (fine : ¬ LosesListed crypto request ctx) :
    Listed (past ++ [(authenticator crypto).event ctx request]) ((authenticator crypto).event ctx request).after := by
  set event := (authenticator crypto).event ctx request with made
  by_cases begins : event.input.subCommand = some 0x04 ∧ succeeds event.outcome = true
  · obtain ⟨rpIdHash, first, rest, asked, slots, credentials, kept, index, -⟩ := credsBegin_ends begins.1 begins.2
    intro slot inside
    have inside : slot ∈ event.after.credEnum.credSlots := List.mem_of_mem_drop inside
    rw [show event.after.credEnum.credSlots = first :: rest from kept, ← slots] at inside
    obtain ⟨used, party⟩ := mem_slotsOf.mp inside
    rw [show event.after.credentials = ctx.credentials from credentials, party]
    exact ⟨used, since_snoc.mpr (.inl asked)⟩
  have step : TableStep crypto request ctx event.after := process_table crypto request ctx
  cases step with
  | counts _ same =>
    refine listed.keep begins fun slot inside => ?_
    rw [waiting_eq same.listing] at inside
    rw [same.credentials slot]
    exact ⟨inside, fun used => ⟨used, rfl⟩⟩
  | @stores cred place resident there saved credentials count listing =>
    refine listed.keep begins fun slot inside => ?_
    rw [waiting_eq listing] at inside
    refine ⟨inside, fun used => ?_⟩
    rw [credentials]
    by_cases here : slot = place
    · subst here
      rw [Function.update_self]
      refine ⟨residentOf_inUse resident, ?_⟩
      rcases slotFor_some there with same | free
      · exact same.symm
      · cases used.symm.trans free
    · rw [Function.update_of_ne here]
      exact ⟨used, rfl⟩
  | @frees cred place resident there failed credentials count listing =>
    refine listed.keep begins fun slot inside => ?_
    rw [waiting_eq listing] at inside
    refine ⟨inside, fun used => ?_⟩
    rw [credentials]
    by_cases here : slot = place
    · subst here
      exact absurd ⟨cred, slot, resident, there, used, failed, inside⟩ fine
    · rw [Function.update_of_ne here]
      exact ⟨used, rfl⟩
  | deletes other inUse credentials count listing => exact .nothing listing
  | renames other credentials count listing => exact .nothing listing
  | clears other unused count listing => exact .nothing listing
  | lists other credentials count listing =>
    cases listing with
    | stops none => exact .nothing none
    | begins asked sub given slots first =>
      -- A Begin whose response does not fit has still begun.
      intro slot inside
      have inside : slot ∈ event.after.credEnum.credSlots := List.mem_of_mem_drop inside
      rw [slots] at inside
      obtain ⟨used, party⟩ := mem_slotsOf.mp inside
      rw [credentials, party]
      exact ⟨used, since_snoc.mpr (.inl ⟨_, asked, sub, given⟩)⟩
    | advances same further =>
      refine listed.keep begins fun slot inside => ?_
      rw [credentials]
      refine ⟨?_, fun used => ⟨used, rfl⟩⟩
      unfold Ctx.waiting at inside
      rw [same] at inside
      exact List.drop_subset_drop_left _ further inside

theorem describes_step (listed : Listed past ctx) (request : Request) :
    DescribesStored past ((authenticator crypto).event ctx request) := by
  intro sub done
  rcases sub with four | five
  · obtain ⟨rpIdHash, first, rest, asked, slots, -, -, -, sent⟩ := credsBegin_ends four done
    have inside : first ∈ ctx.slotsOf rpIdHash := by
      rw [slots]
      exact List.mem_cons_self
    obtain ⟨used, party⟩ := mem_slotsOf.mp inside
    refine ⟨first, used, since_snoc.mpr (.inl ?_), some (rest.length + 1), ?_, sent⟩
    · rw [show ((authenticator crypto).event ctx request).before = ctx from rfl, party]
      exact asked
    · exact iff_of_false (Option.some_ne_none _) fun five => nomatch four.symm.trans five
  · obtain ⟨slot, found, sent⟩ := credsNext_ends five done
    have inside : slot ∈ ctx.waiting := by
      unfold Ctx.waiting
      rw [List.drop_eq_getElem?_toList_append, found]
      exact List.mem_append_left _ List.mem_cons_self
    obtain ⟨used, begun⟩ := listed slot inside
    refine ⟨slot, used, since_snoc.mpr (.inr ⟨begun, fun begins => ?_⟩), none, iff_of_true rfl five, sent⟩
    have four : request.subCommand = some 0x04 := begins.1
    cases five.symm.trans four

end

section
variable {crypto : Crypto} {ctx : Ctx}

theorem mem_inUse {cred : Credential} : cred ∈ ctx.inUse ↔ ∃ slot, ctx.credentials slot = cred ∧ cred.inUse = true := by
  unfold Ctx.inUse
  rw [List.mem_filter, List.mem_map]
  simp [credSlots]

theorem parties_distinct (ctx : Ctx) : (ctx.parties.map Prod.fst).Nodup :=
  nodup_firstPicks (fun cred : Credential => (cred.rp.idHash, cred.rp.id)) Prod.fst ctx.inUse

theorem mem_parties {rpIdHash : Buf 32} : rpIdHash ∈ ctx.parties.map Prod.fst ↔
    ∃ slot, (ctx.credentials slot).inUse = true ∧ (ctx.credentials slot).rp.idHash = rpIdHash := by
  have listed := @mem_firstPicks _ _ _ _ (fun cred : Credential => (cred.rp.idHash, cred.rp.id)) Prod.fst ctx.inUse rpIdHash
  refine listed.trans ?_
  simp only [mem_inUse]
  constructor
  · rintro ⟨_, ⟨slot, rfl, used⟩, same⟩
    exact ⟨slot, used, same⟩
  · rintro ⟨slot, used, same⟩
    exact ⟨_, ⟨slot, rfl, used⟩, same⟩

/-- The answers up to the refusal are what was left of the parties. -/
theorem rpsNext_run {nexts : List Request} (all : ∀ next ∈ nexts, next.subCommand = some 0x03) :
    ∀ {state : Ctx} {answered : List Exchange} {last : Exchange}, (authenticator crypto).run state nexts = answered ++
    [last] →
      (∀ event ∈ answered, succeeds event.outcome = true) → last.outcome = .error .noCredentials →
      List.Forall₂ AnswersParty answered (state.credEnum.rps.drop state.credEnum.rpIndex) := by
  induction nexts with
  | nil =>
    intro state answered last shape
    exact absurd (congrArg List.length shape) (by simp [Machine.run])
  | cons next rest ih =>
    intro state answered last shape done refused
    have ends := @rpsNext_ends crypto next state (all next List.mem_cons_self)
    unfold Ends at ends
    rw [Machine.run] at shape
    set event := (authenticator crypto).event state next with made
    cases found : state.credEnum.rps[state.credEnum.rpIndex]? with
    | none =>
      simp only [found] at ends
      have failed : event.outcome = .error .noCredentials := ends
      have nothing : state.credEnum.rps.drop state.credEnum.rpIndex = [] := by
        rw [List.drop_eq_getElem?_toList_append, found]
        exact List.drop_eq_nil_of_le (Nat.le_succ_of_le (List.getElem?_eq_none_iff.mp found))
      rw [nothing]
      cases answered with
      | nil => exact .nil
      | cons first more =>
        have same : event = first := by
          split at shape
          · exact (List.cons.inj shape).1
          · exact (List.cons.inj shape).1
        have good := done first List.mem_cons_self
        rw [← same, failed] at good
        cases good
    | some rp =>
      simp only [found] at ends
      obtain ⟨rps, index, ended⟩ := ends
      have rest? : state.credEnum.rps.drop state.credEnum.rpIndex =
        rp :: event.after.credEnum.rps.drop event.after.credEnum.rpIndex := by
        rw [show event.after.credEnum.rps = state.credEnum.rps from rps, show event.after.credEnum.rpIndex = _ from index,
          List.drop_eq_getElem?_toList_append, found]
        rfl
      rcases ended with failed | sent
      · have goes : (authenticator crypto).halts event.outcome = false := by
          rw [show event.outcome = .error .other from failed]
          rfl
        rw [goes] at shape
        cases answered with
        | nil =>
          have same := (List.cons.inj shape).1
          rw [← same, show event.outcome = .error .other from failed] at refused
          cases refused
        | cons first more =>
          have good := done first List.mem_cons_self
          rw [← (List.cons.inj shape).1, show event.outcome = .error .other from failed] at good
          cases good
      · obtain ⟨bytes, encoded, replied⟩ := sent
        have replied : event.outcome = .ok (.data bytes) := replied
        have goes : (authenticator crypto).halts event.outcome = false := by
          rw [replied]
          rfl
        rw [goes] at shape
        cases answered with
        | nil =>
          have same := (List.cons.inj shape).1
          rw [← same, replied] at refused
          cases refused
        | cons first more =>
          obtain ⟨same, later⟩ := List.cons.inj shape
          rw [rest?]
          refine .cons ?_ (ih (fun next inside => all next (List.mem_cons_of_mem _ inside)) later
            (fun event inside => done event (List.mem_cons_of_mem _ inside)) refused)
          rw [← same]
          exact ⟨none, iff_of_true rfl (all next List.mem_cons_self), bytes, encoded, replied⟩

/-- A Begin and its GetNexts, up to the refusal of one. -/
structure CompleteRps (crypto : Crypto) (ctx : Ctx) (opening : Request) (nexts : List Request)
    (answered : List Exchange) (last : Exchange) :
    Prop where
  begins : opening.subCommand = some 0x02
  continues : ∀ next ∈ nexts, next.subCommand = some 0x03
  ran : (authenticator crypto).run ctx (opening :: nexts) = answered ++ [last]
  done : ∀ event ∈ answered, succeeds event.outcome = true
  refused : last.outcome = .error .noCredentials

theorem CompleteRps.answers {opening : Request} {nexts : List Request} {answered : List Exchange} {last : Exchange}
    (complete : CompleteRps crypto ctx opening nexts answered last) : List.Forall₂ AnswersParty answered ctx.parties := by
  obtain ⟨begins, continues, ran, done, refused⟩ := complete
  obtain ⟨empty, full⟩ := @rpsBegin_ends crypto opening ctx begins
  rw [Machine.run] at ran
  set event := (authenticator crypto).event ctx opening with made
  cases answered with
  | nil =>
    have same : event = last := by
      split at ran
      · exact (List.cons.inj ran).1
      · exact (List.cons.inj ran).1
    rw [empty (show event.outcome = _ from same ▸ refused)]
    exact .nil
  | cons first more =>
    have same : event = first := by
      split at ran
      · exact (List.cons.inj ran).1
      · exact (List.cons.inj ran).1
    have good : succeeds event.outcome = true := same ▸ done first List.mem_cons_self
    obtain ⟨party, rest, parties, rps, index, bytes, encoded, replied⟩ := full good
    have goes : (authenticator crypto).halts event.outcome = false := by
      rw [show event.outcome = .ok (.data bytes) from replied]
      rfl
    rw [goes] at ran
    have later := rpsNext_run continues (List.cons.inj ran).2
      (fun event inside => done event (List.mem_cons_of_mem _ inside)) refused
    rw [show event.after.credEnum.rps = party :: rest from rps, show event.after.credEnum.rpIndex = 1 from index] at later
    rw [parties, ← same]
    refine .cons ⟨some (rest.length + 1), ?_, bytes, encoded, replied⟩ later
    refine iff_of_false (Option.some_ne_none _) fun three => ?_
    cases begins.symm.trans three

end

/-- While no registration loses a credential whose turn is to come, every response of an
enumeration of credentials describes one that is in use and belongs to the party. And a
complete enumeration of the parties, from whatever state, gives each of them once. -/
theorem enumerations_describe_stored (crypto : Crypto) (env : Env) (keypair : Keypair) (wrapKey : Buf 32)
    (disk : Option Bytes)
    (installed : Bool) (requests : List Request) :
    (Throughout ((authenticator crypto).run ((fido2Init crypto env keypair wrapKey disk).setUvCallback installed) requests)
        (fun _ event => ¬ LosesListed crypto event.input event.before) →
      Throughout ((authenticator crypto).run ((fido2Init crypto env keypair wrapKey disk).setUvCallback installed) requests)
        DescribesStored) ∧
    ∀ (ctx : Ctx) (opening : Request) (nexts : List Request) (answered : List Exchange) (last : Exchange),
      CompleteRps crypto ctx opening nexts answered last →
      ∃ rps, List.Forall₂ AnswersParty answered rps ∧ (rps.map Prod.fst).Nodup ∧ ∀ rpIdHash, rpIdHash ∈ rps.map Prod.fst ↔
        ∃ slot, (ctx.credentials slot).inUse = true ∧ (ctx.credentials slot).rp.idHash = rpIdHash := by
  constructor
  · intro kept
    have start : Listed [] ((fido2Init crypto env keypair wrapKey disk).setUvCallback installed) := by
      apply Listed.nothing
      have loaded : Proc.Keeps (fun ctx => ctx.credEnum.credSlots) (loadCredentials crypto env) :=
        keeps_loadCredentials fun _ _ _ _ _ _ => rfl
      exact loaded (.fresh env keypair wrapKey disk)
    refine Machine.run_throughout Listed ?_ ?_ start kept
    · intro past ctx request listed fine
      exact listed_step listed fine
    · intro past ctx request listed _
      exact describes_step listed request
  · intro ctx opening nexts answered last complete
    exact ⟨ctx.parties, complete.answers, parties_distinct ctx, fun _ => mem_parties⟩

def registerRequest (seed user : UInt8) : Request :=
  plainRequest 0x01 seed ([0xA5, 0x01, 0x58, 0x20] ++ List.replicate 32 0 ++ [0x02, 0xA1, 0x62, 0x69, 0x64, 0x61, 0x61] ++
    [0x03, 0xA1, 0x62, 0x69, 0x64, 0x41, user] ++ [0x04, 0x81, 0xA2, 0x63] ++ ascii "alg" ++ [0x26, 0x64] ++
    ascii "type" ++ [0x6A] ++ ascii "public-key" ++ [0x07, 0xA1, 0x62] ++ ascii "rk" ++ [0xF5])

def manageRequest (body : Bytes) : Request := plainRequest 0x0A 0 body

def listRequest : Request := manageRequest ([0xA2, 0x01, 0x04, 0x02, 0xA1, 0x01, 0x58, 0x20] ++ (fitTo 32 (ascii "a")).bytes)

def startCtx : Ctx := (fido2Init tagCipher (plainEnv 0) plainKeypair (.zero 32) none).setUvCallback true

def listingRun : List Request :=
  [registerRequest 1 1, registerRequest 2 2, listRequest, manageRequest [0xA1, 0x01, 0x05], manageRequest [0xA1, 0x01, 0x02],
    manageRequest [0xA1, 0x01, 0x03]]

/-- The parties are enumerated after two registrations. -/
def registeredCtx : Ctx := (process tagCipher (registerRequest 2 2) (process tagCipher (registerRequest 1 1) startCtx).2).2

theorem listingRun_keeps : Throughout ((authenticator tagCipher).run startCtx listingRun)
    fun _ event => ¬ LosesListed tagCipher event.input event.before := by
  rw [throughout_iff]
  have turns : ∀ event ∈ (authenticator tagCipher).run startCtx listingRun,
      event.before.waiting = [] ∨ event.input.command ≠ .makeCredential := by decide +kernel
  rintro event inside ⟨cred, slot, resident, -, -, -, waits⟩
  rcases turns event inside with none | other
  · rw [none] at waits
    cases waits
  · rw [residentOf_other other] at resident
    cases resident

theorem registeredCtx_complete : ∃ answered last, answered.length = 1 ∧
    CompleteRps tagCipher registeredCtx (manageRequest [0xA1, 0x01, 0x02])
    [manageRequest [0xA1, 0x01, 0x03]] answered last := by
  obtain ⟨first, second, shape⟩ := List.length_eq_two.mp (by decide +kernel :
    ((authenticator tagCipher).run registeredCtx [manageRequest [0xA1, 0x01, 0x02],
      manageRequest [0xA1, 0x01, 0x03]]).length = 2)
  have ended : ((authenticator tagCipher).run registeredCtx [manageRequest [0xA1, 0x01, 0x02],
    manageRequest [0xA1, 0x01, 0x03]]).map
      (fun event => (succeeds event.outcome, decide (event.outcome = .error .noCredentials))) =
        [(true, false), (false, true)] := by
    decide +kernel
  rw [shape] at ended
  simp only [List.map_cons, List.map_nil, List.cons.injEq, Prod.mk.injEq, decide_eq_true_eq] at ended
  obtain ⟨⟨done, -⟩, ⟨-, refused⟩, -⟩ := ended
  refine ⟨[first], second, rfl, by decide +kernel, ?_, shape, ?_, refused⟩
  · intro next inside
    rw [List.mem_singleton.mp inside]
    decide +kernel
  · intro event inside
    rw [List.mem_singleton.mp inside]
    exact done

theorem enumerations_describe_listingRun :
    Throughout ((authenticator tagCipher).run startCtx listingRun) DescribesStored ∧
    ∃ answered last, CompleteRps tagCipher registeredCtx (manageRequest [0xA1, 0x01, 0x02])
    [manageRequest [0xA1, 0x01, 0x03]] answered last ∧
      ∃ rps, List.Forall₂ AnswersParty answered rps ∧ (rps.map Prod.fst).Nodup ∧ ∀ rpIdHash, rpIdHash ∈ rps.map Prod.fst ↔
        ∃ slot, (registeredCtx.credentials slot).inUse = true ∧ (registeredCtx.credentials slot).rp.idHash = rpIdHash := by
  obtain ⟨describes, lists⟩ := enumerations_describe_stored tagCipher (plainEnv 0) plainKeypair (.zero 32)
    none true listingRun
  obtain ⟨answered, last, -, complete⟩ := registeredCtx_complete
  exact ⟨describes listingRun_keeps, answered, last, complete, lists _ _ _ _ _ complete⟩

def emptyingRun : List Request :=
  [registerRequest 1 1, registerRequest 2 2, listRequest,
    { registerRequest 3 2 with env := { plainEnv 3 with saveNonce := none } },
    manageRequest [0xA1, 0x01, 0x05]]

def sentBytes : Except Status Reply → Option Bytes
  | .ok (.data bytes) => some bytes
  | _ => none

theorem emptied_slot_is_described :
    ¬ ∀ (crypto : Crypto) (env : Env) (keypair : Keypair) (wrapKey : Buf 32) (disk : Option Bytes) (installed : Bool)
      (requests : List Request),
      Throughout ((authenticator crypto).run ((fido2Init crypto env keypair wrapKey disk).setUvCallback installed) requests)
        DescribesStored := by
  intro claimed
  have all := claimed tagCipher (plainEnv 0) plainKeypair (.zero 32) none true emptyingRun
  have seen : (((authenticator tagCipher).run startCtx emptyingRun)[4]?).map (fun event =>
      (event.input.subCommand, succeeds event.outcome, event.before.ledger.used,
        decide (encodeItems event.input.capacity (credentialResponse none (event.before.credentials firstSlot)) =
          sentBytes event.outcome))) =
      some (some 0x05, true, [firstSlot], false) := by decide +kernel
  obtain ⟨event, there, shown⟩ := Option.map_eq_some_iff.mp seen
  simp only [Prod.mk.injEq, decide_eq_false_iff_not] at shown
  obtain ⟨five, done, used, different⟩ := shown
  obtain ⟨slot, inUse, -, total, which, bytes, encoded, sent⟩ := all.at there (.inr five) done
  have only : slot = firstSlot := by
    have inside : slot ∈ event.before.ledger.used := mem_used inUse
    rw [used] at inside
    exact List.mem_singleton.mp inside
  rw [only, which.mpr five] at encoded
  rw [encoded, sent] at different
  exact different rfl

end Hiya.Fido2
