import Hiya.Daemon.Sessions
import Hiya.Library.Table
import Hiya.Proofs.Lockout

/-! The table of sessions over whole runs: the counter is the number of active sessions,
none of them lies beyond the capacity, and no lookup gives out one that is over. -/

namespace Hiya.Daemon
open Library

def State.activeSessions (d : State) : Finset SessionSlot := taken fun slot => (d.sessions slot).active

structure Tallied (d : State) : Prop where
  counted : d.sessionCount = d.activeSessions.card
  within : ∀ slot, (d.sessions slot).active = true → slot.val < d.sessionCapacity

theorem active_update (sessions : SessionSlot → Session) (slot : SessionSlot) (session : Session) :
    (fun other => (Function.update sessions slot session other).active) =
      Function.update (fun other => (sessions other).active) slot session.active := by
  funext other
  by_cases here : other = slot
  · subst here
    rw [Function.update_self, Function.update_self]
  · rw [Function.update_of_ne here, Function.update_of_ne here]

/-- One session less in use, and one less counted. -/
theorem counted_drop {d after : State} {slot : SessionSlot} (counted : d.sessionCount = d.activeSessions.card)
    (before : (d.sessions slot).active = true) (count : after.sessionCount = d.sessionCount - 1)
    (actives : (fun other => (after.sessions other).active) = Function.update (fun other => (d.sessions other).active)
    slot false) :
    after.sessionCount = after.activeSessions.card := by
  have fewer : (taken (Function.update (fun other => (d.sessions other).active) slot false)).card + 1 =
    d.activeSessions.card :=
    card_taken_free before
  rw [← actives] at fewer
  rw [count, counted, ← fewer, Nat.add_sub_cancel]
  rfl

namespace Tallied
variable {d after : State} {slot : SessionSlot} {session : Session}

/-- A slot that is in use stays in use, and a free one stays free. -/
theorem keep (tallied : Tallied d) (sessions : after.sessions = Function.update d.sessions slot session)
    (same : session.active = (d.sessions slot).active) (count : after.sessionCount = d.sessionCount)
    (config : after.config = d.config) :
    Tallied after := by
  have actives : (fun other => (after.sessions other).active) = fun other => (d.sessions other).active := by
    rw [sessions, active_update, same]
    exact Function.update_eq_self slot _
  refine ⟨?_, fun other active => ?_⟩
  · rw [count, tallied.counted, State.activeSessions, State.activeSessions, actives]
  · unfold State.sessionCapacity
    rw [config]
    exact tallied.within other ((congrFun actives other).symm.trans active)

theorem drop (tallied : Tallied d) (sessions : after.sessions = Function.update d.sessions slot session)
    (before : (d.sessions slot).active = true) (ended : session.active = false)
    (count : after.sessionCount = d.sessionCount - 1)
    (config : after.config = d.config) : Tallied after := by
  have actives : (fun other => (after.sessions other).active) =
    Function.update (fun other => (d.sessions other).active) slot false := by
    rw [sessions, active_update, ended]
  refine ⟨?_, fun other active => ?_⟩
  · exact counted_drop tallied.counted before count actives
  · unfold State.sessionCapacity
    rw [config]
    have here := (congrFun actives other).symm.trans active
    by_cases same : other = slot
    · subst same
      rw [Function.update_self] at here
      cases here
    · rw [Function.update_of_ne same] at here
      exact tallied.within other here

theorem take (tallied : Tallied d) (sessions : after.sessions = Function.update d.sessions slot session)
    (free : (d.sessions slot).active = false) (used : session.active = true) (inside : slot.val < d.sessionCapacity)
    (count : after.sessionCount = d.sessionCount + 1) (config : after.config = d.config) : Tallied after := by
  have actives : (fun other => (after.sessions other).active) =
    Function.update (fun other => (d.sessions other).active) slot true := by
    rw [sessions, active_update, used]
  refine ⟨?_, fun other active => ?_⟩
  · have more := card_taken_take (fun other => (d.sessions other).active) slot
    rw [free, ← actives] at more
    rw [count, tallied.counted]
    exact more.symm
  · unfold State.sessionCapacity
    rw [config]
    by_cases same : other = slot
    · exact same ▸ inside
    · have here := (congrFun actives other).symm.trans active
      rw [Function.update_of_ne same] at here
      exact tallied.within other here

theorem beside (tallied : Tallied d) (sessions : after.sessions = d.sessions) (count : after.sessionCount = d.sessionCount)
    (config : after.config = d.config) : Tallied after := by
  refine ⟨?_, fun slot active => ?_⟩
  · rw [count, tallied.counted, State.activeSessions, State.activeSessions, sessions]
  · unfold State.sessionCapacity
    rw [sessions] at active
    rw [config]
    exact tallied.within slot active

theorem close (tallied : Tallied d) (before : (d.sessions slot).active = true) : Tallied (d.closeSession slot) :=
  tallied.drop rfl before rfl rfl rfl

end Tallied

structure Current (now : Int) (slot : SessionSlot) (d : State) : Prop where
  active : (d.sessions slot).active = true
  young : now - (d.sessions slot).created ≤ d.config.sessionMaxAge

section
variable {now : Int} {uid : Uid} {sender : Name} {token : Bytes} {slots : List SessionSlot} {d : State}

theorem current_touched {slot : SessionSlot} (active : (d.sessions slot).active = true)
    (young : d.expired now (d.sessions slot) = false) :
    Current now slot (d.putSession slot { d.sessions slot with lastUsed := now }) := by
  have here : (d.putSession slot { d.sessions slot with lastUsed := now }).sessions slot =
    { d.sessions slot with lastUsed := now } :=
    Function.update_self ..
  refine ⟨?_, ?_⟩
  · rw [here]
    exact active
  · rw [here]
    exact Int.not_lt.mp (of_decide_eq_false young)

theorem tallied_findSessionFrom : ∀ {d : State}, Tallied d → Tallied (findSessionFrom now token slots d).2 := by
  induction slots with
  | nil => exact fun tallied => tallied
  | cons slot rest ih =>
    intro d tallied
    unfold findSessionFrom
    split
    · exact ih tallied
    next active =>
      split
      · exact ih (tallied.close (by simpa using active))
      · split
        · exact tallied.keep rfl rfl rfl rfl
        · exact ih tallied

theorem tallied_findSession (tallied : Tallied d) : Tallied (findSession now token d).2 := by
  unfold findSession
  split
  · exact tallied
  · exact tallied_findSessionFrom tallied

theorem current_findSessionFrom {slot : SessionSlot} : ∀ {d reached : State},
    findSessionFrom now token slots d = (some slot, reached) →
    Current now slot reached := by
  induction slots with
  | nil => nofun
  | cons next rest ih =>
    intro d reached found
    unfold findSessionFrom at found
    split at found
    · exact ih found
    next active =>
      split at found
      · exact ih found
      next young =>
        split at found
        · cases found
          exact current_touched (by simpa using active) (by simpa using young)
        · exact ih found

theorem current_findSession {slot : SessionSlot} {reached : State} (found : findSession now token d = (some slot, reached)) :
    Current now slot reached := by
  unfold findSession at found
  split at found
  · cases found
  · exact current_findSessionFrom found

theorem tallied_findVerifiedFrom : ∀ {d : State}, Tallied d → Tallied (findVerifiedFrom now uid sender slots d).2 := by
  induction slots with
  | nil => exact fun tallied => tallied
  | cons slot rest ih =>
    intro d tallied
    unfold findVerifiedFrom
    dsimp only
    split
    · exact ih tallied
    next active =>
      split
      · exact ih (tallied.close (by simpa using active))
      split
      · exact ih tallied
      split
      · exact ih tallied
      split
      · exact ih tallied
      · exact tallied.keep rfl rfl rfl rfl

theorem current_findVerifiedFrom {slot : SessionSlot} : ∀ {d reached : State},
    findVerifiedFrom now uid sender slots d = (some slot, reached) → Current now slot reached := by
  induction slots with
  | nil => nofun
  | cons next rest ih =>
    intro d reached found
    unfold findVerifiedFrom at found
    dsimp only at found
    split at found
    · exact ih found
    next active =>
      split at found
      · exact ih found
      next young =>
        split at found
        · exact ih found
        split at found
        · exact ih found
        split at found
        · exact ih found
        · cases found
          exact current_touched (by simpa using active) (by simpa using young)

theorem tallied_extendFrom {seconds : UInt32} : ∀ {d : State}, Tallied d →
    Tallied (extendFrom now uid sender seconds slots d).2 := by
  induction slots with
  | nil => exact fun tallied => tallied
  | cons slot rest ih =>
    intro d tallied
    unfold extendFrom
    dsimp only
    split
    · exact ih tallied
    next used =>
      have active : (d.sessions slot).active = true := by
        cases active : (d.sessions slot).active with
        | true => rfl
        | false =>
          rw [active] at used
          exact absurd rfl used
      split
      · exact ih tallied
      split
      · exact ih tallied
      split
      · exact ih (tallied.close active)
      · exact ih (tallied.keep rfl rfl rfl rfl)

theorem tallied_sweepFrom : ∀ {d : State}, Tallied d → Tallied (sweepFrom now slots d) := by
  induction slots with
  | nil => exact fun tallied => tallied
  | cons slot rest ih =>
    intro d tallied
    unfold sweepFrom
    split
    · exact ih tallied
    next active =>
      split
      · exact ih (tallied.close (by simpa using active))
      · exact ih tallied

theorem mem_sessionSlots {slot : SessionSlot} : slot ∈ d.sessionSlots ↔ slot.val < d.sessionCapacity :=
    by simp [State.sessionSlots]

theorem oldestSession_mem {best : Option SessionSlot} {slot : SessionSlot}
    (chosen : oldestSession d now slots best = some slot) :
    slot ∈ slots ∨ best = some slot := by
  induction slots generalizing best with
  | nil => exact .inr chosen
  | cons next rest ih =>
    unfold oldestSession at chosen
    rcases ih chosen with later | kept
    · exact .inl (List.mem_cons_of_mem next later)
    · split at kept
      · cases kept
        exact .inl List.mem_cons_self
      · exact .inr kept

theorem chooseSlot_inside {slot : SessionSlot} (chosen : chooseSlot now d = some slot) : slot.val < d.sessionCapacity := by
  apply mem_sessionSlots.mp
  unfold chooseSlot at chosen
  cases first : d.sessionSlots.find? fun slot => !(d.sessions slot).active || d.expired now (d.sessions slot) with
  | some found =>
    rw [first] at chosen
    cases chosen
    exact List.mem_of_find?_eq_some first
  | none =>
    rw [first] at chosen
    rcases oldestSession_mem chosen with inside | impossible
    · exact inside
    · cases impossible

theorem tallied_createSession (env : Env) (tallied : Tallied d) : Tallied (createSession env now uid sender d).2 := by
  unfold createSession
  split
  · exact tallied
  next slot chosen =>
    have inside := chooseSlot_inside chosen
    -- the slot is free from here on, whatever it was before
    have emptied : ∃ freed, (if (d.sessions slot).active then d.closeSession slot else d) = freed ∧ Tallied freed ∧
        (freed.sessions slot).active = false ∧ slot.val < freed.sessionCapacity := by
      split
      next active =>
        refine ⟨_, rfl, tallied.close active, ?_, inside⟩
        change (Function.update d.sessions slot _ slot).active = false
        rw [Function.update_self]
      next free => exact ⟨_, rfl, tallied, by simpa using free, inside⟩
    obtain ⟨freed, same, kept, free, room⟩ := emptied
    dsimp only
    rw [same]
    split
    · split
      · exact kept.take rfl free rfl room rfl rfl
      · exact kept.keep rfl free.symm rfl rfl
    · exact kept.keep rfl free.symm rfl rfl

theorem tallied_revokeFrom : ∀ {d : State}, Tallied d → Tallied (revokeFrom uid sender slots d) := by
  induction slots with
  | nil => exact fun tallied => tallied
  | cons slot rest ih =>
    intro d tallied
    unfold revokeFrom
    dsimp only
    split
    next own =>
      rw [Bool.and_eq_true, Bool.and_eq_true] at own
      exact ih (tallied.drop rfl own.1.1 rfl rfl rfl)
    · exact ih tallied

end

def UsableBy (uid : Uid) (sender : Name) (session : Session) : Prop :=
  session.active = true ∧ session.uid = uid ∧ session.belongsTo sender = true

section
variable {uid : Uid} {sender : Name}

/-- A slot that was revoked stays revoked, and the walk comes by every slot it is given. -/
theorem revokeFrom_spec (slots : List SessionSlot) : ∀ (d : State) (slot : SessionSlot),
    UsableBy uid sender ((revokeFrom uid sender slots d).sessions slot) → slot ∉ slots ∧
    UsableBy uid sender (d.sessions slot) := by
  induction slots with
  | nil => exact fun d slot usable => ⟨List.not_mem_nil, usable⟩
  | cons next rest ih =>
    intro d slot usable
    unfold revokeFrom at usable
    dsimp only at usable
    split at usable
    next own =>
      obtain ⟨unlisted, before⟩ := ih _ slot usable
      by_cases here : slot = next
      · subst here
        have wiped : (Function.update d.sessions slot Session.zero slot).active = true := before.1
        rw [Function.update_self] at wiped
        cases wiped
      · have same : Function.update d.sessions next Session.zero slot = d.sessions slot := Function.update_of_ne here ..
        refine ⟨fun inside => ?_, same ▸ before⟩
        rcases List.mem_cons.mp inside with again | later
        · exact here again
        · exact unlisted later
    next other =>
      obtain ⟨unlisted, before⟩ := ih _ slot usable
      refine ⟨fun inside => ?_, before⟩
      rcases List.mem_cons.mp inside with rfl | later
      · obtain ⟨active, user, own⟩ := before
        apply other
        rw [active, own, Bool.true_and, Bool.and_true]
        exact decide_eq_true user
      · exact unlisted later

/-- Every session of the user that the sender may use is gone. -/
theorem revoked_all {d : State} (tallied : Tallied d) (slot : SessionSlot) :
    ¬ UsableBy uid sender ((revokeSessionsForSender uid sender d).sessions slot) := by
  intro usable
  obtain ⟨unlisted, before⟩ := revokeFrom_spec d.sessionSlots d slot usable
  exact unlisted (mem_sessionSlots.mpr (tallied.within slot before.1))

end

section
variable {mac : Buf 32 → Bytes → Buf 32} {accounts : Accounts} {env : Env} {d : State}

/-- The walk closes what it comes by, and opens nothing. -/
theorem pruned_spec (slots : List SessionSlot) : ∀ d : State, d.sessionCount = d.activeSessions.card →
    ∃ reached, slots.foldl (fun d slot => if (d.sessions slot).active then d.closeSession slot else d) d = reached ∧
      reached.config = d.config ∧ reached.sessionCount = reached.activeSessions.card ∧
      ∀ slot, (reached.sessions slot).active = true → slot ∉ slots ∧ (d.sessions slot).active = true := by
  induction slots with
  | nil => exact fun d counted => ⟨d, rfl, rfl, counted, fun slot active => ⟨List.not_mem_nil, active⟩⟩
  | cons next rest ih =>
    intro d counted
    rw [List.foldl_cons]
    split
    next active =>
      have actives : (fun other => ((d.closeSession next).sessions other).active) =
          Function.update (fun other => (d.sessions other).active) next false := active_update ..
      obtain ⟨reached, same, config, kept, left⟩ := ih (d.closeSession next) (counted_drop counted active rfl actives)
      refine ⟨reached, same, config, kept, fun slot used => ?_⟩
      obtain ⟨unlisted, before⟩ := left slot used
      have here := (congrFun actives slot).symm.trans before
      by_cases first : slot = next
      · subst first
        rw [Function.update_self] at here
        cases here
      · rw [Function.update_of_ne first] at here
        exact ⟨List.not_mem_cons_of_ne_of_not_mem first unlisted, here⟩
    next free =>
      obtain ⟨reached, same, config, kept, left⟩ := ih d counted
      refine ⟨reached, same, config, kept, fun slot used => ?_⟩
      obtain ⟨unlisted, before⟩ := left slot used
      refine ⟨List.not_mem_cons_of_ne_of_not_mem ?_ unlisted, before⟩
      rintro rfl
      exact free before

/-- A reload closes what the new capacity leaves out. -/
theorem tallied_reload (tallied : Tallied d) (config : Config) : Tallied (pruneSessions { d with config }) := by
  obtain ⟨reached, same, unchanged, counted, left⟩ :=
    pruned_spec ((List.finRange maxSessionSlots).filter fun slot => State.sessionCapacity { d with config } ≤ slot.val)
      { d with config }
      tallied.counted
  unfold pruneSessions
  rw [same]
  refine ⟨counted, fun slot active => ?_⟩
  have capacity : reached.sessionCapacity = State.sessionCapacity { d with config } :=
    by rw [State.sessionCapacity, unchanged, State.sessionCapacity]
  rw [capacity]
  by_contra beyond
  exact (left slot active).1 (List.mem_filter.mpr ⟨List.mem_finRange slot, decide_eq_true (Nat.not_lt.mp beyond)⟩)

theorem tallied_autoUnlock {uid : Uid} (tallied : Tallied d) : Tallied (autoUnlockUserVault env uid d) := by
  unfold autoUnlockUserVault
  split
  · exact tallied.beside rfl rfl rfl
  · exact tallied

theorem tallied_letIn {caller : Uid} {sender : Name} (tallied : Tallied d) : Tallied (letIn env caller sender d) := by
  have created : Tallied (createSession env env.later caller sender d).2 := tallied_createSession env tallied
  unfold letIn
  dsimp only
  split
  next made =>
    rw [made] at created
    exact tallied_autoUnlock (created.keep rfl rfl rfl rfl)
  next made =>
    rw [made] at created
    exact tallied_autoUnlock created

theorem tallied_authenticateWith {answer : Bool → String → Reply} {caller : Uid} {sender : Name} (tallied : Tallied d) :
    Tallied (authenticateWith accounts env answer caller sender d).2 := by
  unfold authenticateWith
  split
  · exact tallied
  next username _ =>
    obtain ⟨limiters, same⟩ : ∃ limiters, (daemonVerifyUser accounts env username d).2 = { d with limiters } :=
      daemonVerifyUser_only username
    have tried : Tallied (daemonVerifyUser accounts env username d).2 := by
      rw [same]
      exact tallied.beside rfl rfl rfl
    dsimp only
    split
    · exact tallied_letIn tried
    split
    · exact tallied_letIn tried
    · exact tried

theorem tallied_verify {caller : Uid} {sender : Name} {token : Bytes} (tallied : Tallied d) :
    Tallied (verify env caller sender token d).2 := by
  have found : Tallied (findSession env.time token d).2 := tallied_findSession tallied
  unfold verify
  split
  next reached missing =>
    rw [missing] at found
    exact found
  next slot reached there =>
    rw [there] at found
    have beside {limiters : RateLimiters} : Tallied { reached with limiters } := found.beside rfl rfl rfl
    have judged {limiters : RateLimiters} (trial : Trial) : Tallied
        ({ reached with limiters }.putSession slot ((reached.sessions slot).judged env trial)) :=
      beside.keep rfl (judged_active _ _) rfl rfl
    dsimp only
    split
    · exact found
    split
    · exact found
    split
    · exact beside
    split
    · exact beside
    split
    · exact beside
    split
    · exact beside
    split
    · exact judged _
    split
    · exact tallied_autoUnlock ((judged _).beside rfl rfl rfl)
    · exact (judged _).beside rfl rfl rfl

theorem tallied_verifyUser {caller : Uid} {trustedPortal : Bool} {username : Name} (tallied : Tallied d) :
    Tallied (verifyUser accounts env caller trustedPortal username d).2 := by
  have beside {limiters : RateLimiters} : Tallied { d with limiters } := tallied.beside rfl rfl rfl
  unfold verifyUser
  dsimp only
  repeat' split
  all_goals first | exact tallied | exact beside | exact tallied_autoUnlock beside

theorem tallied_started (boot : Env) : Tallied (d.started mac boot) := by
  refine ⟨?_, nofun⟩
  exact card_taken_none.symm

theorem tallied_serve {request : Request} (tallied : Tallied d) : Tallied (serve mac accounts request d).2 := by
  by_cases edits : request.call.edits = true
  · obtain ⟨enrollments, disk, same⟩ := @serve_edits mac accounts request d edits
    rw [same]
    exact tallied.beside rfl rfl rfl
  unfold serve
  cases call : request.call with
  | authenticate caller sender => exact tallied_authenticateWith tallied
  | authenticateInteractive caller sender => exact tallied_authenticateWith tallied
  | revokeSession caller sender => exact tallied_revokeFrom tallied
  | createSession caller sender requested =>
    have created : Tallied (createSession request.env request.env.time (sessionUid caller requested) sender d).2 :=
      tallied_createSession request.env tallied
    change Tallied (createSessionCall request.env caller sender requested d).2
    unfold createSessionCall
    split
    next made =>
      rw [made] at created
      exact created
    next made =>
      rw [made] at created
      exact created
  | verify caller sender token => exact tallied_verify tallied
  | verifyUser caller trustedPortal username => exact tallied_verifyUser tallied
  | fprintdVerify username =>
    obtain ⟨limiters, same⟩ : ∃ limiters, (daemonVerifyUser accounts request.env username d).2 = { d with limiters } :=
      daemonVerifyUser_only username
    change Tallied (daemonVerifyUser accounts request.env username d).2
    rw [same]
    exact tallied.beside rfl rfl rfl
  | reload config => exact tallied_reload tallied config
  | restart => exact tallied_started request.env
  | _ =>
    rw [call] at edits
    exact absurd rfl edits

theorem tallied_handle {call : SessionCall} (tallied : Tallied d) : Tallied (handle mac accounts call d).2 := by
  cases call with
  | call request => exact tallied_serve tallied
  | findSession now token => exact tallied_findSession tallied
  | isAuthenticated now caller sender => exact tallied_findVerifiedFrom tallied
  | extendSession now caller sender seconds => exact tallied_extendFrom tallied
  | sweep now => exact tallied_sweepFrom tallied

end

/-- What holds of the table between two calls. -/
structure SessionsSound (d : State) : Prop where
  counted : d.sessionCount = d.activeSessions.card
  within : ∀ slot, (d.sessions slot).active = true → slot.val < d.sessionCapacity
  found : ∀ now token slot reached, findSession now token d = (some slot, reached) → Current now slot reached
  verified : ∀ now uid sender slot reached, findVerifiedSessionForSender now uid sender d = (some slot, reached) →
    Current now slot reached
  revoked : ∀ uid sender slot, ¬ UsableBy uid sender ((revokeSessionsForSender uid sender d).sessions slot)

theorem Tallied.sound {d : State} (tallied : Tallied d) : SessionsSound d where
  counted := tallied.counted
  within := tallied.within
  found _ _ _ _ found := current_findSession found
  verified _ _ _ _ _ found := current_findVerifiedFrom found
  revoked _ _ slot := revoked_all tallied slot

/-- From the start of the daemon on and after every step of every run, whatever the clocks
show: the counter is right, nothing is in use beyond the capacity, no lookup gives out a
session that is over, and revoking leaves none. -/
theorem sessions_stay_sound (mac : Buf 32 → Bytes → Buf 32) (accounts : Accounts) (boot : Env) (d : State)
    (calls : List SessionCall) :
    SessionsSound (d.started mac boot) ∧
    ∀ event ∈ (sessionKeeper mac accounts).run (d.started mac boot) calls, SessionsSound event.after := by
  have started : Tallied (d.started mac boot) := tallied_started boot
  refine ⟨started.sound, fun event inside => ?_⟩
  have all : Throughout ((sessionKeeper mac accounts).run (d.started mac boot) calls)
    fun _ event => SessionsSound event.after := by
    refine Machine.run_every (fun _ d => Tallied d) ?_ ?_ started calls
    · exact fun _ _ _ tallied => tallied_handle tallied
    · exact fun _ _ _ tallied => (tallied_handle tallied).sound
  exact all.of_mem inside

end Hiya.Daemon
