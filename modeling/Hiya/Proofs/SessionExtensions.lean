import Hiya.Proofs.SessionTable

/-! What ExtendSession grants. The seconds are added to what a session has left as unsigned
numbers of 32 bits, before the sum is held against the greatest age. -/

namespace Hiya.Daemon
open Library

/-- What a session has left. -/
def State.remaining (now : Int) (slot : SessionSlot) (d : State) : Int :=
    d.config.sessionMaxAge - (now - (d.sessions slot).created)

/-- A session in use that is not over. -/
def State.Live (now : Int) (slot : SessionSlot) (d : State) : Prop := (d.sessions slot).active = true ∧
    0 ≤ d.remaining now slot

/-- The verified sessions of a caller. -/
structure Session.Extendable (uid : Uid) (sender : Name) (session : Session) : Prop where
  active : session.active = true
  verified : session.verified = true
  owned : session.uid = uid
  bound : session.belongsTo sender = true

def Session.closed (session : Session) : Session := { session with sessionKey := .zero 32, active := false }

/-- What the caller is promised. -/
structure Extends (now : Int) (uid : Uid) (sender : Name) (seconds : UInt32) (before after : State) : Prop where
  granted : ∀ slot ∈ before.sessionSlots, (before.sessions slot).Extendable uid sender → before.Live now slot →
    after.Live now slot ∧ (after.remaining now slot).toNat = min ((before.remaining now slot).toNat + seconds.toNat)
      before.config.sessionMaxAge
  unshortened : ∀ slot, before.Live now slot → after.Live now slot ∧ before.remaining now slot ≤ after.remaining now slot
  closed : ∀ slot ∈ before.sessionSlots, (before.sessions slot).Extendable uid sender → ¬ before.Live now slot →
    after.sessions slot = (before.sessions slot).closed
  others : ∀ slot, ¬ (slot ∈ before.sessionSlots ∧ (before.sessions slot).Extendable uid sender) →
    after.sessions slot = before.sessions slot

section
variable {now : Int} {uid : Uid} {sender : Name} {seconds : UInt32} {d : State} {slot : SessionSlot}

private theorem toNat_ofInt (value : Int) : (UInt32.ofInt value).toNat = (value % 4294967296).toNat := by
  have small : (value % 4294967296).toNat < 4294967296 := by omega
  exact Nat.mod_eq_of_lt small

/-- The arithmetic of the extension: both sums wrap around. -/
theorem extended_remaining (word : d.config.sessionMaxAge < 2147483648) (session : Session) :
    d.config.sessionMaxAge - (now - (extended now seconds session d).created) =
      (min ((((d.config.sessionMaxAge - (now - session.created)) % 4294967296).toNat + seconds.toNat) % 4294967296)
      d.config.sessionMaxAge : Nat) := by
  have greatest : (UInt32.ofNat d.config.sessionMaxAge).toNat = d.config.sessionMaxAge :=
    Nat.mod_eq_of_lt (Nat.lt_trans word (by decide))
  have sum : (UInt32.ofInt (d.config.sessionMaxAge - (now - session.created)) + seconds).toNat =
      (((d.config.sessionMaxAge - (now - session.created)) % 4294967296).toNat + seconds.toNat) % 4294967296 := by
    rw [UInt32.toNat_add, toNat_ofInt]
  unfold extended
  dsimp only
  rw [← sum]
  split
  next beyond =>
    have more := UInt32.lt_iff_toNat_lt.mp beyond
    rw [greatest] at more
    rw [UInt32.sub_self, Nat.min_eq_right (Nat.le_of_lt more)]
    simp
  next within =>
    have fewer := UInt32.le_iff_toNat_le.mp (UInt32.not_lt.mp within)
    rw [UInt32.toNat_sub_of_le _ _ (UInt32.not_lt.mp within)]
    rw [greatest] at fewer ⊢
    rw [Nat.min_eq_left fewer]
    omega

/-- The promise holds of a live session unless a sum wraps around or the session comes from
the future. -/
theorem extension_granted_iff (greatest remaining seconds : Nat) (word : greatest < 2147483648)
    (small : seconds < 4294967296) :
    (min ((remaining % 4294967296 + seconds) % 4294967296) greatest = min (remaining + seconds) greatest ∧
      remaining ≤ min ((remaining % 4294967296 + seconds) % 4294967296) greatest) ↔
      remaining ≤ greatest ∧ remaining + seconds < 4294967296 := by
  omega

def renewed (now : Int) (uid : Uid) (sender : Name) (seconds : UInt32) (d : State) (session : Session) : Session :=
  if !session.active || !session.verified then session
  else if session.uid ≠ uid then session
  else if !session.belongsTo sender then session
  else if d.expired now session then session.closed
  else extended now seconds session d

private theorem renewed_other {session : Session} (other : ¬ session.Extendable uid sender) :
    renewed now uid sender seconds d session = session := by
  unfold renewed
  split
  · rfl
  next used =>
    split
    · rfl
    next owned =>
      split
      · rfl
      next bound =>
        obtain ⟨active, verified⟩ : session.active = true ∧ session.verified = true := by simpa using used
        exact absurd ⟨active, verified, not_not.mp owned, by simpa using bound⟩ other

private theorem renewed_own {session : Session} (own : session.Extendable uid sender) :
    renewed now uid sender seconds d session =
    if d.expired now session then session.closed else extended now seconds session d := by
  unfold renewed
  rw [own.active, own.verified, own.bound, Bool.not_true, Bool.or_false, if_neg Bool.false_ne_true,
    if_neg (not_not_intro own.owned),
    if_neg Bool.false_ne_true]

private theorem renewed_config {after : State} (same : after.config = d.config) :
    renewed now uid sender seconds after = renewed now uid sender seconds d := by
  funext session
  unfold renewed State.expired extended
  rw [same]

private theorem expired_iff : d.expired now (d.sessions slot) = true ↔ ¬ 0 ≤ d.remaining now slot := by
  unfold State.expired State.remaining
  rw [decide_eq_true_eq]
  omega

private theorem extendFrom_config (slots : List SessionSlot) : ∀ d : State,
    (extendFrom now uid sender seconds slots d).2.config = d.config := by
  induction slots with
  | nil => exact fun d => rfl
  | cons slot rest ih =>
    intro d
    unfold extendFrom
    dsimp only
    split
    · exact ih d
    split
    · exact ih d
    split
    · exact ih d
    split
    · exact ih _
    · exact ih _

/-- A slot of the walk: its session is renewed, and the walk goes on. -/
theorem extendFrom_cons (slot : SessionSlot) (rest : List SessionSlot) (d : State) : ∃ next : State,
    next.config = d.config ∧ next.sessions =
    Function.update d.sessions slot (renewed now uid sender seconds d (d.sessions slot)) ∧
    (extendFrom now uid sender seconds (slot :: rest) d).2 = (extendFrom now uid sender seconds rest next).2 := by
  have passed (same : renewed now uid sender seconds d (d.sessions slot) = d.sessions slot) :
      d.sessions = Function.update d.sessions slot (renewed now uid sender seconds d (d.sessions slot)) := by
    rw [same]
    exact (Function.update_eq_self slot d.sessions).symm
  by_cases own : (d.sessions slot).Extendable uid sender
  · rw [extendFrom]
    dsimp only
    rw [own.active, own.verified, own.bound, Bool.not_true, Bool.or_false, if_neg Bool.false_ne_true,
      if_neg (not_not_intro own.owned),
      if_neg Bool.false_ne_true, renewed_own own]
    split
    · exact ⟨d.closeSession slot, rfl, rfl, rfl⟩
    · exact ⟨d.putSession slot (extended now seconds (d.sessions slot) d), rfl, rfl, rfl⟩
  · refine ⟨d, rfl, passed (renewed_other own), ?_⟩
    rw [extendFrom]
    dsimp only
    split
    · rfl
    next used =>
      split
      · rfl
      next owned =>
        split
        · rfl
        next bound =>
          obtain ⟨active, verified⟩ : (d.sessions slot).active = true ∧ (d.sessions slot).verified = true :=
            by simpa using used
          exact absurd ⟨active, verified, not_not.mp owned, by simpa using bound⟩ own

private theorem extendFrom_sessions (slots : List SessionSlot) (distinct : slots.Nodup) : ∀ (d : State) (slot : SessionSlot),
    (extendFrom now uid sender seconds slots d).2.sessions slot =
      if slot ∈ slots then renewed now uid sender seconds d (d.sessions slot) else d.sessions slot := by
  induction slots with
  | nil => exact fun d slot => (if_neg List.not_mem_nil).symm
  | cons first rest ih =>
    intro d slot
    obtain ⟨fresh, distinct⟩ := List.nodup_cons.mp distinct
    obtain ⟨next, config, sessions, same⟩ := @extendFrom_cons now uid sender seconds first rest d
    rw [same, ih distinct, renewed_config config, sessions]
    by_cases here : slot = first
    · rw [here, if_neg fresh, if_pos List.mem_cons_self, Function.update_self]
    · rw [Function.update_of_ne here]
      simp only [List.mem_cons, here, false_or]

private theorem sessionSlots_nodup (d : State) : d.sessionSlots.Nodup := (List.nodup_finRange maxSessionSlots).filter _

private theorem extendSession_config (d : State) : (extendSession now uid sender seconds d).2.config = d.config :=
    extendFrom_config _ d

private theorem extendSession_sessions (d : State) (slot : SessionSlot) :
    (extendSession now uid sender seconds d).2.sessions slot =
    if slot ∈ d.sessionSlots then renewed now uid sender seconds d (d.sessions slot) else d.sessions slot :=
  extendFrom_sessions _ (sessionSlots_nodup d) d slot

private theorem extendSession_remaining (word : d.config.sessionMaxAge < 2147483648) (inside : slot ∈ d.sessionSlots)
    (own : (d.sessions slot).Extendable uid sender) (live : d.Live now slot) :
    (extendSession now uid sender seconds d).2.remaining now slot =
      (min (((d.remaining now slot).toNat % 4294967296 + seconds.toNat) % 4294967296) d.config.sessionMaxAge : Nat) := by
  have young : ¬ d.expired now (d.sessions slot) = true := fun stale => expired_iff.mp stale live.2
  have left : ((d.remaining now slot) % 4294967296).toNat = (d.remaining now slot).toNat % 4294967296 := by
    have positive := live.2
    omega
  unfold State.remaining
  rw [extendSession_config, extendSession_sessions, if_pos inside, renewed_own own, if_neg young, extended_remaining word]
  unfold State.remaining at left
  rw [left]

private theorem extendSession_live (word : d.config.sessionMaxAge < 2147483648) (inside : slot ∈ d.sessionSlots)
    (own : (d.sessions slot).Extendable uid sender) (live : d.Live now slot) :
    (extendSession now uid sender seconds d).2.Live now slot := by
  have young : ¬ d.expired now (d.sessions slot) = true := fun stale => expired_iff.mp stale live.2
  refine ⟨?_, ?_⟩
  · rw [extendSession_sessions, if_pos inside, renewed_own own, if_neg young]
    exact own.active
  · rw [extendSession_remaining word inside own live]
    exact Int.natCast_nonneg _

private theorem extendSession_other (other : ¬ (slot ∈ d.sessionSlots ∧ (d.sessions slot).Extendable uid sender)) :
    (extendSession now uid sender seconds d).2.sessions slot = d.sessions slot := by
  rw [extendSession_sessions]
  split
  next inside => exact renewed_other fun own => other ⟨inside, own⟩
  next => rfl

private theorem extendSession_closed (inside : slot ∈ d.sessionSlots) (own : (d.sessions slot).Extendable uid sender)
    (stale : ¬ d.Live now slot) :
    (extendSession now uid sender seconds d).2.sessions slot = (d.sessions slot).closed := by
  rw [extendSession_sessions, if_pos inside, renewed_own own, if_pos (expired_iff.mpr fun left => stale ⟨own.active, left⟩)]

end

/-- ExtendSession keeps its promise exactly when, for each session it extends, the sum of what is left
and of the seconds stays below 2^32 and the session was not created in the future. -/
theorem extension_kept_iff (now : Int) (uid : Uid) (sender : Name) (seconds : UInt32) (d : State)
    (word : d.config.sessionMaxAge < 2147483648) :
    Extends now uid sender seconds d (extendSession now uid sender seconds d).2 ↔
      ∀ slot ∈ d.sessionSlots, (d.sessions slot).Extendable uid sender → d.Live now slot →
        (d.sessions slot).created ≤ now ∧ d.remaining now slot + seconds.toNat < 4294967296 := by
  have small : seconds.toNat < 4294967296 := seconds.toNat_lt
  constructor
  · intro kept slot inside own live
    have granted := (kept.granted slot inside own live).2
    have longer := (kept.unshortened slot live).2
    rw [extendSession_remaining word inside own live] at granted longer
    have positive := live.2
    have bounds := (extension_granted_iff d.config.sessionMaxAge
      (d.remaining now slot).toNat seconds.toNat word small).mp ⟨granted, by omega⟩
    have held : d.remaining now slot ≤ d.config.sessionMaxAge := by omega
    refine ⟨?_, by omega⟩
    unfold State.remaining at held
    omega
  · intro calm
    have figures (slot : SessionSlot) (inside : slot ∈ d.sessionSlots) (own : (d.sessions slot).Extendable uid sender)
      (live : d.Live now slot) :=
      (extension_granted_iff d.config.sessionMaxAge (d.remaining now slot).toNat seconds.toNat word small).mpr (by
        obtain ⟨past, sum⟩ := calm slot inside own live
        have positive := live.2
        refine ⟨?_, by omega⟩
        unfold State.remaining
        omega)
    refine ⟨fun slot inside own live => ?_, fun slot live => ?_,
      fun slot inside own stale => extendSession_closed inside own stale,
      fun slot other => extendSession_other other⟩
    · refine ⟨extendSession_live word inside own live, ?_⟩
      rw [extendSession_remaining word inside own live]
      exact (figures slot inside own live).1
    · by_cases own : slot ∈ d.sessionSlots ∧ (d.sessions slot).Extendable uid sender
      · refine ⟨extendSession_live word own.1 own.2 live, ?_⟩
        rw [extendSession_remaining word own.1 own.2 live]
        have longer := (figures slot own.1 own.2 live).2
        omega
      · have same := @extendSession_other now uid sender seconds d slot own
        unfold State.Live State.remaining
        rw [extendSession_config, same]
        exact ⟨live, Int.le_refl _⟩

/-- The only session, in the first slot, is a verified one of the user with uid 1. -/
def oneSession : State :=
  { plainState [] with
    sessions slot := if slot.val = 0 then
      { Session.zero with active := true, verified := true, uid := 1, created := 1000 } else .zero
    sessionCount := 1 }

private theorem oneSession_young (slot : SessionSlot) (own : (oneSession.sessions slot).Extendable 1 []) :
    (oneSession.sessions slot).created = 1000 := by
  unfold oneSession at own ⊢
  dsimp only at own ⊢
  split
  · rfl
  next other =>
    rw [if_neg other] at own
    exact absurd own.active Bool.false_ne_true

/-- After 200 of its 300 seconds the session is given another 50. -/
theorem extension_kept_iff_oneSession : oneSession.config.sessionMaxAge < 2147483648 ∧
    Extends 1200 1 [] 50 oneSession (extendSession 1200 1 [] 50 oneSession).2 := by
  have word : oneSession.config.sessionMaxAge < 2147483648 := by decide
  refine ⟨word, (extension_kept_iff 1200 1 [] 50 oneSession word).mpr fun slot inside own live => ?_⟩
  unfold State.remaining
  rw [oneSession_young slot own]
  exact ⟨by decide, by decide⟩

def slotZero : SessionSlot := ⟨0, Nat.succ_pos 63⟩

/-- A caller who asks for almost 2^32 seconds is left with less than before. -/
theorem extension_wraps_around : ¬ ∀ (now : Int) (uid : Uid) (sender : Name) (seconds : UInt32) (d : State),
    d.config.sessionMaxAge < 2147483648 → Extends now uid sender seconds d (extendSession now uid sender seconds d).2 := by
  intro always
  have kept := always 1200 1 [] 4294967246 oneSession (by decide)
  have live : oneSession.Live 1200 slotZero := ⟨rfl, by decide⟩
  have shorter : (extendSession 1200 1 [] 4294967246 oneSession).2.remaining 1200 slotZero = 50 := by
    have own : (oneSession.sessions slotZero).Extendable 1 [] := ⟨rfl, rfl, rfl, rfl⟩
    rw [extendSession_remaining (by decide) (by decide) own live]
    rfl
  have longer := (kept.unshortened slotZero live).2
  rw [shorter] at longer
  exact absurd longer (by decide)

end Hiya.Daemon
