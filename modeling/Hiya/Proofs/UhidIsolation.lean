import Hiya.Proofs.UhidFraming
import Mathlib.Data.Fintype.EquivFin

/-! Channels do not disturb each other. What a report means to the channel it is for is a
matter of this channel alone, and to every other channel it means nothing, as long as
no channel has to make room for a new one. -/

namespace Hiya.Uhid
open Library

def Channel.completed (channel : Channel) : List Message × Channel :=
  if channel.received ≥ channel.totalLen then
    ([{ cid := channel.cid, cmd := channel.cmd, data := channel.msgBuf.bytes.take channel.totalLen.toNat }], channel.reset)
  else ([], channel)

section
variable (env : Env)

def Channel.begins (report : Report) (channel : Channel) : List Message × Channel :=
  let cmd := report.byte4 &&& 0x7F
  let total := report.totalLen.toNat
  if cmd = Command.init.code ∧ total ≤ initDataSize then
    ([{ cid := report.cid, cmd, data := report.initData.take total }], channel)
  else if total > maxMsgSize then ([], channel)
  else (channel.begun env cmd report).completed

def Channel.continues (report : Report) (channel : Channel) : List Message × Channel :=
  if channel.totalLen = 0 then ([], channel)
  else if report.byte4 ≠ channel.nextSeq then ([], channel.reset)
  else if channel.received.toNat + channel.nextChunk > maxMsgSize then ([], (channel.active env).reset)
  else (channel.continued env report).completed

def Channel.hears (report : Report) (channel : Channel) : List Message × Channel :=
  if report.byte4 &&& initPacketFlag ≠ 0 then channel.begins env report else channel.continues env report

end

def Message.asks (message : Message) : Bool := Command.ofByte message.cmd = some .init ∧ 8 ≤ message.data.length

variable {κ : Type} {engine : Engine κ} {env : Env} {uhid : State κ}

namespace State

theorem findChannel_iff (named : Named uhid) {cid : UInt32} {slot : Slot} :
    uhid.findChannel cid = some slot ↔ (uhid.channels slot).inUse = true ∧ (uhid.channels slot).cid = cid := by
  constructor
  · exact findChannel_some
  · intro here
    cases found : uhid.findChannel cid with
    | none => exact absurd here (findChannel_none found slot)
    | some other =>
      obtain ⟨inUse, same⟩ := findChannel_some found
      rw [named.apart other slot inUse here.1 (same.trans here.2.symm)]

def Uses (uhid : State κ) (cid : UInt32) : Prop := ∃ slot, (uhid.channels slot).inUse = true ∧ (uhid.channels slot).cid = cid

theorem findChannel_isNone {cid : UInt32} : (uhid.findChannel cid).isNone = true ↔ ¬ uhid.Uses cid := by
  cases found : uhid.findChannel cid with
  | none => exact ⟨fun _ ⟨slot, here⟩ => findChannel_none found slot here, fun _ => rfl⟩
  | some slot => exact ⟨fun none => (by cases none), fun absent => absurd ⟨slot, findChannel_some found⟩ absent⟩

theorem freeSlot_none (full : uhid.freeSlot = none) (slot : Slot) : (uhid.channels slot).inUse = true := by
  have taken := List.find?_eq_none.mp full slot (List.mem_finRange slot)
  simpa using taken

theorem uses_congr {other : State κ} (names : ∀ slot, (other.channels slot).inUse = (uhid.channels slot).inUse ∧
    (other.channels slot).cid = (uhid.channels slot).cid) (name : UInt32) : other.Uses name ↔ uhid.Uses name := by
  refine exists_congr fun slot => ?_
  rw [(names slot).1, (names slot).2]

theorem uses_put {slot : Slot} (free : (uhid.channels slot).inUse = false) (channel : Channel) (name : UInt32) :
    (uhid.put slot channel).Uses name ↔ uhid.Uses name ∨ (channel.inUse = true ∧ channel.cid = name) := by
  constructor
  · intro ⟨other, here⟩
    by_cases same : other = slot
    · subst same
      rw [uhid.put_here] at here
      exact .inr here
    · rw [uhid.put_there channel same] at here
      exact .inl ⟨other, here⟩
  · intro used
    obtain ⟨other, here⟩ | here := used
    · have different : other ≠ slot := by
        intro same
        rw [same, free] at here
        cases here.1
      refine ⟨other, ?_⟩
      rw [uhid.put_there channel different]
      exact here
    · refine ⟨slot, ?_⟩
      rw [uhid.put_here]
      exact here

theorem freeSlot_congr {other : State κ} (used : ∀ slot, (other.channels slot).inUse = (uhid.channels slot).inUse) :
    other.freeSlot = uhid.freeSlot := by
  unfold freeSlot
  congr 1
  funext slot
  rw [used slot]

end State

/-- The name of a new channel depends on the names in use only. -/
theorem pickCid_congr {other : State κ} (names : ∀ name, other.Uses name ↔ uhid.Uses name) :
    pickCid env other = pickCid env uhid := by
  have same (name : UInt32) : (other.findChannel name).isNone = (uhid.findChannel name).isNone := by
    rw [Bool.eq_iff_iff, State.findChannel_isNone, State.findChannel_isNone, names name]
  unfold pickCid
  congr 1
  funext name
  rw [same name]

/-- A table in which nothing had to go: channels in use are as they were, and there is a
new name if one was asked for and found. -/
structure Grows (env : Env) (asked : Bool) (before after : State κ) : Prop where
  keeps : ∀ slot, (before.channels slot).inUse = true → after.channels slot = before.channels slot
  names : ∀ name, after.Uses name ↔ before.Uses name ∨ (asked = true ∧ pickCid env before = some name)

theorem Grows.of_channels {after : State κ} (same : after.channels = uhid.channels) : Grows env false uhid after where
  keeps slot _ := congrFun same slot
  names name := by
    rw [or_iff_left fun asked => Bool.false_ne_true asked.1]
    exact State.uses_congr (fun slot => by rw [same]; exact ⟨rfl, rfl⟩) name

theorem claimSlot_grows {slot : Slot} (free : (uhid.channels slot).inUse = false) :
    Grows env true uhid (claimSlot env slot uhid).2 := by
  have cleared (name : UInt32) : (uhid.put slot .zero).Uses name ↔ uhid.Uses name := by
    rw [State.uses_put free]
    exact or_iff_left fun zero => Bool.false_ne_true zero.1
  have different {other : Slot} (used : (uhid.channels other).inUse = true) : other ≠ slot := by
    intro same
    rw [same, free] at used
    cases used
  have unnamed : ((uhid.put slot .zero).channels slot).inUse = false := by
    rw [uhid.put_here]
    rfl
  have picks : pickCid env (uhid.put slot .zero) = pickCid env uhid := pickCid_congr cleared
  unfold claimSlot
  dsimp only
  rw [picks]
  cases picked : pickCid env uhid with
  | none =>
    refine ⟨fun other used => uhid.put_there _ (different used), fun name => ?_⟩
    rw [cleared, picked]
    exact (or_iff_left fun asked => by cases asked.2).symm
  | some cid =>
    refine ⟨fun other used => ?_, fun name => ?_⟩
    · exact ((uhid.put slot .zero).put_there _ (different used)).trans (uhid.put_there _ (different used))
    · dsimp only
      rw [State.uses_put unnamed, cleared, picked, Option.some.injEq]

theorem allocChannel_evicts : (allocChannel env uhid).1 = uhid.freeSlot.isNone := by
  unfold allocChannel
  cases uhid.freeSlot with
  | none => rfl
  | some slot => rfl

theorem allocChannel_grows (room : uhid.freeSlot.isNone = false) : Grows env true uhid (allocChannel env uhid).2.2 := by
  unfold allocChannel
  cases found : uhid.freeSlot with
  | none =>
    rw [found] at room
    cases room
  | some slot => exact claimSlot_grows (State.freeSlot_some found)

section
variable {message : Message}

theorem ctaphidDispatch_other (other : Command.ofByte message.cmd ≠ some .init) :
    (ctaphidDispatch engine env message uhid).1.evicted = false ∧
    (ctaphidDispatch engine env message uhid).2.channels = uhid.channels := by
  unfold ctaphidDispatch
  split
  next init => exact absurd init other
  · exact ⟨rfl, rfl⟩
  · unfold handleCbor
    split
    · exact ⟨rfl, rfl⟩
    · exact ⟨rfl, rfl⟩
  · exact ⟨rfl, rfl⟩
  · exact ⟨rfl, rfl⟩
  · exact ⟨rfl, rfl⟩
  · exact ⟨rfl, rfl⟩

theorem handleInit_evicts : (handleInit env message uhid).1.evicted =
    (decide (8 ≤ message.data.length) && uhid.freeSlot.isNone) := by
  unfold handleInit
  by_cases short : message.data.length < 8
  · rw [if_pos short, decide_eq_false (Nat.not_le.mpr short), Bool.false_and]
    rfl
  · rw [if_neg short, decide_eq_true (Nat.not_lt.mp short), Bool.true_and, ← @allocChannel_evicts κ env uhid]
    obtain ⟨evicted, slot, after⟩ := allocChannel env uhid
    cases slot with
    | none => exact Bool.or_false evicted
    | some slot => exact Bool.or_false evicted

theorem handleInit_grows (room : (handleInit env message uhid).1.evicted = false) :
    Grows env (decide (8 ≤ message.data.length)) uhid (handleInit env message uhid).2 := by
  rw [handleInit_evicts] at room
  unfold handleInit
  by_cases short : message.data.length < 8
  · rw [if_pos short, decide_eq_false (Nat.not_le.mpr short)]
    exact .of_channels rfl
  · rw [decide_eq_true (Nat.not_lt.mp short), Bool.true_and] at room
    rw [if_neg short, decide_eq_true (Nat.not_lt.mp short)]
    have grows : Grows env true uhid (allocChannel env uhid).2.2 := allocChannel_grows room
    rcases made : allocChannel env uhid with ⟨evicted, slot, after⟩
    rw [made] at grows
    cases slot with
    | none => exact grows
    | some slot => exact grows

theorem ctaphidDispatch_init (init : Command.ofByte message.cmd = some .init) :
    ctaphidDispatch engine env message uhid = handleInit env message uhid := by
  unfold ctaphidDispatch
  rw [init]

theorem Message.asks_init (init : Command.ofByte message.cmd = some .init) :
    message.asks = decide (8 ≤ message.data.length) := by
  unfold Message.asks
  rw [init]
  exact decide_eq_decide.mpr (and_iff_right rfl)

theorem Message.asks_other (other : Command.ofByte message.cmd ≠ some .init) : message.asks = false :=
  decide_eq_false fun both => other both.1

/-- A channel has to go if a new one is wanted and no slot is free. -/
theorem deliver_evicts : (deliver engine env message uhid).1.evicted = (message.asks && uhid.freeSlot.isNone) := by
  change (ctaphidDispatch engine env message uhid).1.evicted = _
  by_cases init : Command.ofByte message.cmd = some .init
  · rw [ctaphidDispatch_init init, handleInit_evicts, Message.asks_init init]
  · rw [(ctaphidDispatch_other init).1, Message.asks_other init, Bool.false_and]

theorem deliver_grows (room : (deliver engine env message uhid).1.evicted = false) :
    Grows env message.asks uhid (deliver engine env message uhid).2 := by
  change (ctaphidDispatch engine env message uhid).1.evicted = false at room
  change Grows env message.asks uhid (ctaphidDispatch engine env message uhid).2
  by_cases init : Command.ofByte message.cmd = some .init
  · rw [ctaphidDispatch_init init] at room ⊢
    rw [Message.asks_init init]
    exact handleInit_grows room
  · rw [Message.asks_other init]
    exact .of_channels (ctaphidDispatch_other init).2

end

/-- A table after a report to the channel of a slot. -/
structure Settled (env : Env) (slot : Slot) (asked : Bool) (channel : Channel) (before after : State κ) : Prop where
  here : after.channels slot = channel
  keeps : ∀ other, other ≠ slot → (before.channels other).inUse = true → after.channels other = before.channels other
  names : ∀ name, after.Uses name ↔ before.Uses name ∨ (asked = true ∧ pickCid env before = some name)

/-- The answer of the channel on its own decides what is dispatched, whether another
channel has to go, and what the table is if not. -/
structure Heard (env : Env) (slot : Slot) (answer : List Message × Channel) (before : State κ)
    (result : Outcome × State κ) : Prop where
  dispatched : result.1.dispatched = answer.1
  evicts : result.1.evicted = (answer.1.any Message.asks && before.freeSlot.isNone)
  settled : result.1.evicted = false → Settled env slot (answer.1.any Message.asks) answer.2 before result.2

theorem Heard.copying {slot : Slot} {answer : List Message × Channel} {result : Outcome × State κ}
    (heard : Heard env slot answer uhid result) (copy : Copy) : Heard env slot answer uhid (result.1.copying copy,
    result.2) :=
  ⟨heard.dispatched, heard.evicts, heard.settled⟩

section
variable {slot : Slot} {channel : Channel}

theorem Settled.put (inUse : channel.inUse = (uhid.channels slot).inUse) (cid : channel.cid = (uhid.channels slot).cid) :
    Settled env slot false channel uhid (uhid.put slot channel) where
  here := uhid.put_here slot channel
  keeps _ different _ := uhid.put_there channel different
  names name := by
    rw [or_iff_left fun asked => Bool.false_ne_true asked.1]
    exact State.uses_congr (State.put_names inUse cid) name

theorem Heard.refuse (inUse : channel.inUse = (uhid.channels slot).inUse) (cid : channel.cid = (uhid.channels slot).cid)
    (sent : List Report) : Heard env slot ([], channel) uhid (.quiet sent, uhid.put slot channel) :=
  ⟨rfl, rfl, fun _ => .put inUse cid⟩

theorem State.put_same (uhid : State κ) (slot : Slot) : uhid.put slot (uhid.channels slot) = uhid := by
  unfold State.put
  rw [Function.update_eq_self]

theorem Heard.ignore (sent : List Report) : Heard env slot ([], uhid.channels slot) uhid (.quiet sent, uhid) := by
  have refused : Heard env slot ([], uhid.channels slot) uhid (.quiet sent, uhid.put slot (uhid.channels slot)) :=
    .refuse rfl rfl sent
  rwa [uhid.put_same] at refused

/-- A message on a channel whose progress has changed, and its channel afterwards. -/
theorem Settled.deliver (used : (uhid.channels slot).inUse = true) (inUse : channel.inUse = (uhid.channels slot).inUse)
    (cid : channel.cid = (uhid.channels slot).cid) {asked : Bool} {after : State κ}
    (grows : Grows env asked (uhid.put slot channel) after)
    {final : Channel} (finalUse : final.inUse = channel.inUse) (finalCid : final.cid = channel.cid) :
    Settled env slot asked final uhid (after.put slot final) := by
  have named (name : UInt32) : (uhid.put slot channel).Uses name ↔ uhid.Uses name :=
    State.uses_congr (State.put_names inUse cid) name
  have here : after.channels slot = channel := by
    have kept := grows.keeps slot (by rw [uhid.put_here, inUse, used])
    rwa [uhid.put_here] at kept
  refine ⟨after.put_here slot final, fun other different busy => ?_, fun name => ?_⟩
  · have there := uhid.put_there channel different
    rw [after.put_there final different, grows.keeps other (by rw [there, busy]), there]
  · have same : (after.put slot final).Uses name ↔ after.Uses name :=
      State.uses_congr (State.put_names (finalUse.trans (congrArg _ here.symm)) (finalCid.trans (congrArg _ here.symm))) name
    rw [same, grows.names name, named name, pickCid_congr named]

theorem finish_heard (used : (uhid.channels slot).inUse = true) (inUse : channel.inUse = (uhid.channels slot).inUse)
    (cid : channel.cid = (uhid.channels slot).cid) :
    Heard env slot channel.completed uhid (finish engine env slot (uhid.put slot channel)) := by
  unfold finish Channel.completed
  dsimp only
  rw [uhid.put_here]
  by_cases complete : channel.received ≥ channel.totalLen
  · rw [if_pos complete, if_pos complete]
    generalize ({ cid := channel.cid, cmd := channel.cmd, data := channel.msgBuf.bytes.take channel.totalLen.toNat } :
      Message) = message
    have asked : [message].any Message.asks = message.asks := Bool.or_false _
    have full : (uhid.put slot channel).freeSlot = uhid.freeSlot :=
      State.freeSlot_congr fun other => (State.put_names inUse cid other).1
    refine ⟨deliver_dispatched message, ?_, fun room => ?_⟩
    · change (deliver engine env message (uhid.put slot channel)).1.evicted =
        ([message].any Message.asks && uhid.freeSlot.isNone)
      rw [deliver_evicts, asked, full]
    · have grows : Grows env message.asks (uhid.put slot channel)
        (deliver engine env message (uhid.put slot channel)).2 := deliver_grows room
      have here : (deliver engine env message (uhid.put slot channel)).2.channels slot = channel := by
        have kept := grows.keeps slot (by rw [uhid.put_here, inUse, used])
        rwa [uhid.put_here] at kept
      change Settled env slot ([message].any Message.asks) channel.reset uhid
        ((deliver engine env message (uhid.put slot channel)).2.put slot
        ((deliver engine env message (uhid.put slot channel)).2.channels slot).reset)
      rw [asked, here]
      exact .deliver used inUse cid grows rfl rfl
  · rw [if_neg complete, if_neg complete]
    exact .refuse inUse cid []

end

section
variable {report : Report} {slot : Slot}

theorem beginMessage_heard (used : (uhid.channels slot).inUse = true) (cmd : UInt8) :
    Heard env slot ((uhid.channels slot).begun env cmd report).completed uhid
    (beginMessage engine env slot cmd report uhid) := by
  have finished : Heard env slot ((uhid.channels slot).begun env cmd report).completed uhid
      (finish engine env slot (uhid.put slot ((uhid.channels slot).begun env cmd report))) := finish_heard used rfl rfl
  exact finished.copying _

theorem deliver_heard (used : (uhid.channels slot).inUse = true) (message : Message) :
    Heard env slot ([message], uhid.channels slot) uhid (deliver engine env message uhid) := by
  have asked : [message].any Message.asks = message.asks := Bool.or_false _
  refine ⟨deliver_dispatched message, ?_, fun room => ?_⟩
  · rw [deliver_evicts, asked]
  · have grows : Grows env message.asks uhid (deliver engine env message uhid).2 := deliver_grows room
    rw [asked]
    exact ⟨grows.keeps slot used, fun other _ busy => grows.keeps other busy, grows.names⟩

theorem initReport_heard (named : Named uhid) (found : uhid.findChannel report.cid = some slot) :
    Heard env slot ((uhid.channels slot).begins env report) uhid (initReport engine env report uhid) := by
  obtain ⟨used, same⟩ := State.findChannel_some found
  have proper : report.cid ≠ broadcastCid := same ▸ (named.proper slot used).2
  unfold initReport Channel.begins
  dsimp only
  by_cases init : report.byte4 &&& 0x7F = Command.init.code ∧ report.totalLen.toNat ≤ initDataSize
  · rw [if_pos init, if_pos init]
    exact deliver_heard used _
  · rw [if_neg init, if_neg init]
    by_cases long : report.totalLen.toNat > maxMsgSize
    · rw [if_pos long, if_pos long]
      exact .ignore _
    · rw [if_neg long, if_neg long, if_neg proper, found]
      exact beginMessage_heard used _

theorem continueMessage_heard (used : (uhid.channels slot).inUse = true) (busy : (uhid.channels slot).totalLen ≠ 0)
    (expected : report.byte4 = (uhid.channels slot).nextSeq) :
    Heard env slot ((uhid.channels slot).continues env report) uhid (continueMessage engine env slot report uhid) := by
  unfold continueMessage Channel.continues
  dsimp only
  rw [if_neg busy, if_neg (not_not.mpr expected)]
  by_cases long : (uhid.channels slot).received.toNat + (uhid.channels slot).nextChunk > maxMsgSize
  · rw [if_pos long, if_pos long]
    apply Heard.refuse
    · rfl
    · rfl
  · rw [if_neg long, if_neg long]
    have finished : Heard env slot ((uhid.channels slot).continued env report).completed uhid
        (finish engine env slot (uhid.put slot ((uhid.channels slot).continued env report))) := finish_heard used rfl rfl
    exact finished.copying _

theorem contReport_heard (found : uhid.findChannel report.cid = some slot) :
    Heard env slot ((uhid.channels slot).continues env report) uhid (contReport engine env report uhid) := by
  obtain ⟨used, -⟩ := State.findChannel_some found
  unfold contReport
  rw [found]
  dsimp only
  by_cases idle : (uhid.channels slot).totalLen = 0
  · rw [if_pos idle]
    unfold Channel.continues
    rw [if_pos idle]
    exact .ignore _
  · rw [if_neg idle]
    by_cases stray : report.byte4 ≠ (uhid.channels slot).nextSeq
    · rw [if_pos stray]
      unfold Channel.continues
      rw [if_neg idle, if_pos stray]
      apply Heard.refuse
      · rfl
      · rfl
    · rw [if_neg stray]
      exact continueMessage_heard used idle (not_not.mp stray)

theorem processHidReport_heard (named : Named uhid) (found : uhid.findChannel report.cid = some slot) :
    Heard env slot ((uhid.channels slot).hears env report) uhid (processHidReport engine env report uhid) := by
  unfold processHidReport Channel.hears
  by_cases first : report.byte4 &&& initPacketFlag ≠ 0
  · rw [if_pos first, if_pos first]
    exact initReport_heard named found
  · rw [if_neg first, if_neg first]
    exact contReport_heard found

end

/-- A step that leaves the channels in use alone, with messages under one name only. -/
structure Spares (cid : UInt32) (before : State κ) (result : Outcome × State κ) : Prop where
  keeps : ∀ slot, (before.channels slot).inUse = true → result.2.channels slot = before.channels slot
  dispatched : ∀ message ∈ result.1.dispatched, message.cid = cid

theorem Spares.quiet (cid : UInt32) (sent : List Report) : Spares cid uhid (.quiet sent, uhid) :=
  ⟨fun _ _ => rfl, fun _ inside => absurd inside List.not_mem_nil⟩

theorem claimSlot_slot {slot given : Slot} (claimed : (claimSlot env slot uhid).1 = some given) : given = slot := by
  unfold claimSlot at claimed
  dsimp only at claimed
  cases picked : pickCid env (uhid.put slot .zero) with
  | none =>
    rw [picked] at claimed
    cases claimed
  | some cid =>
    rw [picked] at claimed
    exact (Option.some.inj claimed).symm

theorem allocChannel_slot (room : uhid.freeSlot.isNone = false) {slot : Slot}
    (allocated : (allocChannel env uhid).2.1 = some slot) :
    (uhid.channels slot).inUse = false := by
  unfold allocChannel at allocated
  cases found : uhid.freeSlot with
  | none =>
    rw [found] at room
    cases room
  | some free =>
    rw [found] at allocated
    rw [claimSlot_slot allocated]
    exact State.freeSlot_some found

section
variable {report : Report} {slot : Slot}

/-- The first packet of a long message completes nothing. -/
theorem beginMessage_long (long : initDataSize < report.totalLen.toNat) (cmd : UInt8) :
    (beginMessage engine env slot cmd report uhid).1.dispatched = [] ∧
    (beginMessage engine env slot cmd report uhid).1.evicted = false ∧
      (beginMessage engine env slot cmd report uhid).2 = uhid.put slot ((uhid.channels slot).begun env cmd report) := by
  have incomplete : ¬ ((uhid.channels slot).begun env cmd report).received ≥ ((uhid.channels slot).begun env cmd report).totalLen := by
    intro complete
    have complete : report.totalLen.toNat ≤ (UInt16.ofNat (firstChunk report)).toNat := UInt16.le_iff_toNat_le.mp complete
    rw [firstChunk_toNat] at complete
    unfold firstChunk at complete
    omega
  unfold beginMessage finish
  dsimp only
  rw [uhid.put_here, if_neg incomplete]
  exact ⟨rfl, rfl, rfl⟩

theorem initReport_spares (absent : uhid.findChannel report.cid = none)
    (room : (initReport engine env report uhid).1.evicted = false) :
    Spares report.cid uhid (initReport engine env report uhid) := by
  unfold initReport at room ⊢
  dsimp only at room ⊢
  by_cases init : report.byte4 &&& 0x7F = Command.init.code ∧ report.totalLen.toNat ≤ initDataSize
  · rw [if_pos init] at room ⊢
    refine ⟨(deliver_grows room).keeps, fun message inside => ?_⟩
    rw [deliver_dispatched, List.mem_singleton] at inside
    rw [inside]
  rw [if_neg init] at room ⊢
  by_cases long : report.totalLen.toNat > maxMsgSize
  · rw [if_pos long]
    exact .quiet _ _
  rw [if_neg long] at room ⊢
  by_cases broadcast : report.cid = broadcastCid
  · rw [if_pos broadcast] at room ⊢
    by_cases other : report.byte4 &&& 0x7F ≠ Command.init.code
    · rw [if_pos other]
      exact .quiet _ _
    · rw [if_neg other] at room ⊢
      have several : initDataSize < report.totalLen.toNat := Nat.lt_of_not_le fun few => init ⟨not_not.mp other, few⟩
      have evicts : (allocChannel env uhid).1 = uhid.freeSlot.isNone := allocChannel_evicts
      have grown : uhid.freeSlot.isNone = false → Grows env true uhid (allocChannel env uhid).2.2 := allocChannel_grows
      have given (empty : uhid.freeSlot.isNone = false) (slot : Slot) :
        (allocChannel env uhid).2.1 = some slot → (uhid.channels slot).inUse = false := allocChannel_slot empty
      rcases made : allocChannel env uhid with ⟨evicted, slot, after⟩
      rw [made] at room evicts grown given
      have spared (kept : evicted = false) : uhid.freeSlot.isNone = false := evicts.symm.trans kept
      cases slot with
      | none =>
        have empty := spared (Bool.or_eq_false_iff.mp room).1
        exact ⟨(grown empty).keeps, fun _ inside => absurd inside List.not_mem_nil⟩
      | some slot =>
        have empty := spared (Bool.or_eq_false_iff.mp room).1
        obtain ⟨silent, -, started⟩ : (beginMessage engine env slot (report.byte4 &&& 0x7F)
          report after).1.dispatched = [] ∧ _ :=
          beginMessage_long several _
        refine ⟨fun other used => ?_, fun message inside => ?_⟩
        · have different : other ≠ slot := by
            intro same
            rw [same, given empty slot rfl] at used
            cases used
          refine Eq.trans (congrArg (fun state => state.channels other) started) ?_
          rw [after.put_there _ different]
          exact (grown empty).keeps other used
        · have inside : message ∈ (beginMessage engine env slot (report.byte4 &&& 0x7F) report after).1.dispatched := inside
          rw [silent] at inside
          exact absurd inside List.not_mem_nil
  · rw [if_neg broadcast, absent]
    exact .quiet _ _

theorem processHidReport_spares (absent : uhid.findChannel report.cid = none)
    (room : (processHidReport engine env report uhid).1.evicted = false) :
    Spares report.cid uhid (processHidReport engine env report uhid) := by
  unfold processHidReport at room ⊢
  by_cases first : report.byte4 &&& initPacketFlag ≠ 0
  · rw [if_pos first] at room ⊢
    exact initReport_spares absent room
  · rw [if_neg first]
    unfold contReport
    rw [absent]
    exact .quiet _ _

end

theorem Channel.completed_cid {channel : Channel} {message : Message} (inside : message ∈ channel.completed.1) :
    message.cid = channel.cid := by
  unfold Channel.completed at inside
  split at inside
  · rw [List.mem_singleton] at inside
    rw [inside]
  · exact absurd inside List.not_mem_nil

theorem Channel.hears_cid {channel : Channel} {report : Report} (named : channel.cid = report.cid) {message : Message}
    (inside : message ∈ (channel.hears env report).1) : message.cid = report.cid := by
  unfold Channel.hears at inside
  split at inside
  · unfold Channel.begins at inside
    dsimp only at inside
    split at inside
    · rw [List.mem_singleton] at inside
      rw [inside]
    split at inside
    · exact absurd inside List.not_mem_nil
    · exact (Channel.completed_cid inside).trans named
  · unfold Channel.continues at inside
    split at inside
    · exact absurd inside List.not_mem_nil
    split at inside
    · exact absurd inside List.not_mem_nil
    split at inside
    · exact absurd inside List.not_mem_nil
    · exact (Channel.completed_cid inside).trans named

theorem Channel.completed_name (channel : Channel) : channel.completed.2.inUse = channel.inUse ∧
    channel.completed.2.cid = channel.cid := by
  unfold Channel.completed
  split
  · exact ⟨rfl, rfl⟩
  · exact ⟨rfl, rfl⟩

theorem Channel.hears_name (channel : Channel) (report : Report) :
    (channel.hears env report).2.inUse = channel.inUse ∧ (channel.hears env report).2.cid = channel.cid := by
  unfold Channel.hears
  split
  · unfold Channel.begins
    dsimp only
    split
    · exact ⟨rfl, rfl⟩
    split
    · exact ⟨rfl, rfl⟩
    · exact Channel.completed_name _
  · unfold Channel.continues
    split
    · exact ⟨rfl, rfl⟩
    split
    · exact ⟨rfl, rfl⟩
    split
    · exact ⟨rfl, rfl⟩
    · exact Channel.completed_name _

/-- A report, its messages and what it leaves of the channels of other names. -/
theorem processHidReport_elsewhere (named : Named uhid) {report : Report}
    (room : (processHidReport engine env report uhid).1.evicted = false) :
    (∀ slot, (uhid.channels slot).inUse = true → (uhid.channels slot).cid ≠ report.cid →
        (processHidReport engine env report uhid).2.channels slot = uhid.channels slot) ∧
      (∀ name, uhid.Uses name → (processHidReport engine env report uhid).2.Uses name) ∧
      ∀ message ∈ (processHidReport engine env report uhid).1.dispatched, message.cid = report.cid := by
  cases found : uhid.findChannel report.cid with
  | none =>
    have spares : Spares report.cid uhid (processHidReport engine env report uhid) := processHidReport_spares found room
    refine ⟨fun slot used _ => spares.keeps slot used, fun name ⟨slot, used, same⟩ => ⟨slot, ?_⟩, spares.dispatched⟩
    rw [spares.keeps slot used]
    exact ⟨used, same⟩
  | some own =>
    have heard : Heard env own ((uhid.channels own).hears env report) uhid (processHidReport engine env report uhid) :=
      processHidReport_heard named found
    have settled := heard.settled room
    obtain ⟨-, same⟩ := State.findChannel_some found
    refine ⟨fun slot used other => settled.keeps slot ?_ used, fun name used => (settled.names name).mpr (.inl used), ?_⟩
    · intro here
      exact other (here ▸ same)
    · intro message inside
      rw [heard.dispatched] at inside
      exact Channel.hears_cid same inside

structure Alike (cid : UInt32) (whole alone : State κ) : Prop where
  wholeSound : Sound whole
  aloneSound : Sound alone
  fewer : ∀ name, alone.Uses name → whole.Uses name
  same : ∃ slot other, whole.findChannel cid = some slot ∧ alone.findChannel cid = some other ∧
    whole.channels slot = alone.channels other

section
variable {cid : UInt32} {whole alone : State κ}

/-- A table that is full has no more room with more names. -/
theorem Alike.freeSlot (alike : Alike cid whole alone) (full : alone.freeSlot.isNone = true) :
    whole.freeSlot.isNone = true := by
  have taken := State.freeSlot_none (Option.isNone_iff_eq_none.mp full)
  have place (slot : Slot) : ∃ other, (whole.channels other).inUse = true ∧
    (whole.channels other).cid = (alone.channels slot).cid :=
    alike.fewer _ ⟨slot, taken slot, rfl⟩
  choose moved used named using place
  have injective : Function.Injective moved := by
    intro first second equal
    refine alike.aloneSound.named.apart first second (taken first) (taken second) ?_
    rw [← named first, ← named second, equal]
  have onto := Finite.surjective_of_injective injective
  cases free : whole.freeSlot with
  | none => rfl
  | some slot =>
    obtain ⟨origin, rfl⟩ := onto slot
    have unused := State.freeSlot_some free
    rw [used origin] at unused
    cases unused

/-- A name that is free where more names are in use is found there as well. -/
theorem pickCid_more (fewer : ∀ name, alone.Uses name → whole.Uses name) {name : UInt32}
    (picked : pickCid env alone = some name)
    (unused : ¬ whole.Uses name) : pickCid env whole = some name := by
  unfold pickCid at picked ⊢
  obtain ⟨fine, front, back, shape, passed⟩ := List.find?_eq_some_iff_append.mp picked
  refine List.find?_eq_some_iff_append.mpr ⟨?_, front, back, shape, fun earlier inside => ?_⟩
  · obtain ⟨proper, -⟩ := Bool.and_eq_true_iff.mp fine
    exact Bool.and_eq_true_iff.mpr ⟨proper, State.findChannel_isNone.mpr unused⟩
  · have skipped := passed earlier inside
    simp only [Bool.not_and, Bool.not_not, Bool.or_eq_true, Bool.not_eq_true'] at skipped ⊢
    obtain reserved | busy := skipped
    · exact .inl reserved
    · right
      rw [← Bool.not_eq_true, State.findChannel_isNone, not_not] at busy ⊢
      exact fewer earlier busy

theorem Alike.own (alike : Alike cid whole alone) {report : Report} (own : report.cid = cid)
    (room : (processHidReport engine env report whole).1.evicted = false) :
    Alike cid (processHidReport engine env report whole).2 (processHidReport engine env report alone).2 ∧
      (processHidReport engine env report whole).1.dispatched = (processHidReport engine env report alone).1.dispatched := by
  obtain ⟨slot, other, found, there, same⟩ := alike.same
  rw [← own] at found there
  have heard : Heard env slot ((whole.channels slot).hears env report) whole (processHidReport engine env report whole) :=
    processHidReport_heard alike.wholeSound.named found
  have copied : Heard env other ((alone.channels other).hears env report) alone (processHidReport engine env report alone) :=
    processHidReport_heard alike.aloneSound.named there
  obtain ⟨used, named⟩ := State.findChannel_some there
  obtain ⟨keepsUse, keepsName⟩ : ((alone.channels other).hears env report).2.inUse = _ ∧
    ((alone.channels other).hears env report).2.cid = _ :=
    Channel.hears_name (alone.channels other) report
  rw [used] at keepsUse
  rw [named, own] at keepsName
  rw [same] at heard
  generalize (alone.channels other).hears env report = answer at heard copied keepsUse keepsName
  have calm : (processHidReport engine env report alone).1.evicted = false := by
    rw [heard.evicts] at room
    rw [copied.evicts]
    cases asked : answer.1.any Message.asks with
    | false => rfl
    | true =>
      rw [asked, Bool.true_and] at room
      rw [Bool.true_and, Bool.eq_false_iff]
      exact fun full => Bool.eq_false_iff.mp room (alike.freeSlot full)
  have settled := heard.settled room
  have followed := copied.settled calm
  have wholeSound : Sound (processHidReport engine env report whole).2 :=
    (processHidReport_fine alike.wholeSound report).sound
  have aloneSound : Sound (processHidReport engine env report alone).2 :=
    (processHidReport_fine alike.aloneSound report).sound
  refine ⟨⟨wholeSound, aloneSound, fun name inUse => (settled.names name).mpr ?_, slot, other, ?_, ?_, ?_⟩, ?_⟩
  · obtain old | ⟨asked, picked⟩ := (followed.names name).mp inUse
    · exact .inl (alike.fewer name old)
    · by_cases known : whole.Uses name
      · exact .inl known
      · exact .inr ⟨asked, pickCid_more alike.fewer picked known⟩
  · rw [State.findChannel_iff wholeSound.named, settled.here]
    exact ⟨keepsUse, keepsName⟩
  · rw [State.findChannel_iff aloneSound.named, followed.here]
    exact ⟨keepsUse, keepsName⟩
  · rw [settled.here, followed.here]
  · rw [heard.dispatched, copied.dispatched]

theorem Alike.other (alike : Alike cid whole alone) {report : Report} (other : report.cid ≠ cid)
    (room : (processHidReport engine env report whole).1.evicted = false) :
    Alike cid (processHidReport engine env report whole).2 alone ∧
      (processHidReport engine env report whole).1.dispatched.filter (fun message => message.cid = cid) = [] := by
  obtain ⟨slot, place, found, there, same⟩ := alike.same
  obtain ⟨used, named⟩ := State.findChannel_some found
  obtain ⟨keeps, names, marked⟩ : (∀ slot, (whole.channels slot).inUse = true → (whole.channels slot).cid ≠ report.cid →
      (processHidReport engine env report whole).2.channels slot = whole.channels slot) ∧ _ :=
    processHidReport_elsewhere alike.wholeSound.named room
  have wholeSound : Sound (processHidReport engine env report whole).2 :=
    (processHidReport_fine alike.wholeSound report).sound
  have kept := keeps slot used fun equal => other (equal.symm.trans named)
  refine ⟨⟨wholeSound, alike.aloneSound, fun name inUse => names name (alike.fewer name inUse), slot, place, ?_, there,
    ?_⟩, ?_⟩
  · rw [State.findChannel_iff wholeSound.named, kept]
    exact ⟨used, named⟩
  · rw [kept, same]
  · refine List.filter_eq_nil_iff.mpr fun message inside own => ?_
    exact other ((marked message inside).symm.trans (of_decide_eq_true own))

end

def Input.expires (uhid : State κ) : Input → Bool
  | .output _ _ => false
  | .sweep env => (List.finRange maxChannels).any fun slot => (uhid.channels slot).stale env

/-- No channel has to go for a new one, and no transaction is given up. -/
def Calm (event : Event (State κ) Input Outcome) : Prop :=
  event.outcome.evicted = false ∧ event.input.expires event.before = false

instance (event : Event (State κ) Input Outcome) : Decidable (Calm event) := inferInstanceAs (Decidable (_ ∧ _))

/-- A report on a channel. -/
def Input.on (cid : UInt32) : Input → Bool
  | .output data _ => (outputReport data).any fun report => report.cid = cid
  | .sweep _ => false

theorem sweep_calm (calm : Input.expires uhid (.sweep env) = false) : (sweep env uhid).2 = uhid := by
  have fresh (slot : Slot) : (uhid.channels slot).stale env = false :=
    Bool.eq_false_iff.mpr (List.any_eq_false.mp calm slot (List.mem_finRange slot))
  have same : (fun slot => if (uhid.channels slot).stale env then (uhid.channels slot).reset else uhid.channels slot) =
    uhid.channels := by
    funext slot
    rw [fresh slot, if_neg Bool.false_ne_true]
  unfold sweep
  dsimp only
  rw [same]

section
variable {cid : UInt32} {whole alone : State κ} {input : Input}

theorem Alike.step_own (alike : Alike cid whole alone) (own : input.on cid = true)
    (calm : Calm ((transport engine).event whole input)) :
    Alike cid (step engine input whole).2 (step engine input alone).2 ∧
      (step engine input whole).1.dispatched = (step engine input alone).1.dispatched ∧
      ∀ message ∈ (step engine input whole).1.dispatched, message.cid = cid := by
  cases input with
  | sweep env => cases own
  | output data env =>
    have room : (step engine (.output data env) whole).1.evicted = false := calm.1
    change (outputReport data).any _ = true at own
    unfold step at room ⊢
    dsimp only at room ⊢
    cases shaped : outputReport data with
    | none =>
      rw [shaped] at own
      cases own
    | some report =>
      rw [shaped] at own room
      have named : report.cid = cid := of_decide_eq_true own
      obtain ⟨after, same⟩ := alike.own named room
      obtain ⟨-, -, marked⟩ : _ ∧ _ ∧ ∀ message ∈ (processHidReport engine env report whole).1.dispatched,
        message.cid = report.cid :=
        processHidReport_elsewhere alike.wholeSound.named room
      exact ⟨after, same, fun message inside => (marked message inside).trans named⟩

theorem Alike.step_other (alike : Alike cid whole alone) (other : input.on cid = false)
    (calm : Calm ((transport engine).event whole input)) :
    Alike cid (step engine input whole).2 alone ∧
      (step engine input whole).1.dispatched.filter (fun message => message.cid = cid) = [] := by
  cases input with
  | sweep env =>
    have still : (sweep env whole).2 = whole := sweep_calm calm.2
    change Alike cid (sweep env whole).2 alone ∧ _
    rw [still]
    exact ⟨alike, rfl⟩
  | output data env =>
    have room : (step engine (.output data env) whole).1.evicted = false := calm.1
    unfold step at room ⊢
    dsimp only at room ⊢
    cases shaped : outputReport data with
    | none => exact ⟨alike, rfl⟩
    | some report =>
      rw [shaped] at room
      change (outputReport data).any _ = false at other
      rw [shaped] at other
      exact alike.other (of_decide_eq_false other) room

end

/-- Step by step, what the channel dispatches is what it would dispatch on its own. -/
theorem Alike.run {cid : UInt32} {whole alone : State κ} (alike : Alike cid whole alone) (inputs : List Input)
    (calm : ∀ event ∈ (transport engine).run whole inputs, Calm event) :
    (messages ((transport engine).run whole inputs)).filter (fun message => message.cid = cid) =
      messages ((transport engine).run alone (inputs.filter (Input.on cid))) := by
  induction inputs generalizing whole alone with
  | nil => rfl
  | cons input rest ih =>
    have here : Calm ((transport engine).event whole input) := calm _ (List.mem_cons_self ..)
    have later : ∀ event ∈ (transport engine).run (step engine input whole).2 rest, Calm event :=
      fun event inside => calm event (List.mem_cons_of_mem _ inside)
    rw [messages_cons, List.filter_append]
    cases own : input.on cid with
    | true =>
      obtain ⟨after, same, marked⟩ := alike.step_own own here
      have all : (step engine input whole).1.dispatched.filter (fun message => message.cid = cid) =
        (step engine input whole).1.dispatched :=
        List.filter_eq_self.mpr fun message inside => decide_eq_true (marked message inside)
      rw [List.filter_cons_of_pos own, messages_cons, ih after later, all, same]
    | false =>
      obtain ⟨after, none⟩ := alike.step_other own here
      rw [List.filter_cons_of_neg (Bool.eq_false_iff.mp own), ih after later, none, List.nil_append]

/-- In a run in which no channel is evicted or timed out, the messages of a channel are
those of the run of its own reports. -/
theorem channels_are_isolated (engine : Engine κ) (ctx : κ) (past : List Input) (cid : UInt32)
    (allocated : ((reached engine ctx past).findChannel cid).isSome = true) (inputs : List Input)
    (calm : ∀ event ∈ (transport engine).run (reached engine ctx past) inputs, Calm event) :
    (messages ((transport engine).run (reached engine ctx past) inputs)).filter (fun message => message.cid = cid) =
      messages ((transport engine).run (reached engine ctx past) (inputs.filter (Input.on cid))) := by
  obtain ⟨slot, found⟩ := Option.isSome_iff_exists.mp allocated
  have sound := sound_reached engine ctx past
  have alike : Alike cid (reached engine ctx past) (reached engine ctx past) :=
    ⟨sound, sound, fun _ used => used, slot, slot, found, found, rfl⟩
  exact alike.run inputs calm

/-- Two hosts at the same time: a message of two packets on one channel, and a message of
one packet and a stray packet on the other in between. -/
def interleaved : List Input :=
  (packets 5 Command.ping.code (List.replicate 60 7)).flatMap fun report =>
    [.output report.bytes (calmly 9), .output (initPacket 6 Command.wink.code []).bytes (calmly 9),
      .output (contPacket 6 3 []).bytes (calmly 9), .sweep (calmly 9)]

theorem channels_are_isolated_interleaved :
    (messages ((transport mute).run (reached mute () [asksChannel 5, asksChannel 6]) interleaved)).filter
    (fun message => message.cid = 5) =
      messages ((transport mute).run (reached mute () [asksChannel 5, asksChannel 6]) (interleaved.filter (Input.on 5))) :=
  channels_are_isolated mute () [asksChannel 5, asksChannel 6] 5 (by decide +kernel) interleaved (by decide +kernel)

end Hiya.Uhid
