import Hiya.Uhid.Transport

/-! The channel table in every run. Channels in use have names of their own, and the
progress of a message is told by its sequence number, so that no copy goes past the end
of the message. -/

namespace Hiya.Uhid
open Library

/-- Nothing is under way, or the first packet and as many others as were counted. -/
def Channel.Sound (channel : Channel) : Prop :=
  (channel.totalLen = 0 ∧ channel.received = 0) ∨
    (channel.received < channel.totalLen ∧ channel.totalLen.toNat ≤ maxMsgSize ∧
      channel.received.toNat = initDataSize + contDataSize * channel.nextSeq.toNat)

structure Named {κ : Type} (uhid : State κ) : Prop where
  apart : ∀ first second, (uhid.channels first).inUse = true → (uhid.channels second).inUse = true →
    (uhid.channels first).cid = (uhid.channels second).cid → first = second
  proper : ∀ slot, (uhid.channels slot).inUse = true → (uhid.channels slot).cid ≠ 0 ∧ (uhid.channels slot).cid ≠ broadcastCid

structure Sound {κ : Type} (uhid : State κ) : Prop where
  named : Named uhid
  each : ∀ slot, (uhid.channels slot).Sound

/-- A copy that stays inside of its message. -/
def Copy.Within (copy : Copy) : Prop := copy.offset + copy.count ≤ copy.total

variable {κ : Type} {engine : Engine κ} {env : Env} {uhid : State κ}

theorem Channel.sound_reset (channel : Channel) : channel.reset.Sound := .inl ⟨rfl, rfl⟩

theorem Channel.sound_zero : Channel.zero.Sound := .inl ⟨rfl, rfl⟩

namespace State

theorem put_here (uhid : State κ) (slot : Slot) (channel : Channel) : (uhid.put slot channel).channels slot = channel :=
  Function.update_self ..

theorem put_there (uhid : State κ) {slot other : Slot} (channel : Channel) (different : other ≠ slot) :
    (uhid.put slot channel).channels other = uhid.channels other := Function.update_of_ne different ..

theorem findChannel_some {cid : UInt32} {slot : Slot} (found : uhid.findChannel cid = some slot) :
    (uhid.channels slot).inUse = true ∧ (uhid.channels slot).cid = cid := by
  have here := List.find?_some found
  simpa using here

theorem findChannel_none {cid : UInt32} (missing : uhid.findChannel cid = none) (slot : Slot) :
    ¬ ((uhid.channels slot).inUse = true ∧ (uhid.channels slot).cid = cid) := by
  have absent := List.find?_eq_none.mp missing slot (List.mem_finRange slot)
  simpa using absent

/-- Another progress in a channel with the same name changes no name. -/
theorem put_names {slot : Slot} {channel : Channel} (inUse : channel.inUse = (uhid.channels slot).inUse)
    (cid : channel.cid = (uhid.channels slot).cid) (other : Slot) :
    ((uhid.put slot channel).channels other).inUse = (uhid.channels other).inUse ∧
      ((uhid.put slot channel).channels other).cid = (uhid.channels other).cid := by
  by_cases here : other = slot
  · subst here
    rw [uhid.put_here]
    exact ⟨inUse, cid⟩
  · rw [uhid.put_there channel here]
    exact ⟨rfl, rfl⟩

theorem findChannel_congr {other : State κ} (names : ∀ slot, (other.channels slot).inUse = (uhid.channels slot).inUse ∧
    (other.channels slot).cid = (uhid.channels slot).cid) (cid : UInt32) : other.findChannel cid = uhid.findChannel cid := by
  unfold findChannel
  congr 1
  funext slot
  rw [(names slot).1, (names slot).2]

theorem findChannel_put {slot : Slot} {channel : Channel} (inUse : channel.inUse = (uhid.channels slot).inUse)
    (cid : channel.cid = (uhid.channels slot).cid) (name : UInt32) :
    (uhid.put slot channel).findChannel name = uhid.findChannel name := findChannel_congr (put_names inUse cid) name

theorem freeSlot_some {slot : Slot} (found : uhid.freeSlot = some slot) : (uhid.channels slot).inUse = false := by
  have here := List.find?_some found
  simpa using here

end State

/-- Another progress in a channel with the same name. -/
theorem Named.put (named : Named uhid) {slot : Slot} {channel : Channel} (inUse : channel.inUse = (uhid.channels slot).inUse)
    (cid : channel.cid = (uhid.channels slot).cid) : Named (uhid.put slot channel) := by
  have names := State.put_names inUse cid
  refine ⟨fun first second => ?_, fun other => ?_⟩
  · rw [(names first).1, (names first).2, (names second).1, (names second).2]
    exact named.apart first second
  · rw [(names other).1, (names other).2]
    exact named.proper other

theorem Named.replace (named : Named uhid) {slot : Slot} {channel : Channel}
    (fresh : channel.inUse = true → (channel.cid ≠ 0 ∧ channel.cid ≠ broadcastCid) ∧
      ∀ other, other ≠ slot → ¬ ((uhid.channels other).inUse = true ∧ (uhid.channels other).cid = channel.cid)) :
    Named (uhid.put slot channel) := by
  refine ⟨fun first second firstUsed secondUsed same => ?_, fun other used => ?_⟩
  · by_cases here : first = slot
    · by_cases there : second = slot
      · rw [here, there]
      · rw [here, uhid.put_here] at firstUsed same
        rw [uhid.put_there channel there] at secondUsed same
        exact absurd ⟨secondUsed, same.symm⟩ ((fresh firstUsed).2 second there)
    · rw [uhid.put_there channel here] at firstUsed same
      by_cases there : second = slot
      · rw [there, uhid.put_here] at secondUsed same
        exact absurd ⟨firstUsed, same⟩ ((fresh secondUsed).2 first here)
      · rw [uhid.put_there channel there] at secondUsed same
        exact named.apart first second firstUsed secondUsed same
  · by_cases here : other = slot
    · subst here
      rw [uhid.put_here] at used ⊢
      exact (fresh used).1
    · rw [uhid.put_there channel here] at used ⊢
      exact named.proper other used

theorem pickCid_some {cid : UInt32} (picked : pickCid env uhid = some cid) :
    (cid ≠ 0 ∧ cid ≠ broadcastCid) ∧ uhid.findChannel cid = none := by
  have fine := List.find?_some picked
  simpa [reservedCid] using fine

/-- Every channel stays as it is, or is one on which nothing is under way. -/
def Kept (before after : State κ) : Prop := ∀ slot, after.channels slot = before.channels slot ∨ (after.channels slot).Sound

theorem Kept.refl (uhid : State κ) : Kept uhid uhid := fun _ => .inl rfl

theorem Kept.put {before after : State κ} (kept : Kept before after) {slot : Slot} {channel : Channel}
    (fine : channel.Sound) :
    Kept before (after.put slot channel) := by
  intro other
  by_cases here : other = slot
  · subst here
    rw [after.put_here]
    exact .inr fine
  · rw [after.put_there channel here]
    exact kept other

theorem claimSlot_named (named : Named uhid) (slot : Slot) : Named (claimSlot env slot uhid).2 ∧
    Kept uhid (claimSlot env slot uhid).2 := by
  have cleared : Named (uhid.put slot .zero) := named.replace fun used => by cases used
  have kept : Kept uhid (uhid.put slot .zero) := (Kept.refl uhid).put Channel.sound_zero
  unfold claimSlot
  dsimp only
  split
  · exact ⟨cleared, kept⟩
  next cid picked =>
    obtain ⟨proper, absent⟩ := pickCid_some picked
    refine ⟨cleared.replace fun _ => ⟨proper, fun other _ => State.findChannel_none absent other⟩, kept.put ?_⟩
    exact .inl ⟨rfl, rfl⟩

theorem allocChannel_named (named : Named uhid) : Named (allocChannel env uhid).2.2 ∧
    Kept uhid (allocChannel env uhid).2.2 := by
  unfold allocChannel
  split
  · exact claimSlot_named named _
  · exact claimSlot_named named _

theorem handleInit_named (named : Named uhid) (message : Message) :
    Named (handleInit env message uhid).2 ∧ Kept uhid (handleInit env message uhid).2 := by
  have allocated : Named (allocChannel env uhid).2.2 ∧ Kept uhid (allocChannel env uhid).2.2 := allocChannel_named named
  unfold handleInit
  split
  · exact ⟨named, .refl uhid⟩
  · split
    next made =>
      rw [made] at allocated
      exact allocated
    next made =>
      rw [made] at allocated
      exact allocated

theorem handleCbor_channels (message : Message) : (handleCbor engine env message uhid).2.channels = uhid.channels := by
  unfold handleCbor
  split
  · rfl
  · rfl

theorem named_of_channels {other : State κ} (named : Named uhid) (same : other.channels = uhid.channels) :
    Named other ∧ Kept uhid other := by
  obtain ⟨channels, ctx⟩ := other
  cases same
  exact ⟨⟨named.apart, named.proper⟩, fun _ => .inl rfl⟩

theorem ctaphidDispatch_named (named : Named uhid) (message : Message) :
    Named (ctaphidDispatch engine env message uhid).2 ∧ Kept uhid (ctaphidDispatch engine env message uhid).2 := by
  unfold ctaphidDispatch
  split
  · exact handleInit_named named message
  · exact ⟨named, .refl uhid⟩
  · exact named_of_channels named (handleCbor_channels message)
  · exact ⟨named, .refl uhid⟩
  · exact ⟨named, .refl uhid⟩
  · exact ⟨named, .refl uhid⟩
  · exact ⟨named, .refl uhid⟩

/-- The handlers dispatch nothing themselves and leave the buffers alone. -/
theorem ctaphidDispatch_silent (message : Message) :
    (ctaphidDispatch engine env message uhid).1.dispatched = [] ∧
    (ctaphidDispatch engine env message uhid).1.copies = [] := by
  unfold ctaphidDispatch
  split
  · unfold handleInit
    split
    · exact ⟨rfl, rfl⟩
    · split
      · exact ⟨rfl, rfl⟩
      · exact ⟨rfl, rfl⟩
  · exact ⟨rfl, rfl⟩
  · unfold handleCbor
    split
    · exact ⟨rfl, rfl⟩
    · exact ⟨rfl, rfl⟩
  · exact ⟨rfl, rfl⟩
  · exact ⟨rfl, rfl⟩
  · exact ⟨rfl, rfl⟩
  · exact ⟨rfl, rfl⟩

/-- A step that leaves the table sound and copies nothing past the end of a message. -/
structure Fine (result : Outcome × State κ) : Prop where
  sound : Sound result.2
  within : ∀ copy ∈ result.1.copies, copy.Within

theorem Fine.quiet (sound : Sound uhid) (sent : List Report) : Fine (.quiet sent, uhid) :=
  ⟨sound, fun _ inside => absurd inside List.not_mem_nil⟩

theorem Fine.copying {result : Outcome × State κ} (fine : Fine result) {copy : Copy} (within : copy.Within) :
    Fine (result.1.copying copy, result.2) := by
  refine ⟨fine.sound, fun other inside => ?_⟩
  obtain rfl | inside := List.mem_cons.mp inside
  · exact within
  · exact fine.within other inside

theorem Fine.evicting {result : Outcome × State κ} (fine : Fine result) (evicted : Bool) :
    Fine (result.1.evicting evicted, result.2) := ⟨fine.sound, fine.within⟩

theorem Sound.put (sound : Sound uhid) {slot : Slot} {channel : Channel} (inUse : channel.inUse = (uhid.channels slot).inUse)
    (cid : channel.cid = (uhid.channels slot).cid) (fine : channel.Sound) : Sound (uhid.put slot channel) := by
  refine ⟨sound.named.put inUse cid, fun other => ?_⟩
  by_cases here : other = slot
  · subst here
    rw [uhid.put_here]
    exact fine
  · rw [uhid.put_there channel here]
    exact sound.each other

theorem deliver_fine (sound : Sound uhid) (message : Message) : Fine (deliver engine env message uhid) := by
  obtain ⟨named, kept⟩ : Named (ctaphidDispatch engine env message uhid).2 ∧
    Kept uhid (ctaphidDispatch engine env message uhid).2 :=
    ctaphidDispatch_named sound.named message
  refine ⟨⟨named, fun slot => ?_⟩, ?_⟩
  · obtain same | fine := kept slot
    · change ((ctaphidDispatch engine env message uhid).2.channels slot).Sound
      rw [same]
      exact sound.each slot
    · exact fine
  · change ∀ copy ∈ (ctaphidDispatch engine env message uhid).1.copies, copy.Within
    rw [(ctaphidDispatch_silent _).2]
    exact fun _ inside => absurd inside List.not_mem_nil

/-- A channel whose message is complete is not sound itself, but it is left behind with
nothing under way. -/
theorem finish_fine (sound : Sound uhid) {slot : Slot} {channel : Channel}
    (inUse : channel.inUse = (uhid.channels slot).inUse)
    (cid : channel.cid = (uhid.channels slot).cid) (going : channel.received < channel.totalLen → channel.Sound) :
    Fine (finish engine env slot (uhid.put slot channel)) := by
  unfold finish
  dsimp only
  rw [uhid.put_here]
  split
  next complete =>
    generalize ({ cid := channel.cid, cmd := channel.cmd, data := channel.msgBuf.bytes.take channel.totalLen.toNat } :
      Message) = message
    obtain ⟨named, kept⟩ : Named (ctaphidDispatch engine env message (uhid.put slot channel)).2 ∧
        Kept (uhid.put slot channel) (ctaphidDispatch engine env message (uhid.put slot channel)).2 :=
      ctaphidDispatch_named (sound.named.put inUse cid) message
    refine ⟨⟨named.put rfl rfl, fun other => ?_⟩, ?_⟩
    · by_cases here : other = slot
      · subst here
        rw [State.put_here]
        exact Channel.sound_reset _
      · rw [State.put_there _ _ here]
        obtain same | fine := kept other
        · change ((ctaphidDispatch engine env message (uhid.put slot channel)).2.channels other).Sound
          rw [same, uhid.put_there channel here]
          exact sound.each other
        · exact fine
    · change ∀ copy ∈ (ctaphidDispatch engine env message (uhid.put slot channel)).1.copies, copy.Within
      rw [(ctaphidDispatch_silent _).2]
      exact fun _ inside => absurd inside List.not_mem_nil
  next incomplete => exact .quiet (sound.put inUse cid (going (UInt16.not_le.mp incomplete))) []

theorem firstChunk_toNat (report : Report) : (UInt16.ofNat (firstChunk report)).toNat = firstChunk report := by
  rw [UInt16.toNat_ofNat']
  unfold firstChunk initDataSize
  omega

theorem Channel.begun_sound (channel : Channel) (cmd : UInt8) {report : Report} (short : report.totalLen.toNat ≤ maxMsgSize)
    (going : (channel.begun env cmd report).received < (channel.begun env cmd report).totalLen) :
    (channel.begun env cmd report).Sound := by
  refine .inr ⟨going, short, ?_⟩
  have less := UInt16.lt_iff_toNat_lt.mp going
  change (UInt16.ofNat (firstChunk report)).toNat < report.totalLen.toNat at less
  change (UInt16.ofNat (firstChunk report)).toNat = initDataSize + contDataSize * 0
  rw [firstChunk_toNat] at less ⊢
  unfold firstChunk at less ⊢
  omega

theorem beginMessage_fine (sound : Sound uhid) (slot : Slot) (cmd : UInt8) {report : Report}
    (short : report.totalLen.toNat ≤ maxMsgSize) : Fine (beginMessage engine env slot cmd report uhid) := by
  have finished : Fine (finish engine env slot (uhid.put slot ((uhid.channels slot).begun env cmd report))) :=
    finish_fine sound rfl rfl (Channel.begun_sound _ cmd short)
  refine finished.copying ?_
  change 0 + firstChunk report ≤ report.totalLen.toNat
  unfold firstChunk
  omega

theorem initReport_fine (sound : Sound uhid) (report : Report) : Fine (initReport engine env report uhid) := by
  unfold initReport
  dsimp only
  split
  · exact deliver_fine sound _
  split
  · exact .quiet sound _
  next short =>
    have short : report.totalLen.toNat ≤ maxMsgSize := Nat.le_of_not_gt short
    split
    · split
      · exact .quiet sound _
      · have allocated : Named (allocChannel env uhid).2.2 ∧ Kept uhid (allocChannel env uhid).2.2 :=
          allocChannel_named sound.named
        have after : Sound (allocChannel env uhid).2.2 := by
          refine ⟨allocated.1, fun slot => ?_⟩
          obtain same | fine := allocated.2 slot
          · rw [same]
            exact sound.each slot
          · exact fine
        split
        next made =>
          rw [made] at after
          exact (Fine.quiet after _).evicting _
        next made =>
          rw [made] at after
          exact (beginMessage_fine after _ _ short).evicting _
    · split
      · exact .quiet sound _
      · exact beginMessage_fine sound _ _ short

/-- What is left of a message that is under way. -/
theorem Channel.Sound.remaining {channel : Channel} (sound : channel.Sound) (busy : channel.totalLen ≠ 0) :
    channel.nextChunk = min (channel.totalLen.toNat - channel.received.toNat) contDataSize ∧
      channel.received.toNat < channel.totalLen.toNat ∧ channel.totalLen.toNat ≤ maxMsgSize ∧
      channel.received.toNat = initDataSize + contDataSize * channel.nextSeq.toNat := by
  obtain ⟨idle, -⟩ | ⟨less, short, progress⟩ := sound
  · exact absurd idle busy
  · have less := UInt16.lt_iff_toNat_lt.mp less
    refine ⟨?_, less, short, progress⟩
    unfold Channel.nextChunk
    rw [UInt16.toNat_sub_of_le _ _ (UInt16.le_iff_toNat_le.mpr (Nat.le_of_lt less))]

theorem Channel.continued_received {channel : Channel} (sound : channel.Sound) (busy : channel.totalLen ≠ 0)
    (report : Report) :
    (channel.continued env report).received.toNat = channel.received.toNat + channel.nextChunk := by
  obtain ⟨chunk, less, short, -⟩ := sound.remaining busy
  change (channel.received + UInt16.ofNat channel.nextChunk).toNat = _
  rw [UInt16.toNat_add, UInt16.toNat_ofNat', chunk]
  unfold maxMsgSize at short
  unfold contDataSize
  omega

theorem Channel.continued_sound {channel : Channel} (sound : channel.Sound) (busy : channel.totalLen ≠ 0) {report : Report}
    (going : (channel.continued env report).received < (channel.continued env report).totalLen) :
    (channel.continued env report).Sound := by
  obtain ⟨chunk, less, short, progress⟩ := sound.remaining busy
  have received : (channel.continued env report).received.toNat = channel.received.toNat + channel.nextChunk :=
    Channel.continued_received sound busy report
  refine .inr ⟨going, short, ?_⟩
  have going := UInt16.lt_iff_toNat_lt.mp going
  rw [received] at going ⊢
  change channel.received.toNat + channel.nextChunk < channel.totalLen.toNat at going
  change channel.received.toNat + channel.nextChunk = initDataSize + contDataSize * (channel.nextSeq + 1).toNat
  rw [UInt8.toNat_add, chunk] at *
  unfold maxMsgSize initDataSize contDataSize at *
  have one : (1 : UInt8).toNat = 1 := rfl
  omega

theorem continueMessage_fine (sound : Sound uhid) (slot : Slot) (busy : (uhid.channels slot).totalLen ≠ 0) (report : Report) :
    Fine (continueMessage engine env slot report uhid) := by
  obtain ⟨chunk, less, short, progress⟩ := (sound.each slot).remaining busy
  unfold continueMessage
  dsimp only
  split
  · have idle : Sound (uhid.put slot ((uhid.channels slot).active env).reset) := sound.put rfl rfl (Channel.sound_reset _)
    exact .quiet idle _
  · have finished : Fine (finish engine env slot (uhid.put slot ((uhid.channels slot).continued env report))) :=
      finish_fine sound rfl rfl (Channel.continued_sound (sound.each slot) busy)
    refine finished.copying ?_
    change (uhid.channels slot).received.toNat + (uhid.channels slot).nextChunk ≤ (uhid.channels slot).totalLen.toNat
    rw [chunk]
    omega

theorem contReport_fine (sound : Sound uhid) (report : Report) : Fine (contReport engine env report uhid) := by
  unfold contReport
  split
  · exact .quiet sound _
  next slot found =>
    dsimp only
    split
    · exact .quiet sound _
    next busy =>
      split
      · have idle : Sound (uhid.put slot (uhid.channels slot).reset) := sound.put rfl rfl (Channel.sound_reset _)
        exact .quiet idle _
      · exact continueMessage_fine sound slot busy report

theorem processHidReport_fine (sound : Sound uhid) (report : Report) : Fine (processHidReport engine env report uhid) := by
  unfold processHidReport
  split
  · exact initReport_fine sound report
  · exact contReport_fine sound report

theorem sweep_fine (sound : Sound uhid) : Fine (sweep env uhid) := by
  have names (slot : Slot) : ((sweep env uhid).2.channels slot).inUse = (uhid.channels slot).inUse ∧
      ((sweep env uhid).2.channels slot).cid = (uhid.channels slot).cid := by
    unfold sweep
    dsimp only
    split
    · exact ⟨rfl, rfl⟩
    · exact ⟨rfl, rfl⟩
  refine ⟨⟨⟨fun first second => ?_, fun slot => ?_⟩, fun slot => ?_⟩, fun _ inside => absurd inside List.not_mem_nil⟩
  · rw [(names first).1, (names first).2, (names second).1, (names second).2]
    exact sound.named.apart first second
  · rw [(names slot).1, (names slot).2]
    exact sound.named.proper slot
  · unfold sweep
    dsimp only
    split
    · exact Channel.sound_reset _
    · exact sound.each slot

theorem step_fine (sound : Sound uhid) (input : Input) : Fine (step engine input uhid) := by
  cases input with
  | output data env =>
    unfold step
    dsimp only
    split
    · exact .quiet sound []
    · exact processHidReport_fine sound _
  | sweep env => exact sweep_fine sound

theorem sound_fresh (ctx : κ) : Sound (State.fresh ctx) := by
  refine ⟨⟨fun first second used => ?_, fun slot used => ?_⟩, fun _ => Channel.sound_zero⟩
  · cases used
  · cases used

/-- After every report and every sweep the table is sound, and no copy has gone past the
end of its message. -/
theorem channels_stay_sound (engine : Engine κ) (ctx : κ) (inputs : List Input) :
    Throughout ((transport engine).run (.fresh ctx) inputs) fun _ event =>
      Sound event.after ∧ ∀ copy ∈ event.outcome.copies, copy.Within := by
  have kept (state : State κ) (input : Input) (sound : Sound state) : Fine (step engine input state) := step_fine sound input
  refine Machine.run_every (fun _ uhid => Sound uhid) ?_ ?_ (sound_fresh ctx) inputs
  · exact fun _ state input sound => (kept state input sound).sound
  · exact fun _ state input sound => ⟨(kept state input sound).sound, (kept state input sound).within⟩

end Hiya.Uhid
