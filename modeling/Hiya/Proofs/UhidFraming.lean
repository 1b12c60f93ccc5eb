import Hiya.Proofs.UhidChannels

/-! Messages that are cut into reports and put together again. The first packet holds 57
bytes of a message and every other one 59; the sequence number tells which they are. -/

namespace Hiya.Uhid
open Library

namespace Report

theorem ofFront_bytes {front : Bytes} (short : front.length ≤ reportSize) :
    (ofFront front).bytes = front ++ List.replicate (reportSize - front.length) 0 := by
  unfold ofFront
  rw [Buf.bytes_ofBytes]
  unfold Blob.padded Blob.ofSlice
  dsimp only
  rw [List.take_of_length_le short]

variable {cid : UInt32} {byte : UInt8} {rest : Bytes}

/-- A packet as a whole: the name of its channel, a byte and what belongs to it. -/
theorem packet_bytes (short : 5 + rest.length ≤ reportSize) : ∃ padding,
    (ofFront (beBytes 4 cid.toNat ++ (byte :: rest))).bytes = beBytes 4 cid.toNat ++ (byte :: (rest ++ padding)) := by
  refine ⟨List.replicate (reportSize - (beBytes 4 cid.toNat ++ (byte :: rest)).length) 0, ?_⟩
  rw [ofFront_bytes, List.append_assoc, List.cons_append]
  rw [List.length_append, beBytes_length, List.length_cons]
  omega

theorem packet_cid (short : 5 + rest.length ≤ reportSize) : (ofFront (beBytes 4 cid.toNat ++ (byte :: rest))).cid = cid := by
  obtain ⟨padding, bytes⟩ := packet_bytes short
  have small : cid.toNat < 256 ^ 4 := cid.toNat_lt
  unfold Report.cid
  rw [bytes, List.take_left' (beBytes_length 4 cid.toNat), beNat_beBytes, Nat.mod_eq_of_lt small, UInt32.ofNat_toNat]

theorem packet_byte4 (short : 5 + rest.length ≤ reportSize) : (ofFront (beBytes 4 cid.toNat ++ (byte :: rest))).byte4 =
    byte := by
  obtain ⟨padding, bytes⟩ := packet_bytes short
  unfold byte4
  rw [bytes, List.getD_eq_getElem?_getD, List.getElem?_append_right (Nat.le_of_eq (beBytes_length 4 _)), beBytes_length]
  rfl

theorem packet_contData (short : 5 + rest.length ≤ reportSize) :
    ∃ padding, (ofFront (beBytes 4 cid.toNat ++ (byte :: rest))).contData = rest ++ padding := by
  obtain ⟨padding, bytes⟩ := packet_bytes short
  refine ⟨padding, ?_⟩
  unfold contData
  rw [bytes, ← List.singleton_append, ← List.append_assoc, List.drop_left']
  rw [List.length_append, beBytes_length]
  rfl

end Report

theorem contPacket_cid (cid : UInt32) (seq : UInt8) {chunk : Bytes} (short : chunk.length ≤ contDataSize) :
    (contPacket cid seq chunk).cid = cid := Report.packet_cid (Nat.add_le_add_left short 5)

theorem contPacket_byte4 (cid : UInt32) (seq : UInt8) {chunk : Bytes} (short : chunk.length ≤ contDataSize) :
    (contPacket cid seq chunk).byte4 = seq := Report.packet_byte4 (Nat.add_le_add_left short 5)

theorem contPacket_data (cid : UInt32) (seq : UInt8) {chunk : Bytes} (short : chunk.length ≤ contDataSize) :
    (contPacket cid seq chunk).contData.take chunk.length = chunk := by
  obtain ⟨padding, data⟩ := Report.packet_contData (Nat.add_le_add_left short 5)
  unfold contPacket
  rw [data, List.take_left]

section
variable (cid : UInt32) (cmd : UInt8) {data : Bytes}

theorem initPacket_short : 5 + (beBytes 2 data.length ++ data.take initDataSize).length ≤ reportSize := by
  rw [List.length_append, beBytes_length, List.length_take]
  unfold initDataSize reportSize
  omega

theorem initPacket_cid : (initPacket cid cmd data).cid = cid := Report.packet_cid initPacket_short

theorem initPacket_byte4 : (initPacket cid cmd data).byte4 = cmd ||| initPacketFlag := Report.packet_byte4 initPacket_short

theorem initPacket_contData :
    ∃ padding, (initPacket cid cmd data).contData = beBytes 2 data.length ++ (data.take initDataSize ++ padding) := by
  have whole : ∃ padding, (initPacket cid cmd data).contData = (beBytes 2 data.length ++ data.take initDataSize) ++ padding :=
    Report.packet_contData initPacket_short
  obtain ⟨padding, bytes⟩ := whole
  exact ⟨padding, by rw [bytes, List.append_assoc]⟩

theorem initPacket_totalLen (small : data.length < 2 ^ 16) : (initPacket cid cmd data).totalLen.toNat = data.length := by
  obtain ⟨padding, bytes⟩ := initPacket_contData cid cmd
  have total : (initPacket cid cmd data).totalLen = UInt16.ofNat (beNat ((initPacket cid cmd data).contData.take 2)) := rfl
  rw [total, bytes, List.take_left' (beBytes_length 2 _), beNat_beBytes, UInt16.toNat_ofNat']
  omega

theorem initPacket_firstChunk (small : data.length < 2 ^ 16) :
    firstChunk (initPacket cid cmd data) = (data.take initDataSize).length := by
  unfold firstChunk
  rw [initPacket_totalLen cid cmd small, List.length_take, Nat.min_comm]

theorem initPacket_data (small : data.length < 2 ^ 16) :
    (initPacket cid cmd data).initData.take (firstChunk (initPacket cid cmd data)) = data.take initDataSize := by
  obtain ⟨padding, bytes⟩ := initPacket_contData cid cmd
  have behind : (initPacket cid cmd data).initData = (initPacket cid cmd data).contData.drop 2 := by
    unfold Report.initData Report.contData
    rw [List.drop_drop]
  rw [behind, bytes, List.drop_left' (beBytes_length 2 _), initPacket_firstChunk cid cmd small, List.take_left]

end

private theorem flag_table : ∀ byte : Fin 256, (UInt8.ofNat byte.val ||| 0x80) &&& 0x80 ≠ 0 ∧
    (UInt8.ofNat byte.val ||| 0x80) &&& 0x7F = UInt8.ofNat byte.val &&& 0x7F := by decide +kernel

theorem flag_set (byte : UInt8) : (byte ||| initPacketFlag) &&& initPacketFlag ≠ 0 ∧
    (byte ||| initPacketFlag) &&& 0x7F = byte &&& 0x7F := by
  have known := flag_table ⟨byte.toNat, byte.toNat_lt⟩
  rwa [UInt8.ofNat_toNat] at known

private theorem sequence_table : ∀ seq : Fin 128, UInt8.ofNat seq.val &&& 0x80 = 0 := by decide

theorem flag_clear {seq : Nat} (small : seq < 128) : UInt8.ofNat seq &&& initPacketFlag = 0 := sequence_table ⟨seq, small⟩

section
variable {κ : Type} {engine : Engine κ} {env : Env} {uhid : State κ}

/-- The reports one after the other, each with what it finds around it. -/
def feed (envs : Nat → Env) : Nat → List Report → List Input
  | _, [] => []
  | index, report :: rest => .output report.bytes (envs index) :: feed envs (index + 1) rest

/-- The messages dispatched in a run. -/
def messages (events : List (Event (State κ) Input Outcome)) : List Message :=
    events.flatMap fun event => event.outcome.dispatched

theorem outputReport_bytes (report : Report) : outputReport report.bytes = some report := by
  unfold outputReport
  rw [dif_pos report.length_bytes]
  rfl

theorem messages_cons (input : Input) (rest : List Input) :
    messages ((transport engine).run uhid (input :: rest)) =
      (step engine input uhid).1.dispatched ++ messages ((transport engine).run (step engine input uhid).2 rest) := rfl

theorem messages_feed (envs : Nat → Env) (index : Nat) (report : Report) (rest : List Report) :
    messages ((transport engine).run uhid (feed envs index (report :: rest))) =
      (processHidReport engine (envs index) report uhid).1.dispatched ++
        messages ((transport engine).run (processHidReport engine (envs index) report uhid).2
        (feed envs (index + 1) rest)) := by
  have same : step engine (.output report.bytes (envs index)) uhid = processHidReport engine (envs index) report uhid := by
    unfold step
    dsimp only
    rw [outputReport_bytes]
  rw [feed, messages_cons, same]

theorem deliver_dispatched (message : Message) : (deliver engine env message uhid).1.dispatched = [message] := by
  change message :: (ctaphidDispatch engine env message uhid).1.dispatched = [message]
  rw [(ctaphidDispatch_silent message).1]

structure Holds (message : Message) (count : Nat) (channel : Channel) : Prop where
  cid : channel.cid = message.cid
  cmd : channel.cmd = message.cmd
  total : channel.totalLen.toNat = message.data.length
  received : channel.received.toNat = count
  bytes : channel.msgBuf.bytes = message.data.take count

theorem finish_complete {slot : Slot} {message : Message} {count : Nat} (holds : Holds message count (uhid.channels slot))
    (complete : message.data.length ≤ count) : (finish engine env slot uhid).1.dispatched = [message] := by
  have full : (uhid.channels slot).received ≥ (uhid.channels slot).totalLen := by
    apply UInt16.le_iff_toNat_le.mpr
    rw [holds.total, holds.received]
    exact complete
  have whole : (uhid.channels slot).msgBuf.bytes.take (uhid.channels slot).totalLen.toNat = message.data := by
    rw [holds.bytes, holds.total, List.take_of_length_le complete, List.take_length]
  unfold finish
  dsimp only
  rw [if_pos full, whole, holds.cid, holds.cmd]
  exact deliver_dispatched message

theorem finish_incomplete {slot : Slot} {message : Message} {count : Nat} (holds : Holds message count (uhid.channels slot))
    (incomplete : count < message.data.length) : finish engine env slot uhid = (.quiet [], uhid) := by
  have unfinished : ¬ (uhid.channels slot).received ≥ (uhid.channels slot).totalLen := by
    intro full
    have full := UInt16.le_iff_toNat_le.mp full
    rw [holds.total, holds.received] at full
    omega
  unfold finish
  dsimp only
  rw [if_neg unfinished]

structure Receiving (message : Message) (slot : Slot) (seq : Nat) (uhid : State κ) : Prop where
  found : uhid.findChannel message.cid = some slot
  expects : (uhid.channels slot).nextSeq = UInt8.ofNat seq
  holds : Holds message (initDataSize + contDataSize * seq) (uhid.channels slot)
  incomplete : initDataSize + contDataSize * seq < message.data.length

def nextBytes (message : Message) (seq : Nat) : Bytes :=
  (message.data.drop (initDataSize + contDataSize * seq)).take contDataSize

theorem take_nextBytes (message : Message) (seq : Nat) :
    message.data.take (initDataSize + contDataSize * seq) ++ nextBytes message seq =
      message.data.take (initDataSize + contDataSize * seq + (nextBytes message seq).length) := by
  unfold nextBytes
  generalize initDataSize + contDataSize * seq = count
  have cut := List.prefix_iff_eq_take.mp (List.take_prefix contDataSize (message.data.drop count))
  rw [List.take_add, ← cut]

theorem nextBytes_short (message : Message) (seq : Nat) : (nextBytes message seq).length ≤ contDataSize := by
  unfold nextBytes
  rw [List.length_take]
  omega

section
variable {message : Message} {slot : Slot} {seq : Nat}

theorem Receiving.nextChunk (receiving : Receiving message slot seq uhid) :
    (uhid.channels slot).nextChunk = (nextBytes message seq).length := by
  have incomplete := receiving.incomplete
  have before : (uhid.channels slot).received.toNat ≤ (uhid.channels slot).totalLen.toNat := by
    rw [receiving.holds.total, receiving.holds.received]
    omega
  unfold Channel.nextChunk nextBytes
  rw [UInt16.toNat_sub_of_le _ _ (UInt16.le_iff_toNat_le.mpr before), receiving.holds.total, receiving.holds.received,
    List.length_take, List.length_drop, Nat.min_comm]

theorem Receiving.few (receiving : Receiving message slot seq uhid) (short : message.data.length ≤ maxMsgSize) :
    seq < 128 := by
  have incomplete := receiving.incomplete
  unfold maxMsgSize at short
  unfold initDataSize contDataSize at incomplete
  omega

theorem Receiving.continued (receiving : Receiving message slot seq uhid) (short : message.data.length ≤ maxMsgSize) :
    Holds message (initDataSize + contDataSize * seq + (nextBytes message seq).length)
      ((uhid.channels slot).continued env (contPacket message.cid (UInt8.ofNat seq) (nextBytes message seq))) where
  cid := receiving.holds.cid
  cmd := receiving.holds.cmd
  total := receiving.holds.total
  received := by
    change ((uhid.channels slot).received + UInt16.ofNat (uhid.channels slot).nextChunk).toNat = _
    rw [receiving.nextChunk, UInt16.toNat_add, UInt16.toNat_ofNat', receiving.holds.received]
    have few := receiving.few short
    have chunk := nextBytes_short message seq
    unfold initDataSize contDataSize at *
    omega
  bytes := by
    change ((uhid.channels slot).msgBuf.bytes.take (uhid.channels slot).received.toNat ++
      (contPacket message.cid (UInt8.ofNat seq) (nextBytes message seq)).contData.take
        (uhid.channels slot).nextChunk).take maxMsgSize = _
    rw [receiving.nextChunk, contPacket_data _ _ (nextBytes_short message seq), receiving.holds.received,
      receiving.holds.bytes,
      List.take_take, Nat.min_self, take_nextBytes]
    refine List.take_of_length_le (Nat.le_trans ?_ short)
    rw [List.length_take]
    exact Nat.min_le_right _ _

def nextPacket (message : Message) (seq : Nat) : Report := contPacket message.cid (UInt8.ofNat seq) (nextBytes message seq)

theorem Receiving.processes (receiving : Receiving message slot seq uhid) (short : message.data.length ≤ maxMsgSize) :
    processHidReport engine env (nextPacket message seq) uhid =
    continueMessage engine env slot (nextPacket message seq) uhid := by
  have few := nextBytes_short message seq
  have byte : (nextPacket message seq).byte4 = UInt8.ofNat seq := contPacket_byte4 _ _ few
  have name : (nextPacket message seq).cid = message.cid := contPacket_cid _ _ few
  have busy : (uhid.channels slot).totalLen ≠ 0 := by
    intro idle
    have total := receiving.holds.total
    have incomplete := receiving.incomplete
    rw [idle] at total
    change 0 = _ at total
    omega
  unfold processHidReport
  rw [byte, if_neg (not_not.mpr (flag_clear (receiving.few short)))]
  unfold contReport
  rw [name, receiving.found]
  dsimp only
  rw [if_neg busy, byte, receiving.expects, if_neg (not_not.mpr rfl)]

theorem Receiving.finishes (receiving : Receiving message slot seq uhid) (short : message.data.length ≤ maxMsgSize) :
    (processHidReport engine env (nextPacket message seq) uhid).1.dispatched =
        (finish engine env slot (uhid.put slot ((uhid.channels slot).continued env (nextPacket message seq)))).1.dispatched ∧
      (processHidReport engine env (nextPacket message seq) uhid).2 =
        (finish engine env slot (uhid.put slot ((uhid.channels slot).continued env (nextPacket message seq)))).2 := by
  have room : ¬ (uhid.channels slot).received.toNat + (uhid.channels slot).nextChunk > maxMsgSize := by
    have incomplete := receiving.incomplete
    rw [receiving.nextChunk, receiving.holds.received]
    unfold nextBytes
    rw [List.length_take, List.length_drop]
    omega
  rw [receiving.processes short]
  unfold continueMessage
  dsimp only
  rw [if_neg room]
  exact ⟨rfl, rfl⟩

theorem contPackets_nil (cid : UInt32) (fuel : Nat) (seq : UInt8) : contPackets cid fuel seq [] = [] := by
  cases fuel with
  | zero => rfl
  | succ fuel => rfl

theorem Receiving.held (receiving : Receiving message slot seq uhid) (short : message.data.length ≤ maxMsgSize) :
    Holds message (initDataSize + contDataSize * seq + (nextBytes message seq).length)
      ((uhid.put slot ((uhid.channels slot).continued env (nextPacket message seq))).channels slot) := by
  rw [uhid.put_here]
  exact receiving.continued short

theorem Receiving.advances (receiving : Receiving message slot seq uhid) (short : message.data.length ≤ maxMsgSize)
    (incomplete : initDataSize + contDataSize * (seq + 1) < message.data.length) :
    Receiving message slot (seq + 1) (uhid.put slot ((uhid.channels slot).continued env (nextPacket message seq))) where
  found := by
    refine Eq.trans (State.findChannel_put ?_ ?_ message.cid) receiving.found
    · rfl
    · rfl
  expects := by
    rw [uhid.put_here, UInt8.ofNat_add]
    change (uhid.channels slot).nextSeq + 1 = _
    rw [receiving.expects]
    rfl
  holds := by
    have full : (nextBytes message seq).length = contDataSize := by
      unfold nextBytes
      rw [List.length_take, List.length_drop, Nat.mul_succ] at *
      omega
    have held : Holds message (initDataSize + contDataSize * seq + (nextBytes message seq).length)
      ((uhid.put slot ((uhid.channels slot).continued env (nextPacket message seq))).channels slot) := receiving.held short
    rwa [full, Nat.add_assoc, ← Nat.mul_succ] at held
  incomplete := incomplete

/-- The packets that are still to come complete the message. -/
theorem Receiving.completes (receiving : Receiving message slot seq uhid) (short : message.data.length ≤ maxMsgSize)
    (envs : Nat → Env) (index : Nat) {fuel : Nat}
    (enough : (message.data.drop (initDataSize + contDataSize * seq)).length ≤ fuel) :
    messages ((transport engine).run uhid (feed envs index
      (contPackets message.cid fuel (UInt8.ofNat seq) (message.data.drop (initDataSize + contDataSize * seq))))) =
      [message] := by
  induction fuel generalizing seq uhid index with
  | zero =>
    have incomplete := receiving.incomplete
    rw [List.length_drop] at enough
    omega
  | succ fuel ih =>
    have incomplete := receiving.incomplete
    have more : message.data.drop (initDataSize + contDataSize * seq) ≠ [] := by
      intro none
      have length := congrArg List.length none
      rw [List.length_drop, List.length_nil] at length
      omega
    have next : UInt8.ofNat seq + 1 = UInt8.ofNat (seq + 1) := by rw [UInt8.ofNat_add]; rfl
    have later : (message.data.drop (initDataSize + contDataSize * seq)).drop contDataSize =
        message.data.drop (initDataSize + contDataSize * (seq + 1)) := by
      rw [List.drop_drop, Nat.mul_succ, Nat.add_assoc]
    obtain ⟨dispatched, after⟩ : (processHidReport engine (envs index) (nextPacket message seq) uhid).1.dispatched = _ ∧
      (processHidReport engine (envs index) (nextPacket message seq) uhid).2 = _ := receiving.finishes short
    rw [contPackets, if_neg more, next, later, messages_feed]
    change (processHidReport engine (envs index) (nextPacket message seq) uhid).1.dispatched ++
      messages ((transport engine).run
      (processHidReport engine (envs index) (nextPacket message seq) uhid).2 _) = _
    rw [dispatched, after]
    by_cases last : message.data.length ≤ initDataSize + contDataSize * (seq + 1)
    · have whole : message.data.length ≤ initDataSize + contDataSize * seq + (nextBytes message seq).length := by
        unfold nextBytes
        rw [List.length_take, List.length_drop]
        rw [Nat.mul_succ] at last
        omega
      rw [finish_complete (receiving.held short) whole, List.drop_eq_nil_of_le last, contPackets_nil]
      rfl
    · have going : Receiving message slot (seq + 1)
          (uhid.put slot ((uhid.channels slot).continued (envs index) (nextPacket message seq))) :=
        receiving.advances short (Nat.lt_of_not_le last)
      rw [finish_incomplete going.holds going.incomplete]
      refine ih going (index + 1) ?_
      rw [List.length_drop] at enough ⊢
      unfold contDataSize at *
      omega

end

def sentMessage (cid : UInt32) (cmd : UInt8) (data : Bytes) : Message := { cid, cmd := cmd &&& 0x7F, data }

/-- The first packet is all of the message, or its start. -/
theorem begun_holds (channel : Channel) {cid : UInt32} (named : channel.cid = cid) (cmd : UInt8) {data : Bytes}
    (short : data.length ≤ maxMsgSize) :
    Holds (sentMessage cid cmd data) (data.take initDataSize).length (channel.begun env (cmd &&& 0x7F)
    (initPacket cid cmd data)) := by
  have small : data.length < 2 ^ 16 := Nat.lt_of_le_of_lt short (by decide)
  refine ⟨named, rfl, initPacket_totalLen cid cmd small, ?_, ?_⟩
  · change (UInt16.ofNat (firstChunk (initPacket cid cmd data))).toNat = _
    rw [firstChunk_toNat, initPacket_firstChunk cid cmd small]
  · change ([] ++ (initPacket cid cmd data).initData.take (firstChunk (initPacket cid cmd data))).take maxMsgSize = _
    rw [List.nil_append, initPacket_data cid cmd small]
    have cut := List.prefix_iff_eq_take.mp (List.take_prefix initDataSize data)
    have few : (data.take initDataSize).length ≤ maxMsgSize := by
      rw [List.length_take]
      omega
    rw [List.take_of_length_le few]
    exact cut

/-- The packets of a message yield this message, with the low seven bits of its command. -/
theorem packets_dispatch (sound : Sound uhid) {cid : UInt32} (allocated : (uhid.findChannel cid).isSome = true) (cmd : UInt8)
    {data : Bytes} (short : data.length ≤ maxMsgSize) (envs : Nat → Env) :
    messages ((transport engine).run uhid (feed envs 0 (packets cid cmd data))) = [sentMessage cid cmd data] := by
  obtain ⟨slot, found⟩ := Option.isSome_iff_exists.mp allocated
  obtain ⟨inUse, named⟩ := State.findChannel_some found
  have proper : cid ≠ broadcastCid := named ▸ (sound.named.proper slot inUse).2
  have small : data.length < 2 ^ 16 := Nat.lt_of_le_of_lt short (by decide)
  have total := initPacket_totalLen cid cmd small
  have holds : Holds (sentMessage cid cmd data) (data.take initDataSize).length
      ((uhid.put slot ((uhid.channels slot).begun (envs 0) (cmd &&& 0x7F) (initPacket cid cmd data))).channels slot) := by
    rw [uhid.put_here]
    exact begun_holds _ named cmd short
  have first : processHidReport engine (envs 0) (initPacket cid cmd data) uhid =
      initReport engine (envs 0) (initPacket cid cmd data) uhid := by
    unfold processHidReport
    rw [initPacket_byte4, if_pos (flag_set cmd).1]
  rw [packets, messages_feed, first]
  unfold initReport
  dsimp only
  rw [initPacket_cid, initPacket_byte4, (flag_set cmd).2, total]
  by_cases single : data.length ≤ initDataSize
  · have nothing : feed envs (0 + 1) (contPackets cid data.length 0 (data.drop initDataSize)) = [] := by
      rw [List.drop_eq_nil_of_le single, contPackets_nil]
      rfl
    have all : (initPacket cid cmd data).initData.take data.length = data := by
      have chunk := initPacket_data cid cmd small
      rwa [initPacket_firstChunk cid cmd small, List.take_of_length_le single] at chunk
    rw [nothing]
    by_cases init : cmd &&& 0x7F = Command.init.code ∧ data.length ≤ initDataSize
    · rw [if_pos init, all, deliver_dispatched]
      rfl
    · rw [if_neg init, if_neg (Nat.not_lt.mpr short), if_neg proper, found]
      dsimp only
      have whole : (sentMessage cid cmd data).data.length ≤ (data.take initDataSize).length :=
        Nat.le_of_eq (congrArg List.length (List.take_of_length_le single).symm)
      change (finish engine (envs 0) slot _).1.dispatched ++ [] = _
      rw [finish_complete holds whole, List.append_nil]
  · have many : ¬ (cmd &&& 0x7F = Command.init.code ∧ data.length ≤ initDataSize) := fun both => single both.2
    have full : (data.take initDataSize).length = initDataSize + contDataSize * 0 := by
      rw [List.length_take]
      omega
    have receiving : Receiving (sentMessage cid cmd data) slot 0
        (uhid.put slot ((uhid.channels slot).begun (envs 0) (cmd &&& 0x7F) (initPacket cid cmd data))) := by
      refine ⟨Eq.trans (State.findChannel_put ?_ ?_ cid) found, ?_, full ▸ holds, Nat.lt_of_not_le single⟩
      · rfl
      · rfl
      · rw [uhid.put_here]
        rfl
    rw [if_neg many, if_neg (Nat.not_lt.mpr short), if_neg proper, found]
    dsimp only
    change (finish engine (envs 0) slot _).1.dispatched ++
      messages ((transport engine).run (finish engine (envs 0) slot _).2 _) = _
    rw [finish_incomplete receiving.holds receiving.incomplete]
    refine receiving.completes short envs (0 + 1) ?_
    rw [List.length_drop]
    exact Nat.sub_le _ _

/-- A state the transport can be in. -/
def reached (engine : Engine κ) (ctx : κ) (inputs : List Input) : State κ :=
  inputs.foldl (fun uhid input => (step engine input uhid).2) (.fresh ctx)

theorem sound_foldl (sound : Sound uhid) (inputs : List Input) :
    Sound (inputs.foldl (fun uhid input => (step engine input uhid).2) uhid) := by
  induction inputs generalizing uhid with
  | nil => exact sound
  | cons input rest ih => exact ih (step_fine sound input).sound

theorem sound_reached (engine : Engine κ) (ctx : κ) (inputs : List Input) : Sound (reached engine ctx inputs) :=
  sound_foldl (sound_fresh ctx) inputs

/-- The packets of a message to a channel in use are put together to one message, with
the same bytes and the low seven bits of its command. -/
theorem packets_reassemble (engine : Engine κ) (ctx : κ) (past : List Input) (cid : UInt32)
    (allocated : ((reached engine ctx past).findChannel cid).isSome = true) (cmd : UInt8) (data : Bytes)
    (short : data.length ≤ maxMsgSize) (envs : Nat → Env) :
    messages ((transport engine).run (reached engine ctx past) (feed envs 0 (packets cid cmd data))) =
      [{ cid, cmd := cmd &&& 0x7F, data }] :=
  packets_dispatch (sound_reached engine ctx past) allocated cmd short envs

end

/-- An authenticator that has nothing to say. -/
def mute : Engine Unit := fun _ _ _ => ({ status := 0, response := [] }, ())

/-- Surroundings in which the next channel gets a given name. -/
def calmly (cid : UInt32) : Env where
  now := 1
  allocatedAt := 1
  candidates _ := cid
  accepts _ := true

/-- A host that asks for a channel. -/
def asksChannel (cid : UInt32) : Input :=
    .output (initPacket broadcastCid Command.init.code [1, 2, 3, 4, 5, 6, 7, 8]).bytes (calmly cid)

theorem packets_reassemble_twice :
    messages ((transport mute).run (reached mute () [asksChannel 5])
        (feed (fun _ => calmly 6) 0 (packets 5 Command.ping.code (List.replicate 60 7)))) =
      [{ cid := 5, cmd := Command.ping.code, data := List.replicate 60 7 }] :=
  packets_reassemble mute () [asksChannel 5] 5 (by decide +kernel) Command.ping.code (List.replicate 60 7)
    (by decide +kernel) _

/-- A command with the top bit arrives without it. -/
theorem top_bit_is_lost :
    ((reached mute () [asksChannel 5]).findChannel 5).isSome = true ∧
      messages ((transport mute).run (reached mute () [asksChannel 5]) (feed (fun _ => calmly 6) 0 (packets 5 0x81 []))) ≠
        [{ cid := 5, cmd := 0x81, data := [] }] := by decide +kernel

end Hiya.Uhid
