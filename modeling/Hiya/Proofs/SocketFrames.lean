import Hiya.Proofs.ResponseItems
import Hiya.Fido2.Transport

/-! Whatever pieces the kernel cuts the streams into, the socket server feeds the
authenticator the frames its clients sent, one after another, and sends back the frames of
what came of them. -/

namespace Hiya.Fido2
open Library

section
open Library Cbor

section
variable (value : UInt64) (count : Nat) (data : Bytes)

theorem grows_encodeMap : Proc.Moves Grows (encodeMap count) := grows_encodeContainer _ _ _

theorem grows_encodeArray : Proc.Moves Grows (encodeArray count) := grows_encodeContainer _ _ _

theorem grows_encodeBstr : Proc.Moves Grows (encodeBstr data) := grows_encodeString _ _

theorem grows_encodeTstr : Proc.Moves Grows (encodeTstr data) := grows_encodeString _ _

theorem grows_encodeText (text : String) : Proc.Moves Grows (encodeText text) := grows_encodeTstr _

theorem grows_encodeBool (value : Bool) : Proc.Moves Grows (encodeBool value) :=
    .bind (grows_encHead _ _) fun _ => grows_encTrackItem

end

def Growing (items : List (Encode Unit)) : Prop := ∀ item ∈ items, Proc.Moves Grows item

attribute [local simp] grows_encodeUint grows_encodeNegint grows_encodeMap grows_encodeArray grows_encodeBstr grows_encodeTstr grows_encodeText
  grows_encodeBool

theorem Growing.append {first second : List (Encode Unit)} (front : Growing first) (back : Growing second) :
    Growing (first ++ second) :=
  List.forall_mem_append.mpr ⟨front, back⟩

theorem growing_registrationItems (authData der : Bytes) : Growing (registrationItems authData der) := by
  simp [Growing, registrationItems]

theorem growing_descriptorItems (credId : CredentialId) : Growing (descriptorItems credId) :=
    by simp [Growing, descriptorItems]

theorem growing_userItems (user : User) : Growing (userItems user) := by simp [Growing, userItems]

theorem growing_rpItems (rp : Buf 32 × CText maxRpIdLen) : Growing (rpItems rp) := by simp [Growing, rpItems]

theorem growing_keyAgreementItems (pubkey : Buf 65) : Growing (keyAgreementItems pubkey) :=
    by simp [Growing, keyAgreementItems]

theorem growing_tokenItems (token : Buf 32) : Growing (tokenItems token) := by simp [Growing, tokenItems]

theorem growing_getInfoItems (ctx : Ctx) : Growing (getInfoItems ctx) := by simp [Growing, getInfoItems]

theorem growing_assertionItems (credId : CredentialId) (authData der : Bytes) (user : Option User) (includeUser : Bool)
    (total : Nat) :
    Growing (assertionItems credId authData der user includeUser total) := by
  have many : Growing (if total > 1 then [encodeUint 0x05, encodeUint (UInt64.ofNat total)] else []) := by
    split
    · simp [Growing]
    · exact List.forall_mem_nil _
  have front : Growing ([encodeMap (3 + (if includeUser then 1 else 0) + (if total > 1 then 1 else 0)),
    encodeUint 0x01]) := by simp [Growing]
  have middle : Growing [encodeUint 0x02, encodeBstr authData, encodeUint 0x03, encodeBstr der] := by simp [Growing]
  refine .append (.append (.append (.append front (growing_descriptorItems credId)) middle) ?_) many
  split
  · exact .append (by simp [Growing]) (growing_userItems _)
  · exact List.forall_mem_nil _

theorem growing_cosePubkeyItems (pubkey : Buf 65) : Growing ((cosePubkeyItems pubkey).getD []) := by
  unfold cosePubkeyItems
  split
  · exact List.forall_mem_nil _
  · simp [Growing]

theorem growing_credentialItems (cred : Credential) : Growing (credentialItems cred) := by
  have single (key : UInt64) : Growing [encodeUint key] := by simp [Growing]
  exact .append (.append (.append (.append (.append (single _) (growing_userItems _)) (single _))
    (growing_descriptorItems _)) (single _))
    (growing_cosePubkeyItems _)

def Capped (capacity : Nat) (body : Command Reply) : Prop :=
  ∀ ctx reply, (body ctx).1 = .ok reply → reply.bytes.length ≤ capacity

namespace Capped
variable {α : Type} {capacity : Nat}

protected theorem fail (problem : Status) : Capped capacity (Proc.fail problem) := fun _ _ never => nomatch never

protected theorem empty : Capped capacity (pure (.data [])) := fun _ _ done => Except.ok.inj done ▸ Nat.zero_le _

protected theorem bind {first : Command α} {next : α → Command Reply} (tail : ∀ value, Capped capacity (next value)) :
    Capped capacity (first >>= next) := by
  intro ctx reply done
  rw [Proc.bind_apply] at done
  split at done
  · exact tail _ _ _ done
  · cases done

protected theorem need {value : Option α} {problem : Status} {next : α → Command Reply}
    (tail : ∀ found, value = some found → Capped capacity (next found)) :
    Capped capacity (Command.need value problem >>= next) := by
  cases value with
  | none => exact .fail problem
  | some found => exact tail found rfl

protected theorem ite {condition : Prop} [Decidable condition] {first second : Command Reply} (yes : Capped capacity first)
    (no : Capped capacity second) : Capped capacity (if condition then first else second) := by
  split
  · exact yes
  · exact no

theorem answers {items : List (Encode Unit)} (grow : Growing items) {bytes : Bytes}
    (made : encodeItems capacity items = some bytes)
    {reply : Reply} (is : reply.bytes = bytes) : Capped capacity (pure reply) := by
  intro _ _ done
  rw [← Except.ok.inj done, is]
  exact encodeItems_length grow made

theorem sends {items : List (Encode Unit)} (grow : Growing items) : Capped capacity (sendItems capacity items) :=
  .need fun _ made => answers grow made rfl

/-- A command that goes on after its answer is made. -/
theorem andThen {first : Command Reply} {last : Reply → Command Unit} (fits : Capped capacity first) :
    Capped capacity (first >>= fun reply => last reply >>= fun _ => pure reply) := by
  intro ctx reply done
  rw [Proc.bind_apply] at done
  split at done
  next value between made =>
    rw [Proc.bind_apply] at done
    split at done
    · exact fits ctx reply (by rw [made, ← Except.ok.inj done])
    · cases done
  · cases done

end Capped

section
variable {crypto : Crypto} {env : Env} {capacity : Nat}

theorem capped_makeCredential (body : Bytes) : Capped capacity (makeCredential crypto env body capacity) := by
  refine .bind fun parsed => .bind fun ctx => .ite (.fail _) (.bind fun uv => .bind fun drawn => .bind fun secret => ?_)
  have sends (credId : CredentialId) (signCount : UInt32) (authData : Bytes) (signature : Buf 64) :
      Capped capacity (sendRegistration credId signCount authData signature capacity) :=
    .need fun der _ => .need fun bytes made => .answers (growing_registrationItems _ _) made rfl
  exact .bind fun ctx => .bind fun _ => .bind fun authData => .bind fun signature => .ite
    (.bind fun _ => sends _ _ _ _) (sends _ _ _ _)

theorem capped_buildAssertionResponse (holder : Option CredSlot) (privkey : Buf 32) (credId : CredentialId)
    (rpIdHash clientDataHash : Buf 32)
    (flags : UInt8) (total : Nat) (includeUser : Bool) :
    Capped capacity (buildAssertionResponse crypto env holder privkey credId rpIdHash clientDataHash flags total includeUser capacity) := by
  refine .bind fun ctx => .bind fun _ => .bind fun authData => .bind fun signature => .bind fun der => ?_
  dsimp only
  split
  next bytes made => exact .answers (growing_assertionItems _ _ _ _ _ _) made rfl
  · exact .bind fun _ => .fail _

theorem capped_assertSlot (slot : CredSlot) (rpIdHash clientDataHash : Buf 32) (flags : UInt8) (total : Nat)
    (includeUser : Bool) :
    Capped capacity (assertSlot crypto env slot rpIdHash clientDataHash flags total includeUser capacity) :=
  .bind fun _ => .andThen (capped_buildAssertionResponse _ _ _ _ _ _ _ _)

theorem capped_getAssertion (body : Bytes) : Capped capacity (getAssertion crypto env body capacity) := by
  refine .bind fun parsed => .bind fun uv => .bind fun _ => .bind fun ctx => ?_
  split
  · exact .andThen (capped_buildAssertionResponse _ _ _ _ _ _ _ _)
  · exact .fail _
  · exact .bind fun _ => capped_assertSlot _ _ _ _ _ _

theorem capped_getNextAssertion : Capped capacity (getNextAssertion crypto env capacity) := by
  refine .bind fun ctx => .ite (.bind fun _ => .fail _) ?_
  split
  · exact .fail _
  · exact .bind fun _ => capped_assertSlot _ _ _ _ _ _

theorem capped_sendToken (keys : PinKeys) (permissions : UInt32) (rpId : Blob 255) :
    Capped capacity (sendToken crypto env keys permissions rpId capacity) :=
  .bind fun _ => .bind fun sealed => .bind fun _ => .sends (growing_tokenItems sealed)

theorem capped_getPinToken (params : ClientPinParams) : Capped capacity (getPinToken crypto env params capacity) := by
  refine .bind fun _ => .bind fun _ => .bind fun _ => .bind fun _ => .bind fun _ => .bind fun keys => .bind fun _ => ?_
  exact .bind fun token => .bind fun sealed => .need fun bytes made => .bind fun _ => .answers
    (growing_tokenItems sealed) made rfl

theorem capped_clientPin (body : Bytes) : Capped capacity (clientPin crypto env body capacity) := by
  refine .bind fun params => .bind fun _ => .bind fun ctx => ?_
  split
  · exact .sends (by simp [Growing])
  · exact .sends (.append (by simp [Growing]) (growing_keyAgreementItems _))
  · refine .bind fun _ => .bind fun _ => .bind fun _ => .bind fun _ => .bind fun _ => .bind fun _ => .bind fun _ => .bind fun _ => ?_
    exact .bind fun _ => .bind fun _ => .ite (.bind fun _ => .empty) (.bind fun _ => .fail _)
  · refine .bind fun _ => .bind fun _ => .bind fun _ => .bind fun _ => .bind fun _ => .bind fun _ => .bind fun _ => .bind fun _ => ?_
    refine .bind fun _ => .bind fun _ => .bind fun _ => .bind fun _ => .bind fun _ => .bind fun _ => .bind fun _ => ?_
    exact .ite (.bind fun _ => .empty) (.bind fun _ => .fail _)
  · exact capped_getPinToken _
  · exact .bind fun _ => .bind fun _ => .bind fun _ => .bind fun _ => .bind fun _ => .bind fun _ => capped_sendToken _ _ _
  · exact .sends (by simp [Growing])
  · refine .bind fun _ => .bind fun _ => .bind fun _ => .bind fun _ => .bind fun _ => .bind fun _ => .bind fun _ => .bind fun _ => ?_
    exact .bind fun _ => .empty
  · refine .bind fun _ => .bind fun _ => .bind fun _ => .bind fun _ => .bind fun _ => .bind fun _ => .bind fun _ => .bind fun _ => ?_
    exact .bind fun _ => capped_sendToken _ _ _
  · exact .fail _

theorem capped_enumerateEnrollments : Capped capacity (enumerateEnrollments capacity) := by
  refine .bind fun ctx => .sends (.append (by simp [Growing]) ?_)
  exact List.forall_mem_flatMap.mpr fun template _ => by simp

theorem capped_bioEnrollCommand (params : BioEnrollParams) : Capped capacity (bioEnrollCommand env params capacity) := by
  unfold bioEnrollCommand
  split
  · refine .bind fun _ => .bind fun _ => .bind fun _ => ?_
    split
    · exact .bind fun _ => .fail _
    · exact .bind fun _ => .sends (by simp [Growing])
  · exact .bind fun _ => .bind fun _ => .bind fun _ => .bind fun _ => .bind fun _ => .bind fun _ => .sends (by simp [Growing])
  · exact .bind fun _ => .empty
  · exact capped_enumerateEnrollments
  · exact .bind fun _ => .bind fun _ => .bind fun _ => .bind fun _ => .bind fun _ => .empty
  · exact .bind fun _ => .bind fun _ => .bind fun _ => .bind fun _ => .empty
  · exact .sends (by simp [Growing])
  · exact .fail _

theorem capped_bioEnrollment (body : Bytes) : Capped capacity (bioEnrollment crypto env body capacity) :=
  .bind fun _ => .bind fun _ => .ite (.sends (by simp [Growing]))
    (.ite (.bind fun _ => capped_bioEnrollCommand _) (capped_bioEnrollCommand _))

theorem capped_enumerateRpsBegin : Capped capacity (enumerateRpsBegin capacity) := by
  refine .bind fun ctx => .bind fun _ => ?_
  split
  · exact .fail _
  · exact .bind fun _ => .sends (.append (.append (by simp [Growing]) (growing_rpItems _)) (by simp [Growing]))

theorem capped_enumerateRpsNext : Capped capacity (enumerateRpsNext capacity) :=
  .bind fun _ => .bind fun _ => .bind fun _ => .sends (.append (by simp [Growing]) (growing_rpItems _))

theorem capped_enumerateCredsBegin (params : CredMgmtParams) : Capped capacity (enumerateCredsBegin params capacity) := by
  refine .bind fun _ => .bind fun _ => .bind fun _ => ?_
  split
  · exact .fail _
  · exact .bind fun _ => .sends (.append (.append (by simp [Growing]) (growing_credentialItems _)) (by simp [Growing]))

theorem capped_enumerateCredsNext : Capped capacity (enumerateCredsNext capacity) :=
  .bind fun _ => .bind fun _ => .bind fun _ => .sends
    (.append (.append (by simp [Growing]) (growing_credentialItems _)) (by simp [Growing]))

theorem capped_credMgmtCommand (params : CredMgmtParams) : Capped capacity (credMgmtCommand crypto env params capacity) := by
  refine .bind fun _ => ?_
  split
  · exact .sends (by simp [Growing])
  · exact capped_enumerateRpsBegin
  · exact capped_enumerateRpsNext
  · exact capped_enumerateCredsBegin _
  · exact capped_enumerateCredsNext
  · exact .bind fun _ => .bind fun _ => .bind fun _ => .bind fun _ => .bind fun _ => .empty
  · exact .bind fun _ => .bind fun _ => .bind fun _ => .bind fun _ => .bind fun _ => .bind fun _ => .empty
  · exact .fail _

theorem capped_credentialManagement (body : Bytes) : Capped capacity (credentialManagement crypto env body capacity) :=
  .bind fun _ => .ite (capped_credMgmtCommand _) (.bind fun _ => .bind fun _ => capped_credMgmtCommand _)

end

theorem process_fits (crypto : Crypto) (request : Request) : Capped request.capacity (process crypto request) := by
  have dispatched : Capped request.capacity (dispatch crypto request) := by
    unfold dispatch
    split
    · exact capped_makeCredential _
    · exact capped_getAssertion _
    · exact .bind fun ctx => .sends (growing_getInfoItems ctx)
    · exact capped_clientPin _
    · exact .bind fun _ => .bind fun _ => .bind fun _ => .bind fun _ => .bind fun _ => .empty
    · exact capped_getNextAssertion
    · exact capped_bioEnrollment _
    · exact capped_credentialManagement _
    · exact .bind fun _ => .bind fun _ => .empty
    · exact .fail _
  exact .ite (.bind fun _ => dispatched) dispatched

end

@[simp] theorem length_frame (first : UInt8) (payload : Bytes) : (frame first payload).length = payload.length + 3 := by
  simp only [frame, List.length_cons, List.length_append, beBytes_length]
  omega

theorem frame_inj {first second : UInt8} {payload other behind beyond : Bytes} (small : payload.length < 65536)
    (little : other.length < 65536) (same : frame first payload ++ behind = frame second other ++ beyond) :
    first = second ∧ payload = other ∧ behind = beyond := by
  simp only [frame, List.cons_append, List.append_assoc] at same
  obtain ⟨rfl, behind⟩ := List.cons.inj same
  obtain ⟨lengths, behind⟩ := List.append_inj behind (by simp)
  have sizes := congrArg beNat lengths
  rw [beNat_beBytes, beNat_beBytes, Nat.mod_eq_of_lt (show _ < 256 ^ 2 from small),
    Nat.mod_eq_of_lt (show _ < 256 ^ 2 from little)] at sizes
  exact ⟨rfl, List.append_inj behind sizes⟩

theorem beBytes_pair (high low : UInt8) : beBytes 2 (beNat [high, low]) = [high, low] := by
  have above := high.toNat_lt
  have below := low.toNat_lt
  have first : UInt8.ofNat ((high.toNat * 256 + low.toNat) / 256) = high := by
    apply UInt8.toNat_inj.mp
    rw [UInt8.toNat_ofNat']
    omega
  have second : UInt8.ofNat (high.toNat * 256 + low.toNat) = low := by
    apply UInt8.toNat_inj.mp
    rw [UInt8.toNat_ofNat']
    omega
  simp [beBytes, beNat, first, second]

theorem readExact_ok {waits : Bool} {want : Nat} {socket reached : Socket} {got : Bytes}
    (done : readExact waits want socket = (.ok got, reached)) : socket.incoming = got ++ reached.incoming ∧
    got.length = want := by
  obtain ⟨used, whole, known⟩ := receive_spec waits socket.answers want socket.incoming
  unfold readExact at done
  split at done
  next made =>
    rw [made] at whole known
    obtain ⟨same, rfl⟩ := Prod.mk.inj done
    cases same
    obtain ⟨rfl, size⟩ := known _ rfl
    exact ⟨whole, size⟩
  · cases (Prod.mk.inj done).1

theorem readFrame_outgoing (waits : Bool) (room : Nat) (socket : Socket) : (readFrame waits room socket).2.outgoing =
    socket.outgoing := by
  have reads (want : Nat) : Proc.Keeps Descriptor.outgoing (readExact waits want : Proc Socket Unit Bytes) := by
    intro socket
    unfold readExact
    split
    · rfl
    · rfl
  have whole : Proc.Keeps Descriptor.outgoing (readFrame waits room) :=
    .bind (reads 3) fun hdr => .ite (.fail _) (.bind (reads _) fun _ => .pure _)
  exact whole socket

theorem readFrame_ok {waits : Bool} {room : Nat} {socket reached : Socket} {framed : UInt8 × Bytes}
    (done : readFrame waits room socket = (.ok framed, reached)) :
    socket.incoming = frame framed.1 framed.2 ++ reached.incoming ∧ framed.2.length ≤ room := by
  obtain ⟨hdr, between, header, done⟩ := Proc.bind_eq_ok.mp done
  obtain ⟨front, three⟩ := readExact_ok header
  obtain ⟨first, high, low, rfl⟩ := List.length_eq_three.mp three
  split at done
  · cases (Prod.mk.inj done).1
  next fits =>
    obtain ⟨payload, last, body, done⟩ := Proc.bind_eq_ok.mp done
    obtain ⟨back, size⟩ := readExact_ok body
    obtain ⟨same, rfl⟩ := Prod.mk.inj done
    cases same
    rw [List.drop_succ_cons, List.drop_zero] at size fits
    refine ⟨?_, by rw [size]; exact Nat.le_of_not_gt fits⟩
    rw [front, back, frame, size, beBytes_pair]
    rfl

theorem writeExact_spec (waits idles : Bool) (bytes : Bytes) (socket : Socket) :
    ∃ written rest, (writeExact waits idles bytes socket).2.outgoing = socket.outgoing ++ written ∧ bytes = written ++ rest ∧
      ((writeExact waits idles bytes socket).1 = .ok () → rest = []) ∧
      (writeExact waits idles bytes socket).2.incoming = socket.incoming := by
  obtain ⟨rest, whole, done⟩ := deliver_spec waits idles socket.answers bytes
  refine ⟨_, rest, ?_, whole, ?_, ?_⟩ <;> unfold writeExact <;> split
  · rename_i made
    rw [made]
  · rename_i made
    rw [made]
  · rename_i made
    rw [made] at done
    exact fun _ => done rfl
  · exact fun never => nomatch never
  · rfl
  · rfl

/-- What goes out is the front of the frame, all of it where the write ends well. -/
theorem writeFrame_spec (waits idles : Bool) (first : UInt8) (payload : Bytes) (socket : Socket) :
    ∃ written rest, (writeFrame waits idles first payload socket).2.outgoing = socket.outgoing ++ written ∧
      frame first payload = written ++ rest ∧ ((writeFrame waits idles first payload socket).1 = .ok () → rest = []) ∧
      (writeFrame waits idles first payload socket).2.incoming = socket.incoming := by
  obtain ⟨header, left, out, whole, done, same⟩ := writeExact_spec waits idles (first :: beBytes 2 payload.length) socket
  unfold writeFrame
  rw [Proc.bind_apply]
  rcases wrote : writeExact waits idles (first :: beBytes 2 payload.length) socket with ⟨problem | value, between⟩ <;>
    rw [wrote] at out done same
  · refine ⟨header, left ++ payload, out, ?_, (fun never => nomatch never), same⟩
    rw [← List.append_assoc, ← whole]
    rfl
  · obtain ⟨body, rest, later, shape, last, still⟩ := writeExact_spec waits idles payload between
    refine ⟨header ++ body, rest, ?_, ?_, last, still.trans same⟩
    · rw [later, out, List.append_assoc]
    · rw [List.append_assoc, ← shape]
      rw [done rfl, List.append_nil] at whole
      rw [← whole]
      rfl

theorem readExact_carried {waits : Bool} {need : Nat} (socket : Socket) {front back : Bytes}
    (there : socket.incoming = front ++ back)
    (carries : Carries waits false need socket.answers) (enough : front.length ≤ need) :
    ∃ answers, readExact waits front.length socket = (.ok front, { socket with answers, incoming := back }) ∧
      Carries waits false (need - front.length) answers := by
  obtain ⟨answers, made, carried⟩ := receive_carried carries enough
    (show front.length ≤ socket.incoming.length by simp [there])
  refine ⟨answers, ?_, carried⟩
  rw [there] at made
  simp [readExact, there, made]

theorem writeExact_carried {waits idles : Bool} {need : Nat} (socket : Socket) (bytes : Bytes)
    (carries : Carries waits idles need socket.answers) (enough : bytes.length ≤ need) :
    ∃ answers, writeExact waits idles bytes socket = (.ok (), { socket with answers, outgoing := socket.outgoing ++ bytes }) ∧
      Carries waits idles (need - bytes.length) answers := by
  obtain ⟨answers, made, carried⟩ := deliver_carried carries enough
  refine ⟨answers, ?_, carried⟩
  simp [writeExact, made]

/-- A frame that is there is read where the answers carry it. -/
theorem readFrame_carried {waits : Bool} {room need : Nat} (socket : Socket) {first : UInt8} {payload rest : Bytes}
    (there : socket.incoming = frame first payload ++ rest) (fits : payload.length ≤ room) (small : payload.length < 65536)
    (carries : Carries waits false need socket.answers) (enough : payload.length + 3 ≤ need) :
    ∃ answers, readFrame waits room socket = (.ok (first, payload), { socket with answers, incoming := rest }) ∧
      Carries waits false (need - (payload.length + 3)) answers := by
  have header : socket.incoming = (first :: beBytes 2 payload.length) ++ (payload ++ rest) := by
    rw [there, frame]
    simp
  have size : beNat (beBytes 2 payload.length) = payload.length :=
    by rw [beNat_beBytes, Nat.mod_eq_of_lt (show _ < 256 ^ 2 from small)]
  obtain ⟨between, read, left⟩ := readExact_carried socket header carries (by simp; omega)
  obtain ⟨answers, body, carried⟩ := readExact_carried { socket with answers := between, incoming := payload ++ rest }
    rfl left
    (by simp; omega)
  refine ⟨answers, ?_, carried.mono (by simp; omega)⟩
  rw [List.length_cons, beBytes_length] at read
  rw [readFrame, Proc.bind_of_ok read, List.drop_succ_cons, List.drop_zero, size]
  rw [if_neg (Nat.not_lt.mpr fits), Proc.bind_of_ok body]
  rfl

theorem writeFrame_carried {waits idles : Bool} {need : Nat} (socket : Socket) (first : UInt8) (payload : Bytes)
    (carries : Carries waits idles need socket.answers) (enough : payload.length + 3 ≤ need) :
    ∃ answers, writeFrame waits idles first payload socket =
        (.ok (), { socket with answers, outgoing := socket.outgoing ++ frame first payload }) ∧
      Carries waits idles (need - (payload.length + 3)) answers := by
  obtain ⟨between, header, left⟩ := writeExact_carried socket (first :: beBytes 2 payload.length) carries (by simp; omega)
  obtain ⟨answers, body, carried⟩ := writeExact_carried
    { socket with answers := between, outgoing := socket.outgoing ++ (first :: beBytes 2 payload.length) } payload left
    (by simp; omega)
  refine ⟨answers, ?_, carried.mono (by simp; omega)⟩
  rw [writeFrame, Proc.bind_of_ok header, body, frame, List.append_assoc, List.cons_append]

def Asked (event : Event Ctx Request (Except Status Reply)) : Bytes := frame event.input.cmd event.input.body

def Answered (event : Event Ctx Request (Except Status Reply)) : Bytes :=
  match response event.outcome with
  | none => []
  | some (status, payload) => frame status payload

/-- What was done for a client: its requests ran one after another, what it sent begins with
their frames, and what it was sent are the frames of their outcomes, of which the last one
may be cut short. -/
structure Faithful (crypto : Crypto) (turns : List Turn) (requestCount : Nat) (start : Ctx) (socket : Socket)
    (served : Served) : Prop where
  ran : served.events = (authenticator crypto).run start (served.events.map Event.input)
  reached : (served.ctx, served.alive) = (authenticator crypto).reached start (served.events.map Event.input)
  few : requestCount + served.events.length ≤ maxRequestsPerClient ∨ served.events = []
  sized : ∀ event ∈ served.events, event.input.capacity = hiyaFido2MaxMsg ∧ event.input.body.length ≤ hiyaFido2MaxMsg
  surrounded : (served.events.map fun event => event.input.env) <+: turns.map Turn.env
  asked : ∃ unread, socket.incoming = served.events.flatMap Asked ++ unread
  answered : ∃ written, served.socket.outgoing = socket.outgoing ++ written ∧ written <+: served.events.flatMap Answered ∧
    served.events.dropLast.flatMap Answered <+: written

theorem halts_eq (crypto : Crypto) (outcome : Except Status Reply) : (authenticator crypto).halts outcome =
    (response outcome).isNone := by
  cases outcome with
  | ok reply => rfl
  | error problem => cases problem <;> rfl

section
variable {crypto : Crypto} {turns : List Turn} {turn : Turn} {requestCount : Nat} {start : Ctx} {socket between left : Socket}
  {framed : UInt8 × Bytes}

namespace Faithful

protected theorem idle (kept : left.outgoing = socket.outgoing) : Faithful crypto turns requestCount start socket ⟨[],
    start, left, true⟩ where
  ran := rfl
  reached := rfl
  few := .inr rfl
  sized := List.forall_mem_nil _
  surrounded := List.nil_prefix
  asked := ⟨socket.incoming, rfl⟩
  answered := ⟨[], by rw [kept, List.append_nil], List.nil_prefix, List.nil_prefix⟩

/-- The last request of a client, answered as far as it goes. -/
protected theorem last (room : requestCount + 1 ≤ maxRequestsPerClient)
    (read : readFrame true hiyaFido2MaxMsg socket = (.ok framed, between))
    {alive : Bool} (known : alive = (response
    ((authenticator crypto).event start (commandOf turn.env framed)).outcome).isSome)
    {written rest : Bytes} (out : left.outgoing = between.outgoing ++ written)
    (whole : Answered ((authenticator crypto).event start (commandOf turn.env framed)) = written ++ rest) :
    Faithful crypto (turn :: turns) requestCount start socket
    ⟨[(authenticator crypto).event start (commandOf turn.env framed)],
      ((authenticator crypto).event start (commandOf turn.env framed)).after, left, alive⟩ where
  ran := ((authenticator crypto).run_singleton start _).symm
  reached := by
    rw [List.map_singleton, Machine.reached_singleton, known, halts_eq, Option.not_isNone]
    rfl
  few := .inl room
  sized := List.forall_mem_singleton.mpr ⟨rfl, (readFrame_ok read).2⟩
  surrounded := List.prefix_append [turn.env] _
  asked := ⟨between.incoming, by rw [List.flatMap_singleton]; exact (readFrame_ok read).1⟩
  answered := by
    refine ⟨written, ?_, ?_, List.nil_prefix⟩
    · rw [out, ← readFrame_outgoing true hiyaFido2MaxMsg socket, read]
    · rw [List.flatMap_singleton, whole]
      exact List.prefix_append _ _

/-- A request that was answered in full, before those of the other turns. -/
protected theorem cons (room : requestCount + 1 ≤ maxRequestsPerClient)
    (read : readFrame true hiyaFido2MaxMsg socket = (.ok framed, between))
    (known : (response ((authenticator crypto).event start (commandOf turn.env framed)).outcome).isSome)
    {answered : Socket} (out : answered.outgoing = between.outgoing ++
    Answered ((authenticator crypto).event start (commandOf turn.env framed)))
    (same : answered.incoming = between.incoming) {later : Served}
    (rest : Faithful crypto turns (requestCount + 1)
    ((authenticator crypto).event start (commandOf turn.env framed)).after answered later) :
    Faithful crypto (turn :: turns) requestCount start socket
      { later with events := (authenticator crypto).event start (commandOf turn.env framed) :: later.events } := by
  have goes : (authenticator crypto).halts ((authenticator crypto).event start (commandOf turn.env framed)).outcome =
    false := by
    rw [halts_eq, ← Option.not_isSome, known]
    rfl
  constructor
  case ran =>
    conv => lhs; rw [rest.ran]
    rw [List.map_cons, Machine.run]
    exact (if_neg (by rw [show (authenticator crypto).event start _ = _ from rfl]; exact Bool.eq_false_iff.mp goes)).symm
  case reached =>
    rw [List.map_cons, Machine.reached]
    exact rest.reached.trans (if_neg (Bool.eq_false_iff.mp goes)).symm
  case few =>
    refine .inl ?_
    rcases rest.few with few | none
    · rw [List.length_cons]
      omega
    · rw [none]
      exact room
  case sized => exact List.forall_mem_cons.mpr ⟨⟨rfl, (readFrame_ok read).2⟩, rest.sized⟩
  case surrounded => exact (List.prefix_cons_inj _).mpr rest.surrounded
  case asked =>
    obtain ⟨unread, front⟩ := rest.asked
    refine ⟨unread, ?_⟩
    rw [(readFrame_ok read).1, ← same, front, List.flatMap_cons, List.append_assoc]
    rfl
  case answered =>
    obtain ⟨written, sent, most, least⟩ := rest.answered
    refine ⟨Answered ((authenticator crypto).event start (commandOf turn.env framed)) ++ written, ?_, ?_, ?_⟩
    · rw [sent, out, List.append_assoc, ← readFrame_outgoing true hiyaFido2MaxMsg socket, read]
    · rw [List.flatMap_cons]
      exact (List.prefix_append_right_inj _).mpr most
    · cases rest? : later.events with
      | nil => exact List.nil_prefix
      | cons event events =>
        rw [List.dropLast_cons_cons, List.flatMap_cons, ← rest?]
        exact (List.prefix_append_right_inj _).mpr least

end Faithful

theorem serveFrom_faithful (crypto : Crypto) (turns : List Turn) (requestCount : Nat) (start : Ctx) (socket : Socket) :
    Faithful crypto turns requestCount start socket (serveFrom crypto turns requestCount start socket) := by
  induction turns generalizing requestCount start socket with
  | nil => exact .idle rfl
  | cons turn turns ih =>
    unfold serveFrom
    split
    · exact .idle rfl
    next goes =>
      have room : requestCount + 1 ≤ maxRequestsPerClient := Nat.le_of_not_gt fun many => goes (.inr many)
      split
      next left failed => exact .idle (by rw [← readFrame_outgoing true hiyaFido2MaxMsg socket, failed])
      next framed between read =>
        dsimp only
        split
        next fault =>
          have whole : Answered ((authenticator crypto).event start (commandOf turn.env framed)) = [] ++ [] := by
            unfold Answered
            rw [fault]
            rfl
          exact .last room read (by rw [fault]; rfl) (by rw [List.append_nil]) whole
        next status payload answer =>
          have shape : Answered ((authenticator crypto).event start (commandOf turn.env framed)) = frame status payload := by
            unfold Answered
            rw [answer]
          obtain ⟨written, rest, out, whole, done, same⟩ := writeFrame_spec true false status payload between
          split
          next left failed =>
            rw [failed] at out
            exact .last room read (by rw [answer]; rfl) out (shape.trans whole)
          next left wrote =>
            rw [wrote] at out done same
            rw [done rfl, List.append_nil] at whole
            exact .cons room read (by rw [answer]; rfl) (by rw [out, shape, whole]) same (ih _ _ _)

theorem Faithful.run_append {served : Served} (faithful : Faithful crypto turns requestCount start socket served)
    (inputs : List Request) :
    (authenticator crypto).run start (served.events.map Event.input ++ inputs) =
      served.events ++ if served.alive then (authenticator crypto).run served.ctx inputs else [] := by
  rw [Machine.run_append, ← faithful.ran, ← faithful.reached]

theorem Faithful.reached_append {served : Served} (faithful : Faithful crypto turns requestCount start socket served)
    (inputs : List Request) :
    (authenticator crypto).reached start (served.events.map Event.input ++ inputs) =
      if served.alive then (authenticator crypto).reached served.ctx inputs else (served.ctx, served.alive) := by
  rw [Machine.reached_append, ← faithful.reached]

theorem response_length {crypto : Crypto} {start : Ctx} {request : Request} {status : UInt8} {payload : Bytes}
    (answer : response ((authenticator crypto).event start request).outcome = some (status, payload)) :
    payload.length ≤ request.capacity := by
  cases outcome : ((authenticator crypto).event start request).outcome with
  | ok reply =>
    rw [outcome] at answer
    obtain ⟨-, rfl⟩ := Prod.mk.inj (Option.some.inj answer)
    exact process_fits crypto request start reply outcome
  | error problem =>
    rw [outcome] at answer
    cases problem <;> cases answer <;> exact Nat.zero_le _

end

/-- What a client has to say, as the frames of its commands. -/
def spoken (commands : List (UInt8 × Bytes)) : Bytes := commands.flatMap fun command => frame command.1 command.2

theorem serveFrom_ended (crypto : Crypto) (turns : List Turn) (requestCount : Nat) (start : Ctx) (socket : Socket)
    (over? : socket.incoming = []) :
    (serveFrom crypto turns requestCount start socket).events = [] ∧
      (serveFrom crypto turns requestCount start socket).socket.outgoing = socket.outgoing := by
  have faithful := serveFrom_faithful crypto turns requestCount start socket
  obtain ⟨unread, front⟩ := faithful.asked
  have none : (serveFrom crypto turns requestCount start socket).events = [] := by
    rw [over?] at front
    cases ran : (serveFrom crypto turns requestCount start socket).events with
    | nil => rfl
    | cons event events =>
      rw [ran] at front
      cases front
  obtain ⟨written, out, most, -⟩ := faithful.answered
  rw [none] at most
  rw [out, List.prefix_nil.mp most]
  exact ⟨none, List.append_nil _⟩

/-- Requests that arrive whole are run and answered, each of them, and after them the
stream ends or nobody listens any more. -/
theorem serveFrom_in_full (crypto : Crypto) (turns more : List Turn) (commands : List (UInt8 × Bytes))
    (requestCount : Nat) (start : Ctx)
    (socket : Socket) {rest : Bytes} (there : socket.incoming = spoken commands ++ rest) (last : more = [] ∨ rest = [])
    (sized : ∀ command ∈ commands, command.2.length ≤ hiyaFido2MaxMsg)
    (few : requestCount + commands.length ≤ maxRequestsPerClient)
    (paired : turns.length = commands.length) (running : ∀ turn ∈ turns, turn.running = true)
    (carries : Carries true false (commands.length * (hiyaFido2MaxMsg + 3) + (spoken commands).length) socket.answers) :
    (serveFrom crypto (turns ++ more) requestCount start socket).events =
        (authenticator crypto).run start (List.zipWith (fun turn command => commandOf turn.env command) turns commands) ∧
      (serveFrom crypto (turns ++ more) requestCount start socket).socket.outgoing =
        socket.outgoing ++ (serveFrom crypto (turns ++ more) requestCount start socket).events.flatMap Answered := by
  induction turns generalizing commands requestCount start socket with
  | nil =>
    cases commands with
    | cons command commands => cases paired
    | nil =>
      have idle : (serveFrom crypto more requestCount start socket).events = [] ∧
          (serveFrom crypto more requestCount start socket).socket.outgoing = socket.outgoing := by
        rcases last with rfl | rfl
        · exact ⟨rfl, rfl⟩
        · exact serveFrom_ended crypto more requestCount start socket there
      rw [List.nil_append, idle.1, idle.2]
      exact ⟨rfl, (List.append_nil _).symm⟩
  | cons turn turns ih =>
    cases commands with
    | nil => cases paired
    | cons command commands =>
      obtain ⟨first, payload⟩ := command
      have fits : payload.length ≤ hiyaFido2MaxMsg := sized _ List.mem_cons_self
      have small : payload.length < 65536 := Nat.lt_of_le_of_lt fits (by decide)
      have front : spoken ((first, payload) :: commands) = frame first payload ++ spoken commands := List.flatMap_cons
      rw [front, List.length_append, length_frame, List.length_cons, Nat.succ_mul] at carries
      rw [front, List.append_assoc] at there
      rw [List.length_cons] at few
      obtain ⟨between, read, left⟩ := readFrame_carried socket there fits small carries (by omega)
      have goes : ¬ (¬ turn.running ∨ requestCount + 1 > maxRequestsPerClient) := by
        rw [running turn List.mem_cons_self]
        simp
        omega
      rw [List.zipWith_cons_cons, List.cons_append, serveFrom, if_neg goes, read, Machine.run]
      dsimp only
      cases answer : response ((authenticator crypto).event start (commandOf turn.env (first, payload))).outcome with
      | none =>
        have halts : (authenticator crypto).halts
          ((authenticator crypto).event start (commandOf turn.env (first, payload))).outcome = true := by
          rw [halts_eq, answer]
          rfl
        rw [if_pos halts, List.flatMap_singleton, Answered, answer]
        exact ⟨rfl, (List.append_nil _).symm⟩
      | some reply =>
        obtain ⟨status, body⟩ := reply
        have halts : (authenticator crypto).halts
          ((authenticator crypto).event start (commandOf turn.env (first, payload))).outcome = false := by
          rw [halts_eq, answer]
          rfl
        have short : body.length ≤ hiyaFido2MaxMsg := response_length answer
        obtain ⟨answers, wrote, carried⟩ :=
          writeFrame_carried { socket with answers := between, incoming := spoken commands ++ rest } status body left
          (by omega)
        dsimp only
        rw [wrote, halts, if_neg Bool.false_ne_true]
        obtain ⟨ran, said⟩ := ih commands (requestCount + 1)
          ((authenticator crypto).event start (commandOf turn.env (first, payload))).after
          { socket with answers, incoming := spoken commands ++ rest, outgoing := socket.outgoing ++ frame status body } rfl
          (fun command inside => sized command (List.mem_cons_of_mem _ inside)) (by omega) (Nat.succ.inj paired)
          (fun turn inside => running turn (List.mem_cons_of_mem _ inside)) (carried.mono (by omega))
        refine ⟨congrArg _ ran, ?_⟩
        rw [said, List.flatMap_cons, Answered, answer, List.append_assoc]

/-- A client that says up to eight whole requests, and then nothing more or more than the
server listens to, has each of them run and gets each answer in full, whatever pieces the
bytes move in. -/
theorem whole_requests_are_answered (crypto : Crypto) (turns more : List Turn) (commands : List (UInt8 × Bytes)) (start : Ctx)
    (socket : Socket) (rest : Bytes) (there : socket.incoming = spoken commands ++ rest) (last : more = [] ∨ rest = [])
    (sized : ∀ command ∈ commands, command.2.length ≤ hiyaFido2MaxMsg) (few : commands.length ≤ maxRequestsPerClient)
    (paired : turns.length = commands.length) (running : ∀ turn ∈ turns, turn.running = true)
    (carries : Carries true false (commands.length * (hiyaFido2MaxMsg + 3) + (spoken commands).length) socket.answers) :
    (handleClient crypto (turns ++ more) start socket).events =
        (authenticator crypto).run start (List.zipWith (fun turn command => commandOf turn.env command) turns commands) ∧
      (handleClient crypto (turns ++ more) start socket).socket.outgoing =
        socket.outgoing ++ (handleClient crypto (turns ++ more) start socket).events.flatMap Answered :=
  serveFrom_in_full crypto turns more commands 0 start socket there last sized (by omega) paired running carries

/-- A selection and an unknown command, each byte on its own. -/
def twoRequests (count : Nat) : Socket where
  answers := List.replicate count (.moved 1)
  incoming := spoken [(0x0B, []), (0xFF, [1])]
  outgoing := []

theorem twoRequests_carries {need count : Nat} (enough : need ≤ count) :
    Carries true false need (twoRequests count).answers :=
  (carries_replicate true false count 0).mono enough

def twoTurns : List Turn := [⟨true, plainEnv 0⟩, ⟨true, plainEnv 1⟩]

theorem whole_requests_are_answered_two :
    (handleClient tagCipher (twoTurns ++ []) (plainCtx false) (twoRequests 9000)).events =
        (authenticator tagCipher).run (plainCtx false)
          (List.zipWith (fun turn command => commandOf turn.env command) twoTurns [(0x0B, []), (0xFF, [1])]) ∧
      (handleClient tagCipher (twoTurns ++ []) (plainCtx false) (twoRequests 9000)).socket.outgoing =
        (twoRequests 9000).outgoing ++ (handleClient tagCipher (twoTurns ++ []) (plainCtx false)
        (twoRequests 9000)).events.flatMap Answered :=
  whole_requests_are_answered tagCipher twoTurns [] [(0x0B, []), (0xFF, [1])] (plainCtx false) (twoRequests 9000) []
    (List.append_nil _).symm (.inl rfl) (by decide) (by decide) rfl (by simp [twoTurns]) (twoRequests_carries (by decide))

/-- Rounds of the loop that are no more than rounds. -/
def idles (names : Names) : Wakeup → Bool
  | .interrupted | .timeout | .acceptFailed | .anonymous => true
  | .connection client => !peerIsAuthorized names client.uid
  | .stopped | .selectFailed | .shutdown => false

def clients : List Wakeup → List Client
  | [] => []
  | .connection client :: rest => client :: clients rest
  | _ :: rest => clients rest

/-- The server as one authenticator that is fed the requests of the clients it serves, one
client after another. -/
structure InTurn (crypto : Crypto) (names : Names) (wakeups : List Wakeup) (start : Ctx) (visits : List Visit)
    (reached : Ctx × Bool) : Prop where
  ran : visits.flatMap (fun visit => visit.served.events) =
    (authenticator crypto).run start ((visits.flatMap fun visit => visit.served.events).map Event.input)
  left : reached = (authenticator crypto).reached start ((visits.flatMap fun visit => visit.served.events).map Event.input)
  order : (visits.map Visit.client).Sublist (clients wakeups)
  admitted : ∀ visit ∈ visits, peerIsAuthorized names visit.client.uid = true
  faithful : ∀ visit ∈ visits, ∃ between, Faithful crypto visit.client.turns 0 between visit.client.socket visit.served

variable {crypto : Crypto} {names : Names} {wakeups : List Wakeup} {start : Ctx} {visits : List Visit} {reached : Ctx × Bool}

namespace InTurn

protected theorem idle (wakeups : List Wakeup) : InTurn crypto names wakeups start [] (start, true) where
  ran := rfl
  left := rfl
  order := List.nil_sublist _
  admitted := List.forall_mem_nil _
  faithful := List.forall_mem_nil _

theorem later {wakeup : Wakeup} (turn : InTurn crypto names wakeups start visits reached) :
    InTurn crypto names (wakeup :: wakeups) start visits reached := by
  refine ⟨turn.ran, turn.left, turn.order.trans ?_, turn.admitted, turn.faithful⟩
  cases wakeup with
  | connection client => exact List.sublist_cons_self _ _
  | stopped | interrupted | selectFailed | timeout | shutdown | acceptFailed | anonymous => exact List.Sublist.refl _

/-- A client, and after it those that are served when something is known still. -/
theorem visit {client : Client} {served : Served} (known : peerIsAuthorized names client.uid = true)
    (faithful : Faithful crypto client.turns 0 start client.socket served) (alive : served.alive = true)
    (rest : InTurn crypto names wakeups served.ctx visits reached) :
    InTurn crypto names (.connection client :: wakeups) start (⟨client, served⟩ :: visits) reached where
  ran := by
    rw [List.flatMap_cons, List.map_append, faithful.run_append, alive, if_pos rfl]
    exact congrArg _ rest.ran
  left := by
    rw [List.flatMap_cons, List.map_append, faithful.reached_append, alive, if_pos rfl]
    exact rest.left
  order := List.Sublist.cons_cons client rest.order
  admitted := List.forall_mem_cons.mpr ⟨known, rest.admitted⟩
  faithful := List.forall_mem_cons.mpr ⟨⟨start, faithful⟩, rest.faithful⟩

protected theorem last {client : Client} {served : Served} (known : peerIsAuthorized names client.uid = true)
    (faithful : Faithful crypto client.turns 0 start client.socket served) (dead : served.alive = false) :
    InTurn crypto names (.connection client :: wakeups) start [⟨client, served⟩] (served.ctx, false) where
  ran := by
    rw [List.flatMap_singleton]
    exact faithful.ran
  left := by
    rw [List.flatMap_singleton, ← dead]
    exact faithful.reached
  order := List.Sublist.cons_cons client (List.nil_sublist _)
  admitted := List.forall_mem_singleton.mpr known
  faithful := List.forall_mem_singleton.mpr ⟨start, faithful⟩

end InTurn

theorem transportRun_inTurn (crypto : Crypto) (names : Names) (wakeups : List Wakeup) (start : Ctx) :
    InTurn crypto names wakeups start (transportRun crypto names wakeups start).1
    (transportRun crypto names wakeups start).2 := by
  induction wakeups generalizing start with
  | nil => exact .idle []
  | cons wakeup rest ih =>
    cases wakeup with
    | stopped | selectFailed | shutdown => exact .idle _
    | interrupted | timeout | acceptFailed | anonymous => exact (ih start).later
    | connection client =>
      have faithful := serveFrom_faithful crypto client.turns 0 start client.socket
      rw [transportRun]
      split
      next known =>
        dsimp only
        split
        next alive => exact .visit known faithful alive (ih _)
        next dead => exact .last known faithful (Bool.eq_false_iff.mpr dead)
      · exact (ih start).later

/-- Those who may not speak to the authenticator, and rounds that come to nothing, change nothing. -/
theorem transportRun_filter (crypto : Crypto) (names : Names) (wakeups : List Wakeup) (start : Ctx) :
    transportRun crypto names (wakeups.filter fun wakeup => !idles names wakeup) start =
    transportRun crypto names wakeups start := by
  induction wakeups generalizing start with
  | nil => rfl
  | cons wakeup rest ih =>
    cases wakeup with
    | stopped | selectFailed | shutdown => rfl
    | interrupted | timeout | acceptFailed | anonymous => exact ih start
    | connection client =>
      cases known : peerIsAuthorized names client.uid with
      | false =>
        rw [List.filter_cons_of_neg (by simp [idles, known]), ih]
        simp [transportRun, known]
      | true =>
        rw [List.filter_cons_of_pos (by simp [idles, known])]
        simp only [transportRun, known, if_true, ih]

theorem socket_runs_requests_in_turn (crypto : Crypto) (names : Names) (wakeups : List Wakeup) (start : Ctx) :
    InTurn crypto names wakeups start (transportRun crypto names wakeups start).1
    (transportRun crypto names wakeups start).2 ∧
      transportRun crypto names (wakeups.filter fun wakeup => !idles names wakeup) start =
      transportRun crypto names wakeups start :=
  ⟨transportRun_inTurn crypto names wakeups start, transportRun_filter crypto names wakeups start⟩

end Hiya.Fido2
