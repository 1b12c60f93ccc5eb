import Hiya.Proofs.SocketFrames
import Hiya.Ssh.SocketClients

/-! A call over the socket runs its command once at the most, and what it returns is what
came of it. So the two ends of a connection are as good as a link that loses requests and
responses. -/

namespace Hiya.Ssh
open Library Fido2

section
variable {crypto : Crypto} {turns : List Turn} {start : Ctx} {socket : Socket} {served : Served} {cmd : UInt8} {req : Bytes}

/-- A server that was sent the beginning of one frame has run nothing, or that frame. -/
theorem served_once {first : Turn} {more : List Turn} (faithful : Faithful crypto (first :: more) 0 start socket served)
    (small : req.length < 65536) {rest : Bytes} (front : frame cmd req = socket.incoming ++ rest)
    (fresh : socket.outgoing = []) :
    (served.events = [] ∧ served.ctx = start ∧ served.socket.outgoing = []) ∨
      (served.events = [(authenticator crypto).event start (commandOf first.env (cmd, req))] ∧
        served.ctx = ((authenticator crypto).event start (commandOf first.env (cmd, req))).after ∧
        served.socket.outgoing <+: Answered ((authenticator crypto).event start (commandOf first.env (cmd, req)))) := by
  obtain ⟨unread, asked⟩ := faithful.asked
  obtain ⟨written, out, most, -⟩ := faithful.answered
  have ran := faithful.ran
  have reached := faithful.reached
  have surrounded := faithful.surrounded
  have sized := faithful.sized
  rw [fresh, List.nil_append] at out
  rw [← out] at most
  cases events : served.events with
  | nil =>
    rw [events] at reached most
    exact .inl ⟨rfl, congrArg Prod.fst reached, List.prefix_nil.mp most⟩
  | cons event events' =>
    rw [events] at asked ran reached surrounded most sized
    obtain ⟨capacity, short⟩ := sized event List.mem_cons_self
    have whole : frame event.input.cmd event.input.body ++ (events'.flatMap Asked ++ (unread ++ rest)) =
      frame cmd req ++ [] := by
      rw [List.append_nil, front, asked, List.flatMap_cons]
      simp [Asked]
    obtain ⟨sameCmd, sameBody, nothing⟩ := frame_inj (Nat.lt_of_le_of_lt short (by decide)) small whole
    cases events' with
    | cons next later => cases (List.append_eq_nil_iff.mp nothing).1
    | nil =>
      have env : event.input.env = first.env := by
        rw [List.map_singleton, List.map_cons, List.cons_prefix_cons] at surrounded
        exact surrounded.1
      have input : event.input = commandOf first.env (cmd, req) := by
        rw [← sameCmd, ← sameBody, ← env, commandOf, ← capacity]
      rw [List.map_singleton, input, Machine.run_singleton] at ran
      rw [List.map_singleton, input, Machine.reached_singleton] at reached
      cases ran
      rw [List.flatMap_singleton] at most
      exact .inr ⟨rfl, congrArg Prod.fst reached, most⟩

end

/-- What a call leaves behind: nothing at all, or the command run and perhaps its answer. -/
theorem exchange_cases (crypto : Crypto) (idles : Bool) {rspMax : Nat} (room : rspMax < 65536)
    (connection : Connection) (cmd : UInt8)
    {req : Bytes} (small : req.length < 65536) (ctx : Ctx) :
    exchange crypto idles rspMax connection cmd req ctx = (none, ctx) ∨
      ∃ answer, (exchange crypto idles rspMax connection cmd req ctx) =
          (answer, ((authenticator crypto).event ctx (commandOf connection.first.env (cmd, req))).after) ∧
        (answer = none ∨ answer = response
        ((authenticator crypto).event ctx (commandOf connection.first.env (cmd, req))).outcome) := by
  unfold exchange
  split
  · obtain ⟨written, rest, out, whole, done, same⟩ := writeFrame_spec false idles cmd req ⟨connection.writes, [], []⟩
    rcases wrote : writeFrame false idles cmd req ⟨connection.writes, [], []⟩ with ⟨sent, client⟩
    rw [wrote] at out
    have faithful := serveFrom_faithful crypto (connection.first :: connection.more) 0 ctx ⟨connection.server,
      client.outgoing, []⟩
    change Faithful crypto _ 0 ctx _ (handleClient crypto (connection.first :: connection.more) ctx ⟨connection.server,
      client.outgoing, []⟩)
      at faithful
    have front : frame cmd req = client.outgoing ++ rest := by
      rw [whole]
      exact congrArg (· ++ rest) (show written = client.outgoing by rw [out, List.nil_append])
    dsimp only
    generalize handleClient crypto (connection.first :: connection.more) ctx ⟨connection.server, client.outgoing, []⟩ =
      served at faithful
    rcases served_once faithful small front rfl with ⟨-, same, silent⟩ | ⟨-, same, said⟩
    · refine .inl ?_
      rw [same]
      cases sent with
      | error problem => rfl
      | ok value =>
        dsimp only
        split
        · rfl
        next framed left read =>
          obtain ⟨there, -⟩ := readFrame_ok read
          rw [silent] at there
          cases there
    · rw [same]
      cases sent with
      | error problem => exact .inr ⟨none, rfl, .inl rfl⟩
      | ok value =>
        dsimp only
        split
        · exact .inr ⟨none, rfl, .inl rfl⟩
        next framed left read =>
          obtain ⟨there, fits⟩ := readFrame_ok read
          obtain ⟨lost, whole⟩ := said
          refine .inr ⟨some framed, rfl, .inr ?_⟩
          rw [show served.socket.outgoing = _ from there] at whole
          unfold Answered at whole
          split at whole
          · cases whole
          next status payload answer =>
            have short := response_length answer
            rw [List.append_assoc, ← List.append_nil (frame status payload)] at whole
            obtain ⟨first, second, -⟩ := frame_inj (Nat.lt_of_le_of_lt fits room)
              (Nat.lt_of_le_of_lt short (show hiyaFido2MaxMsg < 65536 by decide)) whole
            rw [answer]
            exact congrArg some (Prod.ext first second)
  · exact .inl rfl

/-- Where nothing fails the answer of the authenticator comes back. -/
theorem exchange_willing (crypto : Crypto) {idles : Bool} {rspMax : Nat} (room : hiyaFido2MaxMsg ≤ rspMax)
    (connection : Connection) (cmd : UInt8)
    {req : Bytes} (small : req.length ≤ hiyaFido2MaxMsg) (willing : connection.Willing idles rspMax req) (ctx : Ctx) :
    exchange crypto idles rspMax connection cmd req ctx =
      (response ((authenticator crypto).event ctx (commandOf connection.first.env (cmd, req))).outcome,
        ((authenticator crypto).event ctx (commandOf connection.first.env (cmd, req))).after) := by
  obtain ⟨answers, wrote, -⟩ := writeFrame_carried { answers := connection.writes, incoming := [], outgoing := [] }
    cmd req willing.writes (Nat.le_refl _)
  have faithful := serveFrom_faithful crypto (connection.first :: connection.more) 0 ctx ⟨connection.server,
    frame cmd req, []⟩
  obtain ⟨ran, said⟩ := serveFrom_in_full crypto [connection.first] connection.more [(cmd, req)] 0 ctx
    ⟨connection.server, frame cmd req, []⟩ (show _ = spoken [(cmd, req)] ++ [] by simp [spoken]) (.inr rfl)
    (List.forall_mem_singleton.mpr small)
      (show 0 + 1 ≤ maxRequestsPerClient by decide) rfl (List.forall_mem_singleton.mpr willing.running)
    (by simpa [spoken] using willing.server)
  unfold exchange
  rw [if_pos willing.connects, wrote]
  dsimp only
  rw [List.nil_append]
  change Faithful crypto _ 0 ctx _ (handleClient crypto (connection.first :: connection.more) ctx _) at faithful
  change (handleClient crypto (connection.first :: connection.more) ctx _).events = _ at ran
  change (handleClient crypto (connection.first :: connection.more) ctx _).socket.outgoing =
    _ ++ (handleClient crypto (connection.first :: connection.more) ctx _).events.flatMap Answered at said
  generalize handleClient crypto (connection.first :: connection.more) ctx ⟨connection.server, frame cmd req, []⟩ =
    served at faithful ran said
  have reached := faithful.reached
  rw [List.zipWith_cons_cons, List.zipWith_nil_left, Machine.run_singleton] at ran
  rw [ran, List.map_singleton] at reached
  rw [ran, List.flatMap_singleton, List.nil_append] at said
  have after : served.ctx = ((authenticator crypto).event ctx (commandOf connection.first.env (cmd, req))).after := by
    rw [show ((authenticator crypto).event ctx (commandOf connection.first.env (cmd, req))).input =
      commandOf connection.first.env (cmd, req)
      from rfl, Machine.reached_singleton] at reached
    exact congrArg Prod.fst reached
  rw [after, said, Answered]
  cases answer : response ((authenticator crypto).event ctx (commandOf connection.first.env (cmd, req))).outcome with
  | none =>
    dsimp only
    split
    · rfl
    next framed left read =>
      obtain ⟨there, -⟩ := readFrame_ok read
      cases there
  | some reply =>
    obtain ⟨status, payload⟩ := reply
    have short : payload.length ≤ hiyaFido2MaxMsg := response_length answer
    obtain ⟨left, read, -⟩ := readFrame_carried
      { answers := connection.reads, incoming := frame status payload, outgoing := [] }
      (show _ = frame status payload ++ [] from (List.append_nil _).symm) (short.trans room)
      (Nat.lt_of_le_of_lt short (show hiyaFido2MaxMsg < 65536 by decide)) willing.reads (by omega)
    dsimp only
    rw [read]

theorem sendRecv_step (crypto : Crypto) (connection : Connection) (cmd : UInt8) (req : Bytes) (ctx : Ctx) (answers : Bool) :
    fido2SendRecv crypto { delivers := true, answers, env := connection.first.env } cmd req ctx =
      ((match response ((authenticator crypto).event ctx (commandOf connection.first.env (cmd, req))).outcome with
        | some (status, rsp) => if status = 0 ∧ answers then .ok rsp else .error ()
        | none => .error ()), ((authenticator crypto).event ctx (commandOf connection.first.env (cmd, req))).after) := by
  have step : process crypto { cmd, body := req, capacity := maxMsg, env := connection.first.env } ctx =
      (((authenticator crypto).event ctx (commandOf connection.first.env (cmd, req))).outcome,
        ((authenticator crypto).event ctx (commandOf connection.first.env (cmd, req))).after) := rfl
  generalize (authenticator crypto).event ctx (commandOf connection.first.env (cmd, req)) = event at step
  unfold fido2SendRecv
  rw [if_pos rfl, Proc.bind_apply, Proc.orFail, step]
  cases event.outcome with
  | error problem => cases problem <;> rfl
  | ok reply =>
    cases answers with
    | true => cases reply <;> rfl
    | false => cases reply <;> rfl

/-- The two ends of a connection are a link that loses what the socket loses, and a link
that loses nothing where the socket does not fail. -/
theorem socket_is_a_link (crypto : Crypto) (connection : Connection) (cmd : UInt8) (req : Bytes)
    (small : req.length ≤ maxMsg) (ctx : Ctx) :
    (∃ delivers answers, sendRecv crypto connection cmd req ctx =
      fido2SendRecv crypto { delivers, answers, env := connection.first.env } cmd req ctx) ∧
    (connection.Willing true maxMsg req → sendRecv crypto connection cmd req ctx =
      fido2SendRecv crypto { delivers := true, answers := true, env := connection.first.env } cmd req ctx) := by
  constructor
  · unfold sendRecv
    rcases exchange_cases crypto true (show maxMsg < 65536 by decide) connection cmd
      (Nat.lt_of_le_of_lt small (by decide)) ctx with
      nothing | ⟨answer, same, known⟩
    · exact ⟨false, false, by rw [nothing]; rfl⟩
    · rcases known with rfl | known
      · refine ⟨true, false, ?_⟩
        rw [same, sendRecv_step]
        cases response ((authenticator crypto).event ctx (commandOf connection.first.env (cmd, req))).outcome with
        | none => rfl
        | some answer => simp
      · refine ⟨true, true, ?_⟩
        rw [same, sendRecv_step, known]
        cases response ((authenticator crypto).event ctx (commandOf connection.first.env (cmd, req))).outcome with
        | none => rfl
        | some answer => by_cases done : answer.1 = 0 <;> simp [done]
  · intro willing
    unfold sendRecv
    rw [exchange_willing crypto (Nat.le_refl maxMsg) connection cmd small willing ctx, sendRecv_step]
    cases response ((authenticator crypto).event ctx (commandOf connection.first.env (cmd, req))).outcome with
    | none => rfl
    | some answer => by_cases done : answer.1 = 0 <;> simp [done]

/-- A connection on which one turn is taken and so many bytes move one by one. -/
def bytewise (count : Nat) (env : Env) : Connection where
  connects := true
  writes := List.replicate count (.moved 1)
  reads := List.replicate count (.moved 1)
  server := List.replicate count (.moved 1)
  first := { running := true, env }
  more := []

theorem bytewise_willing {count : Nat} (env : Env) (idles : Bool) {rspMax : Nat} {req : Bytes} (room : rspMax + 3 ≤ count)
    (enough : hiyaFido2MaxMsg + 3 + (req.length + 3) ≤ count) : (bytewise count env).Willing idles rspMax req where
  connects := rfl
  running := rfl
  writes := (carries_replicate false idles count 0).mono (by omega)
  server := (carries_replicate true false count 0).mono enough
  reads := (carries_replicate false false count 0).mono room

theorem socket_is_a_link_bytewise : sendRecv tagCipher (bytewise 5000 (plainEnv 0)) 0x0B [] (plainCtx false) =
    fido2SendRecv tagCipher { delivers := true, answers := true, env := plainEnv 0 } 0x0B [] (plainCtx false) :=
  (socket_is_a_link tagCipher (bytewise 5000 (plainEnv 0)) 0x0B [] (Nat.zero_le _) (plainCtx false)).2
    (bytewise_willing (plainEnv 0) true (by decide) (by decide))

/-- A call of the portal runs its command once at the most, and what it returns came of
that; it runs and returns where the socket does not fail. -/
theorem portal_runs_once (crypto : Crypto) (connection : Connection) (cmd : UInt8) (req : Bytes) (ctx : Ctx) :
    (portalCtap2Call crypto connection cmd req ctx = (none, ctx) ∨
      req.length ≤ portalMaxMsg ∧ ∃ answer, portalCtap2Call crypto connection cmd req ctx =
          (answer, ((authenticator crypto).event ctx (commandOf connection.first.env (cmd, req))).after) ∧
        (answer = none ∨ answer = response
        ((authenticator crypto).event ctx (commandOf connection.first.env (cmd, req))).outcome)) ∧
    (req.length ≤ portalMaxMsg → connection.Willing false portalMaxMsg req →
      portalCtap2Call crypto connection cmd req ctx =
        (response ((authenticator crypto).event ctx (commandOf connection.first.env (cmd, req))).outcome,
          ((authenticator crypto).event ctx (commandOf connection.first.env (cmd, req))).after)) := by
  unfold portalCtap2Call
  have sizes : portalMaxMsg = 4096 := rfl
  constructor
  · split
    · exact .inl rfl
    next fits =>
      rcases exchange_cases crypto false (show portalMaxMsg < 65536 by decide) connection cmd
        (show req.length < 65536 by omega) ctx with
        nothing | known
      · exact .inl nothing
      · exact .inr ⟨by omega, known⟩
  · intro small willing
    rw [if_neg (by omega)]
    exact exchange_willing crypto (Nat.le_refl portalMaxMsg) connection cmd small willing ctx

end Hiya.Ssh
