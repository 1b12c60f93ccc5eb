import Hiya.Library.Ends
import Hiya.Tpm.Unmarshal

/-! What a TPM may answer. Whatever bytes come, no step of reading them passes their end, no copy
passes the end of the buffer it goes to, and every loop over them ends. -/

namespace Hiya.Tpm
open Library

variable {α β : Type}

structure Inside (u : Unmarshal) : Prop where
  reached : u.offset ≤ u.size
  held : u.size ≤ u.buf.length

theorem inside_init {buf : Bytes} {size : Nat} (held : size ≤ buf.length) : Inside (unmarshalInit buf size) :=
  ⟨Nat.zero_le _, held⟩

theorem Inside.raise {u : Unmarshal} (inside : Inside u) : Inside u.raise := ⟨inside.reached, inside.held⟩

theorem Inside.advance {u : Unmarshal} {count : Nat} (inside : Inside u) (fits : u.offset + count ≤ u.size) :
    Inside (u.advance count) :=
  ⟨fits, inside.held⟩

def Faultless (outcome : Except Stop α) : Prop := ∀ fault, outcome ≠ .error (.fault fault)

theorem faultless_ok (value : α) : Faultless (.ok value) := fun _ => nofun

theorem faultless_code (code : TpmCode) : Faultless (.error (.code code) : Except Stop α) := fun _ => nofun

theorem Faultless.error {problem : Stop} (faultless : Faultless (.error problem : Except Stop α)) :
    Faultless (.error problem : Except Stop β) :=
  fun fault same => faultless fault (congrArg Except.error (Except.error.inj same))

/-- A part of reading that stays inside and never ends in a fault. -/
def Sound (body : Unmarshalling α) : Prop :=
  ∀ u, Inside u → body.Ends u fun outcome reached => Inside reached ∧ Faultless outcome

namespace Sound

protected theorem pure (value : α) : Sound (pure value) := fun _ inside => ⟨inside, faultless_ok value⟩

protected theorem code (code : TpmCode) : Sound (Proc.fail (.code code) : Unmarshalling α) :=
    fun _ inside => ⟨inside, faultless_code code⟩

protected theorem bind {first : Unmarshalling α} {next : α → Unmarshalling β} (head : Sound first)
    (tail : ∀ value, Sound (next value)) :
    Sound (first >>= next) := by
  intro u inside
  refine .bind ((head u inside).mono fun outcome reached ends => ?_)
  obtain ⟨kept, faultless⟩ := ends
  cases outcome with
  | ok value => exact tail value reached kept
  | error problem => exact ⟨kept, faultless.error⟩

protected theorem get {next : Unmarshal → Unmarshalling α}
    (rest : ∀ u, Inside u → (next u).Ends u fun outcome reached => Inside reached ∧ Faultless outcome) :
    Sound (Proc.get >>= next) :=
  fun u inside => .get (rest u inside)

protected theorem ite {wrong : Prop} [Decidable wrong] {first second : Unmarshalling α} (yes : Sound first)
    (no : Sound second) :
    Sound (if wrong then first else second) := by
  split
  · exact yes
  · exact no

protected theorem repeatWith {body : α → Unmarshalling α} (each : ∀ acc, Sound (body acc)) (count : Nat) :
    ∀ acc, Sound (Proc.repeatWith count body acc) := by
  induction count with
  | zero => exact fun acc => .pure acc
  | succ count ih => exact fun acc => .bind (each acc) ih

end Sound

theorem byteAt_eq {u : Unmarshal} {index : Nat} (within : index < u.buf.length) : byteAt index u = (.ok u.buf[index], u) := by
  simp only [byteAt, Proc.bind_apply, Proc.get_apply, List.getElem?_eq_getElem within, Proc.pure_apply]

theorem bytesAt_eq {u : Unmarshal} {count : Nat} :
    ∀ {start : Nat}, start + count ≤ u.buf.length → bytesAt start count u = (.ok ((u.buf.drop start).take count), u) := by
  induction count with
  | zero =>
    intro start _
    rw [List.take_zero]
    rfl
  | succ count ih =>
    intro start within
    have here : start < u.buf.length := by omega
    have behind : start + 1 + count ≤ u.buf.length := by omega
    rw [bytesAt, Proc.bind_of_ok (byteAt_eq here), Proc.bind_of_ok (ih behind), List.drop_eq_getElem_cons here,
      List.take_succ_cons]
    rfl

theorem copyOut_eq {u : Unmarshal} {room len : Nat} (within : u.offset + len ≤ u.buf.length) (fits : len ≤ room) :
    copyOut room len u = (.ok ((u.buf.drop u.offset).take len), u) := by
  simp only [copyOut, Proc.bind_apply, Proc.get_apply, bytesAt_eq within, if_neg (Nat.not_lt.mpr fits), Proc.pure_apply]

/-- A number that is read where it is there, and a flag that is raised where it is not. -/
theorem unmarshalBe_eq {u : Unmarshal} (inside : Inside u) (width : Nat) :
    unmarshalBe width u = if u.error ∨ u.size < u.offset + width then (.ok 0, u.raise)
      else (.ok (beNat ((u.buf.drop u.offset).take width)), u.advance width) := by
  simp only [unmarshalBe, Proc.bind_apply, Proc.get_apply]
  split
  · rfl
  · rename_i there
    have within : u.offset + width ≤ u.buf.length := (Nat.not_lt.mp fun short => there (.inr short)).trans inside.held
    rw [Proc.bind_of_ok (bytesAt_eq within)]
    rfl

theorem unmarshalBe_sound (width : Nat) : Sound (unmarshalBe width) := by
  intro u inside
  unfold Proc.Ends
  rw [unmarshalBe_eq inside]
  split
  · exact ⟨inside.raise, faultless_ok _⟩
  · rename_i there
    exact ⟨inside.advance (Nat.not_lt.mp fun short => there (.inr short)), faultless_ok _⟩

theorem unmarshalBytes_eq {u : Unmarshal} {room len : Nat} (inside : Inside u) (fits : len ≤ room) :
    unmarshalBytes room len u = if u.error ∨ u.size < u.offset + len then (.ok [], u.raise)
      else (.ok ((u.buf.drop u.offset).take len), u.advance len) := by
  simp only [unmarshalBytes, Proc.bind_apply, Proc.get_apply]
  split
  · rfl
  · rename_i there
    have within : u.offset + len ≤ u.buf.length := (Nat.not_lt.mp fun short => there (.inr short)).trans inside.held
    rw [Proc.bind_of_ok (copyOut_eq within fits)]
    rfl

theorem unmarshalBytes_sound {room len : Nat} (fits : len ≤ room) : Sound (unmarshalBytes room len) := by
  intro u inside
  unfold Proc.Ends
  rw [unmarshalBytes_eq inside fits]
  split
  · exact ⟨inside.raise, faultless_ok _⟩
  · rename_i there
    exact ⟨inside.advance (Nat.not_lt.mp fun short => there (.inr short)), faultless_ok _⟩

theorem unmarshalTpm2b_sound {room outCap : Nat} (fits : outCap ≤ room) : Sound (unmarshalTpm2b room outCap) := by
  refine .bind (unmarshalBe_sound 2) fun size => .get fun u inside => .ite (fun _ => ⟨inside, faultless_ok _⟩) fun _ =>
    .ite (fun _ => ⟨inside.raise, faultless_ok _⟩) fun there => ?_
  have small : size ≤ outCap := Nat.not_lt.mp fun large => there (.inl large)
  have enough : u.offset + size ≤ u.size := Nat.not_lt.mp fun short => there (.inr short)
  refine .ite (fun _ => .bind ?_) fun _ => ⟨inside.advance enough, faultless_ok _⟩
  rw [Proc.Ends, copyOut_eq (enough.trans inside.held) (small.trans fits)]
  exact ⟨inside.advance enough, faultless_ok _⟩

theorem unmarshalSkip_sound (count : Nat) : Sound (unmarshalSkip count) :=
  .get fun _ inside => .ite (fun _ => ⟨inside.raise, faultless_ok _⟩) fun there =>
    ⟨inside.advance (Nat.not_lt.mp fun short => there (.inr short)), faultless_ok _⟩

theorem checkCursor_sound (wrong : Prop) [Decidable wrong] (code : TpmCode) : Sound (checkCursor wrong code) :=
  .get fun _ inside => .ite (fun _ => ⟨inside, faultless_code code⟩) fun _ => ⟨inside, faultless_ok _⟩

/-- The second cursor leaves the first one alone. -/
theorem onPart_ends {body : Unmarshalling α} (sound : Sound body) {u : Unmarshal} {len : Nat} (inside : Inside u)
    (within : u.offset + len ≤ u.size) : (onPart len body).Ends u fun outcome reached => Inside reached ∧
    Faultless outcome := by
  have held : len ≤ (u.buf.drop u.offset).length := by
    have := inside.held
    rw [List.length_drop]
    omega
  exact ⟨inside, (sound _ (inside_init held)).2⟩

theorem rspHeader_sound : Sound rspHeader :=
  .bind (unmarshalBe_sound 2) fun _ => .bind (unmarshalBe_sound 4) fun _ => .bind (unmarshalBe_sound 4) fun _ =>
    .bind (checkCursor_sound _ _) fun _ => .pure _

theorem rspHandle_sound : Sound rspHandle :=
  .bind (unmarshalBe_sound 4) fun _ => .bind (checkCursor_sound _ _) fun _ => .pure _

theorem rspGetRandom_sound {request room : Nat} (fits : request ≤ room) : Sound (rspGetRandom request room) := by
  refine .bind (unmarshalBe_sound 2) fun got => .get fun u inside => ?_
  split
  · exact ⟨inside, faultless_code _⟩
  · rename_i wanted
    have small : got ≤ request := Nat.not_lt.mp fun large => wanted (.inr (.inr large))
    have rest : Sound (unmarshalBytes room got) := unmarshalBytes_sound (small.trans fits)
    exact (rest.bind fun _ => .bind (checkCursor_sound _ _) fun _ => .pure _) u inside

theorem skipSelection_sound : Sound skipSelection :=
  .bind (unmarshalBe_sound 2) fun _ => .bind (unmarshalBe_sound 1) fun size => unmarshalSkip_sound size

theorem rspPcrRead_sound : Sound rspPcrRead :=
  .bind (unmarshalBe_sound 4) fun _ => .bind (unmarshalBe_sound 4) fun count =>
    .bind (.repeatWith (fun _ => skipSelection_sound) count ()) fun _ =>
      .bind (unmarshalBe_sound 4) fun _ => .ite (.code _) (.bind (unmarshalBe_sound 2) fun _ => .ite (.code _)
        (.bind (unmarshalBytes_sound le_rfl) fun _ => .bind (checkCursor_sound _ _) fun _ => .pure _))

theorem rspCreated_sound (privRoom pubRoom : Nat) : Sound (rspCreated privRoom pubRoom) :=
  .bind (unmarshalBe_sound 4) fun _ => .bind (unmarshalTpm2b_sound le_rfl) fun _ => .bind (checkCursor_sound _ _) fun _ =>
    .bind (unmarshalTpm2b_sound le_rfl) fun _ => .bind (checkCursor_sound _ _) fun _ => .pure _

theorem rspUnseal_sound (room : Nat) : Sound (rspUnseal room) :=
  .bind (unmarshalBe_sound 4) fun _ => .bind (unmarshalTpm2b_sound le_rfl) fun _ => .bind (checkCursor_sound _ _)
    fun _ => .pure _

theorem rspReadPublic_sound (room : Nat) : Sound (rspReadPublic room) :=
  .bind (unmarshalTpm2b_sound le_rfl) fun _ => .bind (checkCursor_sound _ _) fun _ => .pure _

theorem rspSession_sound : Sound rspSession :=
  .bind rspHandle_sound fun _ => .bind (unmarshalTpm2b_sound le_rfl) fun _ => .pure _

theorem rspDigest_sound : Sound rspDigest :=
  .bind (unmarshalTpm2b_sound le_rfl) fun _ => .bind (checkCursor_sound _ _) fun _ => .pure _

theorem rspPoint_sound : Sound rspPoint := by
  refine .bind (unmarshalBe_sound 2) fun _ => .bind (unmarshalBe_sound 2) fun _ => .bind (unmarshalBe_sound 4) fun _ =>
    .bind (unmarshalBe_sound 2) fun policy => .bind (unmarshalSkip_sound policy) fun _ => ?_
  iterate 4 refine .bind (unmarshalBe_sound 2) fun _ => ?_
  exact .bind (unmarshalTpm2b_sound le_rfl) fun _ => .bind (unmarshalTpm2b_sound le_rfl) fun _ =>
    .bind (checkCursor_sound _ _) fun _ => .pure _

/-- The size of the public part is looked at before it is copied and read once more. -/
theorem rspEccKey_sound (privRoom pubRoom : Nat) : Sound (rspEccKey privRoom pubRoom) := by
  refine .bind (unmarshalBe_sound 4) fun _ => .bind (unmarshalTpm2b_sound le_rfl) fun priv => .bind
    (checkCursor_sound _ _) fun _ =>
    .bind (unmarshalBe_sound 2) fun size => .get fun u inside => .ite (fun _ => ⟨inside, faultless_code _⟩) fun there =>
      .ite (fun _ => ⟨inside, faultless_code _⟩) fun fits => ?_
  have within : u.offset + size ≤ u.size := Nat.not_lt.mp fun short => there (.inr (.inr short))
  refine .bind ?_
  rw [Proc.Ends, copyOut_eq (within.trans inside.held) (Nat.not_lt.mp fits)]
  refine .bind ((onPart_ends rspPoint_sound inside within).mono fun outcome reached ends => ?_)
  obtain ⟨kept, faultless⟩ := ends
  cases outcome with
  | ok point => exact ⟨kept, faultless_ok _⟩
  | error problem => exact ⟨kept, faultless.error⟩

theorem rspSignature_sound : Sound rspSignature :=
  .bind (unmarshalBe_sound 4) fun _ => .bind (unmarshalBe_sound 2) fun _ => .bind (unmarshalBe_sound 2) fun _ =>
    .bind (unmarshalTpm2b_sound le_rfl) fun _ => .bind (unmarshalTpm2b_sound le_rfl) fun _ =>
      .bind (checkCursor_sound _ _) fun _ => .pure _

theorem rspNvRead_sound (len : Nat) : Sound (rspNvRead len) :=
  .bind (unmarshalBe_sound 4) fun _ => .bind (unmarshalTpm2b_sound le_rfl) fun _ => .bind (checkCursor_sound _ _)
    fun _ => .pure _

theorem Rsp.read_sound (rsp : Rsp) : Sound rsp.read := by
  cases rsp with
  | createPrimary | load => exact .bind rspHandle_sound fun _ => .pure _
  | pcrRead => exact .bind rspPcrRead_sound fun _ => .pure _
  | createSealed => exact .bind (rspCreated_sound _ _) fun _ => .pure _
  | unsealData => exact .bind (rspUnseal_sound _) fun _ => .pure _
  | readPublic => exact .bind (rspReadPublic_sound _) fun _ => .pure _
  | startAuthSession => exact .bind rspSession_sound fun _ => .pure _
  | policyGetDigest => exact .bind rspDigest_sound fun _ => .pure _
  | createEccKey => exact .bind (rspEccKey_sound _ _) fun _ => .pure _
  | signEcdsa => exact .bind rspSignature_sound fun _ => .pure _
  | nvRead => exact .bind (rspNvRead_sound _) fun _ => .pure _

/-- A response that is taken has as many bytes as it says, and no more than were asked for. -/
theorem rspGetRandom_length {request room : Nat} (fits : request ≤ room) {u reached : Unmarshal}
    {got : { got : Nat // 0 < got }}
    {bytes : Bytes} (inside : Inside u) (done : rspGetRandom request room u = (.ok (got, bytes), reached)) :
    bytes.length = got.1 ∧ got.1 ≤ request := by
  obtain ⟨size, behind, counted, rest⟩ := Proc.bind_eq_ok.mp done
  have kept : Inside behind := by
    have ends := unmarshalBe_sound 2 u inside
    unfold unmarshalU16 at counted
    rw [Proc.Ends, counted] at ends
    exact ends.1
  simp only [Proc.bind_apply, Proc.get_apply] at rest
  split at rest
  · cases rest
  · rename_i wanted
    have small : size ≤ request := Nat.not_lt.mp fun large => wanted (.inr (.inr large))
    obtain ⟨taken, after, copied, rest⟩ := Proc.bind_eq_ok.mp rest
    obtain ⟨_, last, checked, rest⟩ := Proc.bind_eq_ok.mp rest
    cases rest
    refine ⟨?_, small⟩
    rw [unmarshalBytes_eq kept (small.trans fits)] at copied
    split at copied
    · cases copied
      cases checked
    · rename_i there
      have within : behind.offset + size ≤ behind.buf.length :=
        (Nat.not_lt.mp fun short => there (.inr short)).trans kept.held
      cases copied
      rw [List.length_take, List.length_drop]
      dsimp only
      omega

section
variable {σ : Type} (device : Device σ)

/-- A response with a header is in the context. -/
structure Answered (ctx : Ctx σ) : Prop where
  header : 10 ≤ ctx.rsp.length
  fits : ctx.rsp.length ≤ maxPacketSize

def Answers (body : Proc (Ctx σ) Stop α) : Prop :=
  ∀ ctx, body.Ends ctx fun outcome reached =>
    Faultless outcome ∧ (∀ value, outcome = .ok value → Answered reached) ∧ (Answered ctx → Answered reached)

theorem bioTpmExecute_answers (command : Bytes) : Answers (bioTpmExecute device command) := by
  intro ctx
  unfold Proc.Ends bioTpmExecute
  rcases device.transfer command ctx.tpm with ⟨_ | _ | bytes, tpm⟩
  · exact ⟨faultless_code _, nofun, fun answered => ⟨answered.header, answered.fits⟩⟩
  · exact ⟨faultless_code _, nofun, fun answered => ⟨answered.header, answered.fits⟩⟩
  · dsimp only
    have fits : (bytes.take maxPacketSize).length ≤ maxPacketSize := List.length_take_le _ _
    split
    · rename_i short
      have same (answered : Answered ctx) :
          ((bytes.take maxPacketSize ++ ctx.rsp.drop (bytes.take maxPacketSize).length).take ctx.rsp.length).length =
            ctx.rsp.length := by
        have := answered.header
        rw [List.length_take, List.length_append, List.length_drop]
        omega
      refine ⟨faultless_code _, nofun, fun answered => ⟨?_, ?_⟩⟩
      · exact (same answered).symm ▸ answered.header
      · exact (same answered).symm ▸ answered.fits
    · rename_i long
      have answered : Answered ({ ctx with tpm, rsp := bytes.take maxPacketSize } : Ctx σ) := ⟨Nat.not_lt.mp long, fits⟩
      exact ⟨(rspHeader_sound _ (inside_init le_rfl)).2, fun _ _ => answered, fun _ => answered⟩

theorem request_answers (fields : List Field) (refusal : Nat → TpmCode) : Answers (request device fields refusal) := by
  intro ctx
  unfold request
  split
  · exact ⟨faultless_code _, nofun, id⟩
  · rename_i command _
    refine .bind ((bioTpmExecute_answers device command ctx).mono fun outcome reached ends => ?_)
    obtain ⟨faultless, arrived, kept⟩ := ends
    cases outcome with
    | ok rc =>
      exact .ite (fun _ => ⟨faultless_code _, nofun, kept⟩) fun _ => ⟨faultless_ok _, fun _ _ => arrived rc rfl, kept⟩
    | error problem =>
      exact ⟨faultless.error, nofun, kept⟩

/-- What is flushed leaves an answer where there is one. -/
theorem flushes_keep (flushed : List (List Field)) :
    Proc.Preserves Answered (Proc.each (fun fields => (request device fields fun _ => .handle).ignore) flushed :
    Proc (Ctx σ) Stop Unit) := by
  induction flushed with
  | nil => exact .pure ()
  | cons fields rest ih => exact .bind (fun ctx answered => (request_answers device fields _ ctx).2.2 answered) fun _ => ih

/-- Ten bytes are taken off the length of a response that has them. -/
theorem params_length {ctx : Ctx σ} (answered : Answered ctx) : (UInt64.ofNat ctx.rsp.length - 10).toNat =
    ctx.rsp.length - 10 := by
  have header := answered.header
  have fits := answered.fits
  unfold maxPacketSize at fits
  have length : (UInt64.ofNat ctx.rsp.length).toNat = ctx.rsp.length := Nat.mod_eq_of_lt (by omega)
  rw [UInt64.toNat_sub_of_le _ _ (by rw [UInt64.le_iff_toNat_le, length]; exact header), length]
  rfl

theorem params_inside {ctx : Ctx σ} (answered : Answered ctx) :
    Inside (unmarshalInit (ctx.rsp.drop 10) (UInt64.ofNat ctx.rsp.length - 10).toNat) := by
  apply inside_init
  rw [params_length answered, List.length_drop]

theorem onResponse_ends {body : Unmarshalling α} (sound : Sound body) {ctx : Ctx σ} (answered : Answered ctx) :
    (onResponse body).Ends ctx fun outcome _ => Faultless outcome :=
  (sound _ (params_inside answered)).2

theorem onResponse_ok {body : Unmarshalling α} {ctx reached : Ctx σ} {value : α}
    (done : onResponse body ctx = (.ok value, reached)) :
    ∃ last, body (unmarshalInit (ctx.rsp.drop 10) (UInt64.ofNat ctx.rsp.length - 10).toNat) = (.ok value, last) :=
  ⟨_, Prod.ext (Prod.mk.inj done).1 rfl⟩

/-- A command never ends in a fault while its response is read. -/
theorem exchange_faultless {body : Unmarshalling α} (sound : Sound body) (fields : List Field) (refusal : Nat → TpmCode)
    (flushed : List (List Field)) (ctx : Ctx σ) : Faultless (exchange device fields refusal flushed body ctx).1 := by
  obtain ⟨faultless, arrived, -⟩ := request_answers device fields refusal ctx
  have kept := flushes_keep device flushed
  change (exchange device fields refusal flushed body).Ends ctx fun outcome _ => Faultless outcome
  refine .bind ?_
  unfold Proc.Ends Proc.closing
  rcases came : request device fields refusal ctx with ⟨problem | value, reached⟩
  · rw [came] at faultless
    exact Faultless.error faultless
  · rw [came] at arrived
    exact onResponse_ends sound (kept reached (arrived value rfl))

/-- Every round of the loop brings something, and the loop ends with all that was asked for. -/
theorem getRandomFrom_ends (count : Nat) :
    ∀ missing total held, count - total = missing →
    ∀ ctx : Ctx σ, (getRandomFrom device count total held).Ends ctx fun outcome _ =>
      Faultless outcome ∧ ∀ bytes, outcome = .ok bytes → bytes.length = held.length + missing := by
  intro missing
  induction missing using Nat.strongRecOn with
  | ind missing ih =>
    intro total held left ctx
    unfold getRandomFrom
    refine .ite (fun some => ?_) fun none => ⟨faultless_ok _, fun bytes done => ?_⟩
    · refine .bind ((request_answers device _ _ ctx).mono fun outcome reached ends => ?_)
      obtain ⟨faultless, arrived, -⟩ := ends
      cases outcome with
      | error problem =>
        exact ⟨faultless.error, nofun⟩
      | ok value =>
        have answered := arrived value rfl
        have fits : min (count - total) 48 ≤ count - total := Nat.min_le_left _ _
        have quiet := onResponse_ends (rspGetRandom_sound fits) answered
        refine .bind ?_
        unfold Proc.Ends at quiet ⊢
        rcases came : onResponse (rspGetRandom (min (count - total) 48) (count - total))
          reached with ⟨problem | ⟨got, bytes⟩, after⟩
        · rw [came] at quiet
          exact ⟨Faultless.error quiet, nofun⟩
        · obtain ⟨last, taken⟩ := onResponse_ok came
          obtain ⟨length, small⟩ := rspGetRandom_length fits (params_inside answered) taken
          have positive := got.2
          have fewer : count - (total + got.1) < missing := by omega
          obtain ⟨faultless, all⟩ := ih _ fewer (total + got.1) (held ++ bytes) rfl after
          refine ⟨faultless, fun whole done => ?_⟩
          rw [all whole done, List.length_append, length]
          omega
    · cases done
      omega

theorem bioTpmGetRandom_ends (count : UInt16) (ctx : Ctx σ) : (bioTpmGetRandom device count).Ends ctx fun outcome _ =>
    Faultless outcome ∧ ∀ bytes, outcome = .ok bytes → bytes.length = count.toNat := by
  refine .ite (fun _ => ⟨faultless_code _, nofun⟩) fun _ => ?_
  obtain ⟨faultless, all⟩ := getRandomFrom_ends device count.toNat count.toNat 0 [] rfl ctx
  refine ⟨faultless, fun bytes done => ?_⟩
  rw [all bytes done, List.length_nil, Nat.zero_add]

/-- Every command, against every device. -/
theorem responses_stay_in_bounds (ctx : Ctx σ) :
    (∀ fields refusal flushed (rsp : Rsp), Faultless (exchange device fields refusal flushed rsp.read ctx).1) ∧
      ∀ count, Faultless (bioTpmGetRandom device count ctx).1 ∧
        ∀ bytes, (bioTpmGetRandom device count ctx).1 = .ok bytes → bytes.length = count.toNat :=
  ⟨fun fields refusal flushed rsp => exchange_faultless device rsp.read_sound fields refusal flushed ctx,
    fun count => bioTpmGetRandom_ends device count ctx⟩

end

end Hiya.Tpm
