import Hiya.Pm.Kdf
import Mathlib.Data.List.Infix

/-! Which derivation requests share the input of `H0`. The prehash buffer drops
what does not fit, so the argument is about lengths: the head always fits, and
the password and the salt both fit up to 192 bytes of password. -/

namespace Hiya.Pm.Argon2
open Library

/-- Requests that ask for the same derivation: zero fields stand for defaults. -/
def Request.normalize (request : Request) : Request := { request with params := request.params.normalize }

/-- The request is accepted, and `input` is the byte string it hashes into `H0`. -/
def Hashes (request : Request) (input : Bytes) : Prop :=
  deriveInitialHash (fun bytes _ => bytes) request = .ok input

def fit (bytes source : Bytes) : Bytes :=
  if bytes.length + source.length ≤ prehashCapacity then bytes ++ source else bytes

theorem fit_drops {bytes source : Bytes} (full : prehashCapacity < bytes.length + source.length) :
    fit bytes source = bytes := if_neg (Nat.not_le.mpr full)

theorem prefix_fit (bytes source : Bytes) : bytes <+: fit bytes source := by
  unfold fit
  split
  · exact List.prefix_append bytes source
  · exact List.prefix_refl bytes

theorem fit_bounded {bytes : Bytes} (source : Bytes) (bounded : bytes.length ≤ prehashCapacity) :
    (fit bytes source).length ≤ prehashCapacity := by
  unfold fit
  split
  next room => simpa using room
  next => exact bounded

theorem foldl_fit (parts : List Bytes) (bytes : Bytes)
    (room : bytes.length + parts.flatten.length ≤ prehashCapacity) :
    parts.foldl fit bytes = bytes ++ parts.flatten := by
  induction parts generalizing bytes with
  | nil => simp
  | cons part rest ih =>
    rw [List.flatten_cons, List.length_append] at room
    have kept : fit bytes part = bytes ++ part := if_pos (by omega)
    rw [List.foldl_cons, kept, ih _ (by rw [List.length_append]; omega), List.flatten_cons, List.append_assoc]

theorem foldl_appendBytes (parts : List Bytes) (bytes : Bytes) :
    parts.foldl PmBuf.appendBytes ⟨bytes, prehashCapacity⟩ = ⟨parts.foldl fit bytes, prehashCapacity⟩ := by
  induction parts generalizing bytes with
  | nil => rfl
  | cons part rest ih =>
    have step : (PmBuf.mk bytes prehashCapacity).appendBytes part = ⟨fit bytes part, prehashCapacity⟩ := by
      unfold PmBuf.appendBytes fit
      split <;> rfl
    rw [List.foldl_cons, step, ih, List.foldl_cons]

def headWords (length : Nat) (params : Params) : List Bytes :=
  [params.parallelism.toNat, keySize, params.mCostKib.toNat, params.tCost.toNat, params.version.toNat, typeId.toNat,
    length].map (leBytes 4)

def prehashHead (length : Nat) (params : Params) : Bytes := (headWords length params).flatten

@[simp] theorem prehashHead_length (length : Nat) (params : Params) : (prehashHead length params).length = 28 := by
  simp [prehashHead, headWords]

theorem leBytes_word_inj {first second : Nat} (same : leBytes 4 first = leBytes 4 second) :
    first % 2 ^ 32 = second % 2 ^ 32 := by
  have numbers := congrArg leNat same
  rw [leNat_leBytes, leNat_leBytes] at numbers
  exact numbers

theorem leBytes_uint32_inj {first second : UInt32} (same : leBytes 4 first.toNat = leBytes 4 second.toNat) :
    first = second :=
  UInt32.toNat_inj.mp (leBytes_inj first.toNat_lt second.toNat_lt same)

theorem prehashHead_inj {length other : Nat} {params others : Params}
    (same : prehashHead length params = prehashHead other others) :
    params = others ∧ length % 2 ^ 32 = other % 2 ^ 32 := by
  simp only [prehashHead, headWords, List.map_cons, List.map_nil, List.flatten_cons, List.flatten_nil] at same
  obtain ⟨lanes, same⟩ := List.append_inj same (by simp)
  obtain ⟨-, same⟩ := List.append_inj same (by simp)
  obtain ⟨memories, same⟩ := List.append_inj same (by simp)
  obtain ⟨times, same⟩ := List.append_inj same (by simp)
  obtain ⟨versions, same⟩ := List.append_inj same (by simp)
  obtain ⟨-, same⟩ := List.append_inj same (by simp)
  obtain ⟨lengths, -⟩ := List.append_inj same (by simp)
  refine ⟨?_, leBytes_word_inj lengths⟩
  cases params
  cases others
  simp only [Params.mk.injEq]
  exact ⟨leBytes_uint32_inj times, leBytes_uint32_inj memories, leBytes_uint32_inj lanes,
    leBytes_uint32_inj versions⟩

/-- The two empty optional fields behind the salt, as far as they fit. -/
def closed (bytes : Bytes) : Bytes := fit (fit bytes (leBytes 4 0)) (leBytes 4 0)

theorem assemblePrehash_parts (password : Bytes) (salt : Buf saltSize) (params : Params) :
    assemblePrehash password salt params =
      ⟨(headWords password.length params ++ [password, leBytes 4 saltSize, salt.bytes, leBytes 4 0, leBytes 4 0]).foldl
        fit [], prehashCapacity⟩ := by
  rw [← foldl_appendBytes]
  rfl

/-- The overflow check of `argon2_initial_hash` never fires. -/
theorem assemblePrehash_bounded (password : Bytes) (salt : Buf saltSize) (params : Params) :
    (assemblePrehash password salt params).bytes.length ≤ (assemblePrehash password salt params).cap := by
  have folded (parts : List Bytes) : (parts.foldl fit []).length ≤ prehashCapacity :=
    List.foldlRecOn (motive := fun bytes => bytes.length ≤ prehashCapacity) parts fit (Nat.zero_le _)
      fun _ bounded part _ => fit_bounded part bounded
  rw [assemblePrehash_parts]
  exact folded _

theorem assemblePrehash_eq (password : Bytes) (salt : Buf saltSize) (params : Params) :
    (assemblePrehash password salt params).bytes =
      closed (fit (fit (fit (prehashHead password.length params) password) (leBytes 4 saltSize)) salt.bytes) := by
  have head : (headWords password.length params).foldl fit [] = prehashHead password.length params := by
    rw [foldl_fit, List.nil_append, prehashHead]
    rw [← prehashHead, prehashHead_length]
    decide
  rw [assemblePrehash_parts, List.foldl_append, head]
  rfl

variable {password : Bytes} {salt : Buf saltSize} {params : Params}

private theorem salt_length (salt : Buf saltSize) : salt.bytes.length = 32 := salt.length_bytes

/-- Up to 192 bytes of password the password and the salt are both there. -/
theorem assemblePrehash_short (short : password.length ≤ 192) :
    (assemblePrehash password salt params).bytes =
      closed (prehashHead password.length params ++ (password ++ (leBytes 4 saltSize ++ salt.bytes))) := by
  have kept := foldl_fit [password, leBytes 4 saltSize, salt.bytes] (prehashHead password.length params)
    (by simp only [prehashCapacity, prehashHead_length, List.flatten_cons, List.flatten_nil, List.length_append,
      leBytes_length, salt_length, List.length_nil]; omega)
  rw [assemblePrehash_eq]
  simpa using congrArg closed kept

/-- From 193 to 228 bytes the password still fits and the salt does not. -/
theorem assemblePrehash_middle (long : 192 < password.length) (fits : password.length ≤ 228) (other : Buf saltSize) :
    (assemblePrehash password salt params).bytes = (assemblePrehash password other params).bytes := by
  have salted (key : Buf saltSize) : (assemblePrehash password key params).bytes =
      closed (fit (fit (prehashHead password.length params) password) (leBytes 4 saltSize)) := by
    have kept : fit (prehashHead password.length params) password = prehashHead password.length params ++ password :=
      if_pos (by rw [prehashHead_length, prehashCapacity]; omega)
    rw [assemblePrehash_eq, kept, fit_drops]
    rw [fit, List.length_append, prehashHead_length, leBytes_length, salt_length, prehashCapacity]
    split <;> simp only [List.length_append, prehashHead_length, leBytes_length] <;> omega
  rw [salted, salted]

/-- Beyond 228 bytes only the length of the password is left. -/
theorem assemblePrehash_long (long : 228 < password.length) :
    (assemblePrehash password salt params).bytes =
      closed (prehashHead password.length params ++ (leBytes 4 saltSize ++ salt.bytes)) := by
  have kept := foldl_fit [leBytes 4 saltSize, salt.bytes] (prehashHead password.length params)
    (by simp only [prehashCapacity, prehashHead_length, List.flatten_cons, List.flatten_nil, List.length_append,
      leBytes_length, salt_length, List.length_nil]; omega)
  have dropped : fit (prehashHead password.length params) password = prehashHead password.length params :=
    fit_drops (by rw [prehashHead_length, prehashCapacity]; omega)
  rw [assemblePrehash_eq, dropped]
  simpa using congrArg closed kept

theorem closed_grows (bytes : Bytes) :
    ∃ zeros, closed bytes = bytes ++ zeros ∧
      zeros.length = if bytes.length + 8 ≤ 256 then 8 else if bytes.length + 4 ≤ 256 then 4 else 0 := by
  simp only [closed, fit, leBytes_length, prehashCapacity]
  by_cases one : bytes.length + 4 ≤ 256
  · rw [if_pos one, List.length_append, leBytes_length, Nat.add_assoc]
    by_cases both : bytes.length + 8 ≤ 256
    · exact ⟨leBytes 4 0 ++ leBytes 4 0, by rw [if_pos both, List.append_assoc], by simp [both]⟩
    · exact ⟨leBytes 4 0, by rw [if_neg both], by simp [both, one]⟩
  · exact ⟨[], by rw [if_neg one, if_neg one, List.append_nil], by rw [if_neg one, if_neg (by omega), List.length_nil]⟩

theorem validateParams_ok {given params : Params} (valid : validateParams given = .ok params) :
    params = given.normalize := by
  simp only [validateParams] at valid
  split_ifs at valid
  cases valid
  rfl

theorem hashes_iff (request : Request) (input : Bytes) :
    Hashes request input ↔ request.password.length ≠ 0 ∧ validateParams request.params = .ok request.params.normalize ∧
      input = (assemblePrehash request.password request.salt request.params.normalize).bytes := by
  have bounded (params : Params) : initialHash (fun bytes _ => bytes) request.password request.salt params =
      .ok (assemblePrehash request.password request.salt params).bytes :=
    if_neg (Nat.not_lt.mpr (assemblePrehash_bounded _ _ _))
  simp only [Hashes, deriveInitialHash]
  by_cases empty : request.password.length = 0
  · simp only [empty, if_true, ne_eq, not_true_eq_false, false_and, iff_false]
    intro same
    cases same
  · cases valid : validateParams request.params with
    | error code => simp [empty, bind, Except.bind]
    | ok params =>
      obtain rfl := validateParams_ok valid
      simp [empty, bind, Except.bind, bounded, eq_comm]

theorem prehashHead_prefix (password : Bytes) (salt : Buf saltSize) (params : Params) :
    prehashHead password.length params <+: (assemblePrehash password salt params).bytes := by
  rw [assemblePrehash_eq]
  exact (prefix_fit _ _).trans <| (prefix_fit _ _).trans <| (prefix_fit _ _).trans <|
    (prefix_fit _ _).trans (prefix_fit _ _)

/-- Whatever hashes to the input of a short password is the same request. -/
theorem hashes_inj {request other : Request} {input : Bytes} (accepted : Hashes request input)
    (short : request.password.length ≤ 192) (again : Hashes other input) : other.normalize = request.normalize := by
  obtain ⟨filled, -, shape⟩ := (hashes_iff _ _).mp accepted
  obtain ⟨-, -, same⟩ := (hashes_iff _ _).mp again
  rw [shape] at same
  obtain ⟨rest, front⟩ := prehashHead_prefix request.password request.salt request.params.normalize
  obtain ⟨others, otherFront⟩ := prehashHead_prefix other.password other.salt other.params.normalize
  have heads := (List.append_inj (front.trans (same.trans otherFront.symm)) (by simp)).1
  obtain ⟨params, lengths⟩ := prehashHead_inj heads
  obtain ⟨zeros, whole, few⟩ := closed_grows (prehashHead request.password.length request.params.normalize ++
    (request.password ++ (leBytes 4 saltSize ++ request.salt.bytes)))
  rw [assemblePrehash_short short, whole] at same
  by_cases long : 228 < other.password.length
  · -- Only the length is left of the other password: its input is 72 bytes long.
    obtain ⟨ending, tail, size⟩ := closed_grows (prehashHead other.password.length other.params.normalize ++
      (leBytes 4 saltSize ++ other.salt.bytes))
    rw [assemblePrehash_long long, tail] at same
    have total := congrArg List.length same
    simp only [List.length_append, prehashHead_length, leBytes_length, salt_length] at total few size
    split_ifs at few size <;> omega
  · have count : request.password.length = other.password.length := by omega
    obtain ⟨zeros', whole', -⟩ := closed_grows (prehashHead other.password.length other.params.normalize ++
      (other.password ++ (leBytes 4 saltSize ++ other.salt.bytes)))
    rw [assemblePrehash_short (count ▸ short), whole', heads] at same
    simp only [List.append_assoc, List.append_cancel_left_eq] at same
    obtain ⟨passwords, same⟩ := List.append_inj same count
    rw [List.append_cancel_left_eq] at same
    have salts := (List.append_inj same (by simp)).1
    simp only [Request.normalize, Request.mk.injEq]
    exact ⟨passwords.symm, Buf.ext salts.symm, params.symm⟩

/-- A short password and its salt are both in the input. -/
theorem hashes_keeps {request : Request} {input : Bytes} (accepted : Hashes request input)
    (short : request.password.length ≤ 192) : request.password <:+: input ∧ request.salt.bytes <:+: input := by
  obtain ⟨-, -, shape⟩ := (hashes_iff _ _).mp accepted
  rw [assemblePrehash_short short] at shape
  obtain ⟨zeros, whole, -⟩ := closed_grows (prehashHead request.password.length request.params.normalize ++
    (request.password ++ (leBytes 4 saltSize ++ request.salt.bytes)))
  rw [shape, whole]
  refine ⟨⟨prehashHead request.password.length request.params.normalize, leBytes 4 saltSize ++ request.salt.bytes ++ zeros,
    by simp⟩, ⟨prehashHead request.password.length request.params.normalize ++ request.password ++ leBytes 4 saltSize,
    zeros, by simp⟩⟩

private theorem other_salt (salt : Buf saltSize) : ∃ other : Buf saltSize, other ≠ salt := by
  by_cases zero : Buf.zero saltSize = salt
  · refine ⟨Buf.ofBytes (List.replicate saltSize 1) List.length_replicate, fun same => ?_⟩
    exact absurd (zero.trans same.symm) (by decide)
  · exact ⟨Buf.zero saltSize, zero⟩

private theorem other_password (password : Bytes) (filled : password.length ≠ 0) :
    ∃ other : Bytes, other.length = password.length ∧ other ≠ password := by
  cases password with
  | nil => exact absurd rfl filled
  | cons byte rest =>
    refine ⟨(byte + 1) :: rest, rfl, fun same => ?_⟩
    have bytes := (List.cons.inj same).1
    simp at bytes

/-- A long password hides its salt, and a longer one hides itself. -/
theorem hashes_collides {request : Request} {input : Bytes} (accepted : Hashes request input)
    (long : 192 < request.password.length) :
    ∃ other, Hashes other input ∧ other.normalize ≠ request.normalize := by
  obtain ⟨filled, valid, shape⟩ := (hashes_iff _ _).mp accepted
  by_cases fits : request.password.length ≤ 228
  · obtain ⟨salt, different⟩ := other_salt request.salt
    refine ⟨{ request with salt }, (hashes_iff _ _).mpr ⟨filled, valid, ?_⟩, fun same => ?_⟩
    · rw [shape]
      exact assemblePrehash_middle long fits salt
    · exact different (congrArg Request.salt same)
  · obtain ⟨password, count, different⟩ := other_password request.password filled
    refine ⟨{ request with password }, (hashes_iff _ _).mpr ⟨count ▸ filled, valid, ?_⟩, fun same => ?_⟩
    · rw [shape, assemblePrehash_long (Nat.not_le.mp fits), assemblePrehash_long (count ▸ Nat.not_le.mp fits), count]
    · exact different (congrArg Request.password same)

/-- The prehash input determines the request exactly for passwords of at most
192 bytes. -/
theorem prehash_distinct_iff (request : Request) (input : Bytes) (accepted : Hashes request input) :
    (request.password <:+: input ∧ request.salt.bytes <:+: input ∧
      ∀ other otherInput, Hashes other otherInput → other.normalize ≠ request.normalize → otherInput ≠ input) ↔
      request.password.length ≤ 192 := by
  constructor
  · rintro ⟨-, -, distinct⟩
    by_contra long
    obtain ⟨other, again, different⟩ := hashes_collides accepted (Nat.not_le.mp long)
    exact distinct other input again different rfl
  · intro short
    obtain ⟨password, salt⟩ := hashes_keeps accepted short
    refine ⟨password, salt, ?_⟩
    rintro other input again different rfl
    exact different (hashes_inj accepted short again)

/-- A request with a password of one repeated byte. -/
def plainRequest (length : Nat) (byte : UInt8) : Request where
  password := List.replicate length byte
  salt := Buf.zero saltSize
  params := ⟨0, 0, 0, 0⟩

theorem hashes_plainRequest : Hashes (plainRequest 16 97)
    (assemblePrehash (plainRequest 16 97).password (Buf.zero saltSize) ⟨3, 65536, 1, 0x13⟩).bytes := by
  unfold Hashes
  decide +kernel

theorem prehash_distinct_plainRequest :
    (plainRequest 16 97).password.length ≤ 192 ∧ ∀ other otherInput, Hashes other otherInput →
      other.normalize ≠ (plainRequest 16 97).normalize →
      otherInput ≠ (assemblePrehash (plainRequest 16 97).password (Buf.zero saltSize) ⟨3, 65536, 1, 0x13⟩).bytes :=
  ⟨by decide, ((prehash_distinct_iff (plainRequest 16 97) _ hashes_plainRequest).mpr (by decide)).2.2⟩

/-- Two passwords of 229 bytes that derive the same key from one salt. -/
theorem prehash_drops_password :
    ¬ ∀ first second firstInput secondInput, Hashes first firstInput → Hashes second secondInput →
      first.normalize ≠ second.normalize → firstInput ≠ secondInput := by
  intro distinct
  let input := (assemblePrehash (plainRequest 229 97).password (Buf.zero saltSize) ⟨3, 65536, 1, 0x13⟩).bytes
  have first : Hashes (plainRequest 229 97) input := by
    unfold Hashes
    decide +kernel
  have second : Hashes (plainRequest 229 98) input := by
    unfold Hashes
    decide +kernel
  exact distinct _ _ input input first second (by decide +kernel) rfl

end Hiya.Pm.Argon2
