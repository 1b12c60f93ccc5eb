import Hiya.Proofs.Argon2Rfc

/-! Where the derivation departs from RFC 9106. The last hash of a long output is taken of
one more step of the chain than there is; the first segment of the first pass takes its
addresses from the block before the one it should; and a long password does not fit the
buffer of the first hash. The rest of the derivation is the RFC's. -/

namespace Hiya.Pm.Argon2
open Library
open Rfc9106 (Sizes Matrix Parts)

def sizesOf (params : Params) : Sizes where
  p := params.parallelism.toNat
  m := params.mCostKib.toNat
  t := params.tCost.toNat

theorem admitted_of_valid {given params : Params} (valid : validateParams given = .ok params) :
    Admitted (sizesOf params) := by
  obtain rfl := validateParams_ok valid
  generalize normal : given.normalize = params at valid
  unfold validateParams at valid
  rw [normal] at valid
  simp only at valid
  split_ifs at valid with version times lanes memory room
  simp only [not_or, UInt32.not_lt, gt_iff_lt, UInt32.le_iff_toNat_le] at times lanes memory room
  have eight : (8 * params.parallelism).toNat = 8 * params.parallelism.toNat := by
    have most : params.parallelism.toNat ≤ 8 := lanes.2
    have literal : (8 : UInt32).toNat = 8 := rfl
    rw [UInt32.toNat_mul, literal]
    exact Nat.mod_eq_of_lt (by omega)
  rw [eight] at room
  exact ⟨lanes.1, lanes.2, room, memory.2, times.2⟩

theorem validateParams_version {given params : Params} (valid : validateParams given = .ok params) :
    params.version = version13 := by
  obtain rfl := validateParams_ok valid
  unfold validateParams at valid
  simp only at valid
  split_ifs at valid with version
  exact not_not.mp version

theorem layout_eq {params : Params} (admitted : Admitted (sizesOf params)) : params.layout = layoutOf (sizesOf params) := by
  have lane : params.mCostKib.toNat / params.parallelism.toNat / syncPoints * syncPoints = (sizesOf params).columns := by
    rw [admitted.columns_eq, Nat.div_div_eq_div_mul, Nat.mul_comm params.parallelism.toNat, Nat.mul_comm _ syncPoints]
    rfl
  unfold Params.layout layoutOf
  rw [lane, admitted.blocks_columns, Nat.mul_comm]
  rfl

section
variable (blake2b : Bytes → Nat → Bytes)

/-- What the program hashes and draws its words with. -/
def codeParts (request : Request) (params : Params) : Parts where
  h0 := blake2b (assemblePrehash request.password request.salt params).bytes 64
  hash := hprimeBytes blake2b
  word := codeWord (sizesOf params)

variable {blake2b} {env : Env} {request : Request} {params : Params}

theorem derive_rest (ample : env.Ample) (admitted : Admitted (sizesOf params)) {layout : Layout}
    (same : layout = layoutOf (sizesOf params)) :
    (do
      let mem : Memory layout ← fillFirstBlocks blake2b env (codeParts blake2b request params).h0 (.build layout.mBlocks fun _ => zeroBlock)
      argon2Hprime blake2b env (blockToBytes (finalBlock (fillMemory mem))) keySize) =
      .ok (Rfc9106.tag (sizesOf params) (codeParts blake2b request params)) := by
  subst same
  have started := fillFirst_matches admitted blake2b (codeParts blake2b request params) rfl
  have words : (codeParts blake2b request params).word = codeWord (sizesOf params) := rfl
  have filled := fillMemory_matches admitted words started
  rw [fillFirstBlocks_eq ample]
  change argon2Hprime blake2b env _ keySize = _
  rw [argon2Hprime_ample ample (by decide), blockToBytes_eq, Rfc9106.tag, ← view_finalBlock admitted filled]
  rfl

theorem derive_eq (ample : env.Ample) (given : request.password ≠ []) (valid : validateParams request.params = .ok params) :
    argon2idDerive blake2b env request = .ok (Rfc9106.tag (sizesOf params) (codeParts blake2b request params)) := by
  have admitted := admitted_of_valid valid
  have hashed : initialHash blake2b request.password request.salt params = .ok (codeParts blake2b request params).h0 :=
    if_neg (Nat.not_lt.mpr (assemblePrehash_bounded _ _ _))
  have nonempty : request.password.length ≠ 0 := fun empty => given (List.length_eq_zero_iff.mp empty)
  unfold argon2idDerive
  rw [if_neg nonempty, valid]
  change (do
    env.secureAlloc
    let h0 ← initialHash blake2b request.password request.salt params
    let mem : Memory params.layout ← fillFirstBlocks blake2b env h0 (.build params.layout.mBlocks fun _ => zeroBlock)
    argon2Hprime blake2b env (blockToBytes (finalBlock (fillMemory mem))) keySize) = _
  rw [ample.1, hashed]
  exact derive_rest ample admitted (layout_eq admitted)

end

/-- BLAKE2b gives as many bytes as it is asked for. -/
def Lawful (blake2b : Bytes → Nat → Bytes) : Prop := ∀ input length, length ≤ 64 → (blake2b input length).length = length

section
variable (blake2b : Bytes → Nat → Bytes)

def steps (start : Bytes) : Nat → Bytes
  | 0 => start
  | count + 1 => blake2b (steps start count) 64

theorem steps_succ (start : Bytes) (count : Nat) : steps blake2b (blake2b start 64) count =
    steps blake2b start (count + 1) := by
  induction count with
  | zero => rfl
  | succ count ih =>
    rw [steps, ih]
    rfl

theorem chain_eq (input : Bytes) (length count : Nat) :
    Rfc9106.chain blake2b input length count = steps blake2b (blake2b (leBytes 4 length ++ input) 64) count := by
  induction count with
  | zero => rfl
  | succ count ih => rw [Rfc9106.chain, ih, steps]

/-- The loop stops when at most 64 bytes are left. -/
theorem hprimeLoop_eq {fuel left : Nat} (enough : left ≤ fuel) (start : Bytes) :
    hprimeLoop blake2b fuel start left =
      (List.range ((left + 31) / 32 - 2)).flatMap (fun count => (steps blake2b start count).take 32) ++
        blake2b (steps blake2b start ((left + 31) / 32 - 2)) (left - 32 * ((left + 31) / 32 - 2)) := by
  induction fuel generalizing left start with
  | zero =>
    obtain rfl : left = 0 := by omega
    rfl
  | succ fuel ih =>
    rw [hprimeLoop]
    by_cases more : left > 64
    · have turns : (left + 31) / 32 - 2 = (left - 32 + 31) / 32 - 2 + 1 := by omega
      have rest : left - 32 * ((left - 32 + 31) / 32 - 2 + 1) = left - 32 - 32 * ((left - 32 + 31) / 32 - 2) := by omega
      rw [if_pos more, ih (by omega), turns, rest, List.range_succ_eq_map, List.flatMap_cons, List.flatMap_map,
        List.append_assoc]
      simp only [steps_succ]
      rfl
    · have none : (left + 31) / 32 - 2 = 0 := by omega
      rw [if_neg more, none]
      rfl

/-- The program hashes one step further than the RFC before it takes the last bytes. -/
theorem hprimeBytes_long {length : Nat} (long : 64 < length) (input : Bytes) :
    hprimeBytes blake2b input length =
      (List.range ((length + 31) / 32 - 2)).flatMap (fun count => (Rfc9106.chain blake2b input length count).take 32) ++
        blake2b (Rfc9106.chain blake2b input length ((length + 31) / 32 - 2)) (length - 32 * ((length + 31) / 32 - 2)) := by
  unfold hprimeBytes
  simp only [if_neg (Nat.not_le.mpr long), hprimeLoop_eq blake2b (Nat.le_refl length), chain_eq]

end

/-- A hash that counts: every byte of it is one more than the first byte hashed. -/
def counting (input : Bytes) (length : Nat) : Bytes := List.replicate length (input.headD 0 + 1)

theorem counting_lawful : Lawful counting := fun _ _ _ => List.length_replicate

/-- The hashes agree for every BLAKE2b exactly as long as no chain is needed. -/
theorem hprime_iff {length : Nat} :
    (∀ blake2b, Lawful blake2b → ∀ input,
    hprimeBytes blake2b input length = Rfc9106.variableHash blake2b input length) ↔ length ≤ 64 := by
  constructor
  · intro same
    by_contra long
    have long := Nat.not_le.mp long
    have equal := same counting counting_lawful []
    unfold Rfc9106.variableHash at equal
    rw [hprimeBytes_long counting long, if_neg (Nat.not_le.mpr long)] at equal
    have tails := List.append_cancel_left equal
    obtain ⟨turns, more⟩ : ∃ turns, (length + 31) / 32 - 2 = turns + 1 := ⟨(length + 31) / 32 - 3, by omega⟩
    have bytes := (List.replicate_inj.mp tails).2.resolve_left (by omega)
    rw [more, Nat.add_sub_cancel] at bytes
    have further : (Rfc9106.chain counting [] length (turns + 1)).headD 0 =
      (Rfc9106.chain counting [] length turns).headD 0 + 1 := rfl
    rw [further] at bytes
    generalize (Rfc9106.chain counting [] length turns).headD 0 + 1 = byte at bytes
    simp at bytes
  · intro short blake2b _ input
    unfold hprimeBytes Rfc9106.variableHash
    simp only [if_pos short]

theorem initialInput_parts {params : Params} (version : params.version = version13) (password : Bytes) (salt : Buf saltSize) :
    Rfc9106.initialInput password salt.bytes (sizesOf params) =
      (headWords password.length params ++ [password, leBytes 4 saltSize, salt.bytes, leBytes 4 0, leBytes 4 0]).flatten := by
  unfold Rfc9106.initialInput headWords
  rw [version, salt.length_bytes]
  simp only [List.map_cons, List.map_nil, List.cons_append, List.nil_append, List.flatten_cons, List.flatten_nil,
    List.append_nil]
  rfl

/-- What the RFC hashes first is what the program hashes up to 184 bytes of password. -/
theorem prehash_iff {params : Params} (version : params.version = version13) (password : Bytes) (salt : Buf saltSize) :
    (assemblePrehash password salt params).bytes = Rfc9106.initialInput password salt.bytes (sizesOf params) ↔
    password.length ≤ 184 := by
  have total : (headWords password.length params ++ [password, leBytes 4 saltSize, salt.bytes, leBytes 4 0,
    leBytes 4 0]).flatten.length =
      72 + password.length := by
    have head := prehashHead_length password.length params
    have salted : salt.bytes.length = 32 := salt.length_bytes
    unfold prehashHead at head
    simp only [List.flatten_append, List.length_append, head, List.flatten_cons, List.flatten_nil, leBytes_length,
      salted, List.length_nil]
    omega
  rw [initialInput_parts version]
  constructor
  · intro same
    have bounded : (assemblePrehash password salt params).bytes.length ≤ prehashCapacity := by
      have below := assemblePrehash_bounded password salt params
      rwa [assemblePrehash_parts] at below ⊢
    rw [same, total] at bounded
    unfold prehashCapacity at bounded
    omega
  · intro short
    rw [assemblePrehash_parts]
    have kept := foldl_fit (headWords password.length params ++ [password, leBytes 4 saltSize, salt.bytes, leBytes 4 0,
      leBytes 4 0]) []
      (by rw [total, prehashCapacity, List.length_nil]; omega)
    rw [List.nil_append] at kept
    exact kept

/-- The addresses of a segment in front of a block, drawn as `fill_segment` draws them. -/
def drawTo (layout : Layout) (lane slice index : Nat) : Segment layout :=
  (List.range' (startIndex 0 slice) (index - startIndex 0 slice)).foldl (fun state i => (pseudoRand true zeroBlock i state).2)
    { mem := .build layout.mBlocks fun _ => zeroBlock, inputBlock := firstInput layout 0 lane slice, addrBlock := zeroBlock }

/-- The word of a block of the first pass with data-independent addresses. -/
def segmentWord (layout : Layout) (lane slice index : Nat) : UInt64 :=
    (pseudoRand true zeroBlock index (drawTo layout lane slice index)).1

theorem segmentWord_eq {sizes : Sizes} {lane slice index : Nat} (later : startIndex 0 slice ≤ index) :
    segmentWord (layoutOf sizes) lane slice index = codeWord sizes 0 lane slice index := by
  have behind {number : Nat} (low : startIndex 0 slice ≤ number) : slice = 0 → 2 ≤ number := by
    intro first
    rwa [startIndex, if_pos ⟨rfl, first⟩] at low
  have drawnTo : Drawn sizes 0 lane slice (startIndex 0 slice + (index - startIndex 0 slice))
    (drawTo (layoutOf sizes) lane slice index) := by
    refine foldl_range'_keeps (fun number state => Drawn sizes 0 lane slice number state)
      (fun number low _ state known => ?_) (drawn_start _)
    exact (pseudoRand_independent known (behind low) zeroBlock).2.1
  rw [Nat.add_sub_cancel' later] at drawnTo
  exact (pseudoRand_independent drawnTo (behind later) zeroBlock).1

/-- The place in the memory that a block of the RFC refers to. -/
def rfcPlace (sizes : Sizes) (lane slice index : Nat) (word : UInt64) : Nat :=
  (Rfc9106.reference sizes 0 slice lane index word).1 * sizes.columns + (Rfc9106.reference sizes 0 slice lane index word).2

/-- The derivation is the RFC's for a request, whatever BLAKE2b is: the key, the hash of
every length, and the addresses of the first half of the first pass. -/
structure Follows (request : Request) : Prop where
  key : ∀ blake2b, Lawful blake2b → ∀ env : Env, env.Ample → argon2idDerive blake2b env request =
    .ok (Rfc9106.argon2id blake2b request.password request.salt.bytes (sizesOf request.params.normalize))
  hash : ∀ blake2b, Lawful blake2b → ∀ env : Env, env.Ample → ∀ input length, 0 < length →
    argon2Hprime blake2b env input length = .ok (Rfc9106.variableHash blake2b input length)
  addresses : ∀ lane < (sizesOf request.params.normalize).p, ∀ slice < 2,
    ∀ index < (sizesOf request.params.normalize).segment,
    startIndex 0 slice ≤ index →
    refPlace request.params.normalize.layout 0 lane slice index
      (segmentWord request.params.normalize.layout lane slice index) =
      rfcPlace (sizesOf request.params.normalize) lane slice index
        (Rfc9106.addressWord (sizesOf request.params.normalize) 0 lane slice index)

/-- A machine with enough memory. -/
def ampleEnv : Env := { secureAlloc := .ok (), malloc := true }

theorem ampleEnv_ample : ampleEnv.Ample := ⟨rfl, rfl⟩

theorem argon2Hprime_iff {length : Nat} (positive : 0 < length) :
    (∀ blake2b, Lawful blake2b → ∀ env : Env, env.Ample → ∀ input,
      argon2Hprime blake2b env input length = .ok (Rfc9106.variableHash blake2b input length)) ↔ length ≤ 64 := by
  refine Iff.trans ⟨fun same blake2b lawful input => ?_, fun same blake2b lawful env ample input => ?_⟩ hprime_iff
  · have hashed := same blake2b lawful ampleEnv ampleEnv_ample input
    rw [argon2Hprime_ample ampleEnv_ample positive] at hashed
    exact Except.ok.inj hashed
  · rw [argon2Hprime_ample ample positive, same blake2b lawful input]

/-- The blocks of the memory are hashes of 1024 bytes, so no request escapes the chain. -/
theorem never_follows (request : Request) : ¬ Follows request := by
  intro follows
  have short : blockBytes ≤ 64 := (argon2Hprime_iff (by decide)).mp fun blake2b lawful env ample input =>
    follows.hash blake2b lawful env ample input blockBytes (by decide)
  exact absurd short (by decide)

theorem segmentWord_departs {params : Params} (admitted : Admitted (sizesOf params)) (lane index : Nat) :
    segmentWord params.layout lane 1 index = Rfc9106.addressWord (sizesOf params) 0 lane 1 index ∧
    (2 ≤ index → segmentWord params.layout lane 0 index =
      if index < 128 then 0 else Rfc9106.addressWord (sizesOf params) 0 lane 0 (index - 128)) := by
  rw [layout_eq admitted]
  constructor
  · exact segmentWord_eq (Nat.zero_le index)
  · intro later
    exact segmentWord_eq later

/-- No request is derived as the RFC says. The hash of variable length is the RFC's up to
64 bytes of output and the first hash up to 184 bytes of password; the second segment has
the addresses of the RFC, and the first has none up to block 128 and from there on those of
128 blocks before. With these parts in the place of its own, the RFC derives the same key. -/
theorem argon2id_departs (request : Request) :
    ¬ Follows request ∧
    (∀ length : Nat, 0 < length → ((∀ blake2b, Lawful blake2b → ∀ env : Env, env.Ample → ∀ input,
      argon2Hprime blake2b env input length = .ok (Rfc9106.variableHash blake2b input length)) ↔ length ≤ 64)) ∧
    (∀ params : Params, validateParams request.params = .ok params →
      ((assemblePrehash request.password request.salt params).bytes =
        Rfc9106.initialInput request.password request.salt.bytes (sizesOf params) ↔ request.password.length ≤ 184)) ∧
    (∀ params : Params, Admitted (sizesOf params) → ∀ lane index : Nat,
      segmentWord params.layout lane 1 index = Rfc9106.addressWord (sizesOf params) 0 lane 1 index ∧
      (2 ≤ index → segmentWord params.layout lane 0 index =
        if index < 128 then 0 else Rfc9106.addressWord (sizesOf params) 0 lane 0 (index - 128))) ∧
    (∀ (blake2b : Bytes → Nat → Bytes) (env : Env) (params : Params), env.Ample → request.password ≠ [] →
      validateParams request.params = .ok params →
      argon2idDerive blake2b env request = .ok (Rfc9106.tag (sizesOf params) (codeParts blake2b request params))) := by
  constructor
  · exact never_follows request
  constructor
  · intro length positive
    exact argon2Hprime_iff positive
  constructor
  · intro params valid
    exact prehash_iff (validateParams_version valid) request.password request.salt
  constructor
  · intro params admitted lane index
    exact segmentWord_departs admitted lane index
  · intro blake2b env params ample given valid
    exact derive_eq ample given valid

theorem argon2id_departs_plainRequest :
    ¬ Follows (plainRequest 16 97) ∧
    ((∀ blake2b, Lawful blake2b → ∀ env : Env, env.Ample → ∀ input,
      argon2Hprime blake2b env input keySize = .ok (Rfc9106.variableHash blake2b input keySize)) ↔ keySize ≤ 64) ∧
    argon2idDerive counting ampleEnv (plainRequest 16 97) =
      .ok (Rfc9106.tag (sizesOf ⟨3, 65536, 1, 0x13⟩) (codeParts counting (plainRequest 16 97) ⟨3, 65536, 1, 0x13⟩)) := by
  obtain ⟨never, hashes, _, _, derived⟩ := argon2id_departs (plainRequest 16 97)
  exact ⟨never, hashes keySize (by decide), derived counting ampleEnv _ ampleEnv_ample (by decide) rfl⟩

/-- One lane of five blocks to a segment, filled once. -/
def smallRequest : Request where
  password := [112, 97, 115, 115, 119, 111, 114, 100]
  salt := ⟨List.replicate saltSize 0, List.length_replicate⟩
  params := { tCost := 1, mCostKib := 20, parallelism := 1, version := version13 }

def smallSegment : Segment (layoutOf ⟨1, 20, 1⟩) where
  mem := .build _ fun _ => zeroBlock
  inputBlock := firstInput (layoutOf ⟨1, 20, 1⟩) 0 0 0
  addrBlock := zeroBlock

theorem smallSegment_word : Rfc9106.addressWord ⟨1, 20, 1⟩ 0 0 0 4 = 13359451685109388873 := by
  have start : Drawn ⟨1, 20, 1⟩ 0 0 0 2 smallSegment := drawn_start _
  -- Up to block 128 nothing has been drawn yet.
  have later : Drawn ⟨1, 20, 1⟩ 0 0 0 128 smallSegment := ⟨start.input, start.addresses⟩
  have addresses : view (nextAddresses smallSegment).addrBlock = Rfc9106.addressBlock ⟨1, 20, 1⟩ 0 0 0 1 :=
    (drawn_next later rfl).addresses
  have shown : Rfc9106.addressWord ⟨1, 20, 1⟩ 0 0 0 4 = (nextAddresses smallSegment).addrBlock.get 4 := by
    apply Eq.trans _ (word_view _ 4)
    rw [addresses]
    rfl
  rw [shown]
  decide +kernel

/-- Block 4 of the first segment looks at column 2, where the RFC has column 1. -/
theorem smallRequest_departs :
    validateParams smallRequest.params = .ok smallRequest.params ∧
    ¬ Follows smallRequest ∧
    argon2Hprime counting ampleEnv [] blockBytes ≠ .ok (Rfc9106.variableHash counting [] blockBytes) ∧
    refPlace smallRequest.params.layout 0 0 0 4 (segmentWord smallRequest.params.layout 0 0 4) = 2 ∧
    rfcPlace (sizesOf smallRequest.params) 0 0 4 (Rfc9106.addressWord (sizesOf smallRequest.params) 0 0 0 4) = 1 := by
  refine ⟨rfl, never_follows _, by decide +kernel, by decide +kernel, ?_⟩
  have word : Rfc9106.addressWord (sizesOf smallRequest.params) 0 0 0 4 = 13359451685109388873 := smallSegment_word
  rw [word]
  decide +kernel

end Hiya.Pm.Argon2
