import Hiya.Proofs.CredentialStore
import Hiya.Proofs.ResponseItems

/-! Credential ids and authenticator data, the two layouts that one side writes and another
takes apart. An id opens again under the key it was sealed with; authenticator data has
one reading, whatever its flags announce. -/

namespace Hiya.Fido2
open Library Cbor Ssh

structure AttestedData where
  aaguid : Buf 16
  credId : Bytes
  key : Bytes
  sized : credId.length < 2 ^ 16
  whole : OneItem key

structure AuthData where
  rpIdHash : Buf 32
  flags : UInt8
  signCount : UInt32
  attested : Option AttestedData
  extensions : Option Bytes
  attests : attested.isSome = true ↔ flags &&& flagAt ≠ 0
  widened : extensions.isSome = true ↔ flags &&& flagEd ≠ 0

def AttestedData.bytes (data : AttestedData) : Bytes :=
  data.aaguid.bytes ++ (beBytes 2 data.credId.length ++ (data.credId ++ data.key))

def AuthData.bytes (data : AuthData) : Bytes :=
  data.rpIdHash.bytes ++ ([data.flags] ++ (beBytes 4 data.signCount.toNat ++
    ((data.attested.map AttestedData.bytes).getD [] ++ data.extensions.getD [])))

theorem Buf.bytes_append_inj {size : Nat} {first second : Buf size} {rest more : Bytes}
    (same : first.bytes ++ rest = second.bytes ++ more) : first = second ∧ rest = more := by
  obtain ⟨bytes, rest⟩ := List.append_inj same (by rw [Buf.length_bytes, Buf.length_bytes])
  exact ⟨Buf.ext bytes, rest⟩

theorem beBytes_append_inj {width first second : Nat} {rest more : Bytes} (fits : first < 256 ^ width)
    (room : second < 256 ^ width) (same : beBytes width first ++ rest = beBytes width second ++ more) :
    first = second ∧ rest = more := by
  obtain ⟨bytes, rest⟩ := List.append_inj same (by rw [beBytes_length, beBytes_length])
  have numbers := congrArg beNat bytes
  rw [beNat_beBytes, beNat_beBytes, Nat.mod_eq_of_lt fits, Nat.mod_eq_of_lt room] at numbers
  exact ⟨numbers, rest⟩

/-- The key ends where its item does, so what follows it can be told from it. -/
theorem AttestedData.bytes_append_inj {first second : AttestedData} {rest more : Bytes}
    (same : first.bytes ++ rest = second.bytes ++ more) : first = second ∧ rest = more := by
  unfold AttestedData.bytes at same
  rw [List.append_assoc, List.append_assoc, List.append_assoc, List.append_assoc, List.append_assoc,
    List.append_assoc] at same
  obtain ⟨aaguid, same⟩ := Buf.bytes_append_inj same
  obtain ⟨length, same⟩ := beBytes_append_inj first.sized second.sized same
  obtain ⟨credId, same⟩ := List.append_inj same length
  obtain ⟨levels, one⟩ := first.whole
  obtain ⟨others, two⟩ := second.whole
  obtain ⟨key, rest⟩ := one.leaves.same_front parted_token two.leaves same
  cases first
  cases second
  cases aaguid
  cases credId
  cases key
  exact ⟨rfl, rest⟩

/-- Two options that are there on the same condition, told apart by what they hold. -/
theorem option_ext {α : Type} {first second : Option α} (there : first.isSome = true ↔ second.isSome = true)
    (same : ∀ one two, first = some one → second = some two → one = two) : first = second := by
  cases first with
  | none =>
    cases second with
    | none => rfl
    | some two => cases there.mpr rfl
  | some one =>
    cases second with
    | none => cases there.mp rfl
    | some two => rw [same one two rfl rfl]

theorem AuthData.bytes_inj {first second : AuthData} (same : first.bytes = second.bytes) : first = second := by
  unfold AuthData.bytes at same
  obtain ⟨rpIdHash, same⟩ := Buf.bytes_append_inj same
  obtain ⟨flags, same⟩ := List.append_inj same rfl
  obtain ⟨signCount, same⟩ := beBytes_append_inj first.signCount.toNat_lt second.signCount.toNat_lt same
  obtain ⟨flags, -⟩ := List.cons.inj flags
  have attests : first.attested.isSome = true ↔ second.attested.isSome = true := by
    rw [first.attests, second.attests, flags]
  have widened : first.extensions.isSome = true ↔ second.extensions.isSome = true := by
    rw [first.widened, second.widened, flags]
  have parts : first.attested = second.attested ∧ first.extensions.getD [] = second.extensions.getD [] := by
    cases one : first.attested with
    | none =>
      cases two : second.attested with
      | none =>
        rw [one, two] at same
        exact ⟨rfl, same⟩
      | some data =>
        rw [one, two] at attests
        cases attests.mpr rfl
    | some data =>
      cases two : second.attested with
      | none =>
        rw [one, two] at attests
        cases attests.mp rfl
      | some other =>
        rw [one, two] at same
        obtain ⟨attested, rest⟩ := AttestedData.bytes_append_inj same
        exact ⟨congrArg some attested, rest⟩
  have extensions : first.extensions = second.extensions := by
    apply option_ext widened
    intro one two found other
    have contents := parts.2
    rwa [found, other] at contents
  cases first
  cases second
  cases rpIdHash
  cases flags
  cases UInt32.toNat_inj.mp signCount
  cases parts.1
  cases extensions
  rfl

/-- The only value whose bytes these are. -/
def ReadsAs (bytes : Bytes) (data : AuthData) : Prop := data.bytes = bytes ∧ ∀ other : AuthData, other.bytes = bytes →
    other = data

theorem readsAs_bytes {bytes : Bytes} {data : AuthData} (same : data.bytes = bytes) : ReadsAs bytes data :=
  ⟨same, fun _ read => AuthData.bytes_inj (read.trans same.symm)⟩

theorem coseKey_whole (pubkey : Buf 65) : OneItem (coseKeyBytes pubkey) :=
    encodes_tree (coseTree 6 pubkey) (coseTree_counted 6 pubkey)

def AttestedData.of (credId : CredentialId) (pubkey : Buf 65) : AttestedData where
  aaguid := .ofBytes Fido2.aaguid rfl
  credId := credId.bytes
  key := coseKeyBytes pubkey
  sized := Nat.lt_of_le_of_lt credId.short (by decide)
  whole := coseKey_whole pubkey

/-- What the callers see to: an attested credential is given when the flags announce one,
and extensions are appended exactly when they do. -/
structure Announced (flags : UInt8) (attested : Option (CredentialId × Buf 65)) (extensions : Option Bytes) : Prop where
  attested : flags &&& flagAt ≠ 0 → attested.isSome = true
  extensions : extensions.isSome = true ↔ flags &&& flagEd ≠ 0

/-- The value that a call is to write; a credential that the flags do not announce is not
written. -/
def AuthData.of {flags : UInt8} {attested : Option (CredentialId × Buf 65)} {extensions : Option Bytes} (rpIdHash : Buf 32)
    (signCount : UInt32) (announced : Announced flags attested extensions) : AuthData where
  rpIdHash
  flags
  signCount
  attested := if flags &&& flagAt = 0 then none else attested.map fun given => .of given.1 given.2
  extensions
  attests := by
    by_cases bare : flags &&& flagAt = 0
    · rw [if_pos bare]
      simp [bare]
    · rw [if_neg bare, Option.isSome_map]
      exact ⟨fun _ => bare, fun _ => announced.attested bare⟩
  widened := announced.extensions

theorem buildAuthData_bare {cap : Nat} {rpIdHash : Buf 32} {flags : UInt8} {signCount : UInt32}
    {attested : Option (CredentialId × Buf 65)}
    {out : Bytes} (bare : flags &&& flagAt = 0) (built : buildAuthData cap rpIdHash flags signCount attested = some out) :
    out = rpIdHash.bytes ++ [flags] ++ beBytes 4 signCount.toNat := by
  unfold buildAuthData at built
  dsimp only at built
  split at built
  · cases built
  · cases attested with
    | none => exact (Option.some.inj built).symm
    | some given => exact (Option.some.inj built).symm

/-- Whatever is written, together with what is appended, has the announced value as its one
reading. -/
theorem buildAuthData_reads {cap : Nat} {rpIdHash : Buf 32} {flags : UInt8} {signCount : UInt32}
    {attested : Option (CredentialId × Buf 65)}
    {extensions : Option Bytes} {out : Bytes} (built : buildAuthData cap rpIdHash flags signCount attested = some out)
    (announced : Announced flags attested extensions) :
    ReadsAs (out ++ extensions.getD []) (.of rpIdHash signCount announced) := by
  apply readsAs_bytes
  unfold AuthData.of AuthData.bytes
  dsimp only
  by_cases bare : flags &&& flagAt = 0
  · rw [if_pos bare, buildAuthData_bare bare built]
    simp only [Option.map_none, Option.getD_none, List.nil_append, List.append_assoc]
  · rw [if_neg bare]
    cases attested with
    | none => cases announced.attested bare
    | some given =>
      obtain ⟨-, shape⟩ := buildAuthData_attested bare built
      rw [shape]
      simp only [Option.map_some, Option.getD_some, AttestedData.bytes, AttestedData.of, List.append_assoc]
      rfl

/-! The calls of the two commands. -/

theorem makeCredentialFlags_extended (params : MakeCredParams) (uv : Bool) :
    makeCredentialFlags params uv &&& flagEd ≠ 0 ↔ params.credProtect ≠ 0 ∨ params.hmacSecretRequested := by
  have all : ∀ uv extended : Bool,
      (flagUp ||| flagAt ||| (if uv then flagUv else 0) ||| (if extended then flagEd else 0)) &&& flagEd ≠ 0 ↔
        extended = true := by decide
  unfold makeCredentialFlags
  by_cases extended : params.credProtect ≠ 0 ∨ params.hmacSecretRequested
  · rw [if_pos extended]
    exact iff_of_true ((all uv true).mpr rfl) extended
  · rw [if_neg extended]
    exact iff_of_false (fun flagged => by cases (all uv false).mp flagged) extended

def extensionTree (params : MakeCredParams) : Cbor.Tree :=
  .map ((if params.credProtect ≠ 0 then [(textTree "credProtect", .uint params.credProtect.toUInt64)] else []) ++
    (if params.hmacSecretRequested then [(textTree "hmac-secret", boolTree true)] else []))

theorem extensionItems_eq (params : MakeCredParams) : extensionItems params = (extensionTree params).calls := by
  unfold extensionItems extensionTree
  by_cases level : params.credProtect ≠ 0
  · by_cases secret : params.hmacSecretRequested = true
    · rw [if_pos level, if_pos level, if_pos level, if_pos secret, if_pos secret, if_pos secret]
      rfl
    · rw [if_pos level, if_pos level, if_pos level, if_neg secret, if_neg secret, if_neg secret]
      rfl
  · by_cases secret : params.hmacSecretRequested = true
    · rw [if_neg level, if_neg level, if_neg level, if_pos secret, if_pos secret, if_pos secret]
      rfl
    · rw [if_neg level, if_neg level, if_neg level, if_neg secret, if_neg secret, if_neg secret]
      rfl

theorem extensionTree_counted (params : MakeCredParams) : (extensionTree params).Counted := by
  unfold extensionTree
  by_cases level : params.credProtect ≠ 0
  · by_cases secret : params.hmacSecretRequested = true
    · rw [if_pos level, if_pos secret]
      exact counted_map (by simp) ⟨counted_text (by decide), trivial, counted_text (by decide), trivial, trivial⟩
    · rw [if_pos level, if_neg secret]
      exact counted_map (by simp) ⟨counted_text (by decide), trivial, trivial⟩
  · by_cases secret : params.hmacSecretRequested = true
    · rw [if_neg level, if_pos secret]
      exact counted_map (by simp) ⟨counted_text (by decide), trivial, trivial⟩
    · rw [if_neg level, if_neg secret]
      exact counted_map (by simp) trivial

/-- A registration announces its credential and the extensions it appends, one item. -/
theorem registrationData_reads {params : MakeCredParams} {uv : Bool} {signCount : UInt32} {credId : CredentialId}
    {pubkey : Buf 65}
    {data : Bytes} (built : registrationData params uv signCount credId pubkey = some data) :
    ∃ (extensions : Option Bytes) (announced : Announced (makeCredentialFlags params uv) (some (credId, pubkey)) extensions),
      (∀ item, extensions = some item → OneItem item) ∧ ReadsAs data (.of params.rp.idHash signCount announced) := by
  obtain ⟨front, made, built⟩ := Option.bind_eq_some_iff.mp built
  have extended := makeCredentialFlags_extended params uv
  split at built
  next adds =>
    obtain ⟨item, encoded, built⟩ := Option.bind_eq_some_iff.mp built
    cases built
    rw [extensionItems_eq] at encoded
    refine ⟨some item, ⟨fun _ => rfl, iff_of_true rfl (extended.mpr adds)⟩, ?_, buildAuthData_reads made _⟩
    intro other same
    cases same
    exact oneItem_of_calls (extensionTree_counted params) encoded
  next plain =>
    cases built
    have announced : Announced (makeCredentialFlags params uv) (some (credId, pubkey)) none :=
      ⟨fun _ => rfl, iff_of_false Bool.false_ne_true fun flagged => plain (extended.mp flagged)⟩
    have read := buildAuthData_reads made announced
    rw [Option.getD_none, List.append_nil] at read
    exact ⟨none, announced, fun _ none => (by cases none), read⟩

theorem assertion_announced (uv : Bool) : Announced (flagUp ||| (if uv then flagUv else 0)) none none := by
  have all : ∀ uv : Bool, (flagUp ||| (if uv then flagUv else 0)) &&& flagAt = 0 ∧
    (flagUp ||| (if uv then flagUv else 0)) &&& flagEd = 0 := by
    decide
  exact ⟨fun flagged => absurd (all uv).1 flagged, iff_of_false (by simp) (not_not.mpr (all uv).2)⟩

section
variable {crypto : Crypto} {nonce : Buf 12} {privkey rpIdHash wrapKey : Buf 32} {credId : CredentialId}

/-- An id that was made opens to what was put in. -/
theorem opened_of_generated (opens : crypto.OpensSealed)
    (made : generateCredentialId crypto nonce privkey rpIdHash wrapKey = some credId) :
    credId.bytes.length = 92 ∧ crypto.gcmOpen wrapKey (sliceAt credId.bytes 0 12) [] (sliceAt credId.bytes 12 64 : Buf 64)
      (sliceAt credId.bytes 76 16) = some (privkey.append rpIdHash) := by
  obtain ⟨⟨text, tag⟩, sealed, same⟩ := Option.map_eq_some_iff.mp made
  cases same
  have front : sliceAt (nonce.bytes ++ text.bytes ++ tag.bytes) 0 12 = nonce := by
    rw [List.append_assoc]
    exact sliceAt_middle [] _ nonce rfl
  have middle : sliceAt (nonce.bytes ++ text.bytes ++ tag.bytes) 12 64 = text := by
    rw [List.append_assoc]
    exact sliceAt_middle nonce.bytes _ text (Buf.length_bytes nonce)
  have back : sliceAt (nonce.bytes ++ text.bytes ++ tag.bytes) 76 16 = tag := by
    have last := sliceAt_middle (nonce.bytes ++ text.bytes)
      [] tag (by rw [List.length_append, Buf.length_bytes, Buf.length_bytes])
    rwa [List.append_nil] at last
  refine ⟨?_, ?_⟩
  · simp only [List.length_append, Buf.length_bytes]
  · dsimp only
    rw [front, middle, back]
    exact opens 64 wrapKey nonce [] _ text tag sealed

theorem unwrap_generated (opens : crypto.OpensSealed)
    (made : generateCredentialId crypto nonce privkey rpIdHash wrapKey = some credId)
    (other : Buf 32) : unwrapCredentialId crypto credId wrapKey other = if rpIdHash = other then some privkey else none := by
  obtain ⟨length, opened⟩ := opened_of_generated opens made
  have party : sliceAt (privkey.append rpIdHash).bytes 32 32 = rpIdHash := by
    have last := sliceAt_middle privkey.bytes [] rpIdHash (Buf.length_bytes privkey)
    rwa [List.append_nil] at last
  have key : sliceAt (privkey.append rpIdHash).bytes 0 32 = privkey := sliceAt_middle [] rpIdHash.bytes privkey rfl
  unfold unwrapCredentialId
  rw [if_neg (not_not.mpr length), opened]
  change (if sliceAt (privkey.append rpIdHash).bytes 32 32 = other then
    some (sliceAt (privkey.append rpIdHash).bytes 0 32) else none) = _
  rw [party, key]

end

/-- A generated id gives back its private key for its own party and nothing for another; and
authenticator data is read back in one way, as what its writer put in, from every call
whose parts its flags announce, such as those for a registration and for an assertion. -/
theorem ids_and_auth_data_read_back (crypto : Crypto) (opens : crypto.OpensSealed) :
    (∀ (nonce : Buf 12) (privkey rpIdHash wrapKey : Buf 32) (credId : CredentialId),
      generateCredentialId crypto nonce privkey rpIdHash wrapKey = some credId →
        unwrapCredentialId crypto credId wrapKey rpIdHash = some privkey ∧
        ∀ other, other ≠ rpIdHash → unwrapCredentialId crypto credId wrapKey other = none) ∧
    (∀ (cap : Nat) (rpIdHash : Buf 32) (flags : UInt8) (signCount : UInt32) (attested : Option (CredentialId × Buf 65))
      (extensions : Option Bytes) (out : Bytes) (announced : Announced flags attested extensions),
      buildAuthData cap rpIdHash flags signCount attested = some out →
        ReadsAs (out ++ extensions.getD []) (.of rpIdHash signCount announced)) ∧
    (∀ (params : MakeCredParams) (uv : Bool) (signCount : UInt32) (credId : CredentialId) (pubkey : Buf 65) (data : Bytes),
      registrationData params uv signCount credId pubkey = some data →
        ∃ (extensions : Option Bytes) (announced : Announced (makeCredentialFlags params uv)
        (some (credId, pubkey)) extensions),
          (∀ item, extensions = some item → OneItem item) ∧ ReadsAs data (.of params.rp.idHash signCount announced)) ∧
    (∀ (rpIdHash : Buf 32) (uv : Bool) (signCount : UInt32) (data : Bytes),
      buildAuthData 256 rpIdHash (flagUp ||| (if uv then flagUv else 0)) signCount none = some data →
        ReadsAs data (.of rpIdHash signCount (assertion_announced uv))) := by
  refine ⟨fun nonce privkey rpIdHash wrapKey credId made => ⟨?_, fun other differs => ?_⟩, ?_, ?_, ?_⟩
  · rw [unwrap_generated opens made, if_pos rfl]
  · rw [unwrap_generated opens made, if_neg fun same => differs same.symm]
  · exact fun _ _ _ _ _ _ _ announced built => buildAuthData_reads built announced
  · exact fun _ _ _ _ _ _ built => registrationData_reads built
  · intro rpIdHash uv signCount data built
    have read := buildAuthData_reads built (assertion_announced uv)
    rwa [Option.getD_none, List.append_nil] at read

theorem ids_and_auth_data_read_back_plain : ∃ credId, generateCredentialId tagCipher (.zero 12) (.zero 32) (.zero 32)
    (.zero 32) = some credId ∧
    unwrapCredentialId tagCipher credId (.zero 32) (.zero 32) = some (.zero 32) :=
  ⟨_, rfl, ((ids_and_auth_data_read_back tagCipher tagCipher_opens).1 _ _ _ _ _ rfl).1⟩

end Hiya.Fido2
