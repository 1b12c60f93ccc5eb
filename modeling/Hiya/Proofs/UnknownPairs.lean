import Hiya.Proofs.RequestMaps

/-! Requests that carry more than a parser knows. A pair with an unknown key changes nothing
where the parser passes over the whole of it. It does not pass over the whole of every pair:
some values are looked at by their head alone. -/

namespace Hiya.Fido2
open Library Cbor

namespace Kind
variable (crypto : Crypto)

/-- What is extracted from a request. -/
def Params : Kind → Type
  | makeCredential => MakeCredParams × IdList
  | getAssertion => GetAssertionParams × IdList
  | clientPin => ClientPinParams
  | bioEnrollment => BioEnrollParams
  | credentialManagement => CredMgmtParams

def parse : (kind : Kind) → Bytes → Except Status kind.Params
  | makeCredential => parseMakeCredParams crypto
  | getAssertion => parseGetAssertionParams crypto
  | clientPin => parseClientPinParams
  | bioEnrollment => parseBioEnrollParams
  | credentialManagement => parseCredMgmtParams

/-- The pairs that may be put into the maps of a request. -/
def grows (extra : Extra) (skipped : Bytes → Prop) : Kind → Bytes → Bytes → Prop
  | makeCredential => Growth.makeCredential extra skipped 0
  | getAssertion => Growth.getAssertion extra skipped 0
  | clientPin => Growth.clientPin extra 0
  | bioEnrollment => Growth.uintMap extra .bioEnrollment [0x01, 0x02, 0x03, 0x04, 0x05, 0x06] (fun _ => .none) 0
  | credentialManagement => Growth.uintMap extra .credentialManagement [0x01, 0x02, 0x03, 0x04] (fun _ => .none) 0

end Kind

section
variable {σ β : Type} {seat : Seat σ}

/-- A request that has grown is read as before. -/
theorem grown_request {body : Proc σ Status β} {walk pair : Pass Unit} {extra : Bytes → Prop} {value : Item → Growth}
    (consumes : Consumes seat 1 body walk (.map pair extra value)) {start last : σ} {result : β} {request extended : Bytes}
    (fresh : seat.dec start = .init request) (done : body start = (.ok result, last))
    (whole : (walk ⟨.init request, seat.ids start, 0⟩).2.owed = 0)
    (grows : Growth.map pair extra value (seat.ids start) request extended) :
    ∃ dec, body (seat.put (.init extended) start) = (.ok result, seat.put dec last) := by
  obtain ⟨more, -, walked, taken⟩ := consumes start result last done 0
  rw [fresh] at walked taken
  rw [walked] at whole
  obtain ⟨old, here, -, leaves, -, grown⟩ := taken whole rfl
  rw [fresh] at here
  obtain ⟨olds, news, parts, others⟩ := grows
  cases leaves_prefix leaves parts.leaves (here.symm.trans (List.append_nil _).symm)
  exact ⟨_, grown extended ⟨olds, news, parts, others⟩ (.init extended) [] rfl (List.append_nil extended).symm⟩

private theorem grown_request_alone {body : Parse β} {walk pair : Pass Unit} {extra : Bytes → Prop} {value : Item → Growth}
    (consumes : Consumes (.alone 0) 1 body walk (.map pair extra value)) {result : β} {last : Decoder}
    {request extended : Bytes}
    (done : body (.init request) = (.ok result, last)) (whole : (walk ⟨.init request, 0, 0⟩).2.owed = 0)
    (grows : Growth.map pair extra value 0 request extended) : ∃ dec, body (.init extended) = (.ok result, dec) :=
  grown_request consumes rfl done whole grows

end

/-- A request that is accepted and read as a whole yields the same parameters after any pairs
have been put into its maps that the parser passes over. -/
theorem passed_pairs_change_nothing (crypto : Crypto) (kind : Kind) (request extended : Bytes)
    (accepted : kind.accepts crypto request = true) (whole : (kind.layout.survey request).owed = 0)
    (inserted : kind.grows Passed Skipped request extended) : kind.parse crypto extended = kind.parse crypto request := by
  cases kind with
  | makeCredential =>
    dsimp only [Kind.accepts, parseMakeCredParams] at accepted
    dsimp only [Kind.parse, parseMakeCredParams]
    rcases done : readRequest idSlots excludeListKey (makeCredField crypto) .zero ⟨.init request,
      .empty⟩ with ⟨_ | params, scan⟩
    · rw [done] at accepted
      cases accepted
    · obtain ⟨dec, again⟩ := grown_request (consumes_makeCredential crypto) rfl done whole inserted
      have again : readRequest idSlots excludeListKey (makeCredField crypto) .zero ⟨.init extended, .empty⟩ =
        (.ok params, scan.putDec dec) := again
      rw [again]
      rfl
  | getAssertion =>
    dsimp only [Kind.accepts, parseGetAssertionParams] at accepted
    dsimp only [Kind.parse, parseGetAssertionParams]
    rcases done : readRequest idSlots allowListKey (getAssertionField crypto) .zero ⟨.init request,
      .empty⟩ with ⟨_ | params, scan⟩
    · rw [done] at accepted
      cases accepted
    · obtain ⟨dec, again⟩ := grown_request (consumes_getAssertion crypto) rfl done whole inserted
      have again : readRequest idSlots allowListKey (getAssertionField crypto) .zero ⟨.init extended, .empty⟩ =
        (.ok params, scan.putDec dec) := again
      rw [again]
      rfl
  | clientPin =>
    dsimp only [Kind.accepts, parseClientPinParams] at accepted
    dsimp only [Kind.parse, parseClientPinParams]
    rcases done : parseUintMap clientPinField .zero (.init request) with ⟨_ | params, last⟩
    · rw [done] at accepted
      cases accepted
    · obtain ⟨dec, again⟩ := grown_request_alone (consumes_clientPin .zero) done whole inserted
      rw [again]
  | bioEnrollment =>
    dsimp only [Kind.accepts, parseBioEnrollParams] at accepted
    dsimp only [Kind.parse, parseBioEnrollParams]
    rcases done : parseUintMap bioEnrollField .zero (.init request) with ⟨_ | params, last⟩
    · rw [done] at accepted
      cases accepted
    · obtain ⟨dec, again⟩ := grown_request_alone (consumes_bioEnrollment .zero) done whole inserted
      rw [again]
  | credentialManagement =>
    dsimp only [Kind.accepts, parseCredMgmtParams] at accepted
    dsimp only [Kind.parse, parseCredMgmtParams]
    rcases done : parseUintMap credMgmtField .zero (.init request) with ⟨_ | params, last⟩
    · rw [done] at accepted
      cases accepted
    · obtain ⟨dec, again⟩ := grown_request_alone (consumes_credentialManagement .zero) done whole inserted
      rw [again]

def isItem (bytes : Bytes) : Bool := (skip (.init bytes)).1.isOk && (skip (.init bytes)).2.offset == bytes.length

private theorem encodes_of_isItem {bytes : Bytes} (item : isItem bytes = true) : Encodes (maxDepth + 1) bytes := by
  unfold isItem at item
  rcases done : skip (.init bytes) with ⟨_ | _, last⟩
  · rw [done] at item
    cases item
  · rw [done, Bool.and_eq_true, beq_iff_eq] at item
    obtain ⟨found, here, rfl, encodes⟩ := passes_skipItemDepth _ _ _ _ done
    have long : bytes.length = found.length := item.2.symm.trans (Nat.zero_add _)
    have same : bytes = found := (List.append_inj ((List.append_nil bytes).trans here) long).1
    rwa [same]

private theorem leaves_pair {key value : Bytes} (first : isItem key = true) (second : isItem value = true) :
    Leaves Cbor.Token 2 (key ++ value) 0 :=
  ((encodes_of_isItem first).leaves.frame 1).append (encodes_of_isItem second).leaves

/-- A request for an assertion with these options, and with these pairs after them. -/
def assertionPieces (options : Bytes) (others : List Bytes) : List Bytes :=
  [[0x01] ++ [0x61, 0x61], [0x02] ++ ([0x58, 0x20] ++ List.replicate 32 0), [0x05] ++ options] ++ others

def verifyOption : Bytes := [0x62, 0x75, 0x76] ++ [0xF5]

def arrayOption : Bytes := [0x61, 0x78] ++ [0x81, 0x00]

def verifyOptions : Bytes := [0xA1] ++ [verifyOption].flatten

def moreOptions : Bytes := [0xA2] ++ [arrayOption, verifyOption].flatten

def verifyRequest : Bytes := [0xA3] ++ (assertionPieces verifyOptions []).flatten

private theorem announces_short {first : UInt8} {count : Nat} (major : Major.ofHead first = .map)
    (short : first &&& 0x1F ≤ 23)
    (counted : (first &&& 0x1F).toNat = count) : Announces .map [first] count := by
  refine ⟨first, [], ⟨.map, first &&& 0x1F, (first &&& 0x1F).toUInt64⟩, rfl, ⟨major.symm, rfl, if_pos short, ?_⟩, rfl, ?_⟩
  · rw [if_pos short]
    exact UInt8.toNat_toUInt64 _
  · exact (UInt8.toNat_toUInt64 _).trans counted

private theorem parts_verifyOptions : Parts .map 2 verifyOptions [verifyOption] := by
  refine ⟨[0xA1], announces_short (by decide) (by decide) (by decide), rfl, fun piece inside => ?_⟩
  cases List.mem_singleton.mp inside
  exact leaves_pair rfl rfl

private theorem parts_moreOptions : Parts .map 2 moreOptions [arrayOption, verifyOption] := by
  refine ⟨[0xA2], announces_short (by decide) (by decide) (by decide), rfl, fun piece inside => ?_⟩
  rw [List.mem_pair] at inside
  obtain rfl | rfl := inside
  · exact leaves_pair rfl rfl
  · exact leaves_pair rfl rfl

private theorem leaves_assertionPieces {options : Bytes} {others : List Bytes} (item : isItem options = true)
    (whole : ∀ piece ∈ others, Leaves Cbor.Token 2 piece 0) : ∀ piece ∈ assertionPieces options others,
    Leaves Cbor.Token 2 piece 0 := by
  intro piece inside
  obtain inside | inside := List.mem_append.mp inside
  · simp only [List.mem_cons, List.not_mem_nil, or_false] at inside
    obtain rfl | rfl | rfl := inside
    · exact leaves_pair rfl rfl
    · exact leaves_pair rfl rfl
    · exact leaves_pair rfl item
  · exact whole piece inside

private theorem parts_verifyRequest : Parts .map 2 verifyRequest (assertionPieces verifyOptions []) :=
  ⟨[0xA3], announces_short (by decide) (by decide) (by decide), rfl, leaves_assertionPieces rfl nofun⟩

/-- The request with another number for a key at its end, whose value is skipped. -/
theorem passed_pairs_change_nothing_ninth :
    Kind.getAssertion.parse tagCipher ([0xA4] ++ (assertionPieces verifyOptions [[0x09] ++ [0x81, 0x00]]).flatten) =
    Kind.getAssertion.parse tagCipher verifyRequest := by
  apply passed_pairs_change_nothing
  · decide +kernel
  · decide +kernel
  refine ⟨_, _, parts_verifyRequest, ⟨[0xA4], announces_short (by decide) (by decide) (by decide), rfl,
    leaves_assertionPieces rfl ?_⟩, ?_⟩
  · intro piece inside
    cases List.mem_singleton.mp inside
    exact leaves_pair rfl rfl
  · exact .keep (.keep (.keep (.insert ⟨[0x09], [0x81, 0x00], .uint 9, rfl, reads_nextUint 9, rfl,
      encodes_of_isItem rfl⟩ (.nil _))))

def moreRequest : Bytes := [0xA3] ++ (assertionPieces moreOptions []).flatten

private theorem unknown_arrayOption : Unknown (Handling.options ["uv", "up"]) arrayOption := by
  refine ⟨[0x61, 0x78], [0x81, 0x00], rfl, (encodes_of_isItem rfl).leaves, (encodes_of_isItem rfl).leaves, ?_⟩
  intro item reads
  have text : (decodeNext (.init [0x61, 0x78])).1 = .ok (.tstr [0x78]) := rfl
  rw [reads (.init [0x61, 0x78]) [] rfl rfl] at text
  cases text
  decide +kernel

private theorem grows_moreRequest : Kind.getAssertion.grows Unknown (Unknown (Handling.names ["id"]))
    verifyRequest moreRequest := by
  refine ⟨_, _, parts_verifyRequest, ⟨[0xA3], announces_short (by decide) (by decide) (by decide), rfl,
    leaves_assertionPieces rfl nofun⟩, .keep (.keep (.grow ?_ (.nil _)))⟩
  refine ⟨[0x05], .uint 5, verifyOptions, moreOptions, rfl, rfl, reads_nextUint 5, ?_⟩
  exact ⟨_, _, parts_verifyOptions, parts_moreOptions, .insert unknown_arrayOption (.keep (.nil _))⟩

/-- The value of an option that is not known is looked at by its head. The item of an array
is then taken for a key, and the option that follows for its value. -/
theorem unknown_option_hides_verification : ¬ ∀ request extended, Kind.getAssertion.accepts tagCipher request = true →
    (Kind.getAssertion.layout.survey request).owed = 0 →
    Kind.getAssertion.grows Unknown (Unknown (Handling.names ["id"])) request extended →
    Kind.getAssertion.parse tagCipher extended = Kind.getAssertion.parse tagCipher request := by
  intro same
  have wrong := same verifyRequest moreRequest (by decide +kernel) (by decide +kernel) grows_moreRequest
  have asked : (parseGetAssertionParams tagCipher verifyRequest).toOption.map (fun read => read.1.uvRequested) =
    some true := by
    decide +kernel
  have lost : (parseGetAssertionParams tagCipher moreRequest).toOption.map (fun read => read.1.uvRequested) = some false := by
    decide +kernel
  have wrong : parseGetAssertionParams tagCipher moreRequest = parseGetAssertionParams tagCipher verifyRequest := wrong
  rw [wrong, asked] at lost
  cases lost

end Hiya.Fido2
