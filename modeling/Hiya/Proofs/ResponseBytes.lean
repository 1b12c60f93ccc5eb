import Hiya.Library.Ends
import Hiya.Fido2.Process
import Hiya.Proofs.CborReads

/-! The authenticator data inside an encoded response. The encoder goes on after an
error and only the flag is looked at in the end, so a response that was sent begins
with exactly the bytes of its first items. -/

namespace Hiya.Cbor
open Library

structure Grows (before after : Encoder) : Prop where
  sticks : before.error = true → after.error = true
  appends : before.buf <+: after.buf
  room : after.capacity = before.capacity
  fits : before.buf.length ≤ before.capacity → after.buf.length ≤ after.capacity

instance : IsPreorder Encoder Grows where
  refl _ := ⟨id, List.prefix_refl _, rfl, id⟩
  trans _ _ _ first second :=
    ⟨fun failed => second.sticks (first.sticks failed), first.appends.trans second.appends, second.room.trans first.room,
      fun fits => second.fits (first.fits fits)⟩

theorem grows_encFail {α : Type} (problem : Error) : Proc.Moves Grows (encFail problem : Encode α) :=
  .bind (.modify fun _ => ⟨fun _ => rfl, List.prefix_refl _, rfl, id⟩) fun _ => .fail _

theorem grows_encWrite (bytes : Bytes) : Proc.Moves Grows (encWrite bytes) := by
  intro enc
  have ends : Proc.Ends (encWrite bytes) enc fun _ reached => Grows enc reached := by
    apply Proc.Ends.get
    apply Proc.Ends.ite
    · exact fun _ => refl_of Grows enc
    · intro _
      apply Proc.Ends.ite
      · exact fun _ => grows_encFail .overflow enc
      · intro within
        refine ⟨id, List.prefix_append _ _, rfl, fun _ => ?_⟩
        change (enc.buf ++ bytes).length ≤ enc.capacity
        rw [List.length_append]
        omega
  exact ends

theorem grows_encHead (major : Major) (value : Nat) : Proc.Moves Grows (encHead major value) := by
  have wide (head : Bytes) (width : Nat) :
      Proc.Moves Grows (encWrite head >>= fun _ => encWrite (beBytes width value)) :=
    .bind (grows_encWrite _) fun _ => grows_encWrite _
  exact .ite (grows_encWrite _) (.ite (wide _ 1) (.ite (wide _ 2) (.ite (wide _ 4) (wide _ 8))))

theorem grows_encTrackItem : Proc.Moves Grows encTrackItem := .modify fun _ => ⟨id, List.prefix_refl _, rfl, id⟩

theorem grows_encodeUint (value : UInt64) : Proc.Moves Grows (encodeUint value) :=
  .bind (grows_encHead _ _) fun _ => grows_encTrackItem

theorem grows_encodeNegint (value : UInt64) : Proc.Moves Grows (encodeNegint value) :=
  .bind (grows_encHead _ _) fun _ => grows_encTrackItem

theorem grows_encodeString (major : Major) (data : Bytes) : Proc.Moves Grows (encodeString major data) := by
  refine .bind (grows_encHead _ _) fun _ => .ite ?_ grows_encTrackItem
  exact .bind (grows_encWrite _) fun _ => grows_encTrackItem

theorem grows_encodeContainer (major : Major) (count items : Nat) : Proc.Moves Grows (encodeContainer major count items) := by
  refine .bind .get fun enc => .ite (grows_encFail _) (.bind (grows_encHead _ _) fun _ => .ite grows_encTrackItem ?_)
  exact .modify fun _ => ⟨id, List.prefix_refl _, rfl, id⟩

def Emits (body : Encode Unit) (bytes : Bytes) : Prop := ∀ enc : Encoder, enc.error = false →
  Proc.Ends body enc fun outcome reached =>
    ((∃ problem, outcome = .error problem) ∧ reached.error = true) ∨
      (outcome = .ok () ∧ reached.error = false ∧ reached.buf = enc.buf ++ bytes)

theorem emits_encFail (problem : Error) (bytes : Bytes) : Emits (encFail problem) bytes :=
  fun _ _ => .inl ⟨⟨_, rfl⟩, rfl⟩

theorem emits_modify {change : Encoder → Encoder} (error : ∀ enc, (change enc).error = enc.error)
    (buf : ∀ enc, (change enc).buf = enc.buf) : Emits (Proc.modify change) [] :=
  fun enc clear => .inr ⟨rfl, (error enc).trans clear, by rw [List.append_nil]; exact buf enc⟩

theorem Emits.bind {first second : Encode Unit} {head tail : Bytes} (start : Emits first head)
    (continues : Emits second tail) : Emits (first >>= fun _ => second) (head ++ tail) := by
  intro enc clear
  apply Proc.Ends.bind
  refine (start enc clear).mono ?_
  rintro outcome reached (⟨⟨problem, rfl⟩, failed⟩ | ⟨rfl, clear, written⟩)
  · exact .inl ⟨⟨problem, rfl⟩, failed⟩
  · refine (continues reached clear).mono ?_
    rintro outcome last (failed | ⟨done, clear, more⟩)
    · exact .inl failed
    · exact .inr ⟨done, clear, by rw [more, written, List.append_assoc]⟩

theorem emits_encWrite (bytes : Bytes) : Emits (encWrite bytes) bytes := by
  intro enc clear
  apply Proc.Ends.get
  rw [clear]
  apply Proc.Ends.ite
  · exact fun set => by cases set
  · intro _
    apply Proc.Ends.ite
    · exact fun _ => emits_encFail .overflow bytes enc clear
    · exact fun _ => .inr ⟨rfl, clear, rfl⟩

theorem emits_encHead (major : Major) (value : Nat) : Emits (encHead major value) (headBytes major value) := by
  unfold encHead headBytes additionalOf argumentBytes
  split
  · exact emits_encWrite _
  split
  · exact (emits_encWrite _).bind (emits_encWrite _)
  split
  · exact (emits_encWrite _).bind (emits_encWrite _)
  split
  · exact (emits_encWrite _).bind (emits_encWrite _)
  · exact (emits_encWrite _).bind (emits_encWrite _)

theorem emits_item (major : Major) (value : Nat) :
    Emits (encHead major value >>= fun _ => encTrackItem) (headBytes major value) := by
  have written := (emits_encHead major value).bind (emits_modify (fun _ => rfl) fun _ => rfl : Emits encTrackItem [])
  rwa [List.append_nil] at written

theorem emits_encodeUint (value : UInt64) : Emits (encodeUint value) (headBytes .uint value.toNat) := emits_item _ _

theorem emits_encodeNegint (value : UInt64) : Emits (encodeNegint value) (headBytes .negint value.toNat) := emits_item _ _

theorem emits_encodeString (major : Major) (data : Bytes) :
    Emits (encodeString major data) (headBytes major data.length ++ data) := by
  unfold encodeString
  split
  · have body := (emits_encWrite data).bind (emits_modify (fun _ => rfl) fun _ => rfl : Emits encTrackItem [])
    rw [List.append_nil] at body
    exact (emits_encHead _ _).bind body
  next none =>
    have empty : data = [] := List.length_eq_zero_iff.mp (by omega)
    subst empty
    rw [List.append_nil]
    exact emits_item _ _

theorem emits_encodeContainer (major : Major) (count items : Nat) :
    Emits (encodeContainer major count items) (headBytes major count) := by
  intro enc clear
  apply Proc.Ends.get
  apply Proc.Ends.ite
  · exact fun _ => emits_encFail .nesting _ enc clear
  · intro _
    have opened : Emits (if count = 0 then encTrackItem
        else Proc.modify fun enc => enc.setStack ({ count := items, written := 0 } :: enc.stack)) [] := by
      split
      · exact emits_modify (fun _ => rfl) fun _ => rfl
      · exact emits_modify (fun _ => rfl) fun _ => rfl
    have written := (emits_encHead major count).bind opened
    rw [List.append_nil] at written
    exact written enc clear

end Hiya.Cbor

namespace Hiya.Fido2
open Library Cbor

theorem each_grows {items : List (Encode Unit)} (grow : ∀ item ∈ items, Proc.Moves Grows item) (enc : Encoder) :
    Grows enc (Proc.each (fun item => (item.ignore : Encode Unit)) items enc).2 := by
  induction items generalizing enc with
  | nil => exact refl_of Grows enc
  | cons item rest ih =>
    have head := grow item List.mem_cons_self enc
    exact trans_of Grows head (ih (fun other inside => grow other (List.mem_cons_of_mem _ inside)) (item enc).2)

theorem each_ok (items : List (Encode Unit)) (enc : Encoder) :
    Proc.each (fun item => (item.ignore : Encode Unit)) items enc =
      (.ok (), (Proc.each (fun item => (item.ignore : Encode Unit)) items enc).2) := by
  induction items generalizing enc with
  | nil => rfl
  | cons item rest ih => exact ih (item enc).2

structure Sends (items : List (Encode Unit)) (bytes : Bytes) : Prop where
  grows : ∀ item ∈ items, Proc.Moves Grows item
  writes : ∀ enc : Encoder, enc.error = false → ∀ reached,
    (Proc.each (fun item => (item.ignore : Encode Unit)) items enc).2 = reached → reached.error = false →
      reached.buf = enc.buf ++ bytes

namespace Sends
variable {items : List (Encode Unit)} {tail : Bytes}

protected theorem nil : Sends [] [] where
  grows _ inside := absurd inside List.not_mem_nil
  writes enc _ reached same _ := by
    rw [List.append_nil]
    exact congrArg Encoder.buf same.symm

protected theorem cons {item : Encode Unit} {head : Bytes} (grow : Proc.Moves Grows item) (emit : Emits item head)
    (rest : Sends items tail) : Sends (item :: items) (head ++ tail) where
  grows := List.forall_mem_cons.mpr ⟨grow, rest.grows⟩
  writes enc clear reached same fine := by
    rcases emit enc clear with ⟨-, failed⟩ | ⟨-, clear, written⟩
    · -- an error would still be there at the end
      have kept := (each_grows rest.grows (item enc).2).sticks failed
      rw [show (Proc.each (fun item => (item.ignore : Encode Unit)) items (item enc).2).2 = reached from same, fine] at kept
      cases kept
    · rw [rest.writes (item enc).2 clear reached same fine, written, List.append_assoc]

protected theorem append {more : List (Encode Unit)} {back : Bytes} (first : Sends items tail) (second : Sends more back) :
    Sends (items ++ more) (tail ++ back) where
  grows item inside := (List.mem_append.mp inside).elim (first.grows item) (second.grows item)
  writes enc clear reached same fine := by
    rw [Proc.each_append, Proc.bind_apply, each_ok] at same
    have between := Bool.eq_false_iff.mpr fun failed =>
      Bool.eq_false_iff.mp fine (same ▸ (each_grows second.grows _).sticks failed)
    rw [second.writes _ between reached same fine, first.writes enc clear _ rfl between, List.append_assoc]

protected theorem uint (value : UInt64) (rest : Sends items tail) :
    Sends (encodeUint value :: items) (headBytes .uint value.toNat ++ tail) :=
  .cons (grows_encodeUint value) (emits_encodeUint value) rest

protected theorem negint (value : UInt64) (rest : Sends items tail) :
    Sends (encodeNegint value :: items) (headBytes .negint value.toNat ++ tail) :=
  .cons (grows_encodeNegint value) (emits_encodeNegint value) rest

protected theorem bstr (data : Bytes) (rest : Sends items tail) :
    Sends (encodeBstr data :: items) ((headBytes .bstr data.length ++ data) ++ tail) :=
  .cons (grows_encodeString _ data) (emits_encodeString _ data) rest

protected theorem tstr (data : Bytes) (rest : Sends items tail) :
    Sends (encodeTstr data :: items) ((headBytes .tstr data.length ++ data) ++ tail) :=
  .cons (grows_encodeString _ data) (emits_encodeString _ data) rest

protected theorem text (text : String) (rest : Sends items tail) :
    Sends (encodeText text :: items) ((headBytes .tstr (ascii text).length ++ ascii text) ++ tail) := .tstr (ascii text) rest

protected theorem map (count : Nat) (rest : Sends items tail) : Sends (encodeMap count :: items)
    (headBytes .map count ++ tail) :=
  .cons (grows_encodeContainer _ _ _) (emits_encodeContainer _ _ _) rest

protected theorem array (count : Nat) (rest : Sends items tail) :
    Sends (encodeArray count :: items) (headBytes .array count ++ tail) :=
  .cons (grows_encodeContainer _ _ _) (emits_encodeContainer _ _ _) rest

protected theorem bool (value : Bool) (rest : Sends items tail) :
    Sends (encodeBool value :: items) (headBytes .simple (if value then trueValue else falseValue).toNat ++ tail) :=
  .cons (.bind (grows_encHead _ _) fun _ => grows_encTrackItem) (emits_item _ _) rest

protected theorem optional {condition : Prop} [Decidable condition] (sends : Sends items tail) :
    Sends (if condition then items else []) (if condition then tail else []) := by
  split
  · exact sends
  · exact .nil

theorem sent {bytes : Bytes} (sends : Sends items tail) {capacity : Nat} (made : encodeItems capacity items = some bytes) :
    bytes = tail := by
  unfold encodeItems at made
  dsimp only at made
  split at made
  · cases made
  next fine =>
    cases made
    have written := sends.writes (Encoder.init capacity) rfl _ rfl (Bool.eq_false_iff.mpr fine)
    exact written

end Sends

def registrationBytes (authData der : Bytes) : Bytes :=
  headBytes .map 3 ++ (headBytes .uint 1 ++ ((headBytes .tstr 6 ++ ascii "packed") ++ (headBytes .uint 2 ++
    ((headBytes .bstr authData.length ++ authData) ++
      (headBytes .uint 3 ++ (headBytes .map 2 ++ ((headBytes .tstr 3 ++ ascii "alg") ++
      (headBytes .negint 6 ++ ((headBytes .tstr 3 ++ ascii "sig") ++ ((headBytes .bstr der.length ++ der) ++ []))))))))))

theorem sends_registration (authData der : Bytes) : Sends (registrationItems authData der) (registrationBytes authData der) :=
  .map 3 (.uint 1 (.text "packed" (.uint 2
    (.bstr authData (.uint 3 (.map 2 (.text "alg" (.negint 6 (.text "sig" (.bstr der .nil))))))))))

def coseKeyBytes (pubkey : Buf 65) : Bytes :=
  let first := (sliceAt pubkey.bytes 1 32).bytes
  let second := (sliceAt pubkey.bytes 33 32).bytes
  headBytes .map 5 ++ (headBytes .uint 1 ++
    (headBytes .uint 2 ++ (headBytes .uint 3 ++ (headBytes .negint 6 ++ (headBytes .negint 0 ++
    (headBytes .uint 1 ++ (headBytes .negint 1 ++ ((headBytes .bstr first.length ++ first) ++ (headBytes .negint 2 ++
      ((headBytes .bstr second.length ++ second) ++ []))))))))))

theorem sends_coseKey {pubkey : Buf 65} {items : List (Encode Unit)} (made : cosePubkeyItems pubkey = some items) :
    Sends items (coseKeyBytes pubkey) := by
  unfold cosePubkeyItems at made
  split at made
  · cases made
  · cases made
    exact .map 5 (.uint 1 (.uint 2 (.uint 3
      (.negint 6 (.negint 0 (.uint 1 (.negint 1 (.bstr _ (.negint 2 (.bstr _ .nil))))))))))

def userBytes (user : User) : Bytes :=
  headBytes .map 3 ++ ((headBytes .tstr 2 ++ ascii "id") ++ ((headBytes .bstr user.id.bytes.length ++ user.id.bytes) ++
    ((headBytes .tstr 4 ++ ascii "name") ++ ((headBytes .tstr user.name.bytes.length ++ user.name.bytes) ++
      ((headBytes .tstr 11 ++ ascii "displayName") ++
        ((headBytes .tstr user.displayName.bytes.length ++ user.displayName.bytes) ++ []))))))

theorem sends_user (user : User) : Sends (userItems user) (userBytes user) :=
  .map 3 (.text "id" (.bstr _ (.text "name" (.tstr _ (.text "displayName" (.tstr _ .nil))))))

def descriptorBytes (credId : CredentialId) : Bytes :=
  headBytes .map 2 ++ ((headBytes .tstr 2 ++ ascii "id") ++ ((headBytes .bstr credId.bytes.length ++ credId.bytes) ++
    ((headBytes .tstr 4 ++ ascii "type") ++ ((headBytes .tstr 10 ++ ascii "public-key") ++ []))))

theorem sends_descriptor (credId : CredentialId) : Sends (descriptorItems credId) (descriptorBytes credId) :=
  .map 2 (.text "id" (.bstr _ (.text "type" (.text "public-key" .nil))))

def registrationAuthData : Decode Bytes := do
  let _ ← decodeMap
  let _ ← decodeUint
  let _ ← decodeTstr
  let _ ← decodeUint
  decodeBstr

def assertionAuthData : Decode Bytes := do
  let _ ← decodeMap
  let _ ← decodeUint
  let _ ← decodeMap
  let _ ← decodeTstr
  let _ ← decodeBstr
  let _ ← decodeTstr
  let _ ← decodeTstr
  let _ ← decodeUint
  decodeBstr

theorem encodeItems_length {items : List (Encode Unit)} (grow : ∀ item ∈ items, Proc.Moves Grows item) {capacity : Nat}
    {bytes : Bytes} (sent : encodeItems capacity items = some bytes) : bytes.length ≤ capacity := by
  unfold encodeItems at sent
  dsimp only at sent
  split at sent
  · cases sent
  · cases sent
    have grown := each_grows grow (Encoder.init capacity)
    exact (grown.fits (Nat.zero_le _)).trans (Nat.le_of_eq grown.room)

/-- Authenticator data begins with the party, the flags and the counter. -/
theorem buildAuthData_front {cap : Nat} {rpIdHash : Buf 32} {flags : UInt8} {signCount : UInt32}
    {attested : Option (CredentialId × Buf 65)} {data : Bytes}
    (built : buildAuthData cap rpIdHash flags signCount attested = some data) :
    (∃ more, data = rpIdHash.bytes ++ [flags] ++ beBytes 4 signCount.toNat ++ more) ∧ data.length ≤ cap := by
  unfold buildAuthData at built
  dsimp only at built
  split at built
  · cases built
  next fits =>
    have plain : rpIdHash.bytes ++ [flags] ++ beBytes 4 signCount.toNat = data → (∃ more,
        data = rpIdHash.bytes ++ [flags] ++ beBytes 4 signCount.toNat ++ more) ∧ data.length ≤ cap := by
      intro same
      exact ⟨⟨[], by rw [← same, List.append_nil]⟩, same ▸ Nat.le_of_not_gt fits⟩
    split at built
    · split at built
      · exact plain (Option.some.inj built)
      · obtain ⟨rest, made, same⟩ := Option.map_eq_some_iff.mp built
        refine ⟨⟨rest, same.symm⟩, ?_⟩
        unfold attestedData at made
        dsimp only at made
        split at made
        · cases made
        next room =>
          obtain ⟨items, shaped, made⟩ := Option.bind_eq_some_iff.mp made
          obtain ⟨key, encoded, made⟩ := Option.bind_eq_some_iff.mp made
          have short := encodeItems_length (sends_coseKey shaped).grows encoded
          cases made
          rw [← same]
          simp only [List.length_append] at room short ⊢
          omega
    · exact plain (Option.some.inj built)

theorem sends_extensions (params : MakeCredParams) : ∃ bytes, Sends (extensionItems params) bytes := by
  have level := Sends.text "credProtect" (.uint params.credProtect.toUInt64 .nil)
  have secret := Sends.text "hmac-secret" (.bool true .nil)
  exact ⟨_, ((Sends.map _ .nil).append (.optional level)).append (.optional secret)⟩

def authFlags (data : Bytes) : Option UInt8 := data[32]?

theorem authFlags_front (rpIdHash : Buf 32) (flags : UInt8) (rest : Bytes) :
    authFlags (rpIdHash.bytes ++ [flags] ++ rest) = some flags := by
  unfold authFlags
  rw [List.append_assoc, List.getElem?_append_right (by simp), Buf.length_bytes]
  rfl

/-- Authenticator data that was made for these flags, short enough to be encoded. -/
structure AuthDataOf (flags : UInt8) (data : Bytes) : Prop where
  flagged : authFlags data = some flags
  long : 37 ≤ data.length
  short : data.length ≤ 512

theorem AuthDataOf.of_front {rpIdHash : Buf 32} {flags : UInt8} {signCount : UInt32} {more : Bytes}
    (short : (rpIdHash.bytes ++ [flags] ++ beBytes 4 signCount.toNat ++ more).length ≤ 512) :
    AuthDataOf flags (rpIdHash.bytes ++ [flags] ++ beBytes 4 signCount.toNat ++ more) := by
  refine ⟨by rw [List.append_assoc]; exact authFlags_front _ _ _, ?_, short⟩
  simp only [List.length_append, Buf.length_bytes, List.length_singleton, beBytes_length]
  omega

theorem assertionData_of {rpIdHash : Buf 32} {flags : UInt8} {signCount : UInt32} {data : Bytes}
    (built : buildAuthData 256 rpIdHash flags signCount none = some data) : AuthDataOf flags data := by
  obtain ⟨⟨more, rfl⟩, short⟩ := buildAuthData_front built
  exact .of_front (short.trans (by decide))

theorem registrationData_of {params : MakeCredParams} {uv : Bool} {signCount : UInt32} {credId : CredentialId}
    {pubkey : Buf 65}
    {data : Bytes} (built : registrationData params uv signCount credId pubkey = some data) :
    AuthDataOf (makeCredentialFlags params uv) data := by
  obtain ⟨front, made, built⟩ := Option.bind_eq_some_iff.mp built
  obtain ⟨⟨more, rfl⟩, short⟩ := buildAuthData_front made
  split at built
  · obtain ⟨extensions, encoded, built⟩ := Option.bind_eq_some_iff.mp built
    obtain ⟨_, sends⟩ := sends_extensions params
    have small := encodeItems_length sends.grows encoded
    cases built
    rw [List.append_assoc _ more]
    apply AuthDataOf.of_front
    rw [← List.append_assoc, List.length_append]
    omega
  · cases built
    exact .of_front short

section
variable {capacity : Nat} {authData bytes : Bytes}

theorem reads_init {α : Type} {body : Decode α} {front : Bytes} {value : α} (reads : Reads body front value)
    (more : Bytes) : (body (Decoder.init (front ++ more))).1 = .ok value := by
  rw [reads (Decoder.init (front ++ more)) more rfl rfl]

theorem registration_reads_back {der : Bytes} {flags : UInt8} (made : AuthDataOf flags authData)
    (sent : encodeItems capacity (registrationItems authData der) = some bytes) :
    (registrationAuthData (Decoder.init bytes)).1 = .ok authData := by
  have long := made.long
  have short := made.short
  have small : authData.length < 2 ^ 64 := by omega
  have front : ∃ more, bytes = headBytes .map 3 ++ (headBytes .uint 1 ++ ((headBytes .tstr 6 ++ ascii "packed") ++
      (headBytes .uint 2 ++ (headBytes .bstr authData.length ++ authData)))) ++ more := by
    rw [(sends_registration authData der).sent sent]
    unfold registrationBytes
    simp only [List.append_assoc]
    exact ⟨_, rfl⟩
  obtain ⟨more, rfl⟩ := front
  apply reads_init
  refine (readsAhead_map 3 (by decide)).bind ?_ ?_
  · simp only [List.length_append]
    omega
  · exact (reads_uint 1).bind ((reads_tstr (ascii "packed") (by decide)).bind
      ((reads_uint 2).bind (reads_bstr authData small)))

def assertionRest (der : Bytes) (user : Option User) (includeUser : Bool) (total : Nat) : List (Encode Unit) :=
  [encodeUint 0x03, encodeBstr der] ++
    (match includeUser, user with
    | true, some user => [encodeUint 0x04] ++ userItems user
    | _, _ => []) ++
    (if total > 1 then [encodeUint 0x05, encodeUint (UInt64.ofNat total)] else [])

theorem sends_assertionRest (der : Bytes) (user : Option User) (includeUser : Bool) (total : Nat) :
    ∃ bytes, Sends (assertionRest der user includeUser total) bytes := by
  have named : ∃ bytes, Sends (match includeUser, user with
      | true, some user => [encodeUint 0x04] ++ userItems user
      | _, _ => []) bytes := by
    split
    · exact ⟨_, (Sends.uint 4 .nil).append (sends_user _)⟩
    · exact ⟨[], .nil⟩
  obtain ⟨_, named⟩ := named
  have counted := Sends.uint 5 (.uint (UInt64.ofNat total) .nil)
  exact ⟨_, ((Sends.uint 3 (.bstr der .nil)).append named).append (.optional counted)⟩

theorem assertion_reads_back {credId : CredentialId} {der : Bytes} {user : Option User} {includeUser : Bool} {total : Nat}
    {flags : UInt8} (made : AuthDataOf flags authData)
    (sent : encodeItems capacity (assertionItems credId authData der user includeUser total) = some bytes) :
    (assertionAuthData (Decoder.init bytes)).1 = .ok authData := by
  have long := made.long
  have short := made.short
  have small : authData.length < 2 ^ 64 := by omega
  have named := credId.short
  have fields : 3 + (if includeUser then 1 else 0) + (if total > 1 then 1 else 0) ≤ 5 := by
    split
    · split
      · omega
      · omega
    · split
      · omega
      · omega
  obtain ⟨count, counted⟩ : ∃ count, count = 3 + (if includeUser then 1 else 0) + (if total > 1 then 1 else 0) := ⟨_, rfl⟩
  rw [← counted] at fields
  have shape : assertionItems credId authData der user includeUser total =
      [encodeMap count, encodeUint 0x01, encodeMap 2, encodeText "id", encodeBstr credId.bytes, encodeText "type",
        encodeText "public-key", encodeUint 0x02, encodeBstr authData] ++ assertionRest der user includeUser total := by
    subst counted
    cases includeUser <;> cases user <;> rfl
  rw [shape] at sent
  have front : ∃ more, bytes = headBytes .map count ++ (headBytes .uint 1 ++ (headBytes .map 2 ++
      ((headBytes .tstr 2 ++ ascii "id") ++ ((headBytes .bstr credId.bytes.length ++ credId.bytes) ++
      ((headBytes .tstr 4 ++ ascii "type") ++ ((headBytes .tstr 10 ++ ascii "public-key") ++
      (headBytes .uint 2 ++ (headBytes .bstr authData.length ++ authData)))))))) ++ more := by
    obtain ⟨more, rest⟩ := sends_assertionRest der user includeUser total
    have begins : Sends [encodeMap count, encodeUint 0x01, encodeMap 2, encodeText "id", encodeBstr credId.bytes,
      encodeText "type",
        encodeText "public-key", encodeUint 0x02, encodeBstr authData] _ :=
      .map count (.uint 1 (.map 2 (.text "id" (.bstr _ (.text "type" (.text "public-key" (.uint 2 (.bstr authData .nil))))))))
    rw [List.append_nil] at begins
    exact ⟨more, (begins.append rest).sent sent⟩
  obtain ⟨more, rfl⟩ := front
  apply reads_init
  refine (readsAhead_map count (by omega)).bind ?_ ((reads_uint 1).bind ((readsAhead_map 2 (by decide)).bind ?_ ?_))
  · simp only [List.length_append]
    omega
  · simp only [List.length_append]
    omega
  · refine (reads_tstr (ascii "id") (by decide)).bind ((reads_bstr credId.bytes ?_).bind ?_)
    · exact Nat.lt_of_le_of_lt named (by decide)
    · exact (reads_tstr (ascii "type") (by decide)).bind ((reads_tstr (ascii "public-key") (by decide)).bind
        ((reads_uint 2).bind (reads_bstr authData small)))

end

end Hiya.Fido2
