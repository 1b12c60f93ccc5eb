import Hiya.Library.Proc
import Hiya.Pm.VaultFormat
import Hiya.Proofs.KdfPrehash

/-! A vault that was written is read back. The fields of the header are apart from each
other, and the block behind it is read entry by entry. -/

namespace Hiya.Pm.Format
open Library

section
variable {α ε : Type} {problem : ε}

theorem ensure_eq_ok {condition : Prop} [Decidable condition] {nothing : Unit} :
    ensure condition problem = .ok nothing ↔ condition := by
  unfold ensure
  by_cases holds : condition
  · rw [if_pos holds]
    exact iff_of_true rfl holds
  · rw [if_neg holds]
    exact iff_of_false (fun wrong => by cases wrong) holds

theorem ensure_ok {condition : Prop} [Decidable condition] (holds : condition) : ensure condition problem = .ok () :=
  ensure_eq_ok.mpr holds

theorem orFail_eq_ok {given : Option α} {value : α} : orFail problem given = .ok value ↔ given = some value := by
  cases given with
  | none => exact iff_of_false (fun wrong => by cases wrong) (fun wrong => by cases wrong)
  | some other =>
    exact ⟨fun same => congrArg some (Except.ok.inj same), fun same => congrArg Except.ok (Option.some.inj same)⟩

theorem ofPm_eq_ok {given : Except PmError α} {value : α} : ofPm given = .ok value ↔ given = .ok value := by
  cases given with
  | error other => exact iff_of_false (fun wrong => by cases wrong) (fun wrong => by cases wrong)
  | ok other =>
    exact ⟨fun same => congrArg Except.ok (Except.ok.inj same), fun same => congrArg Except.ok (Except.ok.inj same)⟩

end

section
variable {blob front bytes back : Bytes}

theorem fetch_append (shape : blob = front ++ (bytes ++ back)) : fetch blob front.length bytes.length = .ok bytes := by
  have inside : front.length + bytes.length ≤ blob.length := by
    rw [shape, List.length_append, List.length_append]
    omega
  unfold fetch
  rw [if_pos inside, shape, List.drop_left, List.take_left]

theorem load_append (shape : blob = front ++ (bytes ++ back)) : load blob front.length bytes.length = .ok (leNat bytes) := by
  unfold load
  rw [fetch_append shape]
  rfl

theorem load_le {width value place : Nat} (small : value < 256 ^ width) (there : front.length = place)
    (shape : blob = front ++ (leBytes width value ++ back)) : load blob place width = .ok value := by
  have loaded : load blob front.length (leBytes width value).length = .ok (leNat (leBytes width value)) := load_append shape
  rwa [there, leBytes_length, leNat_leBytes, Nat.mod_eq_of_lt small] at loaded

/-- A part of the bytes at a place is the same in the file. -/
theorem load_inside (shape : blob = front ++ (bytes ++ back)) {width : Nat} (few : width ≤ bytes.length) :
    load blob front.length width = load bytes 0 width := by
  have whole : width = (bytes.take width).length := (List.length_take_of_le few).symm
  have outer : blob = front ++ (bytes.take width ++ (bytes.drop width ++ back)) := by
    rw [shape, ← List.append_assoc (bytes.take width), List.take_append_drop]
  have inner : bytes = [] ++ (bytes.take width ++ bytes.drop width) := by rw [List.nil_append, List.take_append_drop]
  have first : load blob front.length (bytes.take width).length = .ok (leNat (bytes.take width)) := load_append outer
  have second : load bytes ([] : Bytes).length (bytes.take width).length = .ok (leNat (bytes.take width)) := load_append inner
  rw [← whole] at first second
  exact first.trans second.symm

end

section
variable {blob front back : Bytes}

/-- What an entry means depends on its value only. -/
theorem kdfEntry_inside {value : Bytes} (shape : blob = front ++ (value ++ back)) (type : Nat) (scan : KdfScan) :
    kdfEntry blob type front.length value.length scan = kdfEntry value type 0 value.length scan := by
  have number (record : UInt32 → KdfScan) : kdfNumber blob front.length value.length record =
    kdfNumber value 0 value.length record := by
    unfold kdfNumber
    by_cases exact : value.length = 4
    · rw [load_inside shape (Nat.le_of_eq exact.symm)]
    · unfold ensure
      rw [if_neg exact]
      rfl
  unfold kdfEntry
  rw [number, number, number, number]
  by_cases four : value.length = 4
  · rw [load_inside shape (Nat.le_of_eq four.symm)]
    unfold ensure
    rw [if_neg (by omega : ¬ value.length = 2)]
    rfl
  · by_cases two : value.length = 2
    · rw [load_inside shape (Nat.le_of_eq two.symm)]
      unfold ensure
      rw [if_neg four]
      rfl
    · unfold ensure
      rw [if_neg four, if_neg two]
      rfl

theorem tlv_length (type : Nat) (value : Bytes) : (tlv type value).length = 8 + value.length := by
  unfold tlv
  simp only [List.length_append, leBytes_length]
  omega

theorem kdfEntries_tlv {type : Nat} {value : Bytes} (known : type < 256 ^ 2) (short : value.length < 256 ^ 4)
    (shape : blob = front ++ (tlv type value ++ back)) {finish : Nat} (room : front.length + (tlv type value).length ≤ finish)
    (count : Nat) (scan : KdfScan) :
    kdfEntries blob finish (count + 1) front.length scan =
      (kdfEntry value type 0 value.length scan >>= kdfEntries blob finish count (front ++ tlv type value).length) := by
  rw [tlv_length] at room
  have whole : blob = front ++ (leBytes 2 type ++ (leBytes 2 0 ++ (leBytes 4 value.length ++ (value ++ back)))) := by
    rw [shape]
    unfold tlv
    simp only [List.append_assoc]
  have sizePlace : (front ++ (leBytes 2 type ++ leBytes 2 0)).length = front.length + 4 := by
    rw [List.length_append, List.length_append, leBytes_length, leBytes_length]
  have valuePlace : (front ++ (leBytes 2 type ++ (leBytes 2 0 ++ leBytes 4 value.length))).length = front.length + 8 := by
    rw [List.length_append, List.length_append, List.length_append, leBytes_length, leBytes_length, leBytes_length]
  have after : (front ++ tlv type value).length = front.length + 8 + value.length := by
    rw [List.length_append, tlv_length, Nat.add_assoc]
  have typed : load blob front.length 2 = .ok type := load_le known rfl whole
  have sized : load blob (front.length + 4) 4 = .ok value.length := by
    have behind : blob = (front ++ (leBytes 2 type ++ leBytes 2 0)) ++ (leBytes 4 value.length ++ (value ++ back)) := by
      rw [whole]
      simp only [List.append_assoc]
    exact load_le short sizePlace behind
  have entered : kdfEntry blob type (front.length + 8) value.length scan = kdfEntry value type 0 value.length scan := by
    have behind : blob = (front ++ (leBytes 2 type ++ (leBytes 2 0 ++ leBytes 4 value.length))) ++ (value ++ back) := by
      rw [whole]
      simp only [List.append_assoc]
    rw [← valuePlace]
    exact kdfEntry_inside behind type scan
  rw [kdfEntries, ensure_ok (by omega : 8 ≤ finish - front.length), typed, sized, after]
  change (ensure (value.length ≤ finish - (front.length + 8)) _ >>= fun _ =>
    kdfEntry blob type (front.length + 8) value.length scan >>= _) = _
  rw [ensure_ok (by omega : value.length ≤ finish - (front.length + 8)), entered]
  rfl

def kdfMeaning (scan : KdfScan) (entry : Nat × Bytes) : Except Stop KdfScan := kdfEntry entry.2 entry.1 0 entry.2.length scan

/-- The entries of the block one after the other. -/
theorem kdfEntries_flatMap (entries : List (Nat × Bytes)) (fine : ∀ entry ∈ entries, entry.1 < 256 ^ 2 ∧
    entry.2.length < 256 ^ 4)
    (shape : blob = front ++ ((entries.flatMap fun entry => tlv entry.1 entry.2) ++ back)) {finish : Nat}
    (room : front.length + (entries.flatMap fun entry => tlv entry.1 entry.2).length ≤ finish) (scan : KdfScan) :
    kdfEntries blob finish entries.length front.length scan = entries.foldlM kdfMeaning scan := by
  induction entries generalizing front scan with
  | nil => rfl
  | cons entry rest ih =>
    obtain ⟨known, short⟩ := fine entry (List.mem_cons_self ..)
    rw [List.flatMap_cons, List.append_assoc] at shape
    rw [List.flatMap_cons, List.length_append] at room
    rw [List.length_cons, kdfEntries_tlv known short shape (by omega), List.foldlM_cons]
    have later (after : KdfScan) : kdfEntries blob finish rest.length (front ++ tlv entry.1 entry.2).length after =
      rest.foldlM kdfMeaning after := by
      refine ih (fun other inside => fine other (List.mem_cons_of_mem _ inside)) ?_ ?_ after
      · rw [shape, List.append_assoc]
      · rw [List.length_append]
        omega
    exact congrArg _ (funext later)

end

theorem load_only {width value : Nat} (small : value < 256 ^ width) : load (leBytes width value) 0 width = .ok value := by
  have shape : leBytes width value = [] ++ (leBytes width value ++ []) := by rw [List.nil_append, List.append_nil]
  exact load_le small rfl shape

theorem kdfNumber_le (value : UInt32) (record : UInt32 → KdfScan) :
    kdfNumber (leBytes 4 value.toNat) 0 (leBytes 4 value.toNat).length record = .ok (record value) := by
  unfold kdfNumber
  rw [ensure_ok (leBytes_length 4 _), load_only value.toNat_lt]
  change Except.ok (record (UInt32.ofNat value.toNat)) = _
  rw [UInt32.ofNat_toNat]

/-- The entries that are written for some parameters bring these parameters. -/
theorem foldlM_kdfTlvs (params : Params) {mode : CompositeMode}
    (known : compositeModeFromEnum params.compositeMode = some mode)
    (scan : KdfScan) : (kdfTlvs params).foldlM kdfMeaning scan =
      .ok { argon2 := params.argon2, compositeMode := params.compositeMode, mode, haveCompositeMode := true } := by
  have tCost (scan : KdfScan) : kdfMeaning scan (0x0001, leBytes 4 params.argon2.tCost.toNat) =
      .ok { scan with argon2 := { scan.argon2 with tCost := params.argon2.tCost } } :=
    kdfNumber_le params.argon2.tCost fun value => { scan with argon2 := { scan.argon2 with tCost := value } }
  have mCostKib (scan : KdfScan) : kdfMeaning scan (0x0002, leBytes 4 params.argon2.mCostKib.toNat) =
      .ok { scan with argon2 := { scan.argon2 with mCostKib := params.argon2.mCostKib } } :=
    kdfNumber_le params.argon2.mCostKib fun value => { scan with argon2 := { scan.argon2 with mCostKib := value } }
  have parallelism (scan : KdfScan) : kdfMeaning scan (0x0003, leBytes 4 params.argon2.parallelism.toNat) =
      .ok { scan with argon2 := { scan.argon2 with parallelism := params.argon2.parallelism } } :=
    kdfNumber_le params.argon2.parallelism fun value => { scan with argon2 := { scan.argon2 with parallelism := value } }
  have keySize (scan : KdfScan) : kdfMeaning scan (0x0004, leBytes 4 Argon2.keySize) = .ok scan := by
    have loaded : load (leBytes 4 Argon2.keySize) 0 4 = .ok Argon2.keySize := load_only (by decide)
    change (ensure _ _ >>= fun _ => load (leBytes 4 Argon2.keySize) 0 4 >>= _) = _
    rw [ensure_ok (leBytes_length 4 _), loaded]
    rfl
  have version (scan : KdfScan) : kdfMeaning scan (0x0005, leBytes 4 params.argon2.version.toNat) =
      .ok { scan with argon2 := { scan.argon2 with version := params.argon2.version } } :=
    kdfNumber_le params.argon2.version fun value => { scan with argon2 := { scan.argon2 with version := value } }
  have composite (scan : KdfScan) : kdfMeaning scan (0x0010, leBytes 2 params.compositeMode.toNat) =
      .ok { scan with compositeMode := params.compositeMode, mode, haveCompositeMode := true } := by
    have loaded : load (leBytes 2 params.compositeMode.toNat) 0 2 = .ok params.compositeMode.toNat :=
      load_only params.compositeMode.toNat_lt
    change (ensure _ _ >>= fun _ => load (leBytes 2 params.compositeMode.toNat) 0 2 >>= _) = _
    rw [ensure_ok (leBytes_length 2 _), loaded]
    change (orFail _ (compositeModeFromEnum (UInt16.ofNat params.compositeMode.toNat)) >>= _) = _
    rw [UInt16.ofNat_toNat, known]
    rfl
  unfold kdfTlvs
  simp only [List.foldlM_cons, tCost, mCostKib, parallelism, keySize, version, composite]
  rfl

theorem kdfTlvs_length (params : Params) : ((kdfTlvs params).flatMap fun entry => tlv entry.1 entry.2).length = 70 := by
  unfold kdfTlvs
  simp only [List.flatMap_cons, List.flatMap_nil, List.length_append, tlv_length, leBytes_length, List.length_nil]

theorem buildKdfBlock_length (params : Params) : (buildKdfBlock params).length = kdfBlockLen := by
  unfold buildKdfBlock
  simp only [List.length_append, leBytes_length, kdfTlvs_length]
  rfl

/-- The block that is written is read back, with defaults for what was left zero. -/
theorem parseKdfBlockMetadata_block {blob front back : Bytes} {params : Params} (header : front.length = headerSize)
    (shape : blob = front ++ (buildKdfBlock params ++ back)) {argon2 : Argon2.Params}
    (valid : Argon2.validateParams params.argon2 = .ok argon2)
    (known : compositeModeFromEnum params.compositeMode = some (compositeModeFromFlags params.flags)) :
    parseKdfBlockMetadata blob kdfBlockLen params.flags =
      .ok { argon2, compositeMode := params.compositeMode, mode := compositeModeFromFlags params.flags, haveCompositeMode := true } := by
  have whole : blob = front ++ (leBytes 2 kdfBlockVersionMajor ++ (leBytes 2 kdfBlockVersionMinor ++ (leBytes 4 6 ++
      (((kdfTlvs params).flatMap fun entry => tlv entry.1 entry.2) ++ back)))) := by
    rw [shape]
    unfold buildKdfBlock
    simp only [List.append_assoc]
  have major : load blob headerSize 2 = .ok kdfBlockVersionMajor := load_le (by decide) header whole
  have minor : load blob (headerSize + 2) 2 = .ok kdfBlockVersionMinor := by
    have behind : blob = (front ++ leBytes 2 kdfBlockVersionMajor) ++ (leBytes 2 kdfBlockVersionMinor ++ (leBytes 4 6 ++
        (((kdfTlvs params).flatMap fun entry => tlv entry.1 entry.2) ++ back))) := by rw [whole, List.append_assoc]
    exact load_le (by decide) (by rw [List.length_append, header, leBytes_length]) behind
  have count : load blob (headerSize + 4) 4 = .ok 6 := by
    have behind : blob = (front ++ (leBytes 2 kdfBlockVersionMajor ++ leBytes 2 kdfBlockVersionMinor)) ++ (leBytes 4 6 ++
        (((kdfTlvs params).flatMap fun entry => tlv entry.1 entry.2) ++ back)) := by
      rw [whole]
      simp only [List.append_assoc]
    refine load_le (by decide) ?_ behind
    rw [List.length_append, List.length_append, header, leBytes_length, leBytes_length]
  have entries (scan : KdfScan) : kdfEntries blob (headerSize + kdfBlockLen) 6 (headerSize + 8) scan =
      .ok { argon2 := params.argon2, compositeMode := params.compositeMode, mode := compositeModeFromFlags params.flags, haveCompositeMode := true } := by
    have behind : blob = (front ++ (leBytes 2 kdfBlockVersionMajor ++ (leBytes 2 kdfBlockVersionMinor ++ leBytes 4 6))) ++
        (((kdfTlvs params).flatMap fun entry => tlv entry.1 entry.2) ++ back) := by
      rw [whole]
      simp only [List.append_assoc]
    have place : (front ++ (leBytes 2 kdfBlockVersionMajor ++
      (leBytes 2 kdfBlockVersionMinor ++ leBytes 4 6))).length = headerSize + 8 := by
      rw [List.length_append, List.length_append, List.length_append, header, leBytes_length, leBytes_length, leBytes_length]
    have fine : ∀ entry ∈ kdfTlvs params, entry.1 < 256 ^ 2 ∧ entry.2.length < 256 ^ 4 := by
      unfold kdfTlvs
      simp [leBytes_length]
    rw [← foldlM_kdfTlvs params known scan, ← kdfEntries_flatMap _ fine behind _ scan, place]
    · rfl
    · rw [place, kdfTlvs_length]
      decide
  unfold parseKdfBlockMetadata
  refine bind_eq_ok.mpr ⟨(), ensure_ok (by decide), ?_⟩
  refine bind_eq_ok.mpr ⟨_, major, bind_eq_ok.mpr ⟨(), ensure_ok rfl, ?_⟩⟩
  refine bind_eq_ok.mpr ⟨_, minor, bind_eq_ok.mpr ⟨(), ensure_ok rfl, ?_⟩⟩
  refine bind_eq_ok.mpr ⟨_, count, bind_eq_ok.mpr ⟨_, entries _, ?_⟩⟩
  refine bind_eq_ok.mpr ⟨(), ensure_ok fun _ => rfl, ?_⟩
  exact bind_eq_ok.mpr ⟨argon2, ofPm_eq_ok.mpr valid, rfl⟩

section
variable (params : Params) (payloadLen : Nat) (salt : Buf saltSize) (iv : Buf ivSize) (tag : Buf gcmTagSize)

def finalHeader : Header := (checkedHeader (plainHeader params payloadLen salt iv)).store gcmTagOffset tag gcmTag_fits

/-- The tag does not count for what is authenticated. -/
theorem finalHeader_view : headerPrepareAuthenticatedView (finalHeader params payloadLen salt iv tag) =
    headerPrepareAuthenticatedView (checkedHeader (plainHeader params payloadLen salt iv)) := Buf.store_store_same ..

/-- Neither the tag nor the checksum itself counts for the checksum. -/
theorem finalHeader_crc : headerCrc32Authenticated (finalHeader params payloadLen salt iv tag) =
    headerCrc32Authenticated (plainHeader params payloadLen salt iv) := by
  have apart : Buf.Apart headerCrcOffset 4 gcmTagOffset gcmTagSize := by decide
  unfold headerCrc32Authenticated
  rw [finalHeader_view]
  unfold headerPrepareAuthenticatedView checkedHeader
  rw [Buf.store_store_apart _ _ _ _ _ apart, Buf.store_store_same]

structure Reads (header : Header) : Prop where
  magic : header.field 0x00 8 (by decide) = magic
  versionMajor : header.field 0x08 1 (by decide) = .single params.versionMajor
  versionMinor : header.field 0x09 1 (by decide) = .single params.versionMinor
  size : header.field 0x0A 2 (by decide) = .le 2 headerSize
  flags : header.field 0x0C 4 (by decide) = .le 4 params.flags.toNat
  fileSequence : header.field 0x10 8 (by decide) = .le 8 params.fileSequence.toNat
  crc : header.field headerCrcOffset 4 (by decide) = .le 4 (headerCrc32Authenticated header).toNat
  kdfAlg : header.field 0x1C 2 (by decide) = .le 2 kdfAlgArgon2id
  encAlg : header.field 0x1E 2 (by decide) = .le 2 encAlgAes256Gcm
  codec : header.field 0x20 2 (by decide) = .le 2 payloadCodecCbor
  kdfLen : header.field 0x24 4 (by decide) = .le 4 kdfBlockLen
  payloadLen : header.field 0x28 8 (by decide) = .le 8 payloadLen
  salt : header.field 0x30 saltSize (by decide) = salt
  iv : header.field 0x50 ivSize (by decide) = iv
  aadLen : header.field 0x5C 4 (by decide) = .le 4 aadLen
  tag : header.field gcmTagOffset gcmTagSize gcmTag_fits = tag

/-- A field that neither the checksum nor the tag touches. -/
theorem finalHeader_field {offset width : Nat} (fits : offset + width ≤ headerSize)
    (crc : Buf.Apart offset width headerCrcOffset 4)
    (behind : Buf.Apart offset width gcmTagOffset gcmTagSize) :
    (finalHeader params payloadLen salt iv tag).field offset width fits =
    (plainHeader params payloadLen salt iv).field offset width fits := by
  unfold finalHeader checkedHeader
  rw [Buf.field_store_apart _ _ _ _ behind, Buf.field_store_apart _ _ _ _ crc]

theorem finalHeader_reads : Reads params payloadLen salt iv tag (finalHeader params payloadLen salt iv tag) := by
  have crc : (finalHeader params payloadLen salt iv tag).field headerCrcOffset 4 (by decide) =
      .le 4 (headerCrc32Authenticated (finalHeader params payloadLen salt iv tag)).toNat := by
    rw [finalHeader_crc]
    unfold finalHeader checkedHeader
    rw [Buf.field_store_apart _ _ _ _ (by decide), Buf.field_store_same]
  have last : (finalHeader params payloadLen salt iv tag).field gcmTagOffset gcmTagSize gcmTag_fits = tag :=
    Buf.field_store_same ..
  constructor
  case crc => exact crc
  case tag => exact last
  all_goals
    rw [finalHeader_field _ _ _ _ _ _ (by decide) (by decide)]
    unfold plainHeader
    simp (disch := decide) only [Buf.field_store_same, Buf.field_store_apart]

end

section
variable {params : Params} {payloadLen : Nat} {salt : Buf saltSize} {iv : Buf ivSize} {tag : Buf gcmTagSize} {header : Header}

theorem Reads.checkHeader (reads : Reads params payloadLen salt iv tag header) : checkHeader header = .ok () := by
  have small : (headerCrc32Authenticated header).toNat < 256 ^ 4 := (headerCrc32Authenticated header).toNat_lt
  unfold Format.checkHeader
  refine bind_eq_ok.mpr ⟨(), ensure_ok reads.magic, ?_⟩
  refine bind_eq_ok.mpr ⟨(), ensure_ok (by rw [reads.size, Buf.leValue_le (by decide)]), ?_⟩
  refine bind_eq_ok.mpr ⟨(), ensure_ok (by rw [reads.crc, Buf.leValue_le small]), ?_⟩
  refine bind_eq_ok.mpr ⟨(), ensure_ok (by rw [reads.kdfAlg, Buf.leValue_le (by decide)]), ?_⟩
  refine bind_eq_ok.mpr ⟨(), ensure_ok (by rw [reads.encAlg, Buf.leValue_le (by decide)]), ?_⟩
  refine bind_eq_ok.mpr ⟨(), ensure_ok (by rw [reads.codec, Buf.leValue_le (by decide)]), ?_⟩
  exact ensure_ok (by rw [reads.aadLen, Buf.leValue_le (by decide)])

theorem byteAt_single {byte : UInt8} {offset : Nat} {fits : offset + 1 ≤ headerSize}
    (there : header.field offset 1 fits = .single byte) :
    byteAt header offset fits = byte := by
  unfold byteAt
  rw [there]
  change UInt8.ofNat (leNat [byte]) = byte
  rw [leNat, leNat, Nat.mul_zero, Nat.add_zero, UInt8.ofNat_toNat]

/-- A file that starts with a header that was made for it. -/
theorem headerOf_append {rest : Bytes} : headerOf (header.bytes ++ rest) = header := by
  apply Buf.ext
  have front : (header.bytes ++ rest).take headerSize = header.bytes := List.take_left' header.length_bytes
  change (header.bytes ++ rest).take headerSize ++
    List.replicate (headerSize - ((header.bytes ++ rest).take headerSize).length) 0 = header.bytes
  rw [front, header.length_bytes, Nat.sub_self, List.replicate_zero, List.append_nil]

/-- A file that was made of its parts is parsed into these parts. -/
theorem vaultParseMetadata_file (reads : Reads params payloadLen salt iv tag header) {cipher mac : Bytes}
    (sized : cipher.length = payloadLen) (short : payloadLen ≤ ptrdiffMax) (closed : mac.length = hmacSize)
    (version : params.versionMajor = versionMajorSupported) {argon2 : Argon2.Params}
    (valid : Argon2.validateParams params.argon2 = .ok argon2)
    (known : compositeModeFromEnum params.compositeMode = some (compositeModeFromFlags params.flags)) :
    vaultParseMetadata (header.bytes ++ (buildKdfBlock params ++ cipher) ++ mac) = .ok {
      params := { params with argon2 }
      mode := compositeModeFromFlags params.flags
      kdfBlockLen
      payloadLen
      salt
      iv } := by
  have shape : header.bytes ++ (buildKdfBlock params ++ cipher) ++ mac = header.bytes ++
    (buildKdfBlock params ++ (cipher ++ mac)) := by
    simp only [List.append_assoc]
  have length : (header.bytes ++ (buildKdfBlock params ++ cipher) ++ mac).length = headerSize + kdfBlockLen +
    payloadLen + hmacSize := by
    simp only [List.length_append, header.length_bytes, buildKdfBlock_length, sized, closed]
    omega
  have kdfValue : (header.field 0x24 4 (by decide)).leValue = kdfBlockLen := by rw [reads.kdfLen, Buf.leValue_le (by decide)]
  have payloadValue : (header.field 0x28 8 (by decide)).leValue = payloadLen := by
    rw [reads.payloadLen, Buf.leValue_le]
    exact Nat.lt_of_le_of_lt short (by decide)
  have major : byteAt header 0x08 (by decide) = params.versionMajor := byteAt_single reads.versionMajor
  have minor : byteAt header 0x09 (by decide) = params.versionMinor := byteAt_single reads.versionMinor
  have flags : UInt32.ofNat (header.field 0x0C 4 (by decide)).leValue = params.flags := by
    rw [reads.flags, Buf.leValue_le params.flags.toNat_lt, UInt32.ofNat_toNat]
  have sequence : UInt64.ofNat (header.field 0x10 8 (by decide)).leValue = params.fileSequence := by
    rw [reads.fileSequence, Buf.leValue_le params.fileSequence.toNat_lt, UInt64.ofNat_toNat]
  have block : parseKdfBlockMetadata (header.bytes ++ (buildKdfBlock params ++ cipher) ++ mac) kdfBlockLen params.flags =
      .ok { argon2, compositeMode := params.compositeMode, mode := compositeModeFromFlags params.flags, haveCompositeMode := true } :=
    parseKdfBlockMetadata_block header.length_bytes shape valid known
  unfold vaultParseMetadata
  refine bind_eq_ok.mpr ⟨(), ensure_ok (by rw [length]; omega), ?_⟩
  dsimp only
  rw [shape, headerOf_append, ← shape, kdfValue, payloadValue, flags, major, minor, sequence, reads.salt, reads.iv]
  refine bind_eq_ok.mpr ⟨(), ofPm_eq_ok.mpr reads.checkHeader, ?_⟩
  refine bind_eq_ok.mpr ⟨(), ensure_ok ?_, ?_⟩
  · rw [length]
    refine Nat.mod_eq_of_lt ?_
    unfold ptrdiffMax at short
    unfold headerSize kdfBlockLen hmacSize
    omega
  refine bind_eq_ok.mpr ⟨(), ensure_ok version, ?_⟩
  exact bind_eq_ok.mpr ⟨_, block, rfl⟩

end

section
variable {lib : Primitives} {env : Env} {request : WriteRequest}

structure Written (lib : Primitives) (env : Env) (request : WriteRequest) where
  argon2 : Argon2.Params
  salt : Buf saltSize
  iv : Buf ivSize
  cipher : Bytes
  tag : Buf gcmTagSize
  hmacKey : Buf 32
  mac : Buf hmacSize
  version : request.params.versionMajor = versionMajorSupported
  valid : Argon2.validateParams request.params.argon2 = .ok argon2
  known : compositeModeFromEnum request.params.compositeMode = some (compositeModeFromFlags request.params.flags)
  salted : request.salt.or env.randomSalt = some salt
  started : request.iv.or env.randomIv = some iv
  short : request.payload.length ≤ ptrdiffMax
  sealed : lib.gcmSeal request.masterKey iv
    (headerPrepareAuthenticatedView (checkedHeader
      (plainHeader request.params request.payload.length salt iv))).bytes request.payload =
      some (cipher, tag)
  keyed : lib.hkdf salt request.masterKey hmacInfo = some hmacKey
  closed : lib.hmac hmacKey
    ((finalHeader request.params request.payload.length salt iv tag).bytes ++
      (buildKdfBlock request.params ++ cipher)) = some mac

namespace Written

def header (file : Written lib env request) : Header :=
    finalHeader request.params request.payload.length file.salt file.iv file.tag

def body (file : Written lib env request) : Bytes := file.header.bytes ++ (buildKdfBlock request.params ++ file.cipher)

def blob (file : Written lib env request) : Bytes := file.body ++ file.mac.bytes

/-- What is to be read from it. -/
def metadata (file : Written lib env request) : Metadata where
  params := { request.params with argon2 := file.argon2 }
  mode := compositeModeFromFlags request.params.flags
  kdfBlockLen := kdfBlockLen
  payloadLen := request.payload.length
  salt := file.salt
  iv := file.iv

end Written

/-- What is needed besides the primitives. -/
structure Supplied (env : Env) (request : WriteRequest) : Prop where
  ready : env.cryptoReady = true
  memory : ∀ size ∈ [kdfBlockLen, request.payload.length, headerSize + kdfBlockLen + request.payload.length + hmacSize],
    env.malloc size = true

/-- A file is written where its parts can be made. -/
theorem vaultSerialize_iff {blob : Bytes} : vaultSerialize lib env request = .ok blob ↔
    request.payload ≠ [] ∧ Supplied env request ∧ ∃ file : Written lib env request, blob = file.blob := by
  constructor
  · intro written
    unfold vaultSerialize at written
    obtain ⟨_, filled, written⟩ := bind_eq_ok.mp written
    obtain ⟨_, ready, written⟩ := bind_eq_ok.mp written
    obtain ⟨_, version, written⟩ := bind_eq_ok.mp written
    obtain ⟨argon2, valid, written⟩ := bind_eq_ok.mp written
    obtain ⟨mode, known, written⟩ := bind_eq_ok.mp written
    obtain ⟨_, agreed, written⟩ := bind_eq_ok.mp written
    obtain ⟨_, block, written⟩ := bind_eq_ok.mp written
    obtain ⟨salt, salted, written⟩ := bind_eq_ok.mp written
    obtain ⟨iv, started, written⟩ := bind_eq_ok.mp written
    obtain ⟨_, room, written⟩ := bind_eq_ok.mp written
    obtain ⟨⟨cipher, tag⟩, sealed, written⟩ := bind_eq_ok.mp written
    obtain ⟨hmacKey, keyed, written⟩ := bind_eq_ok.mp written
    obtain ⟨_, whole, written⟩ := bind_eq_ok.mp written
    obtain ⟨mac, closed, blob⟩ := bind_eq_ok.mp written
    have agreed := ensure_eq_ok.mp agreed
    have known := orFail_eq_ok.mp known
    have short := (Bool.and_eq_true_iff.mp (ensure_eq_ok.mp room)).1
    rw [← agreed] at known
    rw [buildKdfBlock_length] at whole
    refine ⟨ensure_eq_ok.mp filled, ⟨ensure_eq_ok.mp ready, ?_⟩,
      ⟨argon2, salt, iv, cipher, tag, hmacKey, mac, ensure_eq_ok.mp version, valid, known,
      orFail_eq_ok.mp salted, orFail_eq_ok.mp started, of_decide_eq_true short, orFail_eq_ok.mp sealed, orFail_eq_ok.mp keyed,
      orFail_eq_ok.mp closed⟩, (Except.ok.inj blob).symm⟩
    simpa using ⟨ensure_eq_ok.mp block, ensure_eq_ok.mp room, ensure_eq_ok.mp whole⟩
  · intro ⟨filled, ⟨ready, memory⟩, file, same⟩
    rw [same]
    obtain ⟨block, room, whole⟩ : env.malloc kdfBlockLen = true ∧ env.malloc request.payload.length = true ∧
        env.malloc (headerSize + kdfBlockLen + request.payload.length + hmacSize) = true := by simpa using memory
    rw [← buildKdfBlock_length request.params] at whole
    unfold vaultSerialize
    refine bind_eq_ok.mpr ⟨_, ensure_ok filled, bind_eq_ok.mpr ⟨_, ensure_ok ready, ?_⟩⟩
    refine bind_eq_ok.mpr ⟨_, ensure_ok file.version, bind_eq_ok.mpr ⟨_, file.valid, ?_⟩⟩
    refine bind_eq_ok.mpr ⟨_, orFail_eq_ok.mpr file.known, bind_eq_ok.mpr ⟨_, ensure_ok rfl, ?_⟩⟩
    refine bind_eq_ok.mpr ⟨_, ensure_ok block, bind_eq_ok.mpr ⟨_, orFail_eq_ok.mpr file.salted, ?_⟩⟩
    refine bind_eq_ok.mpr ⟨_, orFail_eq_ok.mpr file.started, bind_eq_ok.mpr ⟨_, ensure_ok room, ?_⟩⟩
    refine bind_eq_ok.mpr ⟨_, orFail_eq_ok.mpr file.sealed, bind_eq_ok.mpr ⟨_, orFail_eq_ok.mpr file.keyed, ?_⟩⟩
    exact bind_eq_ok.mpr ⟨_, ensure_ok whole, bind_eq_ok.mpr ⟨_, orFail_eq_ok.mpr file.closed, rfl⟩⟩

theorem vaultSerialize_written {blob : Bytes} (written : vaultSerialize lib env request = .ok blob) :
    ∃ file : Written lib env request, blob = file.blob := (vaultSerialize_iff.mp written).2.2

namespace Written

theorem reads (file : Written lib env request) :
    Reads request.params request.payload.length file.salt file.iv file.tag file.header := finalHeader_reads ..

theorem take_body (file : Written lib env request) : file.blob.take (file.blob.length - hmacSize) = file.body := by
  have length : file.blob.length - hmacSize = file.body.length := by
    unfold blob
    rw [List.length_append, file.mac.length_bytes, Nat.add_sub_cancel]
  rw [length]
  exact List.take_left

variable (file : Written lib env request) (lawful : lib.Lawful)
include lawful

theorem parses : vaultParseMetadata file.blob = .ok file.metadata :=
  vaultParseMetadata_file file.reads (lawful.length file.sealed)
    file.short file.mac.length_bytes file.version file.valid file.known

theorem body_length : file.body.length = headerSize + kdfBlockLen + request.payload.length := by
  unfold body
  rw [List.length_append, List.length_append, Buf.length_bytes, buildKdfBlock_length, lawful.length file.sealed,
    Nat.add_assoc]

theorem fetch_mac : fetch file.blob ((headerSize + kdfBlockLen + request.payload.length) % 2 ^ 64) hmacSize =
    .ok file.mac.bytes := by
  have place : (headerSize + kdfBlockLen + request.payload.length) % 2 ^ 64 = headerSize + kdfBlockLen +
    request.payload.length := by
    have short := file.short
    refine Nat.mod_eq_of_lt ?_
    unfold ptrdiffMax at short
    unfold headerSize kdfBlockLen
    omega
  have shape : file.blob = file.body ++ (file.mac.bytes ++ []) := by
    rw [List.append_nil]
    rfl
  have fetched := fetch_append shape
  rwa [file.body_length lawful, file.mac.length_bytes, ← place] at fetched

theorem fetch_cipher : fetch file.blob (headerSize + kdfBlockLen) request.payload.length = .ok file.cipher := by
  have shape : file.blob = (file.header.bytes ++ buildKdfBlock request.params) ++ (file.cipher ++ file.mac.bytes) := by
    unfold blob body
    simp only [List.append_assoc]
  have fetched := fetch_append shape
  rwa [List.length_append, Buf.length_bytes, buildKdfBlock_length, lawful.length file.sealed] at fetched

/-- The key of the file opens it, if there is memory for the payload. -/
theorem deserializes {later : Env} (ready : later.cryptoReady = true) (room : later.allocates request.payload.length = true) :
    vaultDeserialize lib later file.blob request.masterKey =
      .ok { params := file.metadata.params, salt := file.salt, iv := file.iv, payload := request.payload } := by
  have front : headerOf file.blob = file.header := by
    unfold blob body
    rw [List.append_assoc, headerOf_append]
  have view : headerPrepareAuthenticatedView file.header = _ := finalHeader_view ..
  have memory : later.malloc request.payload.length = true := Bool.and_eq_true_iff.mpr ⟨decide_eq_true file.short, room⟩
  unfold vaultDeserialize
  refine bind_eq_ok.mpr ⟨(), ensure_ok ready, bind_eq_ok.mpr ⟨_, file.parses lawful, ?_⟩⟩
  dsimp only
  rw [front, file.take_body, view, file.reads.tag]
  refine bind_eq_ok.mpr ⟨file.hmacKey, ofPm_eq_ok.mpr (orFail_eq_ok.mpr file.keyed), ?_⟩
  refine bind_eq_ok.mpr ⟨file.mac, orFail_eq_ok.mpr file.closed, ?_⟩
  refine bind_eq_ok.mpr ⟨_, file.fetch_mac lawful, bind_eq_ok.mpr ⟨(), ensure_ok rfl, ?_⟩⟩
  refine bind_eq_ok.mpr ⟨(), ensure_ok memory, bind_eq_ok.mpr ⟨_, file.fetch_cipher lawful, ?_⟩⟩
  exact bind_eq_ok.mpr ⟨_, orFail_eq_ok.mpr (lawful.opens file.sealed), rfl⟩

end Written

end

/-- A vault that was written is read back under its key: the payload, the salt and all
parameters, with defaults for the parameters of the key derivation that were zero. -/
theorem vault_round_trip (lib : Primitives) (lawful : lib.Lawful) (env : Env) (request : WriteRequest) (blob : Bytes)
    (written : vaultSerialize lib env request = .ok blob) (later : Env) (ready : later.cryptoReady = true)
    (room : later.allocates request.payload.length = true) :
    ∃ result, vaultDeserialize lib later blob request.masterKey = .ok result ∧ result.payload = request.payload ∧
      result.params = { request.params with argon2 := request.params.argon2.normalize } ∧
      request.salt.or env.randomSalt = some result.salt ∧ request.iv.or env.randomIv = some result.iv := by
  obtain ⟨file, same⟩ := vaultSerialize_written written
  have normal : file.argon2 = request.params.argon2.normalize := Argon2.validateParams_ok file.valid
  have read := file.deserializes lawful ready room
  unfold Written.metadata at read
  rw [normal, ← same] at read
  exact ⟨_, read, rfl, rfl, file.salted, file.started⟩

/-- A library that writes the payload as it is. -/
def plainly : Primitives where
  gcmSeal _ _ _ plain := some (plain, .zero gcmTagSize)
  gcmOpen _ _ _ cipher tag := if tag = .zero gcmTagSize then some cipher else none
  hkdf _ _ _ := some (.zero 32)
  hmac _ _ := some (.zero hmacSize)

theorem plainly_lawful : plainly.Lawful where
  opens made := by
    cases made
    unfold plainly
    dsimp only
    rw [if_pos rfl]
  length made := by
    cases made
    rfl

/-- Surroundings in which nothing goes wrong. -/
def quietly : Env where
  cryptoReady := true
  randomSalt := some (.zero saltSize)
  randomIv := some (.zero ivSize)
  allocates _ := true

/-- A vault with one byte, for a number of passes. -/
def smallVault (tCost : UInt32) : WriteRequest where
  params := { versionMajor := 1, versionMinor := 0, flags := 1, fileSequence := 7, argon2 := { defaultArgon2 with tCost }, compositeMode := 0 }
  masterKey := .zero masterKeySize
  payload := [0xA0]
  salt := none
  iv := none

theorem vault_round_trip_small : ∃ blob, vaultSerialize plainly quietly (smallVault 4) = .ok blob ∧
    ∃ result, vaultDeserialize plainly quietly blob (smallVault 4).masterKey = .ok result ∧ result.payload = [0xA0] ∧
      result.params = (smallVault 4).params := by
  refine ⟨_, rfl, ?_⟩
  obtain ⟨result, read, payload, params, -⟩ :=
    vault_round_trip plainly plainly_lawful quietly (smallVault 4) _ rfl quietly rfl rfl
  exact ⟨result, read, payload, params⟩

/-- A number of passes that was left zero is read back as the default. -/
theorem zero_cost_is_filled_in : ∃ blob, vaultSerialize plainly quietly (smallVault 0) = .ok blob ∧
    ∃ result, vaultDeserialize plainly quietly blob (smallVault 0).masterKey = .ok result ∧
      result.params.argon2 ≠ (smallVault 0).params.argon2 := by
  refine ⟨_, rfl, ?_⟩
  obtain ⟨file, same⟩ := @vaultSerialize_written plainly quietly (smallVault 0) _ rfl
  have normal : file.argon2 = (smallVault 0).params.argon2.normalize := Argon2.validateParams_ok file.valid
  rw [same]
  refine ⟨_, file.deserializes plainly_lawful rfl rfl, ?_⟩
  change file.argon2 ≠ _
  rw [normal]
  decide

theorem kdfLen_fits : 0x24 + 4 ≤ headerSize := by decide

theorem payloadLen_fits : 0x28 + 8 ≤ headerSize := by decide

def kdfLenOf (blob : Bytes) : Nat := ((headerOf blob).field 0x24 4 kdfLen_fits).leValue

def payloadLenOf (blob : Bytes) : Nat := ((headerOf blob).field 0x28 8 payloadLen_fits).leValue

/-- The sum of the parts does not leave 64 bits. -/
def LengthsFit (blob : Bytes) : Prop := headerSize + kdfLenOf blob + payloadLenOf blob + hmacSize < 2 ^ 64

def kdfWindow (blob : Bytes) (kdfLen : Nat) : Bytes := (blob.drop headerSize).take kdfLen

/-- The parts make up the file, and the entries are read from the block alone: a file that
has nothing else in common gives the same. -/
structure Contained (blob : Bytes) (metadata : Metadata) : Prop where
  sum : headerSize + metadata.kdfBlockLen + metadata.payloadLen + hmacSize = blob.length
  kdfBlock : headerSize + metadata.kdfBlockLen ≤ blob.length
  ciphertext : headerSize + metadata.kdfBlockLen + metadata.payloadLen ≤ blob.length
  mac : headerSize + metadata.kdfBlockLen + metadata.payloadLen + hmacSize ≤ blob.length
  entries : ∀ other flags, kdfWindow other metadata.kdfBlockLen = kdfWindow blob metadata.kdfBlockLen →
    headerSize + metadata.kdfBlockLen ≤ other.length →
      parseKdfBlockMetadata other metadata.kdfBlockLen flags = parseKdfBlockMetadata blob metadata.kdfBlockLen flags

/-- Behind a check only what passes it counts. -/
theorem ensure_bind_congr {α : Type} {condition : Prop} [Decidable condition] {problem : Stop} {first second : Unit →
    Except Stop α}
    (rest : condition → first () = second ()) : (ensure condition problem >>= first) =
    (ensure condition problem >>= second) := by
  by_cases holds : condition
  · rw [ensure_ok holds]
    exact rest holds
  · unfold ensure
    rw [if_neg holds]
    rfl

section
variable {blob other : Bytes} {kdfLen : Nat}

theorem fetch_window (inside : headerSize + kdfLen ≤ blob.length) {place count : Nat} (low : headerSize ≤ place)
    (high : place + count ≤ headerSize + kdfLen) :
    fetch blob place count = .ok (((kdfWindow blob kdfLen).drop (place - headerSize)).take count) := by
  unfold fetch kdfWindow
  rw [if_pos (by omega), List.drop_take, List.drop_drop, List.take_take, Nat.add_sub_cancel' low, Nat.min_eq_left (by omega)]

section
variable (inside : headerSize + kdfLen ≤ blob.length) (outside : headerSize + kdfLen ≤ other.length)
  (same : kdfWindow other kdfLen = kdfWindow blob kdfLen)

include inside outside same

theorem load_window {place width : Nat} (low : headerSize ≤ place) (high : place + width ≤ headerSize + kdfLen) :
    load other place width = load blob place width := by
  unfold load
  rw [fetch_window outside low high, fetch_window inside low high, same]

theorem kdfNumber_window {place vlen : Nat} (low : headerSize ≤ place) (high : place + vlen ≤ headerSize + kdfLen)
    (record : UInt32 → KdfScan) : kdfNumber other place vlen record = kdfNumber blob place vlen record := by
  refine ensure_bind_congr fun four => ?_
  rw [load_window inside outside same low (four ▸ high)]

theorem kdfEntry_window {place vlen : Nat} (low : headerSize ≤ place) (high : place + vlen ≤ headerSize + kdfLen) (type : Nat)
    (scan : KdfScan) : kdfEntry other type place vlen scan = kdfEntry blob type place vlen scan := by
  unfold kdfEntry
  simp only [kdfNumber_window inside outside same low high]
  refine if_congr Iff.rfl rfl (if_congr Iff.rfl rfl (if_congr Iff.rfl rfl (if_congr Iff.rfl ?_ (if_congr Iff.rfl rfl ?_))))
  · refine ensure_bind_congr fun four => ?_
    rw [load_window inside outside same low (four ▸ high)]
  · refine if_congr Iff.rfl (ensure_bind_congr fun two => ?_) rfl
    rw [load_window inside outside same low (two ▸ high)]

/-- The walk over the entries never leaves the block, since every step stays in front of its end. -/
theorem kdfEntries_window (count : Nat) : ∀ place scan, headerSize ≤ place → place ≤ headerSize + kdfLen →
    kdfEntries other (headerSize + kdfLen) count place scan = kdfEntries blob (headerSize + kdfLen) count place scan := by
  induction count with
  | zero => exact fun _ _ _ _ => rfl
  | succ count ih =>
    intro place scan low high
    unfold kdfEntries
    refine ensure_bind_congr fun room => ?_
    have there : headerSize ≤ place + 4 := by omega
    rw [load_window inside outside same low (by omega), load_window inside outside same there (by omega)]
    refine bind_congr fun type => bind_congr fun vlen => ensure_bind_congr fun fits => ?_
    have value : headerSize ≤ place + 8 := by omega
    rw [kdfEntry_window inside outside same value (by omega)]
    exact bind_congr fun scan => ih _ _ (by omega) (by omega)

theorem parseKdfBlockMetadata_window (flags : UInt32) :
    parseKdfBlockMetadata other kdfLen flags = parseKdfBlockMetadata blob kdfLen flags := by
  unfold parseKdfBlockMetadata
  refine ensure_bind_congr fun long => ?_
  have second : headerSize ≤ headerSize + 2 := by omega
  have third : headerSize ≤ headerSize + 4 := by omega
  rw [load_window inside outside same (Nat.le_refl headerSize) (by omega), load_window inside outside same second (by omega),
    load_window inside outside same third (by omega)]
  simp only [kdfEntries_window inside outside same _ (headerSize + 8) _ (by omega) (by omega)]

end

theorem vaultParseMetadata_lengths {metadata : Metadata} (parsed : vaultParseMetadata blob = .ok metadata) :
    metadata.kdfBlockLen = kdfLenOf blob ∧ metadata.payloadLen = payloadLenOf blob ∧
      (headerSize + kdfLenOf blob + payloadLenOf blob + hmacSize) % 2 ^ 64 = blob.length := by
  unfold vaultParseMetadata at parsed
  obtain ⟨_, -, parsed⟩ := bind_eq_ok.mp parsed
  obtain ⟨_, -, parsed⟩ := bind_eq_ok.mp parsed
  obtain ⟨_, whole, parsed⟩ := bind_eq_ok.mp parsed
  obtain ⟨_, -, parsed⟩ := bind_eq_ok.mp parsed
  obtain ⟨scan, -, parsed⟩ := bind_eq_ok.mp parsed
  cases parsed
  exact ⟨rfl, rfl, ensure_eq_ok.mp whole⟩

end

/-- A file that parses is made up of the parts its header tells, and its block is read from
the inside, exactly when the lengths of the parts do not wrap around. -/
theorem parsed_lengths_contained_iff (blob : Bytes) (metadata : Metadata) (parsed : vaultParseMetadata blob = .ok metadata) :
    Contained blob metadata ↔ LengthsFit blob := by
  obtain ⟨kdf, payload, whole⟩ := vaultParseMetadata_lengths parsed
  constructor
  · intro contained
    unfold LengthsFit
    rw [← kdf, ← payload, contained.sum, ← whole]
    exact Nat.mod_lt _ (by decide)
  · intro fit
    have sum : headerSize + metadata.kdfBlockLen + metadata.payloadLen + hmacSize = blob.length := by
      rw [kdf, payload, ← whole, Nat.mod_eq_of_lt fit]
    have block : headerSize + metadata.kdfBlockLen ≤ blob.length := by omega
    exact ⟨sum, block, by omega, by omega, fun other flags same room => parseKdfBlockMetadata_window block room same flags⟩

theorem parsed_lengths_contained_small : ∃ blob, vaultSerialize plainly quietly (smallVault 4) = .ok blob ∧
    ∃ metadata, vaultParseMetadata blob = .ok metadata ∧ Contained blob metadata := by
  refine ⟨_, rfl, ?_⟩
  obtain ⟨file, same⟩ := @vaultSerialize_written plainly quietly (smallVault 4) _ rfl
  have fit : LengthsFit file.blob := by
    rw [← same]
    unfold LengthsFit
    decide +kernel
  rw [same]
  exact ⟨_, file.parses plainly_lawful, (parsed_lengths_contained_iff _ _ (file.parses plainly_lawful)).mpr fit⟩

/-- A file whose header counts the MAC to the block, and takes so much off the payload that
the sum comes round to the length of the file. -/
def wrappedVault : Bytes :=
  (checkedHeader ((plainHeader (smallVault 4).params (2 ^ 64 - 32) (.zero saltSize) (.zero ivSize)).store 0x24
    (.le 4 (kdfBlockLen + hmacSize)) kdfLen_fits)).bytes ++ (buildKdfBlock (smallVault 4).params ++ List.replicate hmacSize 0)

theorem wrapped_lengths_parse : ¬ ∀ (blob : Bytes) (metadata : Metadata), vaultParseMetadata blob = .ok metadata →
    Contained blob metadata := by
  intro claimed
  have accepted : (vaultParseMetadata wrappedVault).toOption.map
    (fun metadata => (metadata.kdfBlockLen, metadata.payloadLen)) =
      some (110, 2 ^ 64 - 32) := by decide +kernel
  obtain ⟨metadata, parsed, lengths⟩ := Option.map_eq_some_iff.mp accepted
  have contained := claimed wrappedVault metadata (by
    cases outcome : vaultParseMetadata wrappedVault with
    | error problem => rw [outcome] at parsed; cases parsed
    | ok other => rw [outcome] at parsed; cases parsed; rfl)
  obtain ⟨kdf, payload⟩ := Prod.mk.injEq .. ▸ lengths
  have sum := contained.sum
  have size : wrappedVault.length = 238 := by decide +kernel
  rw [kdf, payload, size] at sum
  cases sum

end Hiya.Pm.Format
